import ContractBuild.Artifact
import ContractBuild.Build.Output
import ContractBuild.Glob
/-!
Interfaces that leave the build: the selected artifacts and descriptors from elsewhere, merged
into one if that is wanted, each written to a file of its own.
-/
namespace ContractBuild

structure InterfaceExport where
  base : Path
  outDir : Path
  clear : Bool
  flat : Bool
  flatName : String
  spacing : Nat
  externals : List String
  deriving DecidableEq

namespace Descriptor

/-- The name that a JSON object declares for itself. -/
def declaredName? : Json → Option String
  | .object members =>
    match members.find? (·.1 = "contractName") with
    | some (_, .string name) => some name
    | _ => none
  | _ => none

/-- The descriptor in a file, named by what it declares or else by the file's stem. -/
def load (path : Path) : BuildAction Descriptor := do
  match Json.read? (← FileAction.readText path) with
  | none => throw (.invalidDescriptor path "malformed JSON")
  | some value =>
    let name := (declaredName? value).getD (path.fileStem?.getD "")
    match ofJson name value with
    | .ok descriptor => return descriptor
    | .error cause => throw (.invalidDescriptor path (ProjectError.ofDescriptor cause).message)

/-- Puts a descriptor in the place of its name unless the name is taken. -/
def addNamed (descriptor : Descriptor) : List Descriptor → List Descriptor
  | [] => [descriptor]
  | other :: rest =>
    if other.name = descriptor.name then other :: rest
    else if descriptor.name < other.name then descriptor :: other :: rest
    else other :: addNamed descriptor rest

end Descriptor

namespace InterfaceExport

def ofProject (project : Project) : InterfaceExport :=
  let interfaces := project.settings.interfaces
  { base := project.base
    outDir := project.interfacesDir
    clear := interfaces.clear
    flat := interfaces.flat
    flatName := interfaces.flatName
    spacing := interfaces.spacing
    externals := project.settings.bindings.externals }

/-- The extension of descriptor files. -/
def fileExtension : String := "json"

def descriptorPath (exporter : InterfaceExport) (name : String) : Path :=
  exporter.outDir.join ⟨name ++ "." ++ fileExtension⟩

/-- Whether a file found on the way is one that the pattern asks for. The exporter's own files
are none. -/
def isWanted (exporter : InterfaceExport) (glob : Glob) (path : Path) : Bool :=
  !path.isWithin exporter.outDir &&
    (path.relativeTo? exporter.base).any glob.acceptsPath

/-- The files that a pattern stands for, in order. A pattern that names a file outright stands
for that file. What cannot be opened on the way is passed over. -/
def expand (exporter : InterfaceExport) (glob : Glob) : FileAction (List Path) := do
  let root := exporter.base.join glob.literalLead
  let tree ← get
  if tree.isFile root then return [root]
  else if !tree.isDirectory root then return []
  else return (tree.filesReached root).filter (exporter.isWanted glob)

def readAll (found : List Descriptor) : List Path → BuildAction (List Descriptor)
  | [] => return found
  | path :: paths => do readAll (Descriptor.addNamed (← Descriptor.load path) found) paths

def loadFrom (exporter : InterfaceExport) (found : List Descriptor) :
    List String → BuildAction (List Descriptor)
  | [] => return found
  | pattern :: patterns => do
    let paths ← exporter.expand ⟨⟨pattern⟩⟩
    loadFrom exporter (← readAll found paths) patterns

/-- The descriptors in the files that the patterns stand for, one for each name, in the order of
their names. Of several files with one name the first counts. -/
def loadExternals (exporter : InterfaceExport) : BuildAction (List Descriptor) :=
  exporter.loadFrom [] exporter.externals

/-- The descriptors of the selected artifacts in the order of the selection, and then those from
elsewhere whose name is no artifact's. -/
def select (exporter : InterfaceExport) (selection : List String)
    (lookup : String → Option Artifact) (externals : List Descriptor) :
    Except BuildError (List Descriptor) := do
  let missing := selection.filter fun name => (lookup name).isNone
  if !missing.isEmpty then throw (.selection missing)
  let selected := selection.filterMap fun name => (lookup name).map Artifact.descriptor
  let added := externals.filter fun descriptor => (lookup descriptor.name).isNone
  let chosen := selected ++ added
  if exporter.flat then
    match Descriptor.flatten exporter.flatName chosen with
    | .ok merged => return [merged]
    | .error cause => throw (.ofAmbiguity cause)
  else return chosen

/-- The stems of descriptor files that stay when others are cleared away. -/
def scope (exporter : InterfaceExport) (descriptors : List Descriptor) (selection : List String) :
    List String :=
  descriptors.map (·.name) ++ (if exporter.flat then [exporter.flatName] else selection)

def writeEach (exporter : InterfaceExport) : List Descriptor → FileAction (List Path)
  | [] => return []
  | descriptor :: descriptors => do
    let path := exporter.descriptorPath descriptor.name
    let _ ← Output.writeIfChanged path (descriptor.toText exporter.spacing)
    return path :: (← writeEach exporter descriptors)

/-- Writes each descriptor to its file and gives the paths. With `clear`, files of descriptors
out of scope are removed first. -/
def write (exporter : InterfaceExport) (descriptors : List Descriptor) (selection : List String) :
    FileAction (List Path) := do
  FileAction.createDirectories exporter.outDir
  if exporter.clear then
    let _ ← Output.purgeStale exporter.outDir fileExtension (exporter.scope descriptors selection)
  exporter.writeEach descriptors

end InterfaceExport
end ContractBuild
