import ContractBuild.Binding.Dialect
import ContractBuild.Build.Output
/-!
Bindings on disk: one file for each descriptor and an index over those that were written. A
descriptor that cannot be rendered or written is reported, and the others are not held up.
-/
namespace ContractBuild

structure BindingExport where
  outDir : Path
  dialect : Dialect
  everyOverload : Bool
  clear : Bool
  deriving DecidableEq

structure WrittenBinding where
  name : String
  entries : List String
  path : Path
  status : WriteStatus
  deriving DecidableEq

structure BindingReport where
  outputs : List WrittenBinding
  failures : List BuildError
  index : Path
  deriving DecidableEq

namespace BindingExport

def ofProject (project : Project) : BindingExport :=
  { outDir := project.bindingsDir
    dialect := project.settings.bindings.target
    everyOverload := project.settings.bindings.everyOverload
    clear := project.settings.interfaces.clear }

def bindingPath (exporter : BindingExport) (name : String) : Path :=
  exporter.outDir.join ⟨exporter.dialect.fileName (exporter.dialect.fileStem name)⟩

def indexPath (exporter : BindingExport) : Path :=
  exporter.outDir.join ⟨exporter.dialect.fileName exporter.dialect.indexStem⟩

/-- The files of a pass that writes a binding for every name. -/
def expectedFiles (exporter : BindingExport) (names : List String) : List Path :=
  names.map exporter.bindingPath ++ [exporter.indexPath]

/-- The keys of the callable entries and the code of one binding. -/
def render (exporter : BindingExport) (descriptor : Descriptor) :
    Except BuildError (List String × String) :=
  match BindingPlan.ofDescriptor exporter.everyOverload descriptor with
  | .ok plan => .ok (plan.functions.map (·.key), exporter.dialect.render plan)
  | .error cause => .error (.ofUnmappable cause)

def writeBinding (exporter : BindingExport) (descriptor : Descriptor) :
    BuildAction WrittenBinding := do
  let (entries, code) ← exporter.render descriptor
  let path := exporter.bindingPath descriptor.name
  return ⟨descriptor.name, entries, path, ← Output.writeIfChanged path code⟩

def writeEach (exporter : BindingExport) :
    List Descriptor → StateM FileTree (List WrittenBinding × List BuildError)
  | [] => return ([], [])
  | descriptor :: descriptors => do
    let outcome ← (writeBinding exporter descriptor).run
    let (outputs, failures) ← writeEach exporter descriptors
    match outcome with
    | .ok output => return (output :: outputs, failures)
    | .error cause => return (outputs, cause :: failures)

/-- The stems of binding files that stay when others are cleared away. -/
def scope (exporter : BindingExport) (descriptors : List Descriptor) : List String :=
  exporter.dialect.indexStem :: descriptors.map fun descriptor =>
    exporter.dialect.fileStem descriptor.name

/-- Writes a binding for each descriptor and the index over those that were written. With
`clear`, bindings of other descriptors are removed first. -/
def generate (exporter : BindingExport) (descriptors : List Descriptor) :
    BuildAction BindingReport := do
  FileAction.createDirectories exporter.outDir
  if exporter.clear then
    let _ ← Output.purgeStale exporter.outDir exporter.dialect.fileExtension
      (exporter.scope descriptors)
  let (outputs, failures) ← exporter.writeEach descriptors
  let index := exporter.dialect.renderIndex (outputs.map (·.name))
  let _ ← Output.writeIfChanged exporter.indexPath index
  return ⟨outputs, failures, exporter.indexPath⟩

end BindingExport
end ContractBuild
