import ContractBuild.CommandLine.Arguments
import ContractBuild.CommandLine.Console
import ContractBuild.Compiler.Configured
/-!
The commands: laying out a new project, building it, looking at it, and removing what builds have
made.
-/
namespace ContractBuild

/-- What commands need to know of their surroundings. -/
structure Surroundings where
  machine : Machine
  runId : String

namespace Command
open ConsoleAction Text

/-! Laying out a project -/

/-- What the settings file of a new project says behind its name. -/
def presetLines : List String := [
  "version: \"0.1.0\"",
  "sources: contracts",
  "",
  "compilers:",
  "  vyper:",
  "    version: \"0.3.1\"",
  "  solidity:",
  "    version: \"0.8.9\"",
  "    optimizer_runs: 200",
  "",
  "build:",
  "  cache_dir: .kiln/cache",
  "  concurrency: 4",
  "",
  "# Interface descriptors for the listed artifacts",
  "interfaces:",
  "  path: abis",
  "  run_on_compile: true",
  "  clear: true",
  "  flat: false",
  "  only: []",
  "",
  "# Typed client bindings",
  "bindings:",
  "  out_dir: bindings",
  "  target: ethers-v5",
  "  always_generate_overloads: false",
  ""]

/-- The settings file of a new project. -/
def initialSettings (name : String) : String :=
  Text.join "\n" ("# Kiln project configuration" :: ("name: " ++ name) :: presetLines)

/-- The files of a new project that are no part of it. -/
def ignoreList : String :=
  Text.join "\n" ["# Kiln cache and scratch output", ".kiln/", "", "# IDE", ".idea/", ".vscode/", "*.swp", ""]

/-- The name that a project is given, or else that of its directory. -/
def projectName (given : Option String) (directory : Path) : ConsoleAction String :=
  match given, directory.fileName? with
  | some name, _ => return name
  | none, some name => return name
  | none, none => throw (.plain "Could not determine project name from path")

/-- Says what to do with a new project. -/
def sayNextSteps (directory : Path) : ConsoleAction Unit := do
  info ""
  info "Next steps:"
  if directory.text ≠ "." then info ("  cd " ++ directory.text)
  info "  kiln validate    # Check configuration"
  info "  kiln build       # Compile, export interfaces, generate bindings"

def runInit (path : String) (given : Option String) : ConsoleAction Unit := do
  let directory : Path := ⟨path⟩
  if !(← get).files.exists? directory then
    onFiles .ofFile (FileAction.createDirectories directory)
  let place ← onFiles .ofFile (FileAction.canonical directory)
  let name ← projectName given place
  let settings := directory.join Project.settingsFile
  if (← get).files.exists? settings then
    throw (.plain ("Directory '" ++ directory.text ++ "' already contains a "
      ++ Project.settingsFile.text))
  info ("Creating new Kiln project: " ++ name)
  onFiles .ofFile do
    FileAction.createDirectories (directory.join ⟨"contracts"⟩)
    FileAction.writeFile settings (initialSettings name).toUTF8
    FileAction.writeFile (directory.join ⟨".gitignore"⟩) ignoreList.toUTF8
  info ("✓ Created project '" ++ name ++ "' at " ++ place.text)
  sayNextSteps directory

/-! Building -/

def loadProject (config : String) : ConsoleAction Project :=
  onFiles (fun cause => .within "Failed to load configuration" (.ofProject cause))
    (Project.load ⟨config⟩)

/-- The pipeline of a project and its store. -/
def setUp (machine : Machine) (project : Project) : ConsoleAction (Pipeline × Store) := do
  let pipeline : Pipeline := ⟨project, Adapters.ofProject machine project⟩
  let store ← onFiles (fun cause => .within "Failed to set up pipeline" (.ofPipeline cause))
    pipeline.openStore
  return (pipeline, store)

/-- A report as JSON, keys in order. -/
def reportJson (runId : String) (report : RunReport) : Json :=
  let paths (list : List Path) := Json.ofStrings (list.map (·.text))
  .object [
    ("bindings", paths report.bindings),
    ("cache_hits", .ofStrings report.cacheHits),
    ("compiled", .ofStrings report.compiled),
    ("descriptors", paths report.descriptors),
    ("errors", .ofStrings (report.errors.map (·.message))),
    ("generate_skipped", .bool report.generateSkipped),
    ("history", .ofStrings (report.history.map Stage.text)),
    ("id", .string runId),
    ("state", .string report.stage.text)]

def complainEach : List BuildError → ConsoleAction Unit
  | [] => return ()
  | error :: errors => do
    complain ("  ✗ " ++ error.message)
    complainEach errors

def count (list : List α) : String :=
  Numeral.render list.length

/-- Sums a report up. A failed run lists every error and fails. -/
def conclude (runId : String) (report : RunReport) : ConsoleAction Unit := do
  if report.isSuccess then
    info ("✓ " ++ count report.compiled ++ " compiled, " ++ count report.cacheHits ++ " cached, "
      ++ count report.descriptors ++ " descriptors, " ++ count report.bindings ++ " bindings")
  else
    complain ("Build failed with " ++ count report.errors ++ " error(s):")
    complainEach report.errors
    throw (.plain ("run " ++ runId ++ " ended in state " ++ report.stage.text))

def onBuild (store : Store) (action : StateM BuildState α) : ConsoleAction (α × Store) :=
  fun console =>
    let (value, state) := action ⟨Workspace.ofFiles console.files, store⟩
    (.ok (value, state.store), { console with files := state.workspace.files })

/-- Drops what is stored if that is wanted. -/
def clearIf (force : Bool) (pipeline : Pipeline) (store : Store) : ConsoleAction Store := do
  if !force then return store
  match ← onBuild store pipeline.clearCache.run with
  | (.ok (), store) => return store
  | (.error cause, _) => throw (.within "Failed to clear cache" (.ofBuild cause))

def runBuild (surroundings : Surroundings) (config : String) (mode : Mode) (force json : Bool) :
    ConsoleAction Unit := do
  let project ← loadProject config
  info ("Project: " ++ project.settings.name)
  let (pipeline, store) ← setUp surroundings.machine project
  let store ← clearIf force pipeline store
  let (report, _) ← onBuild store (pipeline.run mode)
  if json then print ((reportJson surroundings.runId report).write 2)
  conclude surroundings.runId report

/-! Removing what builds have made -/

def cleanEach : List Path → ConsoleAction Unit
  | [] => return ()
  | directory :: directories => do
    let files := (← get).files
    if files.exists? directory then
      let found := count (files.filesReached directory)
      onFiles (fun cause => .within ("Failed to remove " ++ directory.text) (.ofFile cause))
        (FileAction.removeTree directory)
      info ("Removed " ++ directory.text ++ " (" ++ found ++ " files)")
    cleanEach directories

/-- The directories that a build writes to. -/
def outputDirs (project : Project) : List Path :=
  [project.cacheDir, project.scratchDir, project.interfacesDir, project.bindingsDir]

def runClean (config : String) : ConsoleAction Unit := do
  let project ← loadProject config
  cleanEach (outputDirs project)
  info "✓ Clean"

/-! Looking at a project -/

def readUnits : List Path → ConsoleAction (List SourceUnit)
  | [] => return []
  | path :: paths => do
    let unit ← onFiles (fun cause => .within ("Failed to read " ++ path.text) (.ofProject cause))
      (SourceUnit.read path)
    return unit :: (← readUnits paths)

def sayCompilers (project : Project) : List Language → ConsoleAction Unit
  | [] => return ()
  | language :: languages => do
    match project.settings.compiler? language with
    | some compiler => info ("✓ " ++ language.tag ++ " " ++ compiler.version)
    | none => pure ()
    sayCompilers project languages

def warnUnknown (known : List String) : List String → ConsoleAction Unit
  | [] => return ()
  | name :: names => do
    if name ∉ known then
      warn ("Selected artifact '" ++ name
        ++ "' has no source; extraction will fail with a selection error")
    warnUnknown known names

def complainMissing (units : List SourceUnit) : List Language → ConsoleAction Unit
  | [] => return ()
  | language :: languages => do
    let found := count (units.filter (·.language = language))
    complain ("  ✗ " ++ found ++ " " ++ language.tag
      ++ " source(s) but no compilers." ++ language.tag ++ " section")
    complainMissing units languages

/-- The languages that have sources but no compiler. -/
def lacking (project : Project) (units : List SourceUnit) : List Language :=
  Language.all.filter fun language =>
    units.any (·.language = language) && !project.hasCompiler language

def runValidate (config : String) : ConsoleAction Unit := do
  info ("Validating configuration: " ++ config)
  let project ← loadProject config
  let settings := project.settings
  info ("✓ Project: " ++ settings.name)
  info ("✓ Version: " ++ settings.version)
  sayCompilers project Language.all
  info ("✓ Bindings: " ++ settings.bindings.target.text)
  let paths ← onFiles (fun cause => .within "Failed to discover sources" (.ofProject cause))
    project.sourcePaths
  let units ← readUnits paths
  info ("✓ " ++ count paths ++ " source units in " ++ project.sourcesDir.text)
  warnUnknown (units.map (·.artifactName)) settings.interfaces.only
  let missing := lacking project units
  if !missing.isEmpty then
    complainMissing units missing
    throw (.plain (count missing ++ " language(s) lack a compiler"))
  info "✓ Configuration is valid"

/-- A text filled up with blanks to a width. -/
def padded (width : Nat) (text : String) : String :=
  text ++ String.ofList (List.replicate (width - text.length) ' ')

def statusLine (status : UnitStatus) : String :=
  "  " ++ padded 28 status.name ++ " " ++ padded 9 status.language.tag ++ " "
    ++ status.freshness.text

def printEach : List String → ConsoleAction Unit
  | [] => return ()
  | line :: lines => do
    print line
    printEach lines

def runStatus (machine : Machine) (config : String) : ConsoleAction Unit := do
  let project ← loadProject config
  print ("Project: " ++ project.settings.name ++ " (" ++ project.settings.version ++ ")")
  let (pipeline, store) ← setUp machine project
  let statuses ← onFiles (fun cause => .within "Failed to read source status" (.ofProject cause))
    (pipeline.status store)
  if statuses.isEmpty then print "No contract sources found"
  else
    printEach (statuses.map statusLine)
    print (count statuses ++ " source units, " ++ count store.names
      ++ " cached artifacts")

/-- Runs a command. -/
def run (surroundings : Surroundings) (options : CommandOptions) : ConsoleAction Unit :=
  match options.command with
  | .init path name => runInit path name
  | .compile force json => runBuild surroundings options.config .settings force json
  | .build force json => runBuild surroundings options.config .full force json
  | .clean => runClean options.config
  | .validate => runValidate options.config
  | .status => runStatus surroundings.machine options.config

end Command
end ContractBuild
