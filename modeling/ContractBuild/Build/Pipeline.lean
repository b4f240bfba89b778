import ContractBuild.Build.Job
import ContractBuild.Build.Report
import ContractBuild.Build.Stamp
import ContractBuild.Interface.Export
import ContractBuild.Project.Sources
/-!
The build of a project: compile what changed, write the wanted interfaces, generate bindings. An
error of one source or one binding is noted and the run goes on; an error of the project as a
whole ends the run where it is found, before that stage writes anything.
-/
namespace ContractBuild

structure Pipeline where
  project : Project
  adapters : Adapters

/-- Why a build cannot start or cannot be looked at. -/
inductive PipelineError
  | missingAdapter (language : Language)
  | build (cause : BuildError)
  | project (cause : ProjectError)
  deriving DecidableEq

def PipelineError.message : PipelineError → String
  | missingAdapter language => "no toolchain adapter registered for " ++ language.tag
  | build cause => cause.message
  | project cause => cause.message

/-- How the stored artifact of a source relates to the source. -/
inductive Freshness
  | fresh
  | stale
  | missing
  | noCompiler
  deriving DecidableEq

namespace Freshness

def text : Freshness → String
  | fresh => "fresh"
  | stale => "stale"
  | missing => "missing"
  | noCompiler => "no compiler"

/-- The name in machine-readable output. -/
def tag : Freshness → String
  | noCompiler => "no-compiler"
  | freshness => freshness.text

end Freshness

structure UnitStatus where
  name : String
  path : Path
  language : Language
  freshness : Freshness
  deriving DecidableEq

/-- A run under way. -/
structure RunState where
  report : RunReport
  build : BuildState

/-- A part of a run that can end it. -/
abbrev RunAction (α : Type) := ExceptT BuildError (StateM RunState) α

namespace RunAction

def report (change : RunReport → RunReport) : RunAction Unit :=
  modify fun run => { run with report := change run.report }

/-- A stage is entered. -/
def enter (stage : Stage) : RunAction Unit :=
  report (·.enter stage)

def onStore (action : StoreAction α) : RunAction α := fun run =>
  let (outcome, build) := action run.build
  (outcome, { run with build })

def onFiles (action : BuildAction α) : RunAction α := fun run =>
  let (outcome, files) := action run.build.workspace.files
  (outcome, { run with
    build := { run.build with workspace := { run.build.workspace with files } } })

/-- Looks at the request to cancel. -/
def isCancelled : StateM RunState Bool := fun run =>
  let (seen, workspace) := Workspace.isCancelled run.build.workspace
  (seen, { run with build := { run.build with workspace } })

/-- Ends the run here if the request to cancel has come. -/
def checkpoint : RunAction Unit := do
  if ← (isCancelled : StateM RunState Bool) then throw .cancelled

end RunAction

namespace Pipeline

/-- The store of a project for which every configured language has an adapter. -/
def openStore (pipeline : Pipeline) : ExceptT PipelineError (StateM FileTree) Store := do
  match Language.all.find? fun language =>
      pipeline.project.hasCompiler language && (pipeline.adapters language).isNone with
  | some language => throw (.missingAdapter language)
  | none => FileAction.telling (fun cause => .build (.file cause)) (Store.load pipeline.project.cacheDir)

def stampPath (pipeline : Pipeline) : Path :=
  Stamp.pathIn pipeline.project.cacheDir

/-- Drops every stored artifact and the stamp. -/
def clearCache (pipeline : Pipeline) : StoreAction Unit := do
  Store.clear
  if (← get).workspace.files.exists? pipeline.stampPath then
    StoreAction.onFiles (FileAction.removeFile pipeline.stampPath)

/-- How the stored artifact relates to a source. -/
def freshness (pipeline : Pipeline) (store : Store) (unit : SourceUnit) : Freshness :=
  match pipeline.project.settings.compiler? unit.language, pipeline.adapters unit.language with
  | some compiler, some adapter =>
    match store.lookup unit.artifactName with
    | some artifact =>
      if artifact.fingerprint = Fingerprint.ofUnit unit compiler.version adapter.flags then .fresh
      else .stale
    | none => .missing
  | _, _ => .noCompiler

def statusOf (pipeline : Pipeline) (store : Store) :
    List Path → ProjectAction (List UnitStatus)
  | [] => return []
  | path :: paths => do
    let unit ← SourceUnit.read path
    let status : UnitStatus :=
      ⟨unit.artifactName, path, unit.language, pipeline.freshness store unit⟩
    return status :: (← statusOf pipeline store paths)

/-- The state of every source. -/
def status (pipeline : Pipeline) (store : Store) : ProjectAction (List UnitStatus) := do
  pipeline.statusOf store (← pipeline.project.sourcePaths)

def readUnits (seen : List SourceUnit) : List Path → BuildAction (List SourceUnit)
  | [] => return seen
  | path :: paths => do
    let unit ← ProjectAction.inBuild (SourceUnit.read path)
    match seen.find? (·.artifactName = unit.artifactName) with
    | some first => throw (.duplicateArtifact unit.artifactName first.path path)
    | none => readUnits (seen ++ [unit]) paths

/-- Reads every source. No two may produce artifacts of one name. -/
def discover (pipeline : Pipeline) : BuildAction (List SourceUnit) := do
  readUnits [] (← ProjectAction.inBuild pipeline.project.sourcePaths)

/-- The request for a source, or why there can be none. -/
def workFor (pipeline : Pipeline) (unit : SourceUnit) : Except BuildError Request := do
  match pipeline.adapters unit.language with
  | none => throw (.toolchain unit.language "no adapter registered")
  | some adapter =>
    match pipeline.project.compiler unit.language with
    | .ok compiler => return ⟨unit, compiler.version, adapter⟩
    | .error cause => throw (.toolchain unit.language cause.message)

def jobFor (pipeline : Pipeline) (unit : SourceUnit) : Job :=
  { unit
    selected := unit.artifactName ∈ pipeline.project.settings.interfaces.only
    work := pipeline.workFor unit }

/-- Compiles all sources, notes what they come to, and gives the selected names that failed. -/
def compileAll (pipeline : Pipeline) (units : List SourceUnit) : RunAction (List String) :=
  fun run =>
    let limit := max pipeline.project.settings.build.concurrency 1
    let (results, build) := Job.runAll limit (units.map pipeline.jobFor) run.build
    let summary := CompileSummary.ofResults results
    let report := { run.report with
      compiled := summary.compiled
      cacheHits := summary.cacheHits
      errors := run.report.errors ++ summary.errors }
    (.ok summary.blocked, ⟨report, build⟩)

def interfaceExport (pipeline : Pipeline) : InterfaceExport :=
  .ofProject pipeline.project

def bindingExport (pipeline : Pipeline) : BindingExport :=
  .ofProject pipeline.project

/-- Whether a run goes on behind compilation. -/
def wantsExport (pipeline : Pipeline) : Mode → Bool
  | .settings => pipeline.project.settings.interfaces.runOnCompile
  | .compileOnly => false
  | .full => true

/-- Writes the wanted interfaces, apart from those whose source failed. -/
def extract (pipeline : Pipeline) (blocked : List String) : RunAction (List Descriptor) := do
  let exporter := pipeline.interfaceExport
  let only := pipeline.project.settings.interfaces.only
  let externals ← RunAction.onFiles exporter.loadExternals
  let store := (← get).build.store
  let descriptors ← exporter.select (only.filter fun name => name ∉ blocked) store.lookup externals
  let paths ← RunAction.onFiles (exporter.write descriptors only)
  RunAction.report fun report => { report with descriptors := paths }
  return descriptors

/-- Generates bindings unless they are up to date. -/
def generate (pipeline : Pipeline) (descriptors : List Descriptor) : RunAction Unit := do
  let exporter := pipeline.bindingExport
  let names := descriptors.map (·.name)
  let digest := exporter.digest descriptors
  let stamp ← RunAction.onFiles (Stamp.load pipeline.stampPath)
  let files := (← get).build.workspace.files
  if stamp.generation = some digest && (exporter.expectedFiles names).all files.exists? then
    RunAction.report fun report =>
      { report with bindings := names.map exporter.bindingPath, generateSkipped := true }
  else
    let outcome ← RunAction.onFiles (exporter.generate descriptors)
    RunAction.report fun report => { report with
      bindings := outcome.outputs.map (·.path)
      errors := report.errors ++ outcome.failures }
    let made : Stamp := ⟨if outcome.failures.isEmpty then some digest else none⟩
    RunAction.onFiles (made.save pipeline.stampPath)

/-- The stages of a run. -/
def stages (pipeline : Pipeline) (mode : Mode) : RunAction Unit := do
  RunAction.enter .compiling
  let units ← RunAction.onFiles pipeline.discover
  let _ ← RunAction.onStore (Store.retain (units.map (·.artifactName)))
  RunAction.checkpoint
  let blocked ← pipeline.compileAll units
  RunAction.checkpoint
  if pipeline.wantsExport mode then
    RunAction.enter .extracting
    let descriptors ← pipeline.extract blocked
    RunAction.checkpoint
    RunAction.enter .generating
    pipeline.generate descriptors

/-- One run. The report always comes back. -/
def run (pipeline : Pipeline) (mode : Mode) (state : BuildState) : RunReport × BuildState :=
  let (outcome, run) := pipeline.stages mode ⟨.start, state⟩
  let report := match outcome with
    | .ok () => run.report
    | .error cause => run.report.addError cause
  let (cancelled, run) := RunAction.isCancelled run
  (report.finish cancelled, run.build)

end Pipeline
end ContractBuild
