import ContractBuild.Proofs.Build.Compilation
import ContractBuild.Proofs.Build.Generation

/-!
Where the stages in front of the generation of bindings can end: each error that ends them, what was
done by then, and what the report says of it.
-/
namespace ContractBuild
open FileTree FileAction ContractBuild.Action

namespace RunAction

/-- A checkpoint looks at the request to cancel and does nothing else. -/
theorem checkpoint_apply (run : RunState) :
    checkpoint run = if (isCancelled run).1 then (.error .cancelled, (isCancelled run).2)
      else (.ok (), (isCancelled run).2) := by
  show (if (isCancelled run).1 then throw .cancelled else pure () : RunAction Unit) (isCancelled run).2 = _
  split <;> rfl

end RunAction

namespace Pipeline

def looked (run : RunState) : RunState :=
  (RunAction.isCancelled run).2

def SeesCancelled (run : RunState) : Prop :=
  (Workspace.isCancelled run.build.workspace).1 = true

theorem checkpoint_of_cancelled {run : RunState} (cancelled : SeesCancelled run) :
    RunAction.checkpoint run = (.error .cancelled, looked run) := by
  rw [RunAction.checkpoint_apply]
  exact if_pos cancelled

theorem checkpoint_of_uncancelled {run : RunState} (uncancelled : ¬ SeesCancelled run) :
    RunAction.checkpoint run = (.ok (), looked run) := by
  rw [RunAction.checkpoint_apply]
  exact if_neg uncancelled

@[simp]
theorem report_looked (run : RunState) : (looked run).report = run.report := rfl

@[simp]
theorem files_withFiles (run : RunState) (tree : FileTree) : files (withFiles run tree) = tree := rfl

def entered (run : RunState) (stage : Stage) : RunState :=
  { run with report := run.report.enter stage }

def noteCompiled (results : List JobResult) (report : RunReport) : RunReport :=
  { report with
    compiled := (CompileSummary.ofResults results).compiled
    cacheHits := (CompileSummary.ofResults results).cacheHits
    errors := report.errors ++ (CompileSummary.ofResults results).errors }

/-- A run comes to the end of compilation: the sources it found, the run when it began to compile and
when it had compiled, and the results. -/
structure Compiles (pipeline : Pipeline) (before : RunState) (units : List SourceUnit)
    (checked compiled : RunState) (results : List JobResult) : Prop where
  discovers : ∃ tree evicted retained, pipeline.discover (files before) = (.ok units, tree) ∧
    Store.retain (units.map (·.artifactName)) (withFiles before tree).build = (.ok evicted, retained) ∧
    ¬ SeesCancelled { entered before .compiling with build := retained } ∧
    checked = looked { entered before .compiling with build := retained }
  compiles : Job.runAll (max pipeline.project.settings.build.concurrency 1) (units.map pipeline.jobFor)
    checked.build = (results, compiled.build)
  report : compiled.report = noteCompiled results checked.report

def selection (pipeline : Pipeline) (results : List JobResult) : List String :=
  pipeline.project.settings.interfaces.only.filter
    fun name => name ∉ (CompileSummary.ofResults results).blocked

structure Chooses (pipeline : Pipeline) (mode : Mode) (results : List JobResult) (compiled : RunState)
    (externals descriptors : List Descriptor) (read : FileTree) : Prop where
  overlooks : ¬ SeesCancelled compiled
  wants : pipeline.wantsExport mode = true
  loads : pipeline.interfaceExport.loadExternals (files compiled) = (.ok externals, read)
  selects : pipeline.interfaceExport.select (pipeline.selection results) compiled.build.store.lookup externals =
    .ok descriptors

inductive Extracts (pipeline : Pipeline) (mode : Mode) (results : List JobResult) (compiled : RunState) :
    Except BuildError (Option (List Descriptor)) → RunState → Prop
  | cancelled (sees : SeesCancelled compiled) :
    Extracts pipeline mode results compiled (.error .cancelled) (looked compiled)
  | unwanted (overlooks : ¬ SeesCancelled compiled) (wants : pipeline.wantsExport mode = false) :
    Extracts pipeline mode results compiled (.ok none) (looked compiled)
  | unloaded {cause : BuildError} {read : FileTree} (overlooks : ¬ SeesCancelled compiled)
    (wants : pipeline.wantsExport mode = true)
    (loads : pipeline.interfaceExport.loadExternals (files compiled) = (.error cause, read)) :
    Extracts pipeline mode results compiled (.error cause)
      (withFiles (entered (looked compiled) .extracting) read)
  | unselected {externals : List Descriptor} {cause : BuildError} {read : FileTree}
    (overlooks : ¬ SeesCancelled compiled) (wants : pipeline.wantsExport mode = true)
    (loads : pipeline.interfaceExport.loadExternals (files compiled) = (.ok externals, read))
    (selects : pipeline.interfaceExport.select (pipeline.selection results) compiled.build.store.lookup
      externals = .error cause) :
    Extracts pipeline mode results compiled (.error cause)
      (withFiles (entered (looked compiled) .extracting) read)
  | unwritten {externals descriptors : List Descriptor} {cause : FileError} {read written : FileTree}
    (chooses : pipeline.Chooses mode results compiled externals descriptors read)
    (writes : pipeline.interfaceExport.write descriptors pipeline.project.settings.interfaces.only read =
      (.error cause, written)) :
    Extracts pipeline mode results compiled (.error (.file cause))
      (withFiles (entered (looked compiled) .extracting) written)
  | written {externals descriptors : List Descriptor} {paths : List Path} {read written : FileTree}
    {outcome : Except BuildError (Option (List Descriptor))} {after : RunState}
    (chooses : pipeline.Chooses mode results compiled externals descriptors read)
    (writes : pipeline.interfaceExport.write descriptors pipeline.project.settings.interfaces.only read =
      (.ok paths, written))
    (ends : ∃ last, last = { withFiles (entered (looked compiled) .extracting) written with
        report := { compiled.report.enter .extracting with descriptors := paths } } ∧
      ((SeesCancelled last ∧ outcome = .error .cancelled ∧ after = looked last) ∨
        (¬ SeesCancelled last ∧ outcome = .ok (some descriptors) ∧ after = entered (looked last) .generating))) :
    Extracts pipeline mode results compiled outcome after

inductive Fronts (pipeline : Pipeline) (mode : Mode) (before : RunState) :
    Except BuildError (Option (List Descriptor)) → RunState → Prop
  | unread {cause : BuildError} {tree : FileTree}
    (discovers : pipeline.discover (files before) = (.error cause, tree)) :
    Fronts pipeline mode before (.error cause) (withFiles (entered before .compiling) tree)
  | unretained {units : List SourceUnit} {tree : FileTree} {cause : BuildError} {retained : BuildState}
    (discovers : pipeline.discover (files before) = (.ok units, tree))
    (retains : Store.retain (units.map (·.artifactName)) (withFiles before tree).build =
      (.error cause, retained)) :
    Fronts pipeline mode before (.error cause) { entered before .compiling with build := retained }
  | uncompiled {units : List SourceUnit} {tree : FileTree} {evicted : List String} {retained : BuildState}
    (discovers : pipeline.discover (files before) = (.ok units, tree))
    (retains : Store.retain (units.map (·.artifactName)) (withFiles before tree).build =
      (.ok evicted, retained))
    (sees : SeesCancelled { entered before .compiling with build := retained }) :
    Fronts pipeline mode before (.error .cancelled) (looked { entered before .compiling with build := retained })
  | compiled {units : List SourceUnit} {checked compiled : RunState} {results : List JobResult}
    {outcome : Except BuildError (Option (List Descriptor))} {after : RunState}
    (compiles : pipeline.Compiles before units checked compiled results)
    (extracts : pipeline.Extracts mode results compiled outcome after) :
    Fronts pipeline mode before outcome after

theorem extract_apply (pipeline : Pipeline) (blocked : List String) (run : RunState) :
    pipeline.extract blocked run =
      match pipeline.interfaceExport.loadExternals (files run) with
      | (.error cause, read) => (.error cause, withFiles run read)
      | (.ok externals, read) =>
        match pipeline.interfaceExport.select (pipeline.project.settings.interfaces.only.filter
            fun name => name ∉ blocked) run.build.store.lookup externals with
        | .error cause => (.error cause, withFiles run read)
        | .ok descriptors =>
          match pipeline.interfaceExport.write descriptors pipeline.project.settings.interfaces.only read with
          | (.error cause, written) => (.error (.file cause), withFiles run written)
          | (.ok paths, written) => (.ok descriptors, { withFiles run written with
              report := { run.report with descriptors := paths } }) := by
  unfold extract
  dsimp only
  cases loads : pipeline.interfaceExport.loadExternals (files run) with
  | mk loaded read =>
    have looks : RunAction.onFiles pipeline.interfaceExport.loadExternals run = (loaded, withFiles run read) :=
      onFiles_eq loads
    cases loaded with
    | error cause => rw [bind_of_error looks]
    | ok externals =>
      rw [bind_of_ok looks, bind_of_ok (get_apply _)]
      dsimp only
      show (liftM (pipeline.interfaceExport.select (pipeline.project.settings.interfaces.only.filter
        fun name => name ∉ blocked) run.build.store.lookup externals) >>= _ : RunAction (List Descriptor)) _ = _
      cases pipeline.interfaceExport.select (pipeline.project.settings.interfaces.only.filter
          fun name => name ∉ blocked) run.build.store.lookup externals with
      | error cause => rfl
      | ok descriptors =>
        rw [bind_of_ok (show (liftM (Except.ok descriptors : Except BuildError (List Descriptor)) :
          RunAction (List Descriptor)) (withFiles run read) = (.ok descriptors, withFiles run read) from rfl)]
        dsimp only
        cases writes : pipeline.interfaceExport.write descriptors pipeline.project.settings.interfaces.only
            read with
        | mk wrote written =>
          have tells : RunAction.onFiles (liftM (pipeline.interfaceExport.write descriptors
              pipeline.project.settings.interfaces.only)) (withFiles run read) =
              (wrote.mapError .file, withFiles run written) := by
            apply onFiles_eq
            rw [files_withFiles, inBuild_apply, writes]
            cases wrote <;> rfl
          cases wrote with
          | error cause => rw [bind_of_error tells]
          | ok paths =>
            rw [bind_of_ok tells]
            rfl

def lead (pipeline : Pipeline) : RunAction (List SourceUnit) := do
  RunAction.enter .compiling
  let units ← RunAction.onFiles pipeline.discover
  let _ ← RunAction.onStore (Store.retain (units.map (·.artifactName)))
  RunAction.checkpoint
  return units

def behind (pipeline : Pipeline) (mode : Mode) (blocked : List String) : RunAction (Option (List Descriptor)) := do
  RunAction.checkpoint
  if pipeline.wantsExport mode then
    RunAction.enter .extracting
    let descriptors ← pipeline.extract blocked
    RunAction.checkpoint
    RunAction.enter .generating
    return some descriptors
  else return none

theorem front_eq (pipeline : Pipeline) (mode : Mode) :
    pipeline.front mode = pipeline.lead >>= fun units =>
      pipeline.compileAll units >>= fun blocked => pipeline.behind mode blocked := by
  unfold front lead
  simp only [bind_assoc, pure_bind]
  rfl

theorem compileAll_of_runAll {pipeline : Pipeline} {units : List SourceUnit} {checked : RunState}
    {results : List JobResult} {build : BuildState}
    (ran : Job.runAll (max pipeline.project.settings.build.concurrency 1) (units.map pipeline.jobFor)
      checked.build = (results, build)) :
    pipeline.compileAll units checked =
      (.ok (CompileSummary.ofResults results).blocked, ⟨noteCompiled results checked.report, build⟩) := by
  unfold compileAll
  dsimp only
  rw [ran]
  rfl

theorem behind_extracts (pipeline : Pipeline) (mode : Mode) (results : List JobResult) (compiled : RunState) :
    pipeline.Extracts mode results compiled
      (pipeline.behind mode (CompileSummary.ofResults results).blocked compiled).1
      (pipeline.behind mode (CompileSummary.ofResults results).blocked compiled).2 := by
  unfold behind
  by_cases sees : SeesCancelled compiled
  · rw [bind_of_error (checkpoint_of_cancelled sees)]
    exact .cancelled sees
  rw [bind_of_ok (checkpoint_of_uncancelled sees)]
  cases wants : pipeline.wantsExport mode with
  | false => exact .unwanted sees wants
  | true =>
    rw [if_pos rfl, bind_of_ok (show RunAction.enter .extracting (looked compiled) =
      (.ok (), entered (looked compiled) .extracting) from rfl)]
    have extracts := pipeline.extract_apply (CompileSummary.ofResults results).blocked
      (entered (looked compiled) .extracting)
    rw [show files (entered (looked compiled) .extracting) = files compiled from rfl,
      show (entered (looked compiled) .extracting).build.store = compiled.build.store from rfl] at extracts
    cases loads : pipeline.interfaceExport.loadExternals (files compiled) with
    | mk loaded read =>
      rw [loads] at extracts
      cases loaded with
      | error cause =>
        rw [bind_of_error extracts]
        exact .unloaded sees wants loads
      | ok externals =>
        cases selects : pipeline.interfaceExport.select (pipeline.selection results)
            compiled.build.store.lookup externals with
        | error cause =>
          unfold selection at selects
          simp only [selects] at extracts
          rw [bind_of_error extracts]
          exact .unselected sees wants loads selects
        | ok descriptors =>
          unfold selection at selects
          simp only [selects] at extracts
          cases writes : pipeline.interfaceExport.write descriptors
              pipeline.project.settings.interfaces.only read with
          | mk wrote written =>
            simp only [writes] at extracts
            cases wrote with
            | error cause =>
              rw [bind_of_error extracts]
              exact .unwritten ⟨sees, wants, loads, selects⟩ writes
            | ok paths =>
              rw [bind_of_ok extracts]
              refine .written ⟨sees, wants, loads, selects⟩ writes ⟨_, rfl, ?_⟩
              by_cases seesThen : SeesCancelled { withFiles (entered (looked compiled) .extracting) written with
                  report := { compiled.report.enter .extracting with descriptors := paths } }
              · exact .inl ⟨seesThen, congrArg Prod.fst (bind_of_error (checkpoint_of_cancelled seesThen) _),
                  congrArg Prod.snd (bind_of_error (checkpoint_of_cancelled seesThen) _)⟩
              · exact .inr ⟨seesThen, congrArg Prod.fst (bind_of_ok (checkpoint_of_uncancelled seesThen) _),
                  congrArg Prod.snd (bind_of_ok (checkpoint_of_uncancelled seesThen) _)⟩

theorem lead_apply (pipeline : Pipeline) (run : RunState) :
    pipeline.lead run =
      match pipeline.discover (files run) with
      | (.error cause, tree) => (.error cause, withFiles (entered run .compiling) tree)
      | (.ok units, tree) =>
        match Store.retain (units.map (·.artifactName)) (withFiles run tree).build with
        | (.error cause, retained) => (.error cause, { entered run .compiling with build := retained })
        | (.ok _, retained) =>
          (if (Workspace.isCancelled retained.workspace).1 then .error .cancelled else .ok units,
            looked { entered run .compiling with build := retained }) := by
  unfold lead
  rw [bind_of_ok (show RunAction.enter .compiling run = (.ok (), entered run .compiling) from rfl)]
  cases discovers : pipeline.discover (files run) with
  | mk found tree =>
    have looks : RunAction.onFiles pipeline.discover (entered run .compiling) =
        (found, withFiles (entered run .compiling) tree) := onFiles_eq discovers
    cases found with
    | error cause => rw [bind_of_error looks]
    | ok units =>
      rw [bind_of_ok looks]
      dsimp only
      cases retains : Store.retain (units.map (·.artifactName)) (withFiles run tree).build with
      | mk evicted retained =>
        have evicts : RunAction.onStore (Store.retain (units.map (·.artifactName)))
            (withFiles (entered run .compiling) tree) =
            (evicted, { entered run .compiling with build := retained }) := by
          unfold RunAction.onStore
          rw [show (withFiles (entered run .compiling) tree).build = (withFiles run tree).build from rfl,
            retains]
          rfl
        cases evicted with
        | error cause => rw [bind_of_error evicts]
        | ok evicted =>
          rw [bind_of_ok evicts]
          dsimp only
          by_cases sees : SeesCancelled { entered run .compiling with build := retained }
          · rw [bind_of_error (checkpoint_of_cancelled sees),
              if_pos (show (Workspace.isCancelled retained.workspace).1 = true from sees)]
          · rw [bind_of_ok (checkpoint_of_uncancelled sees),
              if_neg (show ¬ (Workspace.isCancelled retained.workspace).1 = true from sees)]
            rfl

theorem lead_of_compiles {pipeline : Pipeline} {before checked compiled : RunState} {units : List SourceUnit}
    {results : List JobResult} (compiles : pipeline.Compiles before units checked compiled results) :
    pipeline.lead before = (.ok units, checked) := by
  obtain ⟨tree, evicted, retained, discovers, retains, overlooks, rfl⟩ := compiles.discovers
  rw [lead_apply, discovers]
  dsimp only
  rw [retains]
  dsimp only
  rw [if_neg (show ¬ (Workspace.isCancelled retained.workspace).1 = true from overlooks)]

theorem front_fronts (pipeline : Pipeline) (mode : Mode) (before : RunState) :
    pipeline.Fronts mode before (pipeline.front mode before).1 (pipeline.front mode before).2 := by
  have leads := pipeline.lead_apply before
  rw [front_eq]
  cases discovers : pipeline.discover (files before) with
  | mk found tree =>
    rw [discovers] at leads
    cases found with
    | error cause =>
      rw [bind_of_error leads]
      exact .unread discovers
    | ok units =>
      dsimp only at leads
      cases retains : Store.retain (units.map (·.artifactName)) (withFiles before tree).build with
      | mk evicted retained =>
        rw [retains] at leads
        cases evicted with
        | error cause =>
          rw [bind_of_error leads]
          exact .unretained discovers retains
        | ok evicted =>
          dsimp only at leads
          by_cases sees : SeesCancelled { entered before .compiling with build := retained }
          · rw [if_pos (show (Workspace.isCancelled retained.workspace).1 = true from sees)] at leads
            rw [bind_of_error leads]
            exact .uncompiled discovers retains sees
          · rw [if_neg (show ¬ (Workspace.isCancelled retained.workspace).1 = true from sees)] at leads
            rw [bind_of_ok leads]
            generalize checks : looked { entered before .compiling with build := retained } = checked
            cases ran : Job.runAll (max pipeline.project.settings.build.concurrency 1)
                (units.map pipeline.jobFor) checked.build with
            | mk results build =>
              rw [bind_of_ok (compileAll_of_runAll ran)]
              exact .compiled ⟨⟨tree, evicted, retained, discovers, retains, sees, checks.symm⟩, ran, rfl⟩
                (pipeline.behind_extracts mode results _)

theorem front_of_compiles {pipeline : Pipeline} {mode : Mode} {before checked compiled : RunState}
    {units : List SourceUnit} {results : List JobResult}
    (compiles : pipeline.Compiles before units checked compiled results) :
    pipeline.front mode before = pipeline.behind mode (CompileSummary.ofResults results).blocked compiled := by
  have compiled : pipeline.compileAll units checked = (.ok (CompileSummary.ofResults results).blocked, compiled) := by
    rw [compileAll_of_runAll compiles.compiles, ← compiles.report]
  rw [front_eq, bind_of_ok (lead_of_compiles compiles), bind_of_ok compiled]

def rest (pipeline : Pipeline) (mode : Mode) (results : List JobResult) : RunAction Unit := do
  match ← pipeline.behind mode (CompileSummary.ofResults results).blocked with
  | some descriptors => pipeline.generate descriptors
  | none => return ()

theorem stages_of_compiles {pipeline : Pipeline} {mode : Mode} {before checked compiled : RunState}
    {units : List SourceUnit} {results : List JobResult}
    (compiles : pipeline.Compiles before units checked compiled results) :
    pipeline.stages mode before = pipeline.rest mode results compiled := by
  rw [stages_eq, bind_apply, front_of_compiles compiles]
  exact (bind_apply (pipeline.behind mode _) _ compiled).symm

def conclude (ended : Except BuildError Unit × RunState) : RunReport × BuildState :=
  let report := match ended.1 with
    | .ok () => ended.2.report
    | .error cause => ended.2.report.addError cause
  (report.finish (RunAction.isCancelled ended.2).1, (looked ended.2).build)

theorem run_eq (pipeline : Pipeline) (mode : Mode) (state : BuildState) :
    pipeline.run mode state = conclude (pipeline.stages mode ⟨.start, state⟩) := by
  unfold run conclude
  rcases pipeline.stages mode ⟨.start, state⟩ with ⟨cause | ⟨⟩, last⟩ <;> rfl

end Pipeline
end ContractBuild
