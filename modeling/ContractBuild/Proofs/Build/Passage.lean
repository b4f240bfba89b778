import ContractBuild.Proofs.Build.Endings

/-!
Runs that go through to the generation of bindings: what each stage in front of it found and did.
-/
namespace ContractBuild
open FileTree FileAction ContractBuild.Action

theorem Workspace.isCancelled_of_quiet {workspace : Workspace} (quiet : workspace.cancellation = .quiet) :
    Workspace.isCancelled workspace = (false, workspace) := by
  obtain ⟨files, cancellation, versions, calls⟩ := workspace
  obtain rfl : cancellation = .quiet := quiet
  rfl

namespace RunAction

theorem isCancelled_of_quiet {run : RunState} (quiet : run.build.workspace.cancellation = .quiet) :
    isCancelled run = (false, run) := by
  unfold isCancelled
  rw [Workspace.isCancelled_of_quiet quiet]

/-- Where no cancellation is asked for, a checkpoint does nothing. -/
theorem checkpoint_of_quiet {run : RunState} (quiet : run.build.workspace.cancellation = .quiet) :
    checkpoint run = (.ok (), run) := by
  show (if (isCancelled run).1 then throw .cancelled else pure () : RunAction Unit) (isCancelled run).2 = _
  rw [isCancelled_of_quiet quiet]
  rfl

end RunAction

namespace Pipeline

structure Passes (pipeline : Pipeline) (mode : Mode) (before after : RunState) (units : List SourceUnit)
    (checked compiled : RunState) (results : List JobResult) (externals : List Descriptor)
    (read : FileTree) (descriptors : List Descriptor) : Prop where
  compiles : pipeline.Compiles before units checked compiled results
  chooses : pipeline.Chooses mode results compiled externals descriptors read
  writes : ∃ paths, pipeline.interfaceExport.write descriptors pipeline.project.settings.interfaces.only
    read = (.ok paths, files after)
  store : after.build.store = compiled.build.store
  errors : after.report.errors = before.report.errors ++ (CompileSummary.ofResults results).errors

theorem front_ok {pipeline : Pipeline} {mode : Mode} {before after : RunState}
    {descriptors : List Descriptor} (ran : pipeline.front mode before = (.ok (some descriptors), after)) :
    ∃ units checked compiled results externals read,
      pipeline.Passes mode before after units checked compiled results externals read descriptors := by
  have fronts := pipeline.front_fronts mode before
  rw [ran] at fronts
  cases fronts with
  | @compiled units checked compiled results _ _ compiles extracts =>
    obtain ⟨tree, evicted, retained, _, _, _, rfl⟩ := compiles.discovers
    cases extracts with
    | @written externals _ paths read written _ _ chooses writes ends =>
      obtain ⟨last, rfl, ⟨_, outcome, _⟩ | ⟨_, outcome, rfl⟩⟩ := ends
      · cases outcome
      · cases outcome
        exact ⟨units, _, compiled, results, externals, read, compiles, chooses, ⟨paths, writes⟩, rfl,
          congrArg RunReport.errors compiles.report⟩

/-- A run that ended in `done` went through all its stages without an error. -/
theorem run_done {pipeline : Pipeline} {mode : Mode} {state : BuildState}
    (done : (pipeline.run mode state).1.stage = .done) :
    ∃ last, pipeline.stages mode ⟨.start, state⟩ = (.ok (), last) ∧ last.report.errors = [] := by
  have clean : ∀ (report : RunReport) cancelled, (report.finish cancelled).stage = .done →
      report.errors = [] := by
    intro report cancelled finished
    cases cancelled with
    | true => simp [RunReport.finish, RunReport.enter] at finished
    | false =>
      cases errors : report.errors with
      | nil => rfl
      | cons cause causes => simp [RunReport.finish, RunReport.enter, errors] at finished
  unfold run at done
  cases ran : pipeline.stages mode ⟨.start, state⟩ with
  | mk outcome last =>
    rw [ran] at done
    cases outcome with
    | ok value => exact ⟨last, rfl, clean _ _ done⟩
    | error cause =>
      have none := clean _ _ done
      simp [RunReport.addError] at none

/-! Runs that find everything as an earlier one left it -/

/-- Where all artifacts are fresh, no adapter is called. -/
theorem compileAll_of_fresh (pipeline : Pipeline) {units : List SourceUnit} {run : RunState}
    (fresh : Pool.AllFresh (units.map pipeline.workFor) run.build.store) :
    ∃ cacheHits after, pipeline.compileAll units run =
        (.ok [], ⟨{ run.report with compiled := [], cacheHits }, after⟩) ∧
      after.workspace = run.build.workspace ∧ after.store.live = run.build.store.live ∧
      after.store.counters.compiles = run.build.store.counters.compiles := by
  obtain ⟨hitting, hits⟩ := Pool.run_of_fresh fresh (max pipeline.project.settings.build.concurrency 1) (by omega)
  have each : ∀ result ∈ Job.results (units.map pipeline.jobFor)
      ((Pool.ofWork (max pipeline.project.settings.build.concurrency 1) (units.map pipeline.workFor)).run
        run.build).1, result.isOk = true ∧ result.cacheHit = true := by
    intro result member
    obtain ⟨⟨job, strand⟩, paired, rfl⟩ := List.mem_map.1 member
    obtain ⟨hit, artifact, answered⟩ := hits strand (List.of_mem_zip paired).2
    refine ⟨?_, hit⟩
    show (strand.phase.outcome?.getD (.error .cancelled)).isOk = true
    rw [answered]
    rfl
  have ran : Job.runAll (max pipeline.project.settings.build.concurrency 1) (units.map pipeline.jobFor) run.build =
      (Job.results (units.map pipeline.jobFor)
        ((Pool.ofWork (max pipeline.project.settings.build.concurrency 1) (units.map pipeline.workFor)).run
          run.build).1,
      ((Pool.ofWork (max pipeline.project.settings.build.concurrency 1) (units.map pipeline.workFor)).run
        run.build).2) := by
    unfold Job.runAll
    rw [work_jobs]
    rfl
  revert ran hitting each
  generalize (Pool.ofWork (max pipeline.project.settings.build.concurrency 1) (units.map pipeline.workFor)).run
    run.build = last
  intro hitting each ran
  generalize Job.results (units.map pipeline.jobFor) last.1 = results at each ran
  have summary : CompileSummary.ofResults results =
      ⟨[], (results.filter fun result => result.isOk && result.cacheHit).map (·.name), [], []⟩ := by
    rw [CompileSummary.ofResults_eq]
    congr 1
    · rw [List.map_eq_nil_iff, List.filter_eq_nil_iff]
      intro result member
      simp [(each result member).2]
    · rw [List.filterMap_eq_nil_iff]
      intro result member
      have isOk := (each result member).1
      unfold JobResult.isOk at isOk
      unfold JobResult.error?
      split
      · rfl
      · next cause failed =>
        rw [failed] at isOk
        cases isOk
    · rw [List.map_eq_nil_iff, List.filter_eq_nil_iff]
      intro result member
      simp [JobResult.blocksExport, (each result member).1]
  refine ⟨(CompileSummary.ofResults results).cacheHits, last.2, ?_, hitting.workspace, hitting.live,
    hitting.compiles⟩
  rw [compileAll_of_runAll ran, noteCompiled, summary, List.append_nil]

/-- What comes of an extraction when all its parts go well. -/
theorem extract_of_ok {pipeline : Pipeline} {run : RunState} {externals descriptors : List Descriptor}
    {paths : List Path} {last : FileTree}
    (loads : pipeline.interfaceExport.loadExternals (files run) = (.ok externals, files run))
    (selects : pipeline.interfaceExport.select pipeline.project.settings.interfaces.only
      run.build.store.lookup externals = .ok descriptors)
    (writes : pipeline.interfaceExport.write descriptors pipeline.project.settings.interfaces.only (files run) =
      (.ok paths, last)) :
    pipeline.extract [] run =
      (.ok descriptors, { withFiles run last with report := { run.report with descriptors := paths } }) := by
  have loaded : RunAction.onFiles pipeline.interfaceExport.loadExternals run = (.ok externals, run) :=
    onFiles_eq loads
  have everything : (pipeline.project.settings.interfaces.only.filter fun name => name ∉ ([] : List String)) =
      pipeline.project.settings.interfaces.only := by simp
  have selected : ∀ run, (liftM (Except.ok descriptors : Except BuildError (List Descriptor)) :
      RunAction (List Descriptor)) run = (.ok descriptors, run) := fun _ => rfl
  have wrote : RunAction.onFiles (liftM (pipeline.interfaceExport.write descriptors
      pipeline.project.settings.interfaces.only)) run = (.ok paths, withFiles run last) :=
    onFiles_eq (telling_ok.2 writes)
  unfold extract
  dsimp only
  rw [bind_of_ok loaded, bind_of_ok (get_apply _), everything, selects, bind_of_ok (selected _), bind_of_ok wrote]
  rfl

/-- Bindings that the stamp tells of and that are there are not generated again. -/
theorem generate_of_told {pipeline : Pipeline} {run : RunState} {descriptors : List Descriptor}
    (quiet : (files run).faultAfter = none)
    (told : Stamp.ToldAt (files run) pipeline.stampPath (pipeline.bindingExport.digest descriptors))
    (there : ∀ path ∈ pipeline.bindingExport.expectedFiles (descriptors.map (·.name)),
      (files run).exists? path = true) :
    pipeline.generate descriptors run = (.ok (), { run with report := { run.report with
      bindings := (descriptors.map (·.name)).map pipeline.bindingExport.bindingPath
      generateSkipped := true } }) := by
  have loaded : RunAction.onFiles (Stamp.load pipeline.stampPath) run =
      (.ok ⟨some (pipeline.bindingExport.digest descriptors)⟩, run) := by
    apply onFiles_eq
    rw [inBuild_apply, told.load quiet]
    rfl
  have fresh : (decide ((some (pipeline.bindingExport.digest descriptors)) =
        some (pipeline.bindingExport.digest descriptors)) &&
      (pipeline.bindingExport.expectedFiles (descriptors.map (·.name))).all (files run).exists?) = true := by
    rw [decide_eq_true rfl, Bool.true_and, List.all_eq_true]
    exact there
  unfold generate
  dsimp only
  rw [bind_of_ok loaded, bind_of_ok (get_apply _)]
  exact (congrFun (if_pos fresh) run).trans rfl

/-- A run for which everything is up to date compiles nothing and generates nothing. -/
theorem run_of_upToDate {pipeline : Pipeline} {state : BuildState} {units : List SourceUnit}
    {externals descriptors : List Descriptor} {paths : List Path} {last : FileTree}
    (uncancelled : state.workspace.cancellation = .quiet)
    (discovers : pipeline.discover state.workspace.files = (.ok units, state.workspace.files))
    (used : ∀ artifact ∈ state.store.live, artifact.name ∈ units.map SourceUnit.artifactName)
    (fresh : Pool.AllFresh (units.map pipeline.workFor) state.store)
    (loads : pipeline.interfaceExport.loadExternals state.workspace.files =
      (.ok externals, state.workspace.files))
    (selects : pipeline.interfaceExport.select pipeline.project.settings.interfaces.only state.store.lookup
      externals = .ok descriptors)
    (writes : pipeline.interfaceExport.write descriptors pipeline.project.settings.interfaces.only
      state.workspace.files = (.ok paths, last))
    (quiet : last.faultAfter = none)
    (told : Stamp.ToldAt last pipeline.stampPath (pipeline.bindingExport.digest descriptors))
    (there : ∀ path ∈ pipeline.bindingExport.expectedFiles (descriptors.map (·.name)),
      last.exists? path = true) :
    (pipeline.run .full state).1.stage = .done ∧ (pipeline.run .full state).1.generateSkipped = true ∧
      (pipeline.run .full state).1.compiled = [] ∧
      (pipeline.run .full state).2.store.counters.compiles = state.store.counters.compiles ∧
      (pipeline.run .full state).2.workspace = { state.workspace with files := last } := by
  let compiling : RunState := ⟨RunReport.start.enter .compiling, state⟩
  have discovered : RunAction.onFiles pipeline.discover compiling = (.ok units, compiling) :=
    onFiles_eq discovers
  have retained : RunAction.onStore (Store.retain (units.map SourceUnit.artifactName)) compiling =
      (.ok [], compiling) := by
    unfold RunAction.onStore
    rw [Store.retain_of_used used]
  obtain ⟨cacheHits, ⟨workspace, store⟩, compiles, same, live, counted⟩ :=
    pipeline.compileAll_of_fresh (show Pool.AllFresh _ compiling.build.store from fresh)
  obtain rfl : workspace = state.workspace := same
  let report : RunReport := { compiling.report with compiled := [], cacheHits }
  let extracting : RunState := ⟨report.enter .extracting, ⟨state.workspace, store⟩⟩
  have lookup : state.store.lookup = store.lookup :=
    funext fun name => (Store.lookup_of_live_eq live name).symm
  rw [lookup] at selects
  have extracted : pipeline.extract [] extracting = _ := extract_of_ok loads selects writes
  let generating : RunState := { withFiles extracting last with
    report := { extracting.report with descriptors := paths }.enter .generating }
  have generated : pipeline.generate descriptors generating = _ := generate_of_told quiet told there
  have uncancelledStill : ∀ {run : RunState}, run.build.workspace.cancellation = state.workspace.cancellation →
      RunAction.checkpoint run = (.ok (), run) :=
    fun same => RunAction.checkpoint_of_quiet (same.trans uncancelled)
  have ran : pipeline.stages .full ⟨.start, state⟩ = pipeline.generate descriptors generating := by
    unfold stages
    rw [bind_of_ok (show RunAction.enter .compiling ⟨.start, state⟩ = (.ok (), compiling) from rfl),
      bind_of_ok discovered, bind_of_ok retained, bind_of_ok (uncancelledStill rfl),
      bind_of_ok compiles, bind_of_ok (uncancelledStill rfl)]
    show (RunAction.enter .extracting >>= _ : RunAction Unit) _ = _
    rw [bind_of_ok (show RunAction.enter .extracting ⟨report, ⟨state.workspace, store⟩⟩ = (.ok (), extracting)
        from rfl),
      bind_of_ok extracted, bind_of_ok (uncancelledStill rfl)]
    rfl
  have looked : ∀ {run : RunState}, run.build.workspace.cancellation = state.workspace.cancellation →
      RunAction.isCancelled run = (false, run) :=
    fun same => RunAction.isCancelled_of_quiet (same.trans uncancelled)
  unfold run
  rw [ran, generated]
  dsimp only
  rw [looked rfl]
  exact ⟨rfl, rfl, rfl, counted, rfl⟩

end Pipeline
end ContractBuild
