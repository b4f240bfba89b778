import ContractBuild.Proofs.Build.Completion
import ContractBuild.Proofs.Build.History
import ContractBuild.Proofs.Build.Holdings

/-!
The states that runs lead to from one in which nothing was built yet. Sources and settings may change from
run to run, runs may fail and be cancelled, and the store may be opened again. All the while the store and
its files hold what was compiled on the way, and the stamp vouches for the bindings.
-/
namespace ContractBuild
open FileTree FileAction ContractBuild.Action

namespace Pipeline

variable {pipeline : Pipeline} {mode : Mode} {state : BuildState}

def Returns (pipeline : Pipeline) (state : BuildState) : Prop :=
  ∀ units checked compiled results, pipeline.Compiles ⟨.start, state⟩ units checked compiled results →
    (pipeline.worked units checked).1.Complete

theorem mem_errors_finish {cause : BuildError} {report : RunReport} (member : cause ∈ report.errors)
    (cancelled : Bool) : cause ∈ (report.finish cancelled).errors := by
  cases cancelled with
  | false => exact member
  | true =>
    by_cases same : cause = .cancelled
    · exact List.mem_append_right _ (List.mem_singleton.2 same)
    · exact List.mem_append_left _ (List.mem_filter.2 ⟨member, decide_eq_true same⟩)

theorem mem_errors_of_stages {cause : BuildError}
    (failed : (pipeline.stages mode ⟨.start, state⟩).1 = .error cause) :
    cause ∈ (pipeline.run mode state).1.errors := by
  rw [run_eq, conclude, failed]
  exact mem_errors_finish (List.mem_append_right _ List.mem_cons_self) _

theorem mem_errors_of_report {cause : BuildError}
    (noted : cause ∈ (pipeline.stages mode ⟨.start, state⟩).2.report.errors) :
    cause ∈ (pipeline.run mode state).1.errors := by
  rw [run_eq, conclude]
  refine mem_errors_finish ?_ _
  split
  · exact noted
  · exact List.mem_append_left _ noted

theorem Notes.mem_errors {descriptors : List Descriptor} {before after : RunReport}
    (notes : pipeline.Notes descriptors before after) {cause : BuildError}
    (noted : cause ∈ before.errors) : cause ∈ after.errors := by
  cases notes with
  | nothing | skipped => exact noted
  | bindings => exact List.mem_append_left _ noted

theorem mem_errors_of_front {cause : BuildError}
    (failed : (pipeline.front mode ⟨.start, state⟩).1 = .error cause) :
    cause ∈ (pipeline.run mode state).1.errors := by
  refine mem_errors_of_stages ?_
  rw [stages_eq, bind_apply]
  revert failed
  rcases pipeline.front mode ⟨.start, state⟩ with ⟨_ | _, _⟩ <;> rintro ⟨⟩
  rfl

theorem mem_errors_of_noted {cause : BuildError}
    (noted : cause ∈ (pipeline.front mode ⟨.start, state⟩).2.report.errors) :
    cause ∈ (pipeline.run mode state).1.errors := by
  refine mem_errors_of_report ?_
  rw [stages_eq, bind_apply]
  revert noted
  rcases pipeline.front mode ⟨.start, state⟩ with ⟨_ | ⟨_ | descriptors⟩, before⟩
  · exact id
  · exact id
  · exact (pipeline.generate_generates descriptors before).notes.mem_errors

/-- A run that is done has come to its end. -/
theorem returns_of_done (done : (pipeline.run mode state).1.stage = .done) : pipeline.Returns state := by
  -- an unanswered strand would count as a cancelled source, and that is an error
  intro units checked compiled results compiles strand isStrand
  have clean : (CompileSummary.ofResults results).errors = [] := by
    refine List.eq_nil_iff_forall_not_mem.2 fun cause listed => ?_
    have noted : cause ∈ (pipeline.front mode ⟨.start, state⟩).2.report.errors := by
      rw [front_of_compiles compiles, (pipeline.behind_extracts mode results compiled).errors, compiles.report]
      exact List.mem_append_right _ listed
    have none := mem_errors_of_noted noted
    rw [done_iff.1 done] at none
    cases none
  obtain ⟨all, _⟩ := CompileSummary.isOk_of_clean clean
  obtain ⟨artifact, answered⟩ := answered_of_runAll compiles.compiles all strand isStrand
  rw [answered]
  rfl

theorem Extracts.store {results : List JobResult} {compiled after : RunState}
    {outcome : Except BuildError (Option (List Descriptor))}
    (extracts : pipeline.Extracts mode results compiled outcome after) :
    after.build.store = compiled.build.store := by
  cases extracts with
  | cancelled | unwanted | unloaded | unselected | unwritten => rfl
  | written _ _ ends =>
    obtain ⟨last, rfl, ⟨_, _, rfl⟩ | ⟨_, _, rfl⟩⟩ := ends <;> rfl

/-- Behind compilation a run leaves the store as it is. -/
theorem store_front (pipeline : Pipeline) (mode : Mode) (state : BuildState) :
    (pipeline.run mode state).2.store = (pipeline.front mode ⟨.start, state⟩).2.build.store := by
  rw [store_run, stages_eq, bind_apply]
  rcases pipeline.front mode ⟨.start, state⟩ with ⟨cause | ⟨_ | descriptors⟩, before⟩
  · rfl
  · rfl
  · exact pipeline.store_generate descriptors before

theorem Compiles.idle {units : List SourceUnit} {checked compiled : RunState} {results : List JobResult}
    (compiles : pipeline.Compiles ⟨.start, state⟩ units checked compiled results)
    (idle : ∀ slot ∈ state.store.slots, slot.listed = false)
    (complete : (pipeline.worked units checked).1.Complete) :
    ∀ slot ∈ compiled.build.store.slots, slot.listed = false := by
  have waits : ∀ slot ∈ checked.build.store.slots, slot.listed = false := by
    obtain ⟨tree, evicted, retained, _, retains, _, rfl⟩ := compiles.discovers
    have slots := Store.slots_retain (units.map SourceUnit.artifactName) (withFiles ⟨.start, state⟩ tree).build
    rw [retains] at slots
    exact (show retained.store.slots = state.store.slots from slots) ▸ idle
  have ran := compiles.compiles
  unfold Job.runAll at ran
  rw [work_jobs] at ran
  rw [← show _ = compiled.build from congrArg Prod.snd ran]
  exact Pool.idle_of_complete waits complete

/-- Behind a run that comes to its end nobody waits for an artifact. -/
theorem idle_run (idle : ∀ slot ∈ state.store.slots, slot.listed = false) (returns : pipeline.Returns state) :
    ∀ slot ∈ (pipeline.run mode state).2.store.slots, slot.listed = false := by
  have fronts := pipeline.front_fronts mode ⟨.start, state⟩
  rw [store_front]
  generalize pipeline.front mode ⟨.start, state⟩ = fronted at fronts
  obtain ⟨outcome, after⟩ := fronted
  cases fronts with
  | unread => exact idle
  | unretained _ retains =>
    have slots := congrArg (fun ended => ended.2.store.slots) retains
    rw [Store.slots_retain] at slots
    exact slots ▸ idle
  | uncompiled _ retains _ =>
    have slots := congrArg (fun ended => ended.2.store.slots) retains
    rw [Store.slots_retain] at slots
    exact slots ▸ idle
  | compiled compiles extracts =>
    rw [extracts.store]
    exact compiles.idle idle (returns _ _ _ _ compiles)

end Pipeline

namespace Course

structure Spares (course : Course) (before after : FileTree) : Prop where
  workingDirectory : after.workingDirectory = before.workingDirectory
  tidy : before.root.Tidy → after.root.Tidy
  outputs : ∀ names, course.ground.Yields names → after.fileAt names = before.fileAt names
  bindings : ∀ names, course.layout.IsBinding names → after.fileAt names = before.fileAt names

/-- A state in which nothing was built: no output is there, and the store is empty. -/
structure Bare (course : Course) (state : BuildState) : Prop where
  sees : course.ground.Sees state.workspace.files
  empty : ∀ names, course.ground.Yields names → state.workspace.files.fileAt names = none
  directory : state.store.directory = Store.artifactsDir course.ground.cache
  live : state.store.live = []
  slots : state.store.slots = []

/-- The history counts the run: its pipeline, what it compiles and what it generates from. -/
structure Counts (course : Course) (pipeline : Pipeline) (mode : Mode) (state : BuildState) : Prop where
  uses : course.Uses pipeline
  compiles : ∀ units, (pipeline.discover state.workspace.files).1 = .ok units → course.Compiles pipeline units
  generates : ∀ descriptors, Layout.From pipeline mode state descriptors →
    course.generations pipeline.bindingExport descriptors

/-- The states of a history: runs of any mode that come to their end and report no failed file operation,
changes in between that spare the outputs, and stores opened again. -/
inductive Reached (course : Course) : BuildState → Prop
  | bare {state : BuildState} (bare : course.Bare state) : Reached course state
  | edited {before after : BuildState} (reached : Reached course before)
    (spares : course.Spares before.workspace.files after.workspace.files) (store : after.store = before.store) :
    Reached course after
  | opened {before : BuildState} {store : Store} {files : FileTree} (reached : Reached course before)
    (ran : Store.load course.ground.cache before.workspace.files = (.ok store, files)) :
    Reached course ⟨{ before.workspace with files }, store⟩
  | ran {state : BuildState} {pipeline : Pipeline} {mode : Mode} (reached : Reached course state)
    (counts : course.Counts pipeline mode state)
    (whole : ∀ failure, .file failure ∉ (pipeline.run mode state).1.errors) (returns : pipeline.Returns state) :
    Reached course (pipeline.run mode state).2

variable {course : Course} {pipeline : Pipeline} {mode : Mode} {state : BuildState}

theorem yields_stampPlace (course : Course) : course.ground.Yields course.layout.stampPlace := by
  have plain : FileNode.Plain ("stamps" ++ "." ++ "json") := suffix_json.plain (by decide)
  exact ⟨(course.ground.cache, "json"), by simp [Ground.outputs], _, placeFrom_join_plain _ _ plain,
    course.layout.stampPlace_endsIn⟩

theorem Spares.layout {before after : FileTree} (spares : course.Spares before after) :
    course.layout.Spares before after :=
  ⟨spares.workingDirectory, spares.tidy, spares.outputs _ course.yields_stampPlace, spares.bindings⟩

theorem Uses.layout (uses : course.Uses pipeline) (apart : course.Apart) : course.layout.Uses pipeline := by
  refine ⟨uses.cache, fun language adapter isAdapter unit version => ?_⟩
  refine (uses.adapters language adapter isAdapter unit version).mono ?_ fun _ _ => trivial
  intro before after confined sees
  have changes := confined sees.workingDirectory sees.tidy
  exact ⟨changes.workingDirectory, changes.tidy,
    changes.outside _ fun scratch => apart.outputs _ scratch course.yields_stampPlace,
    fun names isBinding => changes.outside names fun scratch => apart.bindings names scratch isBinding⟩

theorem Bare.holds (bare : course.Bare state) : course.Holds state := by
  refine ⟨bare.sees, bare.directory, fun artifact member => ?_, fun names isArtifact artifact held => ?_⟩
  · rw [bare.live] at member
    cases member
  · rw [bare.empty names isArtifact.yields] at held
    cases held

theorem Bare.life (bare : course.Bare state) : course.layout.Life state := by
  refine .blank ⟨bare.sees.workingDirectory, bare.sees.tidy⟩ ?_
  rw [Stamp.at?, bare.empty _ course.yields_stampPlace]
  rfl

/-- A run that reports no failed file operation does not break off while it generates. -/
theorem not_breaksOff {layout : Layout} (uses : layout.Uses pipeline) (sees : layout.Sees state.workspace.files)
    (whole : ∀ failure, .file failure ∉ (pipeline.run mode state).1.errors) :
    ¬ layout.BreaksOff pipeline mode state := by
  rintro ⟨⟨cause, failed⟩, names, isBinding, differs⟩
  rcases Layout.run_cases uses mode state sees with ⟨calms, _⟩ | ⟨descriptors, run, _, _, _, generates⟩
  · exact differs (calms.bindings names isBinding)
  · rw [failed] at generates
    cases generates with
    | breaks => exact whole _ (Pipeline.mem_errors_of_stages failed)

/-- At every moment of a history all that the store and its files hold was compiled on the way. -/
theorem Reached.holds (apart : course.Apart) (reached : course.Reached state) : course.Holds state := by
  induction reached with
  | bare bare => exact bare.holds
  | @edited before after _ spares store ih =>
    have kept : course.Holds { before with workspace := after.workspace } := by
      refine ih.of_files ⟨spares.workingDirectory.trans ih.sees.workingDirectory, spares.tidy ih.sees.tidy⟩ ?_
      intro names
      by_cases isArtifact : course.IsArtifact names
      · exact .inl (spares.outputs names isArtifact.yields)
      · exact .inr fun isArtifactToo => absurd isArtifactToo isArtifact
    exact ⟨kept.sees, store ▸ kept.directory, store ▸ kept.live, kept.files⟩
  | opened _ ran ih => exact ih.load ran
  | ran _ counts _ _ ih => exact counts.uses.run_retains apart counts.compiles ih

/-- At every moment of a history the stamp vouches for the bindings. -/
theorem Reached.life (apart : course.Apart) (reached : course.Reached state) : course.layout.Life state := by
  induction reached with
  | bare bare => exact bare.life
  | edited _ spares _ ih => exact ih.spared spares.layout
  | opened reached ran ih =>
    obtain ⟨confined, _⟩ := Store.load_ok (reached.holds apart).sees.tidy ran
    exact ih.spared ⟨confined.workingDirectory, confined.tidy, confined.outside _ id,
      fun names _ => confined.outside names id⟩
  | ran _ counts whole _ ih =>
    exact ih.ran (counts.uses.layout apart) counts.generates
      (not_breaksOff (counts.uses.layout apart) ih.vouched.sees whole)

/-- Between the runs of a history nobody waits for an artifact. -/
theorem Reached.idle (apart : course.Apart) (reached : course.Reached state) :
    ∀ slot ∈ state.store.slots, slot.listed = false := by
  induction reached with
  | bare bare => exact bare.slots ▸ nofun
  | edited _ _ store ih => exact store ▸ ih
  | opened reached ran ih =>
    obtain ⟨_, _, slots, _⟩ := Store.load_ok (reached.holds apart).sees.tidy ran
    exact slots ▸ nofun
  | ran _ _ _ returns ih => exact Pipeline.idle_run ih returns

theorem Reached.stocks (apart : course.Apart) (reached : course.Reached state) :
    course.ground.Stocks state.store :=
  ⟨(reached.holds apart).directory, fun artifact member => ((reached.holds apart).live artifact member).whole,
    reached.idle apart⟩

end Course
end ContractBuild
