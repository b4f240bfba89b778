import ContractBuild.Proofs.Build.Failures

/-!
The stages that a run goes through. It enters extraction when every source has come to its outcome, and
generation when every descriptor is written; a request to cancel that has come in front of a stage keeps the
run from entering it, and one that has come by the end is told once, behind all other errors.
-/
namespace ContractBuild
open FileTree FileAction ContractBuild.Action

namespace Pipeline

variable {pipeline : Pipeline} {mode : Mode} {state : BuildState} {before after : RunState}

theorem Notes.history {descriptors : List Descriptor} {first last : RunReport}
    (notes : pipeline.Notes descriptors first last) : last.history = first.history := by
  cases notes <;> rfl

theorem Compiles.history {units : List SourceUnit} {checked compiled : RunState} {results : List JobResult}
    (compiles : pipeline.Compiles ⟨.start, state⟩ units checked compiled results) :
    compiled.report.history = [.idle, .compiling] := by
  obtain ⟨_, _, _, _, _, _, rfl⟩ := compiles.discovers
  rw [compiles.report]
  rfl

/-- How far a run gets in front of the generation of bindings: up to compilation, up to extraction, or
through it. -/
theorem Fronts.reaches {outcome : Except BuildError (Option (List Descriptor))}
    (fronts : pipeline.Fronts mode ⟨.start, state⟩ outcome after) :
    (after.report.history = [.idle, .compiling] ∧ ∀ descriptors, outcome ≠ .ok (some descriptors)) ∨
    (∃ units checked compiled results, pipeline.Compiles ⟨.start, state⟩ units checked compiled results) ∧
      (after.report.history = [.idle, .compiling, .extracting] ∨
        ∃ descriptors read paths last, outcome = .ok (some descriptors) ∧ after = entered (looked last) .generating ∧
          last.report.history = [.idle, .compiling, .extracting] ∧
          pipeline.interfaceExport.write descriptors pipeline.project.settings.interfaces.only read =
            (.ok paths, files last)) := by
  cases fronts with
  | unread | unretained | uncompiled => exact .inl ⟨rfl, nofun⟩
  | @compiled units checked compiled results _ _ compiles extracts =>
    have history := compiles.history
    have reached : (compiled.report.enter .extracting).history = [.idle, .compiling, .extracting] := by
      rw [RunReport.enter, history]
      rfl
    cases extracts with
    | cancelled | unwanted => exact .inl ⟨history, nofun⟩
    | unloaded | unselected | unwritten => exact .inr ⟨⟨units, checked, compiled, results, compiles⟩, .inl reached⟩
    | written chooses writes ends =>
      refine .inr ⟨⟨units, checked, compiled, results, compiles⟩, ?_⟩
      obtain ⟨last, rfl, ⟨_, _, rfl⟩ | ⟨_, rfl, rfl⟩⟩ := ends
      · exact .inl reached
      · exact .inr ⟨_, _, _, _, rfl, rfl, reached, writes⟩

theorem history_stages (pipeline : Pipeline) (mode : Mode) (before : RunState) :
    (pipeline.stages mode before).2.report.history = (pipeline.front mode before).2.report.history := by
  rw [stages_eq, bind_apply]
  cases pipeline.front mode before with
  | mk outcome reached =>
    cases outcome with
    | error cause => rfl
    | ok chosen =>
      cases chosen with
      | none => rfl
      | some descriptors => exact (pipeline.generate_generates descriptors reached).notes.history

end Pipeline

/-! How a report is closed -/

namespace RunReport

theorem history_finish (report : RunReport) (cancelled : Bool) :
    (report.finish cancelled).history = report.history ++ [(report.finish cancelled).stage] := by
  cases cancelled <;> rfl

theorem stage_finish (report : RunReport) (cancelled : Bool) :
    (report.finish cancelled).stage = if (report.finish cancelled).errors = [] then .done else .failed := by
  have enters : ∀ report : RunReport, (report.enter (if report.errors.isEmpty then .done else .failed)).stage =
      if report.errors = [] then .done else .failed := by
    intro report
    cases errors : report.errors <;> simp [RunReport.enter]
  cases cancelled
  · exact enters report
  · exact enters _

theorem errors_finish (report : RunReport) :
    ∃ earlier, (report.finish true).errors = earlier ++ [.cancelled] ∧ .cancelled ∉ earlier := by
  refine ⟨report.errors.filter (· ≠ .cancelled), rfl, ?_⟩
  rw [List.mem_filter]
  rintro ⟨_, other⟩
  simp at other

end RunReport

theorem Cancellation.check_eq_requested (cancellation : Cancellation) :
    cancellation.check.1 = cancellation.check.2.requested := by
  unfold check
  by_cases requested : cancellation.requested = true
  · rw [if_pos requested]
    exact requested.symm
  · rw [if_neg requested]
    split
    · exact (Bool.eq_false_iff.2 requested).symm
    · rfl
    · rfl

theorem Store.AtRest.of_slots_eq {store other : Store} (rest : store.AtRest) (same : other.slots = store.slots) :
    other.AtRest := by
  obtain ⟨⟨unfilled, once⟩, vacant⟩ := rest
  refine ⟨⟨?_, once.of_slots_eq same⟩, ?_⟩
  · rw [same]
    exact unfilled
  · rw [same]
    exact vacant

namespace Pipeline

variable {pipeline : Pipeline} {mode : Mode} {state : BuildState} {before after : RunState}

def worked (pipeline : Pipeline) (units : List SourceUnit) (checked : RunState) : Pool × BuildState :=
  (Pool.ofWork (max pipeline.project.settings.build.concurrency 1) (units.map pipeline.workFor)).run checked.build

theorem Compiles.atRest {units : List SourceUnit} {checked compiled : RunState} {results : List JobResult}
    (compiles : pipeline.Compiles before units checked compiled results) (rest : before.build.store.AtRest) :
    checked.build.store.AtRest := by
  obtain ⟨tree, evicted, retained, _, retains, _, rfl⟩ := compiles.discovers
  have slots := Store.slots_retain (units.map SourceUnit.artifactName) (withFiles before tree).build
  rw [retains] at slots
  exact rest.of_slots_eq slots

/-- Where extraction is not entered, files have changed only as compiling may change them. -/
theorem Fronts.stores {ground : Ground} (uses : ground.Uses pipeline) {first : FileTree} (sees : ground.Sees first)
    (start : ground.Since (fun artifact => '/' ∉ artifact.name.toList) first state)
    {outcome : Except BuildError (Option (List Descriptor))}
    (fronts : pipeline.Fronts mode ⟨.start, state⟩ outcome after) (short : .extracting ∉ after.report.history) :
    Confined ground.Stores first (files after) := by
  cases fronts with
  | unread discovers =>
    have reads := reads_discover pipeline (files ⟨.start, state⟩)
    rw [discovers] at reads
    exact start.stores.trans reads.confined
  | unretained discovers retains => exact (start.evicts sees discovers retains).stores
  | uncompiled discovers retains => exact (start.evicts sees discovers retains).stores
  | compiled compiles extracts =>
    have stored := (uses.since_compiles sees start compiles).1.stores
    cases extracts with
    | cancelled | unwanted => exact stored
    | unloaded | unselected | unwritten => exact absurd (List.mem_append_right _ List.mem_cons_self) short
    | written _ _ ends =>
      obtain ⟨last, rfl, ⟨_, _, rfl⟩ | ⟨_, _, rfl⟩⟩ := ends
      · exact absurd (List.mem_append_right _ List.mem_cons_self) short
      · exact absurd (List.mem_append_left _ (List.mem_append_right _ List.mem_cons_self)) short

theorem run_closes (pipeline : Pipeline) (mode : Mode) (state : BuildState) :
    ∃ report : RunReport, report.history = (pipeline.front mode ⟨.start, state⟩).2.report.history ∧
      (pipeline.run mode state).1 = report.finish (pipeline.run mode state).2.workspace.cancellation.requested := by
  have stages := pipeline.history_stages mode ⟨.start, state⟩
  rw [run_eq]
  generalize pipeline.stages mode ⟨.start, state⟩ = staged at stages
  obtain ⟨outcome, last⟩ := staged
  have looks : (RunAction.isCancelled last).1 = (looked last).build.workspace.cancellation.requested :=
    Cancellation.check_eq_requested _
  cases outcome with
  | ok value => exact ⟨last.report, stages, congrArg last.report.finish looks⟩
  | error cause => exact ⟨last.report.addError cause, stages, congrArg (last.report.addError cause).finish looks⟩

theorem stage_run (pipeline : Pipeline) (mode : Mode) (state : BuildState) :
    (pipeline.run mode state).1.stage = if (pipeline.run mode state).1.errors = [] then .done else .failed := by
  obtain ⟨report, _, told⟩ := pipeline.run_closes mode state
  rw [told, RunReport.stage_finish]

theorem done_iff : (pipeline.run mode state).1.stage = .done ↔ (pipeline.run mode state).1.errors = [] := by
  rw [stage_run]
  split <;> simp_all

/-- A run enters no stage behind the generation of bindings, and there it ends. -/
theorem mem_history {stage : Stage} (on : stage = .extracting ∨ stage = .generating) :
    stage ∈ (pipeline.run mode state).1.history ↔ stage ∈ (pipeline.front mode ⟨.start, state⟩).2.report.history := by
  obtain ⟨report, history, told⟩ := pipeline.run_closes mode state
  rw [told, RunReport.history_finish, history, List.mem_append, List.mem_singleton, RunReport.stage_finish]
  refine or_iff_left fun same => ?_
  split at same
  · rcases on with rfl | rfl <;> cases same
  · rcases on with rfl | rfl <;> cases same

/-- A run that enters extraction has compiled, and goes on from there. -/
theorem compiles_of_extracting (extracting : .extracting ∈ (pipeline.run mode state).1.history) :
    ∃ units checked compiled results, pipeline.Compiles ⟨.start, state⟩ units checked compiled results ∧
      Tallies units results (.ofResults results) ∧
      (state.store.AtRest → (pipeline.worked units checked).1.Complete ∨
        ∃ strand ∈ (pipeline.worked units checked).1.strands, Pool.Hangs strand (pipeline.worked units checked).2) ∧
      compiled.report.history = [.idle, .compiling] ∧
      pipeline.stages mode ⟨.start, state⟩ = pipeline.rest mode results compiled := by
  rw [mem_history (.inl rfl)] at extracting
  rcases (pipeline.front_fronts mode ⟨.start, state⟩).reaches with
    ⟨short, _⟩ | ⟨⟨units, checked, compiled, results, compiles⟩, _⟩
  · rw [short] at extracting
    exact absurd extracting (by decide)
  · refine ⟨units, checked, compiled, results, compiles, tallies_of_runAll compiles.compiles, fun rest => ?_,
      compiles.history, stages_of_compiles compiles⟩
    exact Pool.answered_or_hangs (compiles.atRest rest) (by omega)

/-- A run that enters the generation of bindings has written its descriptors, and goes on from there. -/
theorem wrote_of_generating (generating : .generating ∈ (pipeline.run mode state).1.history) :
    ∃ descriptors made last, Output.Wrote (pipeline.interfaceExport.writes descriptors) made (files last) ∧
      last.report.history = [.idle, .compiling, .extracting] ∧
      pipeline.stages mode ⟨.start, state⟩ = pipeline.generate descriptors (entered (looked last) .generating) := by
  rw [mem_history (.inr rfl)] at generating
  rcases (pipeline.front_fronts mode ⟨.start, state⟩).reaches with
    ⟨short, _⟩ | ⟨_, extracted | ⟨descriptors, _, _, last, outcome, generated, earlier, writes⟩⟩
  · rw [short] at generating
    exact absurd generating (by decide)
  · rw [extracted] at generating
    exact absurd generating (by decide)
  · obtain ⟨made, _, wroteEach⟩ := InterfaceExport.write_ok writes
    refine ⟨descriptors, made, last, (InterfaceExport.writeEach_ok wroteEach).2, earlier, ?_⟩
    rw [stages_eq, bind_of_ok (show pipeline.front mode ⟨.start, state⟩ =
      (.ok (some descriptors), entered (looked last) .generating) from Prod.ext outcome generated)]

/-- A request to cancel that has come when everything is compiled ends the run there. -/
theorem short_of_seesCancelled {units : List SourceUnit} {checked compiled : RunState} {results : List JobResult}
    (compiles : pipeline.Compiles ⟨.start, state⟩ units checked compiled results) (sees : SeesCancelled compiled) :
    .extracting ∉ (pipeline.run mode state).1.history ∧
      (pipeline.run mode state).2.workspace.files = files compiled := by
  have ends : pipeline.stages mode ⟨.start, state⟩ = (.error .cancelled, looked compiled) := by
    rw [stages_of_compiles compiles, rest, behind, bind_assoc, bind_of_error (checkpoint_of_cancelled sees)]
  have short := pipeline.history_stages mode ⟨.start, state⟩
  rw [ends, report_looked, compiles.history] at short
  refine ⟨?_, ?_⟩
  · rw [mem_history (.inl rfl), ← short]
    decide
  · rw [files_run, ends]
    rfl

/-- A run that does not get to extraction changes only files of artifacts and of adapters. -/
theorem confined_of_short {ground : Ground} (uses : ground.Uses pipeline) (sees : ground.Sees state.workspace.files)
    (start : ground.Since (fun artifact => '/' ∉ artifact.name.toList) state.workspace.files state)
    (short : .extracting ∉ (pipeline.run mode state).1.history) :
    Confined ground.Stores state.workspace.files (pipeline.run mode state).2.workspace.files := by
  rw [mem_history (.inl rfl)] at short
  have fronts := pipeline.front_fronts mode ⟨.start, state⟩
  have stored := fronts.stores uses sees start short
  have same : (pipeline.stages mode ⟨.start, state⟩).2 = (pipeline.front mode ⟨.start, state⟩).2 := by
    rcases fronts.reaches with ⟨_, none⟩ | ⟨_, extracted | ⟨_, _, _, last, _, generated, earlier, _⟩⟩
    · rw [stages_eq, bind_apply]
      revert none
      rcases pipeline.front mode ⟨.start, state⟩ with ⟨cause | (_ | descriptors), reached⟩
      · exact fun _ => rfl
      · exact fun _ => rfl
      · exact fun none => absurd rfl (none descriptors)
    · rw [extracted] at short
      exact absurd short (by decide)
    · rw [generated, entered, RunReport.enter, report_looked, earlier] at short
      exact absurd (List.mem_append_left _ (by decide)) short
  rw [files_run, same]
  exact stored

/-- The stages of a run. Extraction is entered when every source has its outcome, unless a call of an adapter
hangs; generation when every descriptor is written. A request to cancel that has come when everything is
compiled ends the run there. A run that does not get to extraction changes only files of artifacts and of
adapters, so none of those that leave the build where the directories do not overlap. A run that ends cancelled
says so once, at the end. -/
theorem run_course (pipeline : Pipeline) (mode : Mode) (state : BuildState) :
    let ended := pipeline.run mode state
    (∃ middle ∈ [[], [.extracting], [.extracting, .generating]],
      ended.1.history = [.idle, .compiling] ++ middle ++ [ended.1.stage]) ∧
    (ended.1.stage = if ended.1.errors = [] then .done else .failed) ∧
    (.extracting ∈ ended.1.history → ∃ units checked compiled results,
      pipeline.Compiles ⟨.start, state⟩ units checked compiled results ∧
      Tallies units results (.ofResults results) ∧
      (state.store.AtRest → (pipeline.worked units checked).1.Complete ∨
        ∃ strand ∈ (pipeline.worked units checked).1.strands, Pool.Hangs strand (pipeline.worked units checked).2) ∧
      compiled.report.history = [.idle, .compiling] ∧
      pipeline.stages mode ⟨.start, state⟩ = pipeline.rest mode results compiled) ∧
    (.generating ∈ ended.1.history → ∃ descriptors made last,
      Output.Wrote (pipeline.interfaceExport.writes descriptors) made (files last) ∧
      last.report.history = [.idle, .compiling, .extracting] ∧
      pipeline.stages mode ⟨.start, state⟩ = pipeline.generate descriptors (entered (looked last) .generating)) ∧
    (∀ units checked compiled results, pipeline.Compiles ⟨.start, state⟩ units checked compiled results →
      SeesCancelled compiled → .extracting ∉ ended.1.history ∧ ended.2.workspace.files = files compiled) ∧
    (.extracting ∉ ended.1.history → ∀ ground : Ground, ground.Uses pipeline → ground.Sees state.workspace.files →
      state.store.directory = Store.artifactsDir ground.cache →
      (∀ artifact ∈ state.store.live, '/' ∉ artifact.name.toList) →
      Confined ground.Stores state.workspace.files ended.2.workspace.files ∧
      (ground.Secludes → ∀ names, ground.Exports names →
        ended.2.workspace.files.fileAt names = state.workspace.files.fileAt names)) ∧
    (ended.2.workspace.cancellation.requested = true →
      ∃ earlier, ended.1.errors = earlier ++ [.cancelled] ∧ .cancelled ∉ earlier) := by
  intro ended
  obtain ⟨report, history, told⟩ := pipeline.run_closes mode state
  refine ⟨?_, pipeline.stage_run mode state, compiles_of_extracting, wrote_of_generating,
    fun _ _ _ _ => short_of_seesCancelled, ?_, ?_⟩
  · show ∃ middle ∈ _, (pipeline.run mode state).1.history = _ ++ [(pipeline.run mode state).1.stage]
    rw [told, RunReport.history_finish, history]
    rcases (pipeline.front_fronts mode ⟨.start, state⟩).reaches with
      ⟨short, _⟩ | ⟨_, extracted | ⟨_, _, _, last, _, generated, earlier, _⟩⟩
    · exact ⟨[], by simp, by rw [short]; rfl⟩
    · exact ⟨[.extracting], by simp, by rw [extracted]; rfl⟩
    · refine ⟨[.extracting, .generating], by simp, ?_⟩
      rw [generated, entered, RunReport.enter, report_looked, earlier]
      rfl
  · intro short ground uses sees directory whole
    have stored := confined_of_short uses sees ⟨.refl _, directory, whole⟩ short
    exact ⟨stored, fun secludes names exported =>
      stored.outside names fun stores => secludes.not_exports stores exported⟩
  · intro requested
    show ∃ earlier, (pipeline.run mode state).1.errors = _ ∧ _
    rw [told, show (pipeline.run mode state).2.workspace.cancellation.requested = true from requested]
    exact report.errors_finish

def haltingAdapter : Adapter :=
  { language := .vyper
    flags := []
    compile := fun unit version => do
      CompilerAction.perform (modify fun workspace => { workspace with cancellation := .raised })
      return .ofOutput unit version [] ⟨[], ""⟩ }

def haltsAtA : Pipeline :=
  { selectsA with adapters := fun
      | .vyper => some haltingAdapter
      | .solidity => none }

theorem Ground.uses_haltingAdapter {ground : Ground} {pipeline : Pipeline}
    (cache : pipeline.project.cacheDir = ground.cache) (interfaces : pipeline.project.interfacesDir = ground.interfaces)
    (bindings : pipeline.project.bindingsDir = ground.bindings) (halts : pipeline.adapters = haltsAtA.adapters) :
    ground.Uses pipeline := by
  refine ⟨cache, interfaces, bindings, fun language adapter isAdapter unit version => ?_⟩
  rw [halts] at isAdapter
  cases language with
  | solidity => cases isAdapter
  | vyper =>
    cases isAdapter
    exact .act (fun _ => ConfinedFrom.refl _) fun _ => .act (fun _ => ConfinedFrom.refl _) fun _ => .done trivial

/-- Cancelled while it compiles its one source, a run keeps the artifact and leaves the rest alone. -/
theorem course_of_halted :
    let ended := haltsAtA.run .full oneSource
    ended.1.history = [.idle, .compiling, .failed] ∧ ended.1.errors = [.cancelled] ∧ ended.1.compiled = ["A"] ∧
      (ended.2.workspace.files.fileAt [".kiln", "cache", "artifacts", "A.json"]).isSome = true ∧
      ended.2.workspace.files.fileAt ["abis", "A.json"] = none := by
  intro ended
  have ran : ((haltsAtA.concludesWithin 9 .full oneSource).any fun ended =>
      decide (ended.1.history = [.idle, .compiling, .failed]) && decide (ended.1.compiled = ["A"]) &&
        decide (ended.1.errors.length = 1) && ended.2.workspace.cancellation.requested &&
        (ended.2.workspace.files.fileAt [".kiln", "cache", "artifacts", "A.json"]).isSome) = true := by
    decide +kernel
  obtain ⟨last, within, ran⟩ := (Option.any_eq_true ..).1 ran
  obtain rfl : ended = last := run_of_concludesWithin within
  simp only [Bool.and_eq_true, decide_eq_true_eq] at ran
  obtain ⟨⟨⟨⟨history, compiled⟩, single⟩, requested⟩, stored⟩ := ran
  obtain ⟨_, _, _, _, _, untouched, once⟩ := haltsAtA.run_course .full oneSource
  obtain ⟨_, kept⟩ := untouched (by show .extracting ∉ ended.1.history; rw [history]; decide) .usual
    (Ground.uses_haltingAdapter (by decide) (by decide) (by decide) rfl) Ground.usual_sees (by decide) (fun _ member => nomatch member)
  obtain ⟨earlier, errors, _⟩ := once requested
  refine ⟨history, ?_, compiled, stored, ?_⟩
  · have none : earlier = [] := by
      rw [show ended.1.errors = earlier ++ [.cancelled] from errors] at single
      simpa using single
    rw [show ended.1.errors = earlier ++ [.cancelled] from errors, none]
    rfl
  · exact (kept ⟨by decide +kernel, fun _ => False.elim⟩ _
      (.inl ⟨⟨"abis"⟩, List.mem_cons_self, by decide +kernel⟩)).trans (by decide +kernel)

/-- Where the directory of descriptors is that of the artifacts, a cancelled run may add to it. -/
theorem not_kept_of_overlap :
    ¬ ∀ (pipeline : Pipeline) (mode : Mode) (state : BuildState) units checked compiled results,
      pipeline.Compiles ⟨.start, state⟩ units checked compiled results → SeesCancelled compiled →
      ∀ directory ∈ [pipeline.project.interfacesDir, pipeline.project.bindingsDir],
      ∀ names, state.workspace.files.place directory <+: names →
        (pipeline.run mode state).2.workspace.files.fileAt names = state.workspace.files.fileAt names := by
  intro kept
  let pipeline := { haltsAtA with project.settings.interfaces.path := ".kiln/cache/artifacts" }
  let place := [".kiln", "cache", "artifacts", "A.json"]
  have ran : ((pipeline.frontWithin 9 .full ⟨.start, oneSource⟩).any fun last =>
      decide (last.2.report.history = [.idle, .compiling]) && decide (last.2.report.compiled = ["A"]) &&
        ((files last.2).fileAt place).isSome) = true := by
    decide +kernel
  obtain ⟨⟨outcome, last⟩, within, ran⟩ := (Option.any_eq_true ..).1 ran
  simp only [Bool.and_eq_true, decide_eq_true_eq] at ran
  obtain ⟨⟨history, listed⟩, stored⟩ := ran
  have short : .extracting ∉ last.report.history := by
    rw [history]
    decide
  have fronts := pipeline.front_fronts .full ⟨.start, oneSource⟩
  rw [front_of_frontWithin within] at fronts
  cases fronts with
  | unread | unretained | uncompiled => cases listed
  | @compiled units checked compiled results _ _ compiles extracts =>
    cases extracts with
    | unwanted _ wants => cases wants
    | unloaded | unselected | unwritten => exact absurd (List.mem_append_right _ List.mem_cons_self) short
    | written _ _ ends =>
      obtain ⟨_, rfl, ⟨_, _, rfl⟩ | ⟨_, _, rfl⟩⟩ := ends
      · exact absurd (List.mem_append_right _ List.mem_cons_self) short
      · exact absurd (List.mem_append_left _ (List.mem_append_right _ List.mem_cons_self)) short
    | cancelled sees =>
      have same := kept pipeline .full oneSource units checked compiled results compiles sees
        pipeline.project.interfacesDir List.mem_cons_self place (by decide +kernel)
      rw [(short_of_seesCancelled compiles sees).2] at same
      change ((files compiled).fileAt place).isSome = true at stored
      rw [same] at stored
      exact absurd stored (by decide +kernel)

end Pipeline
end ContractBuild
