import ContractBuild.Proofs.Build.Lineage
import ContractBuild.Proofs.Build.Selection
import ContractBuild.Proofs.Build.Statuses
import ContractBuild.Proofs.Store.Foresight

/-!
What the status of the sources says of a run that begins right behind it. Although the run first drops the
artifacts of other names, and its requests drop and publish artifacts side by side, each request finds the
entry that the status was told from.
-/
namespace ContractBuild
open FileTree FileAction ContractBuild.Action

/-! Dropping what is not in use -/

namespace Store

variable {name : String} {names inUse : List String}

def KeepsEntry (name : String) (before after : BuildState) : Prop :=
  after.store.lookup name = before.store.lookup name

theorem KeepsEntry.refl (name : String) (state : BuildState) : KeepsEntry name state state := rfl

theorem KeepsEntry.trans {first middle last : BuildState} (earlier : KeepsEntry name first middle)
    (later : KeepsEntry name middle last) : KeepsEntry name first last :=
  Eq.trans later earlier

theorem keepsEntry_invalidateAll (apart : name ∉ names) : Keeps (KeepsEntry name) (invalidateAll names) := by
  induction names with
  | nil => exact Keeps.pure (KeepsEntry.refl name) ()
  | cons other names ih =>
    obtain ⟨differs, rest⟩ := List.ne_and_not_mem_of_not_mem_cons apart
    refine Keeps.bind (fun earlier later => earlier.trans later) (fun before => ?_) fun _ => ih rest
    rw [KeepsEntry, store_invalidate, lookup_erase_of_ne _ differs]

/-- What is in use stays in the store, however dropping the rest goes. -/
theorem keepsEntry_retain (used : name ∈ inUse) : Keeps (KeepsEntry name) (retain inUse) := by
  refine Keeps.bind (fun earlier later => earlier.trans later) (KeepsEntry.refl name) fun now => ?_
  refine Keeps.bind (fun earlier later => earlier.trans later) (keepsEntry_invalidateAll fun member => ?_)
    fun _ => Keeps.pure (KeepsEntry.refl name) _
  exact of_decide_eq_true (List.mem_filter.1 member).2 used

structure CountsNothing (before after : BuildState) : Prop where
  asked : after.store.asked = before.store.asked
  calls : after.workspace.calls = before.workspace.calls

theorem CountsNothing.refl (state : BuildState) : CountsNothing state state := ⟨rfl, rfl⟩

theorem CountsNothing.trans {first middle last : BuildState} (earlier : CountsNothing first middle)
    (later : CountsNothing middle last) : CountsNothing first last :=
  ⟨later.asked.trans earlier.asked, later.calls.trans earlier.calls⟩

theorem countsNothing_retain (inUse : List String) : Keeps CountsNothing (retain inUse) := by
  refine retain_upholds CountsNothing.refl CountsNothing.trans (fun name state => ⟨asked_invalidate name state, ?_⟩) inUse
  rcases workspace_invalidate name state with same | same <;> rw [same]

end Store

/-! What a run reports -/

namespace Pipeline

variable {pipeline : Pipeline} {mode : Mode} {state : BuildState} {units : List SourceUnit}
  {checked compiled : RunState} {results : List JobResult}

theorem Extracts.cacheHits {outcome : Except BuildError (Option (List Descriptor))} {after : RunState}
    (extracts : pipeline.Extracts mode results compiled outcome after) :
    after.report.cacheHits = compiled.report.cacheHits := by
  cases extracts with
  | cancelled | unwanted | unloaded | unselected | unwritten => rfl
  | written _ _ ends =>
    obtain ⟨last, rfl, ⟨_, _, rfl⟩ | ⟨_, _, rfl⟩⟩ := ends <;> rfl

theorem Notes.cacheHits {descriptors : List Descriptor} {first last : RunReport}
    (notes : pipeline.Notes descriptors first last) : last.cacheHits = first.cacheHits := by
  cases notes <;> rfl

theorem cacheHits_conclude (ended : Except BuildError Unit × RunState) :
    (conclude ended).1.cacheHits = ended.2.report.cacheHits := by
  have kept : ∀ (report : RunReport) cancelled, (report.finish cancelled).cacheHits = report.cacheHits := by
    intro report cancelled
    cases cancelled <;> rfl
  obtain ⟨cause | value, last⟩ := ended
  · exact kept _ _
  · exact kept _ _

/-- Once a run has compiled it lists the hits, however it goes on. -/
theorem Compiles.cacheHits (compiles : pipeline.Compiles ⟨.start, state⟩ units checked compiled results) :
    (pipeline.run mode state).1.cacheHits = (CompileSummary.ofResults results).cacheHits := by
  have extracts := pipeline.behind_extracts mode results compiled
  have listed : compiled.report.cacheHits = (CompileSummary.ofResults results).cacheHits := by
    rw [compiles.report]
    rfl
  rw [← listed, ← extracts.cacheHits, ← front_of_compiles compiles]
  rw [run_eq, cacheHits_conclude, stages_eq, bind_apply]
  rcases pipeline.front mode ⟨.start, state⟩ with ⟨cause | ⟨_ | descriptors⟩, reached⟩
  · rfl
  · rfl
  · exact (pipeline.generate_generates descriptors reached).notes.cacheHits

theorem mem_errors_of_result (compiles : pipeline.Compiles ⟨.start, state⟩ units checked compiled results)
    {result : JobResult} (listed : result ∈ results) {cause : BuildError} (failed : result.outcome = .error cause) :
    cause ∈ (pipeline.run mode state).1.errors := by
  have told : cause ∈ (CompileSummary.ofResults results).errors := by
    rw [CompileSummary.ofResults_eq, List.mem_filterMap]
    exact ⟨result, listed, by rw [JobResult.error?, failed]⟩
  refine mem_errors_of_noted ?_
  rw [front_of_compiles compiles, (pipeline.behind_extracts mode results compiled).errors, compiles.report]
  exact List.mem_append_right _ told

/-- A run ends in front of compiling, with one error: it lists nothing, and has asked the store for nothing and
called nobody. -/
structure EndsEarly (pipeline : Pipeline) (mode : Mode) (state : BuildState) (cause : BuildError) : Prop where
  errors : (pipeline.run mode state).1.errors = [cause]
  cacheHits : (pipeline.run mode state).1.cacheHits = []
  compiled : (pipeline.run mode state).1.compiled = []
  nothing : Store.CountsNothing state (pipeline.run mode state).2

theorem endsEarly_of_front {cause : BuildError} {last : RunState}
    (fails : pipeline.front mode ⟨.start, state⟩ = (.error cause, last))
    (quiet : last.build.workspace.cancellation = .quiet) (report : last.report = RunReport.start.enter .compiling)
    (nothing : Store.CountsNothing state last.build) : pipeline.EndsEarly mode state cause := by
  have ran : pipeline.run mode state = conclude (.error cause, last) := by
    rw [run_eq, stages_eq, bind_of_error fails]
  have told : (pipeline.run mode state).1 = ((RunReport.start.enter .compiling).addError cause).finish false := by
    rw [ran, conclude, RunAction.isCancelled_of_quiet quiet, report]
  refine ⟨?_, ?_, ?_, ?_⟩
  · rw [told]
    rfl
  · rw [told]
    rfl
  · rw [told]
    rfl
  · rw [ran]
    exact ⟨nothing.asked, nothing.calls⟩

/-! What a run does with each source -/

def poolFor (pipeline : Pipeline) (units : List SourceUnit) : Pool :=
  .ofWork (max pipeline.project.settings.build.concurrency 1) (units.map pipeline.workFor)

structure Foretells (pipeline : Pipeline) (store : Store) (results : List JobResult) (compiling : Pool × BuildState)
    (order : List Nat) (position : Nat) (unit : SourceUnit) : Prop where
  fresh : pipeline.freshness store unit = .fresh ↔ unit.artifactName ∈ (CompileSummary.ofResults results).cacheHits
  noCompiler : pipeline.freshness store unit = .noCompiler ↔
    (∃ result problem, results[position]? = some result ∧
      result.outcome = .error (.toolchain unit.language problem)) ∧ compiling.1.Abstains compiling.2 order position
  stale : pipeline.freshness store unit = .stale ↔ ∃ request artifact, pipeline.workFor unit = .ok request ∧
    artifact.fingerprint ≠ request.fingerprint ∧
    compiling.1.Turns compiling.2 order position request (some artifact)
  missing : pipeline.freshness store unit = .missing ↔ ∃ request, pipeline.workFor unit = .ok request ∧
    compiling.1.Turns compiling.2 order position request none
  finds : ∀ request entry, compiling.1.Turns compiling.2 order position request entry →
    entry = store.lookup unit.artifactName

theorem mem_cacheHits_iff {results : List JobResult} (distinct : (results.map (·.name)).Nodup) {result : JobResult}
    (listed : result ∈ results) :
    result.name ∈ (CompileSummary.ofResults results).cacheHits ↔ result.isOk = true ∧ result.cacheHit = true := by
  rw [CompileSummary.ofResults_eq, List.mem_map]
  constructor
  · rintro ⟨other, inside, same⟩
    obtain ⟨member, hit⟩ := List.mem_filter.1 inside
    obtain rfl : other = result := List.inj_on_of_nodup_map distinct member listed same
    simpa using hit
  · intro hit
    exact ⟨result, List.mem_filter.2 ⟨listed, by simpa using hit⟩, rfl⟩

section
variable {store : Store} {compiling : BuildState} {order : List Nat} {position : Nat}
  {unit : SourceUnit} {strand : Strand}

/-- A source without a request. -/
theorem foretells_of_error {cause : BuildError} (isUnit : units[position]? = some unit)
    (lacks : pipeline.workFor unit = .error cause)
    (isResult : results[position]? = some ((pipeline.jobFor unit).result strand))
    (answered : strand.phase = .answered (.error cause))
    (listed : unit.artifactName ∈ (CompileSummary.ofResults results).cacheHits ↔
      ((pipeline.jobFor unit).result strand).isOk = true ∧ strand.cacheHit = true) :
    pipeline.Foretells store results (pipeline.poolFor units, compiling) order position unit := by
  obtain ⟨barred, problem, rfl⟩ := freshness_of_error store lacks
  have failed : ((pipeline.jobFor unit).result strand).outcome = .error (.toolchain unit.language problem) := by
    rw [Job.result, answered]
    rfl
  have absent : (units.map pipeline.workFor)[position]? = some (.error (.toolchain unit.language problem)) := by
    rw [List.getElem?_map, isUnit, Option.map_some, lacks]
  have abstains : (pipeline.poolFor units).Abstains compiling order position := Pool.abstains_of_error absent
  refine ⟨?_, ?_, ?_, ?_, ?_⟩
  · rw [barred, listed, JobResult.isOk, failed]
    refine iff_of_false (fun fresh => ?_) fun hit => ?_
    · cases fresh
    · cases hit.1
  · exact ⟨fun _ => ⟨⟨_, problem, isResult, failed⟩, abstains⟩, fun _ => barred⟩
  · rw [barred, lacks]
    refine iff_of_false (fun stale => ?_) ?_
    · cases stale
    · rintro ⟨_, _, asks, _⟩
      cases asks
  · rw [barred, lacks]
    refine iff_of_false (fun missing => ?_) ?_
    · cases missing
    · rintro ⟨_, asks, _⟩
      cases asks
  · exact fun request entry turns => absurd abstains turns.not_abstains

/-- A source with a request. -/
theorem foretells_of_ok {request : Request} {last : Store} (named : Pool.Named (units.map pipeline.workFor))
    (isUnit : units[position]? = some unit) (asks : pipeline.workFor unit = .ok request)
    (isStrand : ((pipeline.poolFor units).follow compiling order).1.strands[position]? = some strand)
    (work : strand.work = pipeline.workFor unit) (begun : strand.phase ≠ .pending)
    (foretold : strand.Foretold compiling.store last)
    (entry : compiling.store.lookup unit.artifactName = store.lookup unit.artifactName)
    (listed : unit.artifactName ∈ (CompileSummary.ofResults results).cacheHits ↔
      ((pipeline.jobFor unit).result strand).isOk = true ∧ strand.cacheHit = true) :
    pipeline.Foretells store results (pipeline.poolFor units, compiling) order position unit := by
  have asksToo : strand.work = .ok request := work.trans asks
  have name : request.name = unit.artifactName := by rw [Request.name, workFor_eq_ok asks]
  have found : compiling.store.lookup request.name = store.lookup request.name := by rw [name, entry]
  have turns : ∀ entry, (pipeline.poolFor units).Turns compiling order position request entry ↔
      entry = store.lookup request.name := by
    intro entry
    rw [← found]
    exact Pool.turns_iff named isStrand asksToo begun
  have only : ∀ {other : Request} {entry : Option Artifact}, pipeline.workFor unit = .ok other →
      (pipeline.poolFor units).Turns compiling order position other entry → entry = store.lookup request.name := by
    intro other entry asksOther turned
    obtain rfl : other = request := Except.ok.inj (asksOther.symm.trans asks)
    exact (turns entry).1 turned
  obtain ⟨fresh, stale, missing, barred⟩ := freshness_iff store asks
  refine ⟨?_, ?_, ?_, ?_, ?_⟩
  · rw [listed, fresh, ← Store.holds_of_lookup_eq found, ← (foretold.counts_iff asksToo begun).1]
    refine ⟨fun noted => ⟨?_, noted⟩, And.right⟩
    obtain ⟨artifact, answered⟩ := foretold.answered_of_noted noted
    rw [JobResult.isOk, Job.result, answered]
    rfl
  · refine iff_of_false barred ?_
    rintro ⟨_, abstains⟩
    exact ((turns _).2 rfl).not_abstains abstains
  · rw [stale]
    constructor
    · rintro ⟨artifact, there, differs⟩
      exact ⟨request, artifact, asks, differs, (turns _).2 there.symm⟩
    · rintro ⟨other, artifact, asksOther, differs, turned⟩
      obtain rfl : other = request := Except.ok.inj (asksOther.symm.trans asks)
      exact ⟨artifact, (only asks turned).symm, differs⟩
  · rw [missing]
    constructor
    · exact fun none => ⟨request, asks, (turns _).2 none.symm⟩
    · rintro ⟨other, asksOther, turned⟩
      exact (only asksOther turned).symm
  · intro other entry turned
    rw [← name]
    exact only (Pool.work_of_turns turned (by rw [List.getElem?_map, isUnit]; rfl)) turned

end

/-- What is counted of a strand that has begun is as the status of its source says. -/
theorem counts_of_status {store compiling last : Store} {unit : SourceUnit} {strand : Strand}
    (work : strand.work = pipeline.workFor unit) (begun : strand.phase ≠ .pending)
    (foretold : strand.Foretold compiling last)
    (entry : compiling.lookup unit.artifactName = store.lookup unit.artifactName) :
    strand.cacheHit = decide (pipeline.freshness store unit = .fresh) ∧
      strand.isMiss = decide (pipeline.freshness store unit = .stale ∨ pipeline.freshness store unit = .missing) := by
  cases asks : pipeline.workFor unit with
  | error cause =>
    rw [asks] at work
    rw [(freshness_of_error store asks).1, Strand.isMiss_of_error work, (foretold.answered_of_error work begun).2]
    exact ⟨rfl, rfl⟩
  | ok request =>
    rw [asks] at work
    have found : compiling.lookup request.name = store.lookup request.name := by
      rw [Request.name, workFor_eq_ok asks, entry]
    obtain ⟨hit, miss⟩ := foretold.counts_iff work begun
    obtain ⟨fresh, _, _, barred⟩ := freshness_iff store asks
    rw [Store.holds_of_lookup_eq found, ← fresh] at hit miss
    refine ⟨Bool.eq_iff_iff.2 (hit.trans decide_eq_true_iff.symm),
      Bool.eq_iff_iff.2 (miss.trans (Iff.trans ?_ decide_eq_true_iff.symm))⟩
    cases status : pipeline.freshness store unit with
    | noCompiler => exact absurd status barred
    | fresh | stale | missing => simp

/-- What holds of each strand exactly if it holds of the status of its source is counted in the statuses. -/
theorem countP_strands {strands : List Strand} {p : Strand → Bool} {wanted : UnitStatus → Bool} {store : Store}
    (works : strands.map Strand.work = units.map pipeline.workFor)
    (each : ∀ (position : Nat) (unit : SourceUnit) (strand : Strand), units[position]? = some unit →
      strands[position]? = some strand → p strand = wanted (pipeline.statusFor store unit)) :
    strands.countP p = (units.map (pipeline.statusFor store)).countP wanted := by
  have same : strands.map p = (units.map (pipeline.statusFor store)).map wanted := by
    apply List.ext_getElem?
    intro position
    have work := congrArg (fun works => works[position]?) works
    simp only [List.getElem?_map] at work ⊢
    cases isUnit : units[position]? with
    | none =>
      rw [isUnit] at work
      rw [Option.map_eq_none_iff.1 work]
      rfl
    | some unit =>
      rw [isUnit] at work
      obtain ⟨strand, isStrand, _⟩ := Option.map_eq_some_iff.1 work
      rw [isStrand]
      exact congrArg some (each position unit strand isUnit isStrand)
  have counted := congrArg (List.countP id) same
  rwa [List.countP_map, List.countP_map] at counted

structure AsTold (pipeline : Pipeline) (store : Store) (units : List SourceUnit) (compiling : BuildState)
    (order : List Nat) : Prop where
  foretells : ∀ position unit, units[position]? = some unit → pipeline.Foretells store
    (Job.results (units.map pipeline.jobFor) ((pipeline.poolFor units).follow compiling order).1)
    (pipeline.poolFor units, compiling) order position unit
  hits : ((pipeline.poolFor units).follow compiling order).2.store.counters.hits = store.counters.hits +
    (units.map (pipeline.statusFor store)).countP fun status => status.freshness = .fresh
  misses : ((pipeline.poolFor units).follow compiling order).2.store.counters.misses = store.counters.misses +
    (units.map (pipeline.statusFor store)).countP
      fun status => status.freshness = .stale ∨ status.freshness = .missing

section
variable {store : Store} {compiling : BuildState} {order : List Nat} {position : Nat} {unit : SourceUnit}
  {strand : Strand}

theorem foresees_poolFor (pipeline : Pipeline) (names : (units.map SourceUnit.artifactName).Nodup)
    (compiling : BuildState) (order : List Nat) :
    Pool.Foresees compiling.store ((pipeline.poolFor units).follow compiling order) :=
  Pool.foresees_follow ⟨place_of_name names⟩ _ compiling order

/-- Where all have come to their end, the request of a source has begun and is as it was foretold. -/
theorem foretold_of_complete (names : (units.map SourceUnit.artifactName).Nodup)
    (complete : ((pipeline.poolFor units).follow compiling order).1.Complete) (isUnit : units[position]? = some unit)
    (isStrand : ((pipeline.poolFor units).follow compiling order).1.strands[position]? = some strand) :
    strand.work = pipeline.workFor unit ∧ strand.phase ≠ .pending ∧
      strand.Foretold compiling.store ((pipeline.poolFor units).follow compiling order).2.store := by
  obtain ⟨other, isOther, work⟩ := strand_of_unit _ compiling order isUnit
  obtain rfl : other = strand := Option.some.inj (isOther.symm.trans isStrand)
  refine ⟨work, fun waits => ?_, (pipeline.foresees_poolFor names compiling order).strands isStrand⟩
  have answered := complete other (List.mem_of_getElem? isStrand)
  rw [waits] at answered
  cases answered

theorem foretells_of_complete (names : (units.map SourceUnit.artifactName).Nodup)
    (entries : ∀ unit ∈ units, compiling.store.lookup unit.artifactName = store.lookup unit.artifactName)
    (complete : ((pipeline.poolFor units).follow compiling order).1.Complete)
    (isUnit : units[position]? = some unit) :
    pipeline.Foretells store (Job.results (units.map pipeline.jobFor) ((pipeline.poolFor units).follow compiling order).1)
      (pipeline.poolFor units, compiling) order position unit := by
  obtain ⟨strand, isStrand, _⟩ := strand_of_unit _ compiling order isUnit
  obtain ⟨work, begun, foretold⟩ := foretold_of_complete names complete isUnit isStrand
  have isResult : (Job.results (units.map pipeline.jobFor)
      ((pipeline.poolFor units).follow compiling order).1)[position]? =
      some ((pipeline.jobFor unit).result strand) := by
    rw [poolFor, results_getElem?, isUnit, Option.bind_some, isStrand]
    rfl
  have listed := mem_cacheHits_iff (names_results _ compiling order ▸ names) (List.mem_of_getElem? isResult)
  cases asks : pipeline.workFor unit with
  | error cause =>
    exact foretells_of_error isUnit asks isResult (foretold.answered_of_error (work.trans asks) begun).1 listed
  | ok request =>
    exact foretells_of_ok ⟨place_of_name names⟩ isUnit asks isStrand work begun foretold
      (entries unit (List.mem_of_getElem? isUnit)) listed

/-- In whatever order the pieces of sources with names of their own run to their end, all is done as the status
says that was told when the entries of the sources were the same. -/
theorem asTold_of_complete (names : (units.map SourceUnit.artifactName).Nodup)
    (asked : compiling.store.asked = store.asked)
    (entries : ∀ unit ∈ units, compiling.store.lookup unit.artifactName = store.lookup unit.artifactName)
    (complete : ((pipeline.poolFor units).follow compiling order).1.Complete) :
    pipeline.AsTold store units compiling order := by
  have works := Pool.works_follow (max pipeline.project.settings.build.concurrency 1) (units.map pipeline.workFor)
    compiling order
  have counts : ∀ (position : Nat) (unit : SourceUnit) (strand : Strand), units[position]? = some unit →
      ((pipeline.poolFor units).follow compiling order).1.strands[position]? = some strand →
      strand.cacheHit = decide (pipeline.freshness store unit = .fresh) ∧ strand.isMiss =
        decide (pipeline.freshness store unit = .stale ∨ pipeline.freshness store unit = .missing) := by
    intro position unit strand isUnit isStrand
    obtain ⟨work, begun, foretold⟩ := foretold_of_complete names complete isUnit isStrand
    exact counts_of_status work begun foretold (entries unit (List.mem_of_getElem? isUnit))
  refine ⟨fun position unit isUnit => foretells_of_complete names entries complete isUnit, ?_, ?_⟩
  · have counted : ((pipeline.poolFor units).follow compiling order).1.strands.countP Strand.cacheHit =
        (units.map (pipeline.statusFor store)).countP fun status => status.freshness = .fresh :=
      countP_strands works fun position unit strand isUnit isStrand =>
        (counts position unit strand isUnit isStrand).1
    have total := (pipeline.foresees_poolFor names compiling order).hits
    rw [counted, asked] at total
    exact total
  · have counted : ((pipeline.poolFor units).follow compiling order).1.strands.countP Strand.isMiss =
        (units.map (pipeline.statusFor store)).countP
          fun status => status.freshness = .stale ∨ status.freshness = .missing :=
      countP_strands works fun position unit strand isUnit isStrand =>
        (counts position unit strand isUnit isStrand).2
    have total := (pipeline.foresees_poolFor names compiling order).misses
    rw [counted, asked] at total
    exact total

end

/-- A run has compiled the sources of a status, and has done with each of them what the status says; so it would
have in any other order of their pieces. -/
structure RunsAsTold (pipeline : Pipeline) (mode : Mode) (state : BuildState) (statuses : List UnitStatus)
    (units : List SourceUnit) (checked compiled : RunState) (results : List JobResult) : Prop where
  told : statuses = units.map (pipeline.statusFor state.store)
  compiles : pipeline.Compiles ⟨.start, state⟩ units checked compiled results
  inAnyOrder : ∀ order, ((pipeline.poolFor units).follow checked.build order).1.Complete →
    pipeline.AsTold state.store units checked.build order
  runs : ∃ order, ((pipeline.poolFor units).follow checked.build order).1.Complete ∧
    ((pipeline.poolFor units).follow checked.build order).2 = compiled.build ∧
    Job.results (units.map pipeline.jobFor) ((pipeline.poolFor units).follow checked.build order).1 = results
  fresh : ∀ status ∈ statuses, status.freshness = .fresh ↔ status.name ∈ (pipeline.run mode state).1.cacheHits
  reports : ∀ result ∈ results, ∀ cause, result.outcome = .error cause → cause ∈ (pipeline.run mode state).1.errors
  hits : (pipeline.run mode state).2.store.counters.hits = state.store.counters.hits +
    statuses.countP fun status => status.freshness = .fresh
  misses : (pipeline.run mode state).2.store.counters.misses = state.store.counters.misses +
    statuses.countP fun status => status.freshness = .stale ∨ status.freshness = .missing

/-- What compiling starts from: dropping what is not in use has counted nothing, and has kept the entries of the
sources. -/
theorem Compiles.kept (compiles : pipeline.Compiles ⟨.start, state⟩ units checked compiled results) :
    checked.build.store.asked = state.store.asked ∧
      ∀ unit ∈ units, checked.build.store.lookup unit.artifactName = state.store.lookup unit.artifactName := by
  obtain ⟨tree, evicted, retained, _, retains, _, rfl⟩ := compiles.discovers
  have counted := Store.countsNothing_retain (units.map SourceUnit.artifactName) (withFiles ⟨.start, state⟩ tree).build
  rw [retains] at counted
  refine ⟨counted.asked, fun unit isUnit => ?_⟩
  have used : unit.artifactName ∈ units.map (·.artifactName) := List.mem_map_of_mem isUnit
  have kept := Store.keepsEntry_retain used (withFiles ⟨.start, state⟩ tree).build
  rw [retains] at kept
  exact kept

theorem Compiles.store (compiles : pipeline.Compiles ⟨.start, state⟩ units checked compiled results) (mode : Mode) :
    (pipeline.run mode state).2.store = compiled.build.store := by
  rw [store_front, front_of_compiles compiles, (pipeline.behind_extracts mode results compiled).store]

theorem runsAsTold_of_compiles (compiles : pipeline.Compiles ⟨.start, state⟩ units checked compiled results)
    (complete : (pipeline.worked units checked).1.Complete) (mode : Mode) :
    pipeline.RunsAsTold mode state (units.map (pipeline.statusFor state.store)) units checked compiled results := by
  obtain ⟨order, ran, after, isResults⟩ := strand_of_result compiles.compiles
  obtain ⟨_, _, _, discovers, _⟩ := compiles.discovers
  obtain ⟨asked, entries⟩ := compiles.kept
  have inAnyOrder : ∀ order, ((pipeline.poolFor units).follow checked.build order).1.Complete →
      pipeline.AsTold state.store units checked.build order := fun order complete =>
    asTold_of_complete (nodup_of_discover discovers) asked entries complete
  rw [worked, ran] at complete
  have asTold := inAnyOrder order complete
  refine ⟨rfl, compiles, inAnyOrder, ⟨order, complete, after.symm, isResults.symm⟩, ?_, ?_, ?_, ?_⟩
  · intro status told
    obtain ⟨unit, isUnit, rfl⟩ := List.mem_map.1 told
    obtain ⟨position, found⟩ := List.mem_iff_getElem?.1 isUnit
    rw [compiles.cacheHits, isResults]
    exact (asTold.foretells position unit found).fresh
  · exact fun result listed cause failed => mem_errors_of_result compiles listed failed
  · rw [compiles.store, after]
    exact asTold.hits
  · rw [compiles.store, after]
    exact asTold.misses

/-- Why a run can end before it compiles sources that were read a moment ago: reading them again is disrupted, or
the file of an artifact that is not in use cannot be removed. -/
inductive Hinders (state : BuildState) (names : List String) : BuildError → Prop
  | disrupted (comes : state.workspace.files.faultAfter ≠ none) : Hinders state names (.project (.file .disrupted))
  | unretained {failure : FileError} {later : FileTree} (same : state.workspace.files.SameFiles later)
    (retains : (Store.retain names ⟨{ state.workspace with files := later }, state.store⟩).1 =
      .error (.file failure)) : Hinders state names (.file failure)

/-- A run that nobody cancels, right behind the status of sources with names of their own. Unless it is hindered
before it compiles, it does with every source what the status says, in whatever order their pieces run. -/
theorem run_as_told {statuses : List UnitStatus} {tree : FileTree}
    (told : pipeline.status state.store state.workspace.files = (.ok statuses, tree))
    (distinct : (statuses.map UnitStatus.name).Nodup) (quiet : state.workspace.cancellation = .quiet)
    (returns : pipeline.Returns ⟨{ state.workspace with files := tree }, state.store⟩) (mode : Mode) :
    let started : BuildState := ⟨{ state.workspace with files := tree }, state.store⟩
    (∃ cause, pipeline.EndsEarly mode started cause ∧ Hinders started (statuses.map UnitStatus.name) cause) ∨
    ∃ units checked compiled results, pipeline.RunsAsTold mode started statuses units checked compiled results := by
  intro started
  obtain ⟨units, rfl, found⟩ := discover_of_status told distinct
  have names : (units.map (pipeline.statusFor state.store)).map UnitStatus.name = units.map SourceUnit.artifactName := by
    rw [List.map_map]
    rfl
  have known : ∀ {others : List SourceUnit} {later : FileTree},
      pipeline.discover (files ⟨.start, started⟩) = (.ok others, later) → others = units := by
    intro others later discovers
    rcases found with ⟨last, again⟩ | ⟨⟨last, failed⟩, _⟩
    · exact Except.ok.inj (congrArg Prod.fst (discovers.symm.trans again))
    · cases discovers.symm.trans failed
  -- the run is followed up to its compiling: it reads the sources again, then drops what is not in use
  have fronts := pipeline.front_fronts mode ⟨.start, started⟩
  generalize isFront : pipeline.front mode ⟨.start, started⟩ = fronted at fronts
  obtain ⟨outcome, after⟩ := fronted
  cases fronts with
  | @unread cause later discovers =>
    refine .inl ⟨cause, endsEarly_of_front isFront quiet rfl ⟨rfl, rfl⟩, ?_⟩
    rcases found with ⟨last, again⟩ | ⟨⟨last, failed⟩, comes⟩
    · cases discovers.symm.trans again
    · obtain rfl : cause = .project (.file .disrupted) :=
        Except.error.inj (congrArg Prod.fst (discovers.symm.trans failed))
      exact .disrupted comes
  | @unretained others later cause retained discovers retains =>
    obtain rfl := known discovers
    have reads := reads_discover pipeline (files ⟨.start, started⟩)
    have still := quiet_retain (others.map SourceUnit.artifactName) (withFiles ⟨.start, started⟩ later).build quiet
    have nothing := Store.countsNothing_retain (others.map SourceUnit.artifactName)
      (withFiles ⟨.start, started⟩ later).build
    rw [discovers] at reads
    rw [retains] at still nothing
    obtain ⟨failure, rfl⟩ := Store.fails_retain _ _ cause (by rw [retains])
    refine .inl ⟨_, endsEarly_of_front isFront still rfl ⟨nothing.asked, nothing.calls⟩, ?_⟩
    rw [names]
    exact .unretained reads (congrArg Prod.fst retains)
  | @uncompiled others later evicted retained discovers retains sees =>
    have still := quiet_retain (others.map SourceUnit.artifactName) (withFiles ⟨.start, started⟩ later).build quiet
    rw [retains] at still
    exact absurd sees (not_seesCancelled still)
  | @compiled others checked compiled results _ _ compiles extracts =>
    obtain ⟨_, _, _, discovers, _⟩ := compiles.discovers
    obtain rfl := known discovers
    exact .inr ⟨others, checked, compiled, results,
      runsAsTold_of_compiles compiles (returns _ _ _ _ compiles) mode⟩

def halfCompiled : BuildState :=
  ⟨.ofFiles ⟨.directory [(".kiln", .directory [("cache", .directory [("artifacts", .emptyDirectory)])]),
      ("contracts", .directory [("A.vy", .file "[]".toUTF8), ("B.vy", .file "[1]".toUTF8)])], [], none⟩,
    ⟨⟨".kiln/cache/artifacts"⟩, [Pool.compiledFor "contracts/A.vy"], [], ⟨0, 0, 0, 0⟩⟩⟩

/-- As the status says, one of two sources is a hit and the other one a miss. -/
theorem run_as_told_halfCompiled :
    let ended := vyperOnly.run .compileOnly halfCompiled
    "A" ∈ ended.1.cacheHits ∧ "B" ∉ ended.1.cacheHits ∧ ended.2.store.counters.hits = 1 ∧
      ended.2.store.counters.misses = 1 := by
  intro ended
  have ran : ((vyperOnly.concludesWithin 9 .compileOnly halfCompiled).any fun ended =>
      decide (ended.1.errors = []) && decide (ended.1.stage = .done)) = true := by
    decide +kernel
  obtain ⟨last, within, ran⟩ := (Option.any_eq_true ..).1 ran
  obtain rfl : ended = last := run_of_concludesWithin within
  rw [Bool.and_eq_true, decide_eq_true_eq, decide_eq_true_eq] at ran
  let told : List UnitStatus := [⟨"A", ⟨"contracts/A.vy"⟩, .vyper, .fresh⟩, ⟨"B", ⟨"contracts/B.vy"⟩, .vyper, .missing⟩]
  have status : vyperOnly.status halfCompiled.store halfCompiled.workspace.files =
      (.ok told, halfCompiled.workspace.files) := status_of_quiet rfl (by decide +kernel)
  rcases vyperOnly.run_as_told status (by decide) rfl (returns_of_done ran.2) .compileOnly with
    ⟨cause, early, _⟩ | ⟨units, checked, compiled, results, asTold⟩
  · have errors : ended.1.errors = [cause] := early.errors
    rw [ran.1] at errors
    cases errors
  · refine ⟨(asTold.fresh _ List.mem_cons_self).1 rfl, fun listed => ?_, asTold.hits, asTold.misses⟩
    cases (asTold.fresh _ (List.mem_cons_of_mem _ List.mem_cons_self)).2 listed

def obstructed : BuildState :=
  ⟨.ofFiles ⟨.directory [(".kiln", .directory [("cache", .directory [("artifacts",
      .directory [("B.json", .emptyDirectory)])])]), ("contracts", .directory [("A.vy", .file "[]".toUTF8)])], [], none⟩,
    ⟨⟨".kiln/cache/artifacts"⟩, [Pool.compiledFor "contracts/A.vy", Pool.compiledFor "contracts/B.vy"], [],
      ⟨0, 0, 0, 0⟩⟩⟩

/-- A run that cannot drop the artifact of a source that is gone does not list the fresh ones. -/
theorem exists_fresh_unlisted :
    ¬ ∀ (pipeline : Pipeline) (state : BuildState) (statuses : List UnitStatus) (mode : Mode),
      pipeline.status state.store state.workspace.files = (.ok statuses, state.workspace.files) →
      (statuses.map UnitStatus.name).Nodup → state.workspace.cancellation = .quiet →
      state.workspace.files.faultAfter = none → pipeline.Returns state →
      ∀ status ∈ statuses, status.freshness = .fresh ↔ status.name ∈ (pipeline.run mode state).1.cacheHits := by
  intro agrees
  have discovers : vyperOnly.discover obstructed.workspace.files = (.ok [unitA], obstructed.workspace.files) :=
    discover_of_unitA (by decide +kernel) rfl
  have status : vyperOnly.status obstructed.store obstructed.workspace.files =
      (.ok [⟨"A", ⟨"contracts/A.vy"⟩, .vyper, .fresh⟩], obstructed.workspace.files) :=
    status_of_quiet rfl (by decide +kernel)
  have obstructs : (Store.retain ["A"] obstructed).1.isOk = false := by decide +kernel
  have returns : vyperOnly.Returns obstructed := by
    intro units checked compiled results compiles
    obtain ⟨tree, evicted, retained, discoversToo, retains, _⟩ := compiles.discovers
    cases discovers.symm.trans discoversToo
    rw [show Store.retain ["A"] obstructed = (.ok evicted, retained) from retains] at obstructs
    cases obstructs
  have ran : ((vyperOnly.concludesWithin 9 .compileOnly obstructed).any fun ended =>
      decide (ended.1.cacheHits = [])) = true := by
    decide +kernel
  obtain ⟨last, within, none⟩ := (Option.any_eq_true ..).1 ran
  have listed := (agrees vyperOnly obstructed _ .compileOnly status (by decide) rfl rfl returns _ List.mem_cons_self).1 rfl
  rw [run_of_concludesWithin within, of_decide_eq_true none] at listed
  cases listed

end Pipeline
end ContractBuild
