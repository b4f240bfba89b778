import Mathlib.Data.List.Nodup
import ContractBuild.Build.Pipeline
import ContractBuild.Proofs.Store.Independence
import ContractBuild.Proofs.Store.Outcomes
import ContractBuild.Proofs.Store.SharedCompile

/-!
Compiling all sources side by side comes to the same as compiling them one after another: the same
results in the order of the sources, and the same store behind them.
-/
namespace ContractBuild
open BuildState Pool

namespace Job

def results (jobs : List Job) (pool : Pool) : List JobResult :=
  (jobs.zip pool.strands).map fun (job, strand) => job.result strand

def runInTurn : List Job → BuildState → List JobResult × BuildState
  | [], state => ([], state)
  | job :: jobs, state =>
    let (result, after) := runAll 1 [job] state
    let (results, last) := runInTurn jobs after
    (result ++ results, last)

def resultFrom (assigned : Request → Except BuildError Artifact) (first : BuildState) (job : Job) : JobResult :=
  { name := job.name
    path := job.unit.path
    cacheHit := (answer assigned first job.work).1
    selected := job.selected
    outcome := (answer assigned first job.work).2 }

variable {assigned : Request → Except BuildError Artifact} {first : BuildState} {limit : Nat} {jobs : List Job}
  {now : Pool × BuildState}

theorem results_eq {work : List (Except BuildError Request)} (works : jobs.map Job.work = work)
    (apart : Apart limit work assigned first now) (complete : now.1.Complete) :
    results jobs now.1 = jobs.map (resultFrom assigned first) := by
  subst works
  have length : now.1.strands.length = jobs.length := by
    rw [← List.length_map Strand.work, apart.works, List.length_map]
  apply List.ext_getElem
  · simp [results, length]
  · intro position inside insideToo
    have here : position < now.1.strands.length := by
      rw [length]
      simpa using insideToo
    have found : now.1.strands[position]? = some now.1.strands[position] := List.getElem?_eq_getElem here
    have asked := apart.work_at found
    rw [List.getElem?_map, List.getElem?_eq_getElem (by simpa using insideToo), Option.map_some,
      Option.some.injEq] at asked
    have told := (apart.answered complete found).1
    rw [Prod.mk.injEq, ← asked] at told
    simp only [results, List.getElem_map, List.getElem_zip, result, resultFrom, told.1, told.2,
      Option.getD_some]

theorem runAll_eq (separate : Separate (jobs.map Job.work) assigned) (housed : first.IsHoused)
    (idle : ∀ slot ∈ first.store.slots, slot.listed = false) (works : 0 < limit) :
    (runAll limit jobs first).1 = jobs.map (resultFrom assigned first) ∧
      Settled (jobs.map Job.work) assigned first (runAll limit jobs first).2 := by
  obtain ⟨apart, complete⟩ := run_apart separate housed idle works
  exact ⟨results_eq rfl apart complete, apart.settled complete⟩

theorem runInTurn_eq (separate : Separate (jobs.map Job.work) assigned) (housed : first.IsHoused)
    (idle : ∀ slot ∈ first.store.slots, slot.listed = false) :
    (runInTurn jobs first).1 = jobs.map (resultFrom assigned first) ∧
      Settled (jobs.map Job.work) assigned first (runInTurn jobs first).2 := by
  induction jobs generalizing first with
  | nil => exact ⟨rfl, .nil idle⟩
  | cons job jobs ih =>
    have alone : (runAll 1 [job] first).1 = [job].map (resultFrom assigned first) ∧
        Settled ([job].map Job.work) assigned first (runAll 1 [job] first).2 :=
      runAll_eq separate.head housed idle Nat.one_pos
    obtain ⟨result, settled⟩ := alone
    obtain ⟨results, later⟩ := ih separate.tail (settled.touches.housed housed) settled.idle
    refine ⟨?_, settled.cons separate later⟩
    show (runAll 1 [job] first).1 ++ (runInTurn jobs (runAll 1 [job] first).2).1 = _
    rw [result, results, List.map_cons, List.map_nil, List.singleton_append]
    congr 1
    refine List.map_congr_left fun other member => ?_
    have same := settled.answer_eq separate other.work (List.mem_map_of_mem member)
    simp only [resultFrom, same]

end Job

/-! Summaries -/

def JobResult.error? (result : JobResult) : Option BuildError :=
  match result.outcome with
  | .ok _ => none
  | .error cause => some cause

namespace CompileSummary

/-- A summary lists the results by kind, each kind in the order of the results. -/
theorem ofResults_eq (results : List JobResult) :
    ofResults results =
      { compiled := (results.filter fun result => result.isOk && !result.cacheHit).map (·.name)
        cacheHits := (results.filter fun result => result.isOk && result.cacheHit).map (·.name)
        errors := results.filterMap JobResult.error?
        blocked := (results.filter JobResult.blocksExport).map (·.name) } := by
  induction results using List.reverseRecOn with
  | nil => rfl
  | append_singleton results result ih =>
    rw [ofResults, List.foldl_append, List.foldl_cons, List.foldl_nil, ← ofResults, ih]
    simp only [List.filter_append, List.map_append, List.filterMap_append]
    obtain ⟨name, path, cacheHit, selected, outcome⟩ := result
    cases outcome <;> cases cacheHit <;> cases selected <;>
      simp [add, JobResult.isOk, JobResult.error?, JobResult.blocksExport, Except.isOk, Except.toBool]

/-- Where no error is listed, all went well. -/
theorem isOk_of_clean {results : List JobResult} (clean : (ofResults results).errors = []) :
    (∀ result ∈ results, result.isOk = true) ∧ (ofResults results).blocked = [] := by
  rw [ofResults_eq] at clean ⊢
  have all : ∀ result ∈ results, result.isOk = true := by
    intro result member
    have none := List.filterMap_eq_nil_iff.1 clean result member
    unfold JobResult.error? at none
    split at none
    · next artifact answered =>
      rw [JobResult.isOk, answered]
      rfl
    · cases none
  refine ⟨all, ?_⟩
  rw [List.map_eq_nil_iff, List.filter_eq_nil_iff]
  intro result member
  simp [JobResult.blocksExport, all result member]

/-- Every result is listed once: as compiled, as a hit or with its error. -/
theorem perm_names (results : List JobResult) :
    ((ofResults results).compiled ++ (ofResults results).cacheHits ++
      (results.filter fun result => !result.isOk).map (·.name)).Perm (results.map (·.name)) := by
  rw [ofResults_eq, ← List.map_append, ← List.map_append]
  apply List.Perm.map
  have good : ((results.filter fun result => result.isOk && !result.cacheHit) ++
      (results.filter fun result => result.isOk && result.cacheHit)).Perm (results.filter (·.isOk)) := by
    have split := List.filter_append_perm (fun result => !result.cacheHit) (results.filter (·.isOk))
    simpa [List.filter_filter, Bool.and_comm] using split
  exact (good.append_right _).trans (List.filter_append_perm (·.isOk) results)

end CompileSummary

namespace Pipeline

theorem workFor_eq_ok {pipeline : Pipeline} {unit : SourceUnit} {request : Request}
    (works : pipeline.workFor unit = .ok request) : request.unit = unit := by
  unfold workFor at works
  split at works
  · cases works
  · split at works
    · cases works
      rfl
    · cases works

theorem adapter_of_workFor {pipeline : Pipeline} {unit : SourceUnit} {request : Request}
    (works : pipeline.workFor unit = .ok request) :
    ∃ adapter, pipeline.adapters unit.language = some adapter ∧ request.adapter = adapter := by
  unfold workFor at works
  split at works
  · cases works
  · next adapter found =>
    split at works
    · cases works
      exact ⟨adapter, found, rfl⟩
    · cases works

theorem workFor_eq_error {pipeline : Pipeline} {unit : SourceUnit} {cause : BuildError}
    (fails : pipeline.workFor unit = .error cause) : cause.isCompileFailure = true := by
  unfold workFor at fails
  split at fails
  · cases fails
    rfl
  · split at fails
    · cases fails
    · cases fails
      rfl

def OfSource (cause : BuildError) : Prop :=
  cause.isCompileFailure = true ∨ cause = .cancelled

theorem ofSource_duplicate (cause : BuildError) (unit : Path) : OfSource (cause.duplicate unit) := by
  by_cases cancelled : cause = .cancelled
  · subst cancelled
    exact .inr rfl
  · exact .inl (BuildError.isCompileFailure_duplicate unit cancelled)

theorem ofSource_of_serve {request : Request} {outcome : Except BuildError Artifact} {shelf : Shelf}
    {cause : BuildError} (told : (request.serve outcome shelf).told = .error cause) : OfSource cause := by
  unfold Request.serve at told
  split at told
  · cases told
  · split at told
    · cases told
      exact ofSource_duplicate _ _
    · next cleared _ =>
      generalize (request.accept outcome cleared).1 = result at told
      cases result with
      | ok artifact => cases told
      | error failed =>
        cases told
        exact ofSource_duplicate failed _

variable {pipeline : Pipeline} {units : List SourceUnit} {assigned : Request → Except BuildError Artifact}

theorem work_jobs (pipeline : Pipeline) (units : List SourceUnit) :
    (units.map pipeline.jobFor).map Job.work = units.map pipeline.workFor := by
  rw [List.map_map]
  rfl

theorem unit_of_mem {request : Request} (member : .ok request ∈ units.map pipeline.workFor) :
    request.unit ∈ units ∧ pipeline.workFor request.unit = .ok request := by
  obtain ⟨unit, inside, made⟩ := List.mem_map.1 member
  rw [workFor_eq_ok made]
  exact ⟨inside, made⟩

/-- Of sources with names of their own, no two requests have one name. -/
theorem place_of_name (names : (units.map SourceUnit.artifactName).Nodup) {one other : Nat} {request another : Request}
    (there : (units.map pipeline.workFor)[one]? = some (.ok request))
    (thereToo : (units.map pipeline.workFor)[other]? = some (.ok another)) (same : request.name = another.name) :
    one = other := by
  have name : ∀ {place : Nat} {request : Request},
      (units.map pipeline.workFor)[place]? = some (.ok request) →
      (units.map SourceUnit.artifactName)[place]? = some request.name := by
    intro place request found
    rw [List.getElem?_map] at found ⊢
    obtain ⟨unit, isUnit, made⟩ := Option.map_eq_some_iff.1 found
    rw [isUnit, Request.name, workFor_eq_ok made]
    rfl
  have found := name there
  refine (List.getElem?_inj (List.getElem?_eq_some_iff.1 found).1 names).1 ?_
  rw [found, name thereToo, same]

/-- Sources with names and fingerprints of their own make distinct requests. -/
theorem distinct_works (names : (units.map SourceUnit.artifactName).Nodup)
    (fingerprints : ((units.filterMap fun unit => (pipeline.workFor unit).toOption).map
      Request.fingerprint).Nodup) : Distinct (units.map pipeline.workFor) := by
  constructor
  · exact fun there thereToo same => place_of_name names there thereToo same
  · intro request another member memberToo same
    have listed : ∀ {request : Request}, .ok request ∈ units.map pipeline.workFor →
        request ∈ units.filterMap fun unit => (pipeline.workFor unit).toOption := by
      intro request member
      refine List.mem_filterMap.2 ⟨request.unit, (unit_of_mem member).1, ?_⟩
      rw [(unit_of_mem member).2]
      rfl
    rw [List.inj_on_of_nodup_map fingerprints (listed member) (listed memberToo) same]

/-- Where every source has come to an artifact, every strand is answered with one. -/
theorem answered_of_runAll {limit : Nat} {state after : BuildState} {results : List JobResult}
    (ran : Job.runAll limit (units.map pipeline.jobFor) state = (results, after))
    (all : ∀ result ∈ results, result.isOk = true) :
    ∀ strand ∈ ((ofWork limit (units.map pipeline.workFor)).run state).1.strands,
      ∃ artifact, strand.phase = .answered (.ok artifact) := by
  unfold Job.runAll at ran
  rw [work_jobs] at ran
  obtain ⟨order, followed⟩ := run_eq_follow (ofWork limit (units.map pipeline.workFor)) state
  have works := works_follow limit (units.map pipeline.workFor) state order
  rw [followed] at ran ⊢
  generalize (ofWork limit (units.map pipeline.workFor)).follow state order = last at ran works
  obtain ⟨pool, build⟩ := last
  cases ran
  have length : pool.strands.length ≤ (units.map pipeline.jobFor).length := by
    have same := congrArg List.length works
    rw [List.length_map, List.length_map] at same
    rw [List.length_map]
    exact same.le
  intro strand member
  rw [← List.map_snd_zip length] at member
  obtain ⟨⟨job, strand⟩, paired, rfl⟩ := List.mem_map.1 member
  have ended := all _ (List.mem_map_of_mem paired)
  unfold JobResult.isOk Job.result at ended
  dsimp only at ended ⊢
  cases phase : strand.phase with
  | answered outcome =>
    rw [phase] at ended
    cases outcome with
    | ok artifact => exact ⟨artifact, rfl⟩
    | error cause => cases ended
  | pending => rw [phase] at ended; cases ended
  | waiting slot => rw [phase] at ended; cases ended
  | compiling slot call => rw [phase] at ended; cases ended

/-- Where every source has come to an artifact, all of them have it in the store. -/
theorem allFresh_of_runAll {limit : Nat} {state after : BuildState} {results : List JobResult}
    (distinct : Distinct (units.map pipeline.workFor)) (idle : ∀ slot ∈ state.store.slots, slot.listed = false)
    (ran : Job.runAll limit (units.map pipeline.jobFor) state = (results, after))
    (all : ∀ result ∈ results, result.isOk = true) : AllFresh (units.map pipeline.workFor) after.store := by
  have fresh := distinct.allFresh idle limit (answered_of_runAll ran all)
  unfold Job.runAll at ran
  rw [work_jobs] at ran
  rwa [show _ = after from congrArg Prod.snd ran] at fresh

/-- With adapters that end, their requests are separate. -/
theorem separate_jobs (names : (units.map SourceUnit.artifactName).Nodup)
    (fingerprints : ((units.filterMap fun unit => (pipeline.workFor unit).toOption).map
      Request.fingerprint).Nodup)
    (ends : ∀ unit ∈ units, ∀ request, pipeline.workFor unit = .ok request →
      (request.adapter.call request.unit request.version).Ends (assigned request)) :
    Separate ((units.map pipeline.jobFor).map Job.work) assigned := by
  rw [work_jobs]
  refine ⟨distinct_works names fingerprints, ?_, ?_⟩
  · intro request member
    exact request.unit.artifactName_whole
  · intro request member
    exact ends _ (unit_of_mem member).1 _ (unit_of_mem member).2

/-- What results and their summary say of some sources: each source has a result, in the order of the
sources, and is listed once, as compiled, as a hit or with its error. -/
structure Tallies (units : List SourceUnit) (results : List JobResult) (summary : CompileSummary) : Prop where
  names : results.map (·.name) = units.map SourceUnit.artifactName
  once : (summary.compiled ++ summary.cacheHits ++
    (results.filter fun result => !result.isOk).map (·.name)).Perm (units.map SourceUnit.artifactName)
  compiled : summary.compiled.Sublist (units.map SourceUnit.artifactName)
  cacheHits : summary.cacheHits.Sublist (units.map SourceUnit.artifactName)
  errors : (results.filter fun result => !result.isOk).map (·.outcome) = summary.errors.map .error
  ofSource : ∀ cause ∈ summary.errors, OfSource cause

theorem tallies_ofResults {results : List JobResult}
    (names : results.map (·.name) = units.map SourceUnit.artifactName)
    (ofSource : ∀ result ∈ results, ∀ cause, result.outcome = .error cause → OfSource cause) :
    Tallies units results (.ofResults results) := by
  refine ⟨names, names ▸ CompileSummary.perm_names results, ?_, ?_, ?_, ?_⟩
  · rw [CompileSummary.ofResults_eq, ← names]
    exact List.filter_sublist.map _
  · rw [CompileSummary.ofResults_eq, ← names]
    exact List.filter_sublist.map _
  · rw [CompileSummary.ofResults_eq]
    clear names ofSource
    induction results with
    | nil => rfl
    | cons result results ih =>
      obtain ⟨name, path, cacheHit, selected, outcome⟩ := result
      cases outcome <;> simp [JobResult.isOk, JobResult.error?, Except.isOk, Except.toBool] at ih ⊢ <;> exact ih
  · rw [CompileSummary.ofResults_eq]
    intro cause member
    obtain ⟨result, inside, failed⟩ := List.mem_filterMap.1 member
    refine ofSource result inside cause ?_
    unfold JobResult.error? at failed
    split at failed
    · cases failed
    · next outcome =>
      cases failed
      exact outcome

/-- Sources are compiled side by side as they would be one after another. Whatever the limit and in
whatever order they come to their ends, the results are the same in the order of the sources, and so
is the store. -/
theorem compileAll_eq_runInTurn (names : (units.map SourceUnit.artifactName).Nodup)
    (fingerprints : ((units.filterMap fun unit => (pipeline.workFor unit).toOption).map
      Request.fingerprint).Nodup)
    (ends : ∀ unit ∈ units, ∀ request, pipeline.workFor unit = .ok request →
      (request.adapter.call request.unit request.version).Ends (assigned request))
    {state : BuildState} (housed : state.IsHoused) (idle : ∀ slot ∈ state.store.slots, slot.listed = false)
    {results : List JobResult} {last : BuildState}
    (inTurn : Job.runInTurn (units.map pipeline.jobFor) state = (results, last)) :
    (∀ limit order, ((ofWork limit (units.map pipeline.workFor)).follow state order).1.Complete →
      Job.results (units.map pipeline.jobFor) ((ofWork limit (units.map pipeline.workFor)).follow state order).1 =
          results ∧
        last.SameStore ((ofWork limit (units.map pipeline.workFor)).follow state order).2) ∧
    (∀ limit, 0 < limit → (Job.runAll limit (units.map pipeline.jobFor) state).1 = results ∧
      last.SameStore (Job.runAll limit (units.map pipeline.jobFor) state).2) ∧
    (∀ report, ∃ after, last.SameStore after ∧ pipeline.compileAll units ⟨report, state⟩ =
      (.ok (CompileSummary.ofResults results).blocked,
        ⟨{ report with
          compiled := (CompileSummary.ofResults results).compiled
          cacheHits := (CompileSummary.ofResults results).cacheHits
          errors := report.errors ++ (CompileSummary.ofResults results).errors }, after⟩)) ∧
    Tallies units results (.ofResults results) := by
  have separate : Separate ((units.map pipeline.jobFor).map Job.work) assigned :=
    separate_jobs names fingerprints ends
  have works := work_jobs pipeline units
  obtain ⟨alone, settled⟩ := Job.runInTurn_eq separate housed idle
  rw [inTurn] at alone settled
  dsimp only at alone settled
  have sideBySide : ∀ limit, 0 < limit → (Job.runAll limit (units.map pipeline.jobFor) state).1 = results ∧
      last.SameStore (Job.runAll limit (units.map pipeline.jobFor) state).2 := by
    intro limit room
    obtain ⟨same, settledToo⟩ := Job.runAll_eq separate housed idle room
    exact ⟨same.trans alone.symm, settled.sameStore settledToo⟩
  refine ⟨?_, sideBySide, ?_, ?_⟩
  · intro limit order complete
    have start : Apart limit (units.map pipeline.workFor) assigned state _ := .start idle limit _
    have apart := start.follow (works ▸ separate) housed order
    rw [works] at settled
    exact ⟨(Job.results_eq works apart complete).trans alone.symm, settled.sameStore (apart.settled complete)⟩
  · intro report
    obtain ⟨same, store⟩ := sideBySide (max pipeline.project.settings.build.concurrency 1) (by omega)
    refine ⟨_, store, ?_⟩
    simp only [compileAll, ← same]
  · refine tallies_ofResults ?_ ?_
    · rw [alone, List.map_map, List.map_map]
      rfl
    · intro result member cause failed
      rw [alone] at member
      obtain ⟨job, inside, rfl⟩ := List.mem_map.1 member
      obtain ⟨unit, _, rfl⟩ := List.mem_map.1 inside
      have answered : (answer assigned state (pipeline.workFor unit)).2 = .error cause := failed
      cases asks : pipeline.workFor unit with
      | error lack =>
        rw [asks] at answered
        cases answered
        exact .inl (workFor_eq_error asks)
      | ok request =>
        rw [asks] at answered
        exact ofSource_of_serve answered

def vyperOnly : Pipeline :=
  { project :=
      { settings := ⟨"", "0.1.0", "contracts", none, some ⟨"0.3.1", none, true, 200, none, []⟩, .default,
          .default, .default⟩
        base := ⟨""⟩ }
    adapters := fun
      | .vyper => some steadyAdapter
      | .solidity => none }

def twoUnits : List SourceUnit :=
  [⟨⟨"contracts/A.vy"⟩, .vyper, "[]"⟩, ⟨⟨"contracts/B.vy"⟩, .vyper, "[1]"⟩]

def emptyStore : BuildState :=
  ⟨.ofFiles ⟨.directory [("cache", .emptyDirectory)], [], none⟩, ⟨⟨"cache"⟩, [], [], ⟨0, 0, 0, 0⟩⟩⟩

theorem housed_emptyStore : emptyStore.IsHoused :=
  ⟨rfl, FileNode.tidy_of_isTidy (by decide +kernel), rfl, by decide +kernel⟩

/-- Compiled one after another, two sources come to what they come to with their pieces interleaved. -/
theorem runInTurn_of_interleaved :
    CompileSummary.ofResults (Job.runInTurn (twoUnits.map vyperOnly.jobFor) emptyStore).1 =
        ⟨["A", "B"], [], [], []⟩ ∧
      (vyperOnly.compileAll twoUnits ⟨.start, emptyStore⟩).2.report.compiled = ["A", "B"] := by
  have ends : ∀ unit ∈ twoUnits, ∀ request, vyperOnly.workFor unit = .ok request →
      (request.adapter.call request.unit request.version).Ends
        (.ok (.ofOutput request.unit request.version [] ⟨[], ""⟩)) := by
    intro unit member request works
    simp only [twoUnits, List.mem_cons, List.not_mem_nil, or_false] at member
    obtain rfl | rfl := member <;> cases works <;>
      exact .act (fun _ => rfl) fun _ => .await (fun _ => rfl) .done
  obtain ⟨inAnyOrder, _, sideBySide, _⟩ :=
    vyperOnly.compileAll_eq_runInTurn (by decide +kernel) (by decide +kernel) ends housed_emptyStore
      (by decide) (rfl : Job.runInTurn (twoUnits.map vyperOnly.jobFor) emptyStore = (_, _))
  have interleaved :
      let pool := ((ofWork 2 (twoUnits.map vyperOnly.workFor)).follow emptyStore [0, 1, 0, 1, 0, 1]).1
      (∀ strand ∈ pool.strands, strand.phase.isAnswered = true) ∧
        CompileSummary.ofResults (Job.results (twoUnits.map vyperOnly.jobFor) pool) = ⟨["A", "B"], [], [], []⟩ := by
    decide +kernel
  have summary := interleaved.2
  rw [(inAnyOrder 2 _ interleaved.1).1] at summary
  obtain ⟨after, _, told⟩ := sideBySide .start
  refine ⟨summary, ?_⟩
  rw [told, summary]

end Pipeline
end ContractBuild
