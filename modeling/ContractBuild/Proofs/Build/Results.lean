import ContractBuild.Proofs.Build.Compilation
import ContractBuild.Proofs.Store.Outcomes

/-!
What compiling all sources gives for each of them, whatever their adapters do: a result in the order of
the sources, an error of the source where there is no artifact, and a live artifact of the source as it is
where there is one.
-/
namespace ContractBuild.Pipeline
open Pool

variable {pipeline : Pipeline} {units : List SourceUnit} {limit : Nat} {state after : BuildState}
  {results : List JobResult}

/-- The strand behind a result. -/
theorem strand_of_result (ran : Job.runAll limit (units.map pipeline.jobFor) state = (results, after)) :
    ∃ order, (ofWork limit (units.map pipeline.workFor)).run state =
        (ofWork limit (units.map pipeline.workFor)).follow state order ∧
      after = ((ofWork limit (units.map pipeline.workFor)).follow state order).2 ∧
      results = Job.results (units.map pipeline.jobFor)
        ((ofWork limit (units.map pipeline.workFor)).follow state order).1 := by
  obtain ⟨order, followed⟩ := run_eq_follow (ofWork limit (units.map pipeline.workFor)) state
  unfold Job.runAll at ran
  rw [work_jobs, followed] at ran
  cases ran
  exact ⟨order, followed, rfl, rfl⟩

/-- Each result is that of a source and of the strand in its place. -/
theorem results_getElem? {order : List Nat} {position : Nat} :
    (Job.results (units.map pipeline.jobFor)
        ((ofWork limit (units.map pipeline.workFor)).follow state order).1)[position]? =
      units[position]?.bind fun unit =>
        ((ofWork limit (units.map pipeline.workFor)).follow state order).1.strands[position]?.map
          (pipeline.jobFor unit).result := by
  rw [Job.results, List.getElem?_map, List.zip, List.getElem?_zipWith, List.getElem?_map]
  cases units[position]? with
  | none => rfl
  | some unit =>
    cases ((ofWork limit (units.map pipeline.workFor)).follow state order).1.strands[position]? <;> rfl

/-- The strand of a source is there, and was made for it. -/
theorem strand_of_unit (limit : Nat) (state : BuildState) (order : List Nat) {position : Nat} {unit : SourceUnit}
    (found : units[position]? = some unit) :
    ∃ strand, ((ofWork limit (units.map pipeline.workFor)).follow state order).1.strands[position]? =
      some strand ∧ strand.work = pipeline.workFor unit := by
  have works := works_follow limit (units.map pipeline.workFor) state order
  have there : (((ofWork limit (units.map pipeline.workFor)).follow state order).1.strands.map
      Strand.work)[position]? = some (pipeline.workFor unit) := by
    rw [works, List.getElem?_map, found]
    rfl
  rw [List.getElem?_map] at there
  obtain ⟨strand, isStrand, work⟩ := Option.map_eq_some_iff.1 there
  exact ⟨strand, isStrand, work⟩

/-- Whatever the order, there is a result for each source, in the order of the sources. -/
theorem names_results (limit : Nat) (state : BuildState) (order : List Nat) :
    (Job.results (units.map pipeline.jobFor)
        ((ofWork limit (units.map pipeline.workFor)).follow state order).1).map (·.name) =
      units.map SourceUnit.artifactName := by
  apply List.ext_getElem?
  intro position
  rw [List.getElem?_map, results_getElem?, List.getElem?_map]
  cases found : units[position]? with
  | none => rfl
  | some unit =>
    obtain ⟨strand, isStrand, _⟩ := strand_of_unit limit state order found
    rw [Option.bind_some, isStrand]
    rfl

theorem tallies_of_runAll (ran : Job.runAll limit (units.map pipeline.jobFor) state = (results, after)) :
    Tallies units results (.ofResults results) := by
  obtain ⟨order, _, _, rfl⟩ := strand_of_result ran
  refine tallies_ofResults (names_results limit state order) fun result member cause failed => ?_
  obtain ⟨position, found⟩ := List.mem_iff_getElem?.1 member
  rw [results_getElem?] at found
  obtain ⟨unit, isUnit, found⟩ := Option.bind_eq_some_iff.1 found
  obtain ⟨strand, isStrand, rfl⟩ := Option.map_eq_some_iff.1 found
  obtain ⟨other, isOther, work⟩ := strand_of_unit limit state order isUnit
  rw [isStrand, Option.some.injEq] at isOther
  subst isOther
  unfold Job.result at failed
  dsimp only at failed
  cases phase : strand.phase with
  | answered outcome =>
    rw [phase] at failed
    obtain rfl : outcome = .error cause := failed
    rcases retold_follow order (List.mem_of_getElem? isStrand) phase with lacks | ⟨request, _, failure, rfl⟩
    · rw [work] at lacks
      exact .inl (workFor_eq_error lacks)
    · exact ofSource_duplicate failure _
  | pending | waiting | compiling =>
    rw [phase] at failed
    cases failed
    exact .inr rfl

/-- A result says whether the interface of its source is wanted. -/
theorem selected_of_runAll (ran : Job.runAll limit (units.map pipeline.jobFor) state = (results, after)) :
    ∀ result ∈ results, result.selected = decide (result.name ∈ pipeline.project.settings.interfaces.only) := by
  obtain ⟨order, _, _, rfl⟩ := strand_of_result ran
  intro result member
  obtain ⟨position, found⟩ := List.mem_iff_getElem?.1 member
  rw [results_getElem?] at found
  obtain ⟨unit, _, found⟩ := Option.bind_eq_some_iff.1 found
  obtain ⟨strand, _, rfl⟩ := Option.map_eq_some_iff.1 found
  rfl

/-- Sources with names and fingerprints of their own: where one was compiled, the artifact of its name is
live and has its fingerprint. -/
theorem holds_of_isOk (distinct : Distinct (units.map pipeline.workFor))
    (idle : ∀ slot ∈ state.store.slots, slot.listed = false)
    (ran : Job.runAll limit (units.map pipeline.jobFor) state = (results, after)) {position : Nat}
    {unit : SourceUnit} {result : JobResult} (isUnit : units[position]? = some unit)
    (isResult : results[position]? = some result) (compiled : result.isOk = true) :
    ∃ request, pipeline.workFor unit = .ok request ∧
      after.store.Holds unit.artifactName request.fingerprint := by
  obtain ⟨order, _, rfl, rfl⟩ := strand_of_result ran
  obtain ⟨strand, isStrand, work⟩ := strand_of_unit limit state order isUnit
  rw [results_getElem?, isUnit, Option.bind_some, isStrand, Option.map_some, Option.some.injEq] at isResult
  subst isResult
  unfold JobResult.isOk Job.result at compiled
  dsimp only at compiled
  cases phase : strand.phase with
  | answered outcome =>
    rw [phase] at compiled
    cases outcome with
    | error cause => cases compiled
    | ok artifact =>
      cases asks : pipeline.workFor unit with
      | error cause =>
        rw [asks] at work
        rcases phase_of_error order (List.mem_of_getElem? isStrand) work with pending | failed
        · rw [pending] at phase
          cases phase
        · rw [failed] at phase
          cases phase
      | ok request =>
        have asked : (units.map pipeline.workFor)[position]? = some (.ok request) := by
          rw [List.getElem?_map, isUnit, Option.map_some, asks]
        have told : ((ofWork limit (units.map pipeline.workFor)).follow state order).1.phase? position =
            some (.answered (.ok artifact)) := by
          rw [phase?, isStrand, Option.map_some, phase]
        refine ⟨request, rfl, ?_⟩
        rw [← workFor_eq_ok asks]
        exact distinct.holds idle order asked told
  | pending | waiting | compiling =>
    rw [phase] at compiled
    cases compiled

end ContractBuild.Pipeline
