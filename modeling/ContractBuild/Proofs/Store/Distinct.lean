import ContractBuild.Proofs.Store.SharedCompile
import ContractBuild.Proofs.Store.Upkeep

/-!
Requests of which no two share a name or a fingerprint. Each one that is answered with an artifact
has it in the store for good, and where all artifacts are fresh to begin with no adapter is called.
-/
namespace ContractBuild.Pool

structure Distinct (work : List (Except BuildError Request)) : Prop where
  names : ∀ {first second : Nat} {one other : Request}, work[first]? = some (.ok one) →
    work[second]? = some (.ok other) → one.name = other.name → first = second
  fingerprints : ∀ {one other : Request}, .ok one ∈ work → .ok other ∈ work →
    one.fingerprint = other.fingerprint → one.name = other.name

variable {limit : Nat} {work : List (Except BuildError Request)} {state : BuildState}

def Shares (work : List (Except BuildError Request)) (fingerprint : Fingerprint) (name : String) : Prop :=
  ∃ other, .ok other ∈ work ∧ other.fingerprint = fingerprint ∧ name = other.name

theorem shares_self : ∀ request, .ok request ∈ work → Shares work request.fingerprint request.name :=
  fun request member => ⟨request, member, rfl, rfl⟩

/-- At every moment an answered request has its artifact in the store. -/
theorem Distinct.holds (distinct : Distinct work)
    (idle : ∀ slot ∈ state.store.slots, slot.listed = false) (order : List Nat) {position : Nat}
    {request : Request} {artifact : Artifact} (asks : work[position]? = some (.ok request))
    (answered : ((ofWork limit work).follow state order).1.phase? position =
      some (.answered (.ok artifact))) :
    ((ofWork limit work).follow state order).2.store.Holds request.name request.fingerprint := by
  have start : Sound (Shares work) _ work (ofWork limit work, state) := .start state idle limit work
  have known : ∀ order artifact, ((ofWork limit work).follow state order).1.phase? position =
      some (.answered (.ok artifact)) →
      artifact.fingerprint = request.fingerprint ∧ artifact.name = request.name := by
    intro order artifact answered
    obtain ⟨fingerprint, other, member, same, name⟩ := answer_known start shares_self order asks answered
    exact ⟨fingerprint, name.trans
      (distinct.fingerprints member (List.mem_of_getElem? asks) same)⟩
  induction order using List.reverseRecOn generalizing artifact with
  | nil =>
    rw [follow_nil, phase?, ofWork, List.getElem?_map, asks] at answered
    cases answered
  | append_singleton order last ih =>
    have after := follow_snoc (ofWork limit work) state order last
    rcases advance_cases ((ofWork limit work).follow state order).1
        ((ofWork limit work).follow state order).2 last with
      ⟨_, same⟩ | ⟨strand, next, found, sameWork, strands, piece⟩
    · rw [same] at after
      rw [after] at answered ⊢
      exact ih answered
    by_cases own : last = position
    · subst own
      cases early : strand.phase.isAnswered with
      | false =>
        have unanswered : ((ofWork limit work).follow state order).1.phase? last =
            some strand.phase ∧ strand.phase.isAnswered = false := by
          rw [phase?, found]
          exact ⟨rfl, early⟩
        obtain ⟨fingerprint, name⟩ := known _ _ answered
        rw [← fingerprint, ← name]
        rcases answer_holds start shares_self (not_waiting_ofWork limit work) order unanswered answered with
          holds | ⟨earlier, position, later, other, slot, _, apart, isOther, sameName, _⟩
        · exact holds
        · -- nobody else could have displaced it, because nobody else has its name
          rw [← List.getElem?_map, start.work_eq] at isOther
          exact absurd (distinct.names isOther asks (sameName.trans name)) apart
      | true =>
        cases phase : strand.phase with
        | pending => rw [phase] at early; cases early
        | waiting slot => rw [phase] at early; cases early
        | compiling slot call => rw [phase] at early; cases early
        | answered outcome =>
          rw [after] at answered ⊢
          rw [phase?_advance_self found strands, Option.some.injEq] at answered
          rcases piece with ⟨cause, _, failed, _⟩ | ⟨other, _, advancing⟩
          · rw [failed] at answered
            cases answered
          · rw [phase] at advancing
            obtain ⟨same, still⟩ := advancing.rests_of_answered
            rw [still] at answered
            rw [same]
            apply ih
            rw [phase?, found, Option.map_some, phase, answered]
    · rw [after] at answered ⊢
      rw [phase?_advance_of_ne _ _ own] at answered
      have held := ih answered
      rcases piece with ⟨_, _, _, same⟩ | ⟨other, isOther, advancing⟩
      · rw [same]
        exact held
      · have asksToo : work[last]? = some (.ok other) := by
          have same := work_getElem?_follow start shares_self order last
          rw [found, ← List.getElem?_map, start.work_eq, Option.map_some, isOther] at same
          exact same.symm
        have apart : request.name ≠ other.name :=
          fun same => own (distinct.names asksToo asks same.symm)
        exact (Store.holds_of_lookup_eq (advancing.lookup_of_ne apart)).2 held

def AllFresh (work : List (Except BuildError Request)) (store : Store) : Prop :=
  ∀ asked ∈ work, ∃ request, asked = .ok request ∧ store.Holds request.name request.fingerprint

/-- Where there is no request, the strand waits for its turn or has told the reason. -/
theorem phase_of_error (order : List Nat) {strand : Strand}
    (member : strand ∈ ((ofWork limit work).follow state order).1.strands) {cause : BuildError}
    (lacks : strand.work = .error cause) : strand.phase = .pending ∨ strand.phase = .answered (.error cause) := by
  induction order using List.reverseRecOn generalizing strand with
  | nil =>
    obtain ⟨asked, _, rfl⟩ := List.mem_map.1 member
    exact .inl rfl
  | append_singleton order position ih =>
    rw [follow_snoc] at member
    rcases advance_cases ((ofWork limit work).follow state order).1
        ((ofWork limit work).follow state order).2 position with
      ⟨_, same⟩ | ⟨earlier, next, found, sameWork, strands, piece⟩
    · rw [same] at member
      exact ih member lacks
    · rw [strands] at member
      rcases List.mem_or_eq_of_mem_set member with old | rfl
      · exact ih old lacks
      · rw [sameWork] at lacks
        rcases piece with ⟨other, lacksToo, answered, _⟩ | ⟨request, asks, _⟩
        · rw [lacks] at lacksToo
          cases lacksToo
          exact .inr answered
        · rw [lacks] at asks
          cases asks

/-- Where every request was answered with an artifact, all of them have it in the store. -/
theorem Distinct.allFresh (distinct : Distinct work) (idle : ∀ slot ∈ state.store.slots, slot.listed = false)
    (limit : Nat) (answered : ∀ strand ∈ ((ofWork limit work).run state).1.strands,
      ∃ artifact, strand.phase = .answered (.ok artifact)) :
    AllFresh work ((ofWork limit work).run state).2.store := by
  obtain ⟨order, ran⟩ := run_eq_follow (ofWork limit work) state
  rw [ran] at answered ⊢
  have sound : Sound (Shares work) _ work ((ofWork limit work).follow state order) :=
    (Sound.start state idle limit work).follow shares_self order
  intro asked member
  rw [← sound.work_eq] at member
  obtain ⟨strand, isStrand, rfl⟩ := List.mem_map.1 member
  obtain ⟨artifact, phase⟩ := answered strand isStrand
  cases asks : strand.work with
  | error cause =>
    rcases phase_of_error order isStrand asks with pending | failed
    · rw [pending] at phase
      cases phase
    · rw [failed] at phase
      cases phase
  | ok request =>
    obtain ⟨position, found⟩ := List.mem_iff_getElem?.1 isStrand
    have asked : work[position]? = some (.ok request) := by
      rw [← sound.work_eq, List.getElem?_map, found, Option.map_some, asks]
    have told : ((ofWork limit work).follow state order).1.phase? position = some (.answered (.ok artifact)) := by
      rw [phase?, found, Option.map_some, phase]
    exact ⟨request, rfl, distinct.holds idle order asked told⟩

/-! Runs without a call of an adapter -/

/-- A run ends where no request can go on. -/
theorem run_rests (pool : Pool) (state : BuildState) :
    ∃ position, (pool.run state).1.next? (pool.run state).2 position = none := by
  unfold run
  generalize (0 : Nat) = position
  fun_induction runFrom position pool state with
  | case1 position pool state next => exact ⟨position, next⟩
  | case2 position pool state found next ih => exact ih

private theorem getElem?_length_takeWhile {α : Type} {p : α → Bool} {list : List α} {x : α}
    (member : x ∈ list) (fails : p x = false) :
    ∃ y, list[(list.takeWhile p).length]? = some y ∧ y ∈ list ∧ p y = false := by
  induction list with
  | nil => cases member
  | cons first list ih =>
    cases holds : p first with
    | false => exact ⟨first, by simp [holds], List.mem_cons_self, holds⟩
    | true =>
      have inside : x ∈ list := by
        rcases List.mem_cons.1 member with rfl | inside
        · rw [holds] at fails
          cases fails
        · exact inside
      obtain ⟨y, found, there, fails⟩ := ih inside
      exact ⟨y, by simp [holds, found], List.mem_cons_of_mem _ there, fails⟩

/-- Where no request can go on although each would be ready, all are answered. -/
theorem answered_of_rests {pool : Pool} {state : BuildState} {position : Nat} (works : 0 < pool.limit)
    (rests : pool.next? state position = none)
    (ready : ∀ strand ∈ pool.strands, strand.phase.isAnswered = false → strand.isReady state = true)
    {strand : Strand} (member : strand ∈ pool.strands) : strand.phase.isAnswered = true := by
  cases unanswered : strand.phase.isAnswered with
  | true => rfl
  | false =>
    obtain ⟨first, found, there, fails⟩ := getElem?_length_takeWhile
      (p := fun strand : Strand => strand.phase.isAnswered) member unanswered
    have enabled : pool.isEnabled state (pool.strands.takeWhile (·.phase.isAnswered)).length = true := by
      have near : (pool.strands.takeWhile (·.phase.isAnswered)).length < pool.frontier := by
        rw [frontier]
        omega
      rw [isEnabled, found, Option.any_some, ready first there fails, decide_eq_true near]
      rfl
    have inside : (pool.strands.takeWhile (·.phase.isAnswered)).length ∈
        List.range pool.strands.length := List.mem_range.2 (List.getElem?_eq_some_iff.1 found).1
    have listed : (pool.strands.takeWhile (·.phase.isAnswered)).length ∈
        (List.range pool.strands.length).drop position ++
          (List.range pool.strands.length).take position := by
      rw [← List.take_append_drop position (List.range pool.strands.length)] at inside
      rw [List.mem_append] at inside ⊢
      exact inside.symm
    exact absurd enabled (List.find?_eq_none.1 rests _ listed)

def Hits (strand : Strand) : Prop :=
  strand.cacheHit = true ∧ ∃ artifact, strand.phase = .answered (.ok artifact)

structure Hitting (limit : Nat) (work : List (Except BuildError Request)) (start : BuildState)
    (now : Pool × BuildState) : Prop where
  limit : now.1.limit = limit
  works : now.1.strands.map Strand.work = work
  phases : ∀ strand ∈ now.1.strands, strand.phase = .pending ∨ Hits strand
  workspace : now.2.workspace = start.workspace
  live : now.2.store.live = start.store.live
  directory : now.2.store.directory = start.store.directory
  compiles : now.2.store.counters.compiles = start.store.counters.compiles

/-- A request with a fresh artifact is answered at once, and then rests. -/
theorem advance_of_fresh {strand : Strand} {request : Request} (asks : strand.work = .ok request)
    {now : BuildState} (fresh : now.store.Holds request.name request.fingerprint)
    (phase : strand.phase = .pending ∨ Hits strand) :
    (strand.advance now).1.work = strand.work ∧ Hits (strand.advance now).1 ∧
    ((strand.advance now).2 = now ∨ (strand.advance now).2 = now.onStore Store.countHit) := by
  obtain ⟨work, cacheHit, begun⟩ := strand
  subst asks
  rcases phase with pending | ⟨hit, artifact, answered⟩
  · obtain rfl : begun = .pending := pending
    have isFresh : now.store.isFresh request.name request.fingerprint = true :=
      Store.holds_iff_isFresh.1 fresh
    obtain ⟨artifact, found⟩ := fresh
    have hit : request.begin now = (.answered (.ok artifact), now.onStore Store.countHit) := by
      unfold Request.begin
      rw [Store.fresh?_eq_some.2 found]
    unfold Strand.advance
    dsimp only
    rw [hit]
    exact ⟨rfl, ⟨isFresh, artifact, rfl⟩, .inr rfl⟩
  · obtain rfl : begun = .answered (.ok artifact) := answered
    exact ⟨rfl, ⟨hit, artifact, rfl⟩, .inl rfl⟩

theorem Hitting.advance {now : Pool × BuildState} (fresh : AllFresh work state.store)
    (hitting : Hitting limit work state now) (position : Nat) :
    Hitting limit work state (now.1.advance now.2 position) := by
  unfold Pool.advance
  cases found : now.1.strands[position]? with
  | none => exact hitting
  | some strand =>
    have member := List.mem_of_getElem? found
    obtain ⟨request, asks, holds⟩ := fresh strand.work (by
      rw [← hitting.works]
      exact List.mem_map_of_mem member)
    have held : now.2.store.Holds request.name request.fingerprint :=
      Store.holds_of_live_eq hitting.live holds
    obtain ⟨sameWork, answered, after⟩ := advance_of_fresh asks held (hitting.phases strand member)
    have kept : (strand.advance now.2).2.workspace = now.2.workspace ∧
        (strand.advance now.2).2.store.live = now.2.store.live ∧
        (strand.advance now.2).2.store.directory = now.2.store.directory ∧
        (strand.advance now.2).2.store.counters.compiles = now.2.store.counters.compiles := by
      rcases after with same | counted
      · rw [same]
        exact ⟨rfl, rfl, rfl, rfl⟩
      · rw [counted]
        exact ⟨rfl, rfl, rfl, rfl⟩
    refine ⟨hitting.limit, ?_, ?_, kept.1.trans hitting.workspace, kept.2.1.trans hitting.live,
      kept.2.2.1.trans hitting.directory, kept.2.2.2.trans hitting.compiles⟩
    · show (now.1.strands.set position (strand.advance now.2).1).map Strand.work = work
      rw [List.map_set, sameWork, ← hitting.works]
      have there : (now.1.strands.map Strand.work)[position]? = some strand.work := by simp [found]
      obtain ⟨inside, same⟩ := List.getElem?_eq_some_iff.1 there
      rw [← same, List.set_getElem_self]
    · intro other there
      rcases List.mem_or_eq_of_mem_set there with old | rfl
      · exact hitting.phases other old
      · exact .inr answered

theorem Hitting.follow {pool : Pool} {now : BuildState} (fresh : AllFresh work state.store)
    (hitting : Hitting limit work state (pool, now)) (order : List Nat) :
    Hitting limit work state (pool.follow now order) := by
  induction order generalizing pool now with
  | nil => exact hitting
  | cons position order ih => exact ih (hitting.advance fresh position)

/-- If all artifacts are fresh, every request is answered and nothing but counters changes. -/
theorem run_of_fresh (fresh : AllFresh work state.store) (limit : Nat) (works : 0 < limit) :
    Hitting limit work state ((ofWork limit work).run state) ∧
      ∀ strand ∈ ((ofWork limit work).run state).1.strands, Hits strand := by
  obtain ⟨order, ran⟩ := run_eq_follow (ofWork limit work) state
  obtain ⟨position, rests⟩ := run_rests (ofWork limit work) state
  have start : Hitting limit work state (ofWork limit work, state) := by
    refine ⟨rfl, ?_, ?_, rfl, rfl, rfl, rfl⟩
    · simp only [ofWork, List.map_map]
      exact List.map_id'' (fun _ => rfl) work
    · intro strand member
      obtain ⟨asked, _, rfl⟩ := List.mem_map.1 member
      exact .inl rfl
  have hitting := start.follow fresh order
  rw [← ran] at hitting
  refine ⟨hitting, fun strand member => ?_⟩
  have ready : ∀ strand ∈ ((ofWork limit work).run state).1.strands,
      strand.phase.isAnswered = false → strand.isReady ((ofWork limit work).run state).2 = true := by
    intro strand member unanswered
    rcases hitting.phases strand member with pending | ⟨_, artifact, answered⟩
    · rw [Strand.isReady, pending]
      rfl
    · rw [answered] at unanswered
      cases unanswered
  have working : 0 < ((ofWork limit work).run state).1.limit := by
    rw [hitting.limit]
    exact works
  have isAnswered := answered_of_rests working rests ready member
  rcases hitting.phases strand member with pending | answered
  · rw [pending] at isAnswered
    cases isAnswered
  · exact answered

end ContractBuild.Pool
