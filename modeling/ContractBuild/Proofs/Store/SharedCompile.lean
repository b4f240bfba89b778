import Mathlib.Data.List.Induction
import ContractBuild.Proofs.Store.Answers

/-!
Requests of a pool that share compilations, for every order of their pieces. An artifact that a
request is answered with has the request's fingerprint. It has the request's name as well unless
another request asks for the same fingerprint under another name, and it is the live entry of its
name unless a third request took that away while this one was waiting.
-/
namespace ContractBuild.Pool

variable {named : Fingerprint → String → Prop} {base : Nat}
  {work : List (Except BuildError Request)}

def follow (pool : Pool) (state : BuildState) (order : List Nat) : Pool × BuildState :=
  order.foldl (fun now position => now.1.advance now.2 position) (pool, state)

def phase? (pool : Pool) (position : Nat) : Option Phase :=
  pool.strands[position]?.map (·.phase)

@[simp] theorem follow_nil (pool : Pool) (state : BuildState) : pool.follow state [] = (pool, state) :=
  rfl

theorem follow_snoc (pool : Pool) (state : BuildState) (order : List Nat) (position : Nat) :
    pool.follow state (order ++ [position]) =
      (pool.follow state order).1.advance (pool.follow state order).2 position := by
  simp [follow]

/-- Running by turns is one of the orders. -/
theorem run_eq_follow (pool : Pool) (state : BuildState) :
    ∃ order, pool.run state = pool.follow state order := by
  unfold run
  generalize (0 : Nat) = position
  fun_induction runFrom position pool state with
  | case1 position pool state next => exact ⟨[], rfl⟩
  | case2 position pool state found next ih =>
    obtain ⟨order, same⟩ := ih
    exact ⟨found :: order, same⟩

/-- A piece of a strand: nothing, the report that there is no request, or a piece of the request. -/
theorem advance_cases (pool : Pool) (state : BuildState) (position : Nat) :
    (pool.strands[position]? = none ∧ pool.advance state position = (pool, state)) ∨
    ∃ strand next, pool.strands[position]? = some strand ∧ next.work = strand.work ∧
      (pool.advance state position).1.strands = pool.strands.set position next ∧
      ((∃ cause, strand.work = .error cause ∧ next.phase = .answered (.error cause) ∧
        (pool.advance state position).2 = state) ∨
      ∃ request, strand.work = .ok request ∧ request.Advances state.store strand.phase next.phase
        (pool.advance state position).2.store) := by
  unfold advance
  cases found : pool.strands[position]? with
  | none => exact .inl ⟨rfl, rfl⟩
  | some strand =>
    refine .inr ⟨strand, (strand.advance state).1, rfl, ?_⟩
    cases asks : strand.work with
    | error cause =>
      have step := Strand.advance_of_error asks state
      exact ⟨by rw [step]; exact asks, rfl, .inl ⟨cause, rfl, by rw [step], congrArg Prod.snd step⟩⟩
    | ok request =>
      obtain ⟨work, phase, after⟩ := Strand.advance_of_ok asks state
      refine ⟨work, rfl, .inr ⟨request, rfl, ?_⟩⟩
      show request.Advances state.store strand.phase (strand.advance state).1.phase
        (strand.advance state).2.store
      rw [phase, after]
      exact request.advance_advances strand.phase state

structure Sound (named : Fingerprint → String → Prop) (base : Nat)
    (work : List (Except BuildError Request)) (now : Pool × BuildState) : Prop where
  tells : Store.Tells named base now.2.store
  work_eq : now.1.strands.map Strand.work = work
  knows : ∀ strand ∈ now.1.strands, ∀ request, strand.work = .ok request →
    strand.phase.Knows named base now.2.store request.fingerprint

theorem Sound.start (state : BuildState) (idle : ∀ slot ∈ state.store.slots, slot.listed = false)
    (limit : Nat) (work : List (Except BuildError Request)) :
    Sound named state.store.slots.length work (ofWork limit work, state) := by
  refine ⟨⟨Nat.le_refl _, ?_, ?_⟩, ?_, ?_⟩
  · intro position slot found isListed
    rw [idle slot (List.mem_of_getElem? found)] at isListed
    cases isListed
  · intro position slot artifact found inside
    exact absurd (List.getElem?_eq_some_iff.1 found).1 (Nat.not_lt_of_le inside)
  · simp only [ofWork, List.map_map]
    exact List.map_id'' (fun _ => rfl) work
  · intro strand member request asks
    obtain ⟨asked, _, rfl⟩ := List.mem_map.1 member
    trivial

theorem Sound.advance {now : Pool × BuildState} (sound : Sound named base work now)
    (suits : ∀ request, .ok request ∈ work → named request.fingerprint request.name)
    (position : Nat) : Sound named base work (now.1.advance now.2 position) := by
  rcases advance_cases now.1 now.2 position with ⟨_, same⟩ |
    ⟨strand, next, found, sameWork, strands, piece⟩
  · rw [same]
    exact sound
  have works : (now.1.advance now.2 position).1.strands.map Strand.work = work := by
    have there : (now.1.strands.map Strand.work)[position]? = some strand.work := by simp [found]
    rw [strands, List.map_set, sameWork, ← sound.work_eq]
    obtain ⟨inside, same⟩ := List.getElem?_eq_some_iff.1 there
    rw [← same, List.set_getElem_self]
  rcases piece with ⟨cause, lacks, answered, same⟩ | ⟨request, asks, advancing⟩
  · refine ⟨by rw [same]; exact sound.tells, works, ?_⟩
    intro other member request asks
    rw [strands] at member
    rw [same]
    rcases List.mem_or_eq_of_mem_set member with old | rfl
    · exact sound.knows other old request asks
    · rw [sameWork, lacks] at asks
      cases asks
  · have isAsked : .ok request ∈ work := by
      rw [← sound.work_eq, ← asks]
      exact List.mem_map_of_mem (List.mem_of_getElem? found)
    have kept := advancing.keeps (suits request isAsked) sound.tells
      (sound.knows strand (List.mem_of_getElem? found) request asks)
    refine ⟨kept.tells, works, ?_⟩
    intro other member asked asksOther
    rw [strands] at member
    rcases List.mem_or_eq_of_mem_set member with old | rfl
    · exact (sound.knows other old asked asksOther).mono kept.extends'
    · rw [sameWork, asks] at asksOther
      cases asksOther
      exact kept.knows

theorem Sound.follow {pool : Pool} {state : BuildState} (sound : Sound named base work (pool, state))
    (suits : ∀ request, .ok request ∈ work → named request.fingerprint request.name)
    (order : List Nat) : Sound named base work (pool.follow state order) := by
  induction order generalizing pool state with
  | nil => exact sound
  | cons position order ih => exact ih (sound.advance suits position)

/-- While the request at a position was waiting for a slot, another request, of the name, took the
live entry of the name away. -/
def Displaced (pool : Pool) (state : BuildState) (order : List Nat) (waiter : Nat) (name : String)
    (fingerprint : Fingerprint) : Prop :=
  ∃ earlier position later request slot, order = earlier ++ position :: later ∧ position ≠ waiter ∧
    pool.strands[position]?.map Strand.work = some (.ok request) ∧ request.name = name ∧
    (pool.follow state earlier).1.phase? waiter = some (.waiting slot) ∧
    (pool.follow state earlier).2.store.Holds name fingerprint ∧
    ¬ (pool.follow state (earlier ++ [position])).2.store.Holds name fingerprint

theorem Displaced.snoc {pool : Pool} {state : BuildState} {order : List Nat} {waiter : Nat}
    {name : String} {fingerprint : Fingerprint}
    (displaced : pool.Displaced state order waiter name fingerprint) (last : Nat) :
    pool.Displaced state (order ++ [last]) waiter name fingerprint := by
  obtain ⟨earlier, position, later, request, slot, split, rest⟩ := displaced
  exact ⟨earlier, position, later ++ [last], request, slot, by simp [split], rest⟩

theorem phase?_advance_of_ne (pool : Pool) (state : BuildState) {position other : Nat}
    (differs : position ≠ other) : (pool.advance state position).1.phase? other = pool.phase? other := by
  rcases advance_cases pool state position with ⟨_, same⟩ | ⟨strand, next, _, _, strands, _⟩
  · rw [same]
  · rw [phase?, phase?, strands, List.getElem?_set_ne differs]

theorem phase?_advance_self {pool : Pool} {state : BuildState} {position : Nat} {strand next : Strand}
    (found : pool.strands[position]? = some strand)
    (strands : (pool.advance state position).1.strands = pool.strands.set position next) :
    (pool.advance state position).1.phase? position = some next.phase := by
  rw [phase?, strands, List.getElem?_set_self (List.getElem?_eq_some_iff.1 found).1]
  rfl

theorem work_getElem?_follow {pool : Pool} {state : BuildState}
    (sound : Sound named base work (pool, state))
    (suits : ∀ request, .ok request ∈ work → named request.fingerprint request.name)
    (order : List Nat) (position : Nat) :
    (pool.follow state order).1.strands[position]?.map Strand.work =
      pool.strands[position]?.map Strand.work := by
  have first := sound.work_eq
  have last := (sound.follow suits order).work_eq
  rw [← List.getElem?_map, ← List.getElem?_map, first, last]

/-- An outcome in the slot of a waiting request is live until another request displaces it. -/
theorem holds_or_displaced {pool : Pool} {state : BuildState}
    (sound : Sound named base work (pool, state))
    (suits : ∀ request, .ok request ∈ work → named request.fingerprint request.name)
    (fresh : ∀ strand ∈ pool.strands, ∀ slot, strand.phase ≠ .waiting slot)
    (order : List Nat) {waiter slot : Nat} {artifact : Artifact}
    (waits : (pool.follow state order).1.phase? waiter = some (.waiting slot))
    (filled : (pool.follow state order).2.store.cell slot = .filled (.ok artifact)) :
    (pool.follow state order).2.store.Holds artifact.name artifact.fingerprint ∨
      pool.Displaced state order waiter artifact.name artifact.fingerprint := by
  induction order using List.reverseRecOn with
  | nil =>
    obtain ⟨strand, found, phase⟩ := Option.map_eq_some_iff.1 waits
    exact absurd phase (fresh strand (List.mem_of_getElem? found) slot)
  | append_singleton order position ih =>
    have after := follow_snoc pool state order position
    rcases advance_cases (pool.follow state order).1 (pool.follow state order).2 position with
      ⟨_, same⟩ | ⟨strand, next, found, sameWork, strands, piece⟩
    · rw [same] at after
      rw [after] at waits filled ⊢
      exact (ih waits filled).imp id (·.snoc position)
    rw [after] at waits filled
    by_cases own : position = waiter
    · -- a request that still waits after a piece of its own found its slot busy
      subst own
      rw [phase?_advance_self found strands, Option.some.injEq] at waits
      rcases piece with ⟨cause, _, answered, _⟩ | ⟨request, _, advancing⟩
      · rw [answered] at waits
        cases waits
      · rw [waits] at advancing
        rw [advancing.cell_of_waiting] at filled
        cases filled
    rw [phase?_advance_of_ne _ _ own] at waits
    rcases piece with ⟨cause, _, _, same⟩ | ⟨request, asks, advancing⟩
    · rw [same] at filled
      rw [after, same]
      exact (ih waits filled).imp id (·.snoc position)
    rcases advancing.holds_of_filled filled with old | new
    · rcases ih waits old with held | displaced
      · rw [after]
        by_cases still : ((pool.follow state order).1.advance (pool.follow state order).2
            position).2.store.Holds artifact.name artifact.fingerprint
        · exact .inl still
        · refine .inr ⟨order, position, [], request, slot, rfl, own, ?_, ?_, waits, held, ?_⟩
          · rw [← work_getElem?_follow sound suits order, found, Option.map_some, asks]
          · by_cases same : request.name = artifact.name
            · exact same
            · have kept := advancing.lookup_of_ne (Ne.symm same)
              exact absurd ((Store.holds_of_lookup_eq kept).2 held) still
          · rwa [after]
      · exact .inr (displaced.snoc position)
    · rw [after]
      exact .inl new

/-- The request behind an answer, as it was asked for. -/
theorem work_of_phase {pool : Pool} {state : BuildState} (sound : Sound named base work (pool, state))
    (suits : ∀ request, .ok request ∈ work → named request.fingerprint request.name)
    (order : List Nat) {position : Nat} {asked : Except BuildError Request} {phase : Phase}
    (asks : work[position]? = some asked)
    (there : (pool.follow state order).1.phase? position = some phase) :
    ∃ strand ∈ (pool.follow state order).1.strands, strand.work = asked ∧ strand.phase = phase := by
  obtain ⟨strand, found, isPhase⟩ := Option.map_eq_some_iff.1 there
  have same := work_getElem?_follow sound suits order position
  rw [found, ← List.getElem?_map, sound.work_eq, asks] at same
  exact ⟨strand, List.mem_of_getElem? found, Option.some.inj same, isPhase⟩

/-- An artifact that answers a request has its fingerprint and a name that goes with it. -/
theorem answer_known {pool : Pool} {state : BuildState} (sound : Sound named base work (pool, state))
    (suits : ∀ request, .ok request ∈ work → named request.fingerprint request.name)
    (order : List Nat) {position : Nat} {request : Request} {artifact : Artifact}
    (asks : work[position]? = some (.ok request))
    (answered : (pool.follow state order).1.phase? position = some (.answered (.ok artifact))) :
    artifact.fingerprint = request.fingerprint ∧ named request.fingerprint artifact.name := by
  obtain ⟨strand, member, isAsked, isAnswered⟩ := work_of_phase sound suits order asks answered
  have known := (sound.follow suits order).knows strand member request isAsked
  rw [isAnswered] at known
  exact known artifact rfl

/-- At the moment at which it answers, an artifact is the live one of its name, or was displaced
while the request waited for it. -/
theorem answer_holds {pool : Pool} {state : BuildState} (sound : Sound named base work (pool, state))
    (suits : ∀ request, .ok request ∈ work → named request.fingerprint request.name)
    (fresh : ∀ strand ∈ pool.strands, ∀ slot, strand.phase ≠ .waiting slot) (order : List Nat)
    {position : Nat} {phase : Phase} {artifact : Artifact}
    (unanswered : (pool.follow state order).1.phase? position = some phase ∧ phase.isAnswered = false)
    (answered : (pool.follow state (order ++ [position])).1.phase? position =
      some (.answered (.ok artifact))) :
    (pool.follow state (order ++ [position])).2.store.Holds artifact.name artifact.fingerprint ∨
      pool.Displaced state order position artifact.name artifact.fingerprint := by
  rw [follow_snoc] at answered ⊢
  rcases advance_cases (pool.follow state order).1 (pool.follow state order).2 position with
    ⟨none, _⟩ | ⟨earlier, next, there, sameWork, strands, piece⟩
  · rw [phase?, none] at unanswered
    cases unanswered.1
  rw [phase?_advance_self there strands, Option.some.injEq] at answered
  rw [phase?, there, Option.map_some, Option.some.injEq] at unanswered
  rcases piece with ⟨cause, _, failed, _⟩ | ⟨asked, _, advancing⟩
  · rw [failed] at answered
    cases answered
  rcases advancing.holds_of_answer (sound.follow suits order).tells answered
      (unanswered.1 ▸ unanswered.2) with
    holds | ⟨slot, waits, filled, live⟩
  · exact .inl holds
  · have waiting : (pool.follow state order).1.phase? position = some (.waiting slot) := by
      rw [phase?, there, Option.map_some, waits]
    rcases holds_or_displaced sound suits fresh order waiting filled with held | displaced
    · exact .inl (Store.holds_of_live_eq live held)
    · exact .inr displaced

theorem not_waiting_ofWork (limit : Nat) (work : List (Except BuildError Request)) :
    ∀ strand ∈ (ofWork limit work).strands, ∀ slot, strand.phase ≠ .waiting slot := by
  intro strand member slot
  obtain ⟨asked, _, rfl⟩ := List.mem_map.1 member
  exact nofun

/-- Two requests with one fingerprint that meet in an empty store share an answer, whatever their
names are. -/
theorem answer_of_equal_fingerprint {state : BuildState} (empty : state.store.live = [])
    (unused : state.store.slots = []) {first second : Request} {artifact : Artifact}
    (same : second.fingerprint = first.fingerprint)
    {change : Workspace → Workspace} {ready : Workspace → Bool}
    (call : first.adapter.call first.unit first.version =
      .act change fun _ => .await ready (.done (.ok artifact)))
    (suits : first.isAnsweredBy artifact = true)
    (published : (Store.publish artifact ⟨change state.workspace, state.store⟩).1.isOk = true) :
    ((ofWork 2 [.ok first, .ok second]).follow state [0, 1, 0]).1.phase? 1 = some (.waiting 0) ∧
    ((ofWork 2 [.ok first, .ok second]).follow state ([0, 1, 0] ++ [1])).1.phase? 1 =
      some (.answered (.ok artifact)) := by
  obtain ⟨workspace, ⟨directory, live, slots, counters⟩⟩ := state
  subst empty unused
  let waiting : BuildState := ⟨change workspace, directory, [], [⟨first.fingerprint, .busy, true⟩],
    { counters with misses := counters.misses + 2, compiles := counters.compiles + 1 }⟩
  have begun : ∃ hit, (ofWork 2 [.ok first, .ok second]).follow ⟨workspace, directory, [], [], counters⟩ [0, 1] =
      (⟨2, [⟨.ok first, hit, .compiling 0 (.await ready (.done (.ok artifact)))⟩,
        ⟨.ok second, false, .waiting 0⟩]⟩, waiting) := by
    simp [follow, advance, ofWork, Strand.queued, Strand.advance, Request.begin, Store.fresh?,
      Store.lookup, Store.join, Store.listedSlot?, Store.countMiss, Store.countCompile, Store.count,
      Request.enter, Request.lead, Request.compile, BuildState.onStore, Store.setCell, call,
      Routine.poll, Request.proceed, Store.cell, Store.isFresh, same, waiting]
  have published : (Store.publish artifact waiting).1.isOk = true := by
    rw [← published]
    exact Store.publish_isOk_congr artifact rfl rfl
  obtain ⟨hit, begun⟩ := begun
  obtain ⟨files, run⟩ | ⟨cause, files, run⟩ := Store.publish_cases artifact waiting
  · have slots : waiting.store.slots = [⟨first.fingerprint, .busy, true⟩] := rfl
    have third := follow_snoc (ofWork 2 [.ok first, .ok second])
      ⟨workspace, directory, [], [], counters⟩ [0, 1] 0
    rw [begun] at third
    refine ⟨?_, ?_⟩
    · rw [show [0, 1, 0] = [0, 1] ++ [0] from rfl, third]
      simp [advance, Strand.advance, Request.advance, Routine.resume, Routine.poll, Request.proceed,
        phase?]
    · rw [follow_snoc, show [0, 1, 0] = [0, 1] ++ [0] from rfl, third]
      simp [advance, Strand.advance, Request.advance, Routine.resume, Routine.poll, Request.proceed,
        Request.conclude, suits, run, Request.settle, BuildState.onStore, Request.enter, Store.cell,
        Store.fill, Store.setCell, Store.release, Store.insert, phase?, Request.retell,
        Except.mapError, slots]
  · rw [run] at published
    cases published

def steadyAdapter : Adapter :=
  { language := .vyper
    flags := []
    compile := fun unit version => do
      (Routine.pause : Routine Workspace Unit)
      return .ofOutput unit version [] ⟨[], ""⟩ }

def requestFor (path : String) : Request :=
  ⟨⟨⟨path⟩, .vyper, "[]"⟩, "0.3.1", steadyAdapter⟩

def compiledFor (path : String) : Artifact :=
  .ofOutput (requestFor path).unit "0.3.1" [] ⟨[], ""⟩

def emptyState : BuildState :=
  ⟨.ofFiles (.within []), ⟨⟨"cache"⟩, [], [], ⟨0, 0, 0, 0⟩⟩⟩

theorem isAnsweredBy_compiledFor (path : String) :
    (requestFor path).isAnsweredBy (compiledFor path) = true := by
  simp [Request.isAnsweredBy, Request.name, Request.fingerprint, requestFor, compiledFor,
    steadyAdapter, Artifact.ofOutput]

def twins : List (Except BuildError Request) :=
  [.ok (requestFor "A.vy"), .ok (requestFor "B.vy")]

theorem twins_share_answer :
    ((ofWork 2 twins).follow emptyState [0, 1, 0]).1.phase? 1 = some (.waiting 0) ∧
    ((ofWork 2 twins).follow emptyState ([0, 1, 0] ++ [1])).1.phase? 1 =
      some (.answered (.ok (compiledFor "A.vy"))) := by
  have call : (requestFor "A.vy").adapter.call (requestFor "A.vy").unit (requestFor "A.vy").version =
      .act (Workspace.noteCall .vyper) fun _ =>
        .await (fun _ => true) (.done (.ok (compiledFor "A.vy"))) := rfl
  exact answer_of_equal_fingerprint rfl rfl rfl call (isAnsweredBy_compiledFor "A.vy")
    (by decide +kernel)

/-- Whatever else is asked for at the same time, from whatever entries and in whatever order: an
artifact that answers a request has its fingerprint. It has its name, or that of another request
with the same fingerprint. It is the live entry of the name it has when the request is answered,
or another request of that name displaced it in the meantime. -/
theorem answer_of_shared_compile (limit : Nat) (work : List (Except BuildError Request))
    (state : BuildState) (idle : ∀ slot ∈ state.store.slots, slot.listed = false) (order : List Nat)
    {position : Nat} {request : Request} {phase : Phase} {artifact : Artifact}
    (asks : work[position]? = some (.ok request))
    (unanswered : ((ofWork limit work).follow state order).1.phase? position = some phase ∧
      phase.isAnswered = false)
    (answered : ((ofWork limit work).follow state (order ++ [position])).1.phase? position =
      some (.answered (.ok artifact))) :
    artifact.fingerprint = request.fingerprint ∧
    (artifact.name = request.name ∨ ∃ other, .ok other ∈ work ∧
      other.fingerprint = request.fingerprint ∧ other.name ≠ request.name ∧
      artifact.name = other.name) ∧
    (((ofWork limit work).follow state (order ++ [position])).2.store.Holds artifact.name
        request.fingerprint ∨
      (ofWork limit work).Displaced state order position artifact.name request.fingerprint) := by
  let named : Fingerprint → String → Prop := fun fingerprint name =>
    ∃ other, .ok other ∈ work ∧ other.fingerprint = fingerprint ∧ name = other.name
  have suits : ∀ request, .ok request ∈ work → named request.fingerprint request.name :=
    fun request member => ⟨request, member, rfl, rfl⟩
  have start : Sound named _ work (ofWork limit work, state) := .start state idle limit work
  obtain ⟨fingerprint, other, member, same, name⟩ :=
    answer_known start suits (order ++ [position]) asks answered
  refine ⟨fingerprint, ?_, ?_⟩
  · by_cases equal : other.name = request.name
    · exact .inl (name.trans equal)
    · exact .inr ⟨other, member, same, equal, name⟩
  · rw [← fingerprint]
    exact answer_holds start suits (not_waiting_ofWork limit work) order unanswered answered

/-- Of two files with one source the second can be answered with the artifact of the first. -/
theorem answer_of_twin_sources :
    (compiledFor "A.vy").name ≠ (requestFor "B.vy").name ∧
    (compiledFor "A.vy").fingerprint = (requestFor "B.vy").fingerprint ∧
    ((compiledFor "A.vy").name = (requestFor "B.vy").name ∨
      ∃ other, .ok other ∈ twins ∧ other.fingerprint = (requestFor "B.vy").fingerprint ∧
        other.name ≠ (requestFor "B.vy").name ∧ (compiledFor "A.vy").name = other.name) ∧
    (((ofWork 2 twins).follow emptyState ([0, 1, 0] ++ [1])).2.store.Holds (compiledFor "A.vy").name
        (requestFor "B.vy").fingerprint ∨
      (ofWork 2 twins).Displaced emptyState [0, 1, 0] 1 (compiledFor "A.vy").name
        (requestFor "B.vy").fingerprint) :=
  ⟨by decide, answer_of_shared_compile 2 twins emptyState nofun [0, 1, 0] rfl
    ⟨twins_share_answer.1, rfl⟩ twins_share_answer.2⟩

end ContractBuild.Pool
