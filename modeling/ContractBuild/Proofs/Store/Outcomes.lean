import ContractBuild.Proofs.Store.Distinct
import ContractBuild.Proofs.Store.Flights

/-!
What the requests of a pool come to. An error that a request is told is the reason why there can be no
request, or a copy made for its source; and whoever is left without an answer waits, itself or through
others, for a call of an adapter that waits for what does not come.
-/
namespace ContractBuild

namespace Request

variable {request : Request} {slot : Nat} {before after : Store} {phase next : Phase} {cause : BuildError}

def Retold (request : Request) (cause : BuildError) : Prop :=
  ∃ failure : BuildError, cause = failure.duplicate request.unit.path

theorem retold_of_retell {outcome : Except BuildError Artifact}
    (told : request.retell outcome = .answered (.error cause)) : request.Retold cause := by
  cases outcome with
  | ok artifact => cases told
  | error failure =>
    cases told
    exact ⟨failure, rfl⟩

theorem Leads.retold (leading : Leads request slot before next after)
    (told : next = .answered (.error cause)) : request.Retold cause := by
  cases leading with
  | fails failure => exact retold_of_retell told
  | reuses | publishes | compiles => cases told

theorem Enters.retold (entering : Enters request slot before next after)
    (told : next = .answered (.error cause)) : request.Retold cause := by
  cases entering with
  | takes outcome filled => exact retold_of_retell told
  | waits busy => cases told
  | leads vacant leading => exact leading.retold told

theorem Advances.retold (advancing : Advances request before phase next after)
    (told : next = .answered (.error cause)) : phase = .answered (.error cause) ∨ request.Retold cause := by
  cases advancing with
  | hits => cases told
  | joins entering => exact .inr (entering.retold told)
  | wakes entering => exact .inr (entering.retold told)
  | resumes leading => exact .inr (leading.retold told)
  | rests outcome => exact .inl told

end Request

namespace Pool

variable {limit : Nat} {work : List (Except BuildError Request)} {state : BuildState} {order : List Nat}

theorem works_follow (limit : Nat) (work : List (Except BuildError Request)) (state : BuildState)
    (order : List Nat) : ((ofWork limit work).follow state order).1.strands.map Strand.work = work := by
  induction order using List.reverseRecOn with
  | nil =>
    simp only [follow_nil, ofWork, List.map_map]
    exact List.map_id'' (fun _ => rfl) work
  | append_singleton order position ih =>
    rw [follow_snoc]
    rcases advance_cases ((ofWork limit work).follow state order).1
        ((ofWork limit work).follow state order).2 position with ⟨_, same⟩ | ⟨strand, next, found, sameWork, strands, _⟩
    · rw [same]
      exact ih
    · have there : (((ofWork limit work).follow state order).1.strands.map Strand.work)[position]? =
          some strand.work := by simp [found]
      obtain ⟨inside, same⟩ := List.getElem?_eq_some_iff.1 there
      rw [strands, List.map_set, sameWork, ← same, List.set_getElem_self, ih]

/-- The errors that strands are told: that there is no request, or one retold to the request. -/
theorem retold_follow (order : List Nat) {strand : Strand}
    (member : strand ∈ ((ofWork limit work).follow state order).1.strands) {cause : BuildError}
    (told : strand.phase = .answered (.error cause)) :
    strand.work = .error cause ∨ ∃ request, strand.work = .ok request ∧ request.Retold cause := by
  induction order using List.reverseRecOn generalizing strand with
  | nil =>
    obtain ⟨asked, _, rfl⟩ := List.mem_map.1 member
    cases told
  | append_singleton order position ih =>
    rw [follow_snoc] at member
    rcases advance_cases ((ofWork limit work).follow state order).1
        ((ofWork limit work).follow state order).2 position with
      ⟨_, same⟩ | ⟨earlier, next, found, sameWork, strands, piece⟩
    · rw [same] at member
      exact ih member told
    · rw [strands] at member
      rcases List.mem_or_eq_of_mem_set member with old | rfl
      · exact ih old told
      · rw [sameWork]
        rcases piece with ⟨failure, lacks, answered, _⟩ | ⟨request, asks, advancing⟩
        · rw [answered] at told
          cases told
          exact .inl lacks
        · rcases advancing.retold told with before | retold
          · exact ih (List.mem_of_getElem? found) before
          · exact .inr ⟨request, asks, retold⟩

end Pool

/-! Who waits -/

def Manned (strands : List Strand) (store : Store) : Prop :=
  ∀ (slot : Nat) (entry : Slot), store.slots[slot]? = some entry → entry.listed = true → entry.cell = .busy →
    ∃ strand ∈ strands, ∃ call, strand.phase = .compiling slot call

namespace Manned
open Store

variable {strands : List Strand} {store after : Store} {position slot : Nat} {strand next : Strand}
  {request : Request}

theorem of_atRest (rest : store.AtRest) : Manned strands store := by
  intro slot entry found isListed busy
  rw [rest.vacant found isListed] at busy
  cases busy

/-- One request goes on: a slot that is busy now is led by it, or was led by another. -/
theorem put (manned : Manned strands store) (found : strands[position]? = some strand)
    (others : ∀ place entry, after.slots[place]? = some entry → entry.listed = true → entry.cell = .busy →
      (∃ call, next.phase = .compiling place call) ∨
        (store.slots[place]? = some entry ∧ ∀ call, strand.phase ≠ .compiling place call)) :
    Manned (strands.set position next) after := by
  intro place entry there isListed busy
  rcases others place entry there isListed busy with ⟨call, leads⟩ | ⟨old, apart⟩
  · exact ⟨next, List.mem_set (List.getElem?_eq_some_iff.1 found).1 next, call, leads⟩
  · obtain ⟨leader, member, call, leads⟩ := manned place entry old isListed busy
    obtain ⟨spot, isLeader⟩ := List.mem_iff_getElem?.1 member
    have differs : position ≠ spot := by
      rintro rfl
      rw [found, Option.some.injEq] at isLeader
      exact apart call (isLeader ▸ leads)
    refine ⟨leader, List.mem_of_getElem? (i := spot) ?_, call, leads⟩
    rwa [List.getElem?_set_ne differs]

/-- The slots stay as they are, and the request that goes on leads none of them. -/
theorem put_of_slots_eq (manned : Manned strands store) (found : strands[position]? = some strand)
    (free : ∀ place call, strand.phase ≠ .compiling place call) (same : after.slots = store.slots) :
    Manned (strands.set position next) after :=
  manned.put found fun place _ there _ _ => .inr ⟨same ▸ there, free place⟩

/-- One slot is taken off the list, and the request that goes on leads no other. -/
theorem put_of_unlisted (manned : Manned strands store) (found : strands[position]? = some strand)
    (free : ∀ place call, place ≠ slot → strand.phase ≠ .compiling place call) {change : Slot → Slot}
    (same : after.slots = store.slots.modify slot change) (unlisted : ∀ entry, (change entry).listed = false) :
    Manned (strands.set position next) after := by
  refine manned.put found fun place entry there isListed _ => .inr ?_
  rw [same, List.getElem?_modify] at there
  obtain ⟨old, isOld, rfl⟩ := Option.map_eq_some_iff.1 there
  by_cases here : slot = place
  · rw [if_pos here, unlisted] at isListed
    cases isListed
  · rw [if_neg here]
    exact ⟨isOld, fun call => free place call (Ne.symm here)⟩

theorem join (manned : Manned strands store) (fingerprint : Fingerprint) :
    Manned strands (store.join fingerprint).2 := by
  rcases join_cases store fingerprint with ⟨_, _, run, _⟩ | ⟨run, _⟩
  · rw [run]
    exact manned
  · rw [run]
    intro place entry there isListed busy
    rcases slot_of_append there with old | ⟨_, rfl⟩
    · exact manned place entry old isListed busy
    · cases busy

theorem looks (manned : Manned strands store) (found : strands[position]? = some strand)
    (free : ∀ place call, strand.phase ≠ .compiling place call)
    (looks : Request.Looks request slot store next.phase after) : Manned (strands.set position next) after := by
  generalize became : next.phase = phase at looks
  cases looks with
  | takes outcome filled slots =>
    exact manned.put_of_unlisted found (fun place call _ => free place call) slots fun _ => rfl
  | waits busy slots => exact manned.put_of_slots_eq found free slots
  | ends vacant outcome slots =>
    exact manned.put_of_unlisted found (fun place call _ => free place call)
      (slots.trans (slots_fill store slot outcome)) fun _ => rfl
  | leads vacant call slots =>
    refine manned.put found fun place entry there _ _ => ?_
    by_cases here : slot = place
    · subst here
      exact .inl ⟨call, became⟩
    · rw [slots, getElem?_setCell] at there
      obtain ⟨old, isOld, rfl⟩ := Option.map_eq_some_iff.1 there
      rw [if_neg here]
      exact .inr ⟨isOld, free place⟩

theorem moves (manned : Manned strands store) (flight : Flight strands store)
    (found : strands[position]? = some strand)
    (moves : Request.Moves request store strand.phase next.phase after) :
    Manned (strands.set position next) after := by
  generalize was : strand.phase = earlier at moves
  generalize became : next.phase = later at moves
  cases moves with
  | hits artifact slots => exact manned.put_of_slots_eq found (fun _ _ => was ▸ nofun) slots
  | joins looks =>
    have counted : Manned strands store.countMiss := manned
    exact (counted.join request.fingerprint).looks found (fun _ _ => was ▸ nofun) (became ▸ looks)
  | wakes looks => exact manned.looks found (fun _ _ => was ▸ nofun) (became ▸ looks)
  | @ends slot call _ outcome slots =>
    have apart : ∀ place call, place ≠ slot → strand.phase ≠ .compiling place call := by
      intro place other differs led
      rw [was] at led
      cases led
      exact differs rfl
    exact manned.put_of_unlisted found apart (slots.trans (slots_fill store slot outcome)) fun _ => rfl
  | @goesOn slot call rest _ slots =>
    have unchanged := flight.slots_of_goesOn found was slots
    refine manned.put found fun place entry there _ _ => ?_
    by_cases here : slot = place
    · subst here
      exact .inl ⟨rest, became⟩
    · refine .inr ⟨unchanged ▸ there, fun other led => ?_⟩
      rw [was] at led
      cases led
      exact here rfl
  | rests outcome slots => exact manned.put_of_slots_eq found (fun _ _ => was ▸ nofun) slots

/-- Every piece keeps all busy slots led. -/
theorem advance {pool : Pool} {state : BuildState} (manned : Manned pool.strands state.store)
    (flight : Flight pool.strands state.store) (position : Nat) :
    Manned (pool.advance state position).1.strands (pool.advance state position).2.store := by
  unfold Pool.advance
  cases found : pool.strands[position]? with
  | none => exact manned
  | some strand =>
    dsimp only
    cases asks : strand.work with
    | error cause =>
      rw [Strand.advance_of_error asks]
      refine manned.put_of_slots_eq found (fun place call led => ?_) rfl
      obtain ⟨request, asksToo, _⟩ := flight.holds found (congrArg Phase.slot? led)
      rw [asks] at asksToo
      cases asksToo
    | ok request =>
      obtain ⟨_, phase, moved⟩ := Strand.advance_of_ok asks state
      have moves := request.advance_moves strand.phase state
      rw [← phase, ← moved] at moves
      exact manned.moves flight found moves

end Manned

/-! Slots behind a run -/

def TakenBut (slot : Option Nat) (store : Store) : Prop :=
  ∀ place entry, some place ≠ slot → store.slots[place]? = some entry → entry.listed = true → entry.cell ≠ .vacant

namespace TakenBut
open Store

variable {store after : Store} {slot : Nat} {request : Request} {phase next : Phase}

theorem of_idle (idle : ∀ entry ∈ store.slots, entry.listed = false) : TakenBut none store := by
  intro place entry _ found isListed
  rw [idle entry (List.mem_of_getElem? found)] at isListed
  cases isListed

theorem but (taken : TakenBut none store) (slot : Nat) : TakenBut (some slot) store :=
  fun place entry _ => taken place entry nofun

theorem of_slots_eq (taken : TakenBut none store) (same : after.slots = store.slots) : TakenBut none after := by
  rw [TakenBut, same]
  exact taken

theorem join (taken : TakenBut none store) (fingerprint : Fingerprint) :
    TakenBut (some (store.join fingerprint).1) (store.join fingerprint).2 := by
  rcases join_cases store fingerprint with ⟨position, _, run, _⟩ | ⟨run, _⟩
  · rw [run]
    exact taken.but position
  · rw [run]
    intro place entry other found
    rcases slot_of_append found with old | ⟨rfl, _⟩
    · exact taken place entry nofun old
    · exact absurd rfl other

/-- A slot that is changed is taken up, or can no longer be joined. -/
theorem modify (taken : TakenBut (some slot) store) {change : Slot → Slot}
    (same : after.slots = store.slots.modify slot change)
    (fine : ∀ entry, (change entry).listed = true → (change entry).cell ≠ .vacant) : TakenBut none after := by
  intro place entry _ found isListed
  rw [same, List.getElem?_modify] at found
  obtain ⟨old, isOld, rfl⟩ := Option.map_eq_some_iff.1 found
  by_cases here : slot = place
  · rw [if_pos here] at isListed ⊢
    exact fine old isListed
  · rw [if_neg here] at isListed ⊢
    exact taken place old (fun equal => here (Option.some.inj equal).symm) isOld isListed

theorem looks (taken : TakenBut (some slot) store) (looks : Request.Looks request slot store phase after) :
    TakenBut none after := by
  cases looks with
  | takes outcome filled slots => exact taken.modify slots nofun
  | waits busy slots =>
    intro place entry _ found
    rw [slots] at found
    by_cases here : slot = place
    · subst here
      rw [cell_eq found] at busy
      rw [busy]
      exact fun _ => nofun
    · exact taken place entry (fun equal => here (Option.some.inj equal).symm) found
  | ends vacant outcome slots => exact taken.modify (slots.trans (slots_fill store slot outcome)) nofun
  | leads vacant call slots => exact taken.modify slots fun _ _ => nofun

theorem moves (taken : TakenBut none store) (moves : Request.Moves request store phase next after) :
    TakenBut none after := by
  cases moves with
  | hits _ slots | rests _ slots => exact taken.of_slots_eq slots
  | joins looks =>
    have counted : TakenBut none store.countMiss := taken
    exact (counted.join request.fingerprint).looks looks
  | wakes looks => exact (taken.but _).looks looks
  | ends outcome slots => exact (taken.but _).modify (slots.trans (slots_fill store _ outcome)) nofun
  | goesOn slots =>
    rcases slots with same | marked
    · exact taken.of_slots_eq same
    · exact (taken.but _).modify marked fun _ _ => nofun

theorem advance {pool : Pool} {state : BuildState} (taken : TakenBut none state.store) (position : Nat) :
    TakenBut none (pool.advance state position).2.store := by
  unfold Pool.advance
  cases found : pool.strands[position]? with
  | none => exact taken
  | some strand =>
    dsimp only
    cases asks : strand.work with
    | error cause =>
      rw [Strand.advance_of_error asks]
      exact taken
    | ok request =>
      obtain ⟨_, _, moved⟩ := Strand.advance_of_ok asks state
      have moves := request.advance_moves strand.phase state
      rw [← moved] at moves
      exact taken.moves moves

end TakenBut

namespace Pool

variable {limit : Nat} {work : List (Except BuildError Request)} {state : BuildState}

theorem length_takeWhile_set {α : Type} {p : α → Bool} {list : List α} {position : Nat} {x : α}
    (found : list[position]? = some x) (fails : p x = false) (next : α) :
    (list.takeWhile p).length ≤ ((list.set position next).takeWhile p).length := by
  induction list generalizing position with
  | nil => cases found
  | cons first list ih =>
    cases position with
    | zero =>
      rw [List.getElem?_cons_zero, Option.some.injEq] at found
      subst found
      simp [fails]
    | succ position =>
      rw [List.set_cons_succ]
      cases holds : p first with
      | false => simp [holds]
      | true => simpa [holds] using ih found

structure Working (pool : Pool) (state : BuildState) : Prop where
  flight : Flight pool.strands state.store
  manned : Manned pool.strands state.store
  begun : ∀ position strand, pool.strands[position]? = some strand → strand.phase ≠ .pending →
    position < pool.frontier

theorem Working.start (rest : state.store.AtRest) : Working (ofWork limit work) state := by
  refine ⟨.start limit work rest, .of_atRest rest, fun position strand found begun => ?_⟩
  rw [ofWork, List.getElem?_map] at found
  obtain ⟨asked, _, rfl⟩ := Option.map_eq_some_iff.1 found
  exact absurd rfl begun

theorem Working.advance {pool : Pool} (working : Working pool state) {position : Nat}
    (enabled : pool.isEnabled state position = true) :
    Working (pool.advance state position).1 (pool.advance state position).2 := by
  -- a piece is a turn, and turns keep who leads what
  have flight := working.flight.take (.piece position)
  refine ⟨flight, working.manned.advance working.flight position, ?_⟩
  rw [isEnabled, Bool.and_eq_true, decide_eq_true_eq] at enabled
  obtain ⟨near, ready⟩ := enabled
  unfold Pool.advance
  cases found : pool.strands[position]? with
  | none => exact working.begun
  | some strand =>
    rw [found, Option.any_some] at ready
    have unanswered : strand.phase.isAnswered = false := by
      cases phase : strand.phase with
      | answered outcome =>
        rw [Strand.isReady, phase] at ready
        cases ready
      | pending | waiting | compiling => rfl
    have grows : pool.frontier ≤
        Pool.frontier { pool with strands := pool.strands.set position (strand.advance state).1 } :=
      Nat.add_le_add_right (length_takeWhile_set (p := fun strand : Strand => strand.phase.isAnswered)
        found unanswered _) pool.limit
    intro place other there begun
    refine Nat.lt_of_lt_of_le ?_ grows
    rcases getElem?_set_cases there with ⟨rfl, _⟩ | ⟨_, old⟩
    · exact near
    · exact working.begun place other old begun

theorem Working.run {pool : Pool} (working : Working pool state) :
    Working (pool.run state).1 (pool.run state).2 ∧ (pool.run state).1.limit = pool.limit := by
  unfold Pool.run
  generalize (0 : Nat) = position
  fun_induction runFrom position pool state with
  | case1 position pool state next => exact ⟨working, rfl⟩
  | case2 position pool state found next ih =>
    obtain ⟨later, limit⟩ := ih (working.advance (isEnabled_of_next? next))
    refine ⟨later, limit.trans ?_⟩
    unfold Pool.advance
    split <;> rfl

theorem taken_run (pool : Pool) (taken : TakenBut none state.store) : TakenBut none (pool.run state).2.store := by
  obtain ⟨order, ran⟩ := run_eq_follow pool state
  rw [ran]
  clear ran
  induction order generalizing pool state with
  | nil => exact taken
  | cons position order ih => exact ih _ (taken.advance position)

/-- Where every request has come to its end, no slot is left that could be joined. -/
theorem idle_of_complete (idle : ∀ slot ∈ state.store.slots, slot.listed = false)
    (complete : ∀ strand ∈ ((ofWork limit work).run state).1.strands, strand.phase.isAnswered = true) :
    ∀ slot ∈ ((ofWork limit work).run state).2.store.slots, slot.listed = false := by
  have rest : state.store.AtRest := by
    refine ⟨⟨fun found isListed => ?_, fun _ _ _ _ found _ isListed => ?_⟩, fun found isListed => ?_⟩ <;>
      · rw [idle _ (List.mem_of_getElem? found)] at isListed
        cases isListed
  obtain ⟨working, _⟩ := (Working.start rest : Working (ofWork limit work) state).run
  have taken := taken_run (ofWork limit work) (TakenBut.of_idle idle)
  intro slot member
  obtain ⟨place, found⟩ := List.mem_iff_getElem?.1 member
  cases isListed : slot.listed with
  | false => rfl
  | true =>
    cases cell : slot.cell with
    | vacant => exact absurd cell (taken place slot nofun found isListed)
    | filled outcome => exact absurd cell (working.flight.lists.unfilled found isListed outcome)
    | busy =>
      -- whoever leads a busy slot is still compiling
      obtain ⟨leader, isLeader, call, leads⟩ := working.manned place slot found isListed cell
      have ended := complete leader isLeader
      rw [leads] at ended
      cases ended

def Hangs (strand : Strand) (state : BuildState) : Prop :=
  ∃ slot call, strand.phase = .compiling slot call ∧ call.isReady state.workspace = false

theorem not_isReady_of_rests {pool : Pool} {position place : Nat} (rests : pool.next? state position = none)
    {strand : Strand} (found : pool.strands[place]? = some strand) (near : place < pool.frontier) :
    strand.isReady state = false := by
  have inside : place ∈ List.range pool.strands.length :=
    List.mem_range.2 (List.getElem?_eq_some_iff.1 found).1
  have listed : place ∈ (List.range pool.strands.length).drop position ++
      (List.range pool.strands.length).take position := by
    rw [← List.take_append_drop position (List.range pool.strands.length)] at inside
    rw [List.mem_append] at inside ⊢
    exact inside.symm
  have idle := List.find?_eq_none.1 rests place listed
  cases ready : strand.isReady state with
  | false => rfl
  | true =>
    refine absurd ?_ idle
    rw [isEnabled, found, Option.any_some, ready, decide_eq_true near]
    rfl

/-- Where requests have run as far as they can, each is answered, unless a call hangs. -/
theorem answered_or_hangs (rest : state.store.AtRest) (works : 0 < limit) :
    (∀ strand ∈ ((ofWork limit work).run state).1.strands, strand.phase.isAnswered = true) ∨
      ∃ strand ∈ ((ofWork limit work).run state).1.strands, Hangs strand ((ofWork limit work).run state).2 := by
  obtain ⟨position, rests⟩ := run_rests (ofWork limit work) state
  obtain ⟨working, limits⟩ := (Working.start rest : Working (ofWork limit work) state).run
  revert rests working limits
  generalize (ofWork limit work).run state = last
  obtain ⟨pool, after⟩ := last
  intro rests working limits
  by_cases hangs : ∃ strand ∈ pool.strands, Hangs strand after
  · exact .inr hangs
  have compiles : ∀ (place : Nat) (strand : Strand) slot call, pool.strands[place]? = some strand →
      strand.phase ≠ .compiling slot call := by
    intro place strand slot call found phase
    have near := working.begun place strand found (by
      rw [phase]
      intro pending
      cases pending)
    have idle := not_isReady_of_rests rests found near
    rw [Strand.isReady, phase] at idle
    exact hangs ⟨strand, List.mem_of_getElem? found, slot, call, phase, idle⟩
  refine .inl fun strand member => answered_of_rests (limits ▸ works) rests ?_ member
  intro strand member unanswered
  obtain ⟨place, found⟩ := List.mem_iff_getElem?.1 member
  cases phase : strand.phase with
  | pending => rw [Strand.isReady, phase]; rfl
  | answered outcome =>
    rw [phase] at unanswered
    cases unanswered
  | compiling slot call => exact absurd phase (compiles place strand slot call found)
  | waiting slot =>
    rw [Strand.isReady, phase]
    show (!(after.store.cell slot).isBusy) = true
    cases cell : after.store.cell slot with
    | vacant | filled => rfl
    | busy =>
      -- a busy slot is led by someone, who would be compiling
      obtain ⟨request, _, entry, isEntry, _, joinable⟩ := working.flight.holds found (congrArg Phase.slot? phase)
      rw [Store.cell_eq isEntry] at cell
      obtain ⟨leader, isLeader, call, leads⟩ := working.manned slot entry isEntry
        (joinable fun outcome filled => by
          rw [cell] at filled
          cases filled) cell
      obtain ⟨spot, there⟩ := List.mem_iff_getElem?.1 isLeader
      exact absurd leads (compiles spot leader slot call there)

end Pool
end ContractBuild
