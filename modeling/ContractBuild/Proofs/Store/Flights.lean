import Mathlib.Data.List.Induction
import ContractBuild.Proofs.Store.Transitions
import ContractBuild.Store.Withdrawal

/-!
Who may lead a compilation. At every moment a slot without an outcome that a request waits for or
leads is the listed one of its fingerprint, and one request at most leads it; so no two requests
with one fingerprint compile at a time, whoever is given up on the way.
-/
namespace ContractBuild

def Phase.slot? : Phase → Option Nat
  | .waiting slot => some slot
  | .compiling slot _ => some slot
  | _ => none

inductive Request.Looks (request : Request) (slot : Nat) (before : Store) : Phase → Store → Prop
  | takes {after : Store} (outcome : Except BuildError Artifact)
    (filled : before.cell slot = .filled outcome) (slots : after.slots = (before.release slot).slots) :
    Looks request slot before (request.retell outcome) after
  | waits {after : Store} (busy : before.cell slot = .busy) (slots : after.slots = before.slots) :
    Looks request slot before (.waiting slot) after
  | ends {after : Store} (vacant : before.cell slot = .vacant) (outcome : Except BuildError Artifact)
    (slots : after.slots = (before.fill slot outcome).slots) :
    Looks request slot before (request.retell outcome) after
  | leads {after : Store} (vacant : before.cell slot = .vacant)
    (call : Routine Workspace (Except BuildError Artifact))
    (slots : after.slots = (before.setCell slot .busy).slots) :
    Looks request slot before (.compiling slot call) after

/-- A request that leads tells an outcome and leaves it in the slot, or goes on compiling. -/
theorem Request.Leads.ends_or_goesOn {request : Request} {slot : Nat} {before after : Store}
    {phase : Phase} (leading : Request.Leads request slot before phase after) :
    (∃ outcome, phase = request.retell outcome ∧ after.slots = (before.fill slot outcome).slots) ∨
      ∃ call, phase = .compiling slot call ∧
        (after.slots = before.slots ∨ after.slots = (before.setCell slot .busy).slots) := by
  cases leading with
  | reuses artifact fresh live slots => exact .inl ⟨.ok artifact, rfl, slots⟩
  | fails cause live slots => exact .inl ⟨.error cause, rfl, slots⟩
  | publishes artifact kept fingerprint name drops live slots => exact .inl ⟨.ok artifact, rfl, slots⟩
  | compiles call live slots => exact .inr ⟨call, rfl, slots⟩

theorem Request.enter_looks (request : Request) (slot : Nat) (state : BuildState) :
    Looks request slot state.store (request.enter slot state).1 (request.enter slot state).2.store := by
  unfold enter
  split
  · next outcome filled => exact .takes outcome filled rfl
  · next busy => exact .waits busy rfl
  · next vacant =>
    rcases (lead_leads_marked request slot state).ends_or_goesOn with
      ⟨outcome, told, slots⟩ | ⟨call, compiles, slots⟩
    · rw [told]
      exact .ends vacant outcome (slots.trans (Store.slots_fill_setCell state.store slot .busy outcome))
    · rw [compiles]
      refine .leads vacant call ?_
      rcases slots with same | again
      · exact same
      · exact again.trans (setCell_again state.store slot .busy .busy)

inductive Request.Moves (request : Request) (before : Store) : Phase → Phase → Store → Prop
  | hits {after : Store} (artifact : Artifact) (slots : after.slots = before.slots) :
    Moves request before .pending (.answered (.ok artifact)) after
  | joins {phase : Phase} {after : Store}
    (looks : Looks request (before.countMiss.join request.fingerprint).1
      (before.countMiss.join request.fingerprint).2 phase after) :
    Moves request before .pending phase after
  | wakes {slot : Nat} {phase : Phase} {after : Store} (looks : Looks request slot before phase after) :
    Moves request before (.waiting slot) phase after
  | ends {slot : Nat} {call : Routine Workspace (Except BuildError Artifact)} {after : Store}
    (outcome : Except BuildError Artifact) (slots : after.slots = (before.fill slot outcome).slots) :
    Moves request before (.compiling slot call) (request.retell outcome) after
  | goesOn {slot : Nat} {call rest : Routine Workspace (Except BuildError Artifact)} {after : Store}
    (slots : after.slots = before.slots ∨ after.slots = (before.setCell slot .busy).slots) :
    Moves request before (.compiling slot call) (.compiling slot rest) after
  | rests {after : Store} (outcome : Except BuildError Artifact) (slots : after.slots = before.slots) :
    Moves request before (.answered outcome) (.answered outcome) after

theorem Request.advance_moves (request : Request) (phase : Phase) (state : BuildState) :
    Moves request state.store phase (request.advance phase state).1
      (request.advance phase state).2.store := by
  cases phase with
  | pending =>
    show Moves request state.store .pending (request.begin state).1 (request.begin state).2.store
    unfold begin
    split
    · next artifact fresh => exact .hits artifact rfl
    · exact .joins (enter_looks request _ { state with store := _ })
  | waiting slot => exact .wakes (enter_looks request slot state)
  | compiling slot call =>
    have leading : Leads request slot state.store (request.advance (.compiling slot call) state).1
        (request.advance (.compiling slot call) state).2.store :=
      proceed_leads { state with workspace := (call.resume state.workspace).2 }
        (Marked.refl request slot state.store) _
    rcases leading.ends_or_goesOn with ⟨outcome, told, slots⟩ | ⟨rest, compiles, slots⟩
    · rw [told]
      exact .ends outcome slots
    · rw [compiles]
      exact .goesOn slots
  | answered outcome => exact .rests outcome rfl

namespace Store

def HasSlot (store : Store) (slot : Nat) (fingerprint : Fingerprint) : Prop :=
  ∃ entry, store.slots[slot]? = some entry ∧ entry.fingerprint = fingerprint ∧
    ((∀ outcome, entry.cell ≠ .filled outcome) → entry.listed = true)

def ListsOnce (store : Store) : Prop :=
  ∀ ⦃first second : Nat⦄ ⦃one other : Slot⦄, store.slots[first]? = some one →
    store.slots[second]? = some other → one.listed = true → other.listed = true →
    one.fingerprint = other.fingerprint → first = second

structure Lists (store : Store) : Prop where
  unfilled : ∀ {position : Nat} {entry : Slot}, store.slots[position]? = some entry →
    entry.listed = true → ∀ outcome, entry.cell ≠ .filled outcome
  once : store.ListsOnce

/-- A store that no request is at work on: slots that can be joined are vacant as well. -/
structure AtRest (store : Store) : Prop where
  lists : store.Lists
  vacant : ∀ {position : Nat} {entry : Slot}, store.slots[position]? = some entry →
    entry.listed = true → entry.cell = .vacant

variable {store after : Store} {slot position : Nat} {fingerprint : Fingerprint}

theorem cell_eq {entry : Slot} (found : store.slots[slot]? = some entry) : store.cell slot = entry.cell := by
  rw [cell, found]
  rfl

theorem slots_fill (store : Store) (slot : Nat) (outcome : Except BuildError Artifact) :
    (store.fill slot outcome).slots =
      store.slots.modify slot fun entry => ⟨entry.fingerprint, .filled outcome, false⟩ := by
  apply List.ext_getElem?
  intro position
  rw [getElem?_fill, List.getElem?_modify]
  cases store.slots[position]? <;> rfl

theorem slots_setCell_self {cell : Cell (Except BuildError Artifact)} (same : store.cell slot = cell) :
    (store.setCell slot cell).slots = store.slots := by
  apply List.ext_getElem?
  intro position
  rw [getElem?_setCell]
  cases found : store.slots[position]? with
  | none => rfl
  | some entry =>
    rw [Option.map_some]
    split
    · next here =>
      subst here
      rw [← same, cell_eq found]
    · rfl

structure Touches (slot : Nat) (before after : Store) (change : Slot → Slot) : Prop where
  same : after.slots = before.slots.modify slot change
  fingerprint : ∀ entry, (change entry).fingerprint = entry.fingerprint
  listed : ∀ entry, (change entry).listed = true → entry.listed = true
  joinable : ∀ entry, before.slots[slot]? = some entry →
    ((∀ outcome, entry.cell ≠ .filled outcome) → entry.listed = true) →
    (∀ outcome, (change entry).cell ≠ .filled outcome) → (change entry).listed = true

structure Alters (slot : Nat) (before after : Store) (change : Slot → Slot) : Prop
    extends Touches slot before after change where
  unfilled : ∀ entry, before.slots[slot]? = some entry → (change entry).listed = true →
    ∀ outcome, (change entry).cell ≠ .filled outcome

theorem touches_setCell {cell : Cell (Except BuildError Artifact)}
    (same : after.slots = (store.setCell slot cell).slots)
    (open' : (∀ outcome, cell ≠ .filled outcome) → ∀ outcome, store.cell slot ≠ .filled outcome) :
    Touches slot store after fun entry => { entry with cell } := by
  refine ⟨same, fun _ => rfl, fun _ => id, fun entry found joinable unfilled => joinable ?_⟩
  rw [← cell_eq found]
  exact open' unfilled

theorem touches_release {outcome : Except BuildError Artifact} (filled : store.cell slot = .filled outcome)
    (same : after.slots = (store.release slot).slots) :
    Touches slot store after fun entry => { entry with listed := false } := by
  refine ⟨same, fun _ => rfl, fun _ => nofun, ?_⟩
  intro entry found _ unfilled
  rw [cell_eq found] at filled
  exact absurd filled (unfilled outcome)

theorem alters_fill {outcome : Except BuildError Artifact}
    (same : after.slots = (store.fill slot outcome).slots) :
    Alters slot store after fun entry => ⟨entry.fingerprint, .filled outcome, false⟩ :=
  ⟨⟨same.trans (slots_fill store slot outcome), fun _ => rfl, fun _ => nofun,
    fun _ _ _ unfilled => absurd rfl (unfilled outcome)⟩, fun _ _ => nofun⟩

theorem alters_release {outcome : Except BuildError Artifact} (filled : store.cell slot = .filled outcome)
    (same : after.slots = (store.release slot).slots) :
    Alters slot store after fun entry => { entry with listed := false } :=
  ⟨touches_release filled same, fun _ _ => nofun⟩

theorem alters_setCell {cell : Cell (Except BuildError Artifact)}
    (same : after.slots = (store.setCell slot cell).slots)
    (unfilled : ∀ outcome, store.cell slot ≠ .filled outcome) (open' : ∀ outcome, cell ≠ .filled outcome) :
    Alters slot store after fun entry => { entry with cell } :=
  ⟨touches_setCell same fun _ => unfilled, fun _ _ _ => open'⟩

namespace Touches

variable {change : Slot → Slot}

theorem before? (touches : Touches slot store after change) {entry : Slot}
    (found : after.slots[position]? = some entry) :
    ∃ old, store.slots[position]? = some old ∧ entry = if slot = position then change old else old := by
  rw [touches.same, List.getElem?_modify] at found
  obtain ⟨old, there, rfl⟩ := Option.map_eq_some_iff.1 found
  exact ⟨old, there, rfl⟩

theorem listed_before (touches : Touches slot store after change) {entry : Slot}
    (found : after.slots[position]? = some entry) (isListed : entry.listed = true) :
    ∃ old, store.slots[position]? = some old ∧ old.listed = true ∧ old.fingerprint = entry.fingerprint := by
  obtain ⟨old, there, rfl⟩ := touches.before? found
  split at isListed
  · next here => exact ⟨old, there, touches.listed old isListed, by rw [if_pos here, touches.fingerprint]⟩
  · next away => exact ⟨old, there, isListed, by rw [if_neg away]⟩

theorem once (touches : Touches slot store after change) (once : store.ListsOnce) : after.ListsOnce := by
  intro first second one other found foundToo isListed isListedToo equal
  obtain ⟨oldOne, there, listedThen, sameOne⟩ := touches.listed_before found isListed
  obtain ⟨oldOther, thereToo, listedThenToo, sameOther⟩ := touches.listed_before foundToo isListedToo
  exact once there thereToo listedThen listedThenToo (sameOne.trans (equal.trans sameOther.symm))

theorem hasSlot (touches : Touches slot store after change)
    (has : store.HasSlot position fingerprint) : after.HasSlot position fingerprint := by
  obtain ⟨entry, found, same, joinable⟩ := has
  refine ⟨if slot = position then change entry else entry, ?_, ?_, ?_⟩
  · rw [touches.same, List.getElem?_modify, found]
    rfl
  · split
    · rw [touches.fingerprint, same]
    · exact same
  · by_cases here : slot = position
    · subst here
      rw [if_pos rfl]
      exact touches.joinable entry found joinable
    · rw [if_neg here]
      exact joinable

theorem cell_of_ne (touches : Touches slot store after change) (differs : slot ≠ position) :
    after.cell position = store.cell position := by
  rw [Store.cell, Store.cell, touches.same, List.getElem?_modify]
  cases store.slots[position]? with
  | none => rfl
  | some entry => simp [differs]

end Touches

theorem Alters.lists {change : Slot → Slot} (alters : Alters slot store after change) (lists : store.Lists) :
    after.Lists := by
  refine ⟨?_, alters.toTouches.once lists.once⟩
  intro position entry found isListed
  obtain ⟨old, there, rfl⟩ := alters.toTouches.before? found
  by_cases here : slot = position
  · subst here
    rw [if_pos rfl] at isListed ⊢
    exact alters.unfilled old there isListed
  · rw [if_neg here] at isListed ⊢
    exact lists.unfilled there isListed

/-- A store with one more slot, which is vacant and can be joined. -/
theorem slot_of_append {entry : Slot}
    (found : (store.slots ++ [⟨fingerprint, .vacant, true⟩])[position]? = some entry) :
    store.slots[position]? = some entry ∨
      (position = store.slots.length ∧ entry = ⟨fingerprint, .vacant, true⟩) := by
  rcases Nat.lt_trichotomy position store.slots.length with less | same | greater
  · exact .inl (by rwa [List.getElem?_append_left less] at found)
  · subst same
    rw [List.getElem?_concat_length] at found
    exact .inr ⟨rfl, (Option.some.inj found).symm⟩
  · rw [List.getElem?_eq_none (by rw [List.length_append]; exact greater)] at found
    cases found

theorem ListsOnce.of_slots_eq (once : store.ListsOnce) (same : after.slots = store.slots) : after.ListsOnce := by
  rwa [ListsOnce, same]

theorem ListsOnce.append (once : store.ListsOnce)
    (unlisted : ∀ entry ∈ store.slots, entry.listed = true → entry.fingerprint ≠ fingerprint) :
    ListsOnce { store with slots := store.slots ++ [⟨fingerprint, .vacant, true⟩] } := by
  intro first second one other found foundToo isListed isListedToo equal
  rcases slot_of_append found with there | ⟨rfl, rfl⟩ <;>
    rcases slot_of_append foundToo with thereToo | ⟨rfl, rfl⟩
  · exact once there thereToo isListed isListedToo equal
  · exact absurd equal (unlisted one (List.mem_of_getElem? there) isListed)
  · exact absurd equal.symm (unlisted other (List.mem_of_getElem? thereToo) isListedToo)
  · rfl

theorem ListsOnce.join (once : store.ListsOnce) (fingerprint : Fingerprint) :
    (store.join fingerprint).2.ListsOnce := by
  rcases join_cases store fingerprint with ⟨position, entry, run, _⟩ | ⟨run, unlisted⟩
  · rw [run]
    exact once
  · rw [run]
    exact once.append unlisted

/-- Whoever joins finds a listed slot of the fingerprint, and the others keep theirs. -/
theorem hasSlot_join (store : Store) (fingerprint : Fingerprint) :
    (store.join fingerprint).2.HasSlot (store.join fingerprint).1 fingerprint ∧
      (∀ {position other}, store.HasSlot position other →
        (store.join fingerprint).2.HasSlot position other) ∧
      ∀ position, (store.join fingerprint).2.cell position = store.cell position := by
  rcases join_cases store fingerprint with ⟨position, entry, run, found, isListed, same⟩ | ⟨run, unlisted⟩
  · rw [run]
    exact ⟨⟨entry, found, same, fun _ => isListed⟩, id, fun _ => rfl⟩
  · rw [run]
    refine ⟨⟨_, List.getElem?_concat_length, rfl, fun _ => rfl⟩, ?_, ?_⟩
    · rintro position other ⟨entry, found, rest⟩
      refine ⟨entry, ?_, rest⟩
      rwa [List.getElem?_append_left (List.getElem?_eq_some_iff.1 found).1]
    · intro position
      rw [Store.cell, Store.cell]
      rcases Nat.lt_trichotomy position store.slots.length with less | rfl | greater
      · rw [List.getElem?_append_left less]
      · rw [List.getElem?_concat_length, List.getElem?_eq_none (Nat.le_refl _)]
        rfl
      · rw [List.getElem?_eq_none (by rw [List.length_append]; exact greater), List.getElem?_eq_none (Nat.le_of_lt greater)]

theorem Lists.join (lists : store.Lists) (fingerprint : Fingerprint) : (store.join fingerprint).2.Lists := by
  refine ⟨?_, lists.once.join fingerprint⟩
  intro position entry found isListed
  rcases join_cases store fingerprint with ⟨slot, joined, run, _⟩ | ⟨run, unlisted⟩
  · rw [run] at found
    exact lists.unfilled found isListed
  · rw [run] at found
    rcases slot_of_append found with there | ⟨_, rfl⟩
    · exact lists.unfilled there isListed
    · exact nofun

end Store

namespace Pool

/-- A turn changes nothing, or it is a piece of a request, or it leaves a strand without a request.
In that case the slot that the request led is vacant. -/
theorem take_cases (pool : Pool) (state : BuildState) (turn : Turn) :
    ((pool.take state turn).1.strands = pool.strands ∧ (pool.take state turn).2 = state) ∨
    ∃ position strand next, pool.strands[position]? = some strand ∧
      (pool.take state turn).1.strands = pool.strands.set position next ∧
      ((∃ request, turn = .piece position ∧ strand.work = .ok request ∧ next.work = .ok request ∧
        request.Moves state.store strand.phase next.phase (pool.take state turn).2.store) ∨
      ((∃ cause, next.work = .error cause) ∧ next.phase.slot? = none ∧
        ((pool.take state turn).2.store.slots = state.store.slots ∨
        ∃ slot call, strand.phase = .compiling slot call ∧
          (pool.take state turn).2.store.slots = (state.store.setCell slot .vacant).slots))) := by
  cases turn with
  | piece position =>
    simp only [take, advance]
    split
    · exact .inl ⟨rfl, rfl⟩
    · next strand found =>
      refine .inr ⟨position, strand, (strand.advance state).1, found, rfl, ?_⟩
      cases asks : strand.work with
      | error cause =>
        rw [Strand.advance_of_error asks]
        exact .inr ⟨⟨cause, asks⟩, rfl, .inl rfl⟩
      | ok request =>
        obtain ⟨same, phase, moved⟩ := Strand.advance_of_ok asks state
        refine .inl ⟨request, rfl, rfl, same, ?_⟩
        rw [phase, moved]
        exact request.advance_moves strand.phase state
  | drop position tidyUp =>
    simp only [take, drop]
    split
    · exact .inl ⟨rfl, rfl⟩
    · next strand found =>
      refine .inr ⟨position, strand, strand.withdrawn, found, rfl, .inr ⟨⟨_, rfl⟩, rfl, ?_⟩⟩
      cases was : strand.phase with
      | compiling slot call => exact .inr ⟨slot, call, rfl, rfl⟩
      | _ => exact .inl rfl

end Pool

structure Flight (strands : List Strand) (store : Store) : Prop where
  lists : store.Lists
  holds : ∀ {position : Nat} {strand : Strand} {slot : Nat}, strands[position]? = some strand →
    strand.phase.slot? = some slot → ∃ request, strand.work = .ok request ∧
      store.HasSlot slot request.fingerprint
  leads : ∀ {position : Nat} {strand : Strand} {slot : Nat}
    {call : Routine Workspace (Except BuildError Artifact)}, strands[position]? = some strand →
    strand.phase = .compiling slot call → store.cell slot = .busy
  alone : ∀ {first second : Nat} {one other : Strand} {slot : Nat}
    {call rest : Routine Workspace (Except BuildError Artifact)}, strands[first]? = some one →
    strands[second]? = some other → one.phase = .compiling slot call →
    other.phase = .compiling slot rest → first = second

namespace Flight
open Store

def LedBy (strands : List Strand) (slot : Nat) (leader : Option Nat) : Prop :=
  ∀ position strand call, strands[position]? = some strand → strand.phase = .compiling slot call →
    some position = leader

variable {strands : List Strand} {store after : Store} {position slot : Nat} {strand next : Strand}
  {request : Request} {phase : Phase}

theorem start (limit : Nat) (work : List (Except BuildError Request)) (rest : store.AtRest) :
    Flight (Pool.ofWork limit work).strands store := by
  have queued : ∀ {position : Nat} {strand : Strand},
      (Pool.ofWork limit work).strands[position]? = some strand → strand.phase = .pending := by
    intro position strand found
    rw [Pool.ofWork, List.getElem?_map] at found
    obtain ⟨asked, _, rfl⟩ := Option.map_eq_some_iff.1 found
    rfl
  refine ⟨rest.lists, ?_, ?_, ?_⟩
  · intro position strand slot found holds
    rw [queued found] at holds
    cases holds
  · intro position strand slot call found leads
    rw [queued found] at leads
    cases leads
  · intro first second one other slot call rest found _ leads _
    rw [queued found] at leads
    cases leads

theorem of_slots_eq (flight : Flight strands store) (same : after.slots = store.slots) :
    Flight strands after := by
  refine ⟨⟨fun found => flight.lists.unfilled (same ▸ found), flight.lists.once.of_slots_eq same⟩, ?_, ?_, flight.alone⟩
  · intro position strand slot found holds
    obtain ⟨request, asks, has⟩ := flight.holds found holds
    exact ⟨request, asks, by rwa [HasSlot, same]⟩
  · intro position strand slot call found leads
    rw [cell, same]
    exact flight.leads found leads

theorem ledBy_none (flight : Flight strands store) {cell : Cell (Except BuildError Artifact)}
    (left : store.cell slot = cell) (idle : cell ≠ .busy) : LedBy strands slot none :=
  fun _ _ _ found leads => absurd (left.symm.trans (flight.leads found leads)) idle

/-- A request may be replaced by one that holds a slot of its fingerprint and, if it leads the slot,
leads it alone. -/
theorem put (flight : Flight strands store)
    (holds : ∀ slot, next.phase.slot? = some slot →
      ∃ request, next.work = .ok request ∧ store.HasSlot slot request.fingerprint)
    (leads : ∀ slot call, next.phase = .compiling slot call →
      store.cell slot = .busy ∧ LedBy strands slot (some position)) :
    Flight (strands.set position next) store := by
  refine ⟨flight.lists, ?_, ?_, ?_⟩
  · intro place strand slot found held
    rcases getElem?_set_cases found with ⟨_, rfl⟩ | ⟨_, old⟩
    · exact holds slot held
    · exact flight.holds old held
  · intro place strand slot call found led
    rcases getElem?_set_cases found with ⟨_, rfl⟩ | ⟨_, old⟩
    · exact (leads slot call led).1
    · exact flight.leads old led
  · intro first second one other slot call rest found foundToo led ledToo
    rcases getElem?_set_cases found with ⟨rfl, rfl⟩ | ⟨away, old⟩ <;>
      rcases getElem?_set_cases foundToo with ⟨rfl, rfl⟩ | ⟨awayToo, oldToo⟩
    · rfl
    · exact absurd (Option.some.inj ((leads slot call led).2 _ _ _ oldToo ledToo)) awayToo
    · exact absurd (Option.some.inj ((leads slot rest ledToo).2 _ _ _ old led)) away
    · exact flight.alone old oldToo led ledToo

/-- A request that holds no slot may come in the place of another. -/
theorem put_free (flight : Flight strands store) (free : next.phase.slot? = none) :
    Flight (strands.set position next) store := by
  refine flight.put (fun slot holds => ?_) (fun slot call leads => ?_)
  · rw [free] at holds
    cases holds
  · rw [leads] at free
    cases free

/-- A slot that nobody leads may be altered. -/
theorem alter {change : Slot → Slot} (flight : Flight strands store)
    (alters : Alters slot store after change) (unled : LedBy strands slot none) :
    Flight strands after := by
  refine ⟨alters.lists flight.lists, ?_, ?_, flight.alone⟩
  · intro position strand held found holds
    obtain ⟨request, asks, has⟩ := flight.holds found holds
    exact ⟨request, asks, alters.toTouches.hasSlot has⟩
  · intro position strand led call found leads
    have differs : slot ≠ led := by
      rintro rfl
      exact nomatch unled _ _ _ found leads
    rw [alters.toTouches.cell_of_ne differs]
    exact flight.leads found leads

theorem join (flight : Flight strands store) (fingerprint : Fingerprint) :
    Flight strands (store.join fingerprint).2 := by
  obtain ⟨_, keeps, cells⟩ := store.hasSlot_join fingerprint
  refine ⟨flight.lists.join fingerprint, ?_, ?_, flight.alone⟩
  · intro position strand slot found holds
    obtain ⟨request, asks, has⟩ := flight.holds found holds
    exact ⟨request, asks, keeps has⟩
  · intro position strand slot call found leads
    rw [cells]
    exact flight.leads found leads

theorem looks (flight : Flight strands store) (has : store.HasSlot slot request.fingerprint)
    (asks : next.work = .ok request) (looks : Request.Looks request slot store next.phase after) :
    Flight (strands.set position next) after := by
  generalize became : next.phase = phase at looks
  cases looks with
  | takes outcome filled slots =>
    have unled := flight.ledBy_none filled nofun
    exact (flight.alter (alters_release filled slots) unled).put_free (by rw [became]; rfl)
  | waits busy slots =>
    refine (flight.of_slots_eq slots).put (fun held holds => ?_) (fun led call leads => ?_)
    · rw [became] at holds
      cases holds
      exact ⟨request, asks, by rwa [HasSlot, slots]⟩
    · rw [became] at leads
      cases leads
  | ends vacant outcome slots =>
    have unled := flight.ledBy_none vacant nofun
    exact (flight.alter (alters_fill slots) unled).put_free (by rw [became]; rfl)
  | leads vacant call slots =>
    have unled := flight.ledBy_none vacant nofun
    have alters := alters_setCell slots (by rw [vacant]; exact fun _ => nofun) fun _ => nofun
    refine (flight.alter alters unled).put (fun held holds => ?_) (fun led rest leads => ?_)
    · rw [became] at holds
      cases holds
      exact ⟨request, asks, alters.toTouches.hasSlot has⟩
    · rw [became] at leads
      cases leads
      refine ⟨?_, fun _ _ _ found leads => nomatch unled _ _ _ found leads⟩
      obtain ⟨entry, found, _⟩ := has
      rw [cell, slots, getElem?_setCell, found]
      simp

/-- The place of who leads a slot is free again, and nobody else leads it. -/
theorem unled_of_put (flight : Flight strands store) (found : strands[position]? = some strand)
    {call : Routine Workspace (Except BuildError Artifact)} (leads : strand.phase = .compiling slot call)
    (free : next.phase.slot? = none) : LedBy (strands.set position next) slot none := by
  intro place other rest there led
  by_cases here : place = position
  · subst here
    rw [List.getElem?_set_self (List.getElem?_eq_some_iff.1 found).1, Option.some.injEq] at there
    rw [there, led] at free
    cases free
  · rw [List.getElem?_set_ne (Ne.symm here)] at there
    exact absurd (flight.alone there found led leads) here

/-- Whoever leads a slot has marked it, and leaves it so while going on. -/
theorem slots_of_goesOn (flight : Flight strands store) (found : strands[position]? = some strand)
    {call : Routine Workspace (Except BuildError Artifact)} (leads : strand.phase = .compiling slot call)
    (slots : after.slots = store.slots ∨ after.slots = (store.setCell slot .busy).slots) :
    after.slots = store.slots :=
  slots.elim id fun marked => marked.trans (slots_setCell_self (flight.leads found leads))

theorem moves (flight : Flight strands store) (found : strands[position]? = some strand)
    (asks : strand.work = .ok request) (same : next.work = .ok request)
    (moves : Request.Moves request store strand.phase next.phase after) :
    Flight (strands.set position next) after := by
  generalize was : strand.phase = earlier at moves
  generalize became : next.phase = later at moves
  cases moves with
  | hits artifact slots => exact (flight.of_slots_eq slots).put_free (by rw [became]; rfl)
  | joins looks =>
    have counted : Flight strands store.countMiss := flight.of_slots_eq rfl
    exact (counted.join request.fingerprint).looks (store.countMiss.hasSlot_join request.fingerprint).1 same
      (became ▸ looks)
  | wakes looks =>
    obtain ⟨asked, asksToo, has⟩ := flight.holds found (congrArg Phase.slot? was)
    rw [asks, Except.ok.injEq] at asksToo
    exact flight.looks (asksToo ▸ has) same (became ▸ looks)
  | ends outcome slots =>
    have free : next.phase.slot? = none := by rw [became]; rfl
    exact (flight.put_free free).alter (alters_fill slots) (flight.unled_of_put found was free)
  | goesOn slots =>
    have busy := flight.leads found was
    have unchanged := flight.slots_of_goesOn found was slots
    refine (flight.of_slots_eq unchanged).put (fun held holds => ?_) (fun led rest leads => ?_)
    · rw [became] at holds
      cases holds
      obtain ⟨asked, asksToo, has⟩ := flight.holds found (congrArg Phase.slot? was)
      rw [asks, Except.ok.injEq] at asksToo
      exact ⟨request, same, by rw [HasSlot, unchanged, asksToo]; exact has⟩
    · rw [became] at leads
      cases leads
      exact ⟨by rw [cell, unchanged]; exact busy,
        fun _ _ _ there led => congrArg some (flight.alone there found led was)⟩
  | rests outcome slots => exact (flight.of_slots_eq slots).put_free (by rw [became]; rfl)

/-- Every turn keeps all this. Where a leader is given up its slot is vacant again, and still listed. -/
theorem take {pool : Pool} {state : BuildState} (flight : Flight pool.strands state.store) (turn : Turn) :
    Flight (pool.take state turn).1.strands (pool.take state turn).2.store := by
  rcases pool.take_cases state turn with ⟨same, unchanged⟩ | ⟨position, strand, next, found, strands, turned⟩
  · rw [same, unchanged]
    exact flight
  rw [strands]
  rcases turned with ⟨request, _, asks, still, moves⟩ | ⟨_, free, unchanged | ⟨slot, call, led, vacated⟩⟩
  · exact flight.moves found asks still moves
  · exact (flight.of_slots_eq unchanged).put_free free
  · have open' : ∀ outcome, state.store.cell slot ≠ .filled outcome := by
      rw [flight.leads found led]
      exact fun _ => nofun
    have alters := alters_setCell vacated open' fun _ => nofun
    exact (flight.put_free free).alter alters (flight.unled_of_put found led free)

end Flight
end ContractBuild
