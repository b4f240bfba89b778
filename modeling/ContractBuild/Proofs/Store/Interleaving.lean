import ContractBuild.Proofs.Store.Transitions

/-!
Requests that run pieces in any order. The slots that requests of one pool made hold artifacts of
the slot's fingerprint, each named like one of the requests with that fingerprint; a piece changes
the entry of its own request's name only.
-/
namespace ContractBuild

namespace Store

structure Tells (named : Fingerprint → String → Prop) (base : Nat) (store : Store) : Prop where
  length : base ≤ store.slots.length
  listed : ∀ {position : Nat} {slot : Slot}, store.slots[position]? = some slot → slot.listed = true →
    base ≤ position ∧ ∀ outcome, slot.cell ≠ .filled outcome
  filled : ∀ {position : Nat} {slot : Slot} {artifact : Artifact},
    store.slots[position]? = some slot → base ≤ position → slot.cell = .filled (.ok artifact) →
      artifact.fingerprint = slot.fingerprint ∧ named slot.fingerprint artifact.name

def Extends (before after : Store) : Prop :=
  ∀ (position : Nat) (slot : Slot), before.slots[position]? = some slot →
    ∃ later, after.slots[position]? = some later ∧ later.fingerprint = slot.fingerprint

theorem Extends.refl (store : Store) : store.Extends store :=
  fun _ _ found => ⟨_, found, rfl⟩

theorem Extends.of_slots_eq {before after : Store} (same : after.slots = before.slots) :
    before.Extends after :=
  fun _ _ found => ⟨_, same ▸ found, rfl⟩

theorem Extends.trans {first middle last : Store} (earlier : first.Extends middle)
    (later : middle.Extends last) : first.Extends last := by
  intro position slot found
  obtain ⟨next, there, same⟩ := earlier position slot found
  obtain ⟨final, here, equal⟩ := later position next there
  exact ⟨final, here, equal.trans same⟩

theorem extends_fill (store : Store) (slot : Nat) (outcome : Except BuildError Artifact) :
    store.Extends (store.fill slot outcome) := by
  intro position entry found
  refine ⟨_, by rw [getElem?_fill, found]; rfl, ?_⟩
  split <;> rfl

theorem extends_setCell (store : Store) (slot : Nat) (cell : Cell (Except BuildError Artifact)) :
    store.Extends (store.setCell slot cell) := by
  intro position entry found
  refine ⟨_, by rw [getElem?_setCell, found]; rfl, ?_⟩
  split <;> rfl

theorem extends_release (store : Store) (slot : Nat) : store.Extends (store.release slot) := by
  intro position entry found
  refine ⟨_, by rw [getElem?_release, found]; rfl, ?_⟩
  split <;> rfl

theorem extends_join (store : Store) (fingerprint : Fingerprint) :
    store.Extends (store.join fingerprint).2 := by
  rcases join_cases store fingerprint with ⟨position, slot, run, _⟩ | ⟨run, _⟩
  · rw [run]
    exact Extends.refl store
  · rw [run]
    intro position slot found
    exact ⟨slot, by rw [List.getElem?_append_left (List.getElem?_eq_some_iff.1 found).1]; exact found,
      rfl⟩

variable {named : Fingerprint → String → Prop} {base : Nat} {store : Store}

theorem Tells.of_slots_eq {after : Store} (tells : Tells named base store)
    (same : after.slots = store.slots) : Tells named base after :=
  ⟨same ▸ tells.length, fun found => tells.listed (same ▸ found),
    fun found => tells.filled (same ▸ found)⟩

theorem Tells.release (tells : Tells named base store) (slot : Nat) :
    Tells named base (store.release slot) := by
  refine ⟨by simpa [Store.release] using tells.length, ?_, ?_⟩
  · intro position entry found isListed
    rw [getElem?_release] at found
    obtain ⟨old, there, rfl⟩ := Option.map_eq_some_iff.1 found
    by_cases same : slot = position
    · simp [same] at isListed
    · simp only [same, if_false] at isListed ⊢
      exact tells.listed there isListed
  · intro position entry artifact found inside isFilled
    rw [getElem?_release] at found
    obtain ⟨old, there, rfl⟩ := Option.map_eq_some_iff.1 found
    have fields : (if slot = position then { old with listed := false } else old).cell = old.cell ∧
        (if slot = position then { old with listed := false } else old).fingerprint =
          old.fingerprint := by
      split <;> exact ⟨rfl, rfl⟩
    rw [fields.1] at isFilled
    rw [fields.2]
    exact tells.filled there inside isFilled

theorem Tells.mark (tells : Tells named base store) (slot : Nat) :
    Tells named base (store.setCell slot .busy) := by
  refine ⟨by simpa [Store.setCell] using tells.length, ?_, ?_⟩
  · intro position entry found isListed
    rw [getElem?_setCell] at found
    obtain ⟨old, there, rfl⟩ := Option.map_eq_some_iff.1 found
    by_cases same : slot = position
    · simp only [same, if_true] at isListed ⊢
      exact ⟨(tells.listed there isListed).1, fun outcome filled => by cases filled⟩
    · simp only [same, if_false] at isListed ⊢
      exact tells.listed there isListed
  · intro position entry artifact found inside isFilled
    rw [getElem?_setCell] at found
    obtain ⟨old, there, rfl⟩ := Option.map_eq_some_iff.1 found
    by_cases same : slot = position
    · simp [same] at isFilled
    · simp only [same, if_false] at isFilled ⊢
      exact tells.filled there inside isFilled

/-- A slot may be filled with an error, or with an artifact that goes with its fingerprint. -/
theorem Tells.fill (tells : Tells named base store) {slot : Nat} {outcome : Except BuildError Artifact}
    (suits : ∀ entry artifact, store.slots[slot]? = some entry → outcome = .ok artifact →
      artifact.fingerprint = entry.fingerprint ∧ named entry.fingerprint artifact.name) :
    Tells named base (store.fill slot outcome) := by
  refine ⟨by simpa [Store.fill, Store.release, Store.setCell] using tells.length, ?_, ?_⟩
  · intro position entry found isListed
    rw [getElem?_fill] at found
    obtain ⟨old, there, rfl⟩ := Option.map_eq_some_iff.1 found
    by_cases same : slot = position
    · simp [same] at isListed
    · simp only [same, if_false] at isListed ⊢
      exact tells.listed there isListed
  · intro position entry artifact found inside isFilled
    rw [getElem?_fill] at found
    obtain ⟨old, there, rfl⟩ := Option.map_eq_some_iff.1 found
    by_cases same : slot = position
    · simp only [same, if_true, Cell.filled.injEq] at isFilled ⊢
      exact suits old artifact (same ▸ there) isFilled
    · simp only [same, if_false] at isFilled ⊢
      exact tells.filled there inside isFilled

/-- Joining leads to a slot of the fingerprint without an outcome. -/
theorem Tells.join (tells : Tells named base store) (fingerprint : Fingerprint) :
    Tells named base (store.join fingerprint).2 ∧ base ≤ (store.join fingerprint).1 ∧
      ∃ slot, (store.join fingerprint).2.slots[(store.join fingerprint).1]? = some slot ∧
        slot.fingerprint = fingerprint ∧ ∀ outcome, slot.cell ≠ .filled outcome := by
  rcases join_cases store fingerprint with ⟨position, slot, run, found, isListed, same⟩ | ⟨run, _⟩
  · rw [run]
    exact ⟨tells, (tells.listed found isListed).1, slot, found, same, (tells.listed found isListed).2⟩
  · rw [run]
    have fresh : ∀ {position slot}, (store.slots ++ [⟨fingerprint, .vacant, true⟩])[position]? =
        some slot → store.slots[position]? = some slot ∨
          position = store.slots.length ∧ slot = ⟨fingerprint, .vacant, true⟩ := by
      intro position slot found
      by_cases inside : position < store.slots.length
      · rw [List.getElem?_append_left inside] at found
        exact .inl found
      · rw [List.getElem?_append_right (Nat.le_of_not_lt inside), List.getElem?_singleton] at found
        split at found
        · exact .inr ⟨by omega, (Option.some.inj found).symm⟩
        · cases found
    refine ⟨⟨?_, ?_, ?_⟩, tells.length, ⟨fingerprint, .vacant, true⟩, ?_, rfl, nofun⟩
    · simpa using Nat.le_succ_of_le tells.length
    · intro position slot found isListed
      rcases fresh found with old | ⟨rfl, rfl⟩
      · exact tells.listed old isListed
      · exact ⟨tells.length, nofun⟩
    · intro position slot artifact found inside isFilled
      rcases fresh found with old | ⟨rfl, rfl⟩
      · exact tells.filled old inside isFilled
      · cases isFilled
    · simp

end Store

def Phase.Knows (named : Fingerprint → String → Prop) (base : Nat) (store : Store)
    (fingerprint : Fingerprint) : Phase → Prop
  | .pending => True
  | .waiting slot | .compiling slot _ =>
    base ≤ slot ∧ ∃ entry, store.slots[slot]? = some entry ∧ entry.fingerprint = fingerprint
  | .answered outcome => ∀ artifact, outcome = .ok artifact →
    artifact.fingerprint = fingerprint ∧ named fingerprint artifact.name

theorem Phase.Knows.mono {named : Fingerprint → String → Prop} {base : Nat} {before after : Store}
    {fingerprint : Fingerprint} (extended : before.Extends after) {phase : Phase}
    (knows : phase.Knows named base before fingerprint) :
    phase.Knows named base after fingerprint := by
  cases phase with
  | pending => trivial
  | answered outcome => exact knows
  | waiting slot | compiling slot call =>
    obtain ⟨inside, entry, found, same⟩ := knows
    obtain ⟨later, there, equal⟩ := extended slot entry found
    exact ⟨inside, later, there, equal.trans same⟩

namespace Request

variable {named : Fingerprint → String → Prop} {base slot : Nat} {before after : Store}
  {request : Request} {phase next : Phase}

structure Keeps (named : Fingerprint → String → Prop) (base : Nat) (request : Request)
    (before : Store) (next : Phase) (after : Store) : Prop where
  extends' : before.Extends after
  tells : Store.Tells named base after
  knows : next.Knows named base after request.fingerprint

private theorem knows_of_fresh (suits : named request.fingerprint request.name) {artifact : Artifact}
    (fresh : before.fresh? request.name request.fingerprint = some artifact) :
    artifact.fingerprint = request.fingerprint ∧ named request.fingerprint artifact.name := by
  obtain ⟨found, same⟩ := Store.fresh?_eq_some.1 fresh
  rw [Store.name_of_lookup found]
  exact ⟨same, suits⟩

private theorem keeps_fill (tells : Store.Tells named base before) (phase : Phase)
    {outcome : Except BuildError Artifact}
    (there : phase.Knows named base before request.fingerprint)
    (atSlot : ∃ entry, before.slots[slot]? = some entry ∧ entry.fingerprint = request.fingerprint)
    (suits : ∀ artifact, outcome = .ok artifact →
      artifact.fingerprint = request.fingerprint ∧ named request.fingerprint artifact.name)
    (slots : after.slots = (before.fill slot outcome).slots) :
    Keeps named base request before phase after := by
  have extended : before.Extends after :=
    (Store.extends_fill before slot outcome).trans (.of_slots_eq slots)
  refine ⟨extended, (tells.fill ?_).of_slots_eq slots, there.mono extended⟩
  intro entry artifact found isOk
  obtain ⟨same, at', equal⟩ := atSlot
  rw [found] at at'
  rw [Option.some.inj at', equal]
  exact suits artifact isOk

theorem Leads.keeps (leading : Leads request slot before next after)
    (suits : named request.fingerprint request.name) (tells : Store.Tells named base before)
    (inside : base ≤ slot)
    (atSlot : ∃ entry, before.slots[slot]? = some entry ∧ entry.fingerprint = request.fingerprint) :
    Keeps named base request before next after := by
  cases leading with
  | reuses artifact fresh live slots =>
    have known := knows_of_fresh suits fresh
    have answer : ∀ other, Except.ok artifact = (.ok other : Except BuildError Artifact) →
        other.fingerprint = request.fingerprint ∧ named request.fingerprint other.name := by
      intro other same
      cases same
      exact known
    exact keeps_fill tells _ answer atSlot answer slots
  | fails cause live slots =>
    exact keeps_fill tells _ (fun _ isOk => by cases isOk) atSlot (fun _ isOk => by cases isOk) slots
  | publishes artifact kept fingerprint name drops live slots =>
    have answer : ∀ other, Except.ok artifact = (.ok other : Except BuildError Artifact) →
        other.fingerprint = request.fingerprint ∧ named request.fingerprint other.name := by
      intro other same
      cases same
      exact ⟨fingerprint, name ▸ suits⟩
    exact keeps_fill tells _ answer atSlot answer slots
  | compiles call live slots =>
    rcases slots with unchanged | marked
    · have extended : before.Extends after := .of_slots_eq unchanged
      have waits : (Phase.compiling slot call).Knows named base before request.fingerprint :=
        ⟨inside, atSlot⟩
      exact ⟨extended, tells.of_slots_eq unchanged, waits.mono extended⟩
    · have extended : before.Extends after :=
        (Store.extends_setCell before slot .busy).trans (.of_slots_eq marked)
      have waits : (Phase.compiling slot call).Knows named base before request.fingerprint :=
        ⟨inside, atSlot⟩
      exact ⟨extended, (tells.mark slot).of_slots_eq marked, waits.mono extended⟩

/-- An outcome that waits in a slot is as good as one of the request's own. -/
theorem Enters.keeps (entering : Enters request slot before next after)
    (suits : named request.fingerprint request.name) (tells : Store.Tells named base before)
    (inside : base ≤ slot)
    (atSlot : ∃ entry, before.slots[slot]? = some entry ∧ entry.fingerprint = request.fingerprint) :
    Keeps named base request before next after := by
  cases entering with
  | takes outcome filled =>
    refine ⟨Store.extends_release before slot, tells.release slot, ?_⟩
    intro artifact isOk
    obtain ⟨entry, found, same⟩ := atSlot
    have isFilled : entry.cell = .filled (.ok artifact) := by
      rw [Store.cell, found] at filled
      cases outcome with
      | error cause => cases isOk
      | ok answer => cases isOk; exact filled
    rw [← same]
    exact tells.filled found inside isFilled
  | waits busy => exact ⟨.refl before, tells, inside, atSlot⟩
  | leads vacant leading => exact leading.keeps suits tells inside atSlot

theorem Advances.keeps (advancing : Advances request before phase next after)
    (suits : named request.fingerprint request.name) (tells : Store.Tells named base before)
    (knows : phase.Knows named base before request.fingerprint) :
    Keeps named base request before next after := by
  cases advancing with
  | hits artifact fresh =>
    refine ⟨.of_slots_eq rfl, tells.of_slots_eq rfl, ?_⟩
    intro other same
    cases same
    exact knows_of_fresh suits fresh
  | joins entering =>
    have counted : Store.Tells named base before.countMiss := tells.of_slots_eq rfl
    obtain ⟨joined, inside, entry, found, same, _⟩ := counted.join request.fingerprint
    have kept := entering.keeps suits joined inside ⟨entry, found, same⟩
    exact ⟨(Store.extends_join before.countMiss request.fingerprint).trans kept.extends', kept.tells,
      kept.knows⟩
  | wakes entering => exact entering.keeps suits tells knows.1 knows.2
  | resumes leading => exact leading.keeps suits tells knows.1 knows.2
  | rests outcome => exact ⟨.refl before, tells, knows⟩

/-! The entries of other names, and the one that an answer stands for -/

private theorem lookup_of_drops {name other : String} (drops : Drops name before.live after.live)
    (differs : other ≠ name) : after.lookup other = before.lookup other := by
  rcases drops with same | dropped
  · exact Store.lookup_of_live_eq same other
  · have erased : after.live = (before.erase name).live := dropped
    rw [Store.lookup_of_live_eq erased, Store.lookup_erase_of_ne before differs]

theorem Leads.lookup_of_ne (leading : Leads request slot before next after) {other : String}
    (differs : other ≠ request.name) : after.lookup other = before.lookup other := by
  cases leading with
  | reuses artifact fresh live slots => exact Store.lookup_of_live_eq live other
  | fails cause live slots => exact lookup_of_drops live differs
  | compiles call live slots => exact lookup_of_drops live differs
  | publishes artifact kept fingerprint name drops live slots =>
    have inserted : after.live = (Store.insert { before with live := kept } artifact).live := live
    have dropped : Store.lookup { before with live := kept } other = before.lookup other :=
      lookup_of_drops drops differs
    rw [Store.lookup_of_live_eq inserted, Store.lookup_insert_of_ne _ (name ▸ differs), dropped]

theorem Enters.lookup_of_ne (entering : Enters request slot before next after) {other : String}
    (differs : other ≠ request.name) : after.lookup other = before.lookup other := by
  cases entering with
  | takes outcome filled => rfl
  | waits busy => rfl
  | leads vacant leading => exact leading.lookup_of_ne differs

/-- A piece of a request leaves the entries of other names alone. -/
theorem Advances.lookup_of_ne (advancing : Advances request before phase next after)
    {other : String} (differs : other ≠ request.name) : after.lookup other = before.lookup other := by
  cases advancing with
  | hits artifact fresh => rfl
  | joins entering =>
    rw [entering.lookup_of_ne differs]
    exact Store.lookup_of_live_eq (Store.live_join before.countMiss request.fingerprint) other
  | wakes entering => exact entering.lookup_of_ne differs
  | resumes leading => exact leading.lookup_of_ne differs
  | rests outcome => rfl

end Request
end ContractBuild
