import ContractBuild.Proofs.Store.Entries
import ContractBuild.Store.Pool

/-!
What one piece of a request can do to the store, case by case. A request that leads a slot answers
from an entry that has come in the meantime, fails, publishes an artifact of its own name and
fingerprint, or is still compiling; one that enters a slot takes its outcome, waits or leads.
-/
namespace ContractBuild

namespace Store

theorem getElem?_setCell (store : Store) (slot position : Nat)
    (cell : Cell (Except BuildError Artifact)) :
    (store.setCell slot cell).slots[position]? =
      store.slots[position]?.map fun entry =>
        if slot = position then { entry with cell } else entry :=
  List.getElem?_modify ..

theorem getElem?_release (store : Store) (slot position : Nat) :
    (store.release slot).slots[position]? =
      store.slots[position]?.map fun entry =>
        if slot = position then { entry with listed := false } else entry :=
  List.getElem?_modify ..

theorem cell_of_slots_eq {before after : Store} (same : after.slots = before.slots)
    (position : Nat) : after.cell position = before.cell position := by
  rw [cell, cell, same]

theorem cell_of_setCell {store : Store} {slot position : Nat} {cell : Cell (Except BuildError Artifact)}
    {outcome : Except BuildError Artifact} (filled : (store.setCell slot cell).cell position = .filled outcome) :
    store.cell position = .filled outcome ∨ (slot = position ∧ cell = .filled outcome) := by
  rw [Store.cell, getElem?_setCell, Option.map_map] at filled
  cases there : store.slots[position]? with
  | none =>
    rw [there] at filled
    cases filled
  | some entry =>
    rw [there] at filled
    by_cases same : slot = position
    · simp only [Option.map_some, Function.comp_apply, same, if_true, Option.getD_some] at filled
      exact .inr ⟨same, filled⟩
    · left
      simpa [Store.cell, there, same] using filled

theorem cell_release (store : Store) (slot position : Nat) :
    (store.release slot).cell position = store.cell position := by
  rw [cell, cell, getElem?_release, Option.map_map]
  congr 2
  funext entry
  by_cases same : slot = position <;> simp [same]

theorem getElem?_fill (store : Store) (slot position : Nat) (outcome : Except BuildError Artifact) :
    (store.fill slot outcome).slots[position]? =
      store.slots[position]?.map fun entry =>
        if slot = position then ⟨entry.fingerprint, .filled outcome, false⟩ else entry := by
  rw [fill, getElem?_release, getElem?_setCell, Option.map_map]
  congr 1
  funext entry
  by_cases same : slot = position <;> simp [same]

/-- A slot that is filled after it was marked is as if it had not been marked. -/
theorem slots_fill_setCell (store : Store) (slot : Nat) (cell : Cell (Except BuildError Artifact))
    (outcome : Except BuildError Artifact) :
    ((store.setCell slot cell).fill slot outcome).slots = (store.fill slot outcome).slots := by
  apply List.ext_getElem?
  intro position
  rw [getElem?_fill, getElem?_fill, getElem?_setCell, Option.map_map]
  congr 1
  funext entry
  by_cases same : slot = position <;> simp [same]

/-- Joining finds a listed slot of the fingerprint, or appends one if there is none. -/
theorem join_cases (store : Store) (fingerprint : Fingerprint) :
    (∃ position slot, store.join fingerprint = (position, store) ∧
      store.slots[position]? = some slot ∧ slot.listed = true ∧ slot.fingerprint = fingerprint) ∨
    (store.join fingerprint = (store.slots.length,
        { store with slots := store.slots ++ [⟨fingerprint, .vacant, true⟩] }) ∧
      ∀ slot ∈ store.slots, slot.listed = true → slot.fingerprint ≠ fingerprint) := by
  unfold join
  cases found : store.listedSlot? fingerprint with
  | none =>
    refine .inr ⟨rfl, fun slot member isListed => ?_⟩
    have passed := List.findIdx?_eq_none_iff.1 found slot member
    simpa [isListed] using passed
  | some position =>
    obtain ⟨inside, holds, _⟩ := List.findIdx?_eq_some_iff_getElem.1 found
    simp only [Bool.and_eq_true, decide_eq_true_eq] at holds
    exact .inl ⟨position, store.slots[position], rfl, List.getElem?_eq_getElem inside,
      holds.1, holds.2⟩

end Store

namespace Request

theorem isAnsweredBy_iff {request : Request} {artifact : Artifact} : request.isAnsweredBy artifact = true ↔
    artifact.fingerprint = request.fingerprint ∧ artifact.name = request.name := by
  simp only [isAnsweredBy, Bool.and_eq_true, decide_eq_true_eq]

def Drops (name : String) (before after : List Artifact) : Prop :=
  after = before ∨ after = before.filter (·.name ≠ name)

inductive Leads (request : Request) (slot : Nat) (before : Store) : Phase → Store → Prop
  | reuses {after : Store} (artifact : Artifact)
    (fresh : before.fresh? request.name request.fingerprint = some artifact)
    (live : after.live = before.live) (slots : after.slots = (before.fill slot (.ok artifact)).slots) :
    Leads request slot before (.answered (.ok artifact)) after
  | fails {after : Store} (cause : BuildError) (live : Drops request.name before.live after.live)
    (slots : after.slots = (before.fill slot (.error cause)).slots) :
    Leads request slot before (request.retell (.error cause)) after
  | publishes {after : Store} (artifact : Artifact) (kept : List Artifact)
    (fingerprint : artifact.fingerprint = request.fingerprint) (name : artifact.name = request.name)
    (drops : Drops request.name before.live kept) (live : after.live = Store.insertArtifact artifact kept)
    (slots : after.slots = (before.fill slot (.ok artifact)).slots) :
    Leads request slot before (.answered (.ok artifact)) after
  | compiles {after : Store} (call : Routine Workspace (Except BuildError Artifact))
    (live : Drops request.name before.live after.live)
    (slots : after.slots = before.slots ∨ after.slots = (before.setCell slot .busy).slots) :
    Leads request slot before (.compiling slot call) after

inductive Enters (request : Request) (slot : Nat) (before : Store) : Phase → Store → Prop
  | takes (outcome : Except BuildError Artifact) (filled : before.cell slot = .filled outcome) :
    Enters request slot before (request.retell outcome) (before.release slot)
  | waits (busy : before.cell slot = .busy) : Enters request slot before (.waiting slot) before
  | leads {phase : Phase} {after : Store} (vacant : before.cell slot = .vacant)
    (leading : Leads request slot before phase after) : Enters request slot before phase after

inductive Advances (request : Request) (before : Store) : Phase → Phase → Store → Prop
  | hits (artifact : Artifact)
    (fresh : before.fresh? request.name request.fingerprint = some artifact) :
    Advances request before .pending (.answered (.ok artifact)) before.countHit
  | joins {phase : Phase} {after : Store}
    (entering : Enters request (before.countMiss.join request.fingerprint).1
      (before.countMiss.join request.fingerprint).2 phase after) :
    Advances request before .pending phase after
  | wakes {slot : Nat} {phase : Phase} {after : Store}
    (entering : Enters request slot before phase after) :
    Advances request before (.waiting slot) phase after
  | resumes {slot : Nat} {call : Routine Workspace (Except BuildError Artifact)} {phase : Phase}
    {after : Store} (leading : Leads request slot before phase after) :
    Advances request before (.compiling slot call) phase after
  | rests (outcome : Except BuildError Artifact) :
    Advances request before (.answered outcome) (.answered outcome) before

/-- An answered request does nothing more. -/
theorem Advances.rests_of_answered {request : Request} {before after : Store}
    {outcome : Except BuildError Artifact} {next : Phase}
    (advancing : Advances request before (.answered outcome) next after) :
    after = before ∧ next = .answered outcome := by
  cases advancing with
  | rests => exact ⟨rfl, rfl⟩

structure Marked (request : Request) (slot : Nat) (before marked : Store) : Prop where
  live : Drops request.name before.live marked.live
  slots : marked.slots = before.slots ∨ marked.slots = (before.setCell slot .busy).slots

theorem Marked.refl (request : Request) (slot : Nat) (store : Store) :
    Marked request slot store store :=
  ⟨.inl rfl, .inl rfl⟩

theorem Marked.slots_fill {request : Request} {slot : Nat} {before marked : Store}
    (mark : Marked request slot before marked) (outcome : Except BuildError Artifact) :
    (marked.fill slot outcome).slots = (before.fill slot outcome).slots := by
  have same : ∀ {store : Store}, marked.slots = store.slots →
      (marked.fill slot outcome).slots = (store.fill slot outcome).slots := by
    intro store equal
    simp only [Store.fill, Store.release, Store.setCell, equal]
  rcases mark.slots with unchanged | busy
  · exact same unchanged
  · rw [same busy, Store.slots_fill_setCell]

section
variable {request : Request} {slot : Nat} {before : Store}

theorem conclude_leads (state : BuildState) (mark : Marked request slot before state.store)
    (outcome : Except BuildError Artifact) :
    Leads request slot before (request.conclude slot outcome state).1
      (request.conclude slot outcome state).2.store := by
  unfold conclude
  cases outcome with
  | error cause => exact .fails cause mark.live (mark.slots_fill _)
  | ok artifact =>
    dsimp only
    split
    · next answered =>
      simp only [isAnsweredBy, Bool.and_eq_true, decide_eq_true_eq] at answered
      rcases Store.publish_cases artifact state with ⟨files, run⟩ | ⟨cause, files, run⟩
      · rw [run]
        exact .publishes artifact state.store.live answered.1 answered.2 mark.live rfl
          (mark.slots_fill _)
      · rw [run]
        exact .fails cause mark.live (mark.slots_fill _)
    · exact .fails _ mark.live (mark.slots_fill _)

theorem proceed_leads (state : BuildState) (mark : Marked request slot before state.store)
    (call : Routine Workspace (Except BuildError Artifact)) :
    Leads request slot before (request.proceed slot call state).1
      (request.proceed slot call state).2.store := by
  cases call with
  | done outcome => exact conclude_leads state mark outcome
  | act change next => exact .compiles _ mark.live mark.slots
  | await ready next => exact .compiles _ mark.live mark.slots

theorem compile_leads (state : BuildState) (mark : Marked request slot before state.store) :
    Leads request slot before (request.compile slot state).1
      (request.compile slot state).2.store :=
  proceed_leads ⟨_, state.store.countCompile⟩ ⟨mark.live, mark.slots⟩ _

/-- From where its slot is marked, a request that leads does one of these. -/
theorem lead_leads_marked (request : Request) (slot : Nat) (state : BuildState) :
    Leads request slot (state.store.setCell slot .busy) (request.lead slot state).1
      (request.lead slot state).2.store := by
  have mark : Marked request slot (state.store.setCell slot .busy) (state.store.setCell slot .busy) :=
    .refl request slot _
  unfold lead
  dsimp only
  split
  · next artifact fresh => exact .reuses artifact fresh rfl (mark.slots_fill _)
  · split
    · have dropped := Store.store_invalidate request.name
        (state.onStore (·.setCell slot .busy))
      have markDropped : Marked request slot (state.store.setCell slot .busy)
          ((state.store.setCell slot .busy).erase request.name) := ⟨.inr rfl, .inl rfl⟩
      split
      · next run => exact compile_leads _ (by rw [run] at dropped; rw [dropped]; exact markDropped)
      · next cause after run =>
        rw [run] at dropped
        have mark : Marked request slot (state.store.setCell slot .busy) after.store :=
          dropped ▸ markDropped
        exact .fails cause mark.live (mark.slots_fill _)
    · exact compile_leads (state.onStore (·.setCell slot .busy)) mark

theorem setCell_again (store : Store) (slot : Nat) (cell other : Cell (Except BuildError Artifact)) :
    ((store.setCell slot other).setCell slot cell).slots = (store.setCell slot cell).slots := by
  apply List.ext_getElem?
  intro position
  rw [Store.getElem?_setCell, Store.getElem?_setCell, Store.getElem?_setCell, Option.map_map]
  congr 1
  funext entry
  by_cases same : slot = position <;> simp [same]

/-- What leads a marked slot leads the slot. -/
theorem Leads.of_marked {phase : Phase} {after : Store}
    (leading : Leads request slot (before.setCell slot .busy) phase after) :
    Leads request slot before phase after := by
  cases leading with
  | reuses artifact fresh live slots =>
    exact .reuses artifact fresh live (slots.trans (Store.slots_fill_setCell before slot .busy _))
  | fails cause live slots =>
    exact .fails cause live (slots.trans (Store.slots_fill_setCell before slot .busy _))
  | publishes artifact kept fingerprint name drops live slots =>
    exact .publishes artifact kept fingerprint name drops live
      (slots.trans (Store.slots_fill_setCell before slot .busy _))
  | compiles call live slots =>
    refine .compiles call live (.inr ?_)
    rcases slots with same | marked
    · exact same
    · exact marked.trans (setCell_again before slot .busy .busy)

theorem lead_leads (request : Request) (slot : Nat) (state : BuildState) :
    Leads request slot state.store (request.lead slot state).1
      (request.lead slot state).2.store :=
  (lead_leads_marked request slot state).of_marked

theorem enter_enters (request : Request) (slot : Nat) (state : BuildState) :
    Enters request slot state.store (request.enter slot state).1
      (request.enter slot state).2.store := by
  unfold enter
  split
  · next outcome filled => exact .takes outcome filled
  · next busy => exact .waits busy
  · next vacant => exact .leads vacant (lead_leads request slot state)

/-- Every piece of a request is one of the cases. -/
theorem advance_advances (request : Request) (phase : Phase) (state : BuildState) :
    Advances request state.store phase (request.advance phase state).1
      (request.advance phase state).2.store := by
  cases phase with
  | pending =>
    show Advances request state.store .pending (request.begin state).1 (request.begin state).2.store
    unfold begin
    split
    · next artifact fresh => exact .hits artifact fresh
    · exact .joins (enter_enters request _ { state with store := _ })
  | waiting slot => exact .wakes (enter_enters request slot state)
  | compiling slot call =>
    exact .resumes (proceed_leads { state with workspace := (call.resume state.workspace).2 }
      (Marked.refl request slot state.store) _)
  | answered outcome => exact .rests outcome

end

end Request

namespace Strand

/-- A strand with a request does what the request does. -/
theorem advance_of_ok {strand : Strand} {request : Request} (asks : strand.work = .ok request)
    (state : BuildState) :
    (strand.advance state).1.work = .ok request ∧
      (strand.advance state).1.phase = (request.advance strand.phase state).1 ∧
      (strand.advance state).2 = (request.advance strand.phase state).2 := by
  obtain ⟨work, cacheHit, phase⟩ := strand
  subst asks
  cases phase <;> exact ⟨rfl, rfl, rfl⟩

theorem advance_of_error {strand : Strand} {cause : BuildError} (lacks : strand.work = .error cause)
    (state : BuildState) :
    strand.advance state = ({ strand with phase := .answered (.error cause) }, state) := by
  obtain ⟨work, cacheHit, phase⟩ := strand
  subst lacks
  rfl

end Strand
end ContractBuild
