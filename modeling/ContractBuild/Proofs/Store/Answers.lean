import ContractBuild.Proofs.Store.Interleaving

/-!
What a request of a pool is answered with. An outcome is left in a slot only together with its
entry, so an answer stands for the entry of its name for as long as no other request changes that
entry. The answer of a request that waited has the name of the request it waited for: two requests
may ask for one fingerprint under two names.
-/
namespace ContractBuild

namespace Store

variable {store : Store} {slot position : Nat} {outcome found : Except BuildError Artifact}

theorem cell_of_fill (filled : (store.fill slot outcome).cell position = .filled found) :
    store.cell position = .filled found ∨ found = outcome := by
  rw [fill, cell_release] at filled
  exact (cell_of_setCell filled).imp_right fun both => (Cell.filled.inj both.2).symm

theorem cell_of_join {fingerprint : Fingerprint}
    (filled : (store.join fingerprint).2.cell position = .filled found) :
    store.cell position = .filled found := by
  rcases join_cases store fingerprint with ⟨slot, entry, run, _⟩ | ⟨run, _⟩
  · rwa [run] at filled
  · rw [run] at filled
    by_cases inside : position < store.slots.length
    · rwa [cell, List.getElem?_append_left inside] at filled
    · rw [cell, List.getElem?_append_right (Nat.le_of_not_lt inside), List.getElem?_singleton] at filled
      split at filled <;> cases filled

end Store

namespace Request

variable {slot position : Nat} {before after : Store} {request : Request} {phase next : Phase}
  {artifact : Artifact}

private theorem holds_of_fresh
    (fresh : before.fresh? request.name request.fingerprint = some artifact) :
    before.Holds artifact.name artifact.fingerprint := by
  obtain ⟨found, _⟩ := Store.fresh?_eq_some.1 fresh
  exact ⟨artifact, (Store.name_of_lookup found).symm ▸ found, rfl⟩

private theorem holds_of_insert (before : Store) {kept : List Artifact}
    (live : after.live = Store.insertArtifact artifact kept) :
    after.Holds artifact.name artifact.fingerprint := by
  have inserted : after.live = (Store.insert { before with live := kept } artifact).live := live
  refine ⟨artifact, ?_, rfl⟩
  rw [Store.lookup_of_live_eq inserted]
  exact Store.lookup_insert_self _ artifact

theorem Leads.holds_of_filled (leading : Leads request slot before next after)
    (filled : after.cell position = .filled (.ok artifact)) :
    before.cell position = .filled (.ok artifact) ∨
      after.Holds artifact.name artifact.fingerprint := by
  cases leading with
  | reuses answer fresh live slots =>
    rw [Store.cell_of_slots_eq slots] at filled
    rcases Store.cell_of_fill filled with old | new
    · exact .inl old
    · cases new
      exact .inr (Store.holds_of_live_eq live (holds_of_fresh fresh))
  | fails cause live slots =>
    rw [Store.cell_of_slots_eq slots] at filled
    rcases Store.cell_of_fill filled with old | new
    · exact .inl old
    · cases new
  | publishes answer kept fingerprint name drops live slots =>
    rw [Store.cell_of_slots_eq slots] at filled
    rcases Store.cell_of_fill filled with old | new
    · exact .inl old
    · cases new
      exact .inr (holds_of_insert before live)
  | compiles call live slots =>
    rcases slots with unchanged | marked
    · exact .inl (by rwa [Store.cell_of_slots_eq unchanged] at filled)
    · rw [Store.cell_of_slots_eq marked] at filled
      exact .inl ((Store.cell_of_setCell filled).resolve_right fun both => nomatch both.2)

theorem Enters.holds_of_filled (entering : Enters request slot before next after)
    (filled : after.cell position = .filled (.ok artifact)) :
    before.cell position = .filled (.ok artifact) ∨
      after.Holds artifact.name artifact.fingerprint := by
  cases entering with
  | takes outcome taken => exact .inl (by rwa [Store.cell_release] at filled)
  | waits busy => exact .inl filled
  | leads vacant leading => exact leading.holds_of_filled filled

/-- When a piece of a request leaves an artifact in a slot, that is the live one of its name. -/
theorem Advances.holds_of_filled (advancing : Advances request before phase next after)
    (filled : after.cell position = .filled (.ok artifact)) :
    before.cell position = .filled (.ok artifact) ∨
      after.Holds artifact.name artifact.fingerprint := by
  cases advancing with
  | hits answer fresh => exact .inl filled
  | joins entering =>
    rcases entering.holds_of_filled filled with old | holds
    · have counted : before.countMiss.cell position = .filled (.ok artifact) :=
        Store.cell_of_join old
      exact .inl counted
    · exact .inr holds
  | wakes entering => exact entering.holds_of_filled filled
  | resumes leading => exact leading.holds_of_filled filled
  | rests outcome => exact .inl filled

theorem Leads.holds_of_answer (leading : Leads request slot before next after)
    (answer : next = .answered (.ok artifact)) :
    after.Holds artifact.name artifact.fingerprint := by
  cases leading with
  | reuses found fresh live slots =>
    cases answer
    exact Store.holds_of_live_eq live (holds_of_fresh fresh)
  | fails cause live slots => cases answer
  | publishes found kept fingerprint name drops live slots =>
    cases answer
    exact holds_of_insert before live
  | compiles call live slots => cases answer

theorem Enters.holds_of_answer (entering : Enters request slot before next after)
    (answer : next = .answered (.ok artifact)) :
    after.Holds artifact.name artifact.fingerprint ∨
      before.cell slot = .filled (.ok artifact) ∧ after.live = before.live := by
  cases entering with
  | takes outcome filled =>
    cases outcome with
    | error cause => cases answer
    | ok found =>
      cases answer
      exact .inr ⟨filled, rfl⟩
  | waits busy => cases answer
  | leads vacant leading => exact .inl (leading.holds_of_answer answer)

/-- The answer of a request is a live entry, or was left in the slot that the request waited for. -/
theorem Advances.holds_of_answer (advancing : Advances request before phase next after)
    {named : Fingerprint → String → Prop} {base : Nat} (tells : Store.Tells named base before)
    (answer : next = .answered (.ok artifact)) (unanswered : phase.isAnswered = false) :
    after.Holds artifact.name artifact.fingerprint ∨
      ∃ slot, phase = .waiting slot ∧ before.cell slot = .filled (.ok artifact) ∧
        after.live = before.live := by
  cases advancing with
  | hits found fresh =>
    cases answer
    exact .inl (holds_of_fresh fresh)
  | joins entering =>
    rcases entering.holds_of_answer answer with holds | ⟨filled, _⟩
    · exact .inl holds
    · have counted : Store.Tells named base before.countMiss := tells.of_slots_eq rfl
      obtain ⟨_, _, entry, found, _, open'⟩ := counted.join request.fingerprint
      rw [Store.cell, found] at filled
      exact absurd filled (open' _)
  | wakes entering =>
    rcases entering.holds_of_answer answer with holds | ⟨filled, same⟩
    · exact .inl holds
    · exact .inr ⟨_, rfl, filled, same⟩
  | resumes leading => exact .inl (leading.holds_of_answer answer)
  | rests outcome => cases unanswered

/-- A request that still waits after its own piece waits for a slot without an outcome. -/
theorem Advances.cell_of_waiting (advancing : Advances request before phase (.waiting slot) after) :
    after.cell slot = .busy := by
  cases advancing with
  | joins entering =>
    cases entering with
    | waits busy => exact busy
    | leads vacant leading => cases leading
  | wakes entering =>
    cases entering with
    | waits busy => exact busy
    | leads vacant leading => cases leading
  | resumes leading => cases leading

end Request

end ContractBuild
