import ContractBuild.Store.Request
/-!
Progress of requests. A request goes through its stages in one direction, and within a stage each
piece leaves less of the adapter's call. So a list of requests of which one at a time runs a piece
comes to rest.
-/
namespace ContractBuild

namespace Phase

/-- What a request still has to go through: its stage, and the rest of the adapter's call. -/
def remaining : Phase → Nat × Routine Workspace (Except BuildError Artifact)
  | pending => (3, .done (.error .cancelled))
  | waiting _ => (2, .done (.error .cancelled))
  | compiling _ call => (1, call)
  | answered _ => (0, .done (.error .cancelled))

/-- One phase comes after another. -/
def After (later earlier : Phase) : Prop :=
  Prod.Lex (· < ·) Routine.After later.remaining earlier.remaining

theorem after_wf : WellFounded After :=
  InvImage.wf remaining (Prod.lex Nat.lt_wfRel ⟨_, Routine.after_wf⟩).wf

theorem after_of_stage_lt {later earlier : Phase} (less : later.remaining.1 < earlier.remaining.1) :
    After later earlier :=
  Prod.Lex.left _ _ less

end Phase

/-- One element of a list is replaced by one that comes after it. -/
inductive OneAfter (r : α → α → Prop) : List α → List α → Prop
  | head {later earlier : α} (rest : List α) (after : r later earlier) :
    OneAfter r (later :: rest) (earlier :: rest)
  | tail (first : α) {later earlier : List α} (after : OneAfter r later earlier) :
    OneAfter r (first :: later) (first :: earlier)

namespace OneAfter

private theorem acc_cons {r : α → α → Prop} {first : α} (accFirst : Acc r first) :
    ∀ {rest : List α}, Acc (OneAfter r) rest → Acc (OneAfter r) (first :: rest) := by
  induction accFirst with
  | intro first _ ihFirst =>
    intro rest accRest
    induction accRest with
    | intro rest accRest ihRest =>
      refine ⟨_, fun list after => ?_⟩
      cases after with
      | head _ after => exact ihFirst _ after ⟨rest, accRest⟩
      | tail _ after => exact ihRest _ after

theorem wf {r : α → α → Prop} (wellFounded : WellFounded r) : WellFounded (OneAfter r) := by
  refine ⟨fun list => ?_⟩
  induction list with
  | nil => exact ⟨_, fun list after => nomatch after⟩
  | cons first rest ih => exact acc_cons (wellFounded.apply first) ih

theorem set {r : α → α → Prop} {list : List α} {position : Nat} {earlier later : α}
    (found : list[position]? = some earlier) (after : r later earlier) :
    OneAfter r (list.set position later) list := by
  induction list generalizing position with
  | nil => simp at found
  | cons first rest ih =>
    cases position with
    | zero =>
      simp only [List.getElem?_cons_zero, Option.some.injEq] at found
      subst found
      exact .head rest after
    | succ position => exact .tail first (ih (by simpa using found))

end OneAfter

namespace Request

theorem stage_conclude (request : Request) (slot : Nat) (outcome : Except BuildError Artifact)
    (state : BuildState) : (request.conclude slot outcome state).1.remaining.1 = 0 := by
  cases outcome with
  | error cause => rfl
  | ok artifact =>
    unfold conclude
    split
    · rfl
    · split <;> rfl

theorem stage_proceed_le (request : Request) (slot : Nat)
    (call : Routine Workspace (Except BuildError Artifact)) (state : BuildState) :
    (request.proceed slot call state).1.remaining.1 ≤ 1 := by
  cases call with
  | done outcome =>
    rw [proceed, stage_conclude]
    exact Nat.zero_le 1
  | act change next => exact Nat.le_refl 1
  | await ready next => exact Nat.le_refl 1

theorem stage_lead_le (request : Request) (slot : Nat) (state : BuildState) :
    (request.lead slot state).1.remaining.1 ≤ 1 := by
  unfold lead
  dsimp only
  split
  · exact Nat.zero_le 1
  · split
    · split
      · exact stage_proceed_le request slot _ _
      · exact Nat.zero_le 1
    · exact stage_proceed_le request slot _ _

theorem stage_enter_le (request : Request) (slot : Nat) (state : BuildState) :
    (request.enter slot state).1.remaining.1 ≤ 2 := by
  unfold enter
  split
  · exact Nat.zero_le 2
  · exact Nat.le_refl 2
  · exact Nat.le_succ_of_le (stage_lead_le request slot state)

theorem stage_enter_le_of_not_busy (request : Request) {slot : Nat} {state : BuildState}
    (free : (state.store.cell slot).isBusy = false) :
    (request.enter slot state).1.remaining.1 ≤ 1 := by
  unfold enter
  split
  · exact Nat.zero_le 1
  · next busy => rw [busy] at free; cases free
  · exact stage_lead_le request slot state

theorem stage_begin_le (request : Request) (state : BuildState) :
    (request.begin state).1.remaining.1 ≤ 2 := by
  unfold begin
  split
  · exact Nat.zero_le 2
  · exact stage_enter_le request _ _

/-- Every piece of a request that is ready brings it closer to its answer. -/
theorem advance_after (request : Request) {phase : Phase} {state : BuildState}
    (ready : phase.isReady state = true) : Phase.After (request.advance phase state).1 phase := by
  cases phase with
  | pending => exact Phase.after_of_stage_lt (Nat.lt_succ_of_le (stage_begin_le request state))
  | waiting slot =>
    refine Phase.after_of_stage_lt (Nat.lt_succ_of_le (stage_enter_le_of_not_busy request ?_))
    simpa [Phase.isReady] using ready
  | answered outcome => cases ready
  | compiling slot call =>
    show Phase.After (request.proceed slot (call.resume state.workspace).1 _).1 _
    rcases Routine.resume_done_or_after call state.workspace with ⟨outcome, done⟩ | after
    · rw [done]
      refine Phase.after_of_stage_lt ?_
      rw [proceed, stage_conclude]
      exact Nat.zero_lt_one
    · generalize (call.resume state.workspace).1 = rest at after
      cases rest with
      | done outcome =>
        refine Phase.after_of_stage_lt ?_
        rw [proceed, stage_conclude]
        exact Nat.zero_lt_one
      | act change next => exact Prod.Lex.right _ after
      | await await next => exact Prod.Lex.right _ after

end Request

end ContractBuild
