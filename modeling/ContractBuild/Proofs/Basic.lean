import Mathlib.Data.List.Basic

/-!
Facts about lists and outcomes that the library does not state.
-/
namespace ContractBuild

variable {ε α : Type}

theorem exists_of_isOk {outcome : Except ε α} (done : outcome.isOk = true) : ∃ value, outcome = .ok value := by
  cases outcome with
  | ok value => exact ⟨value, rfl⟩
  | error refused => cases done

theorem getElem?_set_cases {list : List α} {position place : Nat} {new there : α}
    (found : (list.set position new)[place]? = some there) :
    (place = position ∧ there = new) ∨ (place ≠ position ∧ list[place]? = some there) := by
  by_cases here : place = position
  · subst here
    have inside : place < list.length := by
      simpa using (List.getElem?_eq_some_iff.1 found).1
    rw [List.getElem?_set_self inside] at found
    exact .inl ⟨rfl, (Option.some.inj found).symm⟩
  · rw [List.getElem?_set_ne (Ne.symm here)] at found
    exact .inr ⟨here, found⟩

theorem countP_set_add {p : α → Bool} {list : List α} {position : Nat} {old : α}
    (found : list[position]? = some old) (new : α) :
    (list.set position new).countP p + (p old).toNat = list.countP p + (p new).toNat := by
  induction list generalizing position with
  | nil => cases found
  | cons head tail ih =>
    cases position with
    | zero =>
      obtain rfl : head = old := Option.some.inj found
      simp only [List.set_cons_zero, List.countP_cons]
      cases p head <;> cases p new <;> simp
    | succ position =>
      have rest := ih found
      simp only [List.set_cons_succ, List.countP_cons]
      omega

end ContractBuild
