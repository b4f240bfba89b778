import Mathlib.Data.Finset.Dedup
import Mathlib.Data.Finset.Lattice.Lemmas
import ContractBuild.Proofs.Binding.StemNames

/-!
The search for a free name, as it runs: number after number with no end in sight, over a set that each call adds
its result to. Every call comes to an end, with the name that `fresh` gives.
-/
namespace ContractBuild.Name
open Text

inductive Search (seen : Finset String) (name : String) : Nat → String → Prop
  | free {n : Nat} (isFree : name ++ Numeral.render n ∉ seen) : Search seen name n (name ++ Numeral.render n)
  | taken {n : Nat} {chosen : String} (isTaken : name ++ Numeral.render n ∈ seen)
      (goesOn : Search seen name (n + 1) chosen) : Search seen name n chosen

/-- A call: a free name is left as it is, any other is given a number. What is chosen is added to the set. -/
inductive Call (seen : Finset String) (name : String) : String → Finset String → Prop
  | free (isFree : name ∉ seen) : Call seen name name (insert name seen)
  | taken {chosen : String} (isTaken : name ∈ seen) (found : Search seen name 2 chosen) :
      Call seen name chosen (insert chosen seen)

/-- Calls one after the other, with one set among them. -/
inductive Calls : Finset String → List String → List String → Finset String → Prop
  | nil {seen : Finset String} : Calls seen [] [] seen
  | cons {seen between after : Finset String} {name chosen : String} {names others : List String}
      (first : Call seen name chosen between) (later : Calls between names others after) :
      Calls seen (name :: names) (chosen :: others) after

section
variable {seen after after' : Finset String} {name chosen chosen' : String} {n : Nat}

/-- The least number that is free is found, however far away it is. -/
theorem Search.of_least (steps : Nat) (isFree : name ++ Numeral.render (n + steps) ∉ seen)
    (below : ∀ m, n ≤ m → m < n + steps → name ++ Numeral.render m ∈ seen) :
    Search seen name n (name ++ Numeral.render (n + steps)) := by
  induction steps generalizing n with
  | zero => exact .free isFree
  | succ steps ih =>
    rw [show n + (steps + 1) = n + 1 + steps by omega] at isFree ⊢
    exact .taken (below n (Nat.le_refl n) (by omega)) (ih isFree fun m above less => below m (by omega) (by omega))

theorem Search.unique (found : Search seen name n chosen) (found' : Search seen name n chosen') : chosen = chosen' := by
  induction found with
  | free isFree =>
    cases found' with
    | free _ => rfl
    | taken isTaken _ => exact absurd isTaken isFree
  | taken isTaken _ ih =>
    cases found' with
    | free isFree => exact absurd isTaken isFree
    | taken _ goesOn => exact ih goesOn

theorem Call.unique (call : Call seen name chosen after) (call' : Call seen name chosen' after') :
    chosen = chosen' ∧ after = after' := by
  cases call with
  | free isFree =>
    cases call' with
    | free _ => exact ⟨rfl, rfl⟩
    | taken isTaken _ => exact absurd isTaken isFree
  | taken isTaken found =>
    cases call' with
    | free isFree => exact absurd isTaken isFree
    | taken _ found' =>
      obtain rfl := found.unique found'
      exact ⟨rfl, rfl⟩

theorem Calls.unique {names results results' : List String} (calls : Calls seen names results after)
    (calls' : Calls seen names results' after') : results = results' ∧ after = after' := by
  induction calls generalizing results' with
  | nil =>
    cases calls'
    exact ⟨rfl, rfl⟩
  | cons first _ ih =>
    cases calls' with
    | cons first' later' =>
      obtain ⟨rfl, rfl⟩ := first.unique first'
      obtain ⟨rfl, rfl⟩ := ih later'
      exact ⟨rfl, rfl⟩

end

/-- A fresh name in the form that the search is about: of all numbers from two upwards the least that is free. -/
theorem fresh_least (seen : List String) (name : String) :
    name ∉ seen ∧ fresh seen name = name ∨
    name ∈ seen ∧ ∃ n, 2 ≤ n ∧ n ≤ seen.length + 2 ∧ fresh seen name = name ++ Numeral.render n ∧
      fresh seen name ∉ seen ∧ ∀ m, 2 ≤ m → m < n → name ++ Numeral.render m ∈ seen := by
  by_cases isTaken : name ∈ seen
  · obtain ⟨chosen, found⟩ := exists_free seen name
    have same : fresh seen name = chosen := by
      rw [fresh, if_pos isTaken, ← numbered, found, Option.getD_some]
    obtain ⟨isFree, index, inside, here, before⟩ := List.find?_eq_some_iff_getElem.1 found
    have bound : index < seen.length + 1 := by simpa [numbered] using inside
    refine .inr ⟨isTaken, index + 2, by omega, by omega, ?_, by simpa [same] using isFree, fun m two less => ?_⟩
    · rw [same, ← here]
      simp [numbered]
    · have atNumber := before (m - 2) (by omega)
      simpa [numbered, Nat.sub_add_cancel two] using atNumber
  · exact .inl ⟨isTaken, if_neg isTaken⟩

/-- A call ends with the fresh name. -/
theorem call_fresh (seen : List String) (name : String) :
    Call seen.toFinset name (fresh seen name) (insert (fresh seen name) seen.toFinset) := by
  rcases fresh_least seen name with ⟨isFree, same⟩ | ⟨isTaken, n, two, -, same, isFree, below⟩
  · rw [same]
    exact .free (by simpa using isFree)
  · refine .taken (by simpa using isTaken) ?_
    rw [same] at isFree ⊢
    have apart : n = 2 + (n - 2) := by omega
    rw [apart] at isFree ⊢
    exact .of_least _ (by simpa using isFree) fun m above less => by simpa using below m above (by omega)

theorem calls_freshAll (seen names : List String) :
    Calls seen.toFinset names (freshAll seen names) (seen.toFinset ∪ (freshAll seen names).toFinset) := by
  induction names generalizing seen with
  | nil => simpa [freshAll] using Calls.nil
  | cons name names ih =>
    have later := ih (fresh seen name :: seen)
    rw [List.toFinset_cons] at later
    rw [freshAll, List.toFinset_cons, Finset.union_insert, ← Finset.insert_union]
    exact .cons (call_fresh seen name) later

/-- Every call ends, in one way only: with the name itself if it is free and otherwise with the least number from two
upwards that makes it so. It adds its result and nothing else, so that the results of any calls with one set among
them differ. -/
theorem call_spec (seen names : List String) (name : String) :
    (∀ chosen after, Call seen.toFinset name chosen after ↔
      chosen = fresh seen name ∧ after = insert (fresh seen name) seen.toFinset) ∧
    fresh seen name ∉ seen ∧
    (name ∉ seen ∧ fresh seen name = name ∨
      name ∈ seen ∧ ∃ n, 2 ≤ n ∧ n ≤ seen.length + 2 ∧ fresh seen name = name ++ Numeral.render n ∧
        ∀ m, 2 ≤ m → m < n → name ++ Numeral.render m ∈ seen) ∧
    (∀ results after, Calls seen.toFinset names results after ↔
      results = freshAll seen names ∧ after = seen.toFinset ∪ (freshAll seen names).toFinset) ∧
    (freshAll seen names).Nodup ∧ ∀ chosen ∈ freshAll seen names, chosen ∉ seen := by
  refine ⟨fun chosen after => ⟨fun call => call.unique (call_fresh seen name), ?_⟩, (fresh_spec seen name).1, ?_,
    fun results after => ⟨fun calls => calls.unique (calls_freshAll seen names), ?_⟩, nodup_freshAll seen names⟩
  · rintro ⟨rfl, rfl⟩
    exact call_fresh seen name
  · rcases fresh_least seen name with kept | ⟨isTaken, n, two, bound, same, -, below⟩
    · exact .inl kept
    · exact .inr ⟨isTaken, n, two, bound, same, below⟩
  · rintro ⟨rfl, rfl⟩
    exact calls_freshAll seen names

end ContractBuild.Name
