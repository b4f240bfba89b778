import Mathlib.Data.List.Basic
import Mathlib.Data.List.Induction
import ContractBuild.Interface.Flatten

/-!
The first of the elements with each key, and what the groups of an interface and the distinct
shapes of a group have to do with it.
-/
namespace ContractBuild

variable {α κ : Type} [DecidableEq κ] {key : α → κ}

def firstOfEach (key : α → κ) : List α → List α
  | [] => []
  | x :: xs => x :: (firstOfEach key xs).filter fun other => key other ≠ key x

/-- No key comes twice. -/
theorem nodup_firstOfEach (key : α → κ) (xs : List α) : ((firstOfEach key xs).map key).Nodup := by
  induction xs with
  | nil => exact .nil
  | cons x xs ih =>
    rw [firstOfEach, List.map_cons, List.nodup_cons]
    refine ⟨?_, ih.sublist (List.filter_sublist.map key)⟩
    intro inside
    obtain ⟨other, member, same⟩ := List.mem_map.1 inside
    simpa [same] using (List.mem_filter.1 member).2

/-- What is found under a key is the first element with it. -/
theorem find?_firstOfEach (key : α → κ) (xs : List α) (k : κ) :
    (firstOfEach key xs).find? (key · = k) = xs.find? (key · = k) := by
  induction xs with
  | nil => rfl
  | cons x xs ih =>
    rw [firstOfEach, List.find?_cons, List.find?_cons]
    cases same : decide (key x = k) with
    | true => rfl
    | false =>
      dsimp only
      rw [List.find?_filter, ← ih]
      congr 1
      funext other
      by_cases equal : key other = k
      · have differs : ¬ k = key x := fun back => of_decide_eq_false same back.symm
        simp [equal, differs]
      · simp [equal]

/-- No key is lost. -/
theorem mem_keys_firstOfEach {xs : List α} {k : κ} :
    k ∈ (firstOfEach key xs).map key ↔ k ∈ xs.map key := by
  have found : ∀ list : List α, k ∈ list.map key ↔ (list.find? (key · = k)).isSome := by
    intro list
    simp [List.find?_isSome]
  rw [found, found, find?_firstOfEach]

theorem firstOfEach_append (key : α → κ) (xs ys : List α) :
    firstOfEach key (xs ++ ys) =
      firstOfEach key xs ++ (firstOfEach key ys).filter fun y => key y ∉ xs.map key := by
  induction xs with
  | nil => exact (List.filter_eq_self.2 (by simp)).symm
  | cons x xs ih =>
    rw [List.cons_append, firstOfEach, ih, List.filter_append, firstOfEach, List.cons_append,
      List.filter_filter]
    congr 2
    apply List.filter_congr
    intro y _
    simp [not_or]

theorem firstOfEach_append_singleton (key : α → κ) (xs : List α) (x : α) :
    firstOfEach key (xs ++ [x]) =
      if key x ∈ xs.map key then firstOfEach key xs else firstOfEach key xs ++ [x] := by
  rw [firstOfEach_append]
  by_cases inside : key x ∈ xs.map key
  · rw [if_pos inside]
    simpa [firstOfEach] using inside
  · rw [if_neg inside]
    simpa [firstOfEach] using inside

/-- Where no key comes twice, every element is the first. -/
theorem firstOfEach_of_nodup {xs : List α} (nodup : (xs.map key).Nodup) : firstOfEach key xs = xs := by
  induction xs with
  | nil => rfl
  | cons x xs ih =>
    rw [List.map_cons, List.nodup_cons] at nodup
    rw [firstOfEach, ih nodup.2, List.filter_eq_self.2]
    intro other member
    rw [decide_eq_true_eq]
    exact fun same => nodup.1 (same ▸ List.mem_map_of_mem member)

theorem map_firstOfEach (key : α → κ) (xs : List α) :
    (firstOfEach key xs).map key = firstOfEach id (xs.map key) := by
  induction xs with
  | nil => rfl
  | cons x xs ih =>
    rw [firstOfEach, List.map_cons, List.map_cons, firstOfEach, ← ih, List.filter_map]
    rfl

/-- Values that come from one element each come first where the element does. -/
theorem firstOfEach_filterMap [DecidableEq α] {f : α → Option κ}
    (injective : ∀ {x y k}, f x = some k → f y = some k → x = y) (xs : List α) :
    firstOfEach id (xs.filterMap f) = (firstOfEach id xs).filterMap f := by
  induction xs with
  | nil => rfl
  | cons x xs ih =>
    cases value : f x with
    | none =>
      rw [List.filterMap_cons_none value, ih, firstOfEach, List.filterMap_cons_none value, List.filterMap_filter]
      apply List.filterMap_congr
      intro y _
      by_cases same : y = x
      · simp [same, value]
      · simp [same]
    | some b =>
      rw [List.filterMap_cons_some value, firstOfEach, ih, firstOfEach, List.filterMap_cons_some value,
        List.filter_filterMap, List.filterMap_filter]
      congr 1
      apply List.filterMap_congr
      intro y _
      by_cases same : y = x
      · simp [same, value]
      · cases other : f y with
        | none => simp
        | some c =>
          have differs : c ≠ b := fun equal => same (injective other (equal ▸ value))
          simp [same, differs]

private theorem find?_of_mem {xs : List α} (nodup : (xs.map key).Nodup) {x : α} (member : x ∈ xs) :
    xs.find? (key · = key x) = some x := by
  induction xs with
  | nil => cases member
  | cons first xs ih =>
    rw [List.map_cons, List.nodup_cons] at nodup
    rcases List.mem_cons.1 member with rfl | inside
    · simp
    · have differs : key first ≠ key x := fun same => nodup.1 (same ▸ List.mem_map_of_mem inside)
      rw [List.find?_cons_of_neg (by simpa using differs), ih nodup.2 inside]

/-- The first elements are those that are found under the keys. -/
theorem firstOfEach_eq_filterMap (key : α → κ) (xs : List α) :
    firstOfEach key xs = (firstOfEach id (xs.map key)).filterMap fun k => xs.find? (key · = k) := by
  have itself : ∀ x ∈ firstOfEach key xs, xs.find? (key · = key x) = some x := by
    intro x member
    rw [← find?_firstOfEach, find?_of_mem (nodup_firstOfEach key xs) member]
  rw [← map_firstOfEach, List.filterMap_map]
  exact ((List.filterMap_congr itself).trans List.filterMap_some).symm

/-- A value joins the group of its key, or a group of its own behind the others. -/
theorem addToGroup_map {ks : List κ} (nodup : ks.Nodup) (members : κ → List α) (k : κ) (value : α) :
    addToGroup k value (ks.map fun other => (other, members other)) =
      if k ∈ ks then ks.map fun other =>
        (other, if other = k then members other ++ [value] else members other)
      else (ks.map fun other => (other, members other)) ++ [(k, [value])] := by
  induction ks with
  | nil => rfl
  | cons first ks ih =>
    rw [List.nodup_cons] at nodup
    rw [List.map_cons, addToGroup]
    by_cases same : first = k
    · subst same
      rw [if_pos rfl, if_pos List.mem_cons_self, List.map_cons, if_pos rfl]
      congr 1
      apply List.map_congr_left
      intro other member
      have differs : other ≠ first := fun equal => nodup.1 (equal ▸ member)
      rw [if_neg differs]
    · rw [if_neg same, ih nodup.2]
      by_cases inside : k ∈ ks
      · rw [if_pos inside, if_pos (List.mem_cons_of_mem _ inside), List.map_cons, if_neg same]
      · rw [if_neg inside, if_neg (by simp [Ne.symm same, inside]), List.cons_append]

theorem foldl_addToGroup (key : α → κ) (xs : List α) :
    xs.foldl (fun groups x => addToGroup (key x) x groups) [] =
      (firstOfEach id (xs.map key)).map fun k => (k, xs.filter (key · = k)) := by
  induction xs using List.reverseRecOn with
  | nil => rfl
  | append_singleton xs x ih =>
    have nodup : (firstOfEach id (xs.map key)).Nodup := by
      rw [← map_firstOfEach]
      exact nodup_firstOfEach key xs
    have known : key x ∈ firstOfEach id (xs.map key) ↔ key x ∈ xs.map key := by
      rw [← map_firstOfEach]
      exact mem_keys_firstOfEach
    rw [List.foldl_append, List.foldl_cons, List.foldl_nil, ih, addToGroup_map nodup, List.map_append,
      List.map_cons, List.map_nil, firstOfEach_append_singleton]
    simp only [List.map_id, id, known]
    by_cases inside : key x ∈ xs.map key
    · rw [if_pos inside, if_pos inside]
      apply List.map_congr_left
      intro k _
      by_cases same : k = key x
      · simp [List.filter_append, same]
      · simp [List.filter_append, same, Ne.symm same]
    · have alone : xs.filter (fun other => key other = key x) = [] :=
        List.filter_eq_nil_iff.2 fun other member same =>
          inside (of_decide_eq_true same ▸ List.mem_map_of_mem member)
      rw [if_neg inside, if_neg inside, List.map_append]
      congr 1
      · apply List.map_congr_left
        intro k member
        have differs : key x ≠ k := by
          rintro rfl
          exact inside (known.1 member)
        simp [List.filter_append, differs]
      · simp [List.filter_append, alone]

namespace Descriptor

def symbols (descriptor : Descriptor) : List Symbol :=
  descriptor.items.map Item.symbol

def itemsOf (descriptor : Descriptor) (symbol : Symbol) : List Item :=
  descriptor.items.filter (·.symbol = symbol)

theorem grouped_eq (descriptor : Descriptor) :
    descriptor.grouped =
      (firstOfEach id descriptor.symbols).map fun symbol => (symbol, descriptor.itemsOf symbol) :=
  foldl_addToGroup Item.symbol descriptor.items

end Descriptor

theorem Flatten.distinctShapes_eq (seen : List Shape) (items : List Item) :
    distinctShapes seen items = (firstOfEach Item.shape items).filter fun item => item.shape ∉ seen := by
  induction items generalizing seen with
  | nil => rfl
  | cons item items ih =>
    rw [distinctShapes, firstOfEach]
    by_cases known : item.shape ∈ seen
    · rw [if_pos known, ih, List.filter_cons_of_neg (by simpa using known), List.filter_filter]
      apply List.filter_congr
      intro other _
      by_cases same : other.shape = item.shape
      · simp [same, known]
      · simp [same]
    · rw [if_neg known, ih, List.filter_cons_of_pos (by simpa using known), List.filter_filter]
      congr 1
      apply List.filter_congr
      intro other _
      simp [not_or, Bool.and_comm]

end ContractBuild
