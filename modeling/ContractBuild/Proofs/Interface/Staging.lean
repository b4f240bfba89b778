import ContractBuild.Proofs.Basic
import ContractBuild.Proofs.Interface.Merge

/-!
Merging in stages and in another order. What is merged stands for the descriptors that it is merged
of: it has their symbols, each with the same shapes, and merging it again changes nothing.
-/
namespace ContractBuild

theorem firstOfEach_idem {α κ : Type} [DecidableEq κ] (key : α → κ) (xs : List α) :
    firstOfEach key (firstOfEach key xs) = firstOfEach key xs :=
  firstOfEach_of_nodup (nodup_firstOfEach key xs)

theorem mem_firstOfEach_id {κ : Type} [DecidableEq κ] {xs : List κ} {k : κ} : k ∈ firstOfEach id xs ↔ k ∈ xs := by
  have keys := @mem_keys_firstOfEach κ κ _ id xs k
  rwa [List.map_id, List.map_id] at keys

theorem mem_of_mem_firstOfEach {α κ : Type} [DecidableEq κ] {key : α → κ} {xs : List α} {x : α}
    (member : x ∈ firstOfEach key xs) : x ∈ xs := by
  induction xs with
  | nil => exact member
  | cons first xs ih =>
    rcases List.mem_cons.1 member with rfl | inside
    · exact List.mem_cons_self
    · exact List.mem_cons_of_mem _ (ih (List.mem_of_mem_filter inside))

section
variable {α κ : Type} [DecidableEq κ] {key : α → κ} {ks : List κ} {members : κ → List α}

/-- Groups that are put in a row are found again. -/
theorem filter_flatMap_groups (nodup : ks.Nodup) (keyed : ∀ k ∈ ks, ∀ x ∈ members k, key x = k) {k : κ}
    (listed : k ∈ ks) : (ks.flatMap members).filter (key · = k) = members k := by
  induction ks with
  | nil => cases listed
  | cons first ks ih =>
    obtain ⟨here, others⟩ := List.forall_mem_cons.1 keyed
    obtain ⟨absent, nodup⟩ := List.nodup_cons.1 nodup
    rw [List.flatMap_cons, List.filter_append]
    by_cases same : first = k
    · subst same
      have own : (members first).filter (key · = first) = members first :=
        List.filter_eq_self.2 fun x member => decide_eq_true (here x member)
      have none : (ks.flatMap members).filter (key · = first) = [] := by
        rw [List.filter_eq_nil_iff]
        intro x member found
        obtain ⟨other, inside, group⟩ := List.mem_flatMap.1 member
        have equal : first = other := (of_decide_eq_true found).symm.trans (others other inside x group)
        exact absent (equal ▸ inside)
      rw [own, none, List.append_nil]
    · have none : (members first).filter (key · = k) = [] := by
        rw [List.filter_eq_nil_iff]
        intro x member found
        exact same ((here x member).symm.trans (of_decide_eq_true found))
      rw [none, List.nil_append]
      exact ih nodup others ((List.mem_cons.1 listed).resolve_left (Ne.symm same))

theorem firstOfEach_flatMap_groups (nodup : ks.Nodup) (keyed : ∀ k ∈ ks, ∀ x ∈ members k, key x = k)
    (filled : ∀ k ∈ ks, members k ≠ []) : firstOfEach id ((ks.flatMap members).map key) = ks := by
  induction ks with
  | nil => rfl
  | cons k ks ih =>
    obtain ⟨here, others⟩ := List.forall_mem_cons.1 keyed
    obtain ⟨written, filled⟩ := List.forall_mem_cons.1 filled
    obtain ⟨absent, nodup⟩ := List.nodup_cons.1 nodup
    have keys : ∀ other ∈ (members k).map key, other = k := List.forall_mem_map.2 here
    have single : firstOfEach id ((members k).map key) = [k] := by
      obtain ⟨x, xs, split⟩ := List.exists_cons_of_ne_nil written
      have first : key x = k := here x (split ▸ List.mem_cons_self)
      rw [split, List.map_cons, firstOfEach, first, List.filter_eq_nil_iff.2]
      intro other member
      have inside : other ∈ (members k).map key := by
        rw [split, List.map_cons]
        exact List.mem_cons_of_mem _ (mem_firstOfEach_id.1 member)
      simp [keys other inside]
    have apart : ks.filter (fun other => id other ∉ ((members k).map key).map id) = ks := by
      rw [List.filter_eq_self, List.map_id]
      intro other member
      rw [decide_eq_true_eq]
      exact fun inside => absent (keys other inside ▸ member)
    rw [List.flatMap_cons, List.map_append, firstOfEach_append, single, ih nodup others filled, apart]
    rfl

end

namespace Descriptor

/-- Where the descriptors are without conflict, merging gives their items. -/
theorem flatten_eq_ok {name : String} {descriptors : List Descriptor} {merged : Descriptor} :
    flatten name descriptors = .ok merged ↔
      ¬ Conflicting descriptors ∧ merged = ⟨name, mergedItems descriptors⟩ := by
  unfold flatten
  rw [Flatten.mergeDescriptors_eq]
  rcases Flatten.foldlM_add_cases (declarations descriptors) with
    ⟨agreeing, added⟩ | ⟨front, next, back, first, split, agreeing, found, differ, failed⟩
  · rw [added, ← Flatten.items_mergedFrom, and_iff_right (agreeing_declarations.1 agreeing)]
    show Except.ok (Descriptor.mk name _) = _ ↔ _
    rw [Except.ok.injEq, eq_comm]
  · obtain ⟨before, origin, between, second, after, rfl, rfl, rfl, conflict⟩ :=
      Flatten.firstConflict_of_stray split agreeing found differ
    have conflicting : Conflicting (before ++ first.1 :: between ++ next.1 :: after) :=
      ⟨first.1, by simp, next.1, by simp, next.2, conflict.conflict⟩
    rw [failed]
    exact ⟨nofun, fun settled => absurd conflicting settled.1⟩

def callable (descriptors : List Descriptor) : List Symbol :=
  (firstOfEach id (descriptors.flatMap symbols)).filter (· ≠ .constructor)

def kept (descriptors : List Descriptor) (symbol : Symbol) : List Item :=
  match descriptors.find? (symbol ∈ ·.symbols) with
  | some first => firstOfEach Item.shape (first.itemsOf symbol)
  | none => []

theorem mergedItems_eq (descriptors : List Descriptor) :
    mergedItems descriptors = (callable descriptors).flatMap (kept descriptors) := rfl

section
variable {descriptors : List Descriptor} {descriptor : Descriptor} {symbol : Symbol} {name : String}

theorem mem_callable :
    symbol ∈ callable descriptors ↔
      (∃ descriptor ∈ descriptors, symbol ∈ descriptor.symbols) ∧ symbol ≠ .constructor := by
  rw [callable, List.mem_filter, mem_firstOfEach_id, List.mem_flatMap, decide_eq_true_eq]

theorem nodup_callable (descriptors : List Descriptor) : (callable descriptors).Nodup := by
  have nodup := nodup_firstOfEach id (descriptors.flatMap symbols)
  rw [List.map_id] at nodup
  exact nodup.filter _

theorem mem_firstOfEach_of_shapes {shape : Shape} {items : List Item} :
    (∃ item ∈ firstOfEach Item.shape items, item.shape = shape) ↔ ∃ item ∈ items, item.shape = shape := by
  have keys := @mem_keys_firstOfEach Item Shape _ Item.shape items shape
  rwa [List.mem_map, List.mem_map] at keys

theorem exists_kept (listed : symbol ∈ callable descriptors) :
    ∃ first ∈ descriptors, symbol ∈ first.symbols ∧
      kept descriptors symbol = firstOfEach Item.shape (first.itemsOf symbol) := by
  obtain ⟨⟨descriptor, member, has⟩, -⟩ := mem_callable.1 listed
  cases found : descriptors.find? (symbol ∈ ·.symbols) with
  | none => exact absurd (decide_eq_true has) (List.find?_eq_none.1 found descriptor member)
  | some first =>
    refine ⟨first, List.mem_of_find?_eq_some found, ?_, ?_⟩
    · simpa using List.find?_some found
    · rw [kept, found]

theorem symbol_of_kept {item : Item} (member : item ∈ kept descriptors symbol) : item.symbol = symbol := by
  rw [kept] at member
  split at member
  · next first _ =>
    have inside := mem_of_mem_firstOfEach member
    rw [itemsOf, List.mem_filter, decide_eq_true_eq] at inside
    exact inside.2
  · cases member

theorem kept_ne_nil (listed : symbol ∈ callable descriptors) : kept descriptors symbol ≠ [] := by
  obtain ⟨first, -, has, kept⟩ := exists_kept listed
  obtain ⟨item, member, rfl⟩ := List.mem_map.1 has
  have declared : item ∈ first.itemsOf item.symbol := by
    rw [itemsOf, List.mem_filter]
    exact ⟨member, decide_eq_true rfl⟩
  obtain ⟨other, inside, -⟩ := mem_firstOfEach_of_shapes.2 ⟨item, declared, rfl⟩
  rw [kept]
  exact List.ne_nil_of_mem inside

def merging (name : String) (descriptors : List Descriptor) : Descriptor :=
  ⟨name, mergedItems descriptors⟩

theorem firstOfEach_symbols_merging :
    firstOfEach id (merging name descriptors).symbols = callable descriptors :=
  firstOfEach_flatMap_groups (nodup_callable descriptors) (fun _ _ _ => symbol_of_kept) fun _ => kept_ne_nil

theorem mem_symbols_merging : symbol ∈ (merging name descriptors).symbols ↔ symbol ∈ callable descriptors := by
  rw [← firstOfEach_symbols_merging, mem_firstOfEach_id]

theorem itemsOf_merging (listed : symbol ∈ callable descriptors) :
    (merging name descriptors).itemsOf symbol = kept descriptors symbol :=
  filter_flatMap_groups (nodup_callable descriptors) (fun _ _ _ => symbol_of_kept) listed

/-- A symbol comes with the shapes that it has in each of the descriptors. -/
theorem sameShapes_merging (settled : ¬ Conflicting descriptors) (member : descriptor ∈ descriptors)
    (has : symbol ∈ descriptor.symbols) (reachable : symbol ≠ .constructor) :
    SameShapes symbol (merging name descriptors) descriptor := by
  have listed : symbol ∈ callable descriptors := mem_callable.2 ⟨⟨descriptor, member, has⟩, reachable⟩
  obtain ⟨first, memberToo, hasToo, keeps⟩ := exists_kept listed
  have own : SameShapes symbol (merging name descriptors) first := by
    intro shape
    rw [itemsOf_merging listed, keeps]
    exact mem_keys_firstOfEach
  -- the items are those of the first descriptor that has the symbol, which no other one contradicts
  have agree : SameShapes symbol first descriptor :=
    Classical.byContradiction fun differ =>
      settled ⟨first, memberToo, descriptor, member, symbol, reachable, hasToo, has, differ⟩
  exact own.trans agree

/-! Stages -/

theorem Conflict.symm {one other : Descriptor} (conflict : Conflict symbol one other) : Conflict symbol other one :=
  ⟨conflict.reachable, conflict.inOther, conflict.inOne, fun same => conflict.differ same.symm⟩

theorem Conflict.ne {one other : Descriptor} (conflict : Conflict symbol one other) : one ≠ other := by
  rintro rfl
  exact conflict.differ (.refl symbol one)

end

section
variable {xs ys : List Descriptor} {left right : String}

theorem not_conflicting_singleton (descriptor : Descriptor) : ¬ Conflicting [descriptor] := by
  rintro ⟨one, member, other, memberToo, symbol, conflict⟩
  exact conflict.ne ((List.mem_singleton.1 member).trans (List.mem_singleton.1 memberToo).symm)

theorem conflicting_pair {one other : Descriptor} :
    Conflicting [one, other] ↔ ∃ symbol, Conflict symbol one other := by
  constructor
  · rintro ⟨first, member, second, memberToo, symbol, conflict⟩
    simp only [List.mem_cons, List.not_mem_nil, or_false] at member memberToo
    obtain rfl | rfl := member <;> obtain rfl | rfl := memberToo
    · exact absurd rfl conflict.ne
    · exact ⟨symbol, conflict⟩
    · exact ⟨symbol, conflict.symm⟩
    · exact absurd rfl conflict.ne
  · rintro ⟨symbol, conflict⟩
    exact ⟨one, by simp, other, by simp, symbol, conflict⟩

theorem conflicting_append :
    Conflicting (xs ++ ys) ↔ Conflicting xs ∨ Conflicting ys ∨
      ∃ one ∈ xs, ∃ other ∈ ys, ∃ symbol, Conflict symbol one other := by
  constructor
  · rintro ⟨one, member, other, memberToo, symbol, conflict⟩
    rcases List.mem_append.1 member with inside | inside <;>
      rcases List.mem_append.1 memberToo with insideToo | insideToo
    · exact .inl ⟨one, inside, other, insideToo, symbol, conflict⟩
    · exact .inr (.inr ⟨one, inside, other, insideToo, symbol, conflict⟩)
    · exact .inr (.inr ⟨other, insideToo, one, inside, symbol, conflict.symm⟩)
    · exact .inr (.inl ⟨one, inside, other, insideToo, symbol, conflict⟩)
  · rintro (⟨one, member, other, memberToo, conflict⟩ | ⟨one, member, other, memberToo, conflict⟩ |
      ⟨one, member, other, memberToo, conflict⟩)
    · exact ⟨one, List.mem_append_left _ member, other, List.mem_append_left _ memberToo, conflict⟩
    · exact ⟨one, List.mem_append_right _ member, other, List.mem_append_right _ memberToo, conflict⟩
    · exact ⟨one, List.mem_append_left _ member, other, List.mem_append_right _ memberToo, conflict⟩

/-- What two lists are merged into is in conflict exactly if a descriptor of the one is with a descriptor of
the other. -/
theorem conflict_merging_iff {symbol : Symbol} (settled : ¬ Conflicting xs) (settledToo : ¬ Conflicting ys) :
    Conflict symbol (merging left xs) (merging right ys) ↔ ∃ one ∈ xs, ∃ other ∈ ys, Conflict symbol one other := by
  constructor
  · rintro ⟨reachable, inOne, inOther, differ⟩
    obtain ⟨⟨one, member, has⟩, -⟩ := mem_callable.1 (mem_symbols_merging.1 inOne)
    obtain ⟨⟨other, memberToo, hasToo⟩, -⟩ := mem_callable.1 (mem_symbols_merging.1 inOther)
    -- shapes that agree between two origins agree between what is merged, as it has the shapes of its origins
    refine ⟨one, member, other, memberToo, reachable, has, hasToo, fun same => differ ?_⟩
    exact ((sameShapes_merging settled member has reachable).trans same).trans
      (sameShapes_merging settledToo memberToo hasToo reachable).symm
  · rintro ⟨one, member, other, memberToo, reachable, has, hasToo, differ⟩
    refine ⟨reachable, mem_symbols_merging.2 (mem_callable.2 ⟨⟨one, member, has⟩, reachable⟩),
      mem_symbols_merging.2 (mem_callable.2 ⟨⟨other, memberToo, hasToo⟩, reachable⟩), fun same => differ ?_⟩
    exact ((sameShapes_merging settled member has reachable).symm.trans same).trans
      (sameShapes_merging settledToo memberToo hasToo reachable)

theorem conflicting_append_iff (left right : String) :
    Conflicting (xs ++ ys) ↔ Conflicting xs ∨ Conflicting ys ∨ Conflicting [merging left xs, merging right ys] := by
  rw [conflicting_append, conflicting_pair]
  by_cases settled : Conflicting xs
  · exact iff_of_true (.inl settled) (.inl settled)
  · by_cases settledToo : Conflicting ys
    · exact iff_of_true (.inr (.inl settledToo)) (.inr (.inl settledToo))
    · simp only [settled, settledToo, false_or, conflict_merging_iff settled settledToo]
      constructor
      · rintro ⟨one, member, other, memberToo, symbol, conflict⟩
        exact ⟨symbol, one, member, other, memberToo, conflict⟩
      · rintro ⟨symbol, one, member, other, memberToo, conflict⟩
        exact ⟨one, member, other, memberToo, symbol, conflict⟩

theorem callable_append : callable (xs ++ ys) = callable xs ++ (callable ys).filter (· ∉ callable xs) := by
  rw [callable, List.flatMap_append, firstOfEach_append, List.filter_append, List.filter_filter]
  show callable xs ++ _ =
    callable xs ++ ((firstOfEach id (ys.flatMap symbols)).filter (· ≠ .constructor)).filter (· ∉ callable xs)
  rw [List.filter_filter]
  congr 1
  apply List.filter_congr
  intro symbol _
  by_cases reachable : symbol = .constructor
  · simp [reachable]
  · simp [reachable, mem_callable]

theorem callable_merging (name : String) (descriptors : List Descriptor) :
    callable [merging name descriptors] = callable descriptors := by
  have whole : [merging name descriptors].flatMap symbols = (merging name descriptors).symbols := by simp
  rw [callable, whole, firstOfEach_symbols_merging, List.filter_eq_self]
  intro symbol listed
  exact decide_eq_true (mem_callable.1 listed).2

theorem kept_append {symbol : Symbol} (reachable : symbol ≠ .constructor) :
    kept (xs ++ ys) symbol = if symbol ∈ callable xs then kept xs symbol else kept ys symbol := by
  rw [kept, List.find?_append]
  cases found : xs.find? (symbol ∈ ·.symbols) with
  | none =>
    have absent : symbol ∉ callable xs := by
      intro listed
      obtain ⟨⟨descriptor, member, has⟩, -⟩ := mem_callable.1 listed
      exact List.find?_eq_none.1 found descriptor member (decide_eq_true has)
    rw [if_neg absent]
    rfl
  | some first =>
    have has : symbol ∈ first.symbols := by simpa using List.find?_some found
    have listed : symbol ∈ callable xs :=
      mem_callable.2 ⟨⟨first, List.mem_of_find?_eq_some found, has⟩, reachable⟩
    rw [if_pos listed, kept, found]
    rfl

theorem kept_merging {name : String} {descriptors : List Descriptor} {symbol : Symbol}
    (listed : symbol ∈ callable descriptors) : kept [merging name descriptors] symbol = kept descriptors symbol := by
  have has : symbol ∈ (merging name descriptors).symbols := mem_symbols_merging.2 listed
  have found : [merging name descriptors].find? (symbol ∈ ·.symbols) = some (merging name descriptors) := by
    simp [has]
  obtain ⟨first, -, -, keeps⟩ := exists_kept listed
  rw [kept, found]
  show firstOfEach Item.shape ((merging name descriptors).itemsOf symbol) = _
  rw [itemsOf_merging listed, keeps, firstOfEach_idem]

theorem mergedItems_merging (name : String) (descriptors : List Descriptor) :
    mergedItems [merging name descriptors] = mergedItems descriptors := by
  rw [mergedItems_eq, mergedItems_eq, callable_merging]
  exact List.flatMap_congr fun symbol listed => kept_merging listed

theorem mergedItems_append (left right : String) (xs ys : List Descriptor) :
    mergedItems [merging left xs, merging right ys] = mergedItems (xs ++ ys) := by
  have symbols : callable ([merging left xs] ++ [merging right ys]) = callable (xs ++ ys) := by
    rw [callable_append, callable_append, callable_merging, callable_merging]
  show mergedItems ([merging left xs] ++ [merging right ys]) = _
  rw [mergedItems_eq, mergedItems_eq, symbols]
  apply List.flatMap_congr
  intro symbol listed
  -- a symbol of both lists is kept as the first list has it, on either side
  have reachable := (mem_callable.1 listed).2
  rw [kept_append reachable, kept_append reachable, callable_merging]
  by_cases inside : symbol ∈ callable xs
  · rw [if_pos inside, if_pos inside, kept_merging inside]
  · rw [callable_append, List.mem_append, List.mem_filter] at listed
    rw [if_neg inside, if_neg inside, kept_merging (listed.resolve_left inside).1]

end

/-! Order -/

section
variable {xs ys : List Descriptor}

theorem conflicting_perm (order : xs.Perm ys) : Conflicting xs ↔ Conflicting ys := by
  simp only [Conflicting, order.mem_iff]

def shapes (descriptor : Descriptor) : List (Symbol × Shape) :=
  descriptor.items.map fun item => (item.symbol, item.shape)

theorem mem_shapes_merging {descriptors : List Descriptor} (settled : ¬ Conflicting descriptors) (name : String)
    (symbol : Symbol) (shape : Shape) :
    (symbol, shape) ∈ (merging name descriptors).shapes ↔
      symbol ≠ .constructor ∧ ∃ descriptor ∈ descriptors, (symbol, shape) ∈ descriptor.shapes := by
  have declared : ∀ descriptor : Descriptor,
      (symbol, shape) ∈ descriptor.shapes ↔ shape ∈ (descriptor.itemsOf symbol).map Item.shape := by
    intro descriptor
    simp only [shapes, List.mem_map, itemsOf, List.mem_filter, decide_eq_true_eq, Prod.mk.injEq]
    constructor
    · rintro ⟨item, member, same, rfl⟩
      exact ⟨item, ⟨member, same⟩, rfl⟩
    · rintro ⟨item, ⟨member, same⟩, rfl⟩
      exact ⟨item, member, same, rfl⟩
  have has : ∀ descriptor : Descriptor, shape ∈ (descriptor.itemsOf symbol).map Item.shape →
      symbol ∈ descriptor.symbols := by
    intro descriptor inside
    obtain ⟨item, member, -⟩ := List.mem_map.1 inside
    rw [itemsOf, List.mem_filter, decide_eq_true_eq] at member
    exact List.mem_map.2 ⟨item, member⟩
  simp only [declared]
  constructor
  · intro inside
    obtain ⟨⟨descriptor, member, own⟩, reachable⟩ := mem_callable.1 (mem_symbols_merging.1 (has _ inside))
    exact ⟨reachable, descriptor, member, (sameShapes_merging settled member own reachable shape).1 inside⟩
  · rintro ⟨reachable, descriptor, member, inside⟩
    exact (sameShapes_merging settled member (has _ inside) reachable shape).2 inside

end

/-- Merging two lists, one behind the other, comes to the items that merging them in stages comes to, and fails
where one of the stages fails; what was merged stays as it is when it is merged again. The order of descriptors
decides neither whether they can be merged nor which shapes the symbols come with. -/
theorem flatten_in_stages :
    (∀ (name left right outer : String) (xs ys : List Descriptor) (items : List Item),
      (∃ merged, flatten name (xs ++ ys) = .ok merged ∧ merged.items = items) ↔
        ∃ first second merged, flatten left xs = .ok first ∧ flatten right ys = .ok second ∧
          flatten outer [first, second] = .ok merged ∧ merged.items = items) ∧
    (∀ (name again : String) (xs : List Descriptor) (merged : Descriptor), flatten name xs = .ok merged →
      flatten again [merged] = .ok ⟨again, merged.items⟩) ∧
    ∀ (name other : String) (xs ys : List Descriptor), xs.Perm ys →
      ((∃ merged, flatten name xs = .ok merged) ↔ ∃ merged, flatten other ys = .ok merged) ∧
      ∀ first second, flatten name xs = .ok first → flatten other ys = .ok second →
        ∀ pair, pair ∈ first.shapes ↔ pair ∈ second.shapes := by
  refine ⟨?_, ?_, ?_⟩
  · intro name left right outer xs ys items
    constructor
    · rintro ⟨merged, flat, rfl⟩
      obtain ⟨settled, rfl⟩ := flatten_eq_ok.1 flat
      rw [conflicting_append_iff left right, not_or, not_or] at settled
      obtain ⟨first, second, both⟩ := settled
      exact ⟨merging left xs, merging right ys, _, flatten_eq_ok.2 ⟨first, rfl⟩, flatten_eq_ok.2 ⟨second, rfl⟩,
        flatten_eq_ok.2 ⟨both, rfl⟩, mergedItems_append left right xs ys⟩
    · rintro ⟨first, second, merged, flat, flatToo, both, rfl⟩
      obtain ⟨settled, rfl⟩ := flatten_eq_ok.1 flat
      obtain ⟨settledToo, rfl⟩ := flatten_eq_ok.1 flatToo
      obtain ⟨settledBoth, rfl⟩ := flatten_eq_ok.1 both
      have apart : ¬ Conflicting (xs ++ ys) := by
        rw [conflicting_append_iff left right, not_or, not_or]
        exact ⟨settled, settledToo, settledBoth⟩
      exact ⟨_, flatten_eq_ok.2 ⟨apart, rfl⟩, (mergedItems_append left right xs ys).symm⟩
  · intro name again xs merged flat
    obtain ⟨-, rfl⟩ := flatten_eq_ok.1 flat
    refine flatten_eq_ok.2 ⟨not_conflicting_singleton _, ?_⟩
    show _ = Descriptor.mk again (mergedItems [merging name xs])
    rw [mergedItems_merging]
  · intro name other xs ys order
    have settled := conflicting_perm order
    refine ⟨?_, ?_⟩
    · simp only [flatten_eq_ok, exists_and_left, exists_eq, and_true, settled]
    · intro first second flat flatToo
      obtain ⟨apart, rfl⟩ := flatten_eq_ok.1 flat
      obtain ⟨apartToo, rfl⟩ := flatten_eq_ok.1 flatToo
      rintro ⟨symbol, shape⟩
      refine (mem_shapes_merging apart name symbol shape).trans ?_
      rw [← merging, mem_shapes_merging apartToo other symbol shape]
      simp only [order.mem_iff]

def vault : Descriptor where
  name := "Vault"
  items := [
    .constructor [] .nonpayable,
    .function "deposit" [.plain "amount" "uint256"] [] .payable none,
    .function "owner" [] [.plain "" "address"] .view none]

def registry : Descriptor where
  name := "Registry"
  items := [
    .event "Listed" [.plain "entry" "address"] false,
    .function "owner" [] [.plain "holder" "address"] .view (some 2603)]

theorem flatten_in_stages_vault :
    ∃ first second merged reversed, flatten "Left" [vault] = .ok first ∧ flatten "Right" [registry] = .ok second ∧
      flatten "All" [first, second] = .ok merged ∧ flatten "Again" [merged] = .ok ⟨"Again", merged.items⟩ ∧
      flatten "All" [registry, vault] = .ok reversed ∧ ∀ pair, pair ∈ merged.shapes ↔ pair ∈ reversed.shapes := by
  obtain ⟨stages, again, orders⟩ := flatten_in_stages
  obtain ⟨whole, flat⟩ : ∃ whole, flatten "All" [vault, registry] = .ok whole := exists_of_isOk (by decide +kernel)
  obtain ⟨first, second, merged, left, right, both, items⟩ :=
    (stages "All" "Left" "Right" "All" [vault] [registry] whole.items).1 ⟨whole, flat, rfl⟩
  obtain ⟨same, shapes⟩ := orders "All" "All" [vault, registry] [registry, vault] (.swap _ _ [])
  obtain ⟨reversed, flatToo⟩ := same.1 ⟨whole, flat⟩
  refine ⟨first, second, merged, reversed, left, right, both, again "All" "Again" _ _ both, flatToo, ?_⟩
  intro pair
  rw [← shapes whole reversed flat flatToo, Descriptor.shapes, items, Descriptor.shapes]

end Descriptor
end ContractBuild
