import ContractBuild.Proofs.Interface.Groups

/-!
Merging interfaces. Descriptors are looked through in order, and the symbols of each in the order
of their first declaration. Merging fails at the first symbol whose set of shapes differs from that
of an earlier descriptor; where there is none, each symbol comes once for each of its shapes, with
the items of the first descriptor that has it.
-/
namespace ContractBuild

namespace Descriptor

def SameShapes (symbol : Symbol) (one other : Descriptor) : Prop :=
  ∀ shape, shape ∈ (one.itemsOf symbol).map Item.shape ↔ shape ∈ (other.itemsOf symbol).map Item.shape

structure Conflict (symbol : Symbol) (one other : Descriptor) : Prop where
  reachable : symbol ≠ .constructor
  inOne : symbol ∈ one.symbols
  inOther : symbol ∈ other.symbols
  differ : ¬ SameShapes symbol one other

def Conflicting (descriptors : List Descriptor) : Prop :=
  ∃ one ∈ descriptors, ∃ other ∈ descriptors, ∃ symbol, Conflict symbol one other

/-- The first conflict on the way: `origin` is the first descriptor with the symbol, `second` the
first behind it with another set of shapes. The descriptors in front of `second` go together, and
so do the symbols that `second` declares in front of this one with theirs. -/
structure FirstConflict (before : List Descriptor) (origin : Descriptor) (between : List Descriptor)
    (second : Descriptor) (symbol : Symbol) : Prop where
  first : ∀ descriptor ∈ before, symbol ∉ descriptor.symbols
  conflict : Conflict symbol origin second
  settled : ¬ Conflicting (before ++ origin :: between)
  earlier : ∀ other ∈ second.symbols.takeWhile (· ≠ symbol),
    ∀ descriptor ∈ before ++ origin :: between, ¬ Conflict other descriptor second

def mergedItems (descriptors : List Descriptor) : List Item :=
  ((firstOfEach id (descriptors.flatMap symbols)).filter (· ≠ .constructor)).flatMap fun symbol =>
    match descriptors.find? (symbol ∈ ·.symbols) with
    | some first => firstOfEach Item.shape (first.itemsOf symbol)
    | none => []

theorem SameShapes.refl (symbol : Symbol) (descriptor : Descriptor) :
    SameShapes symbol descriptor descriptor :=
  fun _ => .rfl

theorem SameShapes.symm {symbol : Symbol} {one other : Descriptor}
    (same : SameShapes symbol one other) : SameShapes symbol other one :=
  fun shape => (same shape).symm

theorem SameShapes.trans {symbol : Symbol} {one middle other : Descriptor}
    (first : SameShapes symbol one middle) (second : SameShapes symbol middle other) :
    SameShapes symbol one other :=
  fun shape => (first shape).trans (second shape)

/-! Declarations in the order of the scan -/

def reachable (descriptor : Descriptor) : List Symbol :=
  (firstOfEach id descriptor.symbols).filter (· ≠ .constructor)

def declarations (descriptors : List Descriptor) : List (Descriptor × Symbol) :=
  descriptors.flatMap fun descriptor => descriptor.reachable.map (descriptor, ·)

theorem mem_reachable {descriptor : Descriptor} {symbol : Symbol} :
    symbol ∈ descriptor.reachable ↔ symbol ∈ descriptor.symbols ∧ symbol ≠ .constructor := by
  have kept : symbol ∈ firstOfEach id descriptor.symbols ↔ symbol ∈ descriptor.symbols := by
    have keys : _ ↔ symbol ∈ descriptor.symbols.map id := mem_keys_firstOfEach
    simpa using keys
  rw [reachable, List.mem_filter, kept, decide_eq_true_eq]

theorem nodup_reachable (descriptor : Descriptor) : descriptor.reachable.Nodup := by
  have nodup : ((firstOfEach id descriptor.symbols).map id).Nodup := nodup_firstOfEach id _
  rw [List.map_id] at nodup
  exact nodup.filter _

theorem mem_declarations {descriptors : List Descriptor} {descriptor : Descriptor} {symbol : Symbol} :
    (descriptor, symbol) ∈ declarations descriptors ↔
      descriptor ∈ descriptors ∧ symbol ∈ descriptor.symbols ∧ symbol ≠ .constructor := by
  simp only [declarations, List.mem_flatMap, List.mem_map, mem_reachable, Prod.mk.injEq]
  constructor
  · rintro ⟨_, member, _, has, rfl, rfl⟩
    exact ⟨member, has⟩
  · rintro ⟨member, has⟩
    exact ⟨descriptor, member, symbol, has, rfl, rfl⟩

def Agreeing (declared : List (Descriptor × Symbol)) : Prop :=
  ∀ one ∈ declared, ∀ other ∈ declared, one.2 = other.2 → SameShapes one.2 one.1 other.1

theorem agreeing_declarations {descriptors : List Descriptor} :
    Agreeing (declarations descriptors) ↔ ¬ Conflicting descriptors := by
  constructor
  · rintro agreeing ⟨one, member, other, memberToo, symbol, conflict⟩
    exact conflict.differ (agreeing (one, symbol)
      (mem_declarations.2 ⟨member, conflict.inOne, conflict.reachable⟩) (other, symbol)
      (mem_declarations.2 ⟨memberToo, conflict.inOther, conflict.reachable⟩) rfl)
  · rintro settled ⟨one, symbol⟩ declared ⟨other, _⟩ declaredToo ⟨⟩
    obtain ⟨member, has, reachable⟩ := mem_declarations.1 declared
    obtain ⟨memberToo, hasToo, _⟩ := mem_declarations.1 declaredToo
    exact Classical.byContradiction fun differ =>
      settled ⟨one, member, other, memberToo, symbol, reachable, has, hasToo, differ⟩

private theorem find?_self {symbols : List Symbol} {symbol : Symbol} (member : symbol ∈ symbols) :
    symbols.find? (· = symbol) = some symbol := by
  cases found : symbols.find? (· = symbol) with
  | none => exact absurd (decide_eq_true rfl) (List.find?_eq_none.1 found symbol member)
  | some other =>
    have same : other = symbol := by simpa using List.find?_some found
    rw [same]

theorem Agreeing.snoc {declared : List (Descriptor × Symbol)} (agreeing : Agreeing declared)
    {next : Descriptor × Symbol}
    (goesOn : ∀ other ∈ declared, other.2 = next.2 → SameShapes next.2 other.1 next.1) :
    Agreeing (declared ++ [next]) := by
  intro one member other memberToo same
  rcases List.mem_append.1 member with old | new <;>
    rcases List.mem_append.1 memberToo with oldToo | newToo
  · exact agreeing one old other oldToo same
  · rw [List.mem_singleton.1 newToo] at same ⊢
    exact same ▸ goesOn one old same
  · rw [List.mem_singleton.1 new] at same ⊢
    exact (goesOn other oldToo same.symm).symm
  · rw [List.mem_singleton.1 new, List.mem_singleton.1 newToo]
    exact .refl _ _

/-- The first declaration of a symbol is in the first descriptor that has it. -/
theorem find?_declarations (descriptors : List Descriptor) {symbol : Symbol}
    (reachable : symbol ≠ .constructor) :
    (declarations descriptors).find? (·.2 = symbol) =
      (descriptors.find? (symbol ∈ ·.symbols)).map (·, symbol) := by
  induction descriptors with
  | nil => rfl
  | cons descriptor descriptors ih =>
    rw [declarations, List.flatMap_cons, List.find?_append, List.find?_map]
    show ((descriptor.reachable.find? (· = symbol)).map (descriptor, ·)).or
      ((declarations descriptors).find? (·.2 = symbol)) = _
    by_cases has : symbol ∈ descriptor.symbols
    · rw [find?_self (mem_reachable.2 ⟨has, reachable⟩),
        List.find?_cons_of_pos (p := fun other : Descriptor => decide (symbol ∈ other.symbols)) (by simpa using has)]
      rfl
    · have absent : descriptor.reachable.find? (· = symbol) = none := by
        rw [List.find?_eq_none]
        intro other member same
        exact has (of_decide_eq_true same ▸ (mem_reachable.1 member).1)
      rw [absent, ih,
        List.find?_cons_of_neg (p := fun other : Descriptor => decide (symbol ∈ other.symbols)) (by simpa using has)]
      rfl

/-- A declaration met on the way is one of a descriptor behind all declarations of the descriptors
in front. -/
theorem declarations_split {descriptors : List Descriptor} {front back : List (Descriptor × Symbol)}
    {second : Descriptor} {symbol : Symbol}
    (split : declarations descriptors = front ++ (second, symbol) :: back) :
    ∃ before after lead rest, descriptors = before ++ second :: after ∧
      front = declarations before ++ lead.map (second, ·) ∧
      second.reachable = lead ++ symbol :: rest := by
  induction descriptors generalizing front with
  | nil => exact absurd split (by simp [declarations])
  | cons descriptor descriptors ih =>
    have further : ∀ behind, front = descriptor.reachable.map (descriptor, ·) ++ behind →
        declarations descriptors = behind ++ (second, symbol) :: back →
        ∃ before after lead rest, descriptor :: descriptors = before ++ second :: after ∧
          front = declarations before ++ lead.map (second, ·) ∧
          second.reachable = lead ++ symbol :: rest := by
      intro behind here there
      obtain ⟨before, after, lead, rest, same, sameFront, reached⟩ := ih there
      refine ⟨descriptor :: before, after, lead, rest, by rw [same]; rfl, ?_, reached⟩
      rw [here, sameFront, declarations, declarations, List.flatMap_cons, List.append_assoc]
    rw [declarations, List.flatMap_cons] at split
    rcases List.append_eq_append_iff.1 split with ⟨behind, here, there⟩ | ⟨rest, here, there⟩
    · exact further behind here there
    · cases rest with
      | nil =>
        rw [List.append_nil] at here
        exact further [] (by rw [here, List.append_nil]) there.symm
      | cons next rest =>
        obtain ⟨rfl, _⟩ := List.cons.inj there
        obtain ⟨lead, others, reached, rfl, behind⟩ := List.map_eq_append_iff.1 here
        obtain ⟨found, rest, rfl, same, _⟩ := List.map_eq_cons_iff.1 behind
        cases same
        exact ⟨[], descriptors, lead, rest, rfl, rfl, reached⟩

/-- The scan of a descriptor meets a symbol once. -/
theorem met_once {descriptor : Descriptor} {symbol : Symbol} {lead rest : List Symbol}
    (reached : descriptor.reachable = lead ++ symbol :: rest) : symbol ∉ lead ∧ symbol ∉ rest := by
  have nodup := descriptor.nodup_reachable
  rw [reached, List.nodup_append, List.nodup_cons] at nodup
  exact ⟨fun inside => nodup.2.2 symbol inside symbol List.mem_cons_self rfl, nodup.2.1.1⟩

/-- What the scan of a descriptor meets in front of a symbol is what is declared in front of it. -/
theorem mem_lead {descriptor : Descriptor} {symbol : Symbol} {lead rest : List Symbol}
    (reached : descriptor.reachable = lead ++ symbol :: rest) {other : Symbol}
    (declared : other ∈ descriptor.symbols.takeWhile (· ≠ symbol)) (reachable : other ≠ .constructor) :
    other ∈ lead := by
  have inside : symbol ∈ descriptor.reachable := by simp [reached]
  obtain ⟨has, callable⟩ := mem_reachable.1 inside
  obtain ⟨front, others, split, absent⟩ := List.eq_append_cons_of_mem has
  have inFront : other ∈ front := by
    have others : ∀ name ∈ front, decide (name ≠ symbol) = true :=
      fun name member => decide_eq_true fun same => absent (same ▸ member)
    rw [split, List.takeWhile_append_of_pos others, List.takeWhile_cons_of_neg (by simp),
      List.append_nil] at declared
    exact declared
  have met : descriptor.reachable = (firstOfEach id front).filter (· ≠ .constructor) ++
      symbol :: (((firstOfEach id others).filter fun other => id other ≠ id symbol).filter
        fun other => id other ∉ front.map id).filter (· ≠ .constructor) := by
    rw [Descriptor.reachable, split, firstOfEach_append, firstOfEach, List.filter_append,
      List.filter_cons_of_pos (by simpa using absent), List.filter_cons_of_pos (by simpa using callable)]
  rw [met] at reached
  have same := (List.append_cons_inj_of_notMem (met_once met).1 (met_once met).2).1 reached
  rw [← same.1, List.mem_filter]
  have kept : _ ↔ other ∈ front.map id := mem_keys_firstOfEach
  simp only [List.map_id] at kept
  exact ⟨kept.2 inFront, decide_eq_true reachable⟩

theorem firstOfEach_declarations (descriptors : List Descriptor) :
    firstOfEach id ((declarations descriptors).map Prod.snd) =
      (firstOfEach id (descriptors.flatMap symbols)).filter (· ≠ .constructor) := by
  induction descriptors with
  | nil => rfl
  | cons descriptor descriptors ih =>
    have own : (descriptor.reachable.map (descriptor, ·)).map Prod.snd = descriptor.reachable := by
      rw [List.map_map]
      exact List.map_id _
    have nodup : (descriptor.reachable.map id).Nodup := by
      rw [List.map_id]
      exact descriptor.nodup_reachable
    rw [declarations, List.flatMap_cons, List.map_append, own, firstOfEach_append,
      firstOfEach_of_nodup nodup, ← declarations, ih, List.flatMap_cons, firstOfEach_append,
      List.filter_append, List.filter_filter, List.filter_filter]
    congr 1
    apply List.filter_congr
    intro symbol _
    by_cases constructor : symbol = .constructor
    · simp [constructor]
    · simp [mem_reachable, constructor]

end Descriptor

namespace Flatten
open Descriptor

def add (merged : List MergedSymbol) (declared : Descriptor × Symbol) :
    Except Ambiguity (List MergedSymbol) :=
  mergeSymbol declared.1.name declared.2 (declared.1.itemsOf declared.2) merged

theorem mergeGroups_eq (descriptor : Descriptor) (symbols : List Symbol) (merged : List MergedSymbol) :
    mergeGroups descriptor.name (symbols.map fun symbol => (symbol, descriptor.itemsOf symbol)) merged =
      ((symbols.filter (· ≠ .constructor)).map (descriptor, ·)).foldlM add merged := by
  induction symbols generalizing merged with
  | nil => rfl
  | cons symbol symbols ih =>
    rw [List.map_cons, mergeGroups]
    by_cases constructor : symbol = .constructor
    · rw [if_pos constructor, ih, List.filter_cons_of_neg (by simpa using constructor)]
    · rw [if_neg constructor, List.filter_cons_of_pos (by simpa using constructor), List.map_cons,
        List.foldlM_cons]
      congr 1
      funext merged
      exact ih merged

theorem mergeDescriptors_eq (descriptors : List Descriptor) (merged : List MergedSymbol) :
    mergeDescriptors descriptors merged = (declarations descriptors).foldlM add merged := by
  induction descriptors generalizing merged with
  | nil => rfl
  | cons descriptor descriptors ih =>
    rw [mergeDescriptors, grouped_eq, mergeGroups_eq, declarations, List.flatMap_cons,
      List.foldlM_append]
    congr 1
    funext merged
    exact ih merged

theorem sameShapes_iff {symbol : Symbol} {one other : Descriptor} :
    sameShapes (distinctShapes [] (one.itemsOf symbol)) (other.itemsOf symbol) = true ↔
      SameShapes symbol one other := by
  have shapes : ∀ shape, shape ∈ shapesOf (distinctShapes [] (one.itemsOf symbol)) ↔
      shape ∈ (one.itemsOf symbol).map Item.shape := by
    intro shape
    rw [distinctShapes_eq, shapesOf, List.filter_eq_self.2 (by simp)]
    exact mem_keys_firstOfEach
  simp only [sameShapes, Bool.and_eq_true, List.all_eq_true, decide_eq_true_eq, shapes]
  exact ⟨fun both shape => ⟨both.1 shape, both.2 shape⟩,
    fun same => ⟨fun shape => (same shape).1, fun shape => (same shape).2⟩⟩

def mergedFrom (declared : List (Descriptor × Symbol)) : List MergedSymbol :=
  (firstOfEach Prod.snd declared).map fun first =>
    ⟨first.2, first.1.name, distinctShapes [] (first.1.itemsOf first.2)⟩

/-- One more declaration agrees with the earlier ones, or differs from the first of its symbol. -/
theorem add_cases {declared : List (Descriptor × Symbol)} (agreeing : Agreeing declared)
    (next : Descriptor × Symbol) :
    (Agreeing (declared ++ [next]) ∧
      add (mergedFrom declared) next = .ok (mergedFrom (declared ++ [next]))) ∨
    ∃ first, declared.find? (·.2 = next.2) = some first ∧ ¬ SameShapes next.2 first.1 next.1 ∧
      add (mergedFrom declared) next = .error ⟨next.2, first.1.name, next.1.name⟩ := by
  have looked : (mergedFrom declared).find? (·.symbol = next.2) =
      (declared.find? (·.2 = next.2)).map fun first =>
        ⟨first.2, first.1.name, distinctShapes [] (first.1.itemsOf first.2)⟩ := by
    rw [mergedFrom, List.find?_map, ← find?_firstOfEach Prod.snd declared next.2]
    rfl
  unfold add mergeSymbol
  rw [looked, mergedFrom, mergedFrom, firstOfEach_append_singleton]
  cases found : declared.find? (·.2 = next.2) with
  | none =>
    have absent : next.2 ∉ declared.map Prod.snd := by
      intro inside
      obtain ⟨other, member, same⟩ := List.mem_map.1 inside
      exact List.find?_eq_none.1 found other member (decide_eq_true same)
    refine .inl ⟨agreeing.snoc fun other member same => ?_, ?_⟩
    · exact absurd (same ▸ List.mem_map_of_mem member) absent
    · rw [if_neg absent, List.map_append]
      rfl
  | some first =>
    have same : first.2 = next.2 := by simpa using List.find?_some found
    have member : first ∈ declared := List.mem_of_find?_eq_some found
    have inside : next.2 ∈ declared.map Prod.snd := same ▸ List.mem_map_of_mem member
    rw [if_pos inside, Option.map_some]
    dsimp only
    rw [same]
    cases agrees : sameShapes (distinctShapes [] (first.1.itemsOf next.2)) (next.1.itemsOf next.2) with
    | true =>
      have shapes : SameShapes next.2 first.1 next.1 := sameShapes_iff.1 agrees
      refine .inl ⟨agreeing.snoc fun other memberToo sameToo => ?_, rfl⟩
      rw [← sameToo]
      rw [← sameToo] at shapes same
      exact (agreeing other memberToo first member same.symm).trans shapes
    | false =>
      refine .inr ⟨first, rfl, fun shapes => ?_, rfl⟩
      rw [sameShapes_iff.2 shapes] at agrees
      cases agrees

/-- The scan ends behind the last declaration, or at the first that does not agree with the
earlier ones. -/
theorem foldlM_add_cases (declared : List (Descriptor × Symbol)) :
    (Agreeing declared ∧ declared.foldlM add [] = .ok (mergedFrom declared)) ∨
    ∃ front next back first, declared = front ++ next :: back ∧ Agreeing front ∧
      front.find? (·.2 = next.2) = some first ∧ ¬ SameShapes next.2 first.1 next.1 ∧
      declared.foldlM add [] = .error ⟨next.2, first.1.name, next.1.name⟩ := by
  induction declared using List.reverseRecOn with
  | nil => exact .inl ⟨fun _ member => (nomatch member), rfl⟩
  | append_singleton declared next ih =>
    have last : ∀ merged, [next].foldlM add merged = add merged next := fun merged => bind_pure _
    rw [List.foldlM_append]
    simp only [last]
    rcases ih with ⟨agreeing, merged⟩ | ⟨front, stray, back, first, split, rest, found, differ, failed⟩
    · rw [merged]
      rcases add_cases agreeing next with ⟨goesOn, added⟩ | ⟨first, found, differ, failed⟩
      · exact .inl ⟨goesOn, added⟩
      · exact .inr ⟨declared, next, [], first, rfl, agreeing, found, differ, failed⟩
    · rw [failed]
      exact .inr ⟨front, stray, back ++ [next], first, by simp [split], rest, found, differ, rfl⟩

/-- A stray declaration is the first conflict. -/
theorem firstConflict_of_stray {descriptors : List Descriptor}
    {front back : List (Descriptor × Symbol)} {next first : Descriptor × Symbol}
    (split : declarations descriptors = front ++ next :: back) (agreeing : Agreeing front)
    (found : front.find? (·.2 = next.2) = some first)
    (differ : ¬ SameShapes next.2 first.1 next.1) :
    ∃ before origin between second after, descriptors = before ++ origin :: between ++ second :: after ∧
      first.1 = origin ∧ next.1 = second ∧ FirstConflict before origin between second next.2 := by
  obtain ⟨second, symbol⟩ := next
  obtain ⟨ahead, after, lead, rest, same, rfl, reached⟩ := declarations_split split
  have inSecond : symbol ∈ second.reachable := by simp [reached]
  obtain ⟨has, reachable⟩ := mem_reachable.1 inSecond
  -- the scan meets the symbol once in `second`, so its first declaration is further in front
  have notHere : (lead.map (second, ·)).find? (·.2 = symbol) = none := by
    rw [List.find?_eq_none]
    intro other member equal
    obtain ⟨_, inside, rfl⟩ := List.mem_map.1 member
    exact (met_once reached).1 (of_decide_eq_true equal ▸ inside)
  rw [List.find?_append, notHere, Option.or_none, find?_declarations ahead reachable] at found
  obtain ⟨origin, isFirst, rfl⟩ := Option.map_eq_some_iff.1 found
  obtain ⟨hasToo, before, between, rfl, absent⟩ := List.find?_eq_some_iff_append.1 isFirst
  refine ⟨before, origin, between, second, after, same, rfl, rfl, ?_, ?_, ?_, ?_⟩
  · intro descriptor member
    simpa using absent descriptor member
  · exact ⟨reachable, of_decide_eq_true hasToo, has, differ⟩
  · rw [← agreeing_declarations]
    exact fun one member other memberToo =>
      agreeing one (List.mem_append_left _ member) other (List.mem_append_left _ memberToo)
  · intro other declared descriptor member conflict
    have inFront : (second, other) ∈ lead.map (second, ·) :=
      List.mem_map_of_mem (mem_lead reached declared conflict.reachable)
    exact conflict.differ (agreeing (descriptor, other)
      (List.mem_append_left _ (mem_declarations.2 ⟨member, conflict.inOne, conflict.reachable⟩))
      (second, other) (List.mem_append_right _ inFront) rfl)

private theorem flatMap_filterMap {α β γ : Type} (xs : List α) (f : α → Option β) (g : β → List γ) :
    (xs.filterMap f).flatMap g = xs.flatMap fun x => ((f x).map g).getD [] := by
  induction xs with
  | nil => rfl
  | cons x xs ih =>
    rw [List.filterMap_cons, List.flatMap_cons, ← ih]
    cases f x <;> rfl

theorem items_mergedFrom (descriptors : List Descriptor) :
    (mergedFrom (declarations descriptors)).flatMap (·.items) = mergedItems descriptors := by
  rw [mergedFrom, List.flatMap_map, firstOfEach_eq_filterMap, firstOfEach_declarations,
    flatMap_filterMap, mergedItems]
  apply List.flatMap_congr
  intro symbol member
  have reachable : symbol ≠ .constructor := by simpa using (List.mem_filter.1 member).2
  rw [find?_declarations descriptors reachable]
  cases descriptors.find? (symbol ∈ ·.symbols) with
  | none => rfl
  | some first =>
    show distinctShapes [] (first.itemsOf symbol) = firstOfEach Item.shape (first.itemsOf symbol)
    rw [distinctShapes_eq, List.filter_eq_self.2 (by simp)]

end Flatten

/-- Merging fails exactly if two descriptors are in conflict, and then at the first conflict, which
the error names. Otherwise it gives one item for each shape of each symbol that callers can
reach. -/
theorem Descriptor.flatten_cases (name : String) (descriptors : List Descriptor) :
    (Conflicting descriptors ∧ ∃ before origin between second after symbol,
      descriptors = before ++ origin :: between ++ second :: after ∧
      FirstConflict before origin between second symbol ∧
      flatten name descriptors = .error ⟨symbol, origin.name, second.name⟩) ∨
    (¬ Conflicting descriptors ∧ flatten name descriptors = .ok ⟨name, mergedItems descriptors⟩) := by
  unfold flatten
  rw [Flatten.mergeDescriptors_eq]
  rcases Flatten.foldlM_add_cases (declarations descriptors) with
    ⟨agreeing, merged⟩ | ⟨front, next, back, first, split, agreeing, found, differ, failed⟩
  · refine .inr ⟨agreeing_declarations.1 agreeing, ?_⟩
    rw [merged]
    show Except.ok (Descriptor.mk name _) = _
    rw [Flatten.items_mergedFrom]
  · obtain ⟨before, origin, between, second, after, same, rfl, rfl, conflict⟩ :=
      Flatten.firstConflict_of_stray split agreeing found differ
    refine .inl ⟨⟨first.1, ?_, next.1, ?_, next.2, conflict.conflict⟩, before, first.1, between,
      next.1, after, next.2, same, conflict, ?_⟩
    · simp [same]
    · simp [same]
    · rw [failed]
      rfl

end ContractBuild
