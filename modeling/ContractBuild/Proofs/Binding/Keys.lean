import ContractBuild.Proofs.Binding.Overloads
import ContractBuild.Proofs.Interface.Signatures
import ContractBuild.Proofs.Interface.Staging
import Mathlib.Data.List.Nodup

/-!
When the keys of a binding are told apart. Entries of different names never share a key, as the name
can be read off the key; entries of one name share it where their declarations share the signature.
-/
namespace ContractBuild

namespace Text

def stem (key : String) : String :=
  String.ofList (key.toList.takeWhile (· ≠ '('))

end Text
open Text

theorem Keying.stem_key {item : Item} (plain : '(' ∉ item.label.toList) (keying : Keying) :
    stem (keying.key item) = item.label := by
  have all : ∀ c ∈ item.label.toList, decide (c ≠ '(') = true := by
    intro c member
    rw [decide_eq_true_eq]
    rintro rfl
    exact plain member
  cases keying with
  | name =>
    have whole := @List.takeWhile_append_of_pos _ _ _ [] all
    rw [List.append_nil, List.takeWhile_nil, List.append_nil] at whole
    rw [key, stem, whole, String.ofList_toList]
  | signature =>
    rw [key, stem, Item.signature, String.toList_append, String.toList_ofList, List.cons_append,
      List.takeWhile_append_of_pos all, List.takeWhile_cons_of_neg (by decide), List.append_nil, String.ofList_toList]

/-- Rows whose members tell the row that they are in hold no member twice if no row does. -/
theorem nodup_flatMap_of_owner {α β : Type} {xs : List α} {members : α → List β} (owner : β → α) (nodup : xs.Nodup)
    (owned : ∀ x ∈ xs, ∀ y ∈ members x, owner y = x) :
    (xs.flatMap members).Nodup ↔ ∀ x ∈ xs, (members x).Nodup := by
  rw [List.nodup_flatMap, and_iff_left]
  apply nodup.imp_of_mem
  intro x other member memberToo differ y inside insideToo
  exact differ ((owned x member y inside).symm.trans (owned other memberToo y insideToo))

namespace Descriptor

def signatures (kind : String → Symbol) (descriptor : Descriptor) : List String :=
  (descriptor.items.filter fun item => item.symbol = kind item.label).map Item.signature

def Discerns (symbol : Symbol) (descriptor : Descriptor) : Prop :=
  ∀ one ∈ descriptor.itemsOf symbol, ∀ other ∈ descriptor.itemsOf symbol,
    one.signature = other.signature → one.shape = other.shape

section
variable {kind : String → Symbol} {descriptor : Descriptor}

/-- Signatures that come twice come twice for one name. -/
theorem nodup_signatures_iff (labels : ∀ {item : Item} {name}, item.symbol = kind name → item.label = name)
    (plain : ∀ item ∈ descriptor.items, '(' ∉ item.label.toList) :
    (descriptor.signatures kind).Nodup ↔ ∀ name, ((descriptor.itemsOf (kind name)).map Item.signature).Nodup := by
  simp only [signatures, itemsOf, List.Nodup, List.pairwise_map, List.pairwise_filter, decide_eq_true_eq]
  constructor
  · intro apart name
    refine apart.imp fun differ own ownToo => differ ?_ ?_
    · rw [labels own, own]
    · rw [labels ownToo, ownToo]
  · intro apart
    rw [List.pairwise_iff_forall_sublist]
    intro one other pair own ownToo same
    have member : one ∈ descriptor.items := pair.subset List.mem_cons_self
    have memberToo : other ∈ descriptor.items := pair.subset (List.mem_cons_of_mem _ List.mem_cons_self)
    -- a signature begins with the label, so equal ones are of one name
    have label : one.label = other.label := by
      rw [← Keying.signature.stem_key (plain one member), ← Keying.signature.stem_key (plain other memberToo)]
      exact congrArg stem same
    exact List.pairwise_iff_forall_sublist.1 (apart one.label) pair own (label ▸ ownToo) same

theorem itemsOf_eq_nil {symbol : Symbol} (absent : symbol ∉ descriptor.symbols) : descriptor.itemsOf symbol = [] := by
  rw [itemsOf, List.filter_eq_nil_iff]
  intro item member same
  exact absent (of_decide_eq_true same ▸ List.mem_map_of_mem member)

theorem Discerns.of_absent {symbol : Symbol} (absent : symbol ∉ descriptor.symbols) : descriptor.Discerns symbol := by
  rw [Discerns, itemsOf_eq_nil absent]
  exact nofun

/-- Whether declarations are told apart depends on the shapes that the symbol comes with. -/
theorem Discerns.of_sameShapes {symbol : Symbol} {other : Descriptor} (discerns : descriptor.Discerns symbol)
    (same : SameShapes symbol descriptor other) : other.Discerns symbol := by
  intro first member second memberToo signature
  obtain ⟨twin, inside, shape⟩ := List.mem_map.1 ((same first.shape).2 (List.mem_map_of_mem member))
  obtain ⟨twinToo, insideToo, shapeToo⟩ := List.mem_map.1 ((same second.shape).2 (List.mem_map_of_mem memberToo))
  have symbols : ∀ {item : Item} {descriptor : Descriptor}, item ∈ descriptor.itemsOf symbol → item.symbol = symbol :=
    fun member => (mem_itemsOf.1 member).2
  have own : twin.signature = first.signature :=
    Item.signature_of_shape ((symbols inside).trans (symbols member).symm) shape
  have ownToo : twinToo.signature = second.signature :=
    Item.signature_of_shape ((symbols insideToo).trans (symbols memberToo).symm) shapeToo
  rw [← shape, ← shapeToo]
  exact discerns twin inside twinToo insideToo (own.trans (signature.trans ownToo.symm))

/-- Where no shape comes twice, signatures come twice exactly if they do not tell the shapes apart. -/
theorem nodup_signatures_of_shapes {symbol : Symbol} (shapes : ((descriptor.itemsOf symbol).map Item.shape).Nodup) :
    ((descriptor.itemsOf symbol).map Item.signature).Nodup ↔ descriptor.Discerns symbol := by
  constructor
  · intro nodup one member other memberToo same
    rw [List.inj_on_of_nodup_map nodup member memberToo same]
  · intro discerns
    refine shapes.of_map.map_on fun one member other memberToo same => ?_
    exact List.inj_on_of_nodup_map shapes member memberToo (discerns one member other memberToo same)

theorem nodup_shapes_merging (name : String) (descriptors : List Descriptor) (symbol : Symbol) :
    (((merging name descriptors).itemsOf symbol).map Item.shape).Nodup := by
  by_cases listed : symbol ∈ callable descriptors
  · obtain ⟨first, -, -, keeps⟩ := exists_kept listed
    rw [itemsOf_merging listed, keeps]
    exact nodup_firstOfEach Item.shape _
  · rw [itemsOf_eq_nil fun has => listed (mem_symbols_merging.1 has)]
    exact .nil

theorem discerns_merging_iff {name : String} {descriptors : List Descriptor} {symbol : Symbol}
    (settled : ¬ Conflicting descriptors) (reachable : symbol ≠ .constructor) :
    (merging name descriptors).Discerns symbol ↔ ∀ origin ∈ descriptors, origin.Discerns symbol := by
  constructor
  · intro discerns origin member
    by_cases has : symbol ∈ origin.symbols
    · exact discerns.of_sameShapes (sameShapes_merging settled member has reachable)
    · exact .of_absent has
  · intro discern
    by_cases has : symbol ∈ (merging name descriptors).symbols
    · obtain ⟨⟨origin, member, own⟩, -⟩ := mem_callable.1 (mem_symbols_merging.1 has)
      exact (discern origin member).of_sameShapes (sameShapes_merging settled member own reachable).symm
    · exact .of_absent has

end
end Descriptor

namespace BindingPlan

def functionKeys (everyOverload : Bool) (group : Symbol × List Item) : List String :=
  (offers everyOverload group).map fun offer => offer.keying.key offer.item

def eventKeys : Symbol × List Item → List String
  | (.event _, items) => items.map fun item => (if items.length > 1 then Keying.signature else Keying.name).key item
  | _ => []

section
variable {everyOverload : Bool} {symbol : Symbol} {items : List Item} {groups : List (Symbol × List Item)}
  {functions : List FunctionEntry} {events : List EventEntry}

theorem keys_symbolEntries (symbols : ∀ item ∈ items, item.symbol = symbol)
    (lowered : symbolEntries everyOverload symbol items = .ok (functions, events)) :
    (functions.map fun entry => entry.key) = functionKeys everyOverload (symbol, items) ∧
      (events.map fun entry => entry.key) = eventKeys (symbol, items) := by
  cases symbol with
  | function name =>
    obtain ⟨made, rfl⟩ := (symbolEntries_function symbols).1 lowered
    exact ⟨made.map_eq Offer.key_of_made?, rfl⟩
  | event name =>
    obtain ⟨rfl, made⟩ := symbolEntries_event lowered
    refine ⟨rfl, map_eventEntries symbols made fun entry => ?_⟩
    cases entry with
    | event label anonymous typing => by_cases several : items.length > 1 <;> simp [several, Keying.key, Item.label]
  | error name | constructor =>
    rw [symbolEntries] at lowered
    cases taken : checkInputs items <;> rw [taken] at lowered <;> cases lowered
    exact ⟨rfl, rfl⟩
  | fallback | receive =>
    cases lowered
    exact ⟨rfl, rfl⟩

theorem keys_groupEntries {descriptor : String} (symbols : ∀ group ∈ groups, ∀ item ∈ group.2, item.symbol = group.1)
    (lowered : groupEntries descriptor everyOverload groups = .ok (functions, events)) :
    (functions.map fun entry => entry.key) = groups.flatMap (functionKeys everyOverload) ∧
      (events.map fun entry => entry.key) = groups.flatMap eventKeys := by
  induction groups generalizing functions events with
  | nil =>
    cases lowered
    exact ⟨rfl, rfl⟩
  | cons group groups ih =>
    obtain ⟨symbol, items⟩ := group
    obtain ⟨here, others⟩ := List.forall_mem_cons.1 symbols
    obtain ⟨own, ownEvents, more, moreEvents, taken, rest, rfl, rfl⟩ := groupEntries_cons.1 lowered
    obtain ⟨keys, eventKeys⟩ := keys_symbolEntries here taken
    obtain ⟨moreKeys, moreEventKeys⟩ := ih others rest
    simp only [List.map_append, List.flatMap_cons, keys, eventKeys, moreKeys, moreEventKeys, and_self]

/-- Several declarations of one name are found under their signatures. -/
theorem functionKeys_overloaded (name : String) {items : List Item} (several : items.length > 1) :
    functionKeys true (.function name, items) = items.map Item.signature := by
  have offered : Offer.every items = items.mapIdx fun ordinal item => ⟨item, true, ordinal, .signature⟩ := by
    match items, several with
    | first :: second :: items, _ => rfl
  rw [functionKeys, offers, if_pos rfl, offered]
  apply List.ext_getElem
  · simp
  · intro i bound boundToo
    simp [Keying.key]

theorem nodup_functionKeys (symbol : Symbol) (items : List Item) :
    (functionKeys everyOverload (symbol, items)).Nodup ↔
      (everyOverload = true → ∀ name, symbol = .function name → (items.map Item.signature).Nodup) := by
  cases symbol with
  | function name =>
    cases everyOverload with
    | false =>
      refine iff_of_true ?_ nofun
      cases items <;> simp [functionKeys, offers, Offer.first?]
    | true =>
      by_cases several : items.length > 1
      · rw [functionKeys_overloaded name several]
        simp
      · rcases items with _ | ⟨item, _ | ⟨second, items⟩⟩
        · simp [functionKeys, offers, Offer.every]
        · have differs := item.signature_ne_label.symm
          simp [functionKeys, offers, Offer.every, Keying.key, differs]
        · exact absurd (by simp) several
  | _ => simp [functionKeys, offers]

theorem nodup_eventKeys (symbol : Symbol) (items : List Item) :
    (eventKeys (symbol, items)).Nodup ↔ ∀ name, symbol = .event name → (items.map Item.signature).Nodup := by
  cases symbol with
  | event name =>
    by_cases several : items.length > 1
    · simp [eventKeys, several, Keying.key]
    · rcases items with _ | ⟨item, _ | ⟨second, items⟩⟩
      · simp [eventKeys]
      · simp [eventKeys]
      · exact absurd (by simp) several
  | _ => simp [eventKeys]

theorem mem_functionKeys {key : String} (listed : key ∈ functionKeys everyOverload (symbol, items)) :
    ∃ name, symbol = .function name ∧ ∃ item ∈ items, ∃ keying : Keying, key = keying.key item := by
  obtain ⟨offer, offered, rfl⟩ := List.mem_map.1 listed
  cases symbol with
  | function name =>
    refine ⟨name, rfl, offer.item, ?_, offer.keying, rfl⟩
    cases everyOverload with
    | false =>
      rw [offers, if_neg Bool.false_ne_true, Option.mem_toList, Offer.first?, Option.map_eq_some_iff] at offered
      obtain ⟨item, first, rfl⟩ := offered
      exact List.mem_of_mem_head? first
    | true =>
      rw [offers, if_pos rfl] at offered
      match items, offered with
      | [item], offered =>
        obtain rfl | rfl : offer = _ ∨ offer = _ := by simpa [Offer.every] using offered
        · exact List.mem_cons_self
        · exact List.mem_cons_self
      | first :: second :: items, offered =>
        obtain ⟨i, bound, rfl⟩ := List.mem_mapIdx.1 offered
        exact List.getElem_mem bound
  | _ => cases offered

theorem mem_eventKeys {key : String} (listed : key ∈ eventKeys (symbol, items)) :
    ∃ name, symbol = .event name ∧ ∃ item ∈ items, ∃ keying : Keying, key = keying.key item := by
  cases symbol with
  | event name =>
    obtain ⟨item, member, rfl⟩ := List.mem_map.1 listed
    exact ⟨name, rfl, item, member, _, rfl⟩
  | _ => cases listed

end

section
variable {everyOverload : Bool} {descriptor : Descriptor} {plan : BindingPlan}

/-- A key tells the symbol that it is for, whatever keys are chosen for the declarations of the symbols of a kind. -/
theorem nodup_groupKeys {kind : String → Symbol} {keys : Symbol × List Item → List String}
    (labels : ∀ {item : Item} {name}, item.symbol = kind name → item.label = name)
    (plain : ∀ item ∈ descriptor.items, '(' ∉ item.label.toList)
    (declared : ∀ {symbol items key}, key ∈ keys (symbol, items) →
      ∃ name, symbol = kind name ∧ ∃ item ∈ items, ∃ keying : Keying, key = keying.key item) :
    (descriptor.grouped.flatMap keys).Nodup ↔
      ∀ symbol ∈ descriptor.symbols, (keys (symbol, descriptor.itemsOf symbol)).Nodup := by
  have nodup := nodup_firstOfEach id descriptor.symbols
  rw [List.map_id] at nodup
  rw [Descriptor.grouped_eq, List.flatMap_map, nodup_flatMap_of_owner (fun key => kind (stem key)) nodup]
  · simp only [mem_firstOfEach_id]
  · -- the stem of a key is the name that its symbol is made of
    intro symbol _ key listed
    obtain ⟨name, rfl, item, member, keying, rfl⟩ := declared listed
    obtain ⟨inside, own⟩ := Descriptor.mem_itemsOf.1 member
    rw [keying.stem_key (plain item inside), labels own]

theorem labels_function {item : Item} {name : String} (symbol : item.symbol = .function name) : item.label = name := by
  cases item with
  | function => exact Symbol.function.inj symbol
  | _ => cases symbol

theorem labels_event {item : Item} {name : String} (symbol : item.symbol = .event name) : item.label = name := by
  cases item with
  | event => exact Symbol.event.inj symbol
  | _ => cases symbol

/-- The symbols of a kind are those of its names, and names without a declaration share nothing. -/
theorem forall_symbols_iff {kind : String → Symbol} :
    (∀ symbol ∈ descriptor.symbols, ∀ name, symbol = kind name →
        ((descriptor.itemsOf symbol).map Item.signature).Nodup) ↔
      ∀ name, ((descriptor.itemsOf (kind name)).map Item.signature).Nodup := by
  constructor
  · intro apart name
    by_cases has : kind name ∈ descriptor.symbols
    · exact apart _ has name rfl
    · rw [Descriptor.itemsOf_eq_nil has]
      exact .nil
  · rintro apart _ - name rfl
    exact apart name

/-- Where no name holds a parenthesis, the functions of a binding have keys of their own exactly if no two
declared functions have one signature, or entries are wanted for first declarations only, and its events do
exactly if no two declared events have one signature. What is merged of other descriptors declares a signature
twice exactly if one of them declares it with different shapes. -/
theorem nodup_keys_iff (plain : ∀ item ∈ descriptor.items, '(' ∉ item.label.toList)
    (lowered : ofDescriptor everyOverload descriptor = .ok plan) :
    ((plan.functions.map fun entry => entry.key).Nodup ↔
        (everyOverload = true → (descriptor.signatures .function).Nodup)) ∧
      ((plan.events.map fun entry => entry.key).Nodup ↔ (descriptor.signatures .event).Nodup) ∧
      ∀ name descriptors, Descriptor.flatten name descriptors = .ok descriptor →
        ∀ kind ∈ [Symbol.function, Symbol.event], (descriptor.signatures kind).Nodup ↔
          ∀ origin ∈ descriptors, ∀ name, origin.Discerns (kind name) := by
  obtain ⟨grouped, -⟩ := ofDescriptor_eq_ok.1 lowered
  obtain ⟨functions, events⟩ := keys_groupEntries (fun _ => Descriptor.symbol_of_mem_grouped) grouped
  refine ⟨?_, ?_, ?_⟩
  · rw [functions, nodup_groupKeys labels_function plain mem_functionKeys,
      Descriptor.nodup_signatures_iff labels_function plain, ← forall_symbols_iff]
    simp only [nodup_functionKeys]
    tauto
  · rw [events, nodup_groupKeys labels_event plain mem_eventKeys,
      Descriptor.nodup_signatures_iff labels_event plain, ← forall_symbols_iff]
    simp only [nodup_eventKeys]
  · intro name descriptors flat kind known
    obtain ⟨settled, rfl⟩ := Descriptor.flatten_eq_ok.1 flat
    have labels : ∀ {item : Item} {name}, item.symbol = kind name → item.label = name := by
      obtain rfl | rfl : kind = .function ∨ kind = .event := by simpa using known
      · exact labels_function
      · exact labels_event
    have reachable : ∀ name, kind name ≠ .constructor := by
      obtain rfl | rfl : kind = .function ∨ kind = .event := by simpa using known
      · exact nofun
      · exact nofun
    have each : ∀ own, (((Descriptor.merging name descriptors).itemsOf (kind own)).map Item.signature).Nodup ↔
        ∀ origin ∈ descriptors, origin.Discerns (kind own) := fun own =>
      (Descriptor.nodup_signatures_of_shapes (Descriptor.nodup_shapes_merging name descriptors (kind own))).trans
        (Descriptor.discerns_merging_iff settled (reachable own))
    rw [Descriptor.nodup_signatures_iff labels plain]
    exact ⟨fun apart origin member own => (each own).1 (apart own) origin member,
      fun discern own => (each own).2 fun origin member => discern origin member own⟩

end

def twice : Descriptor where
  name := "Twice"
  items := [
    .function "claim" [.plain "to" "address"] [] .nonpayable none,
    .event "Claimed" [.plain "by" "address"] false,
    .function "claim" [.plain "to" "address"] [.plain "" "bool"] .nonpayable none,
    .event "Claimed" [{ Param.plain "by" "address" with indexed := some true }] false]

/-- Neither lowering nor merging tells the two apart. -/
theorem nodup_keys_iff_twice :
    ∃ merged plan, Descriptor.flatten "All" [twice] = .ok merged ∧ ofDescriptor true merged = .ok plan ∧
      ¬ (plan.functions.map fun entry => entry.key).Nodup ∧ ¬ (plan.events.map fun entry => entry.key).Nodup := by
  have flat : Descriptor.flatten "All" [twice] = .ok (Descriptor.merging "All" [twice]) :=
    Descriptor.flatten_eq_ok.2 ⟨Descriptor.not_conflicting_singleton twice, rfl⟩
  obtain ⟨plan, lowered⟩ : ∃ plan, ofDescriptor true (Descriptor.merging "All" [twice]) = .ok plan :=
    exists_of_isOk (by decide +kernel)
  have plain : ∀ item ∈ (Descriptor.merging "All" [twice]).items, '(' ∉ item.label.toList := by decide +kernel
  obtain ⟨functions, events, -⟩ := nodup_keys_iff plain lowered
  refine ⟨_, plan, flat, lowered, fun apart => ?_, fun apart => ?_⟩
  · exact absurd (functions.1 apart rfl) (by decide +kernel)
  · exact absurd (events.1 apart) (by decide +kernel)

end BindingPlan
end ContractBuild
