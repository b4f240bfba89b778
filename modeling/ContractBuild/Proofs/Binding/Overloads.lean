import ContractBuild.Proofs.Interface.Groups
import ContractBuild.Binding.Plan
import Mathlib.Data.List.Forall2

/-!
The callable entries of a binding, told from the declarations alone: which declarations of a
function have an entry, under which key, and how the two ways of treating overloads compare.
-/
namespace ContractBuild

/-- What the key of an entry is chosen to be. -/
inductive Keying
  | name
  | signature
  deriving DecidableEq

def Keying.key (item : Item) : Keying → String
  | name => item.label
  | signature => item.signature

/-- An entry that a binding is meant to have: the declaration it is for, whether others share the
name, the position of the declaration among them, and what the entry is found under. -/
structure Offer where
  item : Item
  overloaded : Bool
  ordinal : Nat
  keying : Keying

namespace Offer

def made? (offer : Offer) : Option FunctionEntry :=
  match offer.item with
  | .function name inputs outputs mutability _ => do
    let typedInputs ← (AbiType.ofParams inputs).toOption
    let typedOutputs ← (AbiType.ofParams outputs).toOption
    some {
      name, key := offer.keying.key offer.item, signature := offer.item.signature
      overloaded := offer.overloaded, ordinal := offer.ordinal
      inputs := typedInputs, outputs := typedOutputs, mutability }
  | _ => none

def every : List Item → List Offer
  | [item] => [⟨item, false, 0, .name⟩, ⟨item, false, 0, .signature⟩]
  | items => items.mapIdx fun ordinal item => ⟨item, true, ordinal, .signature⟩

def first? (items : List Item) : Option Offer :=
  items.head?.map fun item => ⟨item, items.length > 1, 0, .name⟩

def Make (offers : List Offer) (entries : List FunctionEntry) : Prop :=
  entries.map some = offers.map made?

end Offer

def Symbol.functionName? : Symbol → Option String
  | function name => some name
  | _ => none

theorem Symbol.functionName?_eq_some {symbol : Symbol} {name : String} :
    symbol.functionName? = some name ↔ symbol = .function name := by
  cases symbol <;> simp [functionName?]

def Descriptor.functionNames (descriptor : Descriptor) : List String :=
  firstOfEach id (descriptor.symbols.filterMap Symbol.functionName?)

theorem Item.signature_ne_label (item : Item) : item.signature ≠ item.label := by
  intro same
  have lengths := congrArg String.length same
  rw [Item.signature, String.length_append, String.length_ofList] at lengths
  simp at lengths

namespace Offer

section
variable {offer : Offer} {entry : FunctionEntry} {offers more : List Offer}
  {entries : List FunctionEntry}

theorem made?_eq_some :
    offer.made? = some entry ↔
      ∃ inputs outputs gas, offer.item = .function entry.name inputs outputs entry.mutability gas ∧
        AbiType.ofParams inputs = .ok entry.inputs ∧ AbiType.ofParams outputs = .ok entry.outputs ∧
        entry.key = offer.keying.key offer.item ∧ entry.signature = offer.item.signature ∧
        entry.overloaded = offer.overloaded ∧ entry.ordinal = offer.ordinal := by
  have accepted : ∀ {params : List Param} {typed : List TypedParam},
      (AbiType.ofParams params).toOption = some typed ↔ AbiType.ofParams params = .ok typed := by
    intro params typed
    cases AbiType.ofParams params <;> simp [Except.toOption]
  obtain ⟨item, overloaded, ordinal, keying⟩ := offer
  cases item with
  | function name inputs outputs mutability gas =>
    simp only [made?, Option.bind_eq_bind, Option.bind_eq_some_iff, accepted]
    constructor
    · rintro ⟨typedInputs, inputsTyped, typedOutputs, outputsTyped, made⟩
      cases made
      exact ⟨inputs, outputs, gas, rfl, inputsTyped, outputsTyped, rfl, rfl, rfl, rfl⟩
    · rintro ⟨_, _, _, same, inputsTyped, outputsTyped, key, signature, rfl, rfl⟩
      cases same
      refine ⟨_, inputsTyped, _, outputsTyped, ?_⟩
      rw [← key, ← signature]
  | _ => simp [made?]

theorem isSignatureKey_of_made? (made : offer.made? = some entry) :
    entry.isSignatureKey = decide (offer.keying = .signature) := by
  obtain ⟨inputs, outputs, gas, item, -, -, key, signature, -⟩ := made?_eq_some.1 made
  have differs := Ne.symm offer.item.signature_ne_label
  rw [FunctionEntry.isSignatureKey, key, signature]
  cases offer.keying <;> simp [Keying.key, differs]

theorem key_of_made? (made : offer.made? = some entry) : entry.key = offer.keying.key offer.item := by
  obtain ⟨_, _, _, -, -, -, key, -⟩ := made?_eq_some.1 made
  exact key

theorem made?_of_keying (made : offer.made? = some entry) (keying : Keying) :
    ({ offer with keying } : Offer).made? = some { entry with key := keying.key offer.item } := by
  obtain ⟨inputs, outputs, gas, declared, inputsTyped, outputsTyped, key, others⟩ := made?_eq_some.1 made
  exact made?_eq_some.2 ⟨inputs, outputs, gas, declared, inputsTyped, outputsTyped, rfl, others⟩

theorem Make.nil : Make [] [] := rfl

theorem make_cons :
    Make (offer :: offers) entries ↔
      ∃ entry others, entries = entry :: others ∧ offer.made? = some entry ∧ Make offers others := by
  rw [Make, List.map_cons, List.map_eq_cons_iff]
  constructor
  · rintro ⟨entry, others, rfl, made, rest⟩
    exact ⟨entry, others, rfl, made.symm, rest⟩
  · rintro ⟨entry, others, rfl, made, rest⟩
    exact ⟨entry, others, rfl, made.symm, rest⟩

theorem make_append :
    Make (offers ++ more) entries ↔
      ∃ own others, entries = own ++ others ∧ Make offers own ∧ Make more others := by
  rw [Make, List.map_append, List.map_eq_append_iff]
  rfl

theorem Make.map_eq {α : Type} {value : FunctionEntry → α} {expected : Offer → α}
    (made : Make offers entries)
    (each : ∀ {offer : Offer} {entry}, offer.made? = some entry → value entry = expected offer) :
    entries.map value = offers.map expected := by
  induction offers generalizing entries with
  | nil =>
    cases List.map_eq_nil_iff.1 made
    rfl
  | cons offer offers ih =>
    obtain ⟨entry, others, rfl, first, rest⟩ := make_cons.1 made
    rw [List.map_cons, List.map_cons, each first, ih rest]

/-- Where every declaration of a name has its entry, the first one has an entry under the name,
which is one of those entries but for the key. -/
theorem Make.exists_first {items : List Item} {functions : List FunctionEntry}
    (made : Make (every items) functions) :
    ∃ entries, Make (first? items).toList entries ∧
      ∀ entry ∈ entries, ∃ full ∈ functions, entry = { full with key := full.name } := by
  cases items with
  | nil => exact ⟨[], rfl, by simp⟩
  | cons item items =>
    -- the first declaration is offered under its signature, whether or not it is the only one
    have offered : (⟨item, (item :: items).length > 1, 0, .signature⟩ : Offer) ∈ every (item :: items) := by
      cases items <;> simp [every]
    have inside : (⟨item, (item :: items).length > 1, 0, .signature⟩ : Offer).made? ∈ functions.map some :=
      made ▸ List.mem_map_of_mem offered
    obtain ⟨full, member, same⟩ := List.mem_map.1 inside
    obtain ⟨inputs, outputs, gas, declared, -⟩ := made?_eq_some.1 same.symm
    have label : item.label = full.name := by
      have function : item = .function full.name inputs outputs full.mutability gas := declared
      rw [function, Item.label]
    have named := made?_of_keying same.symm .name
    rw [Keying.key, label] at named
    refine ⟨[{ full with key := full.name }], make_cons.2 ⟨_, [], rfl, named, rfl⟩, ?_⟩
    intro entry listed
    exact ⟨full, member, List.mem_singleton.1 listed⟩

end
end Offer

def Item.isEvent : Item → Bool
  | event .. => true
  | _ => false

namespace BindingPlan

def keyings (everyOverload overloaded : Bool) : List Keying :=
  if !everyOverload then [.name] else if overloaded then [.signature] else [.name, .signature]

def offersFrom (everyOverload overloaded : Bool) (ordinal : Nat) (items : List Item) : List Offer :=
  (items.zipIdx ordinal).flatMap fun pair =>
    (keyings everyOverload overloaded).map fun keying => ⟨pair.1, overloaded, pair.2, keying⟩

section
variable {everyOverload overloaded : Bool} {ordinal : Nat} {items : List Item} {name : String}
  {entries : List FunctionEntry}

theorem functionEntries_eq_ok {item : Item} (symbol : item.symbol = .function name) :
    functionEntries everyOverload overloaded ordinal item = .ok entries ↔
      Offer.Make ((keyings everyOverload overloaded).map fun keying => ⟨item, overloaded, ordinal, keying⟩)
        entries := by
  cases item with
  | function name inputs outputs mutability gas =>
    have keyed : keyings everyOverload overloaded ≠ [] := by
      cases everyOverload <;> cases overloaded <;> simp [keyings]
    obtain ⟨keying, others, split⟩ := List.exists_cons_of_ne_nil keyed
    cases typedInputs : AbiType.ofParams inputs with
    | error type =>
      simp [functionEntries, Offer.make_cons, Offer.made?, typedInputs, split, bind, Except.bind,
        Except.toOption]
    | ok values =>
      cases typedOutputs : AbiType.ofParams outputs with
      | error type =>
        simp [functionEntries, Offer.make_cons, Offer.made?, typedInputs, typedOutputs, split, bind,
          Except.bind, Except.toOption]
      | ok results =>
        cases everyOverload <;> cases overloaded <;>
          simp [functionEntries, Offer.Make, Offer.made?, typedInputs, typedOutputs, keyings, Keying.key,
            Item.label, bind, Except.bind, pure, Except.pure, Except.toOption, List.map_eq_cons_iff] <;>
          exact eq_comm
  | _ => cases symbol

theorem overloadEntries_eq_ok (symbols : ∀ item ∈ items, item.symbol = .function name) :
    overloadEntries everyOverload overloaded ordinal items = .ok entries ↔
      Offer.Make (offersFrom everyOverload overloaded ordinal items) entries := by
  induction items generalizing ordinal entries with
  | nil => simp [overloadEntries, Offer.Make, offersFrom, pure, Except.pure]
  | cons item items ih =>
    obtain ⟨symbol, others⟩ := List.forall_mem_cons.1 symbols
    -- one declaration at a time, with the count of those before as the ordinal
    have split : overloadEntries everyOverload overloaded ordinal (item :: items) = .ok entries ↔
        ∃ own more, entries = own ++ more ∧
          functionEntries everyOverload overloaded ordinal item = .ok own ∧
          overloadEntries everyOverload overloaded (ordinal + 1) items = .ok more := by
      rw [overloadEntries]
      cases functionEntries everyOverload overloaded ordinal item <;>
        cases overloadEntries everyOverload overloaded (ordinal + 1) items <;>
          simp [bind, Except.bind, pure, Except.pure, eq_comm]
    rw [split, offersFrom, List.zipIdx_cons, List.flatMap_cons, Offer.make_append]
    simp only [functionEntries_eq_ok symbol, ih others, offersFrom]

theorem offersFrom_every (items : List Item) :
    offersFrom true (items.length > 1) 0 items = Offer.every items := by
  match items with
  | [] => rfl
  | [item] => rfl
  | first :: second :: items =>
    have several : decide ((first :: second :: items).length > 1) = true := by simp
    rw [several, Offer.every, List.mapIdx_eq_zipIdx_map]
    · exact List.flatMap_pure_eq_map _ _
    · simp

theorem offersFrom_first (items : List Item) :
    offersFrom false (items.length > 1) 0 (items.take 1) = (Offer.first? items).toList := by
  cases items <;> rfl

end

section
variable {symbol : Symbol} {items : List Item} {groups : List (Symbol × List Item)}
  {functions : List FunctionEntry} {events : List EventEntry}

def offers (everyOverload : Bool) : Symbol × List Item → List Offer
  | (.function _, items) => if everyOverload then Offer.every items else (Offer.first? items).toList
  | _ => []

theorem symbolEntries_function {everyOverload : Bool} {name : String}
    (symbols : ∀ item ∈ items, item.symbol = .function name) :
    symbolEntries everyOverload (.function name) items = .ok (functions, events) ↔
      Offer.Make (offers everyOverload (.function name, items)) functions ∧ events = [] := by
  have split : symbolEntries everyOverload (.function name) items = .ok (functions, events) ↔
      overloadEntries everyOverload (items.length > 1) 0 (if everyOverload then items else items.take 1) =
        .ok functions ∧ events = [] := by
    rw [symbolEntries]
    cases overloadEntries everyOverload (items.length > 1) 0 (if everyOverload then items else items.take 1) <;>
      simp [bind, Except.bind, pure, Except.pure, eq_comm]
  rw [split]
  cases everyOverload with
  | true =>
    rw [if_pos rfl, overloadEntries_eq_ok symbols, offersFrom_every]
    rfl
  | false =>
    have taken : ∀ item ∈ items.take 1, item.symbol = .function name :=
      fun item member => symbols item (List.mem_of_mem_take member)
    rw [if_neg Bool.false_ne_true, overloadEntries_eq_ok taken, offersFrom_first]
    rfl

inductive IsEntry (overloaded : Bool) : Item → EventEntry → Prop
  | event (name : String) {inputs : List Param} (anonymous : Bool) {typed : List TypedParam}
    (typing : AbiType.ofParams inputs = .ok typed) :
    IsEntry overloaded (.event name inputs anonymous)
      { name
        key := if overloaded then (Item.event name inputs anonymous).signature else name
        signature := (Item.event name inputs anonymous).signature
        inputs := typed
        anonymous }

/-- Events have their entries one by one, and nothing else has one. -/
theorem forall₂_eventEntries {overloaded : Bool} (lowered : eventEntries overloaded items = .ok events) :
    List.Forall₂ (IsEntry overloaded) (items.filter Item.isEvent) events := by
  induction items generalizing events with
  | nil =>
    cases lowered
    exact .nil
  | cons item items ih =>
    cases item with
    | event name inputs anonymous =>
      rw [eventEntries] at lowered
      cases typed : AbiType.ofParams inputs with
      | error refused =>
        rw [typed] at lowered
        cases lowered
      | ok values =>
        cases rest : eventEntries overloaded items with
        | error refused =>
          rw [typed, rest] at lowered
          cases lowered
        | ok more =>
          rw [typed, rest] at lowered
          cases lowered
          exact .cons (.event name anonymous typed) (ih rest)
    | _ => exact ih lowered

theorem symbolEntries_event {everyOverload : Bool} {name : String}
    (lowered : symbolEntries everyOverload (.event name) items = .ok (functions, events)) :
    functions = [] ∧
      List.Forall₂ (IsEntry (items.length > 1)) (items.filter Item.isEvent) events := by
  rw [symbolEntries] at lowered
  cases taken : eventEntries (items.length > 1) items with
  | error refused =>
    rw [taken] at lowered
    cases lowered
  | ok entries =>
    rw [taken] at lowered
    cases lowered
    exact ⟨rfl, forall₂_eventEntries taken⟩

theorem exists_isEntry {overloaded : Bool} (made : List.Forall₂ (IsEntry overloaded) items events) :
    ∀ entry ∈ events, ∃ item, IsEntry overloaded item entry := by
  induction made with
  | nil => exact List.forall_mem_nil _
  | cons first rest ih => exact List.forall_mem_cons.2 ⟨⟨_, first⟩, ih⟩

/-- What is the same of every event and its entry is the same of all. -/
theorem map_eventEntries {β : Type} {overloaded : Bool} {name : String} {f : EventEntry → β} {g : Item → β}
    (symbols : ∀ item ∈ items, item.symbol = .event name)
    (made : List.Forall₂ (IsEntry overloaded) (items.filter Item.isEvent) events)
    (each : ∀ {item entry}, IsEntry overloaded item entry → f entry = g item) : events.map f = items.map g := by
  have every : items.filter Item.isEvent = items := by
    refine List.filter_eq_self.2 fun item member => ?_
    have symbol := symbols item member
    cases item with
    | event name inputs anonymous => rfl
    | _ => cases symbol
  rw [every] at made
  clear every symbols
  induction made with
  | nil => rfl
  | cons first rest ih => rw [List.map_cons, List.map_cons, each first, ih]

/-- A symbol that can be lowered with every overload can be lowered with the first one only. -/
theorem symbolEntries_ok (symbols : ∀ item ∈ items, item.symbol = symbol)
    (lowered : symbolEntries true symbol items = .ok (functions, events)) :
    Offer.Make (offers true (symbol, items)) functions ∧
      ∃ entries, symbolEntries false symbol items = .ok (entries, events) ∧
        Offer.Make (offers false (symbol, items)) entries ∧
        ∀ entry ∈ entries, ∃ full ∈ functions, entry = { full with key := full.name } := by
  cases symbol with
  | function name =>
    obtain ⟨made, rfl⟩ := (symbolEntries_function symbols).1 lowered
    obtain ⟨entries, makes, found⟩ := made.exists_first
    exact ⟨made, entries, (symbolEntries_function symbols).2 ⟨makes, rfl⟩, makes, found⟩
  | event name =>
    have empty : functions = [] := by
      rw [symbolEntries] at lowered
      cases taken : eventEntries (items.length > 1) items <;> rw [taken] at lowered <;> cases lowered
      rfl
    subst empty
    exact ⟨.nil, [], lowered, .nil, by simp⟩
  | error name | constructor =>
    have empty : functions = [] := by
      rw [symbolEntries] at lowered
      cases taken : checkInputs items <;> rw [taken] at lowered <;> cases lowered
      rfl
    subst empty
    exact ⟨.nil, [], lowered, .nil, by simp⟩
  | fallback | receive =>
    cases lowered
    exact ⟨.nil, [], rfl, .nil, by simp⟩

theorem groupEntries_cons {descriptor : String} {everyOverload : Bool} :
    groupEntries descriptor everyOverload ((symbol, items) :: groups) = .ok (functions, events) ↔
      ∃ own ownEvents more moreEvents, symbolEntries everyOverload symbol items = .ok (own, ownEvents) ∧
        groupEntries descriptor everyOverload groups = .ok (more, moreEvents) ∧
        functions = own ++ more ∧ events = ownEvents ++ moreEvents := by
  rw [groupEntries]
  cases symbolEntries everyOverload symbol items with
  | error type => simp
  | ok own =>
    obtain ⟨own, ownEvents⟩ := own
    cases groupEntries descriptor everyOverload groups with
    | error refused => simp [bind, Except.bind]
    | ok more =>
      obtain ⟨more, moreEvents⟩ := more
      simp [bind, Except.bind, pure, Except.pure, eq_comm]

theorem groupEntries_ok {descriptor : String}
    (symbols : ∀ group ∈ groups, ∀ item ∈ group.2, item.symbol = group.1)
    (lowered : groupEntries descriptor true groups = .ok (functions, events)) :
    Offer.Make (groups.flatMap (offers true)) functions ∧
      ∃ entries, groupEntries descriptor false groups = .ok (entries, events) ∧
        Offer.Make (groups.flatMap (offers false)) entries ∧
        ∀ entry ∈ entries, ∃ full ∈ functions, entry = { full with key := full.name } := by
  induction groups generalizing functions events with
  | nil =>
    cases lowered
    exact ⟨.nil, [], rfl, .nil, by simp⟩
  | cons group groups ih =>
    obtain ⟨symbol, items⟩ := group
    obtain ⟨own, ownEvents, more, moreEvents, taken, rest, rfl, rfl⟩ := groupEntries_cons.1 lowered
    obtain ⟨here, others⟩ := List.forall_mem_cons.1 symbols
    obtain ⟨made, named, namedTaken, namedMade, found⟩ := symbolEntries_ok here taken
    obtain ⟨moreMade, moreNamed, restTaken, restMade, restFound⟩ := ih others rest
    refine ⟨Offer.make_append.2 ⟨own, more, rfl, made, moreMade⟩, named ++ moreNamed, ?_, ?_, ?_⟩
    · exact groupEntries_cons.2 ⟨named, ownEvents, moreNamed, moreEvents, namedTaken, restTaken, rfl, rfl⟩
    · exact Offer.make_append.2 ⟨named, moreNamed, rfl, namedMade, restMade⟩
    · intro entry member
      rcases List.mem_append.1 member with inside | inside
      · obtain ⟨full, listed, same⟩ := found entry inside
        exact ⟨full, List.mem_append_left _ listed, same⟩
      · obtain ⟨full, listed, same⟩ := restFound entry inside
        exact ⟨full, List.mem_append_right _ listed, same⟩

end
end BindingPlan

namespace Descriptor

theorem nodup_functionNames (descriptor : Descriptor) : descriptor.functionNames.Nodup := by
  have nodup := nodup_firstOfEach id (descriptor.symbols.filterMap Symbol.functionName?)
  rwa [List.map_id] at nodup

theorem mem_functionNames {descriptor : Descriptor} {name : String} :
    name ∈ descriptor.functionNames ↔ ∃ item ∈ descriptor.items, item.symbol = .function name := by
  rw [functionNames, ← List.map_id (firstOfEach id _), mem_keys_firstOfEach, List.map_id, List.mem_filterMap]
  simp [Symbol.functionName?_eq_some, symbols]

theorem mem_itemsOf {descriptor : Descriptor} {symbol : Symbol} {item : Item} :
    item ∈ descriptor.itemsOf symbol ↔ item ∈ descriptor.items ∧ item.symbol = symbol := by
  rw [itemsOf, List.mem_filter, decide_eq_true_eq]

theorem symbol_of_mem_grouped {descriptor : Descriptor} {group : Symbol × List Item}
    (listed : group ∈ descriptor.grouped) : ∀ item ∈ group.2, item.symbol = group.1 := by
  rw [grouped_eq] at listed
  obtain ⟨symbol, -, rfl⟩ := List.mem_map.1 listed
  exact fun item member => (mem_itemsOf.1 member).2

/-- What the symbols offer is what the function names do, as no other symbol offers anything. -/
theorem flatMap_offers (descriptor : Descriptor) (everyOverload : Bool) :
    descriptor.grouped.flatMap (BindingPlan.offers everyOverload) =
      descriptor.functionNames.flatMap fun name =>
        BindingPlan.offers everyOverload (.function name, descriptor.itemsOf (.function name)) := by
  have injective : ∀ {symbol other : Symbol} {name : String},
      symbol.functionName? = some name → other.functionName? = some name → symbol = other :=
    fun first second => (Symbol.functionName?_eq_some.1 first).trans (Symbol.functionName?_eq_some.1 second).symm
  rw [grouped_eq, functionNames, firstOfEach_filterMap injective, List.flatMap_map]
  -- symbols that are no function's offer nothing
  induction firstOfEach id descriptor.symbols with
  | nil => rfl
  | cons symbol symbols ih =>
    rw [List.flatMap_cons, ih]
    cases symbol <;> rfl

theorem exists_first {descriptor : Descriptor} {name : String} (listed : name ∈ descriptor.functionNames) :
    ∃ offer, Offer.first? (descriptor.itemsOf (.function name)) = some offer ∧
      offer.keying.key offer.item = name := by
  obtain ⟨item, member, symbol⟩ := mem_functionNames.1 listed
  obtain ⟨first, others, split⟩ :=
    List.exists_cons_of_ne_nil (List.ne_nil_of_mem (mem_itemsOf.2 ⟨member, symbol⟩))
  have declared : first ∈ descriptor.itemsOf (.function name) := split ▸ List.mem_cons_self
  have label : first.symbol = .function name := (mem_itemsOf.1 declared).2
  rw [split]
  refine ⟨_, rfl, ?_⟩
  cases first with
  | function => exact Symbol.function.inj label
  | _ => cases label

def firstOffers (descriptor : Descriptor) : List Offer :=
  descriptor.functionNames.flatMap fun name => (Offer.first? (descriptor.itemsOf (.function name))).toList

theorem map_firstOffers (descriptor : Descriptor) :
    descriptor.firstOffers.map some =
      descriptor.functionNames.map fun name => Offer.first? (descriptor.itemsOf (.function name)) := by
  rw [firstOffers, List.map_flatMap, List.map_eq_flatMap]
  apply List.flatMap_congr
  intro name listed
  obtain ⟨offer, found, -⟩ := exists_first listed
  rw [found, Option.toList_some, List.map_singleton]

theorem keys_firstOffers (descriptor : Descriptor) :
    (descriptor.firstOffers.map fun offer => offer.keying.key offer.item) = descriptor.functionNames := by
  refine Eq.trans ?_ (List.flatMap_singleton' descriptor.functionNames)
  rw [firstOffers, List.map_flatMap]
  apply List.flatMap_congr
  intro name listed
  obtain ⟨offer, found, key⟩ := exists_first listed
  rw [found, Option.toList_some, List.map_singleton, key]

theorem keying_firstOffers {descriptor : Descriptor} {offer : Offer} (listed : offer ∈ descriptor.firstOffers) :
    offer.keying = .name := by
  obtain ⟨name, -, inside⟩ := List.mem_flatMap.1 listed
  obtain ⟨item, -, rfl⟩ := Option.map_eq_some_iff.1 (Option.mem_toList.1 inside)
  rfl

end Descriptor

namespace BindingPlan

theorem ofDescriptor_eq_ok {everyOverload : Bool} {descriptor : Descriptor} {plan : BindingPlan} :
    ofDescriptor everyOverload descriptor = .ok plan ↔
      groupEntries descriptor.name everyOverload descriptor.grouped = .ok (plan.functions, plan.events) ∧
        plan.name = descriptor.name ∧ plan.interfaceText = (Item.listToJson descriptor.items).compact := by
  obtain ⟨name, functions, events, interfaceText⟩ := plan
  rw [ofDescriptor]
  cases groupEntries descriptor.name everyOverload descriptor.grouped with
  | error refused => simp [bind, Except.bind]
  | ok entries =>
    obtain ⟨made, others⟩ := entries
    simp [bind, Except.bind, pure, Except.pure, eq_comm]
    tauto

/-- A descriptor that can be lowered with every overload has, for each name in order of first
declaration, what the declarations of the name offer, and no entry is found under a signature
but by choice. It can then be lowered without overloads too: each name has one entry, for the
first declaration, which the plan with every overload has as well but for the key, and the
events are the same. -/
theorem entries_of_overloads {descriptor : Descriptor} {plan : BindingPlan}
    (lowered : ofDescriptor true descriptor = .ok plan) :
    let declarations := fun name => descriptor.itemsOf (.function name)
    let offers := descriptor.functionNames.flatMap fun name => Offer.every (declarations name)
    plan.functions.map some = offers.map Offer.made? ∧
      (plan.functions.map fun entry => entry.isSignatureKey) =
        (offers.map fun offer => decide (offer.keying = .signature)) ∧
      ∃ named, ofDescriptor false descriptor = .ok named ∧
        named.functions.map some = (descriptor.functionNames.map fun name =>
          (Offer.first? (declarations name)).bind Offer.made?) ∧
        (named.functions.map fun entry => entry.key) = descriptor.functionNames ∧
        descriptor.functionNames.Nodup ∧
        (∀ entry ∈ named.functions, entry.isSignatureKey = false ∧
          ∃ full ∈ plan.functions, entry = { full with key := entry.name }) ∧
        named.events = plan.events := by
  intro declarations offers
  obtain ⟨grouped, -⟩ := ofDescriptor_eq_ok.1 lowered
  obtain ⟨made, entries, taken, makes, found⟩ :=
    groupEntries_ok (fun group listed => Descriptor.symbol_of_mem_grouped listed) grouped
  rw [Descriptor.flatMap_offers] at made makes
  have made : Offer.Make offers plan.functions := made
  have makes : Offer.Make descriptor.firstOffers entries := makes
  refine ⟨made, made.map_eq Offer.isSignatureKey_of_made?,
    ⟨descriptor.name, entries, plan.events, (Item.listToJson descriptor.items).compact⟩,
    ofDescriptor_eq_ok.2 ⟨taken, rfl, rfl⟩, ?_, ?_, descriptor.nodup_functionNames, ?_, rfl⟩
  · calc entries.map some
      _ = (descriptor.firstOffers.map some).map (·.bind Offer.made?) := by
        rw [makes, List.map_map]
        rfl
      _ = _ := by
        rw [Descriptor.map_firstOffers, List.map_map]
        rfl
  · exact (makes.map_eq Offer.key_of_made?).trans descriptor.keys_firstOffers
  · intro entry listed
    have offered : some entry ∈ descriptor.firstOffers.map Offer.made? := makes ▸ List.mem_map_of_mem listed
    obtain ⟨offer, inside, same⟩ := List.mem_map.1 offered
    obtain ⟨full, member, twin⟩ := found entry listed
    refine ⟨?_, full, member, ?_⟩
    · rw [Offer.isSignatureKey_of_made? same, Descriptor.keying_firstOffers inside]
      rfl
    · rw [twin]

def gauge : Descriptor where
  name := "RewardsOnlyGauge"
  items := [
    .function "claim_rewards" [] [] .nonpayable none,
    .function "balanceOf" [.plain "arg0" "address"] [.plain "" "uint256"] .view none,
    .function "claim_rewards" [.plain "_addr" "address"] [] .nonpayable none,
    .event "RewardsClaimed" [.plain "_addr" "address"] false]

theorem entries_of_gauge :
    ∃ plan named, ofDescriptor true gauge = .ok plan ∧ ofDescriptor false gauge = .ok named ∧
      (plan.functions.map fun entry => entry.isSignatureKey) = [true, true, false, true] ∧
      (named.functions.map fun entry => entry.key) = ["claim_rewards", "balanceOf"] ∧
      named.events = plan.events := by
  have lowers : (ofDescriptor true gauge).isOk = true := by decide +kernel
  obtain ⟨plan, lowered⟩ : ∃ plan, ofDescriptor true gauge = .ok plan := by
    cases lowered : ofDescriptor true gauge with
    | ok plan => exact ⟨plan, rfl⟩
    | error refused => rw [lowered] at lowers; cases lowers
  obtain ⟨-, keyed, named, lowersNamed, -, keys, -, -, events⟩ := entries_of_overloads lowered
  exact ⟨plan, named, lowered, lowersNamed, keyed.trans (by decide +kernel), keys.trans (by decide +kernel), events⟩

end BindingPlan
end ContractBuild
