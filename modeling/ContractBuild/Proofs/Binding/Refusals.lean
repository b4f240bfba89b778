import ContractBuild.Proofs.Binding.Overloads
import ContractBuild.Proofs.Binding.TypeGrammar
import ContractBuild.Proofs.Interface.Staging

/-!
Why an interface has no binding. Lowering looks through the parameters that a binding needs in the
order of the symbols that they are for, and ends at the first one without a type, with the part of
its type text that stood in the way.
-/
namespace ContractBuild
open Text

def obstacle? {ε α : Type} : Except ε α → Option ε
  | .error refused => some refused
  | .ok _ => none

section
variable {ε α β : Type} {x : Except ε α}

theorem obstacle?_eq_some {refused : ε} : obstacle? x = some refused ↔ x = .error refused := by
  cases x <;> simp [obstacle?]

theorem obstacle?_eq_none : obstacle? x = none ↔ ∃ value, x = .ok value := by
  cases x <;> simp [obstacle?]

theorem exists_error_iff : (∃ refused, x = .error refused) ↔ ¬∃ value, x = .ok value := by
  cases x <;> simp

/-- A computation whose second part ends in the same error whatever the first gives. -/
theorem obstacle?_bind {f : α → Except ε β} {later : Option ε} (same : ∀ value, obstacle? (f value) = later) :
    obstacle? (x >>= f) = (obstacle? x).or later := by
  cases x with
  | error refused => rfl
  | ok value => exact same value

theorem obstacle?_bind_pure {f : α → β} : obstacle? (x >>= fun value => pure (f value)) = obstacle? x := by
  cases x <;> rfl

theorem findSome?_cons_or {first : α} {others : List α} {f : α → Option β} :
    (first :: others).findSome? f = (f first).or (others.findSome? f) := by
  rw [List.findSome?_cons]
  cases f first <;> rfl

end

namespace AbiType
open Numeral (Spells)

/-! Type texts -/

inductive Trims : List Char → List Char → Prop
  | none (text : List Char) : Trims text text
  | any {text rest : List Char} (inner : Trims text rest) : Trims (text ++ "[]".toList) rest
  | exactly {text rest digits : List Char} {length : Nat} (inner : Trims text rest) (numeral : Spells digits length)
    (least : 1 ≤ length) : Trims (text ++ '[' :: digits ++ [']']) rest

theorem peelReversed_unopened {suffixes : List Suffix} {rest : List Char} (apart : ∀ more, rest = '[' :: more → False)
    (dropped : rest.dropWhile (· ≠ '[') = []) :
    peelReversed suffixes (']' :: rest) = .ok ((']' :: rest).reverse, suffixes) := by
  rw [peelReversed.eq_2 _ _ apart]
  split
  · rfl
  · next found =>
    rw [dropped] at found
    cases found

/-- A suffix with no positive length in its brackets is not taken off. -/
theorem peelReversed_unread {suffixes : List Suffix} {rest inner : List Char} {head : Char}
    (apart : ∀ more, rest = '[' :: more → False) (dropped : rest.dropWhile (· ≠ '[') = head :: inner)
    (unread : Numeral.readUpTo? Numeral.wordMax (rest.takeWhile (· ≠ '[')).reverse = none ∨
      Numeral.readUpTo? Numeral.wordMax (rest.takeWhile (· ≠ '[')).reverse = some 0) :
    peelReversed suffixes (']' :: rest) = .error (']' :: rest).reverse := by
  rw [peelReversed.eq_2 _ _ apart]
  split
  · next missing =>
    rw [dropped] at missing
    cases missing
  · rcases unread with read | read
    · rw [read]
    · rw [read]
      rfl

/-- Taking the suffixes off leaves a text that has none, or one that has no length that can be read at its
end. Either is taken apart the same way when it stands alone. -/
theorem peelReversed_settles (suffixes : List Suffix) (reversed : List Char) :
    (∀ base found, peelReversed suffixes reversed = .ok (base, found) →
      Trims reversed.reverse base ∧ ∀ others, peelReversed others base.reverse = .ok (base, others)) ∧
    ∀ refused, peelReversed suffixes reversed = .error refused →
      Trims reversed.reverse refused ∧ ∀ others, peelReversed others refused.reverse = .error refused := by
  -- a case for each branch: two that take a suffix off, two without a suffix, two with a length that is not one
  fun_induction peelReversed suffixes reversed with
  | case1 suffixes rest ih =>
    have shape : (']' :: '[' :: rest).reverse = rest.reverse ++ "[]".toList := by simp
    rw [shape]
    exact ⟨fun base found peeled => (ih.1 base found peeled).imp_left .any,
      fun refused peeled => (ih.2 refused peeled).imp_left .any⟩
  | case2 suffixes rest apart dropped =>
    refine ⟨?_, by rintro _ ⟨⟩⟩
    rintro _ _ ⟨⟩
    refine ⟨.none _, fun others => ?_⟩
    rw [List.reverse_reverse, peelReversed_unopened apart dropped]
  | case3 suffixes rest apart head inner dropped read =>
    refine ⟨by rintro _ _ ⟨⟩, ?_⟩
    rintro _ ⟨⟩
    refine ⟨.none _, fun others => ?_⟩
    rw [List.reverse_reverse, peelReversed_unread apart dropped (.inl read)]
  | case4 suffixes rest apart head inner dropped read =>
    refine ⟨by rintro _ _ ⟨⟩, ?_⟩
    rintro _ ⟨⟩
    refine ⟨.none _, fun others => ?_⟩
    rw [List.reverse_reverse, peelReversed_unread apart dropped (.inr read)]
  | case5 suffixes rest apart head inner dropped length positive read _ ih =>
    have numeral := Numeral.readUpTo?_wordMax.1 read
    have least : 1 ≤ length := Nat.pos_of_ne_zero positive
    rw [reverse_of_bracketed dropped]
    exact ⟨fun base found peeled => (ih.1 base found peeled).imp_left (.exactly · numeral least),
      fun refused peeled => (ih.2 refused peeled).imp_left (.exactly · numeral least)⟩
  | case6 suffixes base _ closed =>
    refine ⟨?_, by rintro _ ⟨⟩⟩
    rintro _ _ ⟨⟩
    refine ⟨.none _, fun others => ?_⟩
    rw [List.reverse_reverse]
    apply peelReversed_open
    intro head
    obtain ⟨rest, rfl⟩ := List.head?_eq_some_iff.1 head
    exact closed rest rfl

theorem peel_eq_ok {text base : List Char} {suffixes : List Suffix} (peeled : peel text = .ok (base, suffixes)) :
    Trims text base ∧ peel base = .ok (base, []) := by
  obtain ⟨trims, again⟩ := (peelReversed_settles [] text.reverse).1 base suffixes peeled
  rw [List.reverse_reverse] at trims
  exact ⟨trims, again []⟩

theorem peel_eq_error {text refused : List Char} (stuck : peel text = .error refused) :
    Trims text refused ∧ peel refused = .error refused := by
  obtain ⟨trims, again⟩ := (peelReversed_settles [] text.reverse).2 refused stuck
  rw [List.reverse_reverse] at trims
  exact ⟨trims, again []⟩

/-! Parameters -/

theorem obstacle?_ofParams (params : List Param) :
    obstacle? (ofParams params) = params.findSome? fun param => obstacle? (ofParam param) := by
  induction params with
  | nil => rfl
  | cons param params ih =>
    rw [ofParams, obstacle?_bind fun _ => obstacle?_bind_pure, ih, findSome?_cons_or]

theorem ofParams_eq_error {params : List Param} {refused : String} (ran : ofParams params = .error refused) :
    ∃ param ∈ params, ofParam param = .error refused := by
  rw [← obstacle?_eq_some, obstacle?_ofParams] at ran
  obtain ⟨param, member, refusal⟩ := List.exists_of_findSome?_eq_some ran
  exact ⟨param, member, obstacle?_eq_some.1 refusal⟩

/-- What keeps a parameter from having a type: a length, the members of a tuple that has none, a base that
denotes nothing, or a member. -/
theorem ofParam_eq_error {param : Param} {refused : String} (ran : ofParam param = .error refused) :
    peel param.type.toList = .error refused.toList ∨
      ∃ base suffixes, peel param.type.toList = .ok (base, suffixes) ∧
        (base = refused.toList ∧ scalar? base = none ∨
          base = "tuple".toList ∧ ∃ members, param.components = some members ∧ ofParams members = .error refused) := by
  obtain ⟨name, text, internalType, components, indexed⟩ := param
  rw [ofParam] at ran
  split at ran
  · next stuck peeled =>
    cases ran
    rw [String.toList_ofList]
    exact .inl peeled
  · next base suffixes peeled =>
    refine .inr ⟨base, suffixes, peeled, ?_⟩
    split at ran
    · next isTuple =>
      subst isTuple
      split at ran
      · cases ran
        exact .inl ⟨rfl, rfl⟩
      · next members =>
        cases each : ofParams members with
        | error cause =>
          rw [each] at ran
          cases ran
          exact .inr ⟨rfl, members, rfl, each⟩
        | ok typed =>
          rw [each] at ran
          cases ran
    · split at ran
      · cases ran
      · next unknown =>
        cases ran
        rw [String.toList_ofList]
        exact .inl ⟨rfl, unknown⟩

def Refused (text : String) : Prop :=
  ∀ name internalType indexed, ofParam ⟨name, text, internalType, none, indexed⟩ = .error text

theorem Refused.of_peel {text : String} (stuck : peel text.toList = .error text.toList) : Refused text := by
  intro name internalType indexed
  rw [ofParam, stuck]
  simp

theorem Refused.of_scalar? {text : String} (bare : peel text.toList = .ok (text.toList, []))
    (unknown : scalar? text.toList = none) : Refused text := by
  intro name internalType indexed
  rw [ofParam, bare]
  simp only [unknown, ite_self, String.ofList_toList]
  rfl

end AbiType

/-- A text is the type text of a parameter or of one of its members, at any depth, but for array suffixes
at its end. -/
inductive Param.Holds : Param → List Char → Prop
  | own {param : Param} {text : List Char} (trims : AbiType.Trims param.type.toList text) : param.Holds text
  | member {param member : Param} {members : List Param} {text : List Char}
    (isTuple : AbiType.Trims param.type.toList "tuple".toList) (components : param.components = some members)
    (among : member ∈ members) (holds : member.Holds text) : param.Holds text

namespace AbiType

/-- What keeps a parameter from having a type is a text that the parameter holds and that has no type by
itself. -/
theorem holds_of_ofParam : ∀ {param : Param} {refused : String}, ofParam param = .error refused →
    param.Holds refused.toList ∧ Refused refused
  | ⟨name, text, internalType, components, indexed⟩, refused, ran => by
    obtain stuck | ⟨base, suffixes, peeled, found⟩ := ofParam_eq_error ran
    · obtain ⟨trims, again⟩ := peel_eq_error stuck
      exact ⟨.own trims, .of_peel again⟩
    · obtain ⟨trims, again⟩ := peel_eq_ok peeled
      obtain ⟨rfl, unknown⟩ | ⟨rfl, members, present, each⟩ := found
      · exact ⟨.own trims, .of_scalar? again unknown⟩
      · -- the text of a tuple is fine, so a member is to blame
        obtain ⟨member, among, first⟩ := ofParams_eq_error each
        obtain ⟨holds, alone⟩ := holds_of_ofParam first
        exact ⟨.member trims present among holds, alone⟩
termination_by param => sizeOf param
decreasing_by
  obtain rfl : components = some members := present
  have smaller := List.sizeOf_lt_of_mem among
  simp
  omega

end AbiType

def Item.outputs : Item → List Param
  | function _ _ outputs .. => outputs
  | _ => []

def Item.parameters (item : Item) : List Param :=
  item.inputs ++ item.outputs

def Item.obstacle? (items : List Item) : Option String :=
  (items.flatMap Item.parameters).findSome? fun param => ContractBuild.obstacle? (AbiType.ofParam param)

/-- The parameters that need a type for a descriptor to have a binding, with the symbol that each is for.
Without every overload, only the first declaration of a function counts. -/
inductive Descriptor.Requires (everyOverload : Bool) (descriptor : Descriptor) : Symbol → Param → Prop
  | function {name : String} {inputs outputs : List Param} {mutability : Mutability} {gas : Option Nat} {param : Param}
    (declared : .function name inputs outputs mutability gas ∈ descriptor.items)
    (generated : everyOverload = true ∨
      descriptor.items.find? (·.symbol = .function name) = some (.function name inputs outputs mutability gas))
    (used : param ∈ inputs ∨ param ∈ outputs) : descriptor.Requires everyOverload (.function name) param
  | event {name : String} {inputs : List Param} {anonymous : Bool} {param : Param}
    (declared : .event name inputs anonymous ∈ descriptor.items) (used : param ∈ inputs) :
    descriptor.Requires everyOverload (.event name) param
  | error {name : String} {inputs : List Param} {param : Param} (declared : .error name inputs ∈ descriptor.items)
    (used : param ∈ inputs) : descriptor.Requires everyOverload (.error name) param
  | constructor {inputs : List Param} {mutability : Mutability} {param : Param}
    (declared : .constructor inputs mutability ∈ descriptor.items) (used : param ∈ inputs) :
    descriptor.Requires everyOverload .constructor param

namespace BindingPlan
open AbiType

def chosen (everyOverload : Bool) (symbol : Symbol) (items : List Item) : List Item :=
  if everyOverload || symbol.functionName?.isNone then items else items.take 1

def groupObstacle? (descriptor : String) (everyOverload : Bool) (group : Symbol × List Item) : Option Unmappable :=
  (Item.obstacle? (chosen everyOverload group.1 group.2)).map fun type => ⟨descriptor, group.1.text, type⟩

section
variable {everyOverload overloaded : Bool} {item : Item} {items : List Item} {symbol : Symbol} {name : String}
  {groups : List (Symbol × List Item)}

theorem parameters_of_symbol (other : item.symbol.functionName? = none) : item.parameters = item.inputs := by
  cases item with
  | function => cases other
  | _ => exact List.append_nil _

theorem chosen_of_symbol (other : symbol.functionName? = none) : chosen everyOverload symbol items = items := by
  simp [chosen, other]

theorem obstacle?_items_cons :
    Item.obstacle? (item :: items) =
      (item.parameters.findSome? fun param => obstacle? (ofParam param)).or (Item.obstacle? items) := by
  rw [Item.obstacle?, List.flatMap_cons, List.findSome?_append, Item.obstacle?]

theorem obstacle?_functionEntries {ordinal : Nat} (symbol : item.symbol = .function name) :
    obstacle? (functionEntries everyOverload overloaded ordinal item) =
      item.parameters.findSome? fun param => obstacle? (ofParam param) := by
  cases item with
  | function name inputs outputs mutability gas =>
    rw [functionEntries, obstacle?_bind fun typed => obstacle?_bind_pure, Item.parameters, List.findSome?_append,
      ← obstacle?_ofParams, ← obstacle?_ofParams]
    rfl
  | _ => cases symbol

theorem obstacle?_overloadEntries {ordinal : Nat} (symbols : ∀ item ∈ items, item.symbol = .function name) :
    obstacle? (overloadEntries everyOverload overloaded ordinal items) = Item.obstacle? items := by
  induction items generalizing ordinal with
  | nil => rfl
  | cons item items ih =>
    obtain ⟨symbol, others⟩ := List.forall_mem_cons.1 symbols
    rw [overloadEntries, obstacle?_bind fun _ => obstacle?_bind_pure, obstacle?_functionEntries symbol, ih others,
      obstacle?_items_cons]

theorem obstacle?_eventEntries (symbols : ∀ item ∈ items, item.symbol = .event name) :
    obstacle? (eventEntries overloaded items) = Item.obstacle? items := by
  induction items with
  | nil => rfl
  | cons item items ih =>
    obtain ⟨symbol, others⟩ := List.forall_mem_cons.1 symbols
    cases item with
    | event name inputs anonymous =>
      rw [eventEntries, obstacle?_bind fun _ => obstacle?_bind_pure, ih others, obstacle?_items_cons, obstacle?_ofParams,
        parameters_of_symbol rfl, Item.inputs]
    | _ => cases symbol

theorem obstacle?_checkInputs (symbols : ∀ item ∈ items, item.symbol.functionName? = none) :
    obstacle? (checkInputs items) = Item.obstacle? items := by
  induction items with
  | nil => rfl
  | cons item items ih =>
    obtain ⟨other, others⟩ := List.forall_mem_cons.1 symbols
    rw [checkInputs, obstacle?_bind fun _ => ih others, obstacle?_items_cons, obstacle?_ofParams,
      parameters_of_symbol other]

theorem obstacle?_symbolEntries (symbols : ∀ item ∈ items, item.symbol = symbol) :
    obstacle? (symbolEntries everyOverload symbol items) = Item.obstacle? (chosen everyOverload symbol items) := by
  cases symbol with
  | function name =>
    have taken : chosen everyOverload (.function name) items = if everyOverload then items else items.take 1 := by
      simp [chosen, Symbol.functionName?]
    have own : ∀ item ∈ chosen everyOverload (.function name) items, item.symbol = .function name := by
      intro item member
      rw [taken] at member
      split at member
      · exact symbols item member
      · exact symbols item (List.mem_of_mem_take member)
    rw [symbolEntries, obstacle?_bind_pure, ← taken, obstacle?_overloadEntries own]
  | event name => rw [symbolEntries, obstacle?_bind_pure, obstacle?_eventEntries symbols, chosen_of_symbol rfl]
  | error name | constructor =>
    have others : ∀ item ∈ items, item.symbol.functionName? = none := by
      intro item member
      rw [symbols item member]
      rfl
    rw [symbolEntries, obstacle?_bind_pure, obstacle?_checkInputs others, chosen_of_symbol rfl]
  | fallback | receive =>
    have bare : items.flatMap Item.parameters = [] := by
      rw [List.flatMap_eq_nil_iff]
      intro item member
      have symbol := symbols item member
      cases item with
      | fallback | receive => rfl
      | _ => cases symbol
    rw [chosen_of_symbol rfl, Item.obstacle?, bare]
    rfl

/-- Lowering ends at the first symbol that does not let it pass. -/
theorem obstacle?_groupEntries {descriptor : String}
    (symbols : ∀ group ∈ groups, ∀ item ∈ group.2, item.symbol = group.1) :
    obstacle? (groupEntries descriptor everyOverload groups) =
      groups.findSome? (groupObstacle? descriptor everyOverload) := by
  induction groups with
  | nil => rfl
  | cons group groups ih =>
    obtain ⟨symbol, items⟩ := group
    obtain ⟨here, others⟩ := List.forall_mem_cons.1 symbols
    have refusal := @obstacle?_symbolEntries everyOverload items symbol here
    -- the error of a symbol is told with its text, and what comes behind is looked at only where there is none
    rw [findSome?_cons_or, groupObstacle?, ← refusal, ← ih others, groupEntries]
    cases symbolEntries everyOverload symbol items with
    | error type => rfl
    | ok entries => exact obstacle?_bind_pure

end

section
variable {everyOverload : Bool} {descriptor : Descriptor} {symbol : Symbol} {param : Param} {item : Item}

theorem obstacle?_ofDescriptor :
    obstacle? (ofDescriptor everyOverload descriptor) =
      (firstOfEach id descriptor.symbols).findSome? fun symbol =>
        groupObstacle? descriptor.name everyOverload (symbol, descriptor.itemsOf symbol) := by
  rw [ofDescriptor, obstacle?_bind_pure, obstacle?_groupEntries fun _ => Descriptor.symbol_of_mem_grouped,
    Descriptor.grouped_eq, List.findSome?_map]
  rfl

theorem mem_chosen :
    item ∈ chosen everyOverload symbol (descriptor.itemsOf symbol) ↔
      (item ∈ descriptor.items ∧ item.symbol = symbol) ∧
        (everyOverload = true ∨ symbol.functionName? = none ∨
          descriptor.items.find? (·.symbol = symbol) = some item) := by
  by_cases all : everyOverload = true ∨ symbol.functionName? = none
  · have whole : chosen everyOverload symbol (descriptor.itemsOf symbol) = descriptor.itemsOf symbol := by
      rw [chosen, if_pos]
      simpa using all
    rw [whole, Descriptor.mem_itemsOf, and_iff_left (or_assoc.1 (.inl all))]
  · obtain ⟨named, function⟩ := not_or.1 all
    have first : chosen everyOverload symbol (descriptor.itemsOf symbol) = (descriptor.itemsOf symbol).take 1 := by
      simp [chosen, named, function]
    rw [first, or_iff_right named, or_iff_right function, List.take_one, Option.mem_toList, Descriptor.itemsOf,
      List.head?_filter, iff_and_self]
    intro found
    exact ⟨List.mem_of_find?_eq_some found, by simpa using List.find?_some found⟩

/-- The parameters that lowering looks through for a symbol are those that the descriptor requires for it. -/
theorem mem_parameters_chosen :
    param ∈ (chosen everyOverload symbol (descriptor.itemsOf symbol)).flatMap Item.parameters ↔
      descriptor.Requires everyOverload symbol param := by
  rw [List.mem_flatMap]
  constructor
  · rintro ⟨item, member, used⟩
    obtain ⟨⟨declared, rfl⟩, generated⟩ := mem_chosen.1 member
    cases item with
    | function name inputs outputs mutability gas =>
      exact .function declared (generated.imp_right (·.resolve_left nofun)) (List.mem_append.1 used)
    | event name inputs anonymous =>
      rw [parameters_of_symbol rfl] at used
      exact .event declared used
    | error name inputs =>
      rw [parameters_of_symbol rfl] at used
      exact .error declared used
    | constructor inputs mutability =>
      rw [parameters_of_symbol rfl] at used
      exact .constructor declared used
    | fallback | receive => cases used
  · have checked : ∀ {item : Item}, item ∈ descriptor.items → item.symbol.functionName? = none → param ∈ item.inputs →
        ∃ other ∈ chosen everyOverload item.symbol (descriptor.itemsOf item.symbol), param ∈ other.parameters :=
      fun declared other used => ⟨_, mem_chosen.2 ⟨⟨declared, rfl⟩, .inr (.inl other)⟩, List.mem_append_left _ used⟩
    intro requires
    cases requires with
    | function declared generated used =>
      exact ⟨_, mem_chosen.2 ⟨⟨declared, rfl⟩, generated.imp_right .inr⟩, List.mem_append.2 used⟩
    | event declared used => exact checked declared rfl used
    | error declared used => exact checked declared rfl used
    | constructor declared used => exact checked declared rfl used

theorem groupObstacle?_eq_none {owner : String} :
    groupObstacle? owner everyOverload (symbol, descriptor.itemsOf symbol) = none ↔
      ∀ param, descriptor.Requires everyOverload symbol param → ∃ type, ofParam param = .ok type := by
  rw [groupObstacle?, Option.map_eq_none_iff, Item.obstacle?, List.findSome?_eq_none_iff]
  simp only [mem_parameters_chosen, obstacle?_eq_none]

theorem groupObstacle?_eq_some {owner : String} {refused : Unmappable}
    (refusal : groupObstacle? owner everyOverload (symbol, descriptor.itemsOf symbol) = some refused) :
    ∃ param, descriptor.Requires everyOverload symbol param ∧ ofParam param = .error refused.type ∧
      refused = ⟨owner, symbol.text, refused.type⟩ := by
  obtain ⟨type, found, rfl⟩ := Option.map_eq_some_iff.1 refusal
  obtain ⟨param, member, stuck⟩ := List.exists_of_findSome?_eq_some found
  exact ⟨param, mem_parameters_chosen.1 member, obstacle?_eq_some.1 stuck, rfl⟩

theorem mem_symbols_of_requires (requires : descriptor.Requires everyOverload symbol param) :
    symbol ∈ descriptor.symbols := by
  obtain ⟨item, member, -⟩ := List.mem_flatMap.1 (mem_parameters_chosen.2 requires)
  obtain ⟨⟨declared, rfl⟩, -⟩ := mem_chosen.1 member
  exact List.mem_map_of_mem declared

theorem ofDescriptor_lowers_iff :
    (∃ plan, ofDescriptor everyOverload descriptor = .ok plan) ↔
      ∀ symbol param, descriptor.Requires everyOverload symbol param → ∃ type, ofParam param = .ok type := by
  rw [← obstacle?_eq_none, obstacle?_ofDescriptor, List.findSome?_eq_none_iff]
  simp only [groupObstacle?_eq_none, mem_firstOfEach_id]
  exact ⟨fun typed symbol param requires => typed symbol (mem_symbols_of_requires requires) param requires,
    fun typed symbol _ => typed symbol⟩

/-- The symbol that is blamed is the first one that requires a parameter without a type. -/
theorem exists_first_of_refused {refused : Unmappable} (ran : ofDescriptor everyOverload descriptor = .error refused) :
    ∃ before symbol after, firstOfEach id descriptor.symbols = before ++ symbol :: after ∧
      (∀ earlier ∈ before, ∀ param, descriptor.Requires everyOverload earlier param →
        ∃ type, ofParam param = .ok type) ∧
      ∃ param, descriptor.Requires everyOverload symbol param ∧ ofParam param = .error refused.type ∧
        refused = ⟨descriptor.name, symbol.text, refused.type⟩ := by
  rw [← obstacle?_eq_some, obstacle?_ofDescriptor] at ran
  obtain ⟨before, symbol, after, order, refusal, passed⟩ := List.findSome?_eq_some_iff.1 ran
  exact ⟨before, symbol, after, order, fun earlier member => groupObstacle?_eq_none.1 (passed earlier member),
    groupObstacle?_eq_some refusal⟩

/-- Lowering fails exactly if a parameter that the binding requires has no type. The first symbol with such a
parameter is blamed, with a text that the parameter holds and that has no type by itself. -/
theorem ofDescriptor_refuses (everyOverload : Bool) (descriptor : Descriptor) :
    ((∃ refused, ofDescriptor everyOverload descriptor = .error refused) ↔
      ∃ symbol param, descriptor.Requires everyOverload symbol param ∧ ∃ text, ofParam param = .error text) ∧
    ∀ refused, ofDescriptor everyOverload descriptor = .error refused →
      refused.descriptor = descriptor.name ∧
      ∃ before symbol after, firstOfEach id descriptor.symbols = before ++ symbol :: after ∧
        (∀ earlier ∈ before, ∀ param, descriptor.Requires everyOverload earlier param →
          ∃ type, ofParam param = .ok type) ∧
        refused.symbol = symbol.text ∧
        ∃ param, descriptor.Requires everyOverload symbol param ∧ ofParam param = .error refused.type ∧
          param.Holds refused.type.toList ∧ Refused refused.type := by
  constructor
  · rw [exists_error_iff, ofDescriptor_lowers_iff]
    simp only [exists_error_iff, not_forall, exists_prop]
  · intro refused ran
    obtain ⟨before, symbol, after, order, passed, param, requires, stuck, same⟩ := exists_first_of_refused ran
    obtain ⟨holds, alone⟩ := holds_of_ofParam stuck
    exact ⟨congrArg Unmappable.descriptor same, before, symbol, after, order, passed, congrArg Unmappable.symbol same,
      param, requires, stuck, holds, alone⟩

end

def priced : Descriptor where
  name := "Oracle"
  items := [
    .event "Priced" [.plain "by" "address"] false,
    .function "price" [] [.plain "" "uint256"] .view none,
    .error "Stale" [.plain "since" "uint7"],
    .function "price" [.tuple "quotes" "[2]" [.plain "feed" "address", .plain "rates" "fixed128x18[]"]] [] .view none]

/-- The function is blamed where all its declarations count, in front of the error, and the error otherwise. -/
theorem ofDescriptor_refuses_priced :
    ofDescriptor true priced = .error ⟨"Oracle", "function price", "fixed128x18"⟩ ∧ Refused "fixed128x18" ∧
      ofDescriptor false priced = .error ⟨"Oracle", "error Stale", "uint7"⟩ ∧ Refused "uint7" := by
  have every : ofDescriptor true priced = .error ⟨"Oracle", "function price", "fixed128x18"⟩ :=
    obstacle?_eq_some.1 (by decide +kernel)
  have first : ofDescriptor false priced = .error ⟨"Oracle", "error Stale", "uint7"⟩ :=
    obstacle?_eq_some.1 (by decide +kernel)
  obtain ⟨-, _, _, _, -, -, -, _, -, -, -, number⟩ := (ofDescriptor_refuses true priced).2 _ every
  obtain ⟨-, _, _, _, -, -, -, _, -, -, -, integer⟩ := (ofDescriptor_refuses false priced).2 _ first
  exact ⟨every, number, first, integer⟩

end BindingPlan
end ContractBuild
