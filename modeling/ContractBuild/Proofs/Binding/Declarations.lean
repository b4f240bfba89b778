import ContractBuild.Proofs.Binding.Keys
import ContractBuild.Binding.RustModule

/-!
The declarations that the items of a module are for. With every overload the calls are those of all declared
functions, otherwise those of the first declaration of each name; the events are all declared events.
-/
namespace ContractBuild

/-- A list is put together from what its members say of themselves. -/
theorem perm_flatMap_filter {α κ : Type} [DecidableEq κ] (key : α → κ) (xs : List α) {keys : List κ}
    (nodup : keys.Nodup) :
    (keys.flatMap fun k => xs.filter fun x => key x = k).Perm (xs.filter fun x => key x ∈ keys) := by
  induction keys with
  | nil => simp
  | cons k keys ih =>
    obtain ⟨absent, nodup⟩ := List.nodup_cons.1 nodup
    have own : (xs.filter fun x => key x ∈ k :: keys).filter (fun x => key x = k) = xs.filter fun x => key x = k := by
      rw [List.filter_filter]
      exact List.filter_congr fun x _ => by simp +contextual
    have others : (xs.filter fun x => key x ∈ k :: keys).filter (fun x => !decide (key x = k)) =
        xs.filter fun x => key x ∈ keys := by
      rw [List.filter_filter]
      refine List.filter_congr fun x _ => ?_
      by_cases same : key x = k
      · simp [same, absent]
      · simp [same]
    rw [List.flatMap_cons]
    have parts := List.filter_append_perm (fun x => decide (key x = k)) (xs.filter fun x => key x ∈ k :: keys)
    rw [own, others] at parts
    exact ((ih nodup).append_left _).trans parts

namespace Item

def isFunction : Item → Bool
  | function .. => true
  | _ => false

def title (item : Item) : String × String :=
  (item.label, item.signature)

end Item

namespace Symbol

def isFunction : Symbol → Bool
  | function _ => true
  | _ => false

def isEvent : Symbol → Bool
  | event _ => true
  | _ => false

end Symbol

theorem Item.isFunction_symbol (item : Item) : item.symbol.isFunction = item.isFunction := by
  cases item <;> rfl

theorem Item.isEvent_symbol (item : Item) : item.symbol.isEvent = item.isEvent := by
  cases item <;> rfl

def FunctionEntry.title (entry : FunctionEntry) : String × String :=
  (entry.name, entry.signature)

def EventEntry.title (entry : EventEntry) : String × String :=
  (entry.name, entry.signature)

namespace Offer

def isKept (offer : Offer) : Bool :=
  offer.overloaded || offer.keying = .name

variable {offer : Offer} {entry : FunctionEntry} {offers : List Offer} {entries : List FunctionEntry}

theorem hasStruct_of_made? (made : offer.made? = some entry) : RustModule.hasStruct entry = offer.isKept := by
  obtain ⟨_, _, _, -, -, -, -, -, overloaded, -⟩ := made?_eq_some.1 made
  rw [RustModule.hasStruct, isSignatureKey_of_made? made, overloaded, isKept]
  cases offer.keying <;> rfl

theorem title_of_made? (made : offer.made? = some entry) : entry.title = offer.item.title := by
  obtain ⟨_, _, _, item, -, -, -, signature, -⟩ := made?_eq_some.1 made
  rw [FunctionEntry.title, signature, Item.title, show offer.item.label = entry.name by rw [item]; rfl]

theorem Make.filter {p : FunctionEntry → Bool} {q : Offer → Bool} (made : Make offers entries)
    (each : ∀ {offer : Offer} {entry}, offer.made? = some entry → p entry = q offer) :
    Make (offers.filter q) (entries.filter p) := by
  induction offers generalizing entries with
  | nil =>
    cases List.map_eq_nil_iff.1 made
    exact .nil
  | cons offer offers ih =>
    obtain ⟨entry, others, rfl, first, rest⟩ := make_cons.1 made
    rw [List.filter_cons, List.filter_cons, each first]
    split
    · exact make_cons.2 ⟨entry, _, rfl, first, ih rest⟩
    · exact ih rest

/-- With every overload each declaration of a name is kept once. -/
theorem items_every (items : List Item) : ((every items).filter isKept).map (·.item) = items := by
  match items with
  | [] => rfl
  | [item] => rfl
  | first :: second :: items =>
    have kept : ∀ offer ∈ every (first :: second :: items), offer.isKept = true := by
      intro offer member
      obtain ⟨n, small, rfl⟩ := List.mem_mapIdx.1 (show offer ∈ List.mapIdx _ _ from member)
      rfl
    rw [List.filter_eq_self.2 kept]
    show (List.mapIdx _ _).map _ = _
    apply List.ext_getElem
    · simp
    · intro n _ _
      rw [List.getElem_map, List.getElem_mapIdx]

theorem items_first (items : List Item) : ((first? items).toList.filter isKept).map (·.item) = items.take 1 := by
  cases items with
  | nil => rfl
  | cons item items =>
    simp [first?, isKept]

end Offer

namespace BindingPlan
variable {everyOverload : Bool} {symbol : Symbol} {items : List Item} {groups : List (Symbol × List Item)}
  {functions : List FunctionEntry} {events : List EventEntry}

def calledOf (everyOverload : Bool) (group : Symbol × List Item) : List Item :=
  if group.1.isFunction then (if everyOverload then group.2 else group.2.take 1) else []

def eventsOf (group : Symbol × List Item) : List Item :=
  if group.1.isEvent then group.2 else []

theorem items_offers (group : Symbol × List Item) :
    ((offers everyOverload group).filter Offer.isKept).map (·.item) = calledOf everyOverload group := by
  obtain ⟨symbol, items⟩ := group
  cases symbol with
  | function name =>
    cases everyOverload with
    | true => exact Offer.items_every items
    | false => exact Offer.items_first items
  | _ => rfl

theorem titles_offers (groups : List (Symbol × List Item)) :
    ((groups.flatMap (offers everyOverload)).filter Offer.isKept).map (fun offer => offer.item.title) =
      (groups.flatMap (calledOf everyOverload)).map Item.title := by
  induction groups with
  | nil => rfl
  | cons group groups ih =>
    rw [List.flatMap_cons, List.flatMap_cons, List.filter_append, List.map_append, List.map_append, ih,
      ← items_offers, List.map_map]
    rfl

theorem made_symbolEntries (symbols : ∀ item ∈ items, item.symbol = symbol)
    (lowered : symbolEntries everyOverload symbol items = .ok (functions, events)) :
    Offer.Make (offers everyOverload (symbol, items)) functions ∧
      events.map EventEntry.title = (eventsOf (symbol, items)).map Item.title := by
  cases symbol with
  | function name =>
    obtain ⟨made, rfl⟩ := (symbolEntries_function symbols).1 lowered
    exact ⟨made, rfl⟩
  | event name =>
    obtain ⟨rfl, made⟩ := symbolEntries_event lowered
    refine ⟨.nil, map_eventEntries symbols made fun entry => ?_⟩
    cases entry
    rfl
  | error name | constructor =>
    rw [symbolEntries] at lowered
    cases taken : checkInputs items <;> rw [taken] at lowered <;> cases lowered
    exact ⟨.nil, rfl⟩
  | fallback | receive =>
    cases lowered
    exact ⟨.nil, rfl⟩

theorem made_groupEntries {descriptor : String} (symbols : ∀ group ∈ groups, ∀ item ∈ group.2, item.symbol = group.1)
    (lowered : groupEntries descriptor everyOverload groups = .ok (functions, events)) :
    Offer.Make (groups.flatMap (offers everyOverload)) functions ∧
      events.map EventEntry.title = (groups.flatMap eventsOf).map Item.title := by
  induction groups generalizing functions events with
  | nil =>
    cases lowered
    exact ⟨.nil, rfl⟩
  | cons group groups ih =>
    obtain ⟨symbol, items⟩ := group
    obtain ⟨here, others⟩ := List.forall_mem_cons.1 symbols
    obtain ⟨own, ownEvents, more, moreEvents, taken, rest, rfl, rfl⟩ := groupEntries_cons.1 lowered
    obtain ⟨made, titles⟩ := made_symbolEntries here taken
    obtain ⟨moreMade, moreTitles⟩ := ih others rest
    refine ⟨Offer.make_append.2 ⟨own, more, rfl, made, moreMade⟩, ?_⟩
    rw [List.map_append, List.flatMap_cons, List.map_append, titles, moreTitles]

end BindingPlan

namespace Descriptor

/-- The symbols put together have the entries of the descriptor, in another order. -/
theorem perm_grouped (descriptor : Descriptor) :
    (descriptor.grouped.flatMap Prod.snd).Perm descriptor.items := by
  have nodup := nodup_firstOfEach id descriptor.symbols
  rw [List.map_id] at nodup
  have listed : (descriptor.items.filter fun item => item.symbol ∈ firstOfEach id descriptor.symbols) =
      descriptor.items := by
    refine List.filter_eq_self.2 fun item member => decide_eq_true ?_
    rw [← List.map_id (firstOfEach id _), mem_keys_firstOfEach, List.map_id]
    exact List.mem_map_of_mem member
  have perm := perm_flatMap_filter Item.symbol descriptor.items nodup
  rw [listed] at perm
  rwa [grouped_eq, List.flatMap_map]

/-- What is taken of the symbols of one kind is what there is of that kind. -/
theorem perm_grouped_of_kind (descriptor : Descriptor) {ofSymbol : Symbol → Bool} {ofItem : Item → Bool}
    (kinds : ∀ item : Item, ofSymbol item.symbol = ofItem item) :
    (descriptor.grouped.flatMap fun group => if ofSymbol group.1 then group.2 else []).Perm
      (descriptor.items.filter ofItem) := by
  have each : (descriptor.grouped.flatMap Prod.snd).filter ofItem =
      descriptor.grouped.flatMap fun group => if ofSymbol group.1 then group.2 else [] := by
    rw [List.filter_flatMap]
    refine List.flatMap_congr fun group listed => ?_
    have symbols := symbol_of_mem_grouped listed
    split
    · next isKind => exact List.filter_eq_self.2 fun item member => by rw [← kinds, symbols item member, isKind]
    · next other =>
      refine List.filter_eq_nil_iff.2 fun item member => ?_
      rw [← kinds, symbols item member]
      exact other
  exact each ▸ (perm_grouped descriptor).filter ofItem

def firstFunctions (descriptor : Descriptor) : List Item :=
  descriptor.functionNames.flatMap fun name => (descriptor.itemsOf (.function name)).take 1

theorem label_firstFunctions (descriptor : Descriptor) :
    descriptor.firstFunctions.map Item.label = descriptor.functionNames := by
  refine Eq.trans ?_ (List.flatMap_singleton' descriptor.functionNames)
  rw [firstFunctions, List.map_flatMap]
  refine List.flatMap_congr fun name listed => ?_
  obtain ⟨item, member, symbol⟩ := mem_functionNames.1 listed
  obtain ⟨first, others, split⟩ :=
    List.exists_cons_of_ne_nil (List.ne_nil_of_mem (mem_itemsOf.2 ⟨member, symbol⟩))
  have own : first.symbol = .function name := (mem_itemsOf.1 (split ▸ List.mem_cons_self)).2
  rw [split]
  cases first with
  | function => exact congrArg (fun label => [label]) (Symbol.function.inj own)
  | _ => cases own

end Descriptor

namespace BindingPlan
open RustModule (hasStruct)

/-- The entries with structs are for the declared functions, each once, or for the first of each name; the
event entries are for the declared events. -/
theorem titles_spec {everyOverload : Bool} {descriptor : Descriptor} {plan : BindingPlan}
    (lowered : ofDescriptor everyOverload descriptor = .ok plan) :
    (everyOverload = true → ((plan.functions.filter hasStruct).map FunctionEntry.title).Perm
      ((descriptor.items.filter Item.isFunction).map Item.title)) ∧
    (everyOverload = false → (plan.functions.filter hasStruct).map FunctionEntry.title =
      descriptor.firstFunctions.map Item.title) ∧
    (plan.events.map EventEntry.title).Perm ((descriptor.items.filter Item.isEvent).map Item.title) := by
  obtain ⟨grouped, -⟩ := ofDescriptor_eq_ok.1 lowered
  obtain ⟨made, events⟩ := made_groupEntries (fun _ => Descriptor.symbol_of_mem_grouped) grouped
  have kept : (plan.functions.filter hasStruct).map FunctionEntry.title =
      ((descriptor.grouped.flatMap (offers everyOverload)).filter Offer.isKept).map fun offer => offer.item.title :=
    (made.filter Offer.hasStruct_of_made?).map_eq Offer.title_of_made?
  refine ⟨?_, ?_, ?_⟩
  · rintro rfl
    rw [kept, titles_offers]
    exact (descriptor.perm_grouped_of_kind Item.isFunction_symbol).map Item.title
  · rintro rfl
    have named := @titles_offers false
      (descriptor.functionNames.map fun name => (.function name, descriptor.itemsOf (.function name)))
    rw [List.flatMap_map, List.flatMap_map] at named
    rw [kept, Descriptor.flatMap_offers, named]
    rfl
  · rw [events]
    exact (descriptor.perm_grouped_of_kind Item.isEvent_symbol).map Item.title

end BindingPlan
end ContractBuild
