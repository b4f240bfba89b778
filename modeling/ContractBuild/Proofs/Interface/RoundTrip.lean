import ContractBuild.Proofs.Build.Records
import ContractBuild.Proofs.Json.Limits

/-!
Interfaces written and read again. Whatever form an interface was read from, what is written of it is
nested no deeper than the form it came from or than a fixed depth, has the numbers that were read, and
no key twice. So it is read back as it was, in every layout.
-/
namespace ContractBuild
open Json

namespace Param

/-! Written parameters are read back. -/

mutual

theorem ofJson?_toJson : ∀ param : Param, ofJson? param.toJson = some param
  | ⟨name, type, internalType, none, indexed⟩ => by
    cases internalType <;> cases indexed <;> rfl
  | ⟨name, type, internalType, some params, indexed⟩ => by
    have inner := listOfJson?_listToJson params
    cases internalType <;> cases indexed <;>
      simp [toJson, ofJson?, member?, componentsAmong?, components?, inner, assemble?, defaulted?,
        optional?, required?, asString?, asBool?, asOption?]

theorem listOfJson?_listToJson : ∀ params : List Param, listOfJson? (listToJson params) = some params
  | [] => rfl
  | param :: params => by
    rw [listToJson, listOfJson?, ofJson?_toJson param, listOfJson?_listToJson params]
    rfl

end

mutual

theorem lastWins_toJson : ∀ param : Param, lastWins param.toJson = param.toJson
  | ⟨name, type, internalType, none, indexed⟩ => by
    cases internalType <;> cases indexed <;> simp [toJson, lastWins, membersLastWin, lastOfEach]
  | ⟨name, type, internalType, some params, indexed⟩ => by
    have inner := itemsLastWin_listToJson params
    cases internalType <;> cases indexed <;> simp [toJson, lastWins, membersLastWin, lastOfEach, inner]

theorem itemsLastWin_listToJson : ∀ params : List Param, itemsLastWin (listToJson params) = listToJson params
  | [] => rfl
  | param :: params => by
    rw [listToJson, itemsLastWin, lastWins_toJson param, itemsLastWin_listToJson params]

end

/-! What is written of parameters is nested as deep as what they were read from. -/

theorem components_of_assemble? {name type internalType indexed : Option Json}
    {components : Option (List Param)} {param : Param}
    (read : assemble? name type internalType components indexed = some param) :
    param.components = components := by
  obtain ⟨_, _, read⟩ := Option.bind_eq_some_iff.1 read
  obtain ⟨_, _, read⟩ := Option.bind_eq_some_iff.1 read
  obtain ⟨_, _, read⟩ := Option.bind_eq_some_iff.1 read
  obtain ⟨_, _, read⟩ := Option.bind_eq_some_iff.1 read
  cases read
  rfl

/-- A parameter takes one level of nesting and those of its members. -/
theorem fits_toJson {room : Nat} {param : Param} (isOpen : 0 < room)
    (inner : ∀ params ∈ param.components, fits (room - 1) (array (listToJson params)) = true) :
    fits room param.toJson = true := by
  obtain ⟨name, type, internalType, components, indexed⟩ := param
  cases components with
  | none => cases internalType <;> cases indexed <;> simp [toJson, isOpen]
  | some params =>
    have inside := fits_array.1 (inner params rfl)
    cases internalType <;> cases indexed <;> simpa [toJson, isOpen] using inside

mutual

theorem fits_of_ofJson? : ∀ {value : Json} {room : Nat} {param : Param}, ofJson? value = some param →
    fits room value = true → fits room param.toJson = true
  | .object members, room, param => by
    intro read fit
    rw [fits, Bool.and_eq_true, decide_eq_true_eq] at fit
    rw [ofJson?] at read
    obtain ⟨_, _, read⟩ := Option.bind_eq_some_iff.1 read
    obtain ⟨_, _, read⟩ := Option.bind_eq_some_iff.1 read
    obtain ⟨_, _, read⟩ := Option.bind_eq_some_iff.1 read
    obtain ⟨_, _, read⟩ := Option.bind_eq_some_iff.1 read
    obtain ⟨components, isComponents, read⟩ := Option.bind_eq_some_iff.1 read
    obtain ⟨_, _, read⟩ := Option.bind_eq_some_iff.1 read
    rw [← components_of_assemble? read] at isComponents
    exact fits_toJson fit.1 (fits_of_componentsAmong? isComponents fit.2)
  | .array [name, type], room, param | .array [name, type, internalType], room, param => by
    intro read fit
    rw [ofJson?] at read
    refine fits_toJson (fits_array.1 fit).1 fun params member => ?_
    rw [components_of_assemble? read] at member
    cases member
  | .array [name, type, internalType, components], room, param
  | .array [name, type, internalType, components, indexed], room, param => by
    intro read fit
    rw [fits_array] at fit
    rw [ofJson?] at read
    obtain ⟨read?, isRead, read⟩ := Option.bind_eq_some_iff.1 read
    rw [← components_of_assemble? read] at isRead
    exact fits_toJson fit.1 (fits_of_components? isRead (fit.2 components (by simp)))
  | .array [], _, _ | .array [_], _, _ | .array (_ :: _ :: _ :: _ :: _ :: _ :: _), _, _ =>
    fun read => by simp [ofJson?] at read
  | .null, _, _ | .bool _, _, _ | .natural _, _, _ | .decimal _, _, _ | .string _, _, _
  | .unreadable, _, _ => fun read => by simp [ofJson?] at read

theorem fits_of_componentsAmong? : ∀ {members : List (String × Json)} {room : Nat}
    {read : Option (List Param)}, componentsAmong? members = some read → memberFit room members = true →
    ∀ params ∈ read, fits room (array (listToJson params)) = true
  | [], room, read => by
    intro found _
    cases found
    exact fun _ none => nomatch none
  | (key, value) :: members, room, read => by
    intro found fit
    rw [memberFit, Bool.and_eq_true] at fit
    rw [componentsAmong?] at found
    split at found
    · exact fits_of_components? found fit.1
    · exact fits_of_componentsAmong? found fit.2

theorem fits_of_components? : ∀ {value : Json} {room : Nat} {read : Option (List Param)},
    components? value = some read → fits room value = true →
    ∀ params ∈ read, fits room (array (listToJson params)) = true
  | .array items, room, read => by
    intro found fit
    rw [fits, Bool.and_eq_true] at fit
    rw [components?] at found
    obtain ⟨params, isParams, rfl⟩ := Option.map_eq_some_iff.1 found
    intro others same
    cases same
    rw [fits, fit.1, areFit_of_listOfJson? isParams fit.2]
    rfl
  | .null, room, read => by
    intro found _
    rw [components?] at found
    cases found
    exact fun _ none => nomatch none
  | .object _, _, _ | .bool _, _, _ | .natural _, _, _ | .decimal _, _, _ | .string _, _, _
  | .unreadable, _, _ => fun found => by simp [components?] at found

theorem areFit_of_listOfJson? : ∀ {items : List Json} {room : Nat} {params : List Param},
    listOfJson? items = some params → areFit room items = true → areFit room (listToJson params) = true
  | [], _, _ => by
    intro found _
    cases found
    rfl
  | item :: items, room, params => by
    intro found fit
    rw [areFit, Bool.and_eq_true] at fit
    rw [listOfJson?] at found
    obtain ⟨first, isFirst, found⟩ := Option.bind_eq_some_iff.1 found
    obtain ⟨others, isOthers, found⟩ := Option.bind_eq_some_iff.1 found
    cases found
    rw [listToJson, areFit, fits_of_ofJson? isFirst fit.1, areFit_of_listOfJson? isOthers fit.2]
    rfl

end

end Param

namespace Item

/-! Written entries are read back. -/

theorem paramsOr?_params (list : List Param) : paramsOr? (some (Item.params list)) = some list :=
  Param.listOfJson?_listToJson list

theorem lastWins_params (list : List Param) : lastWins (Item.params list) = Item.params list := by
  rw [Item.params, lastWins, Param.itemsLastWin_listToJson]

/-- An entry is read from the members behind its tag. -/
theorem ofJson?_tagged {kind : String} {members : List (String × Json)}
    (readable : isReadable (object members) = true) (untagged : ∀ member ∈ members, member.1 ≠ "type") :
    ofJson? (object (("type", string kind) :: members)) = ofFields? kind (object members) := by
  have none : members.filter (fun member => decide (member.1 = "type")) = [] := by
    simpa [List.filter_eq_nil_iff] using untagged
  have all : members.filter (fun member => !decide (member.1 = "type")) = members := by
    simpa [List.filter_eq_self] using untagged
  rw [isReadable] at readable
  simp [ofJson?, tagged?, isReadable, memberReadable, readable, none, all]

theorem ofJson?_toJson (item : Item) : ofJson? item.toJson = some item := by
  have readable := isReadable_of_isData (isData_toJson item)
  cases item with
  | function name inputs outputs mutability gas =>
    rw [toJson, List.cons_append] at readable ⊢
    rw [isReadable, memberReadable, Bool.and_eq_true] at readable
    rw [ofJson?_tagged (by rw [isReadable]; exact readable.2) (by cases gas <;> simp)]
    cases gas <;>
      simp [ofFields?, fields?, member?, required?, asString?, paramsOr?_params, mutabilityOr?_text,
        optional?, defaulted?, asOption?, asNatural?]
  | event name inputs anonymous =>
    rw [toJson, isReadable, memberReadable, Bool.and_eq_true] at readable
    rw [toJson, ofJson?_tagged (by rw [isReadable]; exact readable.2) (by simp)]
    simp [ofFields?, fields?, member?, required?, asString?, paramsOr?_params, defaulted?, asBool?]
  | error name inputs =>
    rw [toJson, isReadable, memberReadable, Bool.and_eq_true] at readable
    rw [toJson, ofJson?_tagged (by rw [isReadable]; exact readable.2) (by simp)]
    simp [ofFields?, fields?, member?, required?, asString?, paramsOr?_params]
  | constructor inputs mutability =>
    rw [toJson, isReadable, memberReadable, Bool.and_eq_true] at readable
    rw [toJson, ofJson?_tagged (by rw [isReadable]; exact readable.2) (by simp)]
    simp [ofFields?, fields?, member?, paramsOr?_params, mutabilityOr?_text]
  | fallback mutability | receive mutability =>
    rw [toJson, ofJson?_tagged rfl (by simp)]
    simp [ofFields?, fields?, member?, mutabilityOr?_text]

theorem lastWins_toJson (item : Item) : lastWins item.toJson = item.toJson := by
  cases item with
  | function name inputs outputs mutability gas =>
    cases gas <;> simp [toJson, lastWins, membersLastWin, lastOfEach, lastWins_params]
  | event | error | constructor | fallback | receive =>
    simp [toJson, lastWins, membersLastWin, lastOfEach, lastWins_params]

theorem lastWins_listToJson (items : List Item) : lastWins (listToJson items) = listToJson items := by
  rw [listToJson, lastWins]
  congr 1
  induction items with
  | nil => rfl
  | cons item items ih => rw [List.map_cons, itemsLastWin, lastWins_toJson, ih]

theorem manyOfJson?_listToJson (items : List Item) : manyOfJson? (listToJson items) = some items := by
  rw [listToJson, manyOfJson?, asList?]
  induction items with
  | nil => rfl
  | cons item items ih =>
    rw [List.map_cons, List.mapM_cons, ofJson?_toJson, ih]
    rfl

/-! What is written of entries is nested as deep as what they were read from, or three levels. -/

def FieldFits (room : Nat) (field : Option Json) : Prop :=
  ∀ value ∈ field, fits room value = true

theorem fields_fit {keys : List String} {value : Json} {room : Nat} {fields : List (Option Json)}
    (read : fields? keys value = some fields) (fit : fits (room + 1) value = true) :
    ∀ field ∈ fields, FieldFits room field := by
  cases value with
  | object members =>
    rw [fits_object] at fit
    rw [fields?] at read
    induction keys generalizing fields with
    | nil =>
      cases read
      exact fun _ member => absurd member List.not_mem_nil
    | cons key keys ih =>
      rw [List.mapM_cons] at read
      obtain ⟨field, isField, read⟩ := Option.bind_eq_some_iff.1 read
      obtain ⟨others, isOthers, read⟩ := Option.bind_eq_some_iff.1 read
      cases read
      refine List.forall_mem_cons.2 ⟨fun value isValue => ?_, ih isOthers⟩
      rw [Option.mem_def] at isValue
      subst isValue
      unfold member? at isField
      split at isField
      · cases isField
      · next only =>
        cases isField
        have inside : (_, value) ∈ members.filter fun member => decide (member.1 = key) :=
          only ▸ List.mem_singleton_self _
        exact fit.2 _ (List.mem_filter.1 inside).1
      · cases isField
  | array items =>
    rw [fits_array] at fit
    rw [fields?, Option.ite_none_right_eq_some] at read
    cases read.2
    intro field member value isValue
    rcases List.mem_append.1 member with inside | absent
    · obtain ⟨item, isItem, rfl⟩ := List.mem_map.1 inside
      cases isValue
      exact fit.2 _ isItem
    · rw [List.eq_of_mem_replicate absent] at isValue
      cases isValue
  | null | bool | natural | decimal | string | unreadable => cases read

theorem fits_rest {value rest : Json} {room : Nat} {kind : String}
    (tagged : tagged? "type" value = some (kind, rest)) (fit : fits (room + 1) value = true) :
    fits (room + 1) rest = true := by
  unfold tagged? at tagged
  split at tagged
  · cases tagged
  · split at tagged
    · split at tagged
      · cases tagged
        rw [fits_object] at fit ⊢
        exact ⟨fit.1, fun member inside => fit.2 member (List.mem_filter.1 inside).1⟩
      · cases tagged
    · cases tagged
      rw [fits_array] at fit ⊢
      exact ⟨fit.1, fun item inside => fit.2 item (List.mem_cons_of_mem _ inside)⟩
    · cases tagged

theorem fits_paramsOr? {field : Option Json} {room : Nat} {list : List Param}
    (read : paramsOr? field = some list) (fit : FieldFits (room + 1) field) :
    fits (room + 1) (Item.params list) = true := by
  cases field with
  | none =>
    cases read
    exact fits_array.2 ⟨Nat.succ_pos room, fun _ member => nomatch member⟩
  | some value =>
    have isList : Param.components? value = some (some list) := by
      cases value <;> simp [paramsOr?, defaulted?, Param.manyOfJson?] at read
      rw [Param.components?, read]
      rfl
    exact Param.fits_of_components? isList (fit value rfl) list rfl

theorem fits_gas {field : Option Json} {room : Nat} {gas : Option Nat}
    (read : optional? asNatural? field = some gas) (fit : FieldFits room field) :
    ∀ amount ∈ gas, fits room (natural amount) = true := by
  intro amount member
  cases member
  cases field with
  | none => cases read
  | some value =>
    cases value <;> simp [optional?, defaulted?, asOption?, asNatural?] at read
    subst read
    exact fit _ rfl

theorem fits_ofFields? {kind : String} {rest : Json} {room : Nat} {item : Item}
    (read : ofFields? kind rest = some item) (fit : fits (room + 2) rest = true) :
    fits (room + 2) item.toJson = true := by
  unfold ofFields? at read
  split at read
  · obtain ⟨fields, isFields, read⟩ := Option.bind_eq_some_iff.1 read
    have inside := fields_fit isFields fit
    split at read
    · obtain ⟨name, _, read⟩ := Option.bind_eq_some_iff.1 read
      obtain ⟨inputs, isInputs, read⟩ := Option.bind_eq_some_iff.1 read
      obtain ⟨outputs, isOutputs, read⟩ := Option.bind_eq_some_iff.1 read
      obtain ⟨mutability, _, read⟩ := Option.bind_eq_some_iff.1 read
      obtain ⟨gas, isGas, read⟩ := Option.bind_eq_some_iff.1 read
      cases read
      have first := fits_paramsOr? isInputs (inside _ (by simp))
      have second := fits_paramsOr? isOutputs (inside _ (by simp))
      have third := fits_gas isGas (inside _ (by simp))
      cases gas with
      | none => simp [toJson, first, second]
      | some amount => simp [toJson, first, second, third amount rfl]
    · cases read
  · obtain ⟨fields, isFields, read⟩ := Option.bind_eq_some_iff.1 read
    have inside := fields_fit isFields fit
    split at read
    · obtain ⟨name, _, read⟩ := Option.bind_eq_some_iff.1 read
      obtain ⟨inputs, isInputs, read⟩ := Option.bind_eq_some_iff.1 read
      obtain ⟨anonymous, _, read⟩ := Option.bind_eq_some_iff.1 read
      cases read
      simp [toJson, fits_paramsOr? isInputs (inside _ (by simp))]
    · cases read
  · obtain ⟨fields, isFields, read⟩ := Option.bind_eq_some_iff.1 read
    have inside := fields_fit isFields fit
    split at read
    · obtain ⟨name, _, read⟩ := Option.bind_eq_some_iff.1 read
      obtain ⟨inputs, isInputs, read⟩ := Option.bind_eq_some_iff.1 read
      cases read
      simp [toJson, fits_paramsOr? isInputs (inside _ (by simp))]
    · cases read
  · obtain ⟨fields, isFields, read⟩ := Option.bind_eq_some_iff.1 read
    have inside := fields_fit isFields fit
    split at read
    · obtain ⟨inputs, isInputs, read⟩ := Option.bind_eq_some_iff.1 read
      obtain ⟨mutability, _, read⟩ := Option.bind_eq_some_iff.1 read
      cases read
      simp [toJson, fits_paramsOr? isInputs (inside _ (by simp))]
    · cases read
  · obtain ⟨fields, isFields, read⟩ := Option.bind_eq_some_iff.1 read
    split at read
    · obtain ⟨mutability, _, read⟩ := Option.bind_eq_some_iff.1 read
      cases read
      simp [toJson]
    · cases read
  · obtain ⟨fields, isFields, read⟩ := Option.bind_eq_some_iff.1 read
    split at read
    · obtain ⟨mutability, _, read⟩ := Option.bind_eq_some_iff.1 read
      cases read
      simp [toJson]
    · cases read
  · cases read

/-- What is written of an interface keeps to the limits of the text that it was read from. -/
theorem fits_listToJson {value : Json} {room : Nat} {items : List Item}
    (read : manyOfJson? value = some items) (fit : fits (room + 3) value = true) :
    fits (room + 3) (listToJson items) = true := by
  cases value with
  | array values =>
    rw [fits_array] at fit
    refine fits_array.2 ⟨fit.1, ?_⟩
    obtain ⟨_, fit⟩ := fit
    rw [manyOfJson?, asList?] at read
    induction values generalizing items with
    | nil =>
      cases read
      exact fun _ member => absurd member List.not_mem_nil
    | cons value values ih =>
      rw [List.mapM_cons] at read
      obtain ⟨item, isItem, read⟩ := Option.bind_eq_some_iff.1 read
      obtain ⟨others, isOthers, read⟩ := Option.bind_eq_some_iff.1 read
      cases read
      obtain ⟨⟨kind, rest⟩, tagged, isItem⟩ := Option.bind_eq_some_iff.1 isItem
      have first := fits_ofFields? isItem (fits_rest tagged (fit value List.mem_cons_self))
      exact List.forall_mem_cons.2
        ⟨first, ih isOthers fun other inside => fit other (List.mem_cons_of_mem _ inside)⟩
  | null | bool | natural | decimal | string | object | unreadable => cases read

end Item

namespace Descriptor

theorem fits_interfaceOf {value interface : Json} (found : interfaceOf value = .ok interface)
    (fit : fits depthLimit value = true) : fits depthLimit interface = true := by
  unfold interfaceOf at found
  split at found
  · cases found
    exact fit
  · next members =>
    split at found
    · next value isValue =>
      cases found
      exact fits_mono (Nat.sub_le depthLimit 1) ((fits_object.1 fit).2 _ (List.mem_of_find?_eq_some isValue))
    · cases found
  · cases found

theorem fits_of_ofText {name text : String} {descriptor : Descriptor}
    (read : ofText name text = .ok descriptor) :
    descriptor.name = name ∧ fits depthLimit (Item.listToJson descriptor.items) = true := by
  unfold ofText at read
  split at read
  · cases read
  · next value isValue =>
    unfold ofJson at read
    cases found : interfaceOf value with
    | error reason =>
      rw [found] at read
      cases read
    | ok interface =>
      simp only [found, bind, Except.bind] at read
      split at read
      · cases read
      · next items isItems =>
        cases read
        exact ⟨rfl, Item.fits_listToJson isItems (fits_interfaceOf found (fits_read? isValue))⟩

theorem ofText_listToJson (name : String) {items : List Item} (spacing : Nat)
    (fit : fits depthLimit (Item.listToJson items) = true) :
    ofText name (toText ⟨name, items⟩ spacing) = .ok ⟨name, items⟩ := by
  rw [ofText, toText, read?_write spacing (Item.isData_listToJson items) fit "\n" rfl,
    Item.lastWins_listToJson]
  dsimp only
  rw [ofJson, Item.listToJson, interfaceOf, ← Item.listToJson]
  simp only [bind, Except.bind, Item.manyOfJson?_listToJson]

/-- Whatever text a descriptor was read from, it is read back from what is written of it, and written
again as before. -/
theorem ofText_toText {name text : String} {descriptor : Descriptor}
    (read : ofText name text = .ok descriptor) (spacing : Nat) :
    ∃ again, ofText name (descriptor.toText spacing) = .ok again ∧ again.name = descriptor.name ∧
      again.items = descriptor.items ∧ again.toText spacing = descriptor.toText spacing := by
  obtain ⟨named, fit⟩ := fits_of_ofText read
  obtain ⟨_, items⟩ := descriptor
  subst named
  exact ⟨_, ofText_listToJson _ spacing fit, rfl, rfl, rfl⟩

theorem ofText_toText_swap :
    let text := "\x7b\"abi\": [[\"event\", \"Swap\", [[\"id\", \"uint256\"]]], \x7b\"type\": \"function\", " ++
      "\"name\": \"swap\\u0009\", \"gas\": 7, \"inputs\": [\x7b\"type\": \"tuple\", \"components\": []\x7d]\x7d]\x7d"
    ∃ descriptor again, ofText "Pool" text = .ok descriptor ∧
      ofText "Pool" (descriptor.toText 2) = .ok again ∧ again.name = descriptor.name ∧
      again.items = descriptor.items ∧ again.toText 2 = descriptor.toText 2 := by
  intro text
  have spelled : text.toList = _ :=
    String.toList_append.trans (congrArg₂ (· ++ ·) String.toList_ofList String.toList_ofList)
  have same : text = String.ofList _ := String.ofList_toList.symm.trans (congrArg String.ofList spelled)
  have accepted : (ofText "Pool" text).toOption.isSome = true := by
    rw [same, ofText, read?_ofList]
    decide +kernel
  cases read : ofText "Pool" text with
  | error reason =>
    rw [read] at accepted
    cases accepted
  | ok descriptor =>
    obtain ⟨again, found⟩ := ofText_toText read 2
    exact ⟨descriptor, again, rfl, found⟩

end Descriptor
end ContractBuild
