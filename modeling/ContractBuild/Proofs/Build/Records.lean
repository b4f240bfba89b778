import ContractBuild.Proofs.Json.Interfaces
import ContractBuild.Artifact
import ContractBuild.Build.Stamp

/-!
What the records of a build read as. A stamp that was saved tells of its generation; descriptors
and artifacts tell of none, wherever they are written. An artifact's file holds that artifact if it
holds any, and the files of stamps and descriptors hold none.
-/
namespace ContractBuild
open Json

theorem fromUTF8?_toUTF8 (text : String) : String.fromUTF8? text.toUTF8 = some text :=
  dif_pos text.isValidUTF8

namespace Param

mutual

theorem isData_toJson : ∀ param : Param, isData param.toJson = true
  | ⟨name, type, internalType, none, indexed⟩ => by
    cases internalType <;> cases indexed <;> rfl
  | ⟨name, type, internalType, some params, indexed⟩ => by
    have inner := areData_listToJson params
    cases internalType <;> cases indexed <;>
      simp [toJson, isData, memberData, inner]

theorem areData_listToJson : ∀ params : List Param, areData (listToJson params) = true
  | [] => rfl
  | param :: params => by
    rw [listToJson, areData, isData_toJson param, areData_listToJson params]
    rfl

end

end Param

namespace Item

theorem isData_params (params : List Param) : isData (Item.params params) = true :=
  Param.areData_listToJson params

theorem isData_toJson (item : Item) : isData item.toJson = true := by
  cases item with
  | function name inputs outputs mutability gas =>
    cases gas <;> simp [toJson, isData, memberData, isData_params]
  | event name inputs anonymous => simp [toJson, isData, memberData, isData_params]
  | error name inputs => simp [toJson, isData, memberData, isData_params]
  | constructor inputs mutability => simp [toJson, isData, memberData, isData_params]
  | fallback mutability => rfl
  | receive mutability => rfl

theorem areData_map_toJson (items : List Item) : areData (items.map toJson) = true := by
  induction items with
  | nil => rfl
  | cons item items ih =>
    rw [List.map_cons, areData, isData_toJson, ih]
    rfl

theorem isData_listToJson (items : List Item) : isData (listToJson items) = true :=
  areData_map_toJson items

/-- An entry reads as an object. -/
theorem clip_toJson (room : Nat) (item : Item) :
    ∃ members, clip (room + 1) item.toJson = object members := by
  have readable : ∀ members, ∃ others, clip (room + 1) (object members) = object others := by
    intro members
    rw [clip, objectIn_keys]
    exact ⟨_, if_neg (Nat.succ_ne_zero room)⟩
  cases item <;> exact readable _

end Item

namespace Stamp

def told? (content : ByteArray) : Option String :=
  ((String.fromUTF8? content).bind ofText?).bind generation

theorem told?_of_scan {text : String} {value : Json} (scanned : scan? text = some value) :
    told? text.toUTF8 = (do
      match ← fields? ["generate"] value with
      | [generation] => (optional? asString? generation).join
      | _ => none) := by
  rw [told?, fromUTF8?_toUTF8, Option.bind_some, ofText?, scanned]
  simp only [bind, Option.bind]
  rcases fields? ["generate"] value with _ | _ | ⟨field, _ | ⟨next, others⟩⟩
  · rfl
  · rfl
  · simp only
    cases optional? asString? field <;> rfl
  · rfl

theorem ofText?_toText (stamp : Stamp) : ofText? stamp.toText = some stamp := by
  have data : isData (object [("generate", ofOption string stamp.generation)]) = true := by
    cases stamp with
    | mk generation => cases generation <;> rfl
  have scanned := scan?_write 2 data "" rfl
  rw [String.append_empty] at scanned
  rw [ofText?, toText, scanned]
  cases stamp with
  | mk generation => cases generation <;> rfl

@[simp]
theorem told?_toText (stamp : Stamp) : told? stamp.toText.toUTF8 = stamp.generation := by
  rw [told?, fromUTF8?_toUTF8, Option.bind_some, ofText?_toText]
  rfl

end Stamp

/-- A descriptor's file tells of no generation. -/
@[simp]
theorem Descriptor.told?_toText (descriptor : Descriptor) (spacing : Nat) :
    Stamp.told? (descriptor.toText spacing).toUTF8 = none := by
  have scanned := scan?_write spacing (Item.isData_listToJson descriptor.items) "\n" rfl
  rw [toText, Stamp.told?_of_scan scanned]
  rcases descriptor.items with _ | ⟨item, items⟩
  · rfl
  · obtain ⟨members, same⟩ := Item.clip_toJson 125 item
    cases items with
    | nil =>
      have read : clip depthLimit (Item.listToJson [item]) = array [object members] := by
        rw [← same]
        rfl
      rw [read]
      rfl
    | cons next others => rfl

/-- An artifact's file tells of no generation. -/
@[simp]
theorem Artifact.told?_toJson (artifact : Artifact) :
    Stamp.told? artifact.toJson.compact.toUTF8 = none := by
  have data : isData artifact.toJson = true := by
    simp [toJson, isData, memberData, Item.isData_listToJson]
  have scanned := scan?_write 0 data "" rfl
  rw [String.append_empty] at scanned
  rw [compact, Stamp.told?_of_scan scanned]
  rfl

namespace Artifact

def held? (content : ByteArray) : Option Artifact :=
  (String.fromUTF8? content).bind ofText?

theorem held?_of_scan {text : String} {value : Json} (scanned : scan? text = some value) :
    held? text.toUTF8 = ofJson? value := by
  rw [held?, fromUTF8?_toUTF8, Option.bind_some, ofText?, scanned, Option.bind_some]

theorem languageOf?_tag (language : Language) : languageOf? (string language.tag) = some language := by
  cases language <;> rfl

/-- An artifact's file holds nothing else. -/
theorem eq_of_held? {artifact other : Artifact} (holds : held? artifact.toJson.compact.toUTF8 = some other) :
    other = artifact := by
  have data : isData artifact.toJson = true := by
    simp [toJson, isData, memberData, Item.isData_listToJson]
  have scanned := scan?_write 0 data "" rfl
  rw [String.append_empty] at scanned
  rw [compact, held?_of_scan scanned, toJson, clip_object, if_neg (by decide)] at holds
  simp [clipMembers, clip_string, ofJson?, fields?, member?, required?, asString?, languageOf?_tag] at holds
  obtain ⟨interface, isInterface, same⟩ := Option.bind_eq_some_iff.1 holds
  rw [Item.eqs_of_clip isInterface] at same
  exact (Option.some.inj same).symm

@[simp]
theorem held?_stamp (stamp : Stamp) : held? stamp.toText.toUTF8 = none := by
  have data : isData (object [("generate", ofOption string stamp.generation)]) = true := by
    cases stamp with
    | mk generation => cases generation <;> rfl
  have scanned := scan?_write 2 data "" rfl
  rw [String.append_empty] at scanned
  rw [Stamp.toText, held?_of_scan scanned]
  cases stamp with
  | mk generation => cases generation <;> rfl

/-- No artifact is read from an array whose first element is no name. -/
theorem ofJson?_array {first : Json} (nameless : asString? first = none) (items : List Json) :
    ofJson? (array (first :: items)) = none := by
  cases read : ofJson? (array (first :: items)) with
  | none => rfl
  | some artifact =>
    obtain ⟨fields, isFields, read⟩ := Option.bind_eq_some_iff.1 read
    have head : fields.head? = some (some first) := by
      rw [fields?, Option.ite_none_right_eq_some] at isFields
      cases isFields.2
      rfl
    split at read
    · obtain ⟨name, isName, _⟩ := Option.bind_eq_some_iff.1 read
      cases head
      rw [required?, nameless] at isName
      cases isName
    · cases read

@[simp]
theorem held?_descriptor (descriptor : Descriptor) (spacing : Nat) :
    held? (descriptor.toText spacing).toUTF8 = none := by
  have scanned := scan?_write spacing (Item.isData_listToJson descriptor.items) "\n" rfl
  rw [Descriptor.toText, held?_of_scan scanned, Item.listToJson, clip_array, if_neg (by decide)]
  cases descriptor.items with
  | nil => rfl
  | cons item items =>
    obtain ⟨members, same⟩ := Item.clip_toJson 125 item
    rw [List.map_cons, clipItems]
    refine ofJson?_array ?_ _
    show asString? (clip 126 item.toJson) = none
    rw [same]
    rfl

end Artifact
end ContractBuild
