import ContractBuild.Interface.Codec
import ContractBuild.Proofs.Json.RoundTrip

/-!
What written interfaces read as: the interface that was written, or nothing at all where it is
nested too deep or a number is too large for a reader.
-/
namespace ContractBuild
open Json Text

namespace Json

theorem clip_string (room : Nat) (text : String) : clip room (string text) = string text := by
  simp [clip]

theorem clip_bool (room : Nat) (value : Bool) : clip room (bool value) = bool value := by
  simp [clip]

/-- A natural number is read back if it is read as one. -/
theorem optional?_clip_natural {room n : Nat} {value : Option Nat}
    (read : optional? asNatural? (some (clip room (natural n))) = some value) : value = some n := by
  rw [clip, naturalLiteral, Literal.toJson, optional?, defaulted?] at read
  dsimp only at read
  rw [Numeral.accumulate_digits] at read
  split at read
  · exact (Option.some.inj read).symm
  · split at read <;> cases read

theorem clip_object (room : Nat) (members : List (String × Json)) :
    clip room (object members) = if room = 0 then unreadable else object (clipMembers (room - 1) members) := by
  rw [clip, objectIn_keys]

theorem clip_array (room : Nat) (items : List Json) :
    clip room (array items) = if room = 0 then unreadable else array (clipItems (room - 1) items) := by
  rw [clip, arrayIn]

theorem keys_clipMembers (room : Nat) (members : List (String × Json)) :
    (clipMembers room members).map Prod.fst = members.map Prod.fst := by
  induction members with
  | nil => rfl
  | cons member members ih => rw [clipMembers, List.map_cons, List.map_cons, ih]

end Json

namespace Param

mutual

theorem eq_of_clip : ∀ (param : Param) {room : Nat} {other : Param},
    ofJson? (clip room param.toJson) = some other → other = param
  | ⟨name, type, internalType, components, indexed⟩, room, other => by
    intro read
    rw [toJson.eq_def, clip_object] at read
    split at read
    · cases read
    · generalize room - 1 = deeper at read
      cases components with
      | none =>
        cases internalType <;> cases indexed <;>
          simpa [clipMembers, clip_string, clip_bool, ofJson?, member?, componentsAmong?, assemble?,
            defaulted?, optional?, required?, asString?, asBool?, asOption?, eq_comm] using read
      | some params =>
        have inner : ∀ {read : Option (List Param)}, components? (clip deeper (array (listToJson params))) =
            some read → read = some params := by
          intro read found
          rw [clip_array] at found
          split at found
          · cases found
          · rw [components?] at found
            obtain ⟨others, isOthers, rfl⟩ := Option.map_eq_some_iff.1 found
            rw [eqs_of_clip params isOthers]
        cases internalType <;> cases indexed <;>
          simp [clipMembers, clip_string, clip_bool, ofJson?, member?, componentsAmong?, assemble?,
            defaulted?, optional?, required?, asString?, asBool?, asOption?] at read
        all_goals
          obtain ⟨found, isFound, same⟩ := Option.bind_eq_some_iff.1 read
          rw [inner isFound] at same
          exact (Option.some.inj same).symm

theorem eqs_of_clip : ∀ (params : List Param) {room : Nat} {others : List Param},
    listOfJson? (clipItems room (listToJson params)) = some others → others = params
  | [], room, others => by
    intro read
    cases read
    rfl
  | param :: params, room, others => by
    intro read
    rw [listToJson, clipItems, listOfJson?] at read
    obtain ⟨first, isFirst, read⟩ := Option.bind_eq_some_iff.1 read
    obtain ⟨rest, isRest, read⟩ := Option.bind_eq_some_iff.1 read
    cases read
    rw [eq_of_clip param isFirst, eqs_of_clip params isRest]

end

end Param

namespace Item

theorem paramsOr?_clip {room : Nat} {list read : List Param}
    (found : paramsOr? (some (clip room (Item.params list))) = some read) : read = list := by
  rw [paramsOr?, defaulted?, Item.params, clip_array] at found
  split at found
  · cases found
  · exact Param.eqs_of_clip list found

theorem mutabilityOr?_text (mutability : Mutability) :
    mutabilityOr? (some (string mutability.text)) = some mutability := by
  cases mutability <;> rfl

/-- An entry that is read is one of the kind that was written, from the members behind its tag. -/
theorem ofFields?_of_clip {kind : String} {members : List (String × Json)} {item : Item} {room : Nat}
    (untagged : ∀ member ∈ members, member.1 ≠ "type")
    (read : ofJson? (clip room (object (("type", string kind) :: members))) = some item) :
    ∃ deeper, ofFields? kind (object (clipMembers deeper members)) = some item := by
  rw [clip_object] at read
  split at read
  · cases read
  · refine ⟨room - 1, ?_⟩
    rw [clipMembers, clip_string] at read
    have untagged : ∀ member ∈ clipMembers (room - 1) members, member.1 ≠ "type" := by
      intro member inside
      have key : member.1 ∈ (clipMembers (room - 1) members).map Prod.fst := List.mem_map_of_mem inside
      rw [keys_clipMembers] at key
      obtain ⟨written, isWritten, same⟩ := List.mem_map.1 key
      rw [← same]
      exact untagged written isWritten
    generalize clipMembers (room - 1) members = members at untagged read
    obtain ⟨⟨tag, rest⟩, tagged, read⟩ := Option.bind_eq_some_iff.1 read
    have none : members.filter (fun member => decide (member.1 = "type")) = [] := by
      simpa [List.filter_eq_nil_iff] using untagged
    have all : members.filter (fun member => decide (member.1 ≠ "type")) = members := by
      simpa [List.filter_eq_self] using untagged
    unfold tagged? at tagged
    split at tagged
    · cases tagged
    · simp only [List.filter_cons, none, all, decide_true, if_true, ne_eq, not_true, decide_false] at tagged
      cases tagged
      exact read

/-- An entry is read back if it is read at all. -/
theorem eq_of_clip {item other : Item} {room : Nat} (read : ofJson? (clip room item.toJson) = some other) :
    other = item := by
  cases item with
  | function name inputs outputs mutability gas =>
    cases gas with
    | none =>
      obtain ⟨deeper, fields⟩ := ofFields?_of_clip (by simp) read
      simp [clipMembers, clip_string, ofFields?, fields?, member?, required?, asString?, mutabilityOr?_text,
        optional?, defaulted?] at fields
      obtain ⟨first, isFirst, fields⟩ := Option.bind_eq_some_iff.1 fields
      obtain ⟨second, isSecond, fields⟩ := Option.bind_eq_some_iff.1 fields
      rw [paramsOr?_clip isFirst, paramsOr?_clip isSecond] at fields
      exact (Option.some.inj fields).symm
    | some amount =>
      obtain ⟨deeper, fields⟩ := ofFields?_of_clip (by simp) read
      simp [clipMembers, clip_string, ofFields?, fields?, member?, required?, asString?,
        mutabilityOr?_text] at fields
      obtain ⟨first, isFirst, fields⟩ := Option.bind_eq_some_iff.1 fields
      obtain ⟨second, isSecond, fields⟩ := Option.bind_eq_some_iff.1 fields
      obtain ⟨third, isThird, fields⟩ := Option.bind_eq_some_iff.1 fields
      rw [paramsOr?_clip isFirst, paramsOr?_clip isSecond, optional?_clip_natural isThird] at fields
      exact (Option.some.inj fields).symm
  | event name inputs anonymous =>
    obtain ⟨deeper, fields⟩ := ofFields?_of_clip (by simp) read
    simp [clipMembers, clip_string, clip_bool, ofFields?, fields?, member?, required?, asString?, defaulted?,
      asBool?] at fields
    obtain ⟨first, isFirst, fields⟩ := Option.bind_eq_some_iff.1 fields
    rw [paramsOr?_clip isFirst] at fields
    exact (Option.some.inj fields).symm
  | error name inputs =>
    obtain ⟨deeper, fields⟩ := ofFields?_of_clip (by simp) read
    simp [clipMembers, clip_string, ofFields?, fields?, member?, required?, asString?] at fields
    obtain ⟨first, isFirst, fields⟩ := Option.bind_eq_some_iff.1 fields
    rw [paramsOr?_clip isFirst] at fields
    exact (Option.some.inj fields).symm
  | constructor inputs mutability =>
    obtain ⟨deeper, fields⟩ := ofFields?_of_clip (by simp) read
    simp [clipMembers, clip_string, ofFields?, fields?, member?, mutabilityOr?_text] at fields
    obtain ⟨first, isFirst, fields⟩ := Option.bind_eq_some_iff.1 fields
    rw [paramsOr?_clip isFirst] at fields
    exact (Option.some.inj fields).symm
  | fallback mutability | receive mutability =>
    obtain ⟨deeper, fields⟩ := ofFields?_of_clip (by simp) read
    simp [clipMembers, clip_string, ofFields?, fields?, member?, mutabilityOr?_text] at fields
    exact fields.symm

/-- An interface is read back if it is read at all. -/
theorem eqs_of_clip {items others : List Item} {room : Nat}
    (read : manyOfJson? (clip room (listToJson items)) = some others) : others = items := by
  rw [listToJson, clip_array] at read
  split at read
  · cases read
  · rw [manyOfJson?, asList?] at read
    generalize room - 1 = deeper at read
    induction items generalizing others with
    | nil =>
      cases read
      rfl
    | cons item items ih =>
      rw [List.map_cons, clipItems, List.mapM_cons] at read
      obtain ⟨first, isFirst, read⟩ := Option.bind_eq_some_iff.1 read
      obtain ⟨rest, isRest, read⟩ := Option.bind_eq_some_iff.1 read
      cases read
      rw [eq_of_clip isFirst, ih isRest]

end Item
end ContractBuild
