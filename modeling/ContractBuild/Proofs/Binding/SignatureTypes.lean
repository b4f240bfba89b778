import ContractBuild.Proofs.Binding.CanonicalTypes
import ContractBuild.Proofs.Binding.Keys

/-!
What a signature tells of a declaration: its name, the canonical types of its inputs one by one, and with them
the types that the inputs are read as.
-/
namespace ContractBuild
open Text

theorem Text.Numeral.Spells.unique {text : List Char} {value other : Nat} (one : Numeral.Spells text value)
    (two : Numeral.Spells text other) : value = other :=
  Option.some.inj ((Numeral.readUpTo?_wordMax.2 one).symm.trans (Numeral.readUpTo?_wordMax.2 two))

namespace Param

theorem canonicalOf_array (text : List Char) (components : Option (List Param)) :
    canonicalOf (text ++ "[]".toList) components = canonicalOf text components ++ '[' :: [']'] :=
  canonicalOf_append text [']'] components

theorem canonicalOf_fixedArray (text digits : List Char) (components : Option (List Param)) :
    canonicalOf (text ++ '[' :: digits ++ [']']) components =
      canonicalOf text components ++ '[' :: (digits ++ [']']) := by
  rw [List.append_assoc, List.cons_append, canonicalOf_append]

end Param

namespace AbiType
open Numeral (Spells)

theorem Scalar.unique {text : List Char} {type other : AbiType} (one : Scalar text type) (two : Scalar text other) :
    type = other :=
  Option.some.inj ((scalar?_eq_some.2 one).symm.trans (scalar?_eq_some.2 two))

/-- No scalar ends like a tuple. -/
theorem Scalar.not_mem_close {text : List Char} {type : AbiType} (denoted : Scalar text type) : ')' ∉ text := by
  cases denoted with
  | address | bool | string | bytes | wideUint | wideInt => decide
  | fixedBytes numeral _ _ | uint numeral _ _ _ | int numeral _ _ _ =>
    rw [List.mem_append, not_or]
    exact ⟨by decide, numeral.not_mem (by decide) (by decide)⟩

theorem getLast?_bracketed (text inside : List Char) : (text ++ '[' :: (inside ++ [']'])).getLast? = some ']' := by
  rw [← List.cons_append, ← List.append_assoc, List.getLast?_concat]

/-- A tuple does not end like an array. -/
theorem closed_ne_bracketed (members text inside : List Char) :
    '(' :: members ++ [')'] ≠ text ++ '[' :: (inside ++ [']']) := by
  intro same
  have last := congrArg List.getLast? same
  rw [getLast?_bracketed, List.getLast?_concat] at last
  cases last

theorem open_not_mem_spells {digits : List Char} {length : Nat} (numeral : Spells digits length) :
    '[' ∉ digits ++ [']'] := by
  simpa using numeral.not_mem (by decide) (by decide)

mutual

/-- Parameters with one canonical type are read as one type, names of members and what is indexed apart. The last
character of the text tells a scalar, a tuple and an array from each other, and the last bracket what is in it. -/
theorem Denotes.bare_unique : ∀ {text : List Char} {components : Option (List Param)} {type : AbiType},
    Denotes text components type → ∀ {other : List Char} {others : Option (List Param)} {twin : AbiType},
      Denotes other others twin → Param.canonicalOf text components = Param.canonicalOf other others →
      type.bare = twin.bare
  | text, components, type, .scalar base, other, others, twin, second, same => by
    rw [Param.canonicalOf_of_none base.stripLead?_tuple] at same
    cases second with
    | scalar baseToo =>
      rw [Param.canonicalOf_of_none baseToo.stripLead?_tuple] at same
      subst same
      rw [base.unique baseToo]
    | tuple each =>
      rw [Param.canonicalOf_tuple] at same
      exact absurd (same ▸ by simp) base.not_mem_close
    | array inner =>
      rw [Param.canonicalOf_array] at same
      exact absurd (same ▸ getLast?_bracketed _ []) base.getLast?_ne
    | fixedArray inner numeral least =>
      rw [Param.canonicalOf_fixedArray] at same
      exact absurd (same ▸ getLast?_bracketed _ _) base.getLast?_ne
  | _, _, _, @Denotes.tuple members typed each, other, others, twin, second, same => by
    rw [Param.canonicalOf_tuple] at same
    cases second with
    | scalar base =>
      rw [Param.canonicalOf_of_none base.stripLead?_tuple] at same
      exact absurd (same ▸ by simp) base.not_mem_close
    | tuple eachToo =>
      rw [Param.canonicalOf_tuple, List.cons_append, List.cons_append, List.cons.injEq, List.append_cancel_right_eq,
        Param.memberChars_eq, Param.memberChars_eq, joinWith_inj (List.forall_mem_map.2 each.whole)
          (List.forall_mem_map.2 eachToo.whole)] at same
      rw [bare, bare, each.bareEach_unique eachToo same.2]
    | array inner =>
      rw [Param.canonicalOf_array] at same
      exact absurd same (closed_ne_bracketed _ _ [])
    | fixedArray inner numeral least =>
      rw [Param.canonicalOf_fixedArray] at same
      exact absurd same (closed_ne_bracketed _ _ _)
  | _, _, _, @Denotes.array text components item inner, other, others, twin, second, same => by
    rw [Param.canonicalOf_array] at same
    cases second with
    | scalar base =>
      rw [Param.canonicalOf_of_none base.stripLead?_tuple] at same
      exact absurd (same ▸ getLast?_bracketed _ []) base.getLast?_ne
    | tuple each =>
      rw [Param.canonicalOf_tuple] at same
      exact absurd same.symm (closed_ne_bracketed _ _ [])
    | array innerToo =>
      rw [Param.canonicalOf_array, List.append_cancel_right_eq] at same
      rw [bare, bare, inner.bare_unique innerToo same]
    | fixedArray innerToo numeral least =>
      rw [Param.canonicalOf_fixedArray, append_cons_inj_of_last (by decide) (open_not_mem_spells numeral)] at same
      simpa [numeral.ne_nil] using same.2
  | _, _, _, @Denotes.fixedArray text digits components item length inner numeral least, other, others, twin, second,
      same => by
    rw [Param.canonicalOf_fixedArray] at same
    cases second with
    | scalar base =>
      rw [Param.canonicalOf_of_none base.stripLead?_tuple] at same
      exact absurd (same ▸ getLast?_bracketed _ _) base.getLast?_ne
    | tuple each =>
      rw [Param.canonicalOf_tuple] at same
      exact absurd same.symm (closed_ne_bracketed _ _ _)
    | array innerToo =>
      rw [Param.canonicalOf_array, append_cons_inj_of_last (open_not_mem_spells numeral) (by decide)] at same
      simpa [numeral.ne_nil] using same.2
    | fixedArray innerToo numeralToo leastToo =>
      rw [Param.canonicalOf_fixedArray, append_cons_inj_of_last (open_not_mem_spells numeral)
        (open_not_mem_spells numeralToo), List.append_cancel_right_eq] at same
      obtain ⟨sameItem, rfl⟩ := same
      rw [bare, bare, inner.bare_unique innerToo sameItem, numeral.unique numeralToo]

theorem DenotesEach.bareEach_unique : ∀ {params : List Param} {typed : List TypedParam}, DenotesEach params typed →
    ∀ {others : List Param} {twins : List TypedParam}, DenotesEach others twins →
      params.map Param.canonicalChars = others.map Param.canonicalChars → bareEach typed = bareEach twins
  | _, _, .nil, others, twins, second, same => by
    cases second with
    | nil => rfl
    | cons _ _ => cases same
  | _, _, .cons first rest, others, twins, second, same => by
    cases second with
    | nil => cases same
    | cons firstToo restToo =>
      rw [List.map_cons, List.map_cons, List.cons.injEq, Param.canonicalChars_eq, Param.canonicalChars_eq] at same
      rw [bareEach, bareEach, first.bare_unique firstToo same.1, rest.bareEach_unique restToo same.2]

end

/-- Declarations whose names hold no parenthesis have one signature exactly if they have one name and their inputs
have the same canonical types one by one; then they are read with the same types, names of members and what is
indexed apart. -/
theorem signature_inj {one other : Item} {typed twins : List TypedParam} (plain : '(' ∉ one.label.toList)
    (plainToo : '(' ∉ other.label.toList) (read : ofParams one.inputs = .ok typed)
    (readToo : ofParams other.inputs = .ok twins) :
    (one.signature = other.signature ↔
      one.label = other.label ∧ one.inputs.map Param.canonicalType = other.inputs.map Param.canonicalType) ∧
    (one.signature = other.signature → bareEach typed = bareEach twins) := by
  have each := denotesEach_of_ofParams read
  have eachToo := denotesEach_of_ofParams readToo
  -- the name ends at the first parenthesis, and no input ends inside another
  have split : one.signature = other.signature ↔
      one.label = other.label ∧ one.inputs.map Param.canonicalChars = other.inputs.map Param.canonicalChars := by
    rw [← joinWith_inj (List.forall_mem_map.2 each.whole) (List.forall_mem_map.2 eachToo.whole),
      ← Param.memberChars_eq, ← Param.memberChars_eq]
    constructor
    · intro same
      have label : one.label = other.label := by
        rw [← Keying.signature.stem_key plain, ← Keying.signature.stem_key plainToo]
        exact congrArg stem same
      rw [Item.signature, Item.signature, label, String.append_right_inj, String.ofList_inj] at same
      exact ⟨label, by simpa using same⟩
    · rintro ⟨label, members⟩
      rw [Item.signature, Item.signature, label, members]
  have texts : one.inputs.map Param.canonicalType = other.inputs.map Param.canonicalType ↔
      one.inputs.map Param.canonicalChars = other.inputs.map Param.canonicalChars := by
    have spelled : Param.canonicalType = String.ofList ∘ Param.canonicalChars := rfl
    rw [spelled, ← List.map_map, ← List.map_map]
    exact (List.map_injective_iff.2 fun _ _ => String.ofList_injective).eq_iff
  exact ⟨by rw [split, texts], fun same => each.bareEach_unique eachToo (split.1 same).2⟩

/-- A tuple is told from its members. -/
theorem signature_of_tuple :
    let owner := Param.plain "owner" "address"
    let amount := Param.plain "amount" "uint"
    let nested : Item := .function "pay" [Param.tuple "order" "" [owner, amount]] [] .payable none
    let flat : Item := .function "pay" [owner, amount] [] .payable none
    let members : List TypedParam := [⟨"owner", address, false⟩, ⟨"amount", uint 256, false⟩]
    ('(' ∉ nested.label.toList ∧ '(' ∉ flat.label.toList ∧ ofParams flat.inputs = .ok members ∧
      ofParams nested.inputs = .ok [⟨"order", tuple members, false⟩]) ∧ nested.signature ≠ flat.signature := by
  intro owner amount nested flat members
  have each : DenotesEach [owner, amount] members := .cons (.scalar .address) (.cons (.scalar .wideUint) .nil)
  have eachNested : DenotesEach nested.inputs [⟨"order", tuple members, false⟩] := .cons (.tuple each) .nil
  have read : ofParams flat.inputs = .ok members := ofParams_of_denotesEach each
  have readNested := ofParams_of_denotesEach eachNested
  have plain : '(' ∉ nested.label.toList := by decide
  have plainFlat : '(' ∉ flat.label.toList := by decide
  refine ⟨⟨plain, plainFlat, read, readNested⟩, fun same => ?_⟩
  have types := ((signature_inj plain plainFlat readNested read).1.1 same).2
  exact absurd (congrArg List.length types) (by simp [nested, flat, Item.inputs])

end AbiType
end ContractBuild
