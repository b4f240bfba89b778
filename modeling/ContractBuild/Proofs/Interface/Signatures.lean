import ContractBuild.Interface
import Mathlib.Data.List.Basic

/-!
Lists of types in parentheses. A list is told from its text, as a member holds no comma but inside
parentheses of its own.
-/
namespace ContractBuild
open Text

namespace Text

def firstMember (opened : Nat) : List Char → List Char
  | [] => []
  | c :: text =>
    if c = '(' then c :: firstMember (opened + 1) text
    else if c = ')' then if opened = 0 then [] else c :: firstMember (opened - 1) text
    else if c = ',' ∧ opened = 0 then []
    else c :: firstMember opened text

def Whole (text : List Char) : Prop :=
  ∀ opened rest, firstMember opened (text ++ rest) = text ++ firstMember opened rest

def Inner (text : List Char) : Prop :=
  ∀ opened rest, opened ≠ 0 → firstMember opened (text ++ rest) = text ++ firstMember opened rest

theorem Whole.nil : Whole [] := fun _ _ => rfl

theorem Whole.append {left right : List Char} (first : Whole left) (second : Whole right) :
    Whole (left ++ right) := by
  intro opened rest
  rw [List.append_assoc, first, second, List.append_assoc]

theorem Inner.append {left right : List Char} (first : Inner left) (second : Inner right) :
    Inner (left ++ right) := by
  intro opened rest inside
  rw [List.append_assoc, first _ _ inside, second _ _ inside, List.append_assoc]

theorem Whole.inner {text : List Char} (whole : Whole text) : Inner text :=
  fun opened rest _ => whole opened rest

theorem whole_of_plain {text : List Char} (plain : '(' ∉ text ∧ ')' ∉ text ∧ ',' ∉ text) : Whole text := by
  intro opened rest
  induction text with
  | nil => rfl
  | cons c text ih =>
    simp only [List.mem_cons, not_or] at plain
    obtain ⟨⟨opens, opensNot⟩, ⟨closes, closesNot⟩, comma, commaNot⟩ := plain
    simp [firstMember, Ne.symm opens, Ne.symm closes, Ne.symm comma, ih ⟨opensNot, closesNot, commaNot⟩]

theorem Whole.bracketed {text inside : List Char} (whole : Whole text) (wholeToo : Whole inside) :
    Whole (text ++ '[' :: inside ++ [']']) := by
  have opening : Whole ['['] := whole_of_plain (by decide)
  have closing : Whole [']'] := whole_of_plain (by decide)
  rw [List.append_assoc, List.cons_append]
  exact whole.append (opening.append (wholeToo.append closing))

theorem inner_comma : Inner [','] := by
  intro opened rest inside
  simp [firstMember, inside]

theorem Inner.enclosed {text : List Char} (inner : Inner text) : Whole ('(' :: text ++ [')']) := by
  intro opened rest
  have closes : firstMember (opened + 1) (')' :: rest) = ')' :: firstMember opened rest := by
    simp [firstMember]
  have opens : firstMember opened ('(' :: (text ++ ')' :: rest)) =
      '(' :: firstMember (opened + 1) (text ++ ')' :: rest) := by
    simp [firstMember]
  rw [List.cons_append, List.cons_append, List.append_assoc, List.singleton_append, opens,
    inner _ _ opened.succ_ne_zero, closes]
  simp

theorem inner_joinWith {members : List (List Char)} (whole : ∀ member ∈ members, Whole member) :
    Inner (joinWith [','] members) := by
  induction members with
  | nil => exact Whole.nil.inner
  | cons member members ih =>
    obtain ⟨first, others⟩ := List.forall_mem_cons.1 whole
    cases members with
    | nil => exact first.inner
    | cons next members => exact (first.inner.append inner_comma).append (ih others)

/-- What stands behind the first member: nothing, or a comma and the others. -/
theorem joinWith_cons (member : List Char) (members : List (List Char)) :
    joinWith [','] (member :: members) =
      member ++ if members = [] then [] else ',' :: joinWith [','] members := by
  cases members with
  | nil => simp [joinWith]
  | cons next members => simp [joinWith]

theorem firstMember_joinWith {member : List Char} (whole : Whole member) (members : List (List Char)) :
    firstMember 0 (joinWith [','] (member :: members)) = member := by
  rw [joinWith_cons, whole]
  cases members <;> simp [firstMember]

theorem joinWith_inj {members others : List (List Char)} (whole : ∀ member ∈ members, Whole member ∧ member ≠ [])
    (wholeToo : ∀ member ∈ others, Whole member ∧ member ≠ []) :
    joinWith [','] members = joinWith [','] others ↔ members = others := by
  refine ⟨fun same => ?_, fun same => by rw [same]⟩
  have filled : ∀ {member : List Char} {members : List (List Char)}, member ≠ [] →
      joinWith [','] (member :: members) ≠ [] := by
    intro member members written
    rw [joinWith_cons]
    simp [written]
  induction members generalizing others with
  | nil =>
    cases others with
    | nil => rfl
    | cons other others => exact absurd same.symm (filled (wholeToo other List.mem_cons_self).2)
  | cons member members ih =>
    cases others with
    | nil => exact absurd same (filled (whole member List.mem_cons_self).2)
    | cons other others =>
      obtain ⟨first, rest⟩ := List.forall_mem_cons.1 whole
      obtain ⟨firstToo, restToo⟩ := List.forall_mem_cons.1 wholeToo
      -- the two texts are one, and each begins with its own first member
      obtain rfl : member = other := by
        rw [← firstMember_joinWith first.1 members, same, firstMember_joinWith firstToo.1]
      rw [joinWith_cons, joinWith_cons, List.append_cancel_left_eq] at same
      -- only a list that goes on has a comma next
      by_cases none : members = [] <;> by_cases noneToo : others = []
      · rw [none, noneToo]
      · simp [none, noneToo] at same
      · simp [none, noneToo] at same
      · rw [if_neg none, if_neg noneToo, List.cons.injEq] at same
        rw [ih rest restToo same.2]

theorem stripLead?_append {lead : List Char} {c : Char} (absent : c ∉ lead) (text rest : List Char) :
    stripLead? lead (text ++ c :: rest) = (stripLead? lead text).map (· ++ c :: rest) := by
  induction lead generalizing text with
  | nil => rfl
  | cons l lead ih =>
    rw [List.mem_cons, not_or] at absent
    cases text with
    | nil => simp [stripLead?, Ne.symm absent.1]
    | cons first text =>
      by_cases same : l = first
      · simp [stripLead?, same, ih absent.2]
      · simp [stripLead?, same]

/-- The last of the marks tells what stands in front of it and behind. -/
theorem append_cons_inj_of_last {c : Char} {left right behind others : List Char} (last : c ∉ behind)
    (lastToo : c ∉ others) : left ++ c :: behind = right ++ c :: others ↔ left = right ∧ behind = others := by
  constructor
  · intro same
    -- if one front is longer than the other, the mark behind the shorter one is not the last
    rcases List.append_eq_append_iff.1 same with ⟨middle, rfl, rest⟩ | ⟨middle, rfl, rest⟩
    · cases middle with
      | nil => simpa using rest
      | cons first middle =>
        rw [List.cons_append, List.cons.injEq] at rest
        exact absurd (rest.2 ▸ by simp) last
    · cases middle with
      | nil => simpa [eq_comm] using rest
      | cons first middle =>
        rw [List.cons_append, List.cons.injEq] at rest
        exact absurd (rest.2 ▸ by simp) lastToo
  · rintro ⟨rfl, rfl⟩
    rfl

end Text

namespace Param

def canonicalOf (text : List Char) (components : Option (List Param)) : List Char :=
  match stripLead? "tuple".toList text, components with
  | some suffix, some members => '(' :: memberChars members ++ ')' :: suffix
  | _, _ => text

theorem canonicalOf_of_none {text : List Char} (lead : stripLead? "tuple".toList text = none)
    (components : Option (List Param)) : canonicalOf text components = text := by
  unfold canonicalOf
  rw [lead]

theorem canonicalOf_tuple (members : List Param) :
    canonicalOf "tuple".toList (some members) = '(' :: memberChars members ++ [')'] := rfl

theorem canonicalChars_eq (param : Param) :
    param.canonicalChars = canonicalOf param.type.toList param.components := by
  obtain ⟨name, type, internalType, components, indexed⟩ := param
  unfold canonicalChars canonicalOf
  rfl

theorem memberChars_eq (params : List Param) :
    memberChars params = joinWith [','] (params.map canonicalChars) := by
  induction params with
  | nil => rfl
  | cons param params ih =>
    cases params with
    | nil => rfl
    | cons next params =>
      have step : memberChars (param :: next :: params) =
          param.canonicalChars ++ ',' :: memberChars (next :: params) := rfl
      show _ = joinWith [','] (param.canonicalChars :: (next :: params).map canonicalChars)
      rw [step, ih, joinWith_cons param.canonicalChars, if_neg (by simp)]

/-- A suffix in brackets is kept as it is. -/
theorem canonicalOf_append (text suffix : List Char) (components : Option (List Param)) :
    canonicalOf (text ++ '[' :: suffix) components = canonicalOf text components ++ '[' :: suffix := by
  have absent : '[' ∉ "tuple".toList := by decide
  unfold canonicalOf
  rw [stripLead?_append absent]
  cases stripLead? "tuple".toList text with
  | none => rfl
  | some behind =>
    cases components with
    | none => rfl
    | some members => simp

end Param

namespace Item

theorem label_of_symbol {one other : Item} (symbol : one.symbol = other.symbol) : one.label = other.label := by
  cases one <;> cases other <;> simp_all [Item.symbol, Item.label]

/-- Entries of one symbol with one shape have one signature. -/
theorem signature_of_shape {one other : Item} (symbol : one.symbol = other.symbol) (shape : one.shape = other.shape) :
    one.signature = other.signature := by
  have inputs : ∀ item : Item, item.shape.inputs = item.inputs.map Param.canonicalType := by
    intro item
    cases item <;> rfl
  have types : one.inputs.map Param.canonicalType = other.inputs.map Param.canonicalType := by
    rw [← inputs, ← inputs, shape]
  have chars : one.inputs.map Param.canonicalChars = other.inputs.map Param.canonicalChars := by
    have texts := congrArg (List.map String.toList) types
    have spelled : String.toList ∘ Param.canonicalType = Param.canonicalChars := by
      funext param
      exact String.toList_ofList
    rwa [List.map_map, List.map_map, spelled] at texts
  rw [signature, signature, label_of_symbol symbol, Param.memberChars_eq, Param.memberChars_eq, chars]

end Item
end ContractBuild
