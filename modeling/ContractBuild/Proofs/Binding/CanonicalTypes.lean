import ContractBuild.Proofs.Binding.TypeGrammar
import ContractBuild.Proofs.Interface.Signatures
import Mathlib.Data.List.Induction

/-!
The canonical type of a parameter beside the type that it is read as. The one repeats the type text,
the other tells what the text denotes, so they say the same where widths are written out and numbers
are plain.
-/
namespace ContractBuild
open Text

namespace Text.Numeral

theorem digitOf_digitValue {c : Char} (digit : isDigit c = true) : digitOf (digitValue c) = c := by
  simp only [isDigit, Bool.and_eq_true, decide_eq_true_eq] at digit
  rw [digitOf, digitValue, Nat.sub_add_cancel digit.1, Char.ofNat_toNat]

theorem digitValue_lt {c : Char} (digit : isDigit c = true) : digitValue c < 10 := by
  simp only [isDigit, Bool.and_eq_true, decide_eq_true_eq] at digit
  rw [digitValue]
  omega

theorem head?_digits {n : Nat} (positive : 1 ≤ n) : (digits n).head? ≠ some '0' := by
  induction n using Nat.strongRecOn with
  | ind n ih =>
    rw [digits]
    split
    · next small =>
      intro zero
      have same : digitOf n = '0' := by simpa using zero
      have value := digitValue_digitOf small
      rw [same] at value
      exact absurd value (by simpa [digitValue] using Nat.ne_of_lt positive)
    · next large =>
      rw [List.head?_append_of_ne_nil _ (digits_ne_nil _)]
      exact ih (n / 10) (by omega) (by omega)

/-- A numeral without a zero in front is the shortest one. -/
theorem digits_accumulate {text : List Char} (filled : text ≠ []) (all : ∀ c ∈ text, isDigit c = true)
    (lead : text.head? ≠ some '0') : digits (accumulate 0 text) = text := by
  induction text using List.reverseRecOn with
  | nil => exact absurd rfl filled
  | append_singleton front c ih =>
    have last : isDigit c = true := all c (by simp)
    have small := digitValue_lt last
    rw [accumulate_append]
    by_cases none : front = []
    · subst none
      have value : accumulate (accumulate 0 []) [c] = digitValue c := by simp [accumulate]
      rw [value, digits, if_pos small, digitOf_digitValue last, List.nil_append]
    · rw [List.head?_append_of_ne_nil _ none] at lead
      have shortest := ih none (fun other member => all other (List.mem_append_left _ member)) lead
      -- the digits in front are not those of zero, so the last one is told by division
      have positive : accumulate 0 front ≠ 0 := by
        intro zero
        rw [zero] at shortest
        rw [← shortest] at lead
        exact lead (by simp [digits, digitOf])
      have value : accumulate (accumulate 0 front) [c] = accumulate 0 front * 10 + digitValue c := rfl
      rw [value, digits, if_neg (by omega)]
      have high : (accumulate 0 front * 10 + digitValue c) / 10 = accumulate 0 front := by omega
      have low : (accumulate 0 front * 10 + digitValue c) % 10 = digitValue c := by omega
      rw [high, low, shortest, digitOf_digitValue last]

end Text.Numeral

namespace Param
open Numeral (Spells)

def plainFrom (previous : Char) : List Char → Bool
  | [] => true
  | c :: text => c ≠ '+' && (c ≠ '0' || Numeral.isDigit previous) && plainFrom c text

def plainText (text : List Char) : Bool :=
  let base := text.takeWhile (· ≠ '[')
  base ≠ "uint".toList && base ≠ "int".toList && plainFrom '[' text

mutual

def isPlain : Param → Bool
  | ⟨_, type, _, components, _⟩ =>
    plainText type.toList &&
      match stripLead? "tuple".toList type.toList, components with
      | some _, some members => arePlain members
      | _, _ => true

def arePlain : List Param → Bool
  | [] => true
  | param :: params => isPlain param && arePlain params

end

def membersPlain (text : List Char) (components : Option (List Param)) : Bool :=
  match stripLead? "tuple".toList text, components with
  | some _, some members => arePlain members
  | _, _ => true

theorem membersPlain_of_none {text : List Char} (lead : stripLead? "tuple".toList text = none)
    (components : Option (List Param)) : membersPlain text components = true := by
  unfold membersPlain
  rw [lead]

theorem isPlain_eq (param : Param) :
    param.isPlain = (plainText param.type.toList && membersPlain param.type.toList param.components) := by
  obtain ⟨name, type, internalType, components, indexed⟩ := param
  unfold isPlain membersPlain
  rfl

theorem arePlain_iff {params : List Param} : arePlain params = true ↔ ∀ param ∈ params, param.isPlain = true := by
  induction params with
  | nil => simp [arePlain]
  | cons param params ih => simp [arePlain, ih]

theorem membersPlain_append (text suffix : List Char) (components : Option (List Param)) :
    membersPlain (text ++ '[' :: suffix) components = membersPlain text components := by
  unfold membersPlain
  rw [stripLead?_append (by decide)]
  cases stripLead? "tuple".toList text with
  | none => rfl
  | some behind => cases components <;> rfl

theorem plainFrom_append {mark : Char} (plain : mark ∉ ['+', '0']) (previous : Char) (text rest : List Char) :
    plainFrom previous (text ++ mark :: rest) = (plainFrom previous text && plainFrom mark rest) := by
  simp only [List.mem_cons, List.not_mem_nil, or_false, not_or] at plain
  induction text generalizing previous with
  | nil => simp [plainFrom, plain]
  | cons c text ih => simp [plainFrom, ih, Bool.and_assoc]

theorem plainText_append (text rest : List Char) :
    plainText (text ++ '[' :: rest) = (plainText text && plainFrom '[' rest) := by
  have front : (text ++ '[' :: rest).takeWhile (· ≠ '[') = text.takeWhile (· ≠ '[') := by
    induction text with
    | nil => rfl
    | cons c text ih =>
      rw [List.cons_append, List.takeWhile_cons, List.takeWhile_cons, ih]
  simp only [plainText, front, plainFrom_append (show '[' ∉ ['+', '0'] by decide), Bool.and_assoc]

theorem plainFrom_of_digits {previous : Char} {digits : List Char}
    (all : ∀ c ∈ digits, Numeral.isDigit c = true) (behind : Numeral.isDigit previous = true) :
    plainFrom previous digits = true := by
  induction digits generalizing previous with
  | nil => rfl
  | cons c digits ih =>
    obtain ⟨first, others⟩ := List.forall_mem_cons.1 all
    have sign : c ≠ '+' := by
      rintro rfl
      cases first
    simp [plainFrom, sign, behind, ih others first]

/-- A numeral behind anything but a digit is plain if it is the shortest one. -/
theorem plainFrom_iff (previous : Char) {text : List Char} {value : Nat} (spells : Spells text value)
    (positive : 1 ≤ value) (front : Numeral.isDigit previous = false) :
    plainFrom previous text = true ↔ text = Numeral.digits value := by
  constructor
  · intro plain
    obtain ⟨digits, rfl | rfl, filled, all, rfl⟩ := spells.digits
    · have lead : text.head? ≠ some '0' := by
        intro zero
        obtain ⟨others, rfl⟩ := List.head?_eq_some_iff.1 zero
        simp [plainFrom, front] at plain
      exact (Numeral.digits_accumulate filled all lead).symm
    · simp [plainFrom] at plain
  · intro shortest
    have lead := Numeral.head?_digits positive
    have all : ∀ c ∈ text, Numeral.isDigit c = true := by
      rw [shortest]
      exact List.all_eq_true.1 (Numeral.all_isDigit_digits value)
    rw [← shortest] at lead
    obtain ⟨c, others, rfl⟩ := List.exists_cons_of_ne_nil spells.ne_nil
    obtain ⟨first, rest⟩ := List.forall_mem_cons.1 all
    have sign : c ≠ '+' := by
      rintro rfl
      cases first
    have zero : c ≠ '0' := by simpa using lead
    simp [plainFrom, sign, zero, plainFrom_of_digits rest first]

end Param

namespace AbiType
open Numeral (Spells)

mutual

def spelled : AbiType → List Char
  | array item => item.spelled ++ "[]".toList
  | fixedArray item length => item.spelled ++ '[' :: Numeral.digits length ++ [']']
  | tuple members => '(' :: joinWith [','] (spelledEach members) ++ [')']
  | type => type.typeChars

def spelledEach : List TypedParam → List (List Char)
  | [] => []
  | ⟨_, type, _⟩ :: members => type.spelled :: spelledEach members

end

mutual

def bare : AbiType → AbiType
  | array item => array item.bare
  | fixedArray item length => fixedArray item.bare length
  | tuple members => tuple (bareEach members)
  | type => type

def bareEach : List TypedParam → List TypedParam
  | [] => []
  | ⟨_, type, _⟩ :: members => ⟨"", type.bare, false⟩ :: bareEach members

end

mutual

theorem spelled_bare : ∀ type : AbiType, type.bare.spelled = type.spelled
  | array item => by rw [bare, spelled, spelled, spelled_bare item]
  | fixedArray item length => by rw [bare, spelled, spelled, spelled_bare item]
  | tuple members => by rw [bare, spelled, spelled, spelledEach_bare members]
  | address | bool | string | bytes | fixedBytes _ | uint _ | int _ => rfl

theorem spelledEach_bare : ∀ members : List TypedParam, spelledEach (bareEach members) = spelledEach members
  | [] => rfl
  | ⟨_, type, _⟩ :: members => by
    rw [bareEach, spelledEach, spelledEach, spelled_bare type, spelledEach_bare members]

end

/-! Plain texts -/

theorem plainText_width {lead width : List Char} {value : Nat} (spells : Spells width value) (positive : 1 ≤ value)
    (known : lead ∈ ["bytes".toList, "uint".toList, "int".toList]) :
    Param.plainText (lead ++ width) = true ↔ width = Numeral.digits value := by
  have opens : '[' ∉ width := spells.not_mem (by decide) (by decide)
  obtain ⟨c, others, split⟩ := List.exists_cons_of_ne_nil spells.ne_nil
  have first : c ≠ '[' := by
    rintro rfl
    exact opens (split ▸ List.mem_cons_self)
  simp only [List.mem_cons, List.not_mem_nil, or_false] at known
  -- the numeral stands behind the last letter of its lead, which is no digit
  obtain rfl | rfl | rfl := known
  · rw [← Param.plainFrom_iff 's' spells positive (by decide)]
    simp [Param.plainText, Param.plainFrom]
  · rw [← Param.plainFrom_iff 't' spells positive (by decide)]
    simp [Param.plainText, Param.plainFrom, split, first]
  · rw [← Param.plainFrom_iff 't' spells positive (by decide)]
    simp [Param.plainText, Param.plainFrom, split, first]

theorem Scalar.plainText_iff {text : List Char} {type : AbiType} (denoted : Scalar text type) :
    Param.plainText text = true ↔ text = type.typeChars := by
  have wide : ∀ lead : List Char, lead ≠ lead ++ Numeral.digits 256 := by
    intro lead same
    exact Numeral.digits_ne_nil 256 (List.self_eq_append_right.1 same)
  cases denoted with
  | address | bool | string | bytes => decide
  | wideUint | wideInt => exact ⟨fun plain => absurd plain (by decide), fun same => absurd same (wide _)⟩
  | fixedBytes numeral least _ =>
    exact (plainText_width numeral least (by simp)).trans (List.append_right_inj _).symm
  | uint numeral _ least _ =>
    exact (plainText_width numeral (by omega) (by simp)).trans (List.append_right_inj _).symm
  | int numeral _ least _ =>
    exact (plainText_width numeral (by omega) (by simp)).trans (List.append_right_inj _).symm

theorem bracketed_inj {left right digits : List Char} {length : Nat} (spells : Spells digits length) :
    left ++ '[' :: digits ++ [']'] = right ++ '[' :: Numeral.digits length ++ [']'] ↔
      left = right ∧ digits = Numeral.digits length := by
  have closed : ∀ {digits : List Char}, Spells digits length → '[' ∉ digits ++ [']'] := by
    intro digits spells
    simpa using spells.not_mem (by decide) (by decide)
  have shortest : Spells (Numeral.digits length) length := .digits_of_le spells.inWord
  rw [List.append_assoc, List.append_assoc, List.cons_append, List.cons_append,
    append_cons_inj_of_last (closed spells) (closed shortest), List.append_cancel_right_eq]

/-- The length of an array is plain if it is the shortest numeral. -/
theorem plainText_bracketed (text : List Char) {digits : List Char} {length : Nat} (spells : Spells digits length)
    (positive : 1 ≤ length) : Param.plainText (text ++ '[' :: digits ++ [']']) = true ↔
      Param.plainText text = true ∧ digits = Numeral.digits length := by
  rw [← Param.plainFrom_iff '[' spells positive (by decide), List.append_assoc,
    List.cons_append, Param.plainText_append, Param.plainFrom_append (by decide)]
  simp [Param.plainFrom]

/-! Members -/

theorem whole_spells {text : List Char} {value : Nat} (spells : Spells text value) : Whole text :=
  whole_of_plain ⟨spells.not_mem (by decide) (by decide), spells.not_mem (by decide) (by decide),
    spells.not_mem (by decide) (by decide)⟩

theorem whole_digits (n : Nat) : Whole (Numeral.digits n) := by
  have digits : ∀ {c : Char}, c ∈ Numeral.digits n → Numeral.isDigit c = true :=
    fun member => List.all_eq_true.1 (Numeral.all_isDigit_digits n) _ member
  apply whole_of_plain
  refine ⟨fun member => ?_, fun member => ?_, fun member => ?_⟩
  all_goals cases digits member

theorem Scalar.whole {text : List Char} {type : AbiType} (denoted : Scalar text type) : Whole text ∧ text ≠ [] := by
  cases denoted with
  | address | bool | string | bytes | wideUint | wideInt => exact ⟨whole_of_plain (by decide), by decide⟩
  | fixedBytes numeral _ _ | uint numeral _ _ _ | int numeral _ _ _ =>
    exact ⟨(whole_of_plain (by decide)).append (whole_spells numeral), by simp⟩

/-- No scalar is taken for a tuple. -/
theorem Scalar.stripLead?_tuple {text : List Char} {type : AbiType} (denoted : Scalar text type) :
    stripLead? "tuple".toList text = none := by
  cases denoted <;> rfl

theorem Scalar.spelled_eq {text : List Char} {type : AbiType} (denoted : Scalar text type) :
    type.spelled = type.typeChars := by
  cases denoted <;> rfl

mutual

theorem whole_spelled : ∀ type : AbiType, Whole type.spelled ∧ type.spelled ≠ []
  | address | bool | string | bytes => ⟨whole_of_plain (by decide), by decide⟩
  | fixedBytes size =>
    ⟨(whole_of_plain (by decide)).append (whole_digits size),
      List.append_ne_nil_of_right_ne_nil _ (Numeral.digits_ne_nil size)⟩
  | uint bits =>
    ⟨(whole_of_plain (by decide)).append (whole_digits bits),
      List.append_ne_nil_of_right_ne_nil _ (Numeral.digits_ne_nil bits)⟩
  | int bits =>
    ⟨(whole_of_plain (by decide)).append (whole_digits bits),
      List.append_ne_nil_of_right_ne_nil _ (Numeral.digits_ne_nil bits)⟩
  | array item => ⟨(whole_spelled item).1.append (whole_of_plain (by decide)), by simp [spelled]⟩
  | fixedArray item length => ⟨(whole_spelled item).1.bracketed (whole_digits length), by simp [spelled]⟩
  | tuple members =>
    ⟨(inner_joinWith fun member listed => (whole_spelledEach members member listed).1).enclosed, by simp [spelled]⟩

theorem whole_spelledEach : ∀ members : List TypedParam, ∀ member ∈ spelledEach members, Whole member ∧ member ≠ []
  | [] => nofun
  | ⟨_, type, _⟩ :: members => by
    rw [spelledEach, List.forall_mem_cons]
    exact ⟨whole_spelled type, whole_spelledEach members⟩

end

mutual

theorem Denotes.whole : ∀ {text : List Char} {components : Option (List Param)} {type : AbiType},
    Denotes text components type →
      Whole (Param.canonicalOf text components) ∧ Param.canonicalOf text components ≠ []
  | text, components, _, .scalar base => by
    rw [Param.canonicalOf_of_none base.stripLead?_tuple]
    exact base.whole
  | _, _, _, @Denotes.tuple members _ each => by
    rw [Param.canonicalOf_tuple, Param.memberChars_eq]
    refine ⟨(inner_joinWith fun member listed => ?_).enclosed, List.cons_ne_nil _ _⟩
    obtain ⟨param, inside, rfl⟩ := List.mem_map.1 listed
    exact (each.whole param inside).1
  | _, _, _, @Denotes.array text components item inner => by
    show Whole (Param.canonicalOf (text ++ '[' :: [']']) components) ∧
      Param.canonicalOf (text ++ '[' :: [']']) components ≠ []
    rw [Param.canonicalOf_append]
    exact ⟨inner.whole.1.append (whole_of_plain (by decide)), by simp⟩
  | _, _, _, @Denotes.fixedArray text digits components item length inner numeral least => by
    rw [List.append_assoc, List.cons_append, Param.canonicalOf_append, ← List.cons_append, ← List.append_assoc]
    exact ⟨inner.whole.1.bracketed (whole_spells numeral), by simp⟩

theorem DenotesEach.whole : ∀ {params : List Param} {typed : List TypedParam}, DenotesEach params typed →
    ∀ param ∈ params, Whole param.canonicalChars ∧ param.canonicalChars ≠ []
  | _, _, .nil => nofun
  | _, _, .cons first rest => by
    rw [List.forall_mem_cons, Param.canonicalChars_eq]
    exact ⟨first.whole, rest.whole⟩

end

/-! Canonical types -/

mutual

theorem Denotes.canonicalOf_iff : ∀ {text : List Char} {components : Option (List Param)} {type : AbiType},
    Denotes text components type → (Param.canonicalOf text components = type.spelled ↔
      Param.plainText text = true ∧ Param.membersPlain text components = true)
  | text, components, type, .scalar base => by
    rw [Param.canonicalOf_of_none base.stripLead?_tuple, Param.membersPlain_of_none base.stripLead?_tuple,
      base.spelled_eq, base.plainText_iff, and_iff_left rfl]
  | _, _, _, @Denotes.tuple members typed each => by
    -- no member ends inside another, so two lists of members in parentheses are equal member by member
    have plain : Param.plainText "tuple".toList = true := by decide
    have others : Param.membersPlain "tuple".toList (some members) = Param.arePlain members := rfl
    have whole : ∀ member ∈ members.map Param.canonicalChars, Whole member ∧ member ≠ [] :=
      List.forall_mem_map.2 each.whole
    rw [Param.canonicalOf_tuple, spelled, List.cons_append, List.cons_append, List.cons.injEq,
      List.append_cancel_right_eq, Param.memberChars_eq, joinWith_inj whole (whole_spelledEach typed),
      each.canonicalChars_iff, others, and_iff_right plain, and_iff_right rfl]
  | _, _, _, @Denotes.array text components item inner => by
    have plain : Param.plainFrom '[' [']'] = true := by decide
    show Param.canonicalOf (text ++ '[' :: [']']) components = item.spelled ++ '[' :: [']'] ↔
      Param.plainText (text ++ '[' :: [']']) = true ∧ Param.membersPlain (text ++ '[' :: [']']) components = true
    rw [Param.canonicalOf_append, Param.plainText_append, Param.membersPlain_append, plain, Bool.and_true,
      ← inner.canonicalOf_iff, List.append_cancel_right_eq]
  | _, _, _, @Denotes.fixedArray text digits components item length inner numeral least => by
    rw [plainText_bracketed _ numeral least, List.append_assoc, List.cons_append, Param.canonicalOf_append,
      Param.membersPlain_append, ← List.cons_append, ← List.append_assoc, spelled, bracketed_inj numeral,
      inner.canonicalOf_iff]
    tauto

theorem DenotesEach.canonicalChars_iff : ∀ {params : List Param} {typed : List TypedParam}, DenotesEach params typed →
    (params.map Param.canonicalChars = spelledEach typed ↔ Param.arePlain params = true)
  | _, _, .nil => ⟨fun _ => rfl, fun _ => rfl⟩
  | _, _, @DenotesEach.cons param type params typed first rest => by
    rw [List.map_cons, spelledEach, List.cons.injEq, Param.canonicalChars_eq, first.canonicalOf_iff,
      rest.canonicalChars_iff, Param.arePlain, Bool.and_eq_true, Param.isPlain_eq, Bool.and_eq_true]

end

def spelling (type : AbiType) : String :=
  String.ofList type.spelled

section
variable {param : Param} {type : AbiType} {item : Item} {typed : List TypedParam}

theorem canonicalType_iff (read : ofParam param = .ok type) :
    param.canonicalType = type.spelling ↔ param.isPlain = true := by
  rw [Param.canonicalType, spelling, String.ofList_inj, Param.canonicalChars_eq,
    (denotes_of_ofParam read).canonicalOf_iff, Param.isPlain_eq, Bool.and_eq_true]

theorem signature_iff (read : ofParams item.inputs = .ok typed) :
    item.signature = item.label ++ (tuple typed).spelling ↔ ∀ param ∈ item.inputs, param.isPlain = true := by
  have each := denotesEach_of_ofParams read
  have whole : ∀ member ∈ item.inputs.map Param.canonicalChars, Whole member ∧ member ≠ [] :=
    List.forall_mem_map.2 each.whole
  rw [Item.signature, spelling, spelled, ← String.toList_inj, String.toList_append, String.toList_append,
    List.append_cancel_left_eq, String.toList_inj, String.ofList_inj, List.cons_append, List.cons_append,
    List.cons.injEq, List.append_cancel_right_eq, Param.memberChars_eq, joinWith_inj whole (whole_spelledEach typed),
    each.canonicalChars_iff, Param.arePlain_iff, and_iff_right rfl]

end

/-- The canonical type of a parameter spells the type it is read as exactly if its type text and those of its
members are plain. A parameter of the same type, names apart, has the canonical type of a plain one exactly if it
is plain too, and so it is with the signatures of two entries of one name. -/
theorem canonicalType_iff_plain {param : Param} {type : AbiType} {item : Item} {typed : List TypedParam}
    (read : ofParam param = .ok type) (readEach : ofParams item.inputs = .ok typed) :
    (param.canonicalType = type.spelling ↔ param.isPlain = true) ∧
    (∀ (other : Param) (twin : AbiType), ofParam other = .ok twin → type.bare = twin.bare → param.isPlain = true →
      (other.canonicalType = param.canonicalType ↔ other.isPlain = true)) ∧
    ∀ (other : Item) (twins : List TypedParam), other.label = item.label → ofParams other.inputs = .ok twins →
      bareEach typed = bareEach twins → (∀ param ∈ item.inputs, param.isPlain = true) →
      (other.signature = item.signature ↔ ∀ param ∈ other.inputs, param.isPlain = true) := by
  refine ⟨canonicalType_iff read, ?_, ?_⟩
  · intro other twin readToo same plain
    have spelled : type.spelling = twin.spelling := by
      rw [spelling, spelling, ← spelled_bare type, same, spelled_bare twin]
    rw [(canonicalType_iff read).2 plain, spelled]
    exact canonicalType_iff readToo
  · intro other twins label readToo same plain
    have spelled : (tuple typed).spelling = (tuple twins).spelling := by
      rw [spelling, spelling, ← spelled_bare (tuple typed), bare, same, ← bare, spelled_bare (tuple twins)]
    rw [(signature_iff readEach).2 plain, ← label, spelled]
    exact signature_iff readToo

/-- An integer without its width is read as one of 256 bits, but a function that takes it does not have the
signature of one that takes 256 bits. -/
theorem canonicalType_of_wide :
    let wide := Param.plain "amount" "uint"
    let plain := Param.plain "amount" "uint256"
    ofParam wide = .ok (uint 256) ∧ ofParam plain = .ok (uint 256) ∧ plain.canonicalType = (uint 256).spelling ∧
      wide.canonicalType ≠ (uint 256).spelling ∧ wide.canonicalType ≠ plain.canonicalType ∧
      (Item.function "pay" [wide] [] .payable none).signature ≠
        (Item.function "pay" [plain] [] .payable none).signature := by
  intro wide plain
  have isPlain : plain.isPlain = true := by decide
  have isWide : ¬ wide.isPlain = true := by decide
  have numeral : Spells (Numeral.digits 256) 256 := .digits_of_le (by decide)
  have text : plain.type.toList = "uint".toList ++ Numeral.digits 256 := by decide +kernel
  have denotes : Denotes plain.type.toList plain.components (uint 256) :=
    text ▸ .scalar (.uint numeral (by decide) (by decide) (by decide))
  have denotesWide : Denotes wide.type.toList wide.components (uint 256) := .scalar .wideUint
  have read : ofParam plain = .ok (uint 256) := ofParam_of_denotes denotes
  have readWide : ofParam wide = .ok (uint 256) := ofParam_of_denotes denotesWide
  have readEach : ofParams [plain] = .ok [⟨"amount", uint 256, false⟩] := ofParams_of_denotesEach (.cons denotes .nil)
  have readEachWide : ofParams [wide] = .ok [⟨"amount", uint 256, false⟩] :=
    ofParams_of_denotesEach (.cons denotesWide .nil)
  let pay : Item := .function "pay" [plain] [] .payable none
  let payWide : Item := .function "pay" [wide] [] .payable none
  obtain ⟨spells, params, items⟩ := @canonicalType_iff_plain plain _ pay _ read readEach
  have wideSpells := (@canonicalType_iff_plain wide _ payWide _ readWide readEachWide).1
  refine ⟨readWide, read, spells.2 isPlain, mt wideSpells.1 isWide, mt (params wide _ readWide rfl isPlain).1 isWide, ?_⟩
  intro same
  have each := (items payWide _ rfl readEachWide rfl (List.forall_mem_singleton.2 isPlain)).1 same
  exact isWide (each wide List.mem_cons_self)

end AbiType
end ContractBuild
