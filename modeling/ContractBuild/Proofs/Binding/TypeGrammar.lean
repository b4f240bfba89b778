import ContractBuild.Binding.AbiType
import Mathlib.Data.List.Basic

/-!
The grammar of type texts, told without the reader: which texts denote which types, and how a type is
written. Reading accepts exactly the grammar, and what is written reads back.
-/
namespace ContractBuild
open Text

namespace Text.Numeral

structure Spells (text : List Char) (value : Nat) : Prop where
  digits : ∃ digits, (text = digits ∨ text = '+' :: digits) ∧ digits ≠ [] ∧
    (∀ c ∈ digits, isDigit c = true) ∧ accumulate 0 digits = value
  inWord : value ≤ wordMax

theorem readDigits?_eq_some {text : List Char} {value : Nat} :
    readDigits? text = some value ↔
      text ≠ [] ∧ (∀ c ∈ text, isDigit c = true) ∧ accumulate 0 text = value := by
  simp [readDigits?, and_assoc]

theorem read?_eq_some {text : List Char} {value : Nat} :
    read? text = some value ↔ ∃ digits, (text = digits ∨ text = '+' :: digits) ∧ digits ≠ [] ∧
      (∀ c ∈ digits, isDigit c = true) ∧ accumulate 0 digits = value := by
  unfold read?
  split
  · next rest =>
    rw [readDigits?_eq_some]
    constructor
    · exact fun spelled => ⟨rest, .inr rfl, spelled⟩
    · rintro ⟨digits, rfl | same, spelled⟩
      · exact absurd (spelled.2.1 '+' List.mem_cons_self) (by decide)
      · cases same
        exact spelled
  · next signless =>
    rw [readDigits?_eq_some]
    constructor
    · exact fun spelled => ⟨text, .inl rfl, spelled⟩
    · rintro ⟨digits, rfl | same, spelled⟩
      · exact spelled
      · exact absurd same (signless digits)

theorem readUpTo?_wordMax {text : List Char} {value : Nat} :
    readUpTo? wordMax text = some value ↔ Spells text value := by
  simp only [readUpTo?, Option.filter_eq_some_iff, read?_eq_some, decide_eq_true_eq]
  exact ⟨fun ⟨digits, inWord⟩ => ⟨digits, inWord⟩, fun ⟨digits, inWord⟩ => ⟨digits, inWord⟩⟩

theorem Spells.digits_of_le {value : Nat} (inWord : value ≤ wordMax) : Spells (Numeral.digits value) value :=
  ⟨⟨_, .inl rfl, digits_ne_nil value, List.all_eq_true.1 (all_isDigit_digits value), accumulate_digits value⟩,
    inWord⟩

/-- A numeral holds digits and a plus sign. -/
theorem Spells.mem {text : List Char} {value : Nat} (spells : Spells text value) {c : Char} (member : c ∈ text) :
    c = '+' ∨ isDigit c = true := by
  obtain ⟨digits, rfl | rfl, -, all, -⟩ := spells.digits
  · exact .inr (all c member)
  · exact (List.mem_cons.1 member).imp_right (all c)

theorem Spells.ne_nil {text : List Char} {value : Nat} (spells : Spells text value) : text ≠ [] := by
  obtain ⟨digits, rfl | rfl, filled, -⟩ := spells.digits
  · exact filled
  · exact List.cons_ne_nil _ _

theorem Spells.not_mem {text : List Char} {value : Nat} (spells : Spells text value) {c : Char} (sign : c ≠ '+')
    (other : isDigit c = false) : c ∉ text := by
  intro member
  rcases spells.mem member with same | digit
  · exact sign same
  · rw [other] at digit
    cases digit

end Text.Numeral

namespace AbiType
open Numeral (Spells)

/-! The grammar -/

inductive Scalar : List Char → AbiType → Prop
  | address : Scalar "address".toList address
  | bool : Scalar "bool".toList bool
  | string : Scalar "string".toList string
  | bytes : Scalar "bytes".toList bytes
  | wideUint : Scalar "uint".toList (uint 256)
  | wideInt : Scalar "int".toList (int 256)
  | fixedBytes {width : List Char} {size : Nat} (numeral : Spells width size) (least : 1 ≤ size) (most : size ≤ 32) :
    Scalar ("bytes".toList ++ width) (fixedBytes size)
  | uint {width : List Char} {bits : Nat} (numeral : Spells width bits) (whole : 8 ∣ bits) (least : 8 ≤ bits)
    (most : bits ≤ 256) : Scalar ("uint".toList ++ width) (uint bits)
  | int {width : List Char} {bits : Nat} (numeral : Spells width bits) (whole : 8 ∣ bits) (least : 8 ≤ bits)
    (most : bits ≤ 256) : Scalar ("int".toList ++ width) (int bits)

mutual

/-- A type text, with the members that stand beside it, denotes a type. -/
inductive Denotes : List Char → Option (List Param) → AbiType → Prop
  | scalar {text : List Char} {components : Option (List Param)} {type : AbiType} (base : Scalar text type) :
    Denotes text components type
  | tuple {members : List Param} {typed : List TypedParam} (each : DenotesEach members typed) :
    Denotes "tuple".toList (some members) (tuple typed)
  | array {text : List Char} {components : Option (List Param)} {item : AbiType}
    (inner : Denotes text components item) : Denotes (text ++ "[]".toList) components (array item)
  | fixedArray {text digits : List Char} {components : Option (List Param)} {item : AbiType} {length : Nat}
    (inner : Denotes text components item) (numeral : Spells digits length) (least : 1 ≤ length) :
    Denotes (text ++ '[' :: digits ++ [']']) components (fixedArray item length)

inductive DenotesEach : List Param → List TypedParam → Prop
  | nil : DenotesEach [] []
  | cons {param : Param} {type : AbiType} {params : List Param} {typed : List TypedParam}
    (first : Denotes param.type.toList param.components type) (rest : DenotesEach params typed) :
    DenotesEach (param :: params) (⟨param.name, type, param.indexed.getD false⟩ :: typed)

end

/-! Bases -/

theorem isIntegerWidth_iff {bits : Nat} : isIntegerWidth bits = true ↔ 8 ∣ bits ∧ 8 ≤ bits ∧ bits ≤ 256 := by
  simp only [isIntegerWidth, ne_eq, decide_not, Bool.and_eq_true, Bool.not_eq_true', decide_eq_false_iff_not,
    decide_eq_true_eq]
  omega

theorem width?_eq_some {lead base : List Char} {value : Option Nat} :
    width? lead base = some value ↔
      ∃ width, base = lead ++ width ∧ Numeral.readUpTo? Numeral.wordMax width = value := by
  simp [width?, stripLead?_eq_some]

theorem scalar_of_scalar? {base : List Char} {type : AbiType} (read : scalar? base = some type) :
    Scalar base type := by
  unfold scalar? at read
  iterate 6
    split at read
    · next same =>
      cases read
      subst same
      constructor
  split at read
  · next found =>
    obtain ⟨width, rfl, numeral⟩ := width?_eq_some.1 found
    obtain ⟨value, rfl, fits⟩ := Option.bind_eq_some_iff.1 read
    rw [Option.ite_none_right_eq_some, Bool.and_eq_true, decide_eq_true_eq, decide_eq_true_eq] at fits
    obtain ⟨⟨least, most⟩, ⟨⟩⟩ := fits
    exact .fixedBytes (Numeral.readUpTo?_wordMax.1 numeral) least most
  · next found =>
    obtain ⟨width, rfl, numeral⟩ := width?_eq_some.1 found
    obtain ⟨value, rfl, fits⟩ := Option.bind_eq_some_iff.1 read
    rw [Option.ite_none_right_eq_some, isIntegerWidth_iff] at fits
    obtain ⟨⟨whole, least, most⟩, ⟨⟩⟩ := fits
    exact .uint (Numeral.readUpTo?_wordMax.1 numeral) whole least most
  · next found =>
    obtain ⟨width, rfl, numeral⟩ := width?_eq_some.1 found
    obtain ⟨value, rfl, fits⟩ := Option.bind_eq_some_iff.1 read
    rw [Option.ite_none_right_eq_some, isIntegerWidth_iff] at fits
    obtain ⟨⟨whole, least, most⟩, ⟨⟩⟩ := fits
    exact .int (Numeral.readUpTo?_wordMax.1 numeral) whole least most
  · cases read

/-- A base with a width is none of the bases without one, and begins with no other lead. -/
theorem scalar?_of_scalar {base : List Char} {type : AbiType} (denoted : Scalar base type) :
    scalar? base = some type := by
  cases denoted with
  | address => rfl
  | bool => rfl
  | string => rfl
  | bytes => rfl
  | wideUint => rfl
  | wideInt => rfl
  | fixedBytes numeral least most =>
    have filled := numeral.ne_nil
    have width := Numeral.readUpTo?_wordMax.2 numeral
    simp [scalar?, width?, stripLead?, filled, width, least, most]
  | uint numeral whole least most =>
    have filled := numeral.ne_nil
    have width := Numeral.readUpTo?_wordMax.2 numeral
    have fits := isIntegerWidth_iff.2 ⟨whole, least, most⟩
    simp [scalar?, width?, stripLead?, filled, width, fits]
  | int numeral whole least most =>
    have filled := numeral.ne_nil
    have width := Numeral.readUpTo?_wordMax.2 numeral
    have fits := isIntegerWidth_iff.2 ⟨whole, least, most⟩
    simp [scalar?, width?, stripLead?, filled, width, fits]

theorem scalar?_eq_some {base : List Char} {type : AbiType} : scalar? base = some type ↔ Scalar base type :=
  ⟨scalar_of_scalar?, scalar?_of_scalar⟩

/-- A base ends in a letter or a digit. -/
theorem Scalar.getLast?_ne {base : List Char} {type : AbiType} (denoted : Scalar base type) :
    base.getLast? ≠ some ']' := by
  have ofWidth : ∀ {lead width : List Char} {value : Nat}, Spells width value →
      (lead ++ width).getLast? ≠ some ']' := by
    intro lead width value numeral last
    rw [List.getLast?_append_of_ne_nil _ numeral.ne_nil] at last
    exact numeral.not_mem (by decide) (by decide) (List.mem_of_getLast? last)
  cases denoted with
  | fixedBytes numeral _ _ => exact ofWidth numeral
  | uint numeral _ _ _ => exact ofWidth numeral
  | int numeral _ _ _ => exact ofWidth numeral
  | _ => decide

/-! Suffixes -/

/-- Taking suffixes off a text that ends otherwise leaves it. -/
theorem peelReversed_open (suffixes : List Suffix) {reversed : List Char} (ends : reversed.head? ≠ some ']') :
    peelReversed suffixes reversed = .ok (reversed.reverse, suffixes) := by
  rw [peelReversed.eq_def]
  split
  · exact absurd rfl ends
  · exact absurd rfl ends
  · rfl

theorem peelReversed_any (suffixes : List Suffix) (rest : List Char) :
    peelReversed suffixes (']' :: '[' :: rest) = peelReversed (.any :: suffixes) rest := by
  rw [peelReversed]

theorem peelReversed_exactly (suffixes : List Suffix) {digits : List Char} {length : Nat}
    (numeral : Spells digits length) (least : 1 ≤ length) (rest : List Char) :
    peelReversed suffixes (']' :: (digits.reverse ++ '[' :: rest)) =
      peelReversed (.exactly length :: suffixes) rest := by
  have inside : ∀ c ∈ digits.reverse, decide (c ≠ '[') = true := by
    intro c member
    rw [decide_eq_true_eq]
    rintro rfl
    exact numeral.not_mem (by decide) (by decide) (List.mem_reverse.1 member)
  have taken : (digits.reverse ++ '[' :: rest).takeWhile (· ≠ '[') = digits.reverse := by
    rw [List.takeWhile_append_of_pos inside]
    simp
  have dropped : (digits.reverse ++ '[' :: rest).dropWhile (· ≠ '[') = '[' :: rest := by
    rw [List.dropWhile_append_of_pos inside]
    simp
  have read := Numeral.readUpTo?_wordMax.2 numeral
  rw [peelReversed.eq_def]
  split
  · next other same =>
    -- the character in front of the closing bracket is a digit
    obtain ⟨c, front, shape⟩ := List.exists_cons_of_ne_nil (List.reverse_ne_nil_iff.2 numeral.ne_nil)
    rw [shape, List.cons_append, List.cons.injEq, List.cons.injEq] at same
    have isInside := inside c (shape ▸ List.mem_cons_self)
    rw [same.2.1] at isInside
    cases isInside
  · next other _ same =>
    obtain rfl := (List.cons.inj same).2
    split
    · next missing =>
      rw [dropped] at missing
      cases missing
    · next inner found =>
      rw [dropped] at found
      obtain rfl := (List.cons.inj found).2
      rw [taken, List.reverse_reverse, read]
      cases length with
      | zero => cases least
      | succ length => rfl
  · next other => exact absurd rfl (other _)

/-- A reversed text with a closing bracket in front, written forwards from its last opening bracket. -/
theorem reverse_of_bracketed {rest inner : List Char} {head : Char} (dropped : rest.dropWhile (· ≠ '[') = head :: inner) :
    (']' :: rest).reverse = inner.reverse ++ '[' :: (rest.takeWhile (· ≠ '[')).reverse ++ [']'] := by
  obtain rfl : head = '[' := by
    have stopped := List.head?_dropWhile_not (· ≠ '[') rest
    rw [dropped] at stopped
    simpa using stopped
  have cut := @List.takeWhile_append_dropWhile _ (· ≠ '[') rest
  rw [dropped] at cut
  simpa using congrArg (fun chars => (']' :: chars).reverse) cut.symm

/-- What is left when suffixes were taken off, and what they make of it. -/
theorem denotes_of_peelReversed {suffixes found : List Suffix} {reversed base : List Char}
    (peeled : peelReversed suffixes reversed = .ok (base, found)) :
    ∃ more, found = more ++ suffixes ∧ ∀ {components inner}, Denotes base components inner →
      Denotes reversed.reverse components (more.foldl Suffix.apply inner) := by
  fun_induction peelReversed suffixes reversed with
  | case1 suffixes rest ih =>
    obtain ⟨more, rfl, denotes⟩ := ih peeled
    refine ⟨more ++ [.any], by simp, fun inner => ?_⟩
    rw [List.foldl_append, List.reverse_cons, List.reverse_cons, List.append_assoc]
    exact .array (denotes inner)
  | case2 suffixes rest =>
    cases peeled
    exact ⟨[], rfl, id⟩
  | case3 => cases peeled
  | case4 => cases peeled
  | case5 suffixes rest _ head inner dropped length positive read _ ih =>
    obtain ⟨more, rfl, denotes⟩ := ih peeled
    refine ⟨more ++ [.exactly length], by simp, fun denoted => ?_⟩
    rw [List.foldl_append, reverse_of_bracketed dropped]
    exact .fixedArray (denotes denoted) (Numeral.readUpTo?_wordMax.1 read) (Nat.pos_of_ne_zero positive)
  | case6 suffixes base =>
    cases peeled
    exact ⟨[], rfl, id⟩

/-! Reading -/

inductive Founds (components : Option (List Param)) : List Char → AbiType → Prop
  | scalar {base : List Char} {type : AbiType} (read : scalar? base = some type) : Founds components base type
  | tuple {members : List Param} {typed : List TypedParam} (present : components = some members)
    (each : ofParams members = .ok typed) : Founds components "tuple".toList (tuple typed)

theorem ofParam_eq_ok {param : Param} {type : AbiType} :
    ofParam param = .ok type ↔ ∃ base suffixes inner, peel param.type.toList = .ok (base, suffixes) ∧
      Founds param.components base inner ∧ suffixes.foldl Suffix.apply inner = type := by
  obtain ⟨name, text, internalType, components, indexed⟩ := param
  rw [ofParam]
  constructor
  · intro ran
    split at ran
    · cases ran
    · next base suffixes peeled =>
      refine ⟨base, suffixes, ?_⟩
      split at ran
      · next isTuple =>
        subst isTuple
        split at ran
        · cases ran
        · next members =>
          cases each : ofParams members with
          | error cause =>
            rw [each] at ran
            cases ran
          | ok typed =>
            rw [each] at ran
            cases ran
            exact ⟨_, peeled, .tuple rfl each, rfl⟩
      · split at ran
        · next type read =>
          cases ran
          exact ⟨_, peeled, .scalar read, rfl⟩
        · cases ran
  · rintro ⟨base, suffixes, inner, peeled, founds, rfl⟩
    dsimp only at peeled founds
    rw [peeled]
    cases founds with
    | scalar read =>
      have other : base ≠ "tuple".toList := by
        rintro rfl
        cases read
      simp only [other, if_false, read]
      rfl
    | tuple present each =>
      subst present
      simp only [if_true, each]
      rfl

theorem ofParams_cons_eq_ok {param : Param} {params : List Param} {typed : List TypedParam} :
    ofParams (param :: params) = .ok typed ↔ ∃ type rest, ofParam param = .ok type ∧ ofParams params = .ok rest ∧
      typed = ⟨param.name, type, param.indexed.getD false⟩ :: rest := by
  rw [ofParams]
  cases ofParam param with
  | error cause => exact ⟨nofun, nofun⟩
  | ok type =>
    cases ofParams params with
    | error cause => exact ⟨nofun, nofun⟩
    | ok rest =>
      constructor
      · intro ran
        cases ran
        exact ⟨type, rest, rfl, rfl, rfl⟩
      · rintro ⟨_, _, ⟨⟩, ⟨⟩, rfl⟩
        rfl

mutual

theorem denotes_of_ofParam : ∀ {param : Param} {type : AbiType}, ofParam param = .ok type →
    Denotes param.type.toList param.components type
  | ⟨name, text, internalType, components, indexed⟩, type, ran => by
    obtain ⟨base, suffixes, inner, peeled, founds, rfl⟩ := ofParam_eq_ok.1 ran
    obtain ⟨more, same, denotes⟩ := denotes_of_peelReversed peeled
    rw [List.append_nil] at same
    subst same
    rw [List.reverse_reverse] at denotes
    apply denotes
    cases founds with
    | scalar read => exact .scalar (scalar?_eq_some.1 read)
    | @tuple members typed present each =>
      dsimp only at present
      subst present
      exact .tuple (denotesEach_of_ofParams each)

theorem denotesEach_of_ofParams : ∀ {params : List Param} {typed : List TypedParam}, ofParams params = .ok typed →
    DenotesEach params typed
  | [], _, ran => by
    cases ran
    exact .nil
  | param :: params, _, ran => by
    obtain ⟨type, rest, first, others, rfl⟩ := ofParams_cons_eq_ok.1 ran
    exact .cons (denotes_of_ofParam first) (denotesEach_of_ofParams others)

end

mutual

/-- A text that denotes a type is taken apart into its base and its suffixes, whatever suffixes were
taken off behind it. -/
theorem peelReversed_of_denotes : ∀ {text : List Char} {components : Option (List Param)} {type : AbiType},
    Denotes text components type → ∀ suffixes, ∃ base more inner,
      peelReversed suffixes text.reverse = .ok (base, more ++ suffixes) ∧ Founds components base inner ∧
      more.foldl Suffix.apply inner = type
  | text, components, type, .scalar base, suffixes => by
    have ends : text.reverse.head? ≠ some ']' := by
      rw [List.head?_reverse]
      exact base.getLast?_ne
    refine ⟨text, [], type, ?_, .scalar (scalar?_eq_some.2 base), rfl⟩
    rw [peelReversed_open suffixes ends, List.reverse_reverse]
    rfl
  | _, _, _, .tuple each, suffixes =>
    ⟨_, [], _, peelReversed_open suffixes (by decide), .tuple rfl (ofParams_of_denotesEach each), rfl⟩
  | _, _, _, .array inner, suffixes => by
    obtain ⟨base, more, type, peeled, founds, rfl⟩ := peelReversed_of_denotes inner (.any :: suffixes)
    refine ⟨base, more ++ [.any], type, ?_, founds, List.foldl_append⟩
    rw [List.reverse_append, List.append_assoc]
    exact (peelReversed_any suffixes _).trans peeled
  | _, _, _, @Denotes.fixedArray text digits _ _ length inner numeral least, suffixes => by
    obtain ⟨base, more, type, peeled, founds, rfl⟩ :=
      peelReversed_of_denotes inner (.exactly length :: suffixes)
    refine ⟨base, more ++ [.exactly length], type, ?_, founds, List.foldl_append⟩
    have shape : (text ++ '[' :: digits ++ [']']).reverse = ']' :: (digits.reverse ++ '[' :: text.reverse) := by
      simp
    rw [shape, peelReversed_exactly suffixes numeral least, peeled, List.append_assoc]
    rfl

theorem ofParams_of_denotesEach : ∀ {params : List Param} {typed : List TypedParam}, DenotesEach params typed →
    ofParams params = .ok typed
  | _, _, .nil => rfl
  | _, _, .cons first rest => by
    obtain ⟨base, more, inner, peeled, founds, applied⟩ := peelReversed_of_denotes first []
    rw [List.append_nil] at peeled
    exact ofParams_cons_eq_ok.2 ⟨_, _, ofParam_eq_ok.2 ⟨base, more, inner, peeled, founds, applied⟩,
      ofParams_of_denotesEach rest, rfl⟩

end

theorem ofParam_of_denotes {param : Param} {type : AbiType}
    (denotes : Denotes param.type.toList param.components type) : ofParam param = .ok type := by
  obtain ⟨base, more, inner, peeled, founds, applied⟩ := peelReversed_of_denotes denotes []
  rw [List.append_nil] at peeled
  exact ofParam_eq_ok.2 ⟨base, more, inner, peeled, founds, applied⟩

/-! Writing -/

mutual

def Fits : AbiType → Prop
  | address | bool | string | bytes => True
  | fixedBytes size => 1 ≤ size ∧ size ≤ 32
  | uint bits | int bits => 8 ∣ bits ∧ 8 ≤ bits ∧ bits ≤ 256
  | array item => item.Fits
  | fixedArray item length => item.Fits ∧ 1 ≤ length ∧ length ≤ Numeral.wordMax
  | tuple members => FitEach members

def FitEach : List TypedParam → Prop
  | [] => True
  | ⟨_, type, _⟩ :: members => type.Fits ∧ FitEach members

end

def typeChars : AbiType → List Char
  | address => "address".toList
  | bool => "bool".toList
  | string => "string".toList
  | bytes => "bytes".toList
  | fixedBytes size => "bytes".toList ++ Numeral.digits size
  | uint bits => "uint".toList ++ Numeral.digits bits
  | int bits => "int".toList ++ Numeral.digits bits
  | array item => item.typeChars ++ "[]".toList
  | fixedArray item length => item.typeChars ++ '[' :: Numeral.digits length ++ [']']
  | tuple _ => "tuple".toList

mutual

def components : AbiType → Option (List Param)
  | array item | fixedArray item _ => item.components
  | tuple members => some (memberParams members)
  | _ => none

def memberParams : List TypedParam → List Param
  | [] => []
  | ⟨name, type, indexed⟩ :: members =>
    ⟨name, String.ofList type.typeChars, none, type.components, some indexed⟩ :: memberParams members

end

mutual

/-- A type within the bounds is denoted by what it is written as. -/
theorem Fits.denotes : ∀ {type : AbiType}, type.Fits → Denotes type.typeChars type.components type
  | address, _ => .scalar .address
  | bool, _ => .scalar .bool
  | string, _ => .scalar .string
  | bytes, _ => .scalar .bytes
  | fixedBytes size, ⟨least, most⟩ =>
    .scalar (.fixedBytes (.digits_of_le (Nat.le_trans most (by decide))) least most)
  | uint bits, ⟨whole, least, most⟩ =>
    .scalar (.uint (.digits_of_le (Nat.le_trans most (by decide))) whole least most)
  | int bits, ⟨whole, least, most⟩ =>
    .scalar (.int (.digits_of_le (Nat.le_trans most (by decide))) whole least most)
  | array item, fits => .array (show item.Fits from fits).denotes
  | fixedArray item length, ⟨fits, least, inWord⟩ => .fixedArray fits.denotes (.digits_of_le inWord) least
  | tuple members, each => .tuple (denotesEach_of_fitEach each)

theorem denotesEach_of_fitEach : ∀ {members : List TypedParam}, FitEach members →
    DenotesEach (memberParams members) members
  | [], _ => .nil
  | ⟨name, type, indexed⟩ :: members, ⟨fits, each⟩ => by
    have denotes := fits.denotes
    rw [← String.toList_ofList (l := type.typeChars)] at denotes
    exact @DenotesEach.cons ⟨name, _, none, type.components, some indexed⟩ _ _ _ denotes (denotesEach_of_fitEach each)

end

/-- Reading a parameter accepts exactly the type texts of the grammar and gives what they denote, and a
type within the bounds of the grammar reads back from what it is written as. -/
theorem ofParam_accepts_grammar :
    (∀ (param : Param) (type : AbiType),
      ofParam param = .ok type ↔ Denotes param.type.toList param.components type) ∧
    ∀ (name : String) (internalType : Option String) (indexed : Option Bool) (type : AbiType), type.Fits →
      ofParam ⟨name, String.ofList type.typeChars, internalType, type.components, indexed⟩ = .ok type := by
  refine ⟨fun param type => ⟨denotes_of_ofParam, ofParam_of_denotes⟩, ?_⟩
  intro name internalType indexed type fits
  apply ofParam_of_denotes
  show Denotes (String.ofList type.typeChars).toList type.components type
  rw [String.toList_ofList]
  exact fits.denotes

/-- An array of pairs, one of them an array of known length, reads back from what it is written as. -/
theorem ofParam_accepts_pairs :
    let pairs : AbiType := .array (.tuple [⟨"low", .int 128, true⟩, ⟨"rest", .fixedArray .address 3, false⟩])
    pairs.Fits ∧ pairs.typeChars = "tuple[]".toList ∧
      ofParam ⟨"pairs", String.ofList pairs.typeChars, none, pairs.components, none⟩ = .ok pairs := by
  intro pairs
  have fits : pairs.Fits := ⟨⟨by decide, by decide, by decide⟩, ⟨trivial, by decide, by decide⟩, trivial⟩
  exact ⟨fits, rfl, ofParam_accepts_grammar.2 "pairs" none none pairs fits⟩

end AbiType
end ContractBuild
