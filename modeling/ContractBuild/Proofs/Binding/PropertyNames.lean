import Mathlib.Data.List.TakeWhile
import ContractBuild.Binding.TypeScript

/-!
Property names as TypeScript reads them: string literals between double quotes, whose text is told by its code units,
and identifiers. A key that is written as it is reads as itself only if nothing in it is special to the reader.
-/
namespace ContractBuild.TypeScript
open Text

/-! Code units -/

def pointUnits (n : Nat) : List Nat :=
  if n < 0x10000 then [n] else [0xd800 + (n - 0x10000) / 0x400, 0xdc00 + (n - 0x10000) % 0x400]

def units (text : List Char) : List Nat :=
  text.flatMap fun c => pointUnits c.toNat

theorem length_pointUnits (n : Nat) : 1 ≤ (pointUnits n).length ∧ (pointUnits n).length ≤ 2 := by
  unfold pointUnits
  split <;> simp

theorem units_cons (c : Char) (text : List Char) : units (c :: text) = pointUnits c.toNat ++ units text := by
  rw [units, List.flatMap_cons, ← units]

theorem units_append (left right : List Char) : units (left ++ right) = units left ++ units right := by
  rw [units, List.flatMap_append, ← units, ← units]

theorem length_le_units (text : List Char) : text.length ≤ (units text).length := by
  induction text with
  | nil => exact Nat.le_refl 0
  | cons c text ih =>
    have one := (length_pointUnits c.toNat).1
    rw [units_cons, List.length_append, List.length_cons]
    omega

def ReadAs (reads : List Char → List Nat → List Char → Prop) (written text rest : List Char) : Prop :=
  ∀ value left, reads written value left ↔ value = units text ∧ left = rest

/-! String literals -/

def isLineTerminator (c : Char) : Bool :=
  c ∈ ['\n', '\r', '\u2028', '\u2029']

def breaks (c : Char) : Bool :=
  c ∈ ['"', '\\', '\n', '\r']

def Plain (text : List Char) : Prop :=
  ∀ c ∈ text, breaks c = false

@[simp]
theorem plain_nil : Plain [] :=
  List.forall_mem_nil _

@[simp]
theorem plain_cons {c : Char} {text : List Char} : Plain (c :: text) ↔ breaks c = false ∧ Plain text :=
  List.forall_mem_cons

@[simp]
theorem plain_append {left right : List Char} : Plain (left ++ right) ↔ Plain left ∧ Plain right :=
  List.forall_mem_append

def singleEscapes : List (Char × Nat) :=
  [('\x27', 39), ('"', 34), ('\\', 92), ('b', 8), ('t', 9), ('n', 10), ('v', 11), ('f', 12), ('r', 13)]

def readHex? (digits : List Char) : Option Nat :=
  digits.foldlM (fun value c => (Json.hexValue? c).map (16 * value + ·)) 0

inductive Escape : List Char → List Nat → Prop
  | single {c : Char} {n : Nat} (known : (c, n) ∈ singleEscapes) : Escape [c] [n]
  | same {c : Char} (unknown : c ∉ singleEscapes.map Prod.fst ∧ c ≠ 'x' ∧ c ≠ 'u') (noDigit : Numeral.isDigit c = false)
    (noEnd : isLineTerminator c = false) : Escape [c] (pointUnits c.toNat)
  | hex {digits : List Char} {n : Nat} (two : digits.length = 2) (read : readHex? digits = some n) :
    Escape ('x' :: digits) [n]
  | unicode {digits : List Char} {n : Nat} (four : digits.length = 4) (read : readHex? digits = some n) :
    Escape ('u' :: digits) [n]
  | point {digits : List Char} {n : Nat} (filled : digits ≠ []) (read : readHex? digits = some n)
    (inRange : n ≤ 0x10ffff) : Escape ('u' :: '\x7b' :: digits ++ ['\x7d']) (pointUnits n)
  | line {c : Char} (ends : isLineTerminator c = true) : Escape [c] []
  | windowsLine : Escape ['\r', '\n'] []

/-- A literal behind its opening quote: the text, the units that it denotes, and what is left behind the closing
quote. -/
inductive Literal : List Char → List Nat → List Char → Prop
  | close {rest : List Char} : Literal ('"' :: rest) [] rest
  | char {c : Char} {text rest : List Char} {value : List Nat} (plain : breaks c = false)
    (goesOn : Literal text value rest) : Literal (c :: text) (pointUnits c.toNat ++ value) rest
  | zero {text rest : List Char} {value : List Nat} (alone : ∀ c ∈ text.head?, Numeral.isDigit c = false)
    (goesOn : Literal text value rest) : Literal ('\\' :: '0' :: text) (0 :: value) rest
  | escape {written text rest : List Char} {come value : List Nat} (escape : Escape written come)
    (goesOn : Literal text value rest) : Literal ('\\' :: written ++ text) (come ++ value) rest

theorem Escape.length_le {written : List Char} {come : List Nat} (escape : Escape written come) :
    come.length ≤ (units written).length := by
  cases escape with
  | single _ =>
    exact length_le_units [_]
  | same _ _ _ =>
    rw [units_cons, List.length_append]
    exact Nat.le_add_right _ _
  | hex _ _ | unicode _ _ =>
    refine le_trans ?_ (length_le_units _)
    simp
  | point _ _ _ =>
    refine (length_pointUnits _).2.trans (le_trans ?_ (length_le_units _))
    simp
  | line _ | windowsLine => exact Nat.zero_le _

/-- A literal is closed by a quote, denotes no more units than it is written with, and as many only if it is
written without an escape. -/
theorem Literal.spec {text rest : List Char} {value : List Nat} (literal : Literal text value rest) :
    ∃ written, text = written ++ '"' :: rest ∧ value.length ≤ (units written).length ∧
      (value.length = (units written).length → Plain written) := by
  induction literal with
  | close => exact ⟨[], rfl, Nat.le_refl 0, fun _ => plain_nil⟩
  | @char c text rest value plain _ ih =>
    obtain ⟨written, rfl, less, exact_⟩ := ih
    refine ⟨c :: written, rfl, ?_, fun same => plain_cons.2 ⟨plain, exact_ ?_⟩⟩
    · rw [units_cons, List.length_append, List.length_append]
      exact Nat.add_le_add_left less _
    · rw [units_cons, List.length_append, List.length_append] at same
      exact Nat.add_left_cancel same
  | @zero text rest value _ _ ih =>
    obtain ⟨written, rfl, less, -⟩ := ih
    have size : (units ('\\' :: '0' :: written)).length = (units written).length + 2 := by
      rw [units_cons, units_cons]
      rfl
    refine ⟨'\\' :: '0' :: written, rfl, ?_, fun same => ?_⟩
    · rw [size, List.length_cons]
      omega
    · rw [size, List.length_cons] at same
      omega
  | @escape front text rest come value escape _ ih =>
    obtain ⟨written, rfl, less, -⟩ := ih
    have fewer := escape.length_le
    have size : (units ('\\' :: (front ++ written))).length = 1 + ((units front).length + (units written).length) := by
      rw [units_cons, units_append, List.length_append, List.length_append]
      rfl
    refine ⟨'\\' :: (front ++ written), by simp, ?_, fun same => ?_⟩
    · rw [size, List.length_append]
      omega
    · rw [size, List.length_append] at same
      omega

theorem literal_of_plain {text : List Char} (plain : Plain text) (rest : List Char) :
    Literal (text ++ '"' :: rest) (units text) rest := by
  induction text with
  | nil => exact .close
  | cons c text ih =>
    obtain ⟨here, others⟩ := plain_cons.1 plain
    rw [units_cons]
    exact .char here (ih others)

/-- A plain text is read in one way only. -/
theorem Literal.unique_of_plain {text rest left : List Char} {value : List Nat} (plain : Plain text)
    (literal : Literal (text ++ '"' :: rest) value left) : value = units text ∧ left = rest := by
  induction text generalizing value with
  | nil =>
    cases literal with
    | close => exact ⟨rfl, rfl⟩
    | char isPlain _ => exact absurd isPlain (by decide)
  | cons c text ih =>
    obtain ⟨here, others⟩ := plain_cons.1 plain
    generalize whole : c :: text ++ '"' :: rest = all at literal
    cases literal with
    | close | zero _ _ | escape _ _ =>
      obtain ⟨rfl, -⟩ := List.cons.inj whole
      exact absurd here (by decide)
    | char _ goesOn =>
      obtain ⟨rfl, rfl⟩ := List.cons.inj whole
      obtain ⟨rfl, rfl⟩ := ih others goesOn
      exact ⟨(units_cons c text).symm, rfl⟩

/-- A text that is put between two quotes as it is denotes itself, and ends at the second quote, exactly if it is
plain. -/
theorem literal_iff (text rest : List Char) : ReadAs Literal (text ++ '"' :: rest) text rest ↔ Plain text := by
  constructor
  · intro reads
    obtain ⟨written, same, -, exact_⟩ := ((reads _ _).2 ⟨rfl, rfl⟩).spec
    obtain rfl : text = written := List.append_cancel_right same
    exact exact_ rfl
  · intro plain value left
    refine ⟨Literal.unique_of_plain plain, ?_⟩
    rintro ⟨rfl, rfl⟩
    exact literal_of_plain plain left

/-! Identifiers -/

/-- The characters beyond ASCII that an identifier can begin with and go on with. -/
structure Letters where
  start : Char → Bool
  part : Char → Bool

variable (letters : Letters)

def isStart (c : Char) : Bool :=
  if c.toNat < 128 then c.isAlpha || c = '_' || c = '$' else letters.start c

def isPart (c : Char) : Bool :=
  if c.toNat < 128 then c.isAlphanum || c = '_' || c = '$' else letters.part c

def IsIdentifier (text : List Char) : Prop :=
  ∃ c rest, text = c :: rest ∧ isStart letters c = true ∧ ∀ d ∈ rest, isPart letters d = true

/-- A property name at the beginning of a text, with the units that it denotes and what is left behind it. An
identifier is as long as it can be; escapes in identifiers are left out, as none reads as itself. -/
inductive PropertyName : List Char → List Nat → List Char → Prop
  | literal {text rest : List Char} {value : List Nat} (reads : Literal text value rest) :
    PropertyName ('"' :: text) value rest
  | identifier {name rest : List Char} (named : IsIdentifier letters name)
    (ends : ∀ c ∈ rest.head?, isPart letters c = false ∧ c ≠ '\\') : PropertyName (name ++ rest) (units name) rest

variable {letters}

theorem propertyName_quoted_iff {text rest : List Char} {value : List Nat} :
    PropertyName letters ('"' :: text) value rest ↔ Literal text value rest := by
  refine ⟨fun reads => ?_, .literal⟩
  generalize whole : '"' :: text = all at reads
  cases reads with
  | literal reads =>
    cases whole
    exact reads
  | identifier named _ =>
    obtain ⟨c, others, rfl, starts, -⟩ := named
    cases whole
    exact absurd starts Bool.false_ne_true

/-- Two identifiers at the beginning of one text, each as long as it can be, are one. -/
theorem IsIdentifier.unique {name other rest left : List Char} (named : IsIdentifier letters name)
    (namedToo : IsIdentifier letters other) (ends : ∀ c ∈ rest.head?, isPart letters c = false)
    (endsToo : ∀ c ∈ left.head?, isPart letters c = false) (same : name ++ rest = other ++ left) :
    name = other ∧ rest = left := by
  obtain ⟨c, tail, rfl, -, parts⟩ := named
  obtain ⟨d, tailToo, rfl, -, partsToo⟩ := namedToo
  have stops : ∀ {text : List Char}, (∀ c ∈ text.head?, isPart letters c = false) →
      text.takeWhile (isPart letters) = [] := by
    intro text ends
    cases text with
    | nil => rfl
    | cons c text => exact List.takeWhile_cons_of_neg (by simp [ends c rfl])
  rw [List.cons_append, List.cons_append, List.cons.injEq] at same
  have taken := congrArg (List.takeWhile (isPart letters)) same.2
  rw [List.takeWhile_append_of_pos parts, List.takeWhile_append_of_pos partsToo, stops ends, stops endsToo,
    List.append_nil, List.append_nil] at taken
  exact ⟨by rw [same.1, taken], List.append_cancel_left (taken ▸ same.2)⟩

def Fits (letters : Letters) (key : List Char) : Prop :=
  if '(' ∈ key then Plain key else IsIdentifier letters key

theorem toList_propertyKey (key : String) :
    (propertyKey key).toList = if '(' ∈ key.toList then '"' :: key.toList ++ ['"'] else key.toList := by
  unfold propertyKey
  split <;> simp

/-- At its place in front of its parameters a key is read as itself, and in no other way, exactly if it fits. -/
theorem propertyName_iff (key : String) (rest : List Char) :
    ReadAs (PropertyName letters) ((propertyKey key).toList ++ '(' :: rest) key.toList ('(' :: rest) ↔
      Fits letters key.toList := by
  have opens : isPart letters '(' = false := rfl
  have ends : ∀ c ∈ ('(' :: rest).head?, isPart letters c = false := by simp [opens]
  rw [toList_propertyKey, Fits]
  split
  · rw [← literal_iff key.toList ('(' :: rest)]
    simp only [ReadAs, List.cons_append, List.append_assoc, List.nil_append, propertyName_quoted_iff]
  · next noParen =>
    constructor
    · intro reads
      have here := (reads _ _).2 ⟨rfl, rfl⟩
      generalize whole : key.toList ++ '(' :: rest = all at here
      generalize value : units key.toList = come at here
      generalize behind : '(' :: rest = left at here
      cases here with
      | @literal text _ _ literal =>
        -- a key that begins with a quote is longer than what it is read as
        obtain ⟨written, rfl, less, -⟩ := literal.spec
        rw [← behind] at whole
        have same : key.toList ++ '(' :: rest = ('"' :: written ++ ['"']) ++ '(' :: rest := by simpa using whole
        have long : key.toList = '"' :: written ++ ['"'] := List.append_cancel_right same
        rw [← value, long, List.cons_append, units_cons, units_append, List.length_append, List.length_append] at less
        exact absurd less (by have := (length_pointUnits '"'.toNat).1; omega)
      | identifier named _ =>
        rw [← behind] at whole
        rwa [List.append_cancel_right whole]
    · intro named value left
      constructor
      · intro reads
        generalize whole : key.toList ++ '(' :: rest = all at reads
        cases reads with
        | literal _ =>
          obtain ⟨c, others, text, starts, -⟩ := named
          rw [text] at whole
          cases whole
          exact absurd starts Bool.false_ne_true
        | identifier namedToo endsToo =>
          obtain ⟨rfl, rfl⟩ := named.unique namedToo ends (fun c first => (endsToo c first).1) whole
          exact ⟨rfl, rfl⟩
      · rintro ⟨rfl, rfl⟩
        exact .identifier named (by simp [opens])

end ContractBuild.TypeScript
