import Mathlib.Logic.Relation
import ContractBuild.Binding.Dialect

/-!
Names that generated code cannot tell apart. The stem of a name is what is left of it when it is
spelled as its dialect does, and two names have one stem if and only if they are respellings of each
other, one small change at a time.
-/
namespace ContractBuild
open Text

namespace Name

/-! Identifiers -/

def clean (c : Char) : Char :=
  if isIdentifierChar c then c else '_'

theorem isIdentifierChar_clean (c : Char) : isIdentifierChar (clean c) = true := by
  unfold clean
  split
  · assumption
  · rfl

theorem clean_of_isIdentifierChar {c : Char} (fine : isIdentifierChar c = true) : clean c = c :=
  if_pos fine

@[simp] theorem clean_clean (c : Char) : clean (clean c) = clean c :=
  clean_of_isIdentifierChar (isIdentifierChar_clean c)

theorem map_clean_clean (chars : List Char) : (chars.map clean).map clean = chars.map clean := by
  rw [List.map_map]
  exact List.map_congr_left fun c _ => clean_clean c

def settled (fallback cleaned : List Char) : List Char :=
  if cleaned.all (· = '_') then fallback
  else if cleaned.head?.any Numeral.isDigit then '_' :: cleaned
  else cleaned

theorem identifier_eq (fallback name : String) :
    (identifier fallback name).toList = settled fallback.toList (name.toList.map clean) := by
  have same : (name.toList.map fun c => if isIdentifierChar c then c else '_') = name.toList.map clean := rfl
  unfold identifier settled
  dsimp only
  rw [same]
  cases name.toList.map clean with
  | nil => rfl
  | cons c rest =>
    dsimp only
    rw [List.head?_cons, Option.any_some]
    split
    · rfl
    · split <;> exact String.toList_ofList

theorem settled_chars {fallback cleaned : List Char} (fine : ∀ c ∈ fallback, isIdentifierChar c = true)
    (clean : ∀ c ∈ cleaned, isIdentifierChar c = true) :
    ∀ c ∈ settled fallback cleaned, isIdentifierChar c = true := by
  unfold settled
  split
  · exact fine
  · split
    · exact List.forall_mem_cons.2 ⟨rfl, clean⟩
    · exact clean

theorem map_clean_chars {chars : List Char} : ∀ c ∈ chars.map clean, isIdentifierChar c = true := by
  intro c member
  obtain ⟨other, -, rfl⟩ := List.mem_map.1 member
  exact isIdentifierChar_clean other

end Name

namespace RustModule
open Name

theorem isIdentifierChar_moduleName (name : String) :
    ∀ c ∈ (moduleName name).toList, isIdentifierChar c = true := by
  have fallback : ∀ c ∈ "binding".toList, isIdentifierChar c = true := List.all_eq_true.1 (by decide)
  have candidate : ∀ c ∈ (identifier "binding" (snakeCase name)).toList, isIdentifierChar c = true := by
    rw [identifier_eq]
    exact settled_chars fallback map_clean_chars
  unfold moduleName
  dsimp only
  split
  · rw [String.toList_append]
    exact List.forall_mem_append.2 ⟨candidate, List.all_eq_true.1 (by decide)⟩
  · exact candidate

theorem moduleName_not_reserved (name : String) : moduleName name ∉ reserved := by
  unfold moduleName
  dsimp only
  split
  · next isTaken =>
    rw [Bool.or_eq_true, decide_eq_true_eq, decide_eq_true_eq] at isTaken
    have taken : identifier "binding" (snakeCase name) ∈ indexStem :: reserved := List.mem_cons.2 isTaken
    have longer : ∀ word ∈ indexStem :: reserved, word ++ "_" ∉ reserved := by decide
    exact longer _ taken
  · next isFree =>
    rw [Bool.or_eq_true, not_or, decide_eq_true_eq, decide_eq_true_eq] at isFree
    exact isFree.2

/-- Raw identifiers apart, a module is declared under its name. -/
theorem identifierText_moduleName_inj {one other : String} :
    identifierText (moduleName one) = identifierText (moduleName other) ↔ moduleName one = moduleName other := by
  refine ⟨fun same => ?_, congrArg identifierText⟩
  have raw : ∀ first second, moduleName first ≠ "r#" ++ moduleName second := by
    intro first second same
    have marked : '#' ∈ (moduleName first).toList := by simp [same, String.toList_append]
    exact absurd (isIdentifierChar_moduleName first _ marked) (by decide)
  unfold identifierText at same
  rw [if_neg (moduleName_not_reserved one), if_neg (moduleName_not_reserved other)] at same
  split at same <;> split at same
  · simpa using same
  · exact absurd same.symm (raw other one)
  · exact absurd same (raw one other)
  · exact same

end RustModule

namespace Name
open Numeral (isDigit)

/-! Letter case -/

theorem forall_ascii {P : Char → Prop} (each : ∀ n < 128, P (Char.ofNat n)) {c : Char} (ascii : c.toNat < 128) :
    P c := by
  have here := each c.toNat ascii
  rwa [Char.ofNat_toNat] at here

theorem isIdentifierChar_beyond {c : Char} (beyond : 128 ≤ c.toNat) : isIdentifierChar c = false := by
  have notUnderscore : c ≠ '_' := by
    rintro rfl
    exact absurd beyond (by decide)
  have outside : 128 ≤ c.val.toNat := beyond
  have ranges : c.isAlphanum = (decide ('A'.val ≤ c.val ∧ c.val ≤ 'Z'.val) ||
      decide ('a'.val ≤ c.val) && decide (c.val ≤ 'z'.val) ||
      decide ('0'.val ≤ c.val) && decide (c.val ≤ '9'.val)) := rfl
  simp only [isIdentifierChar, ranges, UInt32.le_iff_toNat_le, notUnderscore]
  simp
  omega

/-- Cleaning leaves no capitals but those of ASCII. -/
theorem isUppercase_clean {c : Char} (outside : c.toNat < 65 ∨ 90 < c.toNat) : isUppercase (clean c) = false := by
  by_cases beyond : 128 ≤ c.toNat
  · rw [clean, isIdentifierChar_beyond beyond]
    rfl
  · exact forall_ascii (P := fun c => c.toNat < 65 ∨ 90 < c.toNat → isUppercase (clean c) = false)
      (by decide) (Nat.lt_of_not_le beyond) outside

theorem isUppercase_clean_of_small {c : Char} (small : isUppercase c = false) : isUppercase (clean c) = false := by
  unfold clean
  split
  · exact small
  · rfl

/-- What holds of each entry of a table holds of one that is found. The entries are taken as a list: one after another
they are checked in as many steps as there are, and by their positions in the square of that. -/
theorem holds_of_find? {α : Type} {table : Array α} {holds sought : α → Bool} {entry : α}
    (each : table.toList.all holds = true) (found : table.find? sought = some entry) : holds entry = true :=
  List.all_eq_true.1 each entry (Array.mem_toList_iff.2 (Array.mem_of_find?_eq_some found))

theorem toNat_shifted_small {n : Nat} {c : Char} (found : shifted? smallRuns n = some c) :
    c.toNat < 65 ∨ 90 < c.toNat := by
  have beyond : (smallRuns.toList.all fun entry => 90 < (entry.1.1 : Int) + entry.2) = true := by decide +kernel
  obtain ⟨⟨run, distance⟩, isRun, rfl⟩ := Option.map_eq_some_iff.1 found
  have far := holds_of_find? beyond isRun
  have inside := Array.find?_some isRun
  simp only [inRun, Bool.and_eq_true, decide_eq_true_eq] at far inside
  by_cases valid : ((n : Int) + distance).toNat.isValidChar
  · rw [Char.ofNat, dif_pos valid]
    show ((n : Int) + distance).toNat < 65 ∨ 90 < ((n : Int) + distance).toNat
    omega
  · rw [Char.ofNat, dif_neg valid]
    exact .inl (by decide)

theorem isUppercase_clean_lowercased {c d : Char} (member : d ∈ (lowercased c).map clean) :
    isUppercase d = false := by
  obtain ⟨e, isLowered, rfl⟩ := List.mem_map.1 member
  apply isUppercase_clean
  unfold lowercased at isLowered
  split at isLowered
  · next ascii =>
    rw [List.mem_singleton.1 isLowered]
    exact forall_ascii (P := fun c => c.toLower.toNat < 65 ∨ 90 < c.toLower.toNat) (by decide) ascii
  · next beyond =>
    split at isLowered
    · rcases List.mem_cons.1 isLowered with rfl | isDot
      · exact .inr (by decide)
      · rw [List.mem_singleton.1 isDot]
        exact .inr (by decide)
    · rw [List.mem_singleton.1 isLowered]
      cases found : shifted? smallRuns c.toNat with
      | none =>
        rw [Option.getD_none]
        omega
      | some other => exact toNat_shifted_small found

/-! Words -/

def endsSmall (small : Bool) (chars : List Char) : Bool :=
  chars.foldl (fun _ c => !isUppercase c && (isLowercase c || isDigit c)) small

theorem snakeChars_append (small : Bool) (front rest : List Char) :
    snakeChars small (front ++ rest) = snakeChars small front ++ snakeChars (endsSmall small front) rest := by
  induction front generalizing small with
  | nil => rfl
  | cons c front ih =>
    have step : endsSmall small (c :: front) =
        endsSmall (!isUppercase c && (isLowercase c || isDigit c)) front := rfl
    rw [List.cons_append, snakeChars, snakeChars, step]
    by_cases capital : isUppercase c = true
    · rw [if_pos capital, if_pos capital, ih, capital, List.append_assoc _ _ (snakeChars _ rest)]
      rfl
    · rw [Bool.not_eq_true] at capital
      rw [capital, if_neg Bool.false_ne_true, if_neg Bool.false_ne_true, ih]
      rfl

theorem snakeChars_of_small {chars : List Char} (plain : ∀ c ∈ chars, isUppercase c = false) (small : Bool) :
    snakeChars small chars = chars := by
  induction chars generalizing small with
  | nil => rfl
  | cons c chars ih =>
    obtain ⟨here, rest⟩ := List.forall_mem_cons.1 plain
    rw [snakeChars, here, if_neg Bool.false_ne_true, ih rest]

theorem snakeChars_eq_of_head {chars : List Char} (next : ∀ c ∈ chars.head?, isUppercase c = false)
    (small other : Bool) : snakeChars small chars = snakeChars other chars := by
  cases chars with
  | nil => rfl
  | cons c chars => rw [snakeChars, snakeChars, next c rfl, if_neg Bool.false_ne_true, if_neg Bool.false_ne_true]

theorem isUppercase_clean_snakeChars {small : Bool} {chars : List Char} :
    ∀ d ∈ (snakeChars small chars).map clean, isUppercase d = false := by
  induction chars generalizing small with
  | nil => exact fun _ member => nomatch member
  | cons c chars ih =>
    rw [snakeChars]
    split
    · rw [List.map_append, List.map_append]
      refine List.forall_mem_append.2 ⟨List.forall_mem_append.2 ⟨?_, ?_⟩, ih⟩
      · cases small with
        | false => exact fun _ member => nomatch member
        | true => exact List.forall_mem_singleton.2 (by decide)
      · exact fun d member => isUppercase_clean_lowercased member
    · next plain =>
      rw [List.map_cons]
      exact List.forall_mem_cons.2 ⟨isUppercase_clean_of_small (eq_false_of_ne_true plain), ih⟩

def smallForm (small : Bool) (c : Char) : List Char :=
  (snakeChars small [c]).map clean

/-- In front of small characters, a character is written in its small form whatever follows. -/
theorem map_clean_snakeChars_cons (small : Bool) (c : Char) {rest : List Char}
    (next : ∀ d ∈ rest.head?, isUppercase d = false) (other : Bool) :
    (snakeChars small (c :: rest)).map clean = smallForm small c ++ (snakeChars other rest).map clean := by
  rw [show c :: rest = [c] ++ rest from rfl, snakeChars_append, List.map_append,
    snakeChars_eq_of_head next _ other]
  rfl

end Name

namespace Dialect
open Name
open Numeral (isDigit)

def stem : Dialect → String → String
  | ethersV5, name => TypeScript.typeName name
  | rust, name => RustModule.moduleName name

def fallback : Dialect → List Char
  | ethersV5 => "Contract".toList
  | rust => "binding".toList

inductive Respelling : Dialect → List Char → List Char → Prop
  | odd {front rest : List Char} {c : Char} (odd : isIdentifierChar c = false) :
    Respelling ethersV5 (front ++ c :: rest) (front ++ '_' :: rest)
  | small {front rest : List Char} {c : Char} (last : ∀ d ∈ rest.head?, isUppercase d = false) :
    Respelling rust (front ++ c :: rest) (front ++ smallForm (endsSmall false front) c ++ rest)
  | blank {dialect : Dialect} {name : List Char} (blank : ∀ c ∈ name, c = '_') :
    Respelling dialect name dialect.fallback
  | number {dialect : Dialect} {c : Char} {rest : List Char} (digit : isDigit c = true) :
    Respelling dialect (c :: rest) ('_' :: c :: rest)
  | reserved {word : String} (taken : word ∈ RustModule.indexStem :: RustModule.reserved) :
    Respelling rust word.toList (word.toList ++ ['_'])

def written : Dialect → List Char → List Char
  | ethersV5, name => name.map clean
  | rust, name => (snakeChars false name).map clean

def freed : Dialect → List Char → List Char
  | ethersV5, stem => stem
  | rust, stem =>
    if stem ∈ (RustModule.indexStem :: RustModule.reserved).map String.toList then stem ++ ['_'] else stem

def stemChars (dialect : Dialect) (name : List Char) : List Char :=
  dialect.freed (settled dialect.fallback (dialect.written name))

theorem toList_stem (dialect : Dialect) (name : String) :
    (dialect.stem name).toList = dialect.stemChars name.toList := by
  cases dialect with
  | ethersV5 => exact identifier_eq "Contract" name
  | rust =>
    have words : (snakeCase name).toList = snakeChars false name.toList := String.toList_ofList
    have candidate : (identifier "binding" (snakeCase name)).toList =
        settled "binding".toList ((snakeChars false name.toList).map clean) := by
      rw [identifier_eq, words]
    show (RustModule.moduleName name).toList = if _ then _ else _
    rw [show settled (fallback rust) (written rust name.toList) = _ from candidate.symm]
    unfold RustModule.moduleName
    simp only [List.mem_map, List.mem_cons, String.toList_inj, Bool.or_eq_true, decide_eq_true_eq, exists_eq_right]
    split
    · rw [String.toList_append]
      rfl
    · rfl

theorem written_of_blank (dialect : Dialect) {name : List Char} (blank : ∀ c ∈ name, c = '_') :
    dialect.written name = name := by
  have fixed : name.map clean = name := by
    rw [List.map_congr_left fun c member => (congrArg clean (blank c member)).trans (blank c member).symm, List.map_id']
  cases dialect with
  | ethersV5 => exact fixed
  | rust =>
    have plain : ∀ c ∈ name, isUppercase c = false := by
      intro c member
      rw [blank c member]
      rfl
    exact (congrArg _ (snakeChars_of_small plain false)).trans fixed

theorem plain_of_digit {c : Char} (digit : isDigit c = true) : isUppercase c = false ∧ clean c = c := by
  have bounds := digit
  rw [isDigit, Bool.and_eq_true, decide_eq_true_eq, decide_eq_true_eq] at bounds
  exact forall_ascii (P := fun c => isDigit c = true → isUppercase c = false ∧ clean c = c)
    (by decide) (by omega) digit

theorem written_of_number (dialect : Dialect) {c : Char} (digit : isDigit c = true) (rest : List Char) :
    (dialect.written (c :: rest)).head? = some c ∧
      dialect.written ('_' :: c :: rest) = '_' :: dialect.written (c :: rest) := by
  obtain ⟨plain, fixed⟩ := plain_of_digit digit
  cases dialect with
  | ethersV5 => exact ⟨congrArg some fixed, rfl⟩
  | rust =>
    have opens : ∀ small, (snakeChars small (c :: rest)).map clean = c :: (snakeChars true rest).map clean := by
      intro small
      rw [snakeChars, plain, digit, Bool.or_true, if_neg Bool.false_ne_true, List.map_cons, fixed]
    refine ⟨?_, ?_⟩
    · rw [written, opens]
      rfl
    · show ('_' :: snakeChars _ (c :: rest)).map clean = '_' :: (snakeChars false (c :: rest)).map clean
      rw [List.map_cons, opens, opens]
      rfl

/-- Every change leaves the stem. -/
theorem stemChars_of_respelling {dialect : Dialect} {one other : List Char}
    (respelling : dialect.Respelling one other) : dialect.stemChars one = dialect.stemChars other := by
  have ofWritten : ∀ {dialect : Dialect} {one other : List Char}, dialect.written one = dialect.written other →
      dialect.stemChars one = dialect.stemChars other := by
    intro dialect one other same
    rw [stemChars, stemChars, same]
  cases respelling with
  | @odd front rest c odd =>
    apply ofWritten
    show (front ++ c :: rest).map clean = (front ++ '_' :: rest).map clean
    rw [List.map_append, List.map_append, List.map_cons, List.map_cons, clean, odd]
    rfl
  | @small front rest c last =>
    apply ofWritten
    show (snakeChars false _).map clean = (snakeChars false _).map clean
    have plain : ∀ d ∈ smallForm (endsSmall false front) c, isUppercase d = false := isUppercase_clean_snakeChars
    have fixed : (smallForm (endsSmall false front) c).map clean = smallForm (endsSmall false front) c :=
      map_clean_clean _
    rw [snakeChars_append, List.append_assoc, snakeChars_append, List.map_append, List.map_append,
      map_clean_snakeChars_cons _ c last (endsSmall _ (smallForm (endsSmall false front) c)), snakeChars_append,
      snakeChars_of_small plain, List.map_append, fixed]
  | blank blank =>
    have all : (one.all fun c => decide (c = '_')) = true := by simpa using blank
    have unchanged : ∀ dialect : Dialect, dialect.freed dialect.fallback = dialect.stemChars dialect.fallback := by
      intro dialect
      cases dialect <;> decide
    rw [stemChars, written_of_blank dialect blank, settled, if_pos all]
    exact unchanged dialect
  | @number _ c rest digit =>
    obtain ⟨first, longer⟩ := written_of_number dialect digit rest
    have notUnderscore : c ≠ '_' := by
      rintro rfl
      cases digit
    obtain ⟨others, shape⟩ := List.head?_eq_some_iff.1 first
    have under : isDigit '_' = false := rfl
    simp [stemChars, settled, longer, shape, notUnderscore, digit, under]
  | reserved taken =>
    have each : ∀ word ∈ RustModule.indexStem :: RustModule.reserved,
        stemChars rust word.toList = stemChars rust (word.toList ++ ['_']) := by
      decide
    exact each _ taken

/-! From a name to its stem -/

open Relation (EqvGen)

theorem respell_written (dialect : Dialect) (name : List Char) :
    EqvGen dialect.Respelling name (dialect.written name) := by
  cases dialect with
  | ethersV5 =>
    have along : ∀ front rest : List Char, EqvGen ethersV5.Respelling (front ++ rest) (front ++ rest.map clean) := by
      intro front rest
      induction rest generalizing front with
      | nil => exact .refl _
      | cons c rest ih =>
        have later := ih (front ++ [c])
        rw [List.append_assoc, List.append_assoc] at later
        refine .trans _ _ _ later ?_
        rw [List.map_cons]
        by_cases fine : isIdentifierChar c = true
        · rw [clean_of_isIdentifierChar fine]
          exact .refl _
        · rw [clean, if_neg fine]
          exact .rel _ _ (.odd (eq_false_of_ne_true fine))
    exact along [] name
  | rust =>
    -- from the right, so that no capital follows the character that is rewritten
    have along : ∀ front rest : List Char, EqvGen rust.Respelling (front ++ rest)
        (front ++ (snakeChars (endsSmall false front) rest).map clean) := by
      intro front rest
      induction rest generalizing front with
      | nil => exact .refl _
      | cons c rest ih =>
        have later := ih (front ++ [c])
        rw [List.append_assoc, List.append_assoc] at later
        refine .trans _ _ _ later ?_
        rw [show c :: rest = [c] ++ rest from rfl, snakeChars_append, List.map_append]
        have state : endsSmall false (front ++ [c]) = endsSmall (endsSmall false front) [c] := List.foldl_append
        rw [state]
        have step : ∀ small, rust.Respelling (front ++ c :: (snakeChars small rest).map clean)
            (front ++ smallForm (endsSmall false front) c ++ (snakeChars small rest).map clean) :=
          fun small => .small fun d first => isUppercase_clean_snakeChars d (List.mem_of_head? first)
        have here := step (endsSmall (endsSmall false front) [c])
        rw [List.append_assoc] at here
        exact .rel _ _ here
    exact along [] name

theorem respell_stemChars (dialect : Dialect) (name : List Char) :
    EqvGen dialect.Respelling name (dialect.stemChars name) := by
  have fallen : EqvGen dialect.Respelling name (settled dialect.fallback (dialect.written name)) := by
    refine .trans _ _ _ (respell_written dialect name) ?_
    unfold settled
    split
    · next blank =>
      exact .rel _ _ (.blank (by simpa using blank))
    · split
      · next digit =>
        cases shape : dialect.written name with
        | nil =>
          rw [shape] at digit
          cases digit
        | cons c rest =>
          rw [shape] at digit
          exact .rel _ _ (.number digit)
      · exact .refl _
  refine .trans _ _ _ fallen ?_
  unfold stemChars freed
  split
  · exact .refl _
  · split
    · next taken =>
      obtain ⟨word, isWord, same⟩ := List.mem_map.1 taken
      rw [← same]
      exact .rel _ _ (.reserved isWord)
    · exact .refl _

/-- Two names have one stem if and only if they are respellings of each other. -/
theorem stem_eq_iff {dialect : Dialect} {one other : String} :
    dialect.stem one = dialect.stem other ↔ EqvGen dialect.Respelling one.toList other.toList := by
  rw [← String.toList_inj, toList_stem, toList_stem]
  constructor
  · intro same
    have back := respell_stemChars dialect other.toList
    rw [← same] at back
    exact .trans _ _ _ (respell_stemChars dialect one.toList) (.symm _ _ back)
  · generalize one.toList = first, other.toList = second
    intro respelled
    induction respelled with
    | rel _ _ step => exact stemChars_of_respelling step
    | refl => rfl
    | symm _ _ _ ih => exact ih.symm
    | trans _ _ _ _ _ earlier later => exact earlier.trans later

end Dialect
end ContractBuild
