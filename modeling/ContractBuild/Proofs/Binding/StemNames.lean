import Mathlib.Data.List.Nodup
import Mathlib.Data.List.Perm.Subperm
import ContractBuild.Proofs.Binding.Respelling

/-!
Stems of item names. A fresh name is the wish or the wish with a number, and differs from all that were
given before it. What is left of a name after it was written in words begins with a capital or an
underscore, so no keyword comes of it whatever is put behind.
-/
namespace ContractBuild
open Text

namespace Name
open Numeral (isDigit)

/-! Fresh names -/

theorem render_inj {m n : Nat} : Numeral.render m = Numeral.render n ↔ m = n := by
  refine ⟨fun same => ?_, congrArg _⟩
  have digits : Numeral.digits m = Numeral.digits n := String.ofList_injective same
  have read := congrArg Numeral.readDigits? digits
  rw [Numeral.readDigits?_digits, Numeral.readDigits?_digits] at read
  exact Option.some.inj read

def numbered (seen : List String) (name : String) : List String :=
  (List.range (seen.length + 1)).map fun n => name ++ Numeral.render (n + 2)

theorem nodup_numbered (seen : List String) (name : String) : (numbered seen name).Nodup := by
  refine List.Nodup.map (fun m n same => ?_) List.nodup_range
  have numbers := render_inj.1 ((String.append_right_inj name).1 same)
  omega

/-- One of the numbers is free. -/
theorem exists_free (seen : List String) (name : String) :
    ∃ chosen, (numbered seen name).find? (· ∉ seen) = some chosen := by
  rw [← Option.isSome_iff_exists, List.find?_isSome]
  by_contra taken
  have inside : numbered seen name ⊆ seen := by
    intro other member
    by_contra free
    exact taken ⟨other, member, by simpa using free⟩
  have short := ((nodup_numbered seen name).subperm inside).length_le
  rw [numbered, List.length_map, List.length_range] at short
  omega

theorem fresh_spec (seen : List String) (name : String) :
    fresh seen name ∉ seen ∧ (fresh seen name = name ∨ ∃ n, fresh seen name = name ++ Numeral.render n) := by
  unfold fresh
  split
  · obtain ⟨chosen, found⟩ := exists_free seen name
    have free : chosen ∉ seen := by simpa using List.find?_some found
    obtain ⟨n, -, rfl⟩ := List.mem_map.1 (List.mem_of_find?_eq_some found)
    rw [show ((List.range (seen.length + 1)).map fun n => name ++ Numeral.render (n + 2)).find? (· ∉ seen) = _
      from found, Option.getD_some]
    exact ⟨free, .inr ⟨n + 2, rfl⟩⟩
  · next free => exact ⟨free, .inl rfl⟩

/-- Fresh names differ from each other and from all that were seen. -/
theorem nodup_freshAll (seen names : List String) :
    (freshAll seen names).Nodup ∧ ∀ chosen ∈ freshAll seen names, chosen ∉ seen := by
  induction names generalizing seen with
  | nil => exact ⟨List.nodup_nil, nofun⟩
  | cons name names ih =>
    obtain ⟨nodup, apart⟩ := ih (fresh seen name :: seen)
    refine ⟨List.nodup_cons.2 ⟨fun again => apart _ again List.mem_cons_self, nodup⟩, ?_⟩
    rintro chosen (_ | ⟨_, later⟩)
    · exact (fresh_spec seen name).1
    · exact fun isSeen => apart chosen later (List.mem_cons_of_mem _ isSeen)

theorem length_freshAll (seen names : List String) : (freshAll seen names).length = names.length := by
  induction names generalizing seen with
  | nil => rfl
  | cons name names ih => rw [freshAll, List.length_cons, List.length_cons, ih]

/-- What holds of every wish and stays with a number behind it holds of every fresh name. -/
theorem forall_freshAll {P : String → Prop} (numbers : ∀ name n, P name → P (name ++ Numeral.render n))
    {seen names : List String} (wishes : ∀ name ∈ names, P name) : ∀ chosen ∈ freshAll seen names, P chosen := by
  induction names generalizing seen with
  | nil => nofun
  | cons name names ih =>
    obtain ⟨first, others⟩ := List.forall_mem_cons.1 wishes
    refine List.forall_mem_cons.2 ⟨?_, ih others⟩
    rcases (fresh_spec seen name).2 with same | ⟨n, same⟩ <;> rw [same]
    · exact first
    · exact numbers name n first

/-! Words -/

theorem isLower_iff {c : Char} : c.isLower = true ↔ 97 ≤ c.toNat ∧ c.toNat ≤ 122 := by
  show (decide ('a'.val ≤ c.val) && decide (c.val ≤ 'z'.val)) = true ↔ _
  simp [UInt32.le_iff_toNat_le, ← Char.toNat_val]

theorem isLower_beyond {c : Char} (beyond : 128 ≤ c.toNat) : c.isLower = false := by
  rw [Bool.eq_false_iff, ne_eq, isLower_iff]
  omega

theorem isLower_shifted {n : Nat} {c : Char} (found : shifted? capitalRuns n = some c) : c.isLower = false := by
  have apart : (capitalRuns.toList.all fun entry =>
      (entry.1.2.1 : Int) + entry.2 < 97 || 122 < (entry.1.1 : Int) + entry.2) = true := by decide +kernel
  obtain ⟨⟨run, distance⟩, isRun, rfl⟩ := Option.map_eq_some_iff.1 found
  have outside := holds_of_find? apart isRun
  have inside := Array.find?_some isRun
  simp only [inRun, Bool.and_eq_true, Bool.or_eq_true, decide_eq_true_eq] at outside inside
  rw [Bool.eq_false_iff, ne_eq, isLower_iff]
  by_cases valid : ((n : Int) + distance).toNat.isValidChar
  · rw [Char.ofNat, dif_pos valid]
    show ¬ (97 ≤ ((n : Int) + distance).toNat ∧ ((n : Int) + distance).toNat ≤ 122)
    omega
  · rw [Char.ofNat, dif_neg valid]
    decide

/-- No capital is a small letter of ASCII. -/
theorem isLower_uppercased {c d : Char} (member : d ∈ uppercased c) : d.isLower = false := by
  unfold uppercased at member
  split at member
  · next ascii =>
    rw [List.mem_singleton.1 member]
    exact forall_ascii (P := fun c => c.toUpper.isLower = false) (by decide) ascii
  · next beyond =>
    split at member
    · next entry found =>
      have listed : (longCapitals.toList.all fun entry => entry.2.all fun n => !(Char.ofNat n).isLower) = true := by
        decide +kernel
      have here := holds_of_find? listed found
      obtain ⟨n, isPart, rfl⟩ := List.mem_map.1 member
      simpa using List.all_eq_true.1 here n isPart
    · rw [List.mem_singleton.1 member]
      cases found : shifted? capitalRuns c.toNat with
      | none => exact isLower_beyond (Nat.le_of_not_lt beyond)
      | some other => exact isLower_shifted found

theorem uppercased_ne_nil (c : Char) : uppercased c ≠ [] := by
  unfold uppercased
  split
  · exact List.cons_ne_nil _ _
  · split
    · next entry found =>
      have listed : (longCapitals.toList.all fun entry => !entry.2.isEmpty) = true := by decide +kernel
      have here := holds_of_find? listed found
      simpa using here
    · exact List.cons_ne_nil _ _

/-- Written in words, a name begins with a capital, if with a letter of ASCII. -/
theorem isLower_head_pascalCase (name : String) : ∀ c ∈ (pascalCase name).toList.head?, c.isLower = false := by
  rw [pascalCase, String.toList_ofList]
  generalize splitOn '_' name.toList = words
  induction words with
  | nil => nofun
  | cons word words ih =>
    cases word with
    | nil => exact ih
    | cons first rest =>
      obtain ⟨capital, more, split⟩ := List.exists_cons_of_ne_nil (uppercased_ne_nil first)
      have isCapital : capital.isLower = false := isLower_uppercased (split ▸ List.mem_cons_self)
      rintro c begins
      rw [List.flatMap_cons, capitalized, split] at begins
      obtain rfl : capital = c := Option.some.inj begins
      exact isCapital

end Name

namespace RustModule
open Name
open Numeral (isDigit)

/-! Legal names -/

structure IsLegal (name : String) : Prop where
  nonempty : name ≠ ""
  chars : ∀ c ∈ name.toList, isIdentifierChar c = true
  begins : ∀ c ∈ name.toList.head?, isDigit c = false
  noKeyword : name ∉ keywords
  notReserved : name ∉ reserved

structure IsStem (name : String) : Prop where
  chars : ∀ c ∈ name.toList, isIdentifierChar c = true
  begins : ∃ c rest, name.toList = c :: rest ∧ isDigit c = false ∧ c.isLower = false
  visible : ∃ c ∈ name.toList, c ≠ '_'

theorem IsStem.append {name suffix : String} (stem : IsStem name)
    (chars : ∀ c ∈ suffix.toList, isIdentifierChar c = true) : IsStem (name ++ suffix) := by
  obtain ⟨c, rest, text, begins⟩ := stem.begins
  obtain ⟨d, member, shows⟩ := stem.visible
  refine ⟨?_, ⟨c, rest ++ suffix.toList, ?_, begins⟩, ⟨d, ?_, shows⟩⟩ <;> rw [String.toList_append]
  · exact List.forall_mem_append.2 ⟨stem.chars, chars⟩
  · rw [text]
    rfl
  · exact List.mem_append_left _ member

/-- Words of the language begin with small letters, but for one and the underscore. -/
theorem IsStem.isLegal {name : String} (stem : IsStem name) (notSelf : name ≠ "Self") : IsLegal name := by
  obtain ⟨c, rest, text, noDigit, notSmall⟩ := stem.begins
  have small : (keywords.all fun word => word.toList.head?.all Char.isLower) = true := by decide
  have others : (reserved.all fun word => word == "Self" || word == "_" || word.toList.head?.all Char.isLower) = true := by
    decide
  have head : name.toList.head? = some c := by
    rw [text]
    rfl
  refine ⟨?_, stem.chars, ?_, fun isKeyword => ?_, fun isReserved => ?_⟩
  · rintro rfl
    cases text
  · intro d first
    rw [text] at first
    obtain rfl : c = d := Option.some.inj first
    exact noDigit
  · have isSmall := List.all_eq_true.1 small name isKeyword
    rw [head] at isSmall
    exact Bool.false_ne_true (notSmall.symm.trans isSmall)
  · have either := List.all_eq_true.1 others name isReserved
    rw [Bool.or_eq_true, Bool.or_eq_true, beq_iff_eq, beq_iff_eq, head, or_assoc] at either
    rcases either with same | same | isSmall
    · exact notSelf same
    · obtain ⟨d, member, shows⟩ := stem.visible
      rw [same] at member
      exact shows (List.mem_singleton.1 member)
    · exact Bool.false_ne_true (notSmall.symm.trans isSmall)

theorem append_ne_self {suffix : String} (filled : suffix.toList ≠ []) (ends : suffix.toList.getLast? ≠ some 'f')
    (name : String) : name ++ suffix ≠ "Self" := by
  intro same
  have lasts := congrArg (fun text : String => text.toList.getLast?) same
  simp only [String.toList_append, List.getLast?_append_of_ne_nil _ filled] at lasts
  exact ends lasts

/-- A stem with anything behind it that does not end like the one word. -/
theorem IsStem.isLegal_append {name suffix : String} (stem : IsStem name)
    (chars : ∀ c ∈ suffix.toList, isIdentifierChar c = true) (filled : suffix.toList ≠ [])
    (ends : suffix.toList.getLast? ≠ some 'f') : IsLegal (name ++ suffix) :=
  (stem.append chars).isLegal (append_ne_self filled ends name)

theorem isStem_identifier {name : String} (capital : ∀ c ∈ name.toList.head?, c.isLower = false) :
    IsStem (identifier "Unnamed" name) := by
  have fallback : ∀ c ∈ "Unnamed".toList, isIdentifierChar c = true := List.all_eq_true.1 (by decide)
  have chars : ∀ c ∈ (identifier "Unnamed" name).toList, isIdentifierChar c = true := by
    rw [identifier_eq]
    exact settled_chars fallback map_clean_chars
  suffices (∃ c rest, (identifier "Unnamed" name).toList = c :: rest ∧ isDigit c = false ∧ c.isLower = false) ∧
      ∃ c ∈ (identifier "Unnamed" name).toList, c ≠ '_' from ⟨chars, this.1, this.2⟩
  rw [identifier_eq, settled]
  split
  · exact ⟨⟨'U', "nnamed".toList, rfl, rfl, rfl⟩, 'U', List.mem_cons_self, by decide⟩
  · next shown =>
    obtain ⟨d, member, shows⟩ : ∃ d ∈ name.toList.map clean, d ≠ '_' := by simpa using shown
    split
    · exact ⟨⟨'_', _, rfl, rfl, rfl⟩, d, List.mem_cons_of_mem _ member, shows⟩
    · next noDigit =>
      refine ⟨?_, d, member, shows⟩
      cases text : name.toList with
      | nil =>
        rw [text] at member
        cases member
      | cons c rest =>
        rw [text] at noDigit capital
        refine ⟨clean c, rest.map clean, rfl, by simpa using noDigit, ?_⟩
        unfold clean
        split
        · exact capital c rfl
        · rfl

def IsFree (name : String) : Prop :=
  IsStem name ∧ name ≠ "Self"

/-- The stem of a name that does not begin with a small letter. -/
theorem isStem_typeStem {name : String} (capital : ∀ c ∈ name.toList.head?, c.isLower = false) :
    IsFree (typeStem name) := by
  unfold typeStem
  dsimp only
  split
  · exact ⟨⟨List.all_eq_true.1 (by decide), ⟨'S', _, rfl, rfl, rfl⟩, 'S', List.mem_cons_self, by decide⟩, by decide⟩
  · next differs => exact ⟨isStem_identifier capital, differs⟩

/-! Numbers behind names -/

theorem chars_render {n : Nat} {c : Char} (member : c ∈ (Numeral.render n).toList) :
    isDigit c = true ∧ c.isLower = false ∧ isIdentifierChar c = true := by
  rw [Numeral.render, String.toList_ofList] at member
  have digit := List.all_eq_true.1 (Numeral.all_isDigit_digits n) c member
  have bounds := digit
  rw [isDigit, Bool.and_eq_true, decide_eq_true_eq, decide_eq_true_eq] at bounds
  exact ⟨digit, forall_ascii (P := fun c => isDigit c = true → c.isLower = false ∧ isIdentifierChar c = true)
    (by decide) (by omega) digit⟩

theorem capital_append_render {name : String} (capital : ∀ c ∈ name.toList.head?, c.isLower = false) (n : Nat) :
    ∀ c ∈ (name ++ Numeral.render n).toList.head?, c.isLower = false := by
  intro c first
  rw [String.toList_append] at first
  cases text : name.toList with
  | nil =>
    rw [text] at first
    exact (chars_render (List.mem_of_head? first)).2.1
  | cons d rest =>
    rw [text] at first capital
    exact capital c first

theorem IsFree.append_render {name : String} (free : IsFree name) (n : Nat) : IsFree (name ++ Numeral.render n) := by
  have filled : (Numeral.render n).toList ≠ [] := by
    rw [Numeral.render, String.toList_ofList]
    exact Numeral.digits_ne_nil n
  refine ⟨free.1.append fun c member => (chars_render member).2.2, append_ne_self filled (fun last => ?_) name⟩
  exact absurd (chars_render (List.mem_of_getLast? last)).1 (by decide)

theorem isFree_callWish (entry : FunctionEntry) : IsFree (callWish entry) := by
  have capital := isLower_head_pascalCase entry.name
  unfold callWish
  dsimp only
  split
  · exact isStem_typeStem (capital_append_render capital _)
  · exact isStem_typeStem capital

/-- The stems of calls and those of events differ among themselves and are free. -/
theorem stems_spec {wishes : List String} (free : ∀ wish ∈ wishes, IsFree wish) :
    (freshAll [] wishes).Nodup ∧ ∀ stem ∈ freshAll [] wishes, IsFree stem :=
  ⟨(nodup_freshAll [] wishes).1, forall_freshAll (fun _ n free => free.append_render n) free⟩

end RustModule
end ContractBuild
