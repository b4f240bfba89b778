import Mathlib.Data.List.TakeWhile
import ContractBuild.Glob
import ContractBuild.Proofs.FileTree.Places

/-!
What a pattern matches. A pattern is read from left to right, and the matcher accepts a text of one line
if and only if the pattern can be read along it. The names in front of the first wildcard are matched by
nothing but themselves.
-/
namespace ContractBuild

namespace Text

theorem toList_join_cons (piece : String) (pieces : List String) :
    (join "/" (piece :: pieces)).toList =
      piece.toList ++ if pieces = [] then [] else '/' :: (join "/" pieces).toList := by
  cases pieces with
  | nil => simp [join]
  | cons next pieces => simp [join]

theorem toList_join_append {lead rest : List String} (leads : lead ≠ []) (goesOn : rest ≠ []) :
    (join "/" (lead ++ rest)).toList = (join "/" lead).toList ++ '/' :: (join "/" rest).toList := by
  induction lead with
  | nil => exact absurd rfl leads
  | cons piece lead ih =>
    rw [List.cons_append, toList_join_cons, toList_join_cons piece lead]
    by_cases last : lead = []
    · simp [last, goesOn]
    · simp [last, ih last]

theorem splitOn_toList_join {pieces : List String} (filled : pieces ≠ [])
    (whole : ∀ piece ∈ pieces, '/' ∉ piece.toList) :
    splitOn '/' (join "/" pieces).toList = pieces.map String.toList := by
  induction pieces with
  | nil => exact absurd rfl filled
  | cons piece pieces ih =>
    have first := whole piece List.mem_cons_self
    rw [toList_join_cons]
    by_cases last : pieces = []
    · simp [last, splitOn_of_not_mem first]
    · rw [if_neg last, splitOn_append, splitOn_of_not_mem first,
        ih last fun other member => whole other (List.mem_cons_of_mem _ member)]
      rfl

end Text

namespace Glob

/-- A pattern read along a text. -/
inductive Matches : (pattern text : List Char) → Prop
  | done : Matches [] []
  | noDirectory {pattern text} : Matches pattern text → Matches ('*' :: '*' :: '/' :: pattern) text
  | directories (lead : List Char) {pattern text} :
    Matches pattern text → Matches ('*' :: '*' :: '/' :: pattern) (lead ++ '/' :: text)
  | anything (lead : List Char) {pattern text} (noSlash : pattern.head? ≠ some '/') :
    Matches pattern text → Matches ('*' :: '*' :: pattern) (lead ++ text)
  | name {lead : List Char} {pattern text} (whole : '/' ∉ lead) (single : pattern.head? ≠ some '*') :
    Matches pattern text → Matches ('*' :: pattern) (lead ++ text)
  | character {c : Char} {pattern text} (inName : c ≠ '/') :
    Matches pattern text → Matches ('?' :: pattern) (c :: text)
  | literal {c : Char} {pattern text} (noStar : c ≠ '*') (noMark : c ≠ '?') :
    Matches pattern text → Matches (c :: pattern) (c :: text)

variable {pattern text : List Char}

theorem matches_nil : Matches [] text ↔ text = [] := by
  constructor
  · rintro ⟨⟩
    rfl
  · rintro rfl
    exact .done

theorem matches_directories : Matches ('*' :: '*' :: '/' :: pattern) text ↔
    Matches pattern text ∨ ∃ lead rest, text = lead ++ '/' :: rest ∧ Matches pattern rest := by
  constructor
  · intro reading
    cases reading with
    | noDirectory behind => exact .inl behind
    | directories lead behind => exact .inr ⟨lead, _, rfl, behind⟩
    | anything _ noSlash => exact absurd rfl noSlash
    | name _ single => exact absurd rfl single
    | literal noStar => exact absurd rfl noStar
  · rintro (behind | ⟨lead, rest, rfl, behind⟩)
    · exact .noDirectory behind
    · exact .directories lead behind

theorem matches_anything (noSlash : pattern.head? ≠ some '/') :
    Matches ('*' :: '*' :: pattern) text ↔ ∃ lead rest, text = lead ++ rest ∧ Matches pattern rest := by
  constructor
  · intro reading
    cases reading with
    | noDirectory => exact absurd rfl noSlash
    | directories => exact absurd rfl noSlash
    | anything lead _ behind => exact ⟨lead, _, rfl, behind⟩
    | name _ single => exact absurd rfl single
    | literal noStar => exact absurd rfl noStar
  · rintro ⟨lead, rest, rfl, behind⟩
    exact .anything lead noSlash behind

theorem matches_name (single : pattern.head? ≠ some '*') : Matches ('*' :: pattern) text ↔
    ∃ lead rest, text = lead ++ rest ∧ '/' ∉ lead ∧ Matches pattern rest := by
  constructor
  · intro reading
    cases reading with
    | noDirectory => exact absurd rfl single
    | directories => exact absurd rfl single
    | anything => exact absurd rfl single
    | name whole _ behind => exact ⟨_, _, rfl, whole, behind⟩
    | literal noStar => exact absurd rfl noStar
  · rintro ⟨lead, rest, rfl, whole, behind⟩
    exact .name whole single behind

theorem matches_character : Matches ('?' :: pattern) text ↔
    ∃ c rest, text = c :: rest ∧ c ≠ '/' ∧ Matches pattern rest := by
  constructor
  · intro reading
    cases reading with
    | character inName behind => exact ⟨_, _, rfl, inName, behind⟩
    | literal _ noMark => exact absurd rfl noMark
  · rintro ⟨c, rest, rfl, inName, behind⟩
    exact .character inName behind

theorem matches_literal {c : Char} (noStar : c ≠ '*') (noMark : c ≠ '?') :
    Matches (c :: pattern) text ↔ ∃ rest, text = c :: rest ∧ Matches pattern rest := by
  constructor
  · intro reading
    cases reading with
    | noDirectory => exact absurd rfl noStar
    | directories => exact absurd rfl noStar
    | anything => exact absurd rfl noStar
    | name => exact absurd rfl noStar
    | character => exact absurd rfl noMark
    | literal _ _ behind => exact ⟨_, rfl, behind⟩
  · rintro ⟨rest, rfl, behind⟩
    exact .literal noStar noMark behind

/-! The matcher -/

theorem mem_rests {p : Char → Bool} {text rest : List Char} :
    rest ∈ rests p text ↔ ∃ lead, text = lead ++ rest ∧ ∀ c ∈ lead, p c = true := by
  induction text with
  | nil => simp [rests]
  | cons c text ih =>
    rw [rests, List.mem_cons]
    constructor
    · rintro (rfl | later)
      · exact ⟨[], rfl, nofun⟩
      · split at later
        · next holds =>
          obtain ⟨lead, rfl, all⟩ := ih.1 later
          exact ⟨c :: lead, rfl, List.forall_mem_cons.2 ⟨holds, all⟩⟩
        · cases later
    · rintro ⟨lead, split, all⟩
      cases lead with
      | nil => exact .inl split.symm
      | cons d lead =>
        obtain ⟨rfl, rfl⟩ := List.cons.inj split
        obtain ⟨holds, all⟩ := List.forall_mem_cons.1 all
        rw [if_pos holds]
        exact .inr (ih.2 ⟨lead, rfl, all⟩)

theorem mem_restsAfterSlash {text rest : List Char} :
    rest ∈ restsAfterSlash text ↔ ∃ lead, text = lead ++ '/' :: rest ∧ ∀ c ∈ lead, inLine c = true := by
  rw [restsAfterSlash, List.mem_filterMap]
  constructor
  · rintro ⟨found, member, kept⟩
    obtain ⟨lead, rfl, all⟩ := mem_rests.1 member
    split at kept
    · next others => exact ⟨lead, by rw [Option.some.inj kept], all⟩
    · cases kept
  · rintro ⟨lead, rfl, all⟩
    exact ⟨'/' :: rest, mem_rests.2 ⟨lead, rfl, all⟩, rfl⟩

theorem any_rests {p : Char → Bool} {text : List Char} {accept : List Char → Bool} :
    (rests p text).any accept = true ↔
      ∃ lead rest, text = lead ++ rest ∧ (∀ c ∈ lead, p c = true) ∧ accept rest = true := by
  rw [List.any_eq_true]
  constructor
  · rintro ⟨rest, member, accepted⟩
    obtain ⟨lead, split, all⟩ := mem_rests.1 member
    exact ⟨lead, rest, split, all, accepted⟩
  · rintro ⟨lead, rest, split, all, accepted⟩
    exact ⟨rest, mem_rests.2 ⟨lead, split, all⟩, accepted⟩

/-- The matcher accepts just the texts of one line that the pattern can be read along. -/
theorem accepts_iff_matches (line : '\n' ∉ text) : accepts (pieces pattern) text = true ↔ Matches pattern text := by
  -- every part of a text is on its line, so a piece for any text may cover it
  have covers : ∀ {text lead rest : List Char}, '\n' ∉ text → text = lead ++ rest →
      (∀ c ∈ lead, inLine c = true) ∧ '\n' ∉ rest := by
    rintro text lead rest line rfl
    obtain ⟨inLead, inRest⟩ := not_or.1 fun member => line (List.mem_append.2 member)
    refine ⟨fun c member => ?_, inRest⟩
    have differs : c ≠ '\n' := fun same => inLead (same ▸ member)
    simpa [inLine] using differs
  fun_induction pieces pattern generalizing text with
  | case1 pattern ih =>
    rw [accepts, Bool.or_eq_true, List.any_eq_true, matches_directories]
    refine or_congr (ih line) ⟨?_, ?_⟩
    · rintro ⟨rest, member, accepted⟩
      obtain ⟨lead, rfl, -⟩ := mem_restsAfterSlash.1 member
      exact ⟨lead, rest, rfl, (ih (List.not_mem_of_not_mem_cons (covers line rfl).2)).1 accepted⟩
    · rintro ⟨lead, rest, rfl, behind⟩
      obtain ⟨all, inRest⟩ := covers line rfl
      exact ⟨rest, mem_restsAfterSlash.2 ⟨lead, rfl, all⟩, (ih (List.not_mem_of_not_mem_cons inRest)).2 behind⟩
  | case2 pattern noSlash ih =>
    have apart : pattern.head? ≠ some '/' := by
      intro slash
      obtain ⟨rest, rfl⟩ := List.head?_eq_some_iff.1 slash
      exact noSlash rest rfl
    rw [accepts, any_rests, matches_anything apart]
    refine exists₂_congr fun lead rest => and_congr_right fun split => ?_
    exact (and_iff_right (covers line split).1).trans (ih (covers line split).2)
  | case3 pattern _ noStar ih =>
    have single : pattern.head? ≠ some '*' := by
      intro star
      obtain ⟨rest, rfl⟩ := List.head?_eq_some_iff.1 star
      exact noStar rest rfl
    have whole : ∀ lead : List Char, (∀ c ∈ lead, inName c = true) ↔ '/' ∉ lead := by
      intro lead
      simp [inName, List.forall_mem_ne']
    rw [accepts, any_rests, matches_name single]
    refine exists₂_congr fun lead rest => and_congr_right fun split => ?_
    exact and_congr (whole lead) (ih (covers line split).2)
  | case4 pattern ih =>
    rw [matches_character]
    cases text with
    | nil => simp [accepts]
    | cons c text => simp [accepts, inName, ih (List.not_mem_of_not_mem_cons line)]
  | case5 c pattern noDirectories noAnything noName noMark ih =>
    rw [matches_literal noName noMark]
    cases text with
    | nil => simp [accepts]
    | cons d text => simp [accepts, ih (List.not_mem_of_not_mem_cons line), @eq_comm _ c d]
  | case6 => simp [accepts, matches_nil]

/-! The lead -/

theorem matches_append {lead : List Char} (plainly : ∀ c ∈ lead, c ≠ '*' ∧ c ≠ '?') :
    Matches (lead ++ pattern) text ↔ ∃ rest, text = lead ++ rest ∧ Matches pattern rest := by
  induction lead generalizing text with
  | nil => simp
  | cons c lead ih =>
    obtain ⟨⟨noStar, noMark⟩, others⟩ := List.forall_mem_cons.1 plainly
    rw [List.cons_append, matches_literal noStar noMark]
    constructor
    · rintro ⟨_, rfl, reading⟩
      obtain ⟨rest, rfl, behind⟩ := (ih others).1 reading
      exact ⟨rest, rfl, behind⟩
    · rintro ⟨rest, rfl, behind⟩
      exact ⟨lead ++ rest, rfl, (ih others).2 ⟨rest, rfl, behind⟩⟩

def leadNames (names : List String) : List String :=
  names.takeWhile fun name => isLiteral (.normal name)

theorem literalLead_eq {glob : Glob} {names : List String} (normal : glob.pattern.components = names.map .normal) :
    glob.literalLead = Path.ofComponents ((leadNames names).map .normal) := by
  rw [literalLead, normal, List.takeWhile_map]
  rfl

theorem plainly_join {names : List String} (literal : ∀ name ∈ names, isLiteral (.normal name) = true) :
    ∀ c ∈ (Text.join "/" names).toList, c ≠ '*' ∧ c ≠ '?' := by
  induction names with
  | nil => simp [Text.join]
  | cons name names ih =>
    obtain ⟨first, others⟩ := List.forall_mem_cons.1 literal
    intro c member
    rw [Text.toList_join_cons, List.mem_append] at member
    rcases member with inFirst | later
    · have noWildcard := first
      simp only [isLiteral, Bool.not_eq_true', List.any_eq_false] at noWildcard
      have := noWildcard c inFirst
      simp only [Bool.or_eq_true, decide_eq_true_eq, not_or] at this
      exact this.1
    · split at later
      · cases later
      · rcases List.mem_cons.1 later with rfl | inOthers
        · decide
        · exact ih others c inOthers

/-- The names in front of the first wildcard are the first names of whatever the pattern matches. -/
theorem leadNames_prefix {names route : List String} (wholeNames : ∀ name ∈ names, '/' ∉ name.toList)
    (filled : route ≠ []) (wholeRoute : ∀ name ∈ route, '/' ∉ name.toList)
    (reading : Matches (Text.join "/" names).toList (Text.join "/" route).toList) :
    leadNames names <+: route := by
  generalize lead : leadNames names = leads
  obtain ⟨wild, split⟩ : leads <+: names := lead ▸ List.takeWhile_prefix _
  have literal : ∀ name ∈ leads, isLiteral (.normal name) = true := by
    rw [← lead]
    exact fun name member => List.mem_takeWhile_imp (p := fun name => isLiteral (.normal name)) member
  by_cases bare : leads = []
  · exact bare ▸ List.nil_prefix
  have wholeLead : ∀ name ∈ leads, '/' ∉ name.toList :=
    fun name member => wholeNames name (split ▸ List.mem_append_left wild member)
  -- the text is that of the lead, alone or in front of a separator
  have pieces : leads.map String.toList <+: route.map String.toList := by
    rw [← Text.splitOn_toList_join filled wholeRoute, ← Text.splitOn_toList_join bare wholeLead]
    by_cases last : wild = []
    · rw [← split, last, List.append_nil, ← List.append_nil (Text.join "/" leads).toList,
        matches_append (plainly_join literal)] at reading
      obtain ⟨rest, text, ended⟩ := reading
      have whole : (Text.join "/" route).toList = (Text.join "/" leads).toList := by
        rw [text, matches_nil.1 ended, List.append_nil]
      exact whole ▸ List.prefix_rfl
    · rw [← split, Text.toList_join_append bare last, matches_append (plainly_join literal)] at reading
      obtain ⟨rest, text, behind⟩ := reading
      obtain ⟨more, rfl, -⟩ := (matches_literal (by decide) (by decide)).1 behind
      rw [text, Text.splitOn_append]
      exact List.prefix_append _ _
  exact (List.prefix_map_iff_of_injective fun _ _ => String.toList_injective).1 pieces

end Glob
end ContractBuild
