import ContractBuild.Proofs.Yaml.Extent

/-!
What the scalars in several lines hold. A block scalar holds no character more often than it is written, and a
quoted one holds no more quotes and escaping characters than there are characters that escape them.
-/
namespace ContractBuild.Yaml
open Text Cursor

/-! Places further on in a text -/

namespace Cursor

variable {c : Char} {rest : List Char} (cursor : Cursor)

theorem next_suffix : cursor.next.rest <:+ cursor.rest := by
  unfold next
  split
  · exact List.suffix_refl _
  · next here => rw [here]; exact List.suffix_cons _ _

theorem moved_suffix (count : Nat) : (moved cursor count).rest <:+ cursor.rest :=
  List.drop_suffix _ _

theorem span_suffix (p : Char → Bool) : (cursor.span p).2.rest <:+ cursor.rest :=
  List.drop_suffix _ _

/-- What is passed and what is left are the text. -/
theorem span_append (p : Char → Bool) : (cursor.span p).1 ++ (cursor.span p).2.rest = cursor.rest := by
  have cut : cursor.rest.takeWhile p ++ cursor.rest.dropWhile p = cursor.rest := List.takeWhile_append_dropWhile
  have left : (cursor.rest.takeWhile p ++ cursor.rest.dropWhile p).drop (cursor.rest.takeWhile p).length =
      cursor.rest.dropWhile p := List.drop_left
  rw [cut] at left
  exact (congrArg (cursor.rest.takeWhile p ++ ·) left).trans cut

theorem skipComment_suffix : cursor.skipComment.rest <:+ cursor.rest := by
  unfold skipComment
  split
  · exact cursor.span_suffix _
  · exact List.suffix_refl _

theorem nextLine_suffix : cursor.nextLine.2.rest <:+ cursor.rest := by
  unfold nextLine
  split
  · next rest here => rw [here]; exact List.suffix_append ['\r', '\n'] rest
  · next c rest _ here =>
    rw [here]
    split
    · exact List.suffix_cons _ _
    · split
      · exact List.suffix_cons _ _
      · exact ⟨[], here⟩
  · exact List.suffix_refl _

end Cursor

def IsBlank (text : List Char) : Prop :=
  ∀ c ∈ text, isGap c = true ∨ isBreak c = true

variable {text more : List Char} {cursor behind : Cursor} {fuel : Nat} {p : Char → Bool}

theorem IsBlank.nil : IsBlank [] := nofun

theorem isBlank_space : IsBlank [' '] := by simp [IsBlank, isGap]

theorem isBlank_newline : IsBlank ['\n'] := by simp [IsBlank, isBreak]

theorem IsBlank.append (first : IsBlank text) (next : IsBlank more) : IsBlank (text ++ more) :=
  fun c member => (List.mem_append.1 member).elim (first c) (next c)

theorem IsBlank.countP_eq_zero (blank : IsBlank text) (ink : ∀ c, p c = true → isGap c = false ∧ isBreak c = false) :
    text.countP p = 0 := by
  rw [List.countP_eq_zero]
  intro c member holds
  obtain ⟨noGap, noBreak⟩ := ink c holds
  rcases blank c member with gap | breaks
  · rw [noGap] at gap; cases gap
  · rw [noBreak] at breaks; cases breaks

theorem IsBlank.count_eq_zero {c : Char} (blank : IsBlank text) (ink : isGap c = false ∧ isBreak c = false) :
    text.count c = 0 :=
  blank.countP_eq_zero fun d same => by rwa [eq_of_beq same]

theorem isBlank_folded (first : IsBlank text) (following : IsBlank more) : IsBlank (folded text more) := by
  unfold folded
  split
  · split
    · exact isBlank_space
    · exact following
  · exact first.append following

theorem isBlank_nextLine (cursor : Cursor) : IsBlank cursor.nextLine.1 := by
  unfold nextLine
  split
  · exact isBlank_newline
  · next c rest _ here =>
    split
    · exact isBlank_newline
    · split
      · next separator =>
        intro d member
        rw [List.mem_singleton.1 member]
        exact .inr (by rcases (by simpa using separator : c = '\u2028' ∨ c = '\u2029') with rfl | rfl <;> rfl)
      · exact .nil
  · exact .nil

/-! Quoted scalars -/

structure Gap.OnlyBlank (gap : Gap) : Prop where
  blanks : IsBlank gap.blanks
  first : IsBlank gap.first
  following : IsBlank gap.following

theorem Gap.OnlyBlank.joined {gap : Gap} (blank : gap.OnlyBlank) : IsBlank gap.joined := by
  unfold Gap.joined
  split
  · exact isBlank_folded blank.first blank.following
  · exact blank.blanks

theorem scanGap_blank_suffix {margin : Option Int} {gap gapBehind : Gap}
    (ran : scanGap margin fuel gap cursor = .ok (gapBehind, behind)) (blank : gap.OnlyBlank) :
    gapBehind.OnlyBlank ∧ behind.rest <:+ cursor.rest := by
  induction fuel generalizing gap cursor with
  | zero => cases ran; exact ⟨blank, List.suffix_refl _⟩
  | succ fuel ih =>
    rcases scanGap_step ran with ⟨-, rfl, rfl⟩ | ⟨c, rest, here, isBlank, ran⟩ | ⟨c, rest, here, breaks, ran⟩
    · exact ⟨blank, List.suffix_refl _⟩
    · have blankNext : (gap.blank c).OnlyBlank := by
        unfold Gap.blank
        split
        · exact blank
        · exact ⟨blank.blanks.append (by simpa [IsBlank] using .inl isBlank), blank.first, blank.following⟩
      obtain ⟨blankBehind, suffix⟩ := ih ran blankNext
      exact ⟨blankBehind, suffix.trans cursor.next_suffix⟩
    · have blankNext : (gap.newLine cursor.nextLine.1).OnlyBlank := by
        unfold Gap.newLine
        split
        · exact ⟨blank.blanks, blank.first, blank.following.append (isBlank_nextLine cursor)⟩
        · exact ⟨.nil, isBlank_nextLine cursor, blank.following⟩
      obtain ⟨blankBehind, suffix⟩ := ih ran blankNext
      exact ⟨blankBehind, suffix.trans cursor.nextLine_suffix⟩

def quote (single : Bool) : Char :=
  if single then '\'' else '"'

def escaping (single : Bool) : Char :=
  if single then '\'' else '\\'

def isMark (single : Bool) (c : Char) : Bool :=
  c = quote single || c = escaping single

theorem ink_of_isMark {single : Bool} (c : Char) (mark : isMark single c = true) :
    isGap c = false ∧ isBreak c = false := by
  cases single with
  | true =>
    obtain rfl : c = '\'' := by simpa [isMark, quote, escaping] using mark
    decide
  | false =>
    obtain rfl | rfl : c = '"' ∨ c = '\\' := by simpa [isMark, quote, escaping] using mark
    · decide
    · decide

theorem countP_cons_le {single : Bool} {held : Char} {word : List Char} {count : Nat}
    (rest : word.countP (isMark single) ≤ count) : (held :: word).countP (isMark single) ≤ count + 1 := by
  rw [List.countP_cons]
  split <;> omega

theorem escape?_pos {length : Nat} {c : Char} (read : escape? text = some (c, length)) : 0 < length := by
  have coded : ∀ {count : Nat} {rest : List Char}, codedChar? count rest = some (c, length) → 0 < length := by
    intro count rest found
    unfold codedChar? at found
    obtain ⟨code, -, found⟩ := Option.bind_eq_some_iff.1 found
    split at found
    · cases found
    · cases found
      exact Nat.succ_pos _
  unfold escape? at read
  split at read
  all_goals first
    | exact coded read
    | cases read; exact Nat.succ_pos _
    | cases read

theorem scanQuotedWord_marks {single joined : Bool} {word : List Char}
    (ran : scanQuotedWord single fuel cursor = .ok (word, joined, behind)) :
    word.countP (isMark single) + behind.rest.count (escaping single) ≤ cursor.rest.count (escaping single) := by
  induction fuel generalizing word cursor with
  | zero => cases ran; simp
  | succ fuel ih =>
    rw [scanQuotedWord] at ran
    cases here : cursor.rest with
    | nil => rw [here] at ran; cases ran; simp [here]
    | cons c rest =>
      rw [here] at ran
      dsimp only at ran
      have fewer : ∀ {count : Nat}, 0 < count → (moved cursor count).rest <:+ rest := by
        intro count some
        obtain ⟨count, rfl⟩ := Nat.exists_eq_succ_of_ne_zero (Nat.ne_of_gt some)
        simpa [moved, here] using List.drop_suffix count rest
      have behindMark : cursor.next.rest = rest := by simp [next, here]
      have escaped : ∀ {held : Char} {further : List Char} {count : Nat}, c = escaping single → 0 < count →
          scanQuotedWord single fuel (moved cursor count) = .ok (further, joined, behind) →
          (held :: further).countP (isMark single) + behind.rest.count (escaping single) ≤
            (c :: rest).count (escaping single) := by
        intro held further count escapes some scanned
        have held : (held :: further).countP (isMark single) ≤ _ := countP_cons_le (Nat.le_refl _)
        have left := (fewer some).sublist.count_le (escaping single)
        rw [← escapes, List.count_cons_self, escapes]
        have := ih scanned
        omega
      split at ran
      · cases ran; simp [here]
      · split at ran
        · next twice =>
          obtain ⟨⟨further, joined, later⟩, scanned, done⟩ := scan_bind_ok.1 ran
          cases done
          simp only [Bool.and_eq_true, decide_eq_true_eq] at twice
          obtain ⟨⟨rfl, rfl⟩, -⟩ := twice
          exact escaped rfl (by decide) scanned
        · by_cases closes : c = if single then '\'' else '"'
          · rw [if_pos closes] at ran
            cases ran
            simp [here]
          · rw [if_neg closes] at ran
            split at ran
            · next escapes =>
              simp only [Bool.and_eq_true, Bool.not_eq_true', decide_eq_true_eq] at escapes
              obtain ⟨rfl, rfl⟩ := escapes
              split at ran
              · cases ran
                have line := cursor.next.nextLine_suffix
                rw [behindMark] at line
                rw [List.countP_nil, Nat.zero_add]
                exact (line.trans (List.suffix_cons _ _)).sublist.count_le _
              · split at ran
                · cases ran
                · next held length found =>
                  obtain ⟨⟨further, joined, later⟩, scanned, done⟩ := scan_bind_ok.1 ran
                  cases done
                  exact escaped rfl (escape?_pos found) scanned
            · next noEscape =>
              obtain ⟨⟨further, joined, later⟩, scanned, done⟩ := scan_bind_ok.1 ran
              cases done
              have noMark : isMark single c = false := by
                cases single with
                | true => simpa [isMark, quote, escaping] using closes
                | false => simpa [isMark, quote, escaping] using ⟨closes, by simpa using noEscape⟩
              have held := ih scanned
              rw [behindMark] at held
              rw [List.countP_cons_of_neg (by simp [noMark])]
              exact held.trans ((List.suffix_cons c rest).sublist.count_le _)

/-- What a quoted scalar holds of its quotes and escaping characters was escaped. -/
theorem scanQuoted_marks {single : Bool} {lead found : List Char}
    (ran : scanQuoted single fuel lead cursor = .ok (found, behind)) :
    found.countP (isMark single) ≤ lead.countP (isMark single) + cursor.rest.count (escaping single) := by
  induction fuel generalizing lead cursor with
  | zero => cases ran
  | succ fuel ih =>
    rw [scanQuoted] at ran
    split at ran
    · cases ran
    · dsimp only at ran
      by_cases ended : cursor.rest.isEmpty = true
      · rw [if_pos ended] at ran
        cases ran
      · rw [if_neg ended] at ran
        obtain ⟨⟨word, joined, middle⟩, scanned, ran⟩ := scan_bind_ok.1 ran
        have held := scanQuotedWord_marks scanned
        dsimp only at ran
        by_cases closes : (!joined && decide (middle.rest.head? = some (if single then '\'' else '"'))) = true
        · rw [if_pos closes] at ran
          cases ran
          rw [List.countP_append]
          omega
        · rw [if_neg closes] at ran
          obtain ⟨⟨gap, later⟩, gapped, ran⟩ := scan_bind_ok.1 ran
          obtain ⟨blank, suffix⟩ := scanGap_blank_suffix gapped ⟨.nil, .nil, .nil⟩
          have noMarks : gap.joined.countP (isMark single) = 0 := blank.joined.countP_eq_zero ink_of_isMark
          have left := suffix.sublist.count_le (escaping single)
          have := ih ran
          simp only [List.countP_append, noMarks] at this
          omega

/-! Block scalars -/

theorem scanHeader_suffix {chomping : Chomping} {increment : Option Nat}
    (ran : scanHeader cursor = .ok (chomping, increment, behind)) : behind.rest <:+ cursor.rest := by
  have closes : ∀ {mode : Chomping} {amount : Option Nat} {middle : Cursor},
      closeHeader mode amount middle = .ok (chomping, increment, behind) → behind.rest <:+ middle.rest := by
    intro mode amount middle ran
    unfold closeHeader at ran
    dsimp only at ran
    split at ran
    · cases ran
    · cases ran
      exact ((nextLine_suffix _).trans (skipComment_suffix _)).trans (span_suffix _ _)
  have behindNext := cursor.next_suffix
  have behindBoth := cursor.next.next_suffix.trans behindNext
  rw [scanHeader_eq] at ran
  split at ran
  · exact closes ran
  · split at ran
    · split at ran
      · obtain ⟨amount, -, ran⟩ := scan_bind_ok.1 ran
        exact (closes ran).trans behindBoth
      · exact (closes ran).trans behindNext
    · split at ran
      · obtain ⟨amount, -, ran⟩ := scan_bind_ok.1 ran
        exact (closes ran).trans behindBoth
      · obtain ⟨amount, -, ran⟩ := scan_bind_ok.1 ran
        exact (closes ran).trans behindNext
    · exact closes ran

theorem scanEmptyLines_blank_suffix {indent : Option Nat} {deepest deepestBehind : Nat} {breaks empty : List Char}
    (ran : scanEmptyLines indent fuel deepest breaks cursor = .ok (deepestBehind, empty, behind))
    (blank : IsBlank breaks) : IsBlank empty ∧ behind.rest <:+ cursor.rest := by
  induction fuel generalizing deepest breaks cursor with
  | zero => cases ran; exact ⟨blank, List.suffix_refl _⟩
  | succ fuel ih =>
    unfold scanEmptyLines at ran
    dsimp only at ran
    generalize blanks : List.takeWhile _ _ = taken at ran
    have suffix := cursor.moved_suffix taken.length
    split at ran
    · split at ran
      · cases ran
      · split at ran
        · obtain ⟨blankBehind, further⟩ := ih ran (blank.append (isBlank_nextLine _))
          exact ⟨blankBehind, (further.trans (nextLine_suffix _)).trans suffix⟩
        · cases ran
          exact ⟨blank, suffix⟩
    · cases ran
      exact ⟨blank, suffix⟩

structure BlockText.BlankBehind (block : BlockText) : Prop where
  lineBreak : IsBlank block.lineBreak
  empty : IsBlank block.empty

section
variable {literal : Bool} {c : Char}

theorem scanBlockLines_count (ink : isGap c = false ∧ isBreak c = false) {indent : Nat} {block found : BlockText}
    (blank : block.BlankBehind) (ran : scanBlockLines literal indent fuel block cursor = .ok (found, behind)) :
    found.BlankBehind ∧ found.text.count c ≤ block.text.count c + cursor.rest.count c := by
  induction fuel generalizing block cursor with
  | zero => cases ran; exact ⟨blank, Nat.le_add_right _ _⟩
  | succ fuel ih =>
    unfold scanBlockLines at ran
    split at ran
    · cases ran; exact ⟨blank, Nat.le_add_right _ _⟩
    · split at ran
      · cases ran; exact ⟨blank, Nat.le_add_right _ _⟩
      · have cut : cursor.toLineEnd.1.count c + cursor.toLineEnd.2.rest.count c = cursor.rest.count c := by
          rw [← List.count_append]
          exact congrArg _ (cursor.span_append _)
        have line := cursor.toLineEnd.2.nextLine_suffix
        have breaks := isBlank_nextLine cursor.toLineEnd.2
        dsimp only at ran
        generalize cursor.toLineEnd = taken at ran cut line breaks
        generalize taken.2.nextLine = onNext at ran line breaks
        obtain ⟨⟨deepest, empty, middle⟩, skipped, ran⟩ := scan_bind_ok.1 ran
        obtain ⟨blankEmpty, suffix⟩ := scanEmptyLines_blank_suffix skipped .nil
        have blankJoin : ∀ {joins : Bool}, IsBlank (if joins = true then if block.empty.isEmpty = true then [' '] else []
            else block.lineBreak) := by
          intro joins
          split
          · split
            · exact isBlank_space
            · exact .nil
          · exact blank.lineBreak
        obtain ⟨blankBehind, held⟩ := ih ⟨breaks, blankEmpty⟩ ran
        refine ⟨blankBehind, ?_⟩
        have left := (suffix.trans line).sublist.count_le c
        simp only [List.count_append, blankJoin.count_eq_zero ink, blank.empty.count_eq_zero ink] at held
        omega

/-- A block scalar holds no character more often than it is written, but for blanks and line breaks. -/
theorem scanBlock_count (ink : isGap c = false ∧ isBreak c = false) {parent : Int} {found : List Char}
    (ran : scanBlock literal parent cursor = .ok (found, behind)) : found.count c ≤ cursor.rest.count c := by
  unfold scanBlock at ran
  obtain ⟨⟨chomping, increment, below⟩, headed, ran⟩ := scan_bind_ok.1 ran
  obtain ⟨⟨deepest, empty, first⟩, skipped, ran⟩ := scan_bind_ok.1 ran
  obtain ⟨⟨block, last⟩, scanned, done⟩ := scan_bind_ok.1 ran
  obtain ⟨blankEmpty, suffix⟩ := scanEmptyLines_blank_suffix skipped .nil
  obtain ⟨blank, held⟩ := scanBlockLines_count ink ⟨.nil, blankEmpty⟩ scanned
  have left := (suffix.trans (scanHeader_suffix headed)).sublist.count_le c
  have noTail : ∀ {tail : List Char}, IsBlank tail → (block.text ++ tail).count c ≤ cursor.rest.count c := by
    intro tail blankTail
    rw [List.count_append, blankTail.count_eq_zero ink]
    simp only [List.count_nil, Nat.zero_add] at held
    omega
  cases done
  cases chomping with
  | strip => exact noTail .nil
  | clip => exact noTail blank.lineBreak
  | keep => exact noTail (blank.lineBreak.append blank.empty)

end

end ContractBuild.Yaml
