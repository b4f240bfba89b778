import Mathlib.Data.List.TakeWhile
import ContractBuild.Proofs.Yaml.Position

/-!
Texts that stand for themselves. A plain scalar ends at a comment, at the colon of a key and at its last word,
and some characters begin something else: a text without all that is read as it is written.
-/
namespace ContractBuild.Yaml
open Text Cursor

def plainBody : (afterGap : Bool) → List Char → Bool
  | afterGap, [] => !afterGap
  | afterGap, c :: rest =>
    !isBreak c && !(afterGap && c = '#') && !(c = ':' && endsWord rest) && plainBody (isGap c) rest

def plainHead (text : List Char) : Bool :=
  Scanner.startsPlain false text && !(text.head? = some '-' && endsWord text.tail)

def isVerbatim (text : List Char) : Bool :=
  text.all isStreamChar && plainHead text && plainBody false text

variable {text rest more : List Char} {afterGap : Bool} {gap : Gap} {cursor : Cursor} {limit : Int}

/-! Words and blanks of a plain scalar -/

theorem isBreak_newline : isBreak '\n' = true := by decide

theorem isGap_newline : isGap '\n' = false := by decide

theorem endsWord_append : endsWord (text ++ '\n' :: more) = endsWord text := by
  cases text <;> rfl

theorem plainBody_cons {c : Char} : plainBody afterGap (c :: rest) = true ↔
    isBreak c = false ∧ (afterGap = true → c ≠ '#') ∧ (c = ':' → endsWord rest = false) ∧
      plainBody (isGap c) rest = true := by
  cases afterGap <;> by_cases key : c = ':' <;> simp [plainBody, and_assoc, key]

theorem plainBody_dropWhile {p : Char → Bool} (goesOn : plainBody afterGap text = true)
    (stays : ∀ c, p c = true → isGap c = afterGap) : plainBody afterGap (text.dropWhile p) = true := by
  induction text with
  | nil => exact goesOn
  | cons c rest ih =>
    rw [List.dropWhile_cons]
    split
    · next taken => exact ih (stays c taken ▸ (plainBody_cons.1 goesOn).2.2.2)
    · exact goesOn

theorem plainBody_behind_word (goesOn : plainBody afterGap text = true) (starts : endsWord text = false) :
    plainBody false (text.dropWhile (!isGap ·)) = true := by
  cases text with
  | nil => cases starts
  | cons c rest =>
    have noGap : isGap c = false := (Bool.or_eq_false_iff.1 starts).1
    rw [List.dropWhile_cons_of_pos (by simp [noGap])]
    exact plainBody_dropWhile (noGap ▸ (plainBody_cons.1 goesOn).2.2.2) fun d word => by simpa using word

theorem plainBody_behind_blanks {c : Char} (goesOn : plainBody afterGap (c :: rest) = true) (blank : isGap c = true) :
    plainBody true ((c :: rest).dropWhile isGap) = true := by
  rw [List.dropWhile_cons_of_pos blank]
  exact plainBody_dropWhile (blank ▸ (plainBody_cons.1 goesOn).2.2.2) fun d word => word

theorem starts_of_plainBody (goesOn : plainBody true text = true) (noGap : ∀ c ∈ text.head?, isGap c = false) :
    endsWord text = false ∧ text.head? ≠ some '#' := by
  cases text with
  | nil => cases goesOn
  | cons c rest =>
    obtain ⟨noBreak, noComment, -, -⟩ := plainBody_cons.1 goesOn
    exact ⟨by simp [endsWord, noGap c rfl, noBreak], fun same => noComment rfl (Option.some.inj same)⟩

theorem scanWord_plain (goesOn : plainBody afterGap text = true) :
    scanWord false (text ++ '\n' :: more) = .ok (text.takeWhile (!isGap ·)) := by
  induction text generalizing afterGap with
  | nil => rfl
  | cons c rest ih =>
    obtain ⟨noBreak, -, noKey, goesOn⟩ := plainBody_cons.1 goesOn
    rw [List.cons_append, scanWord, endsWord_append, List.takeWhile_cons]
    cases blank : isGap c with
    | true => rfl
    | false =>
      have noEnd : ¬ ((c = ':' && endsWord rest) = true) := by simpa using noKey
      simp [noBreak, noEnd, ih goesOn]

theorem moved_next {c : Char} (here : cursor.rest = c :: rest) (count : Nat) :
    moved cursor.next count = moved cursor (count + 1) := by
  simp [next, moved, here, Nat.add_comm, Nat.add_left_comm]

/-- No blanks and no line breaks are left. -/
theorem scanGap_stop {margin : Option Int} (fuel : Nat) (stops : endsWord cursor.rest = false) :
    scanGap margin fuel gap cursor = .ok (gap, cursor) := by
  cases fuel with
  | zero => rfl
  | succ fuel =>
    rw [scanGap]
    cases here : cursor.rest with
    | nil => rfl
    | cons c rest =>
      rw [here] at stops
      obtain ⟨noGap, noBreak⟩ : isGap c = false ∧ isBreak c = false := by simpa [endsWord] using stops
      simp only [noGap, noBreak, Bool.false_eq_true, if_false]
      rfl

theorem scanGap_blank {margin : Option Int} {c : Char} (fuel : Nat) (unbroken : gap.broken = false)
    (blank : isGap c = true) (here : cursor.rest = c :: rest) :
    scanGap margin (fuel + 1) gap cursor =
      scanGap margin fuel { gap with blanks := gap.blanks ++ [c] } cursor.next := by
  rw [scanGap, here]
  simp only [blank, unbroken, Bool.false_eq_true, if_false, if_true]

theorem scanGap_break {margin : Option Int} {c : Char} (fuel : Nat) (unbroken : gap.broken = false)
    (blank : isBreak c = true) (noGap : isGap c = false) (here : cursor.rest = c :: rest) :
    scanGap margin (fuel + 1) gap cursor =
      scanGap margin fuel ⟨[], true, cursor.nextLine.1, gap.following⟩ cursor.nextLine.2 := by
  rw [scanGap, here]
  simp only [blank, noGap, unbroken, Bool.false_eq_true, if_false, if_true]

theorem scanGap_blanks {margin : Option Int} {blanks : List Char} (fuel : Nat)
    (unbroken : gap.broken = false) (isBlank : ∀ c ∈ blanks, isGap c = true) (stops : endsWord rest = false)
    (here : cursor.rest = blanks ++ rest) :
    scanGap margin (blanks.length + fuel) gap cursor =
      .ok ({ gap with blanks := gap.blanks ++ blanks }, moved cursor blanks.length) := by
  induction blanks generalizing gap cursor with
  | nil =>
    rw [scanGap_stop _ (by rwa [here]), List.append_nil]
    rfl
  | cons c blanks ih =>
    have behind : cursor.next.rest = blanks ++ rest := by simp [next, here]
    rw [List.length_cons, Nat.add_right_comm, scanGap_blank _ unbroken (isBlank c List.mem_cons_self) here,
      @ih { gap with blanks := gap.blanks ++ [c] } cursor.next unbroken
        (fun d member => isBlank d (List.mem_cons_of_mem _ member)) behind, moved_next here, List.append_assoc]
    rfl

theorem scanGap_newline {margin : Option Int} (fuel : Nat) (unbroken : gap.broken = false)
    (stops : endsWord more = false) (here : cursor.rest = '\n' :: more) :
    scanGap margin (fuel + 1) gap cursor = .ok (⟨[], true, ['\n'], gap.following⟩,
      ⟨more, cursor.index + 1, cursor.line + 1, 0⟩) := by
  have onNext : cursor.nextLine = (['\n'], ⟨more, cursor.index + 1, cursor.line + 1, 0⟩) := by
    simp [nextLine, here]
  rw [scanGap_break fuel unbroken isBreak_newline isGap_newline here, onNext]
  exact scanGap_stop fuel stops

theorem head?_dropWhile (p : Char → Bool) : ∀ c ∈ (text.dropWhile p).head?, p c = false := by
  intro c first
  have := List.head?_dropWhile_not p text
  rw [first] at this
  simpa using this

theorem scanPlain_word {fuel : Nat} (noComment : text.head? ≠ some '#') (goesOn : plainBody afterGap text = true)
    (starts : endsWord text = false) (inLine : 0 < cursor.column) (here : cursor.rest = text ++ '\n' :: more)
    (lead : List Char) :
    scanPlain false limit (fuel + 1) lead gap cursor =
      behindWord false limit (scanPlain false limit fuel) (lead ++ gap.joined ++ text.takeWhile (!isGap ·)) emptyGap
        (moved cursor (text.takeWhile (!isGap ·)).length) := by
  cases text with
  | nil => cases starts
  | cons c rest =>
    have noGap : isGap c = false := (Bool.or_eq_false_iff.1 starts).1
    have noMark : cursor.atDocumentMark = false := by simp [atDocumentMark, Nat.ne_of_gt inLine]
    have noEnd : cursor.rest.head? ≠ some '#' := by rw [here]; exact noComment
    rw [scanPlain_succ, noMark, if_neg (by simp [noEnd]), here, scanWord_plain goesOn]
    simp [grown, noGap]
    rfl

section
variable {goOn : List Char → Gap → Cursor → ScanResult (List Char × Bool × Cursor)}

theorem behindWord_newline (inLine : 0 < limit) (stops : endsWord more = false) (here : cursor.rest = '\n' :: more) :
    behindWord false limit goOn text emptyGap cursor =
      .ok (text, true, ⟨more, cursor.index + 1, cursor.line + 1, 0⟩) := by
  have outside : ((0 : Nat) : Int) < limit := inLine
  unfold behindWord
  rw [scanGap_newline _ rfl stops here, here]
  simp only [isBreak_newline, Bool.or_true, if_true]
  exact if_pos (by simpa using outside)

theorem behindWord_blanks {blanks : List Char} (filled : blanks ≠ []) (isBlank : ∀ c ∈ blanks, isGap c = true)
    (margin : limit ≤ cursor.column) (stops : endsWord rest = false) (here : cursor.rest = blanks ++ rest) :
    behindWord false limit goOn text emptyGap cursor =
      goOn text { emptyGap with blanks } (moved cursor blanks.length) := by
  have inside : ¬ ((moved cursor blanks.length).column : Int) < limit := by simp [moved]; omega
  have scanned : scanGap (some limit) (blanks.length + (rest.length + 1)) emptyGap cursor =
      .ok ({ emptyGap with blanks }, moved cursor blanks.length) :=
    scanGap_blanks (rest.length + 1) rfl isBlank stops here
  unfold behindWord
  rw [here, List.length_append, Nat.add_assoc, scanned]
  cases blanks with
  | nil => exact absurd rfl filled
  | cons c blanks =>
    simp only [List.cons_append, isBlank c List.mem_cons_self, Bool.true_or, if_true]
    exact if_neg (by simpa using inside)

end

/-- A plain scalar that goes on up to the end of its line holds what stands there. -/
theorem scanPlain_line {fuel : Nat} (enough : text.length < fuel) (noComment : text.head? ≠ some '#')
    (goesOn : plainBody afterGap text = true) (starts : endsWord text = false) (margin : limit ≤ cursor.column)
    (inLine : 0 < limit) (stops : endsWord more = false) (here : cursor.rest = text ++ '\n' :: more)
    (lead : List Char) :
    scanPlain false limit fuel lead gap cursor = .ok (lead ++ gap.joined ++ text, true,
      ⟨more, cursor.index + text.length + 1, cursor.line + 1, 0⟩) := by
  induction fuel generalizing text afterGap gap cursor lead with
  | zero => exact absurd enough (Nat.not_lt_zero _)
  | succ fuel ih =>
    rw [scanPlain_word noComment goesOn starts (by omega) here]
    have cut : text.takeWhile (!isGap ·) ++ text.dropWhile (!isGap ·) = text := List.takeWhile_append_dropWhile
    have left := plainBody_behind_word goesOn starts
    have first : ∀ c ∈ (text.dropWhile (!isGap ·)).head?, (!isGap c) = false := head?_dropWhile _
    generalize text.takeWhile (!isGap ·) = word at cut ⊢
    generalize text.dropWhile (!isGap ·) = behind at cut left first
    subst cut
    cases behind with
    | nil =>
      rw [behindWord_newline inLine stops (by simp [moved, here])]
      simp [moved]
    | cons c rest =>
      have blank : isGap c = true := by simpa using first c rfl
      have cutBlanks : (c :: rest).takeWhile isGap ++ (c :: rest).dropWhile isGap = c :: rest :=
        List.takeWhile_append_dropWhile
      have filled : (c :: rest).takeWhile isGap ≠ [] := by simp [blank]
      have isBlank : ∀ d ∈ (c :: rest).takeWhile isGap, isGap d = true := fun d member => List.mem_takeWhile_imp member
      have goesOnBehind := plainBody_behind_blanks left blank
      obtain ⟨startsBehind, noCommentBehind⟩ := starts_of_plainBody goesOnBehind (head?_dropWhile isGap)
      generalize (c :: rest).takeWhile isGap = blanks at cutBlanks filled isBlank
      generalize (c :: rest).dropWhile isGap = next at cutBlanks goesOnBehind startsBehind noCommentBehind
      rw [← cutBlanks] at here enough ⊢
      have shorter : next.length < fuel := by
        have := List.length_pos_iff.2 filled
        simp only [List.length_append] at enough
        omega
      have stopsBehind : endsWord (next ++ '\n' :: more) = false := by rwa [endsWord_append]
      rw [behindWord_blanks filled isBlank (by simp [moved]; omega) stopsBehind (by simp [moved, here]),
        ih shorter noCommentBehind goesOnBehind startsBehind (by simp [moved]; omega) (by simp [moved, here])]
      simp [Gap.joined, emptyGap, moved, Nat.add_assoc]

namespace Scanner

variable {scanner : Scanner}

theorem startsPlain_append {c : Char} :
    startsPlain false (c :: rest ++ '\n' :: more) = startsPlain false (c :: rest) := by
  have first : (rest ++ '\n' :: more).head?.any isGap = rest.head?.any isGap := by cases rest <;> rfl
  rw [List.cons_append, startsPlain, startsPlain, first, endsWord_append]

/-- What a plain scalar does not begin with, unless a word goes on behind it. -/
theorem plainHead_cons {c : Char} (head : plainHead (c :: rest) = true) :
    c ∉ ['[', '\x7b', ']', '\x7d', ',', '*', '&', '!', '|', '>', '\'', '"', '#'] ∧
      (c = '-' → endsWord rest = false) ∧ (c = '?' → endsWord rest = false) ∧ (c = ':' → endsWord rest = false) := by
  obtain ⟨starts, noEntry⟩ : startsPlain false (c :: rest) = true ∧ (c = '-' → endsWord rest = false) := by
    cases ends : endsWord rest <;> simpa [plainHead, ends] using head
  refine ⟨fun mark => ?_, noEntry, ?_, ?_⟩
  · simp only [List.mem_cons, List.not_mem_nil, or_false] at mark
    rcases mark with rfl | rfl | rfl | rfl | rfl | rfl | rfl | rfl | rfl | rfl | rfl | rfl | rfl <;> cases starts
  · rintro rfl
    simpa [startsPlain] using starts
  · rintro rfl
    simpa [startsPlain] using starts

theorem endsWord_of_startsPlain (starts : startsPlain false text = true) : endsWord text = false := by
  cases text with
  | nil => cases starts
  | cons c rest =>
    rw [startsPlain] at starts
    split at starts
    · next dash => rw [dash]; rfl
    · split at starts
      · next mark => rcases (by simpa using mark : c = '?' ∨ c = ':') with rfl | rfl <;> rfl
      · simp only [Bool.and_eq_true, Bool.not_eq_true'] at starts
        simp [endsWord, starts.1.2, starts.2]

theorem starts_of_plainHead (head : plainHead text = true) : endsWord text = false ∧ text.head? ≠ some '#' := by
  refine ⟨endsWord_of_startsPlain (Bool.and_eq_true_iff.1 head).1, ?_⟩
  cases text with
  | nil => exact nofun
  | cons c rest => exact fun same => (plainHead_cons head).1 (by simp [Option.some.inj same])

theorem scanToken_plain (outside : scanner.inFlow = false) (inLine : 0 < scanner.cursor.column)
    (head : plainHead text = true) (here : scanner.cursor.rest = text ++ '\n' :: more) :
    scanToken scanner = scanner.plainToken := by
  cases text with
  | nil => cases head
  | cons c rest =>
    have starts : startsPlain false (c :: rest ++ '\n' :: more) = true := by
      rw [startsPlain_append]
      exact (Bool.and_eq_true_iff.1 head).1
    obtain ⟨noMark, dash, mark, colon⟩ := plainHead_cons head
    simp only [List.mem_cons, List.not_mem_nil, or_false, not_or] at noMark
    have atMark : scanner.cursor.atDocumentMark = false := by simp [atDocumentMark, Nat.ne_of_gt inLine]
    have onward : ∀ d, (c = d → endsWord rest = false) → (decide (c = d) && endsWord (rest ++ '\n' :: more)) = false := by
      intro d goesOn
      rw [endsWord_append]
      by_cases same : c = d
      · rw [goesOn same, Bool.and_false]
      · rw [decide_eq_false same, Bool.false_and]
    unfold scanToken
    dsimp only
    rw [here, outside]
    rw [List.cons_append] at starts ⊢
    simp [starts, onward '-' dash, onward '?' mark, onward ':' colon, Nat.ne_of_gt inLine, atMark, noMark]

/-- A plain scalar on a line of its own that is no key is one token, and what follows its line break is next. -/
theorem plainToken_line (outside : scanner.inFlow = false) (noKey : scanner.keyAllowed = false)
    (margin : scanner.indent < scanner.cursor.column) (block : 0 ≤ scanner.indent) (head : plainHead text = true)
    (goesOn : plainBody false text = true) (stops : endsWord more = false)
    (here : scanner.cursor.rest = text ++ '\n' :: more) :
    scanner.plainToken = .ok (scanner.past (.scalar .plain (String.ofList text))
      ⟨more, scanner.cursor.index + text.length + 1, scanner.cursor.line + 1, 0⟩ true) := by
  have starts := starts_of_plainHead head
  have scanned : scanPlain false (scanner.indent + 1) (scanner.cursor.rest.length + 1) [] emptyGap scanner.cursor =
      .ok (text, true, ⟨more, scanner.cursor.index + text.length + 1, scanner.cursor.line + 1, 0⟩) :=
    scanPlain_line (by simp only [here, List.length_append]; omega) starts.2 goesOn starts.1 (by omega) (by omega) stops here []
  rw [plainToken, noteKey_eq, noKey, if_neg (by decide)]
  show (scanPlain scanner.inFlow _ _ _ _ _ >>= _) = _
  rw [outside, scanned]
  rfl

def atValue (index column : Nat) (text : List Char) : Scanner :=
  ⟨⟨text, index, 0, column⟩, 0, [-1], [none], false, #[]⟩

def atLine (text : List Char) : Scanner :=
  ⟨⟨text, 0, 0, 0⟩, 0, [-1], [none], true, #[]⟩

variable {index column : Nat}

theorem skipComment_word {cursor : Cursor} (noComment : cursor.rest.head? ≠ some '#') : cursor.skipComment = cursor := by
  unfold skipComment
  split
  · next same => exact absurd (congrArg List.head? same) noComment
  · rfl

theorem skipToToken_blank (inLine : 0 < column) (starts : endsWord text = false) (noComment : text.head? ≠ some '#') :
    (atValue index column (' ' :: text)).skipToToken = atValue (index + 1) (column + 1) text := by
  cases text with
  | nil => cases starts
  | cons c rest =>
    obtain ⟨noGap, noBreak⟩ : isGap c = false ∧ isBreak c = false := by simpa [endsWord] using starts
    obtain ⟨noBlank, noTab⟩ : c ≠ ' ' ∧ c ≠ '\t' := by simpa [isGap] using noGap
    have skipped : ((atValue index column (' ' :: c :: rest)).cursor.skipMark.skip
        fun d => d = ' ' || (true && d = '\t')) = ⟨c :: rest, index + 1, 0, column + 1⟩ := by
      simp [atValue, skipMark, skip, span, noBlank, noTab, Nat.ne_of_gt inLine]
    have onward : ((atValue index column (' ' :: c :: rest)).cursor.skipMark.skip
        fun d => d = ' ' || (true && d = '\t')).skipComment = ⟨c :: rest, index + 1, 0, column + 1⟩ := by
      rw [skipped, skipComment_word noComment]
    rw [skipToToken, skipToTokenLoop]
    simp only [show (atValue index column (' ' :: c :: rest)).inFlow = false from rfl,
      show (atValue index column (' ' :: c :: rest)).keyAllowed = false from rfl, Bool.not_false, Bool.or_true, onward]
    rw [noBreak]
    rfl

theorem scanToken_verbatim (inLine : 0 < column) (head : plainHead text = true) (goesOn : plainBody false text = true)
    (stops : endsWord more = false) :
    scanToken (atValue index column (text ++ '\n' :: more)) =
      .ok ((atLine more).behind #[.scalar .plain (String.ofList text)] (index + text.length + 1) 1) := by
  rw [scanToken_plain rfl inLine head rfl,
    plainToken_line rfl rfl (Int.natCast_pos.2 inLine) (Int.le_refl 0) head goesOn stops rfl]
  simp [past, atLine, atValue, behind, emit, Cursor.shift]

/-- A verbatim value is one token, and the next line is scanned as if it were the first one. -/
theorem scanLoop_verbatim (fuel : Nat) (inLine : 0 < column) (head : plainHead text = true)
    (goesOn : plainBody false text = true) (stops : endsWord more = false) :
    scanLoop (fuel + 1) (atValue index column (' ' :: (text ++ '\n' :: more))) =
      (scanLoop fuel (atLine more)).map
        (behind #[.scalar .plain (String.ofList text)] (index + text.length + 2) 1) := by
  obtain ⟨starts, noComment⟩ := starts_of_plainHead head
  have startsHere : endsWord (text ++ '\n' :: more) = false := by rwa [endsWord_append]
  have noCommentHere : (text ++ '\n' :: more).head? ≠ some '#' := by
    cases text with
    | nil => cases starts
    | cons c rest => exact noComment
  have settled : (atValue (index + 1) (column + 1) (text ++ '\n' :: more)).closeBlocks (column + 1 : Nat) =
      atValue (index + 1) (column + 1) (text ++ '\n' :: more) := by
    have deeper : ¬ ((column + 1 : Nat) : Int) < 0 := by omega
    unfold closeBlocks
    rw [if_neg (by simp [atValue, inFlow])]
    exact (closeLoop.eq_2 ..).trans (if_neg deeper)
  have taken : (atValue index column (' ' :: (text ++ '\n' :: more))).step =
      .ok (false, (atLine more).behind #[.scalar .plain (String.ofList text)] (index + 1 + text.length + 1) 1) := by
    unfold step
    rw [skipToToken_blank inLine startsHere noCommentHere]
    show (scanToken ((atValue (index + 1) (column + 1) (text ++ '\n' :: more)).closeBlocks (column + 1 : Nat)) >>=
      fun scanned => pure (((atValue (index + 1) (column + 1) (text ++ '\n' :: more)).closeBlocks
        (column + 1 : Nat)).cursor.rest.isEmpty, scanned)) = _
    rw [settled, scanToken_verbatim (Nat.succ_pos column) head goesOn stops]
    cases text <;> rfl
  rw [scanLoop_succ, taken, show index + 1 + text.length + 1 = index + text.length + 2 by omega]
  exact scanLoop_behind _ fuel

/-- There is nothing to skip in front of a word. -/
theorem skipToTokenLoop_word (fuel : Nat) (starts : endsWord scanner.cursor.rest = false)
    (noComment : scanner.cursor.rest.head? ≠ some '#') (noOrder : scanner.cursor.rest.head? ≠ some '\uFEFF') :
    skipToTokenLoop fuel scanner = scanner := by
  cases fuel with
  | zero => rfl
  | succ fuel =>
    obtain ⟨⟨text, index, line, column⟩, indent, outer, keys, keyAllowed, tokens⟩ := scanner
    cases text with
    | nil => cases starts
    | cons c rest =>
      obtain ⟨noGap, noBreak⟩ : isGap c = false ∧ isBreak c = false := by simpa [endsWord] using starts
      obtain ⟨noBlank, noTab⟩ : c ≠ ' ' ∧ c ≠ '\t' := by simpa [isGap] using noGap
      have noMark : Cursor.skipMark ⟨c :: rest, index, line, column⟩ = ⟨c :: rest, index, line, column⟩ :=
        if_neg (by simpa using fun _ same => noOrder (congrArg some same))
      have stays : ∀ tabs, ((Cursor.skipMark ⟨c :: rest, index, line, column⟩).skip
          fun d => d = ' ' || (tabs && d = '\t')).skipComment = ⟨c :: rest, index, line, column⟩ := by
        intro tabs
        rw [noMark, skip, span, List.takeWhile_cons_of_neg (by simp [noBlank, noTab])]
        exact skipComment_word noComment
      rw [skipToTokenLoop]
      simp only [stays, noBreak, Bool.false_eq_true, if_false]

/-- A value that is left out is nothing, and the next line is scanned as if it were the first one. -/
theorem scanLoop_blank (fuel : Nat) (inLine : 0 < column) (starts : endsWord more = false)
    (noComment : more.head? ≠ some '#') (noOrder : more.head? ≠ some '\uFEFF') :
    scanLoop (fuel + 1) (atValue index column (' ' :: '\n' :: more)) =
      (scanLoop (fuel + 1) (atLine more)).map (behind #[] (index + 2) 1) := by
  have onward : ((atValue index column (' ' :: '\n' :: more)).cursor.skipMark.skip
      fun d => d = ' ' || (true && d = '\t')).skipComment = ⟨'\n' :: more, index + 1, 0, column + 1⟩ := by
    simp [atValue, skipMark, skip, span, skipComment, Nat.ne_of_gt inLine]
  have skipped : (atValue index column (' ' :: '\n' :: more)).skipToToken =
      ((atLine more).behind #[] (index + 2) 1).skipToToken := by
    rw [skipToToken, skipToTokenLoop]
    simp only [show (atValue index column (' ' :: '\n' :: more)).inFlow = false from rfl,
      show (atValue index column (' ' :: '\n' :: more)).keyAllowed = false from rfl, Bool.not_false, Bool.or_true,
      onward, isBreak_newline, if_true]
    rw [skipToToken, skipToTokenLoop_word _ starts noComment noOrder, skipToTokenLoop_word _ starts noComment noOrder]
    simp [atValue, atLine, behind, nextLine, Cursor.shift]
  rw [← scanLoop_behind, scanLoop_succ, scanLoop_succ, step, step, skipped]

end Scanner

end ContractBuild.Yaml
