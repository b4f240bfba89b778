import ContractBuild.Proofs.Yaml.Verbatim

/-!
How far a plain scalar reaches. It stays in front of the next line that begins in the first column, and it is
shorter than what was written up to there, unless that is a line it holds all of.
-/
namespace ContractBuild.Yaml
open Text Cursor

theorem scan_bind_ok {α β : Type} {first : ScanResult α} {next : α → ScanResult β} {found : β} :
    (first >>= next) = .ok found ↔ ∃ middle, first = .ok middle ∧ next middle = .ok found := by
  cases first with
  | error cause => exact ⟨nofun, nofun⟩
  | ok middle => exact ⟨fun ran => ⟨middle, rfl, ran⟩, fun ⟨_, same, ran⟩ => by cases same; exact ran⟩

/-! Moves within a line -/

def InLine (cursor behind : Cursor) : Prop :=
  ∃ taken, (∃ more, cursor.rest = taken ++ more) ∧ (∀ c ∈ taken, isBreak c = false) ∧ behind = moved cursor taken.length

namespace InLine

variable {cursor middle behind : Cursor}

theorem refl (cursor : Cursor) : InLine cursor cursor :=
  ⟨[], ⟨_, rfl⟩, nofun, rfl⟩

theorem trans (first : InLine cursor middle) (next : InLine middle behind) : InLine cursor behind := by
  obtain ⟨taken, ⟨more, cut⟩, whole, rfl⟩ := first
  obtain ⟨further, ⟨rest, cutNext⟩, wholeNext, rfl⟩ := next
  refine ⟨taken ++ further, ⟨rest, ?_⟩, fun c member => (List.mem_append.1 member).elim (whole c) (wholeNext c), ?_⟩
  · have behindTaken : (moved cursor taken.length).rest = more := by simp [moved, cut]
    rw [cut, List.append_assoc, ← cutNext, behindTaken]
  · simp [moved, Nat.add_assoc]

theorem moved {taken more : List Char} (cut : cursor.rest = taken ++ more) (whole : ∀ c ∈ taken, isBreak c = false) :
    InLine cursor (Cursor.moved cursor taken.length) :=
  ⟨taken, ⟨more, cut⟩, whole, rfl⟩

theorem next {c : Char} {rest : List Char} (here : cursor.rest = c :: rest) (whole : isBreak c = false) :
    InLine cursor cursor.next := by
  refine ⟨[c], ⟨rest, here⟩, by simpa using whole, ?_⟩
  simp [Cursor.next, Cursor.moved, here]

theorem span {p : Char → Bool} (whole : ∀ c, p c = true → isBreak c = false) : InLine cursor (cursor.span p).2 :=
  ⟨cursor.rest.takeWhile p, ⟨cursor.rest.dropWhile p, List.takeWhile_append_dropWhile.symm⟩,
    fun c member => whole c (List.mem_takeWhile_imp member), rfl⟩

end InLine

/-- Characters of a kind that line breaks are not of. -/
theorem isBreak_eq_false {p : Char → Bool}
    (noBreaks : (['\n', '\r', '\x85', '\u2028', '\u2029'].all fun c => !p c) = true) {c : Char} (holds : p c = true) :
    isBreak c = false := by
  cases breaks : isBreak c with
  | false => rfl
  | true =>
    have member : c ∈ ['\n', '\r', '\x85', '\u2028', '\u2029'] := by simpa [isBreak, or_assoc] using breaks
    have other := List.all_eq_true.1 noBreaks c member
    rw [holds] at other
    cases other

theorem isBreak_of_isGap {c : Char} (blank : isGap c = true) : isBreak c = false :=
  isBreak_eq_false (by decide) blank

theorem isBreak_of_isWordChar {c : Char} (word : isWordChar c = true) : isBreak c = false :=
  isBreak_eq_false (by decide) word

theorem isBreak_of_hexDigit? {c : Char} {value : Nat} (digit : hexDigit? c = some value) : isBreak c = false :=
  isBreak_eq_false (p := fun c => (hexDigit? c).isSome) (by decide) (by rw [digit]; rfl)

theorem hexNumber?_taken {count number code : Nat} {text : List Char} (read : hexNumber? count number text = some code) :
    ∃ taken more, text = taken ++ more ∧ taken.length = count ∧ ∀ c ∈ taken, isBreak c = false := by
  induction count generalizing number text with
  | zero => exact ⟨[], text, rfl, rfl, nofun⟩
  | succ count ih =>
    cases text with
    | nil => cases read
    | cons c rest =>
      obtain ⟨digit, isDigit, read⟩ := Option.bind_eq_some_iff.1 read
      obtain ⟨taken, more, rfl, length, whole⟩ := ih read
      exact ⟨c :: taken, more, rfl, congrArg (· + 1) length, List.forall_mem_cons.2 ⟨isBreak_of_hexDigit? isDigit, whole⟩⟩

theorem scanUri_inLine {extra : Bool} {fuel : Nat} {cursor behind : Cursor} {found : List Char}
    (ran : scanUri extra fuel cursor = .ok (found, behind)) : InLine cursor behind := by
  induction fuel generalizing cursor found behind with
  | zero => cases ran; exact .refl _
  | succ fuel ih =>
    rw [scanUri] at ran
    split at ran
    · next rest here =>
      split at ran
      · next code read =>
        split at ran
        · obtain ⟨⟨text, later⟩, onward, done⟩ := scan_bind_ok.1 ran
          cases done
          obtain ⟨taken, more, rfl, length, whole⟩ := hexNumber?_taken read
          have escaped : InLine cursor (moved cursor ('%' :: taken).length) :=
            .moved here (List.forall_mem_cons.2 ⟨by decide, whole⟩)
          rw [List.length_cons, length] at escaped
          exact escaped.trans (ih onward)
        · cases ran
      · cases ran
    · next c rest _ here =>
      split at ran
      · next inUri =>
        obtain ⟨⟨text, later⟩, onward, done⟩ := scan_bind_ok.1 ran
        cases done
        have whole : isBreak c = false :=
          isBreak_eq_false (p := fun c => isUriChar c || (extra && (c = ',' || c = '[' || c = ']')))
            (by cases extra <;> decide) inUri
        exact (InLine.next here whole).trans (ih onward)
      · cases ran; exact .refl _
    · cases ran; exact .refl _

theorem scanName_inLine {cursor behind : Cursor} {name : String} (ran : scanName cursor = .ok (name, behind)) :
    InLine cursor behind := by
  unfold scanName at ran
  dsimp only at ran
  split at ran
  · cases ran
  · cases ran
    exact .span fun _ => isBreak_of_isWordChar

theorem closeTag_ok {inFlow : Bool} {handle suffix : List Char} {cursor behind : Cursor} {token : Token}
    (ran : closeTag inFlow handle suffix cursor = .ok (token, behind)) :
    behind = cursor ∧ token = .tag (String.ofList handle) (String.ofList suffix) := by
  unfold closeTag at ran
  split at ran
  · cases ran; exact ⟨rfl, rfl⟩
  · cases ran

theorem scanTag_inLine {inFlow : Bool} {cursor behind : Cursor} {token : Token}
    (ran : scanTag inFlow cursor = .ok (token, behind)) :
    InLine cursor.next behind ∧ ∃ handle suffix, token = .tag handle suffix := by
  have mark : ∀ {cursor : Cursor} {c : Char}, isBreak c = false → cursor.rest.head? = some c →
      InLine cursor cursor.next := by
    intro cursor c whole first
    obtain ⟨rest, here⟩ := List.head?_eq_some_iff.1 first
    exact .next here whole
  unfold scanTag at ran
  dsimp only at ran
  split at ran
  · next more opening =>
    have opened : cursor.next.rest = '<' :: more := by simp [next, opening]
    have behindMark : cursor.next.next = moved cursor 2 := by simp [next, moved, opening]
    obtain ⟨⟨text, closing⟩, found, ran⟩ := scan_bind_ok.1 ran
    dsimp only at ran
    split at ran
    · cases ran
    · next closed =>
      obtain ⟨rfl, rfl⟩ := closeTag_ok ran
      have last : closing.rest.head? = some '>' := by
        by_contra other
        exact closed (by simp [other])
      refine ⟨?_, _, _, rfl⟩
      rw [← behindMark] at found
      exact ((InLine.next opened (by decide)).trans (scanUri_inLine found)).trans (mark (by decide) last)
  · have word : InLine cursor.next (cursor.next.span isWordChar).2 := .span fun _ => isBreak_of_isWordChar
    split at ran
    · next last =>
      obtain ⟨⟨text, closing⟩, found, ran⟩ := scan_bind_ok.1 ran
      dsimp only at ran
      split at ran
      · cases ran
      · obtain ⟨rfl, rfl⟩ := closeTag_ok ran
        exact ⟨(word.trans (mark (by decide) last)).trans (scanUri_inLine found), _, _, rfl⟩
    · obtain ⟨⟨text, closing⟩, found, ran⟩ := scan_bind_ok.1 ran
      dsimp only at ran
      split at ran
      · obtain ⟨rfl, rfl⟩ := closeTag_ok ran
        exact ⟨word.trans (scanUri_inLine found), _, _, rfl⟩
      · obtain ⟨rfl, rfl⟩ := closeTag_ok ran
        exact ⟨word.trans (scanUri_inLine found), _, _, rfl⟩

/-! Places in front of a line -/

structure Ahead (follow text : List Char) (cursor : Cursor) : Prop where
  rest : cursor.rest = text ++ follow
  ends : ∀ c ∈ text.getLast?, c = '\n'
  column : text = [] → cursor.column = 0

section
variable {follow text taken more : List Char} {cursor behind : Cursor}

theorem ends_tail {d : Char} (ends : ∀ c ∈ (d :: text).getLast?, c = '\n') : ∀ c ∈ text.getLast?, c = '\n' := by
  cases text with
  | nil => exact nofun
  | cons e text => rwa [List.getLast?_cons_cons] at ends

theorem exists_left (ends : ∀ c ∈ text.getLast?, c = '\n') (filled : text ≠ []) (cut : text ++ follow = taken ++ more)
    (whole : ∀ c ∈ taken, isBreak c = false) :
    ∃ left, text = taken ++ left ∧ left ≠ [] ∧ (∀ c ∈ left.getLast?, c = '\n') := by
  induction taken generalizing text with
  | nil => exact ⟨text, rfl, filled, ends⟩
  | cons c taken ih =>
    cases text with
    | nil => exact absurd rfl filled
    | cons d text =>
      obtain ⟨rfl, behind⟩ := List.cons.inj cut
      have goesOn : text ≠ [] := by
        rintro rfl
        rw [ends d rfl] at whole
        exact absurd (whole '\n' List.mem_cons_self) (by decide)
      obtain ⟨left, rfl, rest⟩ := ih (ends_tail ends) goesOn behind fun c member => whole c (List.mem_cons_of_mem _ member)
      exact ⟨left, rfl, rest⟩

theorem nextLine_cases {c : Char} {rest : List Char} (here : cursor.rest = c :: rest) (breaks : isBreak c = true) :
    (∃ more, c = '\r' ∧ rest = '\n' :: more ∧
      cursor.nextLine = (['\n'], ⟨more, cursor.index + 2, cursor.line + 1, 0⟩)) ∨
    ∃ held, cursor.nextLine = ([held], ⟨rest, cursor.index + 1, cursor.line + 1, 0⟩) := by
  have isOne : c ∈ ['\n', '\r', '\x85', '\u2028', '\u2029'] := by simpa [isBreak, or_assoc] using breaks
  unfold nextLine
  split
  · next more both =>
    obtain ⟨rfl, rfl⟩ := List.cons.inj (here.symm.trans both)
    exact .inl ⟨more, rfl, rfl, rfl⟩
  · next d behind _ single =>
    obtain ⟨rfl, rfl⟩ := List.cons.inj (here.symm.trans single)
    split
    · exact .inr ⟨'\n', rfl⟩
    · split
      · exact .inr ⟨c, rfl⟩
      · simp_all
  · next none => rw [here] at none; cases none

namespace Ahead

theorem moved (ahead : Ahead follow text cursor) (filled : text ≠ []) (cut : cursor.rest = taken ++ more)
    (whole : ∀ c ∈ taken, isBreak c = false) :
    ∃ left, text = taken ++ left ∧ left ≠ [] ∧ Ahead follow left (Cursor.moved cursor taken.length) := by
  obtain ⟨left, rfl, more, ends⟩ := exists_left ahead.ends filled (ahead.rest.symm.trans cut) whole
  refine ⟨left, rfl, more, ?_, ends, fun none => absurd none more⟩
  simp [Cursor.moved, ahead.rest]

theorem inLine (ahead : Ahead follow text cursor) (filled : text ≠ []) (passed : InLine cursor behind) :
    ∃ left, left ≠ [] ∧ left <:+ text ∧ Ahead follow left behind := by
  obtain ⟨taken, ⟨more, cut⟩, whole, rfl⟩ := passed
  obtain ⟨left, rfl, more, aheadLeft⟩ := ahead.moved filled cut whole
  exact ⟨left, more, List.suffix_append _ _, aheadLeft⟩

theorem next (ahead : Ahead follow text cursor) (filled : text ≠ []) {c : Char} {rest : List Char}
    (here : cursor.rest = c :: rest) (whole : isBreak c = false) :
    ∃ left, text = c :: left ∧ left ≠ [] ∧ Ahead follow left cursor.next := by
  obtain ⟨left, rfl, more, aheadLeft⟩ :=
    ahead.moved filled (show cursor.rest = [c] ++ rest from here) (by simpa using whole)
  refine ⟨left, rfl, more, ?_⟩
  rwa [show cursor.next = Cursor.moved cursor [c].length by simp [Cursor.next, Cursor.moved, here]]

/-- Behind a line break the next line begins, and that may be the line in question. -/
theorem nextLine (ahead : Ahead follow text cursor) (filled : text ≠ []) {c : Char} {rest : List Char}
    (here : cursor.rest = c :: rest) (breaks : isBreak c = true) :
    ∃ left, left <:+ text ∧ left.length < text.length ∧ cursor.nextLine.1.length = 1 ∧
      Ahead follow left cursor.nextLine.2 := by
  cases text with
  | nil => exact absurd rfl filled
  | cons d text =>
    obtain ⟨rfl, rfl⟩ := List.cons.inj (here.symm.trans ahead.rest)
    have ends := ends_tail ahead.ends
    rcases nextLine_cases here breaks with ⟨more, rfl, pair, onNext⟩ | ⟨held, onNext⟩
    · cases text with
      | nil => exact absurd (ahead.ends '\r' rfl) (by decide)
      | cons e text =>
        obtain ⟨rfl, rfl⟩ := List.cons.inj pair
        rw [onNext]
        exact ⟨text, List.suffix_append ['\r', '\n'] text, by simp only [List.length_cons]; omega, rfl, rfl, ends_tail ends, fun _ => rfl⟩
    · rw [onNext]
      exact ⟨text, List.suffix_append [c] text, by simp, rfl, rfl, ends, fun _ => rfl⟩

end Ahead

/-! Blanks and line breaks -/

def Gap.reach (gap : Gap) (column : Nat) : Nat :=
  if gap.broken then gap.first.length + gap.following.length + column else gap.following.length

theorem Gap.joined_le {gap : Gap} (broken : gap.broken = true) :
    gap.joined.length ≤ gap.first.length + gap.following.length := by
  unfold joined folded
  rw [if_pos broken]
  split
  · next single =>
    rw [single]
    split
    · exact Nat.le_add_right 1 _
    · exact Nat.le_add_left _ 1
  · simp

variable {margin : Option Int} {gap gapBehind : Gap} {fuel : Nat}

theorem Ahead.filled_of_head (starts : endsWord follow = false) (ahead : Ahead follow text cursor) {c : Char}
    {rest : List Char} (here : cursor.rest = c :: rest) (ends : isGap c = true ∨ isBreak c = true) : text ≠ [] := by
  rintro rfl
  rw [ahead.rest, List.nil_append] at here
  rw [here] at starts
  rcases ends with ends | ends <;> simp [endsWord, ends] at starts

def Gap.blank (gap : Gap) (c : Char) : Gap :=
  if gap.broken then gap else { gap with blanks := gap.blanks ++ [c] }

def Gap.newLine (gap : Gap) (lineBreak : List Char) : Gap :=
  if gap.broken then { gap with following := gap.following ++ lineBreak } else ⟨[], true, lineBreak, gap.following⟩

@[simp] theorem Gap.broken_blank (gap : Gap) (c : Char) : (gap.blank c).broken = gap.broken := by
  unfold blank
  split <;> rfl

@[simp] theorem Gap.broken_newLine (gap : Gap) (lineBreak : List Char) : (gap.newLine lineBreak).broken = true := by
  unfold newLine
  split
  · next broken => exact broken
  · rfl

theorem Gap.reach_blank (gap : Gap) (c : Char) (column : Nat) :
    (gap.blank c).reach (column + 1) ≤ gap.reach column + 1 := by
  cases broken : gap.broken with
  | false => simp [reach, blank, broken]
  | true =>
    simp only [reach, blank, broken, if_true]
    omega

theorem Gap.reach_newLine (gap : Gap) {lineBreak : List Char} (single : lineBreak.length = 1) (column : Nat) :
    (gap.newLine lineBreak).reach 0 ≤ gap.reach column + 1 := by
  cases broken : gap.broken with
  | false =>
    simp only [reach, newLine, broken, single, if_true, Bool.false_eq_true, if_false]
    omega
  | true =>
    simp only [reach, newLine, broken, single, if_true, List.length_append]
    omega

/-- One step through a gap: its end, a blank or a line break. -/
theorem scanGap_step (ran : scanGap margin (fuel + 1) gap cursor = .ok (gapBehind, behind)) :
    ((∀ c ∈ cursor.rest.head?, isGap c = false ∧ isBreak c = false) ∧ gapBehind = gap ∧ behind = cursor) ∨
    (∃ c rest, cursor.rest = c :: rest ∧ isGap c = true ∧
      scanGap margin fuel (gap.blank c) cursor.next = .ok (gapBehind, behind)) ∨
    ∃ c rest, cursor.rest = c :: rest ∧ isBreak c = true ∧
      scanGap margin fuel (gap.newLine cursor.nextLine.1) cursor.nextLine.2 = .ok (gapBehind, behind) := by
  rw [scanGap] at ran
  cases here : cursor.rest with
  | nil =>
    rw [here] at ran
    cases ran
    exact .inl ⟨by simp, rfl, rfl⟩
  | cons c rest =>
    rw [here] at ran
    dsimp only at ran
    split at ran
    · next blank =>
      refine .inr (.inl ⟨c, rest, rfl, blank, ?_⟩)
      unfold Gap.blank
      split at ran
      · next broken =>
        split at ran
        · cases ran
        · rwa [if_pos broken]
      · next unbroken => rwa [if_neg unbroken]
    · next noGap =>
      split at ran
      · next breaks =>
        refine .inr (.inr ⟨c, rest, rfl, breaks, ?_⟩)
        unfold Gap.newLine
        split at ran
        · next broken => rwa [if_pos broken]
        · next unbroken => rwa [if_neg unbroken]
      · next noBreak =>
        cases ran
        refine .inl ⟨?_, rfl, rfl⟩
        rintro d ⟨⟩
        exact ⟨by simpa using noGap, by simpa using noBreak⟩

theorem scanGap_stops (ran : scanGap margin fuel gap cursor = .ok (gapBehind, behind))
    (enough : cursor.rest.length < fuel) : ∀ c ∈ behind.rest.head?, isGap c = false ∧ isBreak c = false := by
  induction fuel generalizing gap cursor with
  | zero => exact absurd enough (Nat.not_lt_zero _)
  | succ fuel ih =>
    rcases scanGap_step ran with ⟨stops, rfl, rfl⟩ | ⟨c, rest, here, blank, ran⟩ | ⟨c, rest, here, breaks, ran⟩
    · exact stops
    · rw [here, List.length_cons] at enough
      exact ih ran (by simpa [next, here] using enough)
    · rw [here, List.length_cons] at enough
      rcases nextLine_cases here breaks with ⟨more, rfl, rfl, onNext⟩ | ⟨held, onNext⟩
      · rw [List.length_cons] at enough
        exact ih ran (by rw [onNext]; dsimp only; omega)
      · exact ih ran (by rw [onNext]; dsimp only; omega)

theorem scanGap_ahead (starts : endsWord follow = false) (ahead : Ahead follow text cursor)
    (ran : scanGap margin fuel gap cursor = .ok (gapBehind, behind)) :
    ∃ left, Ahead follow left behind ∧
      gapBehind.reach behind.column + left.length ≤ gap.reach cursor.column + text.length ∧
      (gapBehind.broken = false → gap.broken = false ∧ ∃ blanks, text = blanks ++ left ∧
        (∀ c ∈ blanks, isGap c = true) ∧ gapBehind.blanks = gap.blanks ++ blanks) := by
  induction fuel generalizing gap cursor text with
  | zero =>
    cases ran
    exact ⟨text, ahead, Nat.le_refl _, fun unbroken => ⟨unbroken, [], rfl, nofun, (List.append_nil _).symm⟩⟩
  | succ fuel ih =>
    rcases scanGap_step ran with ⟨-, rfl, rfl⟩ | ⟨c, rest, here, blank, ran⟩ | ⟨c, rest, here, breaks, ran⟩
    · exact ⟨text, ahead, Nat.le_refl _, fun unbroken => ⟨unbroken, [], rfl, nofun, (List.append_nil _).symm⟩⟩
    · obtain ⟨left, rfl, -, aheadNext⟩ :=
        ahead.next (ahead.filled_of_head starts here (.inl blank)) here (isBreak_of_isGap blank)
      obtain ⟨rest, aheadBehind, reach, blanks⟩ := ih aheadNext ran
      refine ⟨rest, aheadBehind, ?_, fun unbroken => ?_⟩
      · have step := gap.reach_blank c cursor.column
        simp only [next, here, List.length_cons] at reach ⊢
        omega
      · obtain ⟨unbrokenHere, more, rfl, isBlank, held⟩ := blanks unbroken
        rw [Gap.broken_blank] at unbrokenHere
        refine ⟨unbrokenHere, c :: more, rfl, List.forall_mem_cons.2 ⟨blank, isBlank⟩, ?_⟩
        rw [held, Gap.blank, if_neg (by simp [unbrokenHere]), List.append_assoc]
        rfl
    · obtain ⟨left, -, shorter, single, aheadNext⟩ :=
        ahead.nextLine (ahead.filled_of_head starts here (.inr breaks)) here breaks
      obtain ⟨rest, aheadBehind, reach, blanks⟩ := ih aheadNext ran
      refine ⟨rest, aheadBehind, ?_, fun unbroken => ?_⟩
      · have step := gap.reach_newLine single cursor.column
        have column : cursor.nextLine.2.column = 0 := by
          rcases nextLine_cases here breaks with ⟨more, rfl, rfl, onNext⟩ | ⟨held, onNext⟩ <;> rw [onNext]
        rw [column] at reach
        omega
      · have broken := (blanks unbroken).1
        rw [Gap.broken_newLine] at broken
        cases broken

/-! Plain scalars -/

theorem plainBody_of_true {afterGap : Bool} (goesOn : plainBody true text = true) : plainBody afterGap text = true := by
  cases afterGap with
  | true => exact goesOn
  | false =>
    cases text with
    | nil => cases goesOn
    | cons c rest =>
      obtain ⟨noBreak, -, noKey, goesOn⟩ := plainBody_cons.1 goesOn
      exact plainBody_cons.2 ⟨noBreak, nofun, noKey, goesOn⟩

theorem plainBody_blanks {blanks : List Char} (isBlank : ∀ c ∈ blanks, isGap c = true) {afterGap : Bool}
    (filled : blanks ≠ []) (goesOn : plainBody true text = true) : plainBody afterGap (blanks ++ text) = true := by
  induction blanks generalizing afterGap with
  | nil => exact absurd rfl filled
  | cons c blanks ih =>
    have blank := isBlank c List.mem_cons_self
    refine plainBody_cons.2 ⟨isBreak_of_isGap blank, fun _ => ?_, fun key => ?_, ?_⟩
    · rintro rfl; cases blank
    · subst key; cases blank
    · rw [blank]
      by_cases last : blanks = []
      · rw [last]; exact goesOn
      · exact ih (fun d member => isBlank d (List.mem_cons_of_mem _ member)) last

structure WordOf (text word rest : List Char) : Prop where
  cut : text = word ++ rest
  whole : ∀ c ∈ word, isGap c = false ∧ isBreak c = false
  goesOn : word ≠ [] → endsWord rest = true → ∀ {afterGap : Bool} {more : List Char}, endsWord more = true →
    plainBody false more = true → (afterGap = true → word.head? ≠ some '#') → plainBody afterGap (word ++ more) = true

theorem WordOf.nil (text : List Char) : WordOf text [] text :=
  ⟨rfl, nofun, fun filled => absurd rfl filled⟩

theorem scanWord_ok {word : List Char} (ran : scanWord false text = .ok word) : ∃ rest, WordOf text word rest := by
  induction text generalizing word with
  | nil => cases ran; exact ⟨_, .nil _⟩
  | cons c text ih =>
    rw [scanWord] at ran
    split at ran
    · cases ran; exact ⟨_, .nil _⟩
    · next inWord =>
      simp only [Bool.false_and, Bool.false_eq_true, if_false, Bool.or_false] at ran
      split at ran
      · cases ran; exact ⟨_, .nil _⟩
      · next noKey =>
        obtain ⟨tail, scanned, done⟩ := scan_bind_ok.1 ran
        cases done
        obtain ⟨rest, rfl, whole, goesOn⟩ := ih scanned
        have wholeHere : isGap c = false ∧ isBreak c = false := by simpa using inWord
        refine ⟨rest, rfl, List.forall_mem_cons.2 ⟨wholeHere, whole⟩, fun _ ends afterGap more endsMore bodyMore first => ?_⟩
        refine plainBody_cons.2 ⟨wholeHere.2, fun after same => first after (congrArg some same), fun key => ?_, ?_⟩
        · cases tail with
          | nil => exact absurd (by simp [key, ends]) noKey
          | cons d tail =>
            have wholeNext := whole d List.mem_cons_self
            simp [endsWord, wholeNext]
        · rw [wholeHere.1]
          cases tail with
          | nil => exact bodyMore
          | cons d tail => exact goesOn (List.cons_ne_nil _ _) ends endsMore bodyMore (absurd · Bool.false_ne_true)

def Fills (found lead text : List Char) : Prop :=
  found.length + 1 < lead.length + text.length ∨
    ∃ body, text = body ++ ['\n'] ∧ found = lead ++ body ∧ plainBody true body = true

theorem two_le_of_word (ends : ∀ c ∈ text.getLast?, c = '\n') (word : endsWord text = false) : 2 ≤ text.length := by
  match text, word with
  | [c], word =>
    rw [ends c rfl] at word
    cases word
  | _ :: _ :: _, _ => simp

theorem Fills.nothing {lead joined : List Char} (more : 2 ≤ text.length) : Fills lead (lead ++ joined) text :=
  .inl (by simp; omega)

/-- Behind a word and what follows it up to the next word. -/
theorem Fills.word {lead joinedNext word left further found : List Char}
    (fills : Fills found (lead ++ word ++ joinedNext) further)
    (cut : joinedNext.length + further.length < left.length ∨ left = joinedNext ++ further ∧
      ∀ body, plainBody true body = true → plainBody true (word ++ (joinedNext ++ body)) = true) :
    Fills found lead (word ++ left) := by
  rcases fills with short | ⟨body, rfl, rfl, goesOn⟩
  · left
    simp only [List.length_append] at short ⊢
    rcases cut with shorter | ⟨rfl, -⟩
    · omega
    · simp only [List.length_append]
      omega
  · rcases cut with shorter | ⟨rfl, goesOnBehind⟩
    · left
      simp only [List.length_append, List.length_cons, List.length_nil] at shorter ⊢
      omega
    · exact .inr ⟨word ++ (joinedNext ++ body), by simp, by simp, goesOnBehind body goesOn⟩

/-- A plain scalar in front of a line is shorter than what is left up to there, or is all of it. -/
theorem scanPlain_ahead {limit : Int} {lead found : List Char} {broken : Bool} (starts : endsWord follow = false)
    (inLine : 0 < limit) (ahead : Ahead follow text cursor) (begins : endsWord text = false)
    (ran : scanPlain false limit fuel lead gap cursor = .ok (found, broken, behind)) :
    Fills found (lead ++ gap.joined) text := by
  induction fuel generalizing text lead gap cursor with
  | zero => cases ran; exact .nothing (two_le_of_word ahead.ends begins)
  | succ fuel ih =>
    have filled : text ≠ [] := by rintro rfl; cases begins
    rw [scanPlain_succ] at ran
    split at ran
    · cases ran; exact .nothing (two_le_of_word ahead.ends begins)
    · next goesOn =>
      obtain ⟨word, scanned, ran⟩ := scan_bind_ok.1 ran
      obtain ⟨rest, wordOf⟩ := scanWord_ok scanned
      obtain ⟨left, rfl, more, aheadWord⟩ := ahead.moved filled wordOf.cut fun c member => (wordOf.whole c member).2
      obtain rfl : rest = left ++ follow := by
        have both := wordOf.cut.symm.trans ahead.rest
        rw [List.append_assoc] at both
        exact List.append_cancel_left both
      obtain ⟨c, behindLeft, rfl⟩ := List.exists_cons_of_ne_nil more
      unfold behindWord at ran
      rw [aheadWord.rest] at ran
      dsimp only [List.cons_append] at ran
      by_cases none : word = []
      · subst none
        have noEnd : (isGap c || isBreak c) = false := begins
        rw [noEnd, if_neg (by decide)] at ran
        cases ran
        exact .nothing (two_le_of_word ahead.ends begins)
      · have grows : grown lead gap word = (lead ++ gap.joined ++ word, emptyGap) := if_neg (by simpa using none)
        rw [grows] at ran
        have noComment : word.head? ≠ some '#' := by
          intro same
          obtain ⟨d, rest, rfl⟩ := List.exists_cons_of_ne_nil none
          rw [wordOf.cut] at goesOn
          exact goesOn (by simpa using .inr (Option.some.inj same))
        split at ran
        · next ends =>
          obtain ⟨⟨gapBehind, later⟩, gapped, ran⟩ := scan_bind_ok.1 ran
          obtain ⟨further, aheadFurther, reach, unbroken⟩ := scanGap_ahead starts aheadWord gapped
          have stops := scanGap_stops gapped (by rw [aheadWord.rest]; exact Nat.lt_succ_self _)
          split at ran
          · cases ran
            by_cases last : behindLeft = []
            · obtain rfl : c = '\n' := aheadWord.ends c (by rw [last]; rfl)
              refine .inr ⟨word, by rw [last], rfl, ?_⟩
              have whole : plainBody true (word ++ []) = true := wordOf.goesOn none ends rfl rfl fun _ => noComment
              rwa [List.append_nil] at whole
            · have := List.length_pos_iff.2 last
              exact .inl (by simp; omega)
          · next inside =>
            have notLess : limit ≤ later.column := by simpa using inside
            have begins : endsWord further = false := by
              cases further with
              | nil =>
                have := aheadFurther.column rfl
                omega
              | cons d further =>
                have := stops d (by rw [aheadFurther.rest]; rfl)
                simp [endsWord, this]
            refine .word (ih aheadFurther begins ran) ?_
            cases broken : gapBehind.broken with
            | true =>
              have := Gap.joined_le broken
              simp only [Gap.reach, broken, if_true, show emptyGap.broken = false from rfl, Bool.false_eq_true,
                if_false, show emptyGap.following = [] from rfl, List.length_nil] at reach
              have shorter : gapBehind.joined.length + further.length < (c :: behindLeft).length := by omega
              exact .inl shorter
            | false =>
              obtain ⟨-, blanks, cut, isBlank, held⟩ := unbroken broken
              obtain rfl : gapBehind.joined = blanks := by
                rw [Gap.joined, broken, held]
                rfl
              have filledGap : gapBehind.joined ≠ [] := by
                intro none
                rw [none, List.nil_append] at cut
                rw [← cut] at begins
                rw [show endsWord (c :: behindLeft) = (isGap c || isBreak c) from rfl, ends] at begins
                cases begins
              refine .inr ⟨cut, fun body goesOn => wordOf.goesOn none ends ?_ (plainBody_blanks isBlank filledGap goesOn)
                fun _ => noComment⟩
              obtain ⟨d, blanks, held⟩ := List.exists_cons_of_ne_nil filledGap
              rw [held] at isBlank ⊢
              simp [endsWord, isBlank d List.mem_cons_self]
        · next noEnd =>
          cases ran
          have := two_le_of_word aheadWord.ends (by simpa [endsWord] using noEnd)
          exact .inl (by simp only [List.length_append]; omega)

end

end ContractBuild.Yaml
