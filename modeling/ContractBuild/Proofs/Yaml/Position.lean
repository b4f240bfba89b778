import Mathlib.Tactic.SplitIfs
import ContractBuild.Yaml.Scanner

/-!
Scanning does not depend on where in a stream it happens: with other lines in front and other tokens found
before, it finds the same tokens and stops in the same way. Positions only count relative to each other.
-/
namespace ContractBuild.Yaml
open Text Cursor

/-! Places further on in a stream -/

namespace Cursor

def shift (chars lines : Nat) (cursor : Cursor) : Cursor :=
  { cursor with index := cursor.index + chars, line := cursor.line + lines }

variable {chars lines : Nat} (cursor : Cursor)

@[simp] theorem shift_rest : (cursor.shift chars lines).rest = cursor.rest := rfl

@[simp] theorem shift_column : (cursor.shift chars lines).column = cursor.column := rfl

@[simp] theorem shift_index : (cursor.shift chars lines).index = cursor.index + chars := rfl

@[simp] theorem shift_line : (cursor.shift chars lines).line = cursor.line + lines := rfl

@[simp] theorem next_shift : (cursor.shift chars lines).next = cursor.next.shift chars lines := by
  obtain ⟨rest, index, line, column⟩ := cursor
  cases rest with
  | nil => rfl
  | cons c rest => simp [next, shift, Nat.add_right_comm]

@[simp] theorem span_shift (p : Char → Bool) :
    (cursor.shift chars lines).span p = ((cursor.span p).1, (cursor.span p).2.shift chars lines) := by
  simp [span, shift, Nat.add_right_comm]

@[simp] theorem skip_shift (p : Char → Bool) :
    (cursor.shift chars lines).skip p = (cursor.skip p).shift chars lines := by
  simp [skip]

@[simp] theorem toLineEnd_shift :
    (cursor.shift chars lines).toLineEnd = (cursor.toLineEnd.1, cursor.toLineEnd.2.shift chars lines) := by
  simp [toLineEnd]

@[simp] theorem skipMark_shift : (cursor.shift chars lines).skipMark = cursor.skipMark.shift chars lines := by
  unfold skipMark
  rw [shift_column, shift_rest, next_shift]
  split <;> rfl

@[simp] theorem skipComment_shift : (cursor.shift chars lines).skipComment = cursor.skipComment.shift chars lines := by
  unfold skipComment
  rw [shift_rest]
  split
  · rw [toLineEnd_shift]
  · rfl

@[simp] theorem moved_shift (count : Nat) : moved (cursor.shift chars lines) count = (moved cursor count).shift chars lines := by
  simp [moved, shift, Nat.add_right_comm]

@[simp] theorem nextLine_shift :
    (cursor.shift chars lines).nextLine = (cursor.nextLine.1, cursor.nextLine.2.shift chars lines) := by
  obtain ⟨rest, index, line, column⟩ := cursor
  unfold nextLine
  simp only [shift]
  split
  · simp [Nat.add_right_comm]
  · split
    · simp [Nat.add_right_comm]
    · split
      · simp [Nat.add_right_comm]
      · rfl
  · rfl

end Cursor

/-! Scans of one token -/

class Found (γ : Type) where
  carry : Nat → Nat → γ → γ

instance : Found Cursor := ⟨shift⟩

instance (α γ : Type) [Found γ] : Found (α × γ) :=
  ⟨fun chars lines found => (found.1, Found.carry chars lines found.2)⟩

open Found

variable {α γ : Type} [Found γ] {chars lines : Nat}

@[simp] theorem carry_cursor (cursor : Cursor) : carry chars lines cursor = cursor.shift chars lines := rfl

@[simp] theorem carry_pair (found : α) (behind : γ) :
    carry chars lines (found, behind) = (found, carry chars lines behind) := rfl

def Floats (scan : Cursor → ScanResult γ) : Prop :=
  ∀ chars lines cursor, scan (cursor.shift chars lines) = (scan cursor).map (carry chars lines)

theorem bind_map {α β γ δ : Type} {f : α → β} {g : γ → δ} {scan : ScanResult α} {next : β → ScanResult δ}
    {later : α → ScanResult γ} (goesOn : ∀ found, next (f found) = (later found).map g) :
    (scan.map f >>= next) = (scan >>= later).map g := by
  rcases scan with cause | found
  · rfl
  · exact goesOn found

theorem ite_map {γ δ : Type} {g : γ → δ} {p : Prop} [Decidable p] {yes no : ScanResult γ} {left right : ScanResult δ}
    (isYes : p → left = yes.map g) (isNo : ¬ p → right = no.map g) :
    (if p then left else right) = (if p then yes else no).map g := by
  split
  · next holds => exact isYes holds
  · next fails => exact isNo fails

theorem floats_scanGap (limit : Option Int) (fuel : Nat) (gap : Gap) : Floats (scanGap limit fuel gap) := by
  intro chars lines cursor
  induction fuel generalizing gap cursor with
  | zero => rfl
  | succ fuel ih =>
    rw [scanGap, scanGap, shift_rest, next_shift, nextLine_shift]
    cases cursor.rest with
    | nil => rfl
    | cons c rest =>
      refine ite_map (fun _ => ite_map (fun _ => ite_map (fun _ => rfl) fun _ => ?_) fun _ => ?_)
        fun _ => ite_map (fun _ => ite_map (fun _ => ?_) fun _ => ?_) fun _ => rfl
      · exact ih gap cursor.next
      · exact ih _ cursor.next
      · exact ih _ cursor.nextLine.2
      · exact ih _ cursor.nextLine.2

def grown (text : List Char) (gap : Gap) (word : List Char) : List Char × Gap :=
  if word.isEmpty then (text, gap) else (text ++ gap.joined ++ word, emptyGap)

def behindWord (inFlow : Bool) (limit : Int) (goOn : List Char → Gap → Cursor → ScanResult (List Char × Bool × Cursor))
    (text : List Char) (gap : Gap) (behind : Cursor) : ScanResult (List Char × Bool × Cursor) :=
  match behind.rest with
  | [] => return (text, gap.broken, behind)
  | c :: _ =>
    if isGap c || isBreak c then do
      let (gap, behind) ← scanGap (some limit) (behind.rest.length + 1) gap behind
      if !inFlow && (behind.column : Int) < limit then return (text, gap.broken, behind)
      else goOn text gap behind
    else return (text, gap.broken, behind)

theorem scanPlain_succ (inFlow : Bool) (limit : Int) (fuel : Nat) (text : List Char) (gap : Gap) (cursor : Cursor) :
    scanPlain inFlow limit (fuel + 1) text gap cursor =
      if cursor.atDocumentMark || cursor.rest.head? = some '#' then pure (text, gap.broken, cursor)
      else scanWord inFlow cursor.rest >>= fun word =>
        behindWord inFlow limit (scanPlain inFlow limit fuel) (grown text gap word).1 (grown text gap word).2
          (moved cursor word.length) := rfl

theorem floats_scanPlain (inFlow : Bool) (limit : Int) (fuel : Nat) (text : List Char) (gap : Gap) :
    Floats (scanPlain inFlow limit fuel text gap) := by
  intro chars lines cursor
  induction fuel generalizing text gap cursor with
  | zero => rfl
  | succ fuel ih =>
    rw [scanPlain_succ, scanPlain_succ]
    refine ite_map (fun _ => rfl) fun _ => ?_
    rw [shift_rest]
    cases scanWord inFlow cursor.rest with
    | error cause => rfl
    | ok word =>
      show behindWord _ _ _ _ _ _ = (behindWord _ _ _ _ _ _).map _
      rw [moved_shift]
      generalize moved cursor word.length = behind
      unfold behindWord
      rw [shift_rest, floats_scanGap]
      cases behind.rest with
      | nil => rfl
      | cons c rest =>
        refine ite_map (fun _ => bind_map fun (gap, behind) => ?_) fun _ => rfl
        exact ite_map (fun _ => rfl) fun _ => ih _ gap behind

theorem floats_scanQuotedWord (single : Bool) (fuel : Nat) : Floats (scanQuotedWord single fuel) := by
  intro chars lines cursor
  induction fuel generalizing cursor with
  | zero => rfl
  | succ fuel ih =>
    have goesOn : ∀ (c : Char) (cursor : Cursor),
        (scanQuotedWord single fuel (cursor.shift chars lines) >>= fun found => pure (c :: found.1, found.2)) =
          (scanQuotedWord single fuel cursor >>= fun found => pure (c :: found.1, found.2)).map (carry chars lines) := by
      intro c cursor
      rw [ih cursor]
      exact bind_map fun _ => rfl
    rw [scanQuotedWord, scanQuotedWord, shift_rest]
    cases cursor.rest with
    | nil => rfl
    | cons c rest =>
      simp only [moved_shift, next_shift, nextLine_shift]
      refine ite_map (fun _ => rfl) fun _ => ite_map (fun _ => goesOn _ _) fun _ =>
        ite_map (fun _ => rfl) fun _ => ite_map (fun _ => ite_map (fun _ => rfl) fun _ => ?_)
          fun _ => goesOn _ _
      cases escape? rest with
      | none => rfl
      | some found => exact goesOn _ _

theorem floats_scanQuoted (single : Bool) (fuel : Nat) (text : List Char) : Floats (scanQuoted single fuel text) := by
  intro chars lines cursor
  induction fuel generalizing text cursor with
  | zero => rfl
  | succ fuel ih =>
    rw [scanQuoted, scanQuoted]
    refine ite_map (fun _ => rfl) fun _ => ite_map (fun _ => rfl) fun _ => ?_
    rw [floats_scanQuotedWord]
    refine bind_map fun (word, joined, behind) => ite_map (fun _ => ?_) fun _ => ?_
    · show pure (text ++ word, (behind.shift chars lines).next) = _
      rw [next_shift]
      rfl
    · show (scanGap _ _ _ (behind.shift chars lines) >>= _) = _
      rw [floats_scanGap]
      exact bind_map fun (gap, behind) => ih _ behind

def closeHeader (chomping : Chomping) (increment : Option Nat) (cursor : Cursor) :
    ScanResult (Chomping × Option Nat × Cursor) :=
  let closed := (cursor.skip isGap).skipComment
  if !endsLine closed.rest then throw .badBlockHeader else return (chomping, increment, closed.nextLine.2)

theorem floats_closeHeader (chomping : Chomping) (increment : Option Nat) : Floats (closeHeader chomping increment) := by
  intro chars lines cursor
  unfold closeHeader
  simp only [skip_shift, skipComment_shift, nextLine_shift]
  exact ite_map (fun _ => rfl) fun _ => rfl

theorem scanHeader_eq (cursor : Cursor) : scanHeader cursor =
    match cursor.rest with
    | [] => closeHeader .clip none cursor
    | c :: rest =>
      match chomping? c, increment? c with
      | some mode, _ =>
        match rest.head?.bind increment? with
        | some amount => amount >>= fun amount => closeHeader mode (some amount) cursor.next.next
        | none => closeHeader mode none cursor.next
      | none, some amount =>
        match rest.head?.bind chomping? with
        | some mode => amount >>= fun amount => closeHeader mode (some amount) cursor.next.next
        | none => amount >>= fun amount => closeHeader .clip (some amount) cursor.next
      | none, none => closeHeader .clip none cursor := by
  have closes : ∀ chomping increment (cursor : Cursor), (do
      let cursor := (cursor.skip isGap).skipComment
      if !endsLine cursor.rest then throw .badBlockHeader
      return (chomping, increment, cursor.nextLine.2) : ScanResult (Chomping × Option Nat × Cursor)) =
        closeHeader chomping increment cursor := by
    intro chomping increment cursor
    unfold closeHeader
    dsimp only
    split <;> rfl
  rw [scanHeader]
  dsimp only
  cases cursor.rest with
  | nil => exact closes _ _ _
  | cons c rest =>
    dsimp only
    rcases chomping? c with _ | mode
    · rcases increment? c with _ | amount
      · exact closes _ _ _
      · dsimp only
        rcases rest.head?.bind chomping? with _ | mode
        · exact congrArg (amount >>= ·) (funext fun _ => closes _ _ _)
        · exact congrArg (amount >>= ·) (funext fun _ => closes _ _ _)
    · dsimp only
      rcases rest.head?.bind increment? with _ | amount
      · exact closes _ _ _
      · exact congrArg (amount >>= ·) (funext fun _ => closes _ _ _)

theorem floats_scanHeader : Floats scanHeader := by
  have after : ∀ {chars lines} (amount : ScanResult Nat) (chomping : Chomping) (cursor : Cursor),
      (amount >>= fun amount => closeHeader chomping (some amount) (cursor.shift chars lines)) =
        (amount >>= fun amount => closeHeader chomping (some amount) cursor).map (carry chars lines) := by
    intro chars lines amount chomping cursor
    rcases amount with cause | amount
    · rfl
    · exact floats_closeHeader chomping (some amount) chars lines cursor
  intro chars lines cursor
  rw [scanHeader_eq, scanHeader_eq, shift_rest, next_shift, next_shift]
  cases cursor.rest with
  | nil => exact floats_closeHeader _ _ _ _ _
  | cons c rest =>
    dsimp only
    rcases chomping? c with _ | mode
    · rcases increment? c with _ | amount
      · exact floats_closeHeader _ _ _ _ _
      · dsimp only
        rcases rest.head?.bind chomping? with _ | mode <;> exact after _ _ _
    · dsimp only
      rcases rest.head?.bind increment? with _ | amount
      · exact floats_closeHeader _ _ _ _ _
      · exact after _ _ _

theorem floats_scanEmptyLines (indent : Option Nat) (fuel deepest : Nat) (breaks : List Char) :
    Floats (scanEmptyLines indent fuel deepest breaks) := by
  intro chars lines cursor
  induction fuel generalizing deepest breaks cursor with
  | zero => rfl
  | succ fuel ih =>
    unfold scanEmptyLines
    simp only [moved_shift, shift_rest, shift_column]
    generalize moved cursor _ = behind
    rw [nextLine_shift]
    cases behind.rest with
    | nil => rfl
    | cons c rest => exact ite_map (fun _ => rfl) fun _ => ite_map (fun _ => ih _ _ _) fun _ => rfl

theorem floats_scanBlockLines (literal : Bool) (indent fuel : Nat) (block : BlockText) :
    Floats (scanBlockLines literal indent fuel block) := by
  intro chars lines cursor
  induction fuel generalizing block cursor with
  | zero => rfl
  | succ fuel ih =>
    unfold scanBlockLines
    rw [shift_rest, shift_column, toLineEnd_shift]
    cases cursor.rest with
    | nil => rfl
    | cons c rest =>
      refine ite_map (fun _ => rfl) fun _ => ?_
      dsimp only
      rw [nextLine_shift, shift_rest, floats_scanEmptyLines]
      exact bind_map fun (_, empty, behind) => ih _ behind

theorem floats_scanBlock (literal : Bool) (parent : Int) : Floats (scanBlock literal parent) := by
  intro chars lines cursor
  unfold scanBlock
  rw [floats_scanHeader]
  refine bind_map fun (chomping, increment, behind) => ?_
  dsimp only [carry_pair, carry_cursor]
  rw [floats_scanEmptyLines]
  refine bind_map fun (deepest, empty, behind) => ?_
  dsimp only [carry_pair, carry_cursor]
  rw [floats_scanBlockLines]
  exact bind_map fun (block, behind) => rfl

theorem floats_scanUri (extra : Bool) (fuel : Nat) : Floats (scanUri extra fuel) := by
  intro chars lines cursor
  induction fuel generalizing cursor with
  | zero => rfl
  | succ fuel ih =>
    have goesOn : ∀ (c : Char) (cursor : Cursor),
        (scanUri extra fuel (cursor.shift chars lines) >>= fun found => pure (c :: found.1, found.2)) =
          (scanUri extra fuel cursor >>= fun found => pure (c :: found.1, found.2)).map (carry chars lines) := by
      intro c cursor
      rw [ih cursor]
      exact bind_map fun _ => rfl
    unfold scanUri
    rw [shift_rest, moved_shift, next_shift]
    split
    · split
      · exact ite_map (fun _ => goesOn _ _) fun _ => rfl
      · rfl
    · exact ite_map (fun _ => goesOn _ _) fun _ => rfl
    · rfl

theorem floats_uri (extra : Bool) : Floats (uri extra) :=
  fun _ _ _ => floats_scanUri extra _ _ _ _

def closeTag (inFlow : Bool) (handle suffix : List Char) (behind : Cursor) : ScanResult (Token × Cursor) :=
  if endsWord behind.rest || (inFlow && behind.rest.head? = some ',') then
    return (.tag (String.ofList handle) (String.ofList suffix), behind)
  else throw .badTag

theorem floats_closeTag (inFlow : Bool) (handle suffix : List Char) : Floats (closeTag inFlow handle suffix) :=
  fun _ _ _ => ite_map (fun _ => rfl) fun _ => rfl

theorem floats_scanTag (inFlow : Bool) : Floats (scanTag inFlow) := by
  intro chars lines cursor
  have closes := fun handle suffix behind => floats_closeTag inFlow handle suffix chars lines behind
  unfold scanTag
  rw [shift_rest, moved_shift, next_shift, span_shift]
  split
  · show (uri true _ >>= _) = (uri true _ >>= _).map _
    rw [floats_uri]
    refine bind_map fun (suffix, behind) => ite_map (fun _ => rfl) fun _ => ?_
    show closeTag inFlow [] suffix (behind.shift chars lines).next = _
    rw [next_shift]
    exact closes _ _ _
  · generalize span isWordChar cursor.next = found
    obtain ⟨word, behind⟩ := found
    refine ite_map (fun _ => ?_) fun _ => ?_
    · show (uri false (behind.shift chars lines).next >>= _) = (uri false _ >>= _).map _
      rw [next_shift, floats_uri]
      refine bind_map fun (suffix, behind) => ite_map (fun _ => rfl) fun _ => ?_
      exact closes _ _ _
    · show (uri false _ >>= _) = (uri false _ >>= _).map _
      rw [floats_uri]
      refine bind_map fun (more, behind) => ?_
      dsimp only [carry_pair, carry_cursor]
      split
      · exact closes _ _ _
      · exact closes _ _ _

theorem floats_scanName : Floats scanName := by
  intro chars lines cursor
  unfold scanName
  rw [span_shift]
  exact ite_map (fun _ => rfl) fun _ => rfl

theorem floats_scanVersionPart : Floats scanVersionPart := by
  intro chars lines cursor
  unfold scanVersionPart
  rw [span_shift]
  exact ite_map (fun _ => rfl) fun _ => rfl

def closeDirective (token : Token) (behind : Cursor) : ScanResult (Token × Cursor) :=
  let closed := (behind.skip isGap).skipComment
  if !endsLine closed.rest then throw .badDirective else return (token, closed.nextLine.2)

theorem floats_closeDirective (token : Token) : Floats (closeDirective token) := by
  intro chars lines behind
  unfold closeDirective
  simp only [skip_shift, skipComment_shift, nextLine_shift]
  exact ite_map (fun _ => rfl) fun _ => rfl

def closeHandle (handle : List Char) (behind : Cursor) : ScanResult (Token × Cursor) :=
  if !(behind.rest.head?.any isGap) then throw .badDirective
  else uri true (behind.skip isGap) >>= fun (lead, behind) =>
    if lead.isEmpty || !endsWord behind.rest then throw .badDirective
    else closeDirective (.tagDirective (String.ofList handle) (String.ofList lead)) behind

theorem floats_closeHandle (handle : List Char) : Floats (closeHandle handle) := by
  intro chars lines behind
  unfold closeHandle
  rw [skip_shift, floats_uri]
  refine ite_map (fun _ => rfl) fun _ => bind_map fun (lead, behind) => ?_
  exact ite_map (fun _ => rfl) fun _ => floats_closeDirective _ _ _ behind

theorem floats_scanDirective : Floats scanDirective := by
  intro chars lines cursor
  have closes := fun token behind => floats_closeDirective token chars lines behind
  have handles := fun handle behind => floats_closeHandle handle chars lines behind
  unfold scanDirective
  rw [next_shift, span_shift]
  refine ite_map (fun _ => rfl) fun _ => ?_
  dsimp only
  rw [skip_shift]
  refine ite_map (fun _ => ?_) fun _ => ite_map (fun _ => ?_) fun _ => rfl
  · rw [floats_scanVersionPart]
    refine bind_map fun (major, behind) => ite_map (fun _ => rfl) fun _ => ?_
    show (scanVersionPart (behind.shift chars lines).next >>= _) = (scanVersionPart _ >>= _).map _
    rw [next_shift, floats_scanVersionPart]
    exact bind_map fun (minor, behind) => closes _ behind
  · refine ite_map (fun _ => rfl) fun _ => ?_
    rw [next_shift, span_shift]
    refine ite_map (fun _ => ?_) fun _ => ite_map (fun _ => ?_) fun _ => rfl
    · rw [next_shift]
      exact handles _ _
    · exact handles _ _

/-! Scanners further on in a stream -/

def PendingKey.shift (tokens chars lines : Nat) (key : PendingKey) : PendingKey :=
  { key with position := key.position + tokens, index := key.index + chars, line := key.line + lines }

namespace Scanner

def behind (front : Array Token) (chars lines : Nat) (scanner : Scanner) : Scanner :=
  { scanner with
    cursor := scanner.cursor.shift chars lines
    keys := scanner.keys.map (Option.map (PendingKey.shift front.size chars lines))
    tokens := front ++ scanner.tokens }

variable {front : Array Token} {chars lines : Nat} (scanner : Scanner)

@[simp] theorem behind_cursor : (scanner.behind front chars lines).cursor = scanner.cursor.shift chars lines := rfl

@[simp] theorem behind_inFlow : (scanner.behind front chars lines).inFlow = scanner.inFlow := by
  simp [inFlow, behind]

@[simp] theorem behind_indent : (scanner.behind front chars lines).indent = scanner.indent := rfl

@[simp] theorem behind_keyAllowed : (scanner.behind front chars lines).keyAllowed = scanner.keyAllowed := rfl

@[simp] theorem emit_behind (token : Token) :
    (scanner.behind front chars lines).emit token = (scanner.emit token).behind front chars lines := by
  simp [emit, behind]

@[simp] theorem take_behind (token : Token) :
    (scanner.behind front chars lines).take token = (scanner.take token).behind front chars lines := by
  simp [take, behind, emit]

theorem insert_behind (position : Nat) (token : Token) :
    (scanner.behind front chars lines).insert (position + front.size) token =
      (scanner.insert position token).behind front chars lines := by
  have whole : front.toList.take (position + front.size) = front.toList := List.take_of_length_le (Nat.le_add_left _ _)
  have none : front.toList.drop (position + front.size) = [] := List.drop_of_length_le (Nat.le_add_left _ _)
  simp [insert, behind, List.take_append, List.drop_append, whole, none]

theorem expired_shift (cursor : Cursor) (key : PendingKey) (tokens : Nat) :
    expired (cursor.shift chars lines) (key.shift tokens chars lines) = expired cursor key := by
  have inLine : key.line + lines < cursor.line + lines ↔ key.line < cursor.line := Nat.add_lt_add_iff_right
  have inText : key.index + chars + 1024 < cursor.index + chars ↔ key.index + 1024 < cursor.index := by omega
  simp [expired, PendingKey.shift, inLine, inText]

theorem expireKeys_shift (cursor : Cursor) (keys : List (Option PendingKey)) (tokens : Nat) :
    expireKeys (cursor.shift chars lines) (keys.map (Option.map (PendingKey.shift tokens chars lines))) =
      (expireKeys cursor keys).map (List.map (Option.map (PendingKey.shift tokens chars lines))) := by
  induction keys with
  | nil => rfl
  | cons key keys ih =>
    have rest : ∀ key : Option PendingKey, (do return key.map (PendingKey.shift tokens chars lines) ::
        (← expireKeys (cursor.shift chars lines) (keys.map (Option.map (PendingKey.shift tokens chars lines))))) =
          (do return key :: (← expireKeys cursor keys) : ScanResult (List (Option PendingKey))).map
            (List.map (Option.map (PendingKey.shift tokens chars lines))) := by
      intro key
      rw [ih]
      exact bind_map fun _ => rfl
    cases key with
    | none => exact rest none
    | some key =>
      rw [List.map_cons, Option.map_some, expireKeys, expireKeys, expired_shift]
      exact ite_map (fun _ => ite_map (fun _ => rfl) fun _ => rest none) fun _ => rest (some key)

theorem dropStale_behind :
    (scanner.behind front chars lines).dropStale = scanner.dropStale.map (behind front chars lines) := by
  show (expireKeys (scanner.cursor.shift chars lines) _ >>= _) = (expireKeys scanner.cursor scanner.keys >>= _).map _
  rw [show (scanner.behind front chars lines).keys = scanner.keys.map (Option.map (PendingKey.shift _ _ _)) from rfl,
    expireKeys_shift]
  exact bind_map fun _ => rfl

theorem dropKey_behind :
    (scanner.behind front chars lines).dropKey = scanner.dropKey.map (behind front chars lines) := by
  obtain ⟨cursor, indent, outer, keys, keyAllowed, tokens⟩ := scanner
  rcases keys with _ | ⟨_ | key, keys⟩
  · rfl
  · rfl
  · exact ite_map (fun _ => rfl) fun _ => rfl

def noted (scanner : Scanner) : Scanner :=
  let cursor := scanner.cursor
  let key : PendingKey := ⟨!scanner.inFlow && scanner.indent = cursor.column, scanner.tokens.size, cursor.index,
    cursor.line, cursor.column⟩
  { scanner with keys := some key :: scanner.keys.tail }

theorem noted_behind : (scanner.behind front chars lines).noted = scanner.noted.behind front chars lines := by
  simp [noted, behind, inFlow, PendingKey.shift, List.map_tail, Nat.add_comm front.size]
  rfl

theorem noteKey_eq : scanner.noteKey =
    if scanner.keyAllowed then scanner.dropKey >>= fun dropped => pure dropped.noted else pure scanner := rfl

theorem noteKey_behind :
    (scanner.behind front chars lines).noteKey = scanner.noteKey.map (behind front chars lines) := by
  rw [noteKey_eq, noteKey_eq, dropKey_behind]
  exact ite_map (fun _ => bind_map fun dropped => congrArg pure (noted_behind dropped)) fun _ => rfl

theorem openBlock_behind (column : Nat) (position : Option Nat) (token : Token) :
    (scanner.behind front chars lines).openBlock column (position.map (· + front.size)) token =
      (scanner.openBlock column position token).behind front chars lines := by
  unfold openBlock
  rw [behind_inFlow, behind_indent]
  split
  · rfl
  · cases position with
    | none => exact emit_behind { scanner with indent := column, outer := scanner.indent :: scanner.outer } token
    | some position =>
      exact insert_behind { scanner with indent := column, outer := scanner.indent :: scanner.outer } position token

theorem openBlock_behind_end (column : Nat) (token : Token) :
    (scanner.behind front chars lines).openBlock column none token =
      (scanner.openBlock column none token).behind front chars lines :=
  openBlock_behind scanner column none token

theorem closeLoop_behind (column : Int) (outer : List Int) :
    closeLoop column outer (scanner.behind front chars lines) =
      (closeLoop column outer scanner).behind front chars lines := by
  induction outer generalizing scanner with
  | nil => rfl
  | cons indent outer ih =>
    rw [closeLoop, closeLoop, behind_indent]
    split
    · rw [emit_behind]
      exact ih { scanner.emit .blockEnd with indent, outer }
    · rfl

theorem closeBlocks_behind (column : Int) :
    (scanner.behind front chars lines).closeBlocks column = (scanner.closeBlocks column).behind front chars lines := by
  unfold closeBlocks
  rw [behind_inFlow]
  split
  · rfl
  · exact closeLoop_behind _ column _

theorem skipToTokenLoop_behind (fuel : Nat) :
    skipToTokenLoop fuel (scanner.behind front chars lines) =
      (skipToTokenLoop fuel scanner).behind front chars lines := by
  induction fuel generalizing scanner with
  | zero => rfl
  | succ fuel ih =>
    unfold skipToTokenLoop
    simp only [behind_cursor, behind_inFlow, behind_keyAllowed, skipMark_shift, skip_shift, skipComment_shift,
      shift_rest, nextLine_shift]
    generalize (skip _ scanner.cursor.skipMark).skipComment = cursor
    split
    · split
      · exact ih { scanner with cursor := cursor.nextLine.2, keyAllowed := scanner.keyAllowed || !scanner.inFlow }
      · rfl
    · rfl

theorem skipToToken_behind :
    (scanner.behind front chars lines).skipToToken = scanner.skipToToken.behind front chars lines :=
  skipToTokenLoop_behind scanner _

/-! One token further on in a stream -/

def past (scanner : Scanner) (token : Token) (cursor : Cursor) (keyAllowed : Bool) : Scanner :=
  { scanner.emit token with cursor, keyAllowed }

theorem past_behind (token : Token) (cursor : Cursor) (keyAllowed : Bool) :
    (scanner.behind front chars lines).past token (cursor.shift chars lines) keyAllowed =
      (scanner.past token cursor keyAllowed).behind front chars lines := by
  simp [past, behind, emit]

theorem onColumnZero_behind {scan : Cursor → ScanResult (Token × Cursor)} (floats : Floats scan) :
    (scanner.behind front chars lines).onColumnZero scan =
      (scanner.onColumnZero scan).map (behind front chars lines) := by
  unfold onColumnZero
  rw [closeBlocks_behind, dropKey_behind]
  refine bind_map fun dropped => ?_
  rw [behind_cursor, floats]
  exact bind_map fun (token, cursor) => congrArg pure (past_behind dropped token cursor false)

theorem keyed_behind {scan : Cursor → ScanResult (Token × Cursor)} (floats : Floats scan) :
    (scanner.behind front chars lines).keyed scan = (scanner.keyed scan).map (behind front chars lines) := by
  unfold keyed
  rw [noteKey_behind]
  refine bind_map fun noted => ?_
  rw [behind_cursor, floats]
  exact bind_map fun (token, cursor) => congrArg pure (past_behind noted token cursor false)

theorem flowStart_behind (token : Token) :
    (scanner.behind front chars lines).flowStart token = (scanner.flowStart token).map (behind front chars lines) := by
  unfold flowStart
  rw [noteKey_behind]
  refine bind_map fun noted => ?_
  rw [take_behind]
  rfl

theorem flowEnd_behind (token : Token) :
    (scanner.behind front chars lines).flowEnd token = (scanner.flowEnd token).map (behind front chars lines) := by
  unfold flowEnd
  rw [dropKey_behind]
  refine bind_map fun dropped => ?_
  rw [take_behind, behind_inFlow]
  show pure _ = pure _
  cases dropped.inFlow with
  | true => simp [behind, List.map_tail]
  | false => rfl

theorem blockMark_behind (refusal : ScanError) (start token : Token) (keyAllowed : Bool) :
    (scanner.behind front chars lines).blockMark refusal start token keyAllowed =
      (scanner.blockMark refusal start token keyAllowed).map (behind front chars lines) := by
  unfold blockMark
  rw [behind_inFlow]
  refine ite_map (fun _ => rfl) fun _ => ?_
  dsimp only
  rw [openBlock_behind_end, dropKey_behind]
  refine bind_map fun dropped => ?_
  rw [take_behind]
  rfl

theorem behind_keys : (scanner.behind front chars lines).keys =
    scanner.keys.map (Option.map (PendingKey.shift front.size chars lines)) := rfl

def keyFound (scanner : Scanner) (key : PendingKey) (keys : List (Option PendingKey)) : Scanner :=
  let opened := (scanner.insert key.position .key).openBlock key.column (some key.position) .blockMappingStart
  { opened.take .value with keys := none :: keys, keyAllowed := false }

theorem keyFound_behind (key : PendingKey) (keys : List (Option PendingKey)) :
    (scanner.behind front chars lines).keyFound (key.shift front.size chars lines)
      (keys.map (Option.map (PendingKey.shift front.size chars lines))) =
        (scanner.keyFound key keys).behind front chars lines := by
  unfold keyFound
  simp only [PendingKey.shift]
  rw [insert_behind]
  have opened : ((scanner.insert key.position .key).behind front chars lines).openBlock key.column
      (some (key.position + front.size)) .blockMappingStart = _ :=
    openBlock_behind (scanner.insert key.position .key) key.column (some key.position) .blockMappingStart
  rw [opened, take_behind]
  rfl

theorem valueMark_behind :
    (scanner.behind front chars lines).valueMark = scanner.valueMark.map (behind front chars lines) := by
  unfold valueMark
  rw [behind_keys]
  have unkeyed : (do
      if !(scanner.behind front chars lines).inFlow && !(scanner.behind front chars lines).keyAllowed then
        throw .misplacedValue
      let opened := (scanner.behind front chars lines).openBlock scanner.cursor.column none .blockMappingStart
      return { opened.take .value with keyAllowed := !opened.inFlow } : ScanResult Scanner) =
    (do
      if !scanner.inFlow && !scanner.keyAllowed then throw .misplacedValue
      let opened := scanner.openBlock scanner.cursor.column none .blockMappingStart
      return { opened.take .value with keyAllowed := !opened.inFlow } : ScanResult Scanner).map
        (behind front chars lines) := by
    rw [behind_inFlow]
    refine ite_map (fun _ => rfl) fun _ => ?_
    dsimp only
    rw [openBlock_behind_end, take_behind, behind_inFlow]
    rfl
  rcases scanner.keys with _ | ⟨_ | key, keys⟩
  · exact unkeyed
  · exact unkeyed
  · exact congrArg pure (keyFound_behind scanner key keys)

theorem plainToken_behind :
    (scanner.behind front chars lines).plainToken = scanner.plainToken.map (behind front chars lines) := by
  unfold plainToken
  rw [noteKey_behind]
  refine bind_map fun noted => ?_
  dsimp only
  rw [behind_cursor, behind_inFlow, behind_indent, floats_scanPlain]
  exact bind_map fun (text, broken, behind) => congrArg pure (past_behind noted _ behind broken)

theorem blockToken_behind (literal : Bool) :
    (scanner.behind front chars lines).blockToken literal =
      (scanner.blockToken literal).map (behind front chars lines) := by
  unfold blockToken
  rw [dropKey_behind]
  refine bind_map fun dropped => ?_
  rw [behind_cursor, behind_indent, next_shift, floats_scanBlock]
  exact bind_map fun (text, cursor) => congrArg pure (past_behind dropped _ cursor true)

theorem floats_quotedToken (single : Bool) : Floats (quotedToken single) := by
  intro chars lines cursor
  unfold quotedToken
  rw [next_shift, shift_rest, floats_scanQuoted]
  exact bind_map fun (text, behind) => rfl

theorem floats_nameToken (token : String → Token) : Floats fun cursor => do
    let (name, behind) ← scanName cursor.next
    return (token name, behind) := by
  intro chars lines cursor
  dsimp only
  rw [next_shift, floats_scanName]
  exact bind_map fun _ => rfl

theorem scanToken_behind :
    scanToken (scanner.behind front chars lines) = (scanToken scanner).map (behind front chars lines) := by
  unfold scanToken
  simp only [behind_cursor, behind_inFlow, shift_rest]
  cases scanner.cursor.rest with
  | nil =>
    dsimp only
    rw [closeBlocks_behind, dropKey_behind]
    exact bind_map fun dropped => congrArg pure (emit_behind dropped .streamEnd)
  | cons c rest =>
    have floatsMark : ∀ token : Token, Floats fun cursor => return (token, moved cursor 3) := by
      intro token chars lines cursor
      dsimp only
      rw [moved_shift]
      rfl
    refine ite_map (fun _ => onColumnZero_behind scanner floats_scanDirective) fun _ =>
      ite_map (fun _ => onColumnZero_behind scanner (floatsMark _)) fun _ =>
      ite_map (fun _ => flowStart_behind scanner _) fun _ => ite_map (fun _ => flowStart_behind scanner _) fun _ =>
      ite_map (fun _ => flowEnd_behind scanner _) fun _ => ite_map (fun _ => flowEnd_behind scanner _) fun _ =>
      ite_map (fun _ => ?_) fun _ => ite_map (fun _ => blockMark_behind scanner _ _ _ _) fun _ =>
      ite_map (fun _ => blockMark_behind scanner _ _ _ _) fun _ => ite_map (fun _ => valueMark_behind scanner) fun _ =>
      ite_map (fun _ => keyed_behind scanner (floats_nameToken _)) fun _ =>
      ite_map (fun _ => keyed_behind scanner (floats_nameToken _)) fun _ =>
      ite_map (fun _ => keyed_behind scanner (floats_scanTag _)) fun _ =>
      ite_map (fun _ => blockToken_behind scanner _) fun _ => ite_map (fun _ => blockToken_behind scanner _) fun _ =>
      ite_map (fun _ => keyed_behind scanner (floats_quotedToken _)) fun _ =>
      ite_map (fun _ => keyed_behind scanner (floats_quotedToken _)) fun _ =>
      ite_map (fun _ => plainToken_behind scanner) fun _ => rfl
    rw [dropKey_behind]
    refine bind_map fun dropped => ?_
    rw [take_behind]
    rfl

/-- A scanner with more in front finds what it finds without, behind what was found before. -/
theorem scanLoop_behind (fuel : Nat) :
    scanLoop fuel (scanner.behind front chars lines) = (scanLoop fuel scanner).map (behind front chars lines) := by
  induction fuel generalizing scanner with
  | zero => rfl
  | succ fuel ih =>
    unfold scanLoop
    rw [skipToToken_behind, dropStale_behind]
    refine bind_map fun kept => ?_
    dsimp only
    rw [behind_cursor, shift_column, closeBlocks_behind, scanToken_behind]
    refine bind_map fun scanned => ite_map (fun _ => rfl) fun _ => ih scanned

/-! Scanning step by step -/

def step (scanner : Scanner) : ScanResult (Bool × Scanner) := do
  let kept ← scanner.skipToToken.dropStale
  let settled := kept.closeBlocks kept.cursor.column
  return (settled.cursor.rest.isEmpty, ← scanToken settled)

theorem scanLoop_succ (fuel : Nat) : scanLoop (fuel + 1) scanner =
    scanner.step >>= fun (ended, scanned) => if ended then pure scanned else scanLoop fuel scanned := by
  unfold step
  rw [scanLoop]
  rcases scanner.skipToToken.dropStale with cause | kept
  · rfl
  · show (scanToken _ >>= _) = ((scanToken _ >>= _) >>= _)
    rcases scanToken (kept.closeBlocks kept.cursor.column) with cause | scanned <;> rfl

def steps : (count : Nat) → Scanner → ScanResult (Bool × Scanner)
  | 0, scanner => pure (false, scanner)
  | count + 1, scanner =>
    scanner.step >>= fun (ended, scanned) => if ended then pure (true, scanned) else steps count scanned

/-- More fuel than there are tokens makes no difference. -/
theorem scanLoop_of_steps {scanner ended : Scanner} {count : Nat} (ran : scanner.steps count = .ok (true, ended))
    (fuel : Nat) : scanLoop (count + fuel) scanner = .ok ended := by
  induction count generalizing scanner with
  | zero => cases ran
  | succ count ih =>
    rw [Nat.add_right_comm, scanLoop_succ]
    rw [steps] at ran
    cases taken : scanner.step with
    | error cause => rw [taken] at ran; cases ran
    | ok found =>
      obtain ⟨last, scanned⟩ := found
      rw [taken] at ran
      cases last with
      | true => cases ran; rfl
      | false => exact ih ran

end Scanner

end ContractBuild.Yaml
