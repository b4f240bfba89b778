import ContractBuild.Proofs.Yaml.Held
import ContractBuild.Proofs.Yaml.Reading

/-!
The token a value begins with. Behind anchors and tags it is the first one that is found, and what is found later
changes it only for the mark of a key. In front of a further line it is a given scalar only if the text of the value
is that scalar as it is written.
-/
namespace ContractBuild.Yaml
open Text Cursor

/-! The first token -/

def content? (tokens : Array Token) : Option Token :=
  tokens.toList.find? (!NodeReader.isProperty ·)

def Avoids (text : String) (tokens : Array Token) : Prop :=
  ∀ style, content? tokens ≠ some (.scalar style text)

def Settled (text : String) (tokens : Array Token) : Prop :=
  ∃ token, content? tokens = some token ∧ ∀ style, token ≠ .scalar style text

def isIndicator : Token → Bool
  | .anchor _ | .tag .. | .scalar .. => false
  | _ => true

def Settles (tokens further : Array Token) : Prop :=
  ∀ text, Avoids text tokens → Settled text further

def Keeps (tokens further : Array Token) : Prop :=
  further = tokens ∨ Settles tokens further

variable {text : String} {tokens further last : Array Token} {token : Token}

theorem Settled.avoids (settled : Settled text tokens) : Avoids text tokens := by
  obtain ⟨token, found, other⟩ := settled
  intro style same
  exact other style (Option.some.inj (found.symm.trans same))

theorem avoids_of_none (none : content? tokens = none) : Avoids text tokens := by
  intro style same
  rw [none] at same
  cases same

theorem Avoids.settled (avoids : Avoids text tokens) (found : content? tokens = some token) : Settled text tokens :=
  ⟨token, found, fun style same => avoids style (same ▸ found)⟩

theorem Settles.trans (first : Settles tokens further) (next : Settles further last) : Settles tokens last :=
  fun text avoids => next text (first text avoids).avoids

theorem content?_push (tokens : Array Token) (token : Token) : content? (tokens.push token) =
    (content? tokens).or (if NodeReader.isProperty token then none else some token) := by
  rw [content?, Array.toList_push, List.find?_append, ← content?]
  cases property : NodeReader.isProperty token <;> simp [property]

theorem Settled.push (settled : Settled text tokens) (token : Token) : Settled text (tokens.push token) := by
  obtain ⟨first, found, other⟩ := settled
  exact ⟨first, by rw [content?_push, found, Option.some_or], other⟩

theorem Avoids.push_scalar {style : ScalarStyle} {other : String} (avoids : Avoids text tokens) (apart : other ≠ text) :
    Settled text (tokens.push (.scalar style other)) := by
  cases found : content? tokens with
  | some token => exact (avoids.settled found).push _
  | none =>
    refine ⟨.scalar style other, by rw [content?_push, found]; rfl, ?_⟩
    rintro _ ⟨⟩
    exact apart rfl

theorem Settled.keeps (settled : Settled text tokens) (keeps : Keeps tokens further) : Settled text further := by
  rcases keeps with rfl | settles
  · exact settled
  · exact settles text settled.avoids

theorem property_of_isIndicator (indicator : isIndicator token = true) : NodeReader.isProperty token = false := by
  cases token <;> first | rfl | cases indicator

theorem ne_scalar_of_isIndicator (indicator : isIndicator token = true) (style : ScalarStyle) :
    token ≠ .scalar style text := by
  rintro rfl
  cases indicator

theorem settles_push (indicator : isIndicator token = true) : Settles tokens (tokens.push token) := by
  intro text avoids
  cases found : content? tokens with
  | some first => exact (avoids.settled found).push _
  | none =>
    refine ⟨token, ?_, ne_scalar_of_isIndicator indicator⟩
    rw [content?_push, found, property_of_isIndicator indicator]
    rfl

theorem settles_insert (indicator : isIndicator token = true) (position : Nat) :
    Settles tokens (tokens.toList.take position ++ token :: tokens.toList.drop position).toArray := by
  intro text avoids
  have whole : tokens.toList = tokens.toList.take position ++ tokens.toList.drop position := by simp
  have split : content? (tokens.toList.take position ++ token :: tokens.toList.drop position).toArray =
      ((tokens.toList.take position).find? (!NodeReader.isProperty ·)).or (some token) := by
    simp [content?, List.find?_append, property_of_isIndicator indicator]
  cases found : (tokens.toList.take position).find? (!NodeReader.isProperty ·) with
  | none => exact ⟨token, by rw [split, found]; rfl, ne_scalar_of_isIndicator indicator⟩
  | some first =>
    have before : content? tokens = some first := by
      rw [content?, whole, List.find?_append, found]
      rfl
    obtain ⟨token, same, other⟩ := avoids.settled before
    exact ⟨token, by rw [split, found, ← same, before]; rfl, other⟩

theorem Keeps.push (keeps : Keeps tokens further) (indicator : isIndicator token = true) :
    Settles tokens (further.push token) := by
  rcases keeps with rfl | settles
  · exact settles_push indicator
  · exact settles.trans (settles_push indicator)

theorem Settles.keeps (settles : Settles tokens further) (keeps : Keeps further last) : Settles tokens last := by
  rcases keeps with rfl | next
  · exact settles
  · exact settles.trans next

theorem Keeps.trans (first : Keeps tokens further) (next : Keeps further last) : Keeps tokens last := by
  rcases first with rfl | settles
  · exact next
  · exact .inr (settles.keeps next)

namespace Scanner

variable {scanner after : Scanner}

/-! Steps that find no scalar -/

def Rekeyed (scanner after : Scanner) : Prop :=
  ∃ keys, after = { scanner with keys } ∧ after.inFlow = scanner.inFlow

theorem Rekeyed.refl (scanner : Scanner) : Rekeyed scanner scanner :=
  ⟨_, rfl, rfl⟩

theorem Rekeyed.trans {last : Scanner} (first : Rekeyed scanner after) (next : Rekeyed after last) :
    Rekeyed scanner last := by
  obtain ⟨keys, rfl, same⟩ := first
  obtain ⟨others, rfl, sameNext⟩ := next
  exact ⟨others, rfl, sameNext.trans same⟩

theorem Rekeyed.tokens_eq (rekeyed : Rekeyed scanner after) : after.tokens = scanner.tokens := by
  obtain ⟨keys, rfl, -⟩ := rekeyed
  rfl

theorem Rekeyed.keeps (rekeyed : Rekeyed scanner after) : Keeps scanner.tokens after.tokens :=
  .inl rekeyed.tokens_eq

theorem rekeyed_of_length {keys : List (Option PendingKey)} (length : keys.length = scanner.keys.length) :
    Rekeyed scanner { scanner with keys } :=
  ⟨keys, rfl, by simp [inFlow, length]⟩

theorem length_of_expireKeys {cursor : Cursor} {keys kept : List (Option PendingKey)}
    (ran : expireKeys cursor keys = .ok kept) : kept.length = keys.length := by
  induction keys generalizing kept with
  | nil => cases ran; rfl
  | cons key keys ih =>
    have further : ∀ {key : Option PendingKey}, (do return key :: (← expireKeys cursor keys)) = Except.ok kept →
        kept.length = keys.length + 1 := by
      intro key ran
      obtain ⟨others, found, done⟩ := scan_bind_ok.1 ran
      cases done
      exact congrArg (· + 1) (ih found)
    cases key with
    | none => exact further ran
    | some key =>
      rw [expireKeys] at ran
      split at ran
      · split at ran
        · cases ran
        · exact further ran
      · exact further ran

theorem dropStale_ok (ran : scanner.dropStale = .ok after) : Rekeyed scanner after := by
  obtain ⟨keys, expired, done⟩ := scan_bind_ok.1 ran
  cases done
  exact rekeyed_of_length (length_of_expireKeys expired)

theorem dropKey_ok (ran : scanner.dropKey = .ok after) : Rekeyed scanner after := by
  unfold dropKey at ran
  split at ran
  · next key keys here =>
    split at ran
    · cases ran
    · cases ran
      exact rekeyed_of_length (by rw [here]; rfl)
  · cases ran
    exact .refl _

theorem noteKey_ok (ran : scanner.noteKey = .ok after) : Rekeyed scanner after := by
  rw [noteKey_eq] at ran
  split at ran
  · obtain ⟨dropped, free, done⟩ := scan_bind_ok.1 ran
    cases done
    refine (dropKey_ok free).trans ⟨_, rfl, ?_⟩
    rcases keys : dropped.keys with _ | ⟨key, keys⟩ <;> simp [noted, inFlow, keys]
  · cases ran
    exact .refl _

theorem closeLoop_keeps (column : Int) (outer : List Int) (scanner : Scanner) :
    closeLoop column outer scanner = scanner ∨ Settles scanner.tokens (closeLoop column outer scanner).tokens := by
  induction outer generalizing scanner with
  | nil => exact .inl rfl
  | cons indent outer ih =>
    rw [closeLoop]
    split
    · right
      have ended : Settles scanner.tokens (scanner.tokens.push .blockEnd) := settles_push rfl
      rcases ih { scanner.emit .blockEnd with indent, outer } with same | further
      · rw [same]; exact ended
      · exact ended.trans further
    · exact .inl rfl

theorem closeBlocks_keeps (scanner : Scanner) (column : Int) :
    scanner.closeBlocks column = scanner ∨ Settles scanner.tokens (scanner.closeBlocks column).tokens := by
  unfold closeBlocks
  split
  · exact .inl rfl
  · exact closeLoop_keeps column scanner.outer scanner

theorem keeps_closeBlocks (column : Int) : Keeps scanner.tokens (scanner.closeBlocks column).tokens :=
  (closeBlocks_keeps scanner column).imp (congrArg tokens) id

theorem keeps_openBlock (scanner : Scanner) (column : Nat) (position : Option Nat) (indicator : isIndicator token = true) :
    Keeps scanner.tokens (scanner.openBlock column position token).tokens := by
  unfold openBlock
  split
  · exact .inl rfl
  · cases position with
    | none => exact .inr (settles_push indicator)
    | some position => exact .inr (settles_insert indicator position)

theorem onColumnZero_settles {scan : Cursor → ScanResult (Token × Cursor)}
    (indicates : ∀ {cursor found}, scan cursor = .ok found → isIndicator found.1 = true)
    (ran : scanner.onColumnZero scan = .ok after) : Settles scanner.tokens after.tokens := by
  obtain ⟨dropped, free, ran⟩ := scan_bind_ok.1 ran
  obtain ⟨⟨token, cursor⟩, found, done⟩ := scan_bind_ok.1 ran
  cases done
  exact ((keeps_closeBlocks (-1)).trans (dropKey_ok free).keeps).push (indicates found)

theorem flowStart_settles (indicator : isIndicator token = true) (ran : scanner.flowStart token = .ok after) :
    Settles scanner.tokens after.tokens := by
  obtain ⟨noted, free, done⟩ := scan_bind_ok.1 ran
  cases done
  exact (noteKey_ok free).keeps.push indicator

theorem flowEnd_settles (indicator : isIndicator token = true) (ran : scanner.flowEnd token = .ok after) :
    Settles scanner.tokens after.tokens := by
  obtain ⟨dropped, free, done⟩ := scan_bind_ok.1 ran
  cases done
  exact (dropKey_ok free).keeps.push indicator

theorem blockMark_settles {refusal : ScanError} {start : Token} {keyAllowed : Bool} (starts : isIndicator start = true)
    (indicator : isIndicator token = true) (ran : scanner.blockMark refusal start token keyAllowed = .ok after) :
    Settles scanner.tokens after.tokens := by
  unfold blockMark at ran
  split at ran
  · cases ran
  · obtain ⟨dropped, free, done⟩ := scan_bind_ok.1 ran
    cases done
    exact ((keeps_openBlock scanner _ none starts).trans (dropKey_ok free).keeps).push indicator

theorem valueMark_settles (ran : scanner.valueMark = .ok after) : Settles scanner.tokens after.tokens := by
  unfold valueMark at ran
  split at ran
  · next key keys here =>
    cases ran
    have keyed : Settles scanner.tokens (scanner.insert key.position .key).tokens := settles_insert rfl key.position
    have opened := keeps_openBlock (scanner.insert key.position .key) key.column (some key.position)
      (show isIndicator .blockMappingStart = true from rfl)
    exact (keyed.keeps opened).trans (settles_push rfl)
  · split at ran
    · cases ran
    · cases ran
      exact (keeps_openBlock scanner _ none rfl).push rfl

/-! One token -/

inductive Takes (scanner : Scanner) : Scanner → Prop
  | indicator {after : Scanner} (settles : Settles scanner.tokens after.tokens) : Takes scanner after
  | property {after : Scanner} {token : Token} (first : ∃ c ∈ ['&', '!'], scanner.cursor.rest.head? = some c)
      (property : NodeReader.isProperty token = true) (tokens : after.tokens = scanner.tokens.push token)
      (indent : after.indent = scanner.indent) (inFlow : after.inFlow = scanner.inFlow)
      (inLine : InLine scanner.cursor after.cursor) : Takes scanner after
  | plain {after : Scanner} {text : List Char} {broken : Bool} {behind : Cursor}
      (starts : startsPlain scanner.inFlow scanner.cursor.rest = true)
      (noEntry : ¬ (scanner.cursor.rest.head? = some '-' ∧ endsWord scanner.cursor.rest.tail = true))
      (scanned : scanPlain scanner.inFlow (scanner.indent + 1) (scanner.cursor.rest.length + 1) [] emptyGap
        scanner.cursor = .ok (text, broken, behind))
      (tokens : after.tokens = scanner.tokens.push (.scalar .plain (String.ofList text))) : Takes scanner after
  | quoted {after : Scanner} (single : Bool) {text : List Char} {behind : Cursor}
      (first : scanner.cursor.rest.head? = some (quote single))
      (scanned : scanQuoted single (scanner.cursor.rest.length + 1) [] scanner.cursor.next = .ok (text, behind))
      (tokens : after.tokens = scanner.tokens.push (.scalar .marked (String.ofList text))) : Takes scanner after
  | block {after : Scanner} (literal : Bool) {style : ScalarStyle} {text : List Char} {behind : Cursor}
      (first : scanner.cursor.rest.head? = some (if literal then '|' else '>'))
      (scanned : scanBlock literal scanner.indent scanner.cursor.next = .ok (text, behind))
      (tokens : after.tokens = scanner.tokens.push (.scalar style (String.ofList text))) : Takes scanner after

theorem keyed_ok {scan : Cursor → ScanResult (Token × Cursor)} (ran : scanner.keyed scan = .ok after) :
    ∃ token cursor, scan scanner.cursor = .ok (token, cursor) ∧ after.tokens = scanner.tokens.push token ∧
      after.indent = scanner.indent ∧ after.inFlow = scanner.inFlow ∧ after.cursor = cursor := by
  obtain ⟨noted, free, ran⟩ := scan_bind_ok.1 ran
  obtain ⟨⟨token, cursor⟩, found, done⟩ := scan_bind_ok.1 ran
  cases done
  obtain ⟨keys, rfl, inFlow⟩ := noteKey_ok free
  exact ⟨token, cursor, found, rfl, rfl, inFlow, rfl⟩

theorem keyed_named {token : String → Token} (ran : (scanner.keyed fun cursor => do
    let (name, behind) ← scanName cursor.next
    return (token name, behind)) = .ok after) :
    ∃ name, after.tokens = scanner.tokens.push (token name) ∧ after.indent = scanner.indent ∧
      after.inFlow = scanner.inFlow ∧ InLine scanner.cursor.next after.cursor := by
  obtain ⟨other, cursor, found, tokens, indent, inFlow, rfl⟩ := keyed_ok ran
  obtain ⟨⟨name, behind⟩, named, done⟩ := scan_bind_ok.1 found
  cases done
  exact ⟨name, tokens, indent, inFlow, scanName_inLine named⟩

theorem takes_of_plain (starts : startsPlain scanner.inFlow scanner.cursor.rest = true)
    (noEntry : ¬ (scanner.cursor.rest.head? = some '-' ∧ endsWord scanner.cursor.rest.tail = true))
    (ran : scanner.plainToken = .ok after) : Takes scanner after := by
  obtain ⟨noted, free, ran⟩ := scan_bind_ok.1 ran
  obtain ⟨⟨text, broken, behind⟩, scanned, done⟩ := scan_bind_ok.1 ran
  cases done
  obtain ⟨keys, rfl, inFlow⟩ := noteKey_ok free
  rw [inFlow] at scanned
  exact .plain starts noEntry scanned rfl

theorem takes_of_quoted {single : Bool} (first : scanner.cursor.rest.head? = some (quote single))
    (ran : scanner.keyed (quotedToken single) = .ok after) : Takes scanner after := by
  obtain ⟨token, cursor, found, tokens, -, -, -⟩ := keyed_ok ran
  obtain ⟨⟨text, behind⟩, scanned, done⟩ := scan_bind_ok.1 found
  cases done
  exact .quoted single first scanned tokens

theorem takes_of_block {literal : Bool} (first : scanner.cursor.rest.head? = some (if literal then '|' else '>'))
    (ran : scanner.blockToken literal = .ok after) : Takes scanner after := by
  obtain ⟨dropped, free, ran⟩ := scan_bind_ok.1 ran
  obtain ⟨⟨text, behind⟩, scanned, done⟩ := scan_bind_ok.1 ran
  cases done
  obtain ⟨keys, rfl, -⟩ := dropKey_ok free
  exact .block literal first scanned rfl

theorem goal_of_ite {α : Type} {found : α} {p goal : Prop} [Decidable p] {yes no : ScanResult α}
    (isYes : p → yes = .ok found → goal) (isNo : ¬ p → no = .ok found → goal) :
    (if p then yes else no) = .ok found → goal := by
  split
  · next holds => exact isYes holds
  · next fails => exact isNo fails

theorem scanDirective_indicator {cursor : Cursor} {found : Token × Cursor} (ran : scanDirective cursor = .ok found) :
    isIndicator found.1 = true := by
  have closes : ∀ {token : Token} {behind : Cursor}, isIndicator token = true →
      closeDirective token behind = .ok found → isIndicator found.1 = true := by
    intro token behind indicator
    exact goal_of_ite (fun _ => nofun) fun _ done => by cases done; exact indicator
  have handles : ∀ {handle : List Char} {behind : Cursor},
      closeHandle handle behind = .ok found → isIndicator found.1 = true := by
    intro handle behind
    refine goal_of_ite (fun _ => nofun) fun _ ran => ?_
    obtain ⟨⟨lead, closing⟩, -, ran⟩ := scan_bind_ok.1 ran
    revert ran
    exact goal_of_ite (fun _ => nofun) fun _ => closes rfl
  unfold scanDirective at ran
  revert ran
  refine goal_of_ite (fun _ => nofun) fun _ => ?_
  dsimp only
  refine goal_of_ite (fun _ ran => ?version) fun _ => goal_of_ite (fun _ => ?handle) fun _ => nofun
  case version =>
    obtain ⟨⟨major, behind⟩, -, ran⟩ := scan_bind_ok.1 ran
    revert ran
    refine goal_of_ite (fun _ => nofun) fun _ ran => ?_
    obtain ⟨⟨minor, behind⟩, -, ran⟩ := scan_bind_ok.1 ran
    exact closes rfl ran
  case handle =>
    refine goal_of_ite (fun _ => nofun) fun _ => ?_
    exact goal_of_ite (fun _ => handles) fun _ => goal_of_ite (fun _ => handles) fun _ => nofun

theorem takes_of_scanToken (ran : scanToken scanner = .ok after) : Takes scanner after := by
  unfold scanToken at ran
  dsimp only at ran
  cases here : scanner.cursor.rest with
  | nil =>
    rw [here] at ran
    obtain ⟨dropped, free, done⟩ := scan_bind_ok.1 ran
    cases done
    exact .indicator (((keeps_closeBlocks (-1)).trans (dropKey_ok free).keeps).push rfl)
  | cons c rest =>
    rw [here] at ran
    dsimp only at ran
    have first : scanner.cursor.rest.head? = some c := by rw [here]; rfl
    have property : ∀ {token : Token}, c ∈ ['&', '!'] → NodeReader.isProperty token = true →
        after.tokens = scanner.tokens.push token → after.indent = scanner.indent → after.inFlow = scanner.inFlow →
        InLine scanner.cursor.next after.cursor → Takes scanner after := by
      intro token member property tokens indent inFlow inLine
      have whole : isBreak c = false := isBreak_eq_false (p := (· ∈ ['&', '!'])) (by decide) (by simpa using member)
      exact .property ⟨c, member, first⟩ property tokens indent inFlow ((InLine.next here whole).trans inLine)
    have marked : ∀ {cursor : Cursor} {found : Token × Cursor},
        (pure (if c = '-' then .documentStart else .documentEnd, moved cursor 3) : ScanResult (Token × Cursor)) =
          .ok found → isIndicator found.1 = true := by
      rintro cursor found ⟨⟩
      dsimp only
      split <;> rfl
    revert ran
    refine goal_of_ite (fun _ ran => .indicator (onColumnZero_settles scanDirective_indicator ran)) fun _ =>
      goal_of_ite (fun _ ran => .indicator (onColumnZero_settles marked ran)) fun _ =>
      goal_of_ite (fun _ ran => .indicator (flowStart_settles rfl ran)) fun _ =>
      goal_of_ite (fun _ ran => .indicator (flowStart_settles rfl ran)) fun _ =>
      goal_of_ite (fun _ ran => .indicator (flowEnd_settles rfl ran)) fun _ =>
      goal_of_ite (fun _ ran => .indicator (flowEnd_settles rfl ran)) fun _ =>
      goal_of_ite (fun _ ran => .indicator ?entry) fun _ =>
      goal_of_ite (fun _ ran => .indicator (blockMark_settles rfl rfl ran)) fun noEntry =>
      goal_of_ite (fun _ ran => .indicator (blockMark_settles rfl rfl ran)) fun _ =>
      goal_of_ite (fun _ ran => .indicator (valueMark_settles ran)) fun _ =>
      goal_of_ite (fun _ ran => .indicator ?reference) fun _ =>
      goal_of_ite (fun anchors ran => ?anchor) fun _ =>
      goal_of_ite (fun tags ran => ?tag) fun _ =>
      goal_of_ite (fun literal ran => ?literal) fun _ =>
      goal_of_ite (fun folded ran => ?folded) fun _ =>
      goal_of_ite (fun single ran => ?single) fun _ =>
      goal_of_ite (fun double ran => ?double) fun _ =>
      goal_of_ite (fun starts ran => ?plain) fun _ => nofun
    case entry =>
      obtain ⟨dropped, free, done⟩ := scan_bind_ok.1 ran
      cases done
      exact (dropKey_ok free).keeps.push rfl
    case reference =>
      obtain ⟨name, tokens, -⟩ := keyed_named ran
      rw [tokens]
      exact settles_push rfl
    case anchor =>
      obtain ⟨name, tokens, indent, inFlow, inLine⟩ := keyed_named ran
      exact property (by simp [anchors]) rfl tokens indent inFlow inLine
    case tag =>
      obtain ⟨token, cursor, found, tokens, indent, inFlow, rfl⟩ := keyed_ok ran
      obtain ⟨inLine, handle, suffix, rfl⟩ := scanTag_inLine found
      exact property (by simp [tags]) rfl tokens indent inFlow inLine
    case literal =>
      simp only [Bool.and_eq_true, decide_eq_true_eq] at literal
      exact takes_of_block (by rw [first, literal.1]; rfl) ran
    case folded =>
      simp only [Bool.and_eq_true, decide_eq_true_eq] at folded
      exact takes_of_block (by rw [first, folded.1]; rfl) ran
    case single => exact takes_of_quoted (by rw [first, single]; rfl) ran
    case double => exact takes_of_quoted (by rw [first, double]; rfl) ran
    case plain =>
      refine takes_of_plain (by rwa [here]) ?_ ran
      rw [here]
      rintro ⟨⟨⟩, ends⟩
      exact noEntry (by simpa using ends)

end Scanner

/-! The line behind a value -/

def isSpecial (c : Char) : Bool :=
  c = '\'' || c = '\\' || c = '|' || c = '>'

structure Follows (key follow : List Char) : Prop where
  begins : ∃ more, follow = key ++ ':' :: ' ' :: more
  letters : ∀ c ∈ key, c.isAlpha = true
  filled : key ≠ []
  bare : ∀ c ∈ follow, (!isSpecial c) = true

section
variable {key follow whole name left found : List Char} {cursor behind : Cursor} {limit : Int} {fuel : Nat}

theorem ne_of_isAlpha {c d : Char} (letter : c.isAlpha = true) (other : d.isAlpha = false) : c ≠ d := by
  rintro rfl
  rw [letter] at other
  cases other

theorem word_of_isAlpha {c : Char} (letter : c.isAlpha = true) : isGap c = false ∧ isBreak c = false := by
  refine ⟨?_, isBreak_eq_false (by decide) letter⟩
  have noBlank : c ≠ ' ' := ne_of_isAlpha letter (by decide)
  have noTab : c ≠ '\t' := ne_of_isAlpha letter (by decide)
  simp [isGap, noBlank, noTab]

namespace Follows

theorem first (follows : Follows key follow) : ∃ c rest, follow = c :: rest ∧ c.isAlpha = true := by
  obtain ⟨⟨more, rfl⟩, letters, filled, -⟩ := follows
  obtain ⟨c, key, rfl⟩ := List.exists_cons_of_ne_nil filled
  exact ⟨c, _, rfl, letters c List.mem_cons_self⟩

theorem endsWord (follows : Follows key follow) : endsWord follow = false := by
  obtain ⟨c, rest, rfl, letter⟩ := follows.first
  obtain ⟨noGap, noBreak⟩ := word_of_isAlpha letter
  simp [Yaml.endsWord, noGap, noBreak]

theorem not_mem (follows : Follows key follow) {c : Char} (special : isSpecial c = true) : c ∉ follow := by
  intro member
  simpa [special] using follows.bare c member

theorem head?_ne (follows : Follows key follow) {d : Char} (other : d.isAlpha = false) : follow.head? ≠ some d := by
  obtain ⟨c, rest, rfl, letter⟩ := follows.first
  exact fun same => ne_of_isAlpha letter other (Option.some.inj same)

theorem atDocumentMark (follows : Follows key follow) (here : cursor.rest = follow) :
    cursor.atDocumentMark = false := by
  obtain ⟨c, rest, rfl, letter⟩ := follows.first
  unfold Cursor.atDocumentMark
  rw [here]
  split
  · next same => exact absurd (List.cons.inj same).1 (ne_of_isAlpha letter (by decide))
  · next same => exact absurd (List.cons.inj same).1 (ne_of_isAlpha letter (by decide))
  · exact Bool.and_false _

end Follows

theorem scanWord_letters {more : List Char} (letters : ∀ c ∈ key, c.isAlpha = true) :
    scanWord false (key ++ ':' :: ' ' :: more) = .ok key := by
  induction key with
  | nil => rfl
  | cons c key ih =>
    have letter := letters c List.mem_cons_self
    obtain ⟨noGap, noBreak⟩ := word_of_isAlpha letter
    have noColon : c ≠ ':' := ne_of_isAlpha letter (by decide)
    rw [List.cons_append, scanWord, ih fun d member => letters d (List.mem_cons_of_mem _ member)]
    simp [noGap, noBreak, noColon]

theorem scanPlain_key (follows : Follows key follow) (here : cursor.rest = follow) :
    scanPlain false limit (fuel + 1) [] emptyGap cursor = .ok (key, false, moved cursor key.length) := by
  rw [scanPlain_succ, follows.atDocumentMark here, if_neg (by simpa [here] using follows.head?_ne (by decide))]
  obtain ⟨⟨more, rfl⟩, letters, filled, -⟩ := follows
  rw [here, scanWord_letters letters]
  show behindWord _ _ _ _ _ _ = _
  unfold behindWord grown
  simp [moved, here, filled, isGap, isBreak, Gap.joined, emptyGap]
  rfl

/-! The text of a value -/

theorem plain_ne (ahead : Ahead follow left cursor) (filled : left ≠ []) (suffix : left <:+ ' ' :: (name ++ ['\n']))
    (stops : endsWord follow = false) (starts : Scanner.startsPlain false cursor.rest = true)
    (noEntry : ¬ (cursor.rest.head? = some '-' ∧ endsWord cursor.rest.tail = true)) (inLine : 0 < limit) {broken : Bool}
    (scanned : scanPlain false limit fuel [] emptyGap cursor = .ok (found, broken, behind))
    (notVerbatim : ¬ (plainHead name = true ∧ plainBody false name = true)) : found ≠ name := by
  have begins : endsWord left = false := by
    have here := Scanner.endsWord_of_startsPlain starts
    obtain ⟨c, rest, rfl⟩ := List.exists_cons_of_ne_nil filled
    rwa [ahead.rest] at here
  have suffixName : left <:+ name ++ ['\n'] := by
    rcases List.suffix_cons_iff.1 suffix with rfl | within
    · cases begins
    · exact within
  rcases scanPlain_ahead stops inLine ahead begins scanned with short | ⟨body, rfl, same, goesOn⟩
  · rintro rfl
    have := suffixName.length_le
    simp only [List.length_append, List.length_cons, List.length_nil, show (emptyGap.joined).length = 0 from rfl]
      at short this
    omega
  · rintro rfl
    obtain rfl : found = body := same
    have here : cursor.rest = found ++ '\n' :: follow := by rw [ahead.rest]; simp
    rw [here] at starts noEntry
    cases found with
    | nil => cases goesOn
    | cons c rest =>
      rw [Scanner.startsPlain_append] at starts
      refine notVerbatim ⟨?_, plainBody_of_true goesOn⟩
      rw [List.cons_append, List.tail_cons, endsWord_append] at noEntry
      simpa [plainHead, starts, imp_iff_not_or] using noEntry

theorem quoted_ne {single : Bool} (rest : cursor.rest = left ++ follow)
    (suffix : quote single :: left <:+ ' ' :: (name ++ ['\n'])) (bare : escaping single ∉ follow)
    (scanned : scanQuoted single fuel [] cursor = .ok (found, behind)) : found ≠ name := by
  have held := scanQuoted_marks scanned
  have few : left.count (escaping single) ≤ left.countP (isMark single) :=
    List.countP_mono_left fun c _ same => by simp [isMark, eq_of_beq same]
  have more := suffix.sublist.countP_le (p := isMark single)
  have marked : isMark single (quote single) = true := by simp [isMark]
  have noBlank : isMark single ' ' = false := by cases single <;> rfl
  have noBreak : isMark single '\n' = false := by cases single <;> rfl
  rintro rfl
  simp only [List.countP_cons, List.countP_append, List.countP_nil, marked, noBlank, noBreak, rest, List.count_append,
    List.count_eq_zero.2 bare, if_true, Bool.false_eq_true, if_false] at held more
  omega

theorem block_ne {literal : Bool} {parent : Int} {mark : Char} (ink : isGap mark = false ∧ isBreak mark = false)
    (rest : cursor.rest = left ++ follow) (suffix : mark :: left <:+ ' ' :: (name ++ ['\n'])) (bare : mark ∉ follow)
    (scanned : scanBlock literal parent cursor = .ok (found, behind)) : found ≠ name := by
  have held := scanBlock_count ink scanned
  have more := suffix.sublist.count_le mark
  have noBlank := isBlank_space.count_eq_zero ink
  have noBreak := isBlank_newline.count_eq_zero ink
  rintro rfl
  rw [rest, List.count_append, List.count_eq_zero.2 bare] at held
  rw [List.count_cons_self, ← List.singleton_append, List.count_append, List.count_append, noBlank, noBreak] at more
  omega

end

theorem skipMark_inLine (cursor : Cursor) : InLine cursor cursor.skipMark := by
  unfold skipMark
  split
  · next order =>
    simp only [Bool.and_eq_true, decide_eq_true_eq] at order
    obtain ⟨rest, here⟩ := List.head?_eq_some_iff.1 order.2
    exact .next here (by decide)
  · exact .refl _

theorem skipComment_inLine (cursor : Cursor) : InLine cursor cursor.skipComment := by
  unfold skipComment
  split
  · exact .span fun c whole => by simpa using whole
  · exact .refl _

namespace Scanner

/-! Up to the first token -/

structure Seeks (follow whole : List Char) (scanner : Scanner) : Prop where
  nothing : content? scanner.tokens = none
  block : 0 ≤ scanner.indent
  outside : scanner.inFlow = false
  ahead : ∃ left, left <:+ whole ∧ Ahead follow left scanner.cursor

variable {key follow whole name : List Char} {scanner after ended : Scanner} {fuel : Nat} {text : String}

theorem Seeks.rekeyed (seeks : Seeks follow whole scanner) (rekeyed : Rekeyed scanner after) :
    Seeks follow whole after := by
  obtain ⟨keys, rfl, inFlow⟩ := rekeyed
  exact ⟨seeks.nothing, seeks.block, inFlow.trans seeks.outside, seeks.ahead⟩

theorem Seeks.skipToTokenLoop (follows : Follows key follow) (seeks : Seeks follow whole scanner) (fuel : Nat) :
    Seeks follow whole (skipToTokenLoop fuel scanner) := by
  induction fuel generalizing scanner with
  | zero => exact seeks
  | succ fuel ih =>
    obtain ⟨left, suffix, ahead⟩ := seeks.ahead
    by_cases done : left = []
    · have here : scanner.cursor.rest = follow := by rw [ahead.rest, done]; rfl
      rwa [skipToTokenLoop_word (fuel + 1) (by rw [here]; exact follows.endsWord)
        (by rw [here]; exact follows.head?_ne (by decide)) (by rw [here]; exact follows.head?_ne (by decide))]
    · unfold Scanner.skipToTokenLoop
      dsimp only
      have skipped : InLine scanner.cursor ((scanner.cursor.skipMark.skip fun c => c = ' ' ||
          ((scanner.inFlow || !scanner.keyAllowed) && c = '\t')).skipComment) := by
        refine ((skipMark_inLine scanner.cursor).trans (.span fun c blank => ?_)).trans (skipComment_inLine _)
        refine isBreak_of_isGap ?_
        simp only [Bool.or_eq_true, Bool.and_eq_true, decide_eq_true_eq] at blank
        rcases blank with rfl | ⟨-, rfl⟩ <;> rfl
      generalize ((scanner.cursor.skipMark.skip fun c => c = ' ' ||
        ((scanner.inFlow || !scanner.keyAllowed) && c = '\t')).skipComment) = cursor at skipped
      obtain ⟨further, more, shorter, aheadFurther⟩ := ahead.inLine done skipped
      split
      · next c rest here =>
        split
        · next breaks =>
          obtain ⟨onNext, shorterNext, -, -, aheadNext⟩ := aheadFurther.nextLine more here breaks
          exact ih ⟨seeks.nothing, seeks.block, seeks.outside, onNext, (shorterNext.trans shorter).trans suffix, aheadNext⟩
        · exact ⟨seeks.nothing, seeks.block, seeks.outside, further, shorter.trans suffix, aheadFurther⟩
      · exact ⟨seeks.nothing, seeks.block, seeks.outside, further, shorter.trans suffix, aheadFurther⟩

theorem Seeks.takes (follows : Follows key follow) (seeks : Seeks follow (' ' :: (name ++ ['\n'])) scanner)
    (apart : key ≠ name) (notVerbatim : ¬ (plainHead name = true ∧ plainBody false name = true))
    (takes : Takes scanner after) :
    Seeks follow (' ' :: (name ++ ['\n'])) after ∨ Settled (String.ofList name) after.tokens := by
  obtain ⟨nothing, block, outside, left, suffix, ahead⟩ := seeks
  have avoids : Avoids (String.ofList name) scanner.tokens := avoids_of_none nothing
  have scalar : ∀ {style : ScalarStyle} {found : List Char}, found ≠ name →
      after.tokens = scanner.tokens.push (.scalar style (String.ofList found)) →
      Settled (String.ofList name) after.tokens := by
    intro style found other tokens
    rw [tokens]
    exact avoids.push_scalar fun same => other (by simpa using congrArg String.toList same)
  have filled_of_first : ∀ {c : Char}, scanner.cursor.rest.head? = some c → c.isAlpha = false →
      ∃ rest, left = c :: rest := by
    intro c first other
    rw [ahead.rest] at first
    cases left with
    | nil => exact absurd first (follows.head?_ne other)
    | cons d rest => exact ⟨rest, by rw [Option.some.inj first]⟩
  cases takes with
  | indicator settles => exact .inr (settles _ avoids)
  | property first property tokens indent inFlow inLine =>
    left
    obtain ⟨c, member, first⟩ := first
    obtain ⟨rest, rfl⟩ := filled_of_first first (by
      simp only [List.mem_cons, List.not_mem_nil, or_false] at member
      rcases member with rfl | rfl <;> decide)
    obtain ⟨further, -, shorter, aheadFurther⟩ := ahead.inLine (List.cons_ne_nil _ _) inLine
    refine ⟨?_, indent ▸ block, inFlow.trans outside, further, shorter.trans suffix, aheadFurther⟩
    rw [tokens, content?_push, nothing, property]
    rfl
  | plain starts noEntry scanned tokens =>
    rw [outside] at starts scanned
    refine .inr (scalar ?_ tokens)
    by_cases done : left = []
    · rw [done] at ahead
      rw [scanPlain_key follows ahead.rest] at scanned
      cases scanned
      exact apart
    · exact plain_ne ahead done suffix follows.endsWord starts noEntry (Int.lt_add_one_of_le block) scanned notVerbatim
  | quoted single first scanned tokens =>
    obtain ⟨rest, rfl⟩ := filled_of_first first (by cases single <;> decide)
    have behindQuote : scanner.cursor.next.rest = rest ++ follow := by simp [next, ahead.rest]
    refine .inr (scalar (quoted_ne behindQuote suffix (follows.not_mem ?_) scanned) tokens)
    cases single <;> decide
  | block literal first scanned tokens =>
    obtain ⟨rest, rfl⟩ := filled_of_first first (by cases literal <;> decide)
    have behindMark : scanner.cursor.next.rest = rest ++ follow := by simp [next, ahead.rest]
    refine .inr (scalar (block_ne ?_ behindMark suffix (follows.not_mem ?_) scanned) tokens)
    · cases literal <;> decide
    · cases literal <;> decide

theorem Takes.settled (takes : Takes scanner after) (settled : Settled text scanner.tokens) :
    Settled text after.tokens := by
  cases takes with
  | indicator settles => exact settles _ settled.avoids
  | property _ _ tokens => rw [tokens]; exact settled.push _
  | plain _ _ _ tokens => rw [tokens]; exact settled.push _
  | quoted _ _ _ tokens => rw [tokens]; exact settled.push _
  | block _ _ _ tokens => rw [tokens]; exact settled.push _

theorem skipToTokenLoop_tokens (fuel : Nat) (scanner : Scanner) :
    (Scanner.skipToTokenLoop fuel scanner).tokens = scanner.tokens := by
  induction fuel generalizing scanner with
  | zero => rfl
  | succ fuel ih =>
    unfold Scanner.skipToTokenLoop
    dsimp only
    split
    · split
      · exact ih _
      · rfl
    · rfl

theorem takes_of_step {last : Bool} (ran : scanner.step = .ok (last, after)) :
    ∃ kept, Rekeyed scanner.skipToToken kept ∧ Takes (kept.closeBlocks kept.cursor.column) after := by
  obtain ⟨kept, dropped, ran⟩ := scan_bind_ok.1 ran
  obtain ⟨scanned, taken, done⟩ := scan_bind_ok.1 ran
  cases done
  exact ⟨kept, dropStale_ok dropped, takes_of_scanToken taken⟩

theorem settled_of_step {last : Bool} (settled : Settled text scanner.tokens) (ran : scanner.step = .ok (last, after)) :
    Settled text after.tokens := by
  obtain ⟨kept, rekeyed, takes⟩ := takes_of_step ran
  rw [← skipToTokenLoop_tokens _ scanner, ← Scanner.skipToToken, ← rekeyed.tokens_eq] at settled
  exact takes.settled (settled.keeps (keeps_closeBlocks _))

theorem Seeks.step {last : Bool} (follows : Follows key follow)
    (seeks : Seeks follow (' ' :: (name ++ ['\n'])) scanner) (apart : key ≠ name)
    (notVerbatim : ¬ (plainHead name = true ∧ plainBody false name = true)) (ran : scanner.step = .ok (last, after)) :
    Seeks follow (' ' :: (name ++ ['\n'])) after ∨ Settled (String.ofList name) after.tokens := by
  obtain ⟨kept, rekeyed, takes⟩ := takes_of_step ran
  have seeksKept := (seeks.skipToTokenLoop follows (scanner.cursor.rest.length + 1)).rekeyed rekeyed
  rcases closeBlocks_keeps kept kept.cursor.column with same | settles
  · rw [same] at takes
    exact seeksKept.takes follows apart notVerbatim takes
  · exact .inr (takes.settled (settles _ (avoids_of_none seeksKept.nothing)))

theorem settled_of_scanLoop (settled : Settled text scanner.tokens) (ran : scanLoop fuel scanner = .ok ended) :
    Settled text ended.tokens := by
  induction fuel generalizing scanner with
  | zero => cases ran; exact settled
  | succ fuel ih =>
    rw [scanLoop_succ] at ran
    obtain ⟨⟨last, scanned⟩, stepped, ran⟩ := scan_bind_ok.1 ran
    have further := settled_of_step settled stepped
    cases last with
    | true => cases ran; exact further
    | false => exact ih further ran

/-- As long as nothing is found the next token comes from the text of the value, and no later one matters. -/
theorem Seeks.scanLoop (follows : Follows key follow) (seeks : Seeks follow (' ' :: (name ++ ['\n'])) scanner)
    (apart : key ≠ name) (notVerbatim : ¬ (plainHead name = true ∧ plainBody false name = true))
    (ran : scanLoop fuel scanner = .ok ended) : Avoids (String.ofList name) ended.tokens := by
  induction fuel generalizing scanner with
  | zero => cases ran; exact avoids_of_none seeks.nothing
  | succ fuel ih =>
    rw [scanLoop_succ] at ran
    obtain ⟨⟨last, scanned⟩, stepped, ran⟩ := scan_bind_ok.1 ran
    have further := seeks.step follows apart notVerbatim stepped
    cases last with
    | true =>
      cases ran
      exact further.elim (fun seeks => avoids_of_none seeks.nothing) Settled.avoids
    | false => exact further.elim (fun seeks => ih seeks ran) fun settled => (settled_of_scanLoop settled ran).avoids

/-- A value that is not verbatim is not read as it is written. -/
theorem avoids_of_scanLoop {index column : Nat} (follows : Follows key follow) (apart : key ≠ name)
    (notVerbatim : ¬ (plainHead name = true ∧ plainBody false name = true))
    (ran : Scanner.scanLoop fuel (atValue index column (' ' :: (name ++ '\n' :: follow))) = .ok ended) :
    Avoids (String.ofList name) ended.tokens := by
  refine Seeks.scanLoop follows ⟨rfl, Int.le_refl 0, rfl, _, List.suffix_refl _, ?_, ?_, nofun⟩ apart notVerbatim ran
  · simp [atValue]
  · intro c last
    rw [← List.cons_append, List.getLast?_append] at last
    exact (Option.some.inj last).symm

end Scanner

end ContractBuild.Yaml
