import ContractBuild.Yaml.Cursor
import ContractBuild.Yaml.Token
/-!
Plain and quoted scalars. Their lines are joined: one line break between them is a blank, and of
several all but the first stay.
-/
namespace ContractBuild.Yaml
open Text Cursor

/-- How line breaks inside a scalar are joined: one break is a blank, further ones stay. -/
def folded (first following : List Char) : List Char :=
  if first = ['\n'] then (if following.isEmpty then [' '] else following)
  else first ++ following

/-- Blanks and line breaks inside a flow scalar: the blanks of an unbroken line, or the first
break and the ones behind it. -/
structure Gap where
  blanks : List Char
  broken : Bool
  first : List Char
  following : List Char

def Gap.joined (gap : Gap) : List Char :=
  if gap.broken then folded gap.first gap.following else gap.blanks

/-- Takes blanks and breaks; `limit` is the column in front of which a tab may not stand on a
continuation line. -/
def scanGap (limit : Option Int) : (fuel : Nat) → Gap → Cursor →
    ScanResult (Gap × Cursor)
  | 0, gap, cursor => return (gap, cursor)
  | fuel + 1, gap, cursor =>
    match cursor.rest with
    | [] => return (gap, cursor)
    | c :: _ =>
      if isGap c then
        if gap.broken then
          if c = '\t' && (limit.any fun limit => (cursor.column : Int) < limit) then
            throw .tabIndentation
          else scanGap limit fuel gap cursor.next
        else scanGap limit fuel { gap with blanks := gap.blanks ++ [c] } cursor.next
      else if isBreak c then
        let (lineBreak, cursor) := cursor.nextLine
        if gap.broken then
          scanGap limit fuel { gap with following := gap.following ++ lineBreak } cursor
        else scanGap limit fuel ⟨[], true, lineBreak, gap.following⟩ cursor
      else return (gap, cursor)

def isFlowMark (c : Char) : Bool :=
  c = ',' || c = '[' || c = ']' || c = '\x7b' || c = '\x7d'

/-- The word characters of a plain scalar up to the next blank or indicator. -/
def scanWord (inFlow : Bool) : (text : List Char) → ScanResult (List Char)
  | [] => return []
  | c :: rest =>
    if isGap c || isBreak c then return []
    else if inFlow && c = ':' && (rest.head?.any fun d => isFlowMark d || d = '?') then
      throw .unexpectedColon
    else if (c = ':' && endsWord rest) || (inFlow && isFlowMark c) then return []
    else return c :: (← scanWord inFlow rest)

def emptyGap : Gap := ⟨[], false, [], []⟩

/-- Scans a plain scalar: its text, whether it was followed by a line break, and the place
behind it. -/
def scanPlain (inFlow : Bool) (limit : Int) : (fuel : Nat) → (text : List Char) →
    Gap → Cursor → ScanResult (List Char × Bool × Cursor)
  | 0, text, gap, cursor => return (text, gap.broken, cursor)
  | fuel + 1, text, gap, cursor => do
    if cursor.atDocumentMark || cursor.rest.head? = some '#' then return (text, gap.broken, cursor)
    let word ← scanWord inFlow cursor.rest
    let behind := { cursor with
      rest := cursor.rest.drop word.length
      index := cursor.index + word.length
      column := cursor.column + word.length }
    let (text, gap) := if word.isEmpty then (text, gap) else (text ++ gap.joined ++ word, emptyGap)
    match behind.rest with
    | [] => return (text, gap.broken, behind)
    | c :: _ =>
      if isGap c || isBreak c then
        let (gap, behind) ← scanGap (some limit) (behind.rest.length + 1) gap behind
        if !inFlow && (behind.column : Int) < limit then return (text, gap.broken, behind)
        else scanPlain inFlow limit fuel text gap behind
      else return (text, gap.broken, behind)

def hexDigit? (c : Char) : Option Nat :=
  if Numeral.isDigit c then some (c.toNat - 48)
  else if 'a' ≤ c && c ≤ 'f' then some (c.toNat - 87)
  else if 'A' ≤ c && c ≤ 'F' then some (c.toNat - 55)
  else none

def hexNumber? : (count : Nat) → Nat → List Char → Option Nat
  | 0, number, _ => some number
  | count + 1, number, c :: rest => do hexNumber? count (number * 16 + (← hexDigit? c)) rest
  | _ + 1, _, [] => none

def codedChar? (count : Nat) (rest : List Char) : Option (Char × Nat) := do
  let code ← hexNumber? count 0 rest
  if (0xD800 ≤ code && code ≤ 0xDFFF) || code > 0x10FFFF then none
  else some (Char.ofNat code, count + 2)

/-- The character of an escape and the length of what it was written as. -/
def escape? : List Char → Option (Char × Nat)
  | '0' :: _ => some ('\x00', 2)
  | 'a' :: _ => some ('\x07', 2)
  | 'b' :: _ => some ('\x08', 2)
  | 't' :: _ | '\t' :: _ => some ('\t', 2)
  | 'n' :: _ => some ('\n', 2)
  | 'v' :: _ => some ('\x0b', 2)
  | 'f' :: _ => some ('\x0c', 2)
  | 'r' :: _ => some ('\r', 2)
  | 'e' :: _ => some ('\x1b', 2)
  | ' ' :: _ => some (' ', 2)
  | '"' :: _ => some ('"', 2)
  | '/' :: _ => some ('/', 2)
  | '\\' :: _ => some ('\\', 2)
  | 'N' :: _ => some ('\x85', 2)
  | '_' :: _ => some ('\xa0', 2)
  | 'L' :: _ => some ('\u2028', 2)
  | 'P' :: _ => some ('\u2029', 2)
  | 'x' :: rest => codedChar? 2 rest
  | 'u' :: rest => codedChar? 4 rest
  | 'U' :: rest => codedChar? 8 rest
  | _ => none

/-- Characters of a quoted scalar up to a blank, a break or the closing quote; a backslash at a
line end joins the lines. -/
def scanQuotedWord (single : Bool) : (fuel : Nat) → Cursor →
    ScanResult (List Char × Bool × Cursor)
  | 0, cursor => return ([], false, cursor)
  | fuel + 1, cursor =>
    match cursor.rest with
    | [] => return ([], false, cursor)
    | c :: rest => do
      if isGap c || isBreak c then return ([], false, cursor)
      else if single && c = '\'' && rest.head? = some '\'' then
        let (text, joined, behind) ← scanQuotedWord single fuel (moved cursor 2)
        return ('\'' :: text, joined, behind)
      else if c = (if single then '\'' else '"') then return ([], false, cursor)
      else if !single && c = '\\' then
        if rest.head?.any isBreak then return ([], true, cursor.next.nextLine.2)
        else match escape? rest with
          | none => throw .badEscape
          | some (c, length) =>
            let (text, joined, behind) ← scanQuotedWord single fuel (moved cursor length)
            return (c :: text, joined, behind)
      else
        let (text, joined, behind) ← scanQuotedWord single fuel cursor.next
        return (c :: text, joined, behind)

/-- Scans a quoted scalar after its opening quote. -/
def scanQuoted (single : Bool) : (fuel : Nat) → (text : List Char) → Cursor →
    ScanResult (List Char × Cursor)
  | 0, _, _ => throw .unterminatedScalar
  | fuel + 1, text, cursor => do
    if cursor.atDocumentMark then throw .documentInScalar
    if cursor.rest.isEmpty then throw .unterminatedScalar
    let (word, joined, behind) ← scanQuotedWord single (cursor.rest.length + 1) cursor
    let text := text ++ word
    if !joined && behind.rest.head? = some (if single then '\'' else '"') then
      return (text, behind.next)
    let (gap, behind) ← scanGap none (behind.rest.length + 1) ⟨[], joined, [], []⟩ behind
    scanQuoted single fuel (text ++ gap.joined) behind

end ContractBuild.Yaml
