import ContractBuild.Text
import ContractBuild.Text.Numeral
/-!
Places in a YAML stream with their line and column.
-/
namespace ContractBuild.Yaml
open Text

/-- A place in the text. -/
structure Cursor where
  rest : List Char
  index : Nat
  line : Nat
  column : Nat

def isBreak (c : Char) : Bool :=
  c = '\n' || c = '\r' || c = '\x85' || c = '\u2028' || c = '\u2029'

def isGap (c : Char) : Bool :=
  c = ' ' || c = '\t'

/-- Whether a word ends here: at a blank, at a line break or at the end. -/
def endsWord : List Char → Bool
  | [] => true
  | c :: _ => isGap c || isBreak c

def endsLine : List Char → Bool
  | [] => true
  | c :: _ => isBreak c

def isWordChar (c : Char) : Bool :=
  c.isAlphanum || c = '_' || c = '-'

namespace Cursor

def next (cursor : Cursor) : Cursor :=
  match cursor.rest with
  | [] => cursor
  | _ :: rest => { cursor with rest, index := cursor.index + 1, column := cursor.column + 1 }

/-- Moves behind a line break and gives the break that scalars hold for it. -/
def nextLine (cursor : Cursor) : List Char × Cursor :=
  let behind (rest : List Char) (length : Nat) : Cursor :=
    { rest, index := cursor.index + length, line := cursor.line + 1, column := 0 }
  match cursor.rest with
  | '\r' :: '\n' :: rest => (['\n'], behind rest 2)
  | c :: rest =>
    if c = '\n' || c = '\r' || c = '\x85' then (['\n'], behind rest 1)
    else if c = '\u2028' || c = '\u2029' then ([c], behind rest 1)
    else ([], cursor)
  | [] => ([], cursor)

/-- The characters up to the first one that fails, none of which may be a line break. -/
def span (p : Char → Bool) (cursor : Cursor) : List Char × Cursor :=
  let taken := cursor.rest.takeWhile p
  (taken, {
    cursor with
    rest := cursor.rest.drop taken.length
    index := cursor.index + taken.length
    column := cursor.column + taken.length })

def skip (p : Char → Bool) (cursor : Cursor) : Cursor :=
  (cursor.span p).2

def toLineEnd (cursor : Cursor) : List Char × Cursor :=
  cursor.span fun c => !isBreak c

/-- Skips a byte order mark at the beginning of a line, which takes up a column. -/
def skipMark (cursor : Cursor) : Cursor :=
  if cursor.column = 0 && cursor.rest.head? = some '\uFEFF' then cursor.next else cursor

def skipComment (cursor : Cursor) : Cursor :=
  match cursor.rest with
  | '#' :: _ => cursor.toLineEnd.2
  | _ => cursor

/-- Whether a document indicator stands here. -/
def atDocumentMark (cursor : Cursor) : Bool :=
  cursor.column = 0 && match cursor.rest with
    | '-' :: '-' :: '-' :: rest => endsWord rest
    | '.' :: '.' :: '.' :: rest => endsWord rest
    | _ => false

/-- Moves on within a line. -/
def moved (cursor : Cursor) (count : Nat) : Cursor :=
  { cursor with
    rest := cursor.rest.drop count
    index := cursor.index + count
    column := cursor.column + count }

end Cursor

end ContractBuild.Yaml
