import ContractBuild.Yaml.Cursor
import ContractBuild.Yaml.Token
/-!
Block scalars: indented lines behind an indicator that says whether line breaks are kept, and what
becomes of those at the end.
-/
namespace ContractBuild.Yaml
open Text Cursor

/-- What happens to the line breaks at the end of a block scalar. -/
inductive Chomping
  | strip
  | clip
  | keep
  deriving DecidableEq

def chomping? : Char → Option Chomping
  | '+' => some .keep
  | '-' => some .strip
  | _ => none

def increment? (c : Char) : Option (ScanResult Nat) :=
  if !Numeral.isDigit c then none
  else if c = '0' then some (throw .badBlockHeader)
  else some (return Numeral.digitValue c)

/-- Reads the header of a block scalar: chomping and indentation, in either order. -/
def scanHeader (cursor : Cursor) : ScanResult (Chomping × Option Nat × Cursor) := do
  let mut chomping := Chomping.clip
  let mut increment : Option Nat := none
  let mut cursor := cursor
  match cursor.rest with
  | c :: rest =>
    match chomping? c, increment? c with
    | some mode, _ =>
      chomping := mode
      cursor := cursor.next
      match rest.head?.bind increment? with
      | some amount =>
        increment := some (← amount)
        cursor := cursor.next
      | none => pure ()
    | none, some amount =>
      increment := some (← amount)
      cursor := cursor.next
      match rest.head?.bind chomping? with
      | some mode =>
        chomping := mode
        cursor := cursor.next
      | none => pure ()
    | none, none => pure ()
  | [] => pure ()
  cursor := (cursor.skip isGap).skipComment
  if !endsLine cursor.rest then throw .badBlockHeader
  return (chomping, increment, cursor.nextLine.2)

/-- Takes empty lines in front of a line of a block scalar. Without a known indentation the
deepest blank line seen is given back. -/
def scanEmptyLines (indent : Option Nat) : (fuel : Nat) → (deepest : Nat) →
    (breaks : List Char) → Cursor → ScanResult (Nat × List Char × Cursor)
  | 0, deepest, breaks, cursor => return (deepest, breaks, cursor)
  | fuel + 1, deepest, breaks, cursor => do
    let room := match indent with
      | none => cursor.rest.length
      | some indent => indent - cursor.column
    let blanks := (cursor.rest.take room).takeWhile (· = ' ')
    let cursor := moved cursor blanks.length
    let deepest := max deepest cursor.column
    let shallow := indent.all fun indent => cursor.column < indent
    match cursor.rest with
    | c :: _ =>
      if shallow && c = '\t' then throw .tabIndentation
      else if isBreak c then
        let (lineBreak, cursor) := cursor.nextLine
        scanEmptyLines indent fuel deepest (breaks ++ lineBreak) cursor
      else return (deepest, breaks, cursor)
    | [] => return (deepest, breaks, cursor)

/-- The text of a block scalar so far: its lines, the break behind the last one, the empty
lines behind that, and whether the last line began with a blank. -/
structure BlockText where
  text : List Char
  lineBreak : List Char
  empty : List Char
  blankStart : Bool

def scanBlockLines (literal : Bool) (indent : Nat) : (fuel : Nat) → BlockText → Cursor →
    ScanResult (BlockText × Cursor)
  | 0, block, cursor => return (block, cursor)
  | fuel + 1, block, cursor => do
    match cursor.rest with
    | [] => return (block, cursor)
    | c :: _ =>
      if cursor.column ≠ indent then return (block, cursor)
      let blank := isGap c
      let join :=
        if !literal && block.lineBreak = ['\n'] && !block.blankStart && !blank then
          if block.empty.isEmpty then [' '] else []
        else block.lineBreak
      let (line, cursor) := cursor.toLineEnd
      let (lineBreak, cursor) := cursor.nextLine
      let (_, empty, cursor) ← scanEmptyLines (some indent) (cursor.rest.length + 1) 0 [] cursor
      scanBlockLines literal indent fuel
        ⟨block.text ++ join ++ block.empty ++ line, lineBreak, empty, blank⟩ cursor

/-- Scans a block scalar after its indicator. -/
def scanBlock (literal : Bool) (parent : Int) (cursor : Cursor) :
    ScanResult (List Char × Cursor) := do
  let (chomping, increment, cursor) ← scanHeader cursor
  let fuel := cursor.rest.length + 1
  let known := increment.map fun amount => (if parent < 0 then (amount : Int) else parent + amount).toNat
  let (deepest, empty, cursor) ← scanEmptyLines known fuel 0 [] cursor
  let indent := known.getD (max (max (deepest : Int) (parent + 1)) 1).toNat
  let (block, cursor) ← scanBlockLines literal indent fuel ⟨[], [], empty, false⟩ cursor
  let tail := match chomping with
    | .strip => []
    | .clip => block.lineBreak
    | .keep => block.lineBreak ++ block.empty
  return (block.text ++ tail, cursor)

end ContractBuild.Yaml
