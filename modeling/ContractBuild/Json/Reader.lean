import ContractBuild.Json
import ContractBuild.Text
/-!
Reading JSON. `Json.scan?` accepts exactly one value between blanks and keeps what it cannot
read as `unreadable`, because a caller may skip it; `Json.read?` wants all of it readable and
lets the last of several members with one key win.
-/
namespace ContractBuild.Json
open Text

/-- How deeply arrays and objects may be nested. -/
def depthLimit : Nat := 127

def isSpace (c : Char) : Bool :=
  c = ' ' || c = '\n' || c = '\t' || c = '\r'

def skipSpace (text : List Char) : List Char :=
  text.dropWhile isSpace

def hexValue? (c : Char) : Option Nat :=
  if Numeral.isDigit c then some (c.toNat - 48)
  else if 'a' ≤ c && c ≤ 'f' then some (c.toNat - 87)
  else if 'A' ≤ c && c ≤ 'F' then some (c.toNat - 55)
  else none

def hexUnit? : List Char → Option (Nat × List Char)
  | a :: b :: c :: d :: text => do
    let unit := (← hexValue? a) * 4096 + (← hexValue? b) * 256 + (← hexValue? c) * 16 + (← hexValue? d)
    some (unit, text)
  | _ => none

def plainEscape? : Char → Option Char
  | '"' => some '"'
  | '\\' => some '\\'
  | '/' => some '/'
  | 'b' => some '\x08'
  | 'f' => some '\x0c'
  | 'n' => some '\n'
  | 'r' => some '\r'
  | 't' => some '\t'
  | _ => none

/-- A half surrogate: neither a character nor the start of a pair. -/
inductive Escape
  | whole (c : Char)
  | half

/-- Reads the unit after a backslash and the letter u. -/
def unicodeEscape? (text : List Char) : Option (Escape × List Char) := do
  let (high, rest) ← hexUnit? text
  if 0xDC00 ≤ high && high ≤ 0xDFFF then some (.half, rest)
  else if 0xD800 ≤ high && high ≤ 0xDBFF then
    match rest with
    | '\\' :: 'u' :: tail =>
      let (low, after) ← hexUnit? tail
      if 0xDC00 ≤ low && low ≤ 0xDFFF then
        some (.whole (Char.ofNat (0x10000 + (high - 0xD800) * 0x400 + (low - 0xDC00))), after)
      else some (.half, rest)
    | _ => some (.half, rest)
  else some (.whole (Char.ofNat high), rest)

/-- Reads a string after its opening quote: its characters, or none if a half surrogate is
among them, and what follows the closing quote. -/
def scanString? : (fuel : Nat) → List Char → Option (Option (List Char) × List Char)
  | 0, _ => none
  | fuel + 1, text =>
    match text with
    | [] => none
    | '"' :: rest => some (some [], rest)
    | '\\' :: 'u' :: rest => do
      let (unit, rest) ← unicodeEscape? rest
      let (tail, rest) ← scanString? fuel rest
      match unit with
      | .whole c => some (tail.map (c :: ·), rest)
      | .half => some (none, rest)
    | '\\' :: c :: rest => do
      let c ← plainEscape? c
      let (tail, rest) ← scanString? fuel rest
      some (tail.map (c :: ·), rest)
    | c :: rest =>
      if c.toNat < 0x20 then none
      else do
        let (tail, rest) ← scanString? fuel rest
        some (tail.map (c :: ·), rest)

def takeDigits (text : List Char) : List Char × List Char :=
  (text.takeWhile Numeral.isDigit, text.dropWhile Numeral.isDigit)

/-- The parts of a number: digits before and after the point, and the exponent. -/
structure Literal where
  negative : Bool
  whole : List Char
  fraction : List Char
  exponent : Int
  integral : Bool

def scanFraction? : List Char → Option (Option (List Char) × List Char)
  | '.' :: rest =>
    let (digits, rest) := takeDigits rest
    if digits.isEmpty then none else some (some digits, rest)
  | rest => some (none, rest)

def scanExponent? : List Char → Option (Option Int × List Char)
  | c :: rest =>
    if c = 'e' || c = 'E' then
      let (down, rest) := match rest with
        | '+' :: rest => (false, rest)
        | '-' :: rest => (true, rest)
        | rest => (false, rest)
      let (digits, rest) := takeDigits rest
      if digits.isEmpty then none
      else
        let size : Int := Numeral.accumulate 0 digits
        some (some (if down then -size else size), rest)
    else some (none, c :: rest)
  | [] => some (none, [])

def scanLiteral? (text : List Char) : Option (Literal × List Char) := do
  let (negative, text) := match text with
    | '-' :: rest => (true, rest)
    | rest => (false, rest)
  let (whole, text) := takeDigits text
  match whole with
  | [] => none
  | '0' :: _ :: _ => none
  | _ =>
    let (fraction, text) ← scanFraction? text
    let (exponent, text) ← scanExponent? text
    some (⟨negative, whole, fraction.getD [], exponent.getD 0,
      fraction.isNone && exponent.isNone⟩, text)

/-- Whether the magnitude rounds to a finite binary floating-point number of 64 bits. -/
def Literal.finite (literal : Literal) : Bool :=
  let significand := Numeral.accumulate 0 (literal.whole ++ literal.fraction)
  let scale := literal.exponent - literal.fraction.length
  let size := (Numeral.digits significand).length
  if significand = 0 then true
  else if scale + size > 310 then false
  else if scale + size < 300 then true
  else if 0 ≤ scale then significand * Nat.pow 10 scale.toNat < Nat.pow 2 1024 - Nat.pow 2 970
  else significand < (Nat.pow 2 1024 - Nat.pow 2 970) * Nat.pow 10 (-scale).toNat

def Literal.toJson (literal : Literal) (written : List Char) : Json :=
  let value := Numeral.accumulate 0 literal.whole
  if literal.integral && !literal.negative && value ≤ Numeral.wordMax then natural value
  else if literal.finite then decimal (String.ofList written)
  else unreadable

def keyword? (text : List Char) : Option (Json × List Char) :=
  match stripLead? "null".toList text, stripLead? "true".toList text,
    stripLead? "false".toList text with
  | some rest, _, _ => some (null, rest)
  | _, some rest, _ => some (bool true, rest)
  | _, _, some rest => some (bool false, rest)
  | _, _, _ => none

/-- An array that may hold only what a reader can read. -/
def arrayIn (room : Nat) (items : List Json) : Json :=
  if room = 0 then unreadable else array items

def objectIn (room : Nat) (members : List (Option String × Json)) : Json :=
  if room = 0 then unreadable
  else match members.mapM fun (key, value) => key.map (·, value) with
    | some members => object members
    | none => unreadable

mutual

/-- Reads one value; `room` is how many more levels of nesting are allowed. -/
def scanValue? : (fuel : Nat) → (room : Nat) → List Char → Option (Json × List Char)
  | 0, _, _ => none
  | fuel + 1, room, text =>
    match text with
    | '"' :: rest => do
      let (chars, rest) ← scanString? (rest.length + 1) rest
      some (match chars with
        | some chars => string (String.ofList chars)
        | none => unreadable, rest)
    | '[' :: rest =>
      match skipSpace rest with
      | ']' :: rest => some (arrayIn room [], rest)
      | rest => do
        let (items, rest) ← scanItems? fuel (room - 1) rest
        some (arrayIn room items, rest)
    | '\x7b' :: rest =>
      match skipSpace rest with
      | '\x7d' :: rest => some (objectIn room [], rest)
      | rest => do
        let (members, rest) ← scanMembers? fuel (room - 1) rest
        some (objectIn room members, rest)
    | c :: rest =>
      if c = '-' || Numeral.isDigit c then do
        let (literal, after) ← scanLiteral? (c :: rest)
        some (literal.toJson ((c :: rest).take (rest.length + 1 - after.length)), after)
      else keyword? (c :: rest)
    | [] => none

/-- Reads a nonempty run of items and the closing bracket. -/
def scanItems? : (fuel : Nat) → (room : Nat) → List Char → Option (List Json × List Char)
  | 0, _, _ => none
  | fuel + 1, room, text => do
    let (item, rest) ← scanValue? fuel room text
    match skipSpace rest with
    | ',' :: rest =>
      let (items, rest) ← scanItems? fuel room (skipSpace rest)
      some (item :: items, rest)
    | ']' :: rest => some ([item], rest)
    | _ => none

/-- Reads a nonempty run of members and the closing brace. -/
def scanMembers? : (fuel : Nat) → (room : Nat) → List Char →
    Option (List (Option String × Json) × List Char)
  | 0, _, _ => none
  | fuel + 1, room, text =>
    match text with
    | '"' :: rest => do
      let (key, rest) ← scanString? (rest.length + 1) rest
      let key := key.map String.ofList
      match skipSpace rest with
      | ':' :: rest =>
        let (value, rest) ← scanValue? fuel room (skipSpace rest)
        match skipSpace rest with
        | ',' :: rest =>
          let (members, rest) ← scanMembers? fuel room (skipSpace rest)
          some ((key, value) :: members, rest)
        | '\x7d' :: rest => some ([(key, value)], rest)
        | _ => none
      | _ => none
    | _ => none

end

/-- The one value of a text. -/
def scan? (text : String) : Option Json := do
  let chars := skipSpace text.toList
  let (value, rest) ← scanValue? (2 * chars.length + 2) depthLimit chars
  if (skipSpace rest).isEmpty then some value else none

mutual

def isReadable : Json → Bool
  | array items => areReadable items
  | object members => memberReadable members
  | unreadable => false
  | _ => true

def areReadable : List Json → Bool
  | [] => true
  | item :: items => isReadable item && areReadable items

def memberReadable : List (String × Json) → Bool
  | [] => true
  | (_, value) :: members => isReadable value && memberReadable members

end

/-- Drops every member that a later one with the same key replaces. -/
def lastOfEach (members : List (String × α)) : List (String × α) :=
  match members with
  | [] => []
  | (key, value) :: rest =>
    if rest.any (·.1 = key) then lastOfEach rest else (key, value) :: lastOfEach rest

mutual

/-- Keeps the last member of each key, at every level. -/
def lastWins : Json → Json
  | array items => array (itemsLastWin items)
  | object members => object (lastOfEach (membersLastWin members))
  | value => value

def itemsLastWin : List Json → List Json
  | [] => []
  | item :: items => lastWins item :: itemsLastWin items

def membersLastWin : List (String × Json) → List (String × Json)
  | [] => []
  | (key, value) :: members => (key, lastWins value) :: membersLastWin members

end

def read? (text : String) : Option Json :=
  ((scan? text).filter isReadable).map lastWins

end ContractBuild.Json
