import ContractBuild.Text.Numeral
/-!
JSON values and their text. An object keeps its members as they were written, repeated keys
included, so that a reader can decide what a repetition means. `Json.write` lays a value out on
one line or indented; both layouts have the same tokens.
-/
namespace ContractBuild

/-- A value as it stands in a text. `decimal` is a number that is no unsigned machine word and
is kept as its literal. `unreadable` stands for well-formed text that can be skipped but not
read: nesting beyond the limit, a half surrogate, or a number without a finite value. -/
inductive Json
  | null
  | bool (value : Bool)
  | natural (value : Nat)
  | decimal (literal : String)
  | string (value : String)
  | array (items : List Json)
  | object (members : List (String × Json))
  | unreadable

namespace Json
open Text

def hexDigitOf (n : Nat) : Char :=
  if n < 10 then Char.ofNat (n + 48) else Char.ofNat (n + 87)

/-- A character inside a string literal: quotes, backslashes and controls are escaped, all else
stands for itself. -/
def escaped (c : Char) : List Char :=
  match c with
  | '"' => ['\\', '"']
  | '\\' => ['\\', '\\']
  | '\x08' => ['\\', 'b']
  | '\x0c' => ['\\', 'f']
  | '\n' => ['\\', 'n']
  | '\r' => ['\\', 'r']
  | '\t' => ['\\', 't']
  | c =>
    if c.toNat < 0x20 then
      ['\\', 'u', '0', '0', hexDigitOf (c.toNat / 16), hexDigitOf (c.toNat % 16)]
    else [c]

def quoted (text : String) : List Char :=
  '"' :: text.toList.flatMap escaped ++ ['"']

/-- What separates two tokens where a line may end: nothing, or a line feed and the indentation
of the level, `spacing` blanks deep each. -/
def lineBreak (spacing level : Nat) : List Char :=
  if spacing = 0 then [] else '\n' :: List.replicate (spacing * level) ' '

def colon (spacing : Nat) : List Char :=
  if spacing = 0 then [':'] else [':', ' ']

mutual

def chars (spacing level : Nat) : Json → List Char
  | null => "null".toList
  | bool true => "true".toList
  | bool false => "false".toList
  | natural n => Numeral.digits n
  | decimal literal => literal.toList
  | string text => quoted text
  | array [] => ['[', ']']
  | array (item :: items) =>
    '[' :: lineBreak spacing (level + 1) ++ chars spacing (level + 1) item
      ++ itemChars spacing level items
  | object [] => ['\x7b', '\x7d']
  | object ((key, value) :: members) =>
    '\x7b' :: lineBreak spacing (level + 1) ++ quoted key ++ colon spacing
      ++ chars spacing (level + 1) value ++ memberChars spacing level members
  | unreadable => []

/-- The items after the first one and the closing bracket. -/
def itemChars (spacing level : Nat) : List Json → List Char
  | [] => lineBreak spacing level ++ [']']
  | item :: items =>
    ',' :: lineBreak spacing (level + 1) ++ chars spacing (level + 1) item
      ++ itemChars spacing level items

/-- The members after the first one and the closing brace. -/
def memberChars (spacing level : Nat) : List (String × Json) → List Char
  | [] => lineBreak spacing level ++ ['\x7d']
  | (key, value) :: members =>
    ',' :: lineBreak spacing (level + 1) ++ quoted key ++ colon spacing
      ++ chars spacing (level + 1) value ++ memberChars spacing level members

end

/-- A spacing of zero writes the value without any blank. -/
def write (spacing : Nat) (value : Json) : String :=
  String.ofList (chars spacing 0 value)

def compact (value : Json) : String :=
  write 0 value

/-- A string, or nothing for an absent one. -/
def ofOption (encode : α → Json) : Option α → Json
  | none => null
  | some value => encode value

def ofStrings (texts : List String) : Json :=
  array (texts.map string)

end Json
end ContractBuild
