import ContractBuild.Text
import ContractBuild.Text.LetterCase
import ContractBuild.Text.Numeral
/-!
Names in generated code: case conventions, characters that an identifier may hold, and names
that differ from all earlier ones.
-/
namespace ContractBuild.Name
open Text

def capitalized : List Char → List Char
  | [] => []
  | c :: rest => uppercased c ++ rest

/-- `locked__end` becomes `LockedEnd`. -/
def pascalCase (name : String) : String :=
  String.ofList ((splitOn '_' name.toList).flatMap capitalized)

def snakeChars (afterSmall : Bool) : List Char → List Char
  | [] => []
  | c :: rest =>
    if isUppercase c then
      (if afterSmall then ['_'] else []) ++ lowercased c ++ snakeChars false rest
    else c :: snakeChars (isLowercase c || Numeral.isDigit c) rest

/-- `VotingEscrow` becomes `voting_escrow`. -/
def snakeCase (name : String) : String :=
  String.ofList (snakeChars false name.toList)

def isIdentifierChar (c : Char) : Bool :=
  c.isAlphanum || c = '_'

/-- The name with every character that an identifier cannot hold replaced by an underscore, led
by one more where it would begin with a digit; the fallback where nothing else remains. -/
def identifier (fallback name : String) : String :=
  let cleaned := name.toList.map fun c => if isIdentifierChar c then c else '_'
  match cleaned with
  | [] => fallback
  | c :: _ =>
    if cleaned.all (· = '_') then fallback
    else if Numeral.isDigit c then String.ofList ('_' :: cleaned)
    else String.ofList cleaned

/-- The name itself, or the name with the least number from 2 upwards that is not taken. One of
`seen.length + 1` numbers is free, so the search ends. -/
def fresh (seen : List String) (name : String) : String :=
  if name ∈ seen then
    (((List.range (seen.length + 1)).map fun n => name ++ Numeral.render (n + 2)).find?
      (· ∉ seen)).getD name
  else name

/-- Fresh names for a list of wishes, each also different from those before it. -/
def freshAll (seen : List String) : List String → List String
  | [] => []
  | name :: names =>
    let chosen := fresh seen name
    chosen :: freshAll (chosen :: seen) names

end ContractBuild.Name
