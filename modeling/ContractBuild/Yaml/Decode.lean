import ContractBuild.Yaml.Reader
/-!
Typed reading of YAML. A scalar of any kind is a string where a string is wanted; only a plain
scalar, or a literal one that is tagged so, can be a number or a truth value. What is left empty
is an empty collection.
-/
namespace ContractBuild.Yaml
open Text

def asString? : Yaml → Option String
  | scalar _ _ text => some text
  | _ => none

def isNull (text : String) : Bool :=
  text ∈ ["null", "Null", "NULL", "~"]

/-- The full name of a tag of the core schema. -/
def coreTag (name : String) : String :=
  "tag:yaml.org,2002:" ++ name

/-- The text of a scalar that can be something else than a string. -/
def asOpenText? (kind : String) : Yaml → Option String
  | scalar _ .plain text => some text
  | scalar (some tag) .literal text => if tag = coreTag kind then some text else none
  | _ => none

def asBool? (value : Yaml) : Option Bool := do
  let text ← asOpenText? "bool" value
  if text ∈ ["true", "True", "TRUE"] then some true
  else if text ∈ ["false", "False", "FALSE"] then some false
  else none

def digitIn? (radix : Nat) (c : Char) : Option Nat :=
  let value :=
    if Numeral.isDigit c then some (c.toNat - 48)
    else if 'a' ≤ c && c ≤ 'f' then some (c.toNat - 87)
    else if 'A' ≤ c && c ≤ 'F' then some (c.toNat - 55)
    else none
  value.filter (· < radix)

def numeralIn? (radix : Nat) (text : List Char) : Option Nat :=
  if text.isEmpty then none
  else text.foldlM (fun number c => (digitIn? radix c).map (number * radix + ·)) 0

/-- Zeros in front of further digits make a string. -/
def isZeroLed : List Char → Bool
  | '0' :: c :: rest => (c :: rest).all Numeral.isDigit
  | _ => false

/-- The number that a plain scalar spells, if it is at most `limit`: decimal, or hexadecimal,
octal or binary behind a mark. -/
def naturalOf? (limit : Nat) (text : List Char) : Option Nat :=
  let unsigned := match text with
    | '+' :: rest => rest
    | text => text
  let found := match unsigned with
    | '0' :: 'x' :: rest => numeralIn? 16 rest
    | '0' :: 'o' :: rest => numeralIn? 8 rest
    | '0' :: 'b' :: rest => numeralIn? 2 rest
    | digits => if isZeroLed digits then none else numeralIn? 10 digits
  found.filter (· ≤ limit)

def asNatural? (limit : Nat) (value : Yaml) : Option Nat := do
  naturalOf? limit (← asOpenText? "int" value).toList

/-- An empty or null plain scalar stands for absence. With the tag of absence it can be nothing
else, with any other tag it is a value. -/
def asOption? (decode : Yaml → Option α) (value : Yaml) : Option (Option α) :=
  match value with
  | scalar none .plain text =>
    if text.isEmpty || isNull text then some none else (decode value).map some
  | scalar (some tag) .plain text =>
    if tag ≠ coreTag "null" then (decode value).map some
    else if isNull text then some none
    else none
  | value => (decode value).map some

def asList? (decode : Yaml → Option α) : Yaml → Option (List α)
  | sequence _ items => items.mapM decode
  | scalar _ .plain "" => some []
  | _ => none

/-- The name in a tag of one's own. -/
def localTag? (tag : String) : Option String :=
  match tag.toList with
  | ['!'] => some tag
  | '!' :: rest => some (String.ofList rest)
  | _ => none

/-- The case named by a string, or by a tag of one's own on nothing. -/
def asCase? (value : Yaml) : Option String :=
  match value.tag?.bind localTag?, value with
  | some name, scalar _ .plain text => if text.isEmpty || isNull text then some name else none
  | some _, _ => none
  | none, _ => asString? value

/-- The members of a record. Every key has to be a scalar. -/
def members? : Yaml → Option (List (String × Yaml))
  | mapping _ pairs => pairs.mapM fun (key, value) => (asString? key).map (·, value)
  | scalar _ .plain "" => some []
  | _ => none

/-- The field under one of its names. A field may occur once, whatever it is called. -/
def field? (members : List (String × Yaml)) (names : List String) : Option (Option Yaml) :=
  match members.filter (·.1 ∈ names) with
  | [] => some none
  | [(_, value)] => some (some value)
  | _ => none

/-- A field that has to be there. -/
def required? (members : List (String × Yaml)) (names : List String) (decode : Yaml → Option α) :
    Option α := do
  match ← field? members names with
  | none => none
  | some value => decode value

/-- A field with a value for its absence. -/
def defaulted? (members : List (String × Yaml)) (names : List String) (value : α)
    (decode : Yaml → Option α) : Option α := do
  match ← field? members names with
  | none => some value
  | some yaml => decode yaml

end ContractBuild.Yaml
