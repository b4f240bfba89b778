import ContractBuild.Json.Reader
/-!
Typed reading of JSON values. A record is an object whose known keys occur at most once, or an
array with the fields in order; a tagged record carries its tag under a key or as the first
element.
-/
namespace ContractBuild.Json

def asString? : Json → Option String
  | string text => some text
  | _ => none

def asBool? : Json → Option Bool
  | bool value => some value
  | _ => none

def asNatural? : Json → Option Nat
  | natural value => some value
  | _ => none

/-- Null stands for absence. -/
def asOption? (decode : Json → Option α) : Json → Option (Option α)
  | null => some none
  | value => (decode value).map some

def asList? (decode : Json → Option α) : Json → Option (List α)
  | array items => items.mapM decode
  | _ => none

/-- The value of a key that occurs at most once. -/
def member? (members : List (String × Json)) (key : String) : Option (Option Json) :=
  match members.filter (·.1 = key) with
  | [] => some none
  | [(_, value)] => some (some value)
  | _ => none

/-- The fields of a record in the order of `keys`, each present or absent. -/
def fields? (keys : List String) : Json → Option (List (Option Json))
  | object members => keys.mapM (member? members)
  | array items =>
    if items.length ≤ keys.length then
      some ((items.map some) ++ List.replicate (keys.length - items.length) none)
    else none
  | _ => none

/-- A field that has to be there. -/
def required? (decode : Json → Option α) : Option Json → Option α
  | none => none
  | some value => decode value

/-- A field with a value for its absence. -/
def defaulted? (value : α) (decode : Json → Option α) : Option Json → Option α
  | none => some value
  | some json => decode json

/-- A field that may be absent or null. -/
def optional? (decode : Json → Option α) : Option Json → Option (Option α) :=
  defaulted? none (asOption? decode)

/-- The tag of a tagged record and the record without it. All of the record is read, whatever
the tag turns out to be. -/
def tagged? (key : String) (value : Json) : Option (String × Json) :=
  if !isReadable value then none
  else match value with
    | object members =>
      match members.filter (·.1 = key) with
      | [(_, string tag)] => some (tag, object (members.filter (·.1 ≠ key)))
      | _ => none
    | array (string tag :: items) => some (tag, array items)
    | _ => none

/-- The name of a case without data: a string, or an object with the name as its only key and
a value that says nothing. -/
def case? (isNothing : Json → Bool) : Json → Option String
  | string name => some name
  | object [(name, value)] => if isNothing value then some name else none
  | _ => none

end ContractBuild.Json
