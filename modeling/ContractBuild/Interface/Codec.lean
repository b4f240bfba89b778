import ContractBuild.Interface
import ContractBuild.Json.Decode
/-!
The JSON form of interfaces. Reading takes a bare array of entries or an object that carries one
under `abi`; writing gives the array, with absent optional fields left out.
-/
namespace ContractBuild
open Json

namespace Mutability

def ofText? : String → Option Mutability
  | "pure" => some pure
  | "view" => some view
  | "nonpayable" => some nonpayable
  | "payable" => some payable
  | _ => none

def isNothing : Json → Bool
  | .null | .object [] => true
  | _ => false

def ofJson? (value : Json) : Option Mutability := do
  ofText? (← case? isNothing value)

end Mutability

namespace Param

mutual

def toJson : Param → Json
  | ⟨name, type, internalType, components, indexed⟩ =>
    .object ([("name", .string name), ("type", .string type)]
      ++ (internalType.map fun text => ("internalType", Json.string text)).toList
      ++ (match components with
        | none => []
        | some params => [("components", .array (listToJson params))])
      ++ (indexed.map fun flag => ("indexed", Json.bool flag)).toList)

def listToJson : List Param → List Json
  | [] => []
  | param :: params => toJson param :: listToJson params

end

def assemble? (name type internalType : Option Json) (components : Option (List Param))
    (indexed : Option Json) : Option Param := do
  return {
    name := ← defaulted? "" asString? name
    type := ← required? asString? type
    internalType := ← optional? asString? internalType
    components
    indexed := ← optional? asBool? indexed }

mutual

def ofJson? : Json → Option Param
  | .object members => do
    let _ ← member? members "components"
    assemble? (← member? members "name") (← member? members "type")
      (← member? members "internalType") (← componentsAmong? members) (← member? members "indexed")
  | .array [name, type] => assemble? (some name) (some type) none none none
  | .array [name, type, internalType] => assemble? (some name) (some type) (some internalType) none none
  | .array [name, type, internalType, components] => do
    assemble? (some name) (some type) (some internalType) (← components? components) none
  | .array [name, type, internalType, components, indexed] => do
    assemble? (some name) (some type) (some internalType) (← components? components) (some indexed)
  | _ => none

/-- The tuple members that an object declares. -/
def componentsAmong? : List (String × Json) → Option (Option (List Param))
  | [] => some none
  | (key, value) :: members =>
    if key = "components" then components? value else componentsAmong? members

def components? : Json → Option (Option (List Param))
  | .null => some none
  | .array items => (listOfJson? items).map some
  | _ => none

def listOfJson? : List Json → Option (List Param)
  | [] => some []
  | item :: items => do return (← ofJson? item) :: (← listOfJson? items)

end

def manyOfJson? : Json → Option (List Param)
  | .array items => listOfJson? items
  | _ => none

end Param

namespace Item

def params (list : List Param) : Json :=
  .array (Param.listToJson list)

def toJson : Item → Json
  | function name inputs outputs mutability gas =>
    .object ([("type", .string "function"), ("name", .string name), ("inputs", params inputs),
        ("outputs", params outputs), ("stateMutability", .string mutability.text)]
      ++ (gas.map fun amount => ("gas", Json.natural amount)).toList)
  | event name inputs anonymous =>
    .object [("type", .string "event"), ("name", .string name), ("inputs", params inputs),
      ("anonymous", .bool anonymous)]
  | error name inputs =>
    .object [("type", .string "error"), ("name", .string name), ("inputs", params inputs)]
  | constructor inputs mutability =>
    .object [("type", .string "constructor"), ("inputs", params inputs),
      ("stateMutability", .string mutability.text)]
  | fallback mutability =>
    .object [("type", .string "fallback"), ("stateMutability", .string mutability.text)]
  | receive mutability =>
    .object [("type", .string "receive"), ("stateMutability", .string mutability.text)]

def paramsOr? : Option Json → Option (List Param) :=
  defaulted? [] Param.manyOfJson?

def mutabilityOr? : Option Json → Option Mutability :=
  defaulted? .nonpayable Mutability.ofJson?

/-- The entry of a kind from the fields that go with it. -/
def ofFields? (kind : String) (rest : Json) : Option Item :=
  match kind with
  | "function" => do
    match ← fields? ["name", "inputs", "outputs", "stateMutability", "gas"] rest with
    | [name, inputs, outputs, mutability, gas] =>
      return function (← required? asString? name) (← paramsOr? inputs) (← paramsOr? outputs)
        (← mutabilityOr? mutability) (← optional? asNatural? gas)
    | _ => none
  | "event" => do
    match ← fields? ["name", "inputs", "anonymous"] rest with
    | [name, inputs, anonymous] =>
      return event (← required? asString? name) (← paramsOr? inputs)
        (← defaulted? false asBool? anonymous)
    | _ => none
  | "error" => do
    match ← fields? ["name", "inputs"] rest with
    | [name, inputs] => return error (← required? asString? name) (← paramsOr? inputs)
    | _ => none
  | "constructor" => do
    match ← fields? ["inputs", "stateMutability"] rest with
    | [inputs, mutability] => return constructor (← paramsOr? inputs) (← mutabilityOr? mutability)
    | _ => none
  | "fallback" => do
    match ← fields? ["stateMutability"] rest with
    | [mutability] => return fallback (← mutabilityOr? mutability)
    | _ => none
  | "receive" => do
    match ← fields? ["stateMutability"] rest with
    | [mutability] => return receive (← mutabilityOr? mutability)
    | _ => none
  | _ => none

def ofJson? (value : Json) : Option Item := do
  let (kind, rest) ← tagged? "type" value
  ofFields? kind rest

def manyOfJson? : Json → Option (List Item) :=
  asList? ofJson?

def listToJson (items : List Item) : Json :=
  .array (items.map toJson)

end Item

/-- Why a text is no descriptor. -/
inductive DescriptorError
  | malformed
  | noInterface
  | notContainer
  deriving DecidableEq

namespace Descriptor

/-- The array of entries in a value. -/
def interfaceOf : Json → Except DescriptorError Json
  | .array items => .ok (.array items)
  | .object members =>
    match members.find? (·.1 = "abi") with
    | some (_, value) => .ok value
    | none => .error .noInterface
  | _ => .error .notContainer

def ofJson (name : String) (value : Json) : Except DescriptorError Descriptor := do
  match Item.manyOfJson? (← interfaceOf value) with
  | none => .error .malformed
  | some items => .ok ⟨name, items⟩

def ofText (name text : String) : Except DescriptorError Descriptor :=
  match read? text with
  | none => .error .malformed
  | some value => ofJson name value

/-- The entries as a JSON array with a line feed behind it. -/
def toText (descriptor : Descriptor) (spacing : Nat) : String :=
  (Item.listToJson descriptor.items).write spacing ++ "\n"

end Descriptor
end ContractBuild
