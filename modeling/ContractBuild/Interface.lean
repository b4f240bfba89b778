import ContractBuild.Text
/-!
The public interface of a contract: its entries in order of declaration. Entries that share a
`Symbol` are overloads of one another; entries that share a `Shape` as well mean the same.
-/
namespace ContractBuild
open Text

/-- A typed parameter. `components` are the members of a tuple type. -/
structure Param where
  name : String
  type : String
  internalType : Option String
  components : Option (List Param)
  indexed : Option Bool

inductive Mutability
  | pure
  | view
  | nonpayable
  | payable
  deriving DecidableEq

inductive Item
  | function (name : String) (inputs outputs : List Param) (mutability : Mutability)
      (gas : Option Nat)
  | event (name : String) (inputs : List Param) (anonymous : Bool)
  | error (name : String) (inputs : List Param)
  | constructor (inputs : List Param) (mutability : Mutability)
  | fallback (mutability : Mutability)
  | receive (mutability : Mutability)

inductive Symbol
  | function (name : String)
  | event (name : String)
  | error (name : String)
  | constructor
  | fallback
  | receive
  deriving DecidableEq

/-- What two entries with one symbol must share to be the same. Parameter names and gas
estimates are no part of it. -/
structure Shape where
  inputs : List String
  outputs : List String
  indexed : List Bool
  mutability : Option Mutability
  anonymous : Bool
  deriving DecidableEq

/-- A named interface. -/
structure Descriptor where
  name : String
  items : List Item

namespace Mutability

def text : Mutability → String
  | pure => "pure"
  | view => "view"
  | nonpayable => "nonpayable"
  | payable => "payable"

/-- Whether a call can be answered without a transaction. -/
def isReadOnly : Mutability → Bool
  | pure | view => true
  | nonpayable | payable => false

end Mutability

namespace Param

def plain (name type : String) : Param :=
  ⟨name, type, none, none, none⟩

def tuple (name suffix : String) (components : List Param) : Param :=
  ⟨name, "tuple" ++ suffix, none, some components, none⟩

mutual

def canonicalChars : Param → List Char
  | ⟨_, type, _, components, _⟩ =>
    match stripLead? "tuple".toList type.toList, components with
    | some suffix, some members => '(' :: memberChars members ++ ')' :: suffix
    | _, _ => type.toList

/-- The canonical types of the members with commas between them. -/
def memberChars : List Param → List Char
  | [] => []
  | [param] => canonicalChars param
  | param :: params => canonicalChars param ++ ',' :: memberChars params

end

/-- The type with tuples spelled out, as in `(address,uint256)[]`. -/
def canonicalType (param : Param) : String :=
  String.ofList (canonicalChars param)

end Param

namespace Symbol

def text : Symbol → String
  | function name => "function " ++ name
  | event name => "event " ++ name
  | error name => "error " ++ name
  | constructor => "constructor"
  | fallback => "fallback"
  | receive => "receive"

end Symbol

namespace Item

def symbol : Item → Symbol
  | function name .. => .function name
  | event name .. => .event name
  | error name .. => .error name
  | constructor .. => .constructor
  | fallback .. => .fallback
  | receive .. => .receive

def inputs : Item → List Param
  | function _ inputs .. => inputs
  | event _ inputs .. => inputs
  | error _ inputs => inputs
  | constructor inputs .. => inputs
  | fallback .. | receive .. => []

def shape (item : Item) : Shape :=
  let base : Shape := ⟨item.inputs.map Param.canonicalType, [], [], none, false⟩
  match item with
  | function _ _ outputs mutability _ =>
    { base with outputs := outputs.map Param.canonicalType, mutability := some mutability }
  | event _ inputs anonymous =>
    { base with indexed := inputs.map fun param => param.indexed.getD false, anonymous }
  | constructor _ mutability | fallback mutability | receive mutability =>
    { base with mutability := some mutability }
  | error .. => base

/-- The name a signature begins with. -/
def label : Item → String
  | function name .. => name
  | event name .. => name
  | error name .. => name
  | constructor .. => "constructor"
  | fallback .. => "fallback"
  | receive .. => "receive"

/-- A name and canonical input types, as in `transfer(address,uint256)`. -/
def signature (item : Item) : String :=
  item.label ++ String.ofList ('(' :: Param.memberChars item.inputs ++ [')'])

end Item

/-- Puts a value into the group of its key, behind the values already there. -/
def addToGroup [DecidableEq κ] (key : κ) (value : α) : List (κ × List α) → List (κ × List α)
  | [] => [(key, [value])]
  | (other, values) :: groups =>
    if other = key then (other, values ++ [value]) :: groups
    else (other, values) :: addToGroup key value groups

namespace Descriptor

/-- The entries by symbol, symbols in order of first declaration. -/
def grouped (descriptor : Descriptor) : List (Symbol × List Item) :=
  descriptor.items.foldl (fun groups item => addToGroup item.symbol item groups) []

end Descriptor
end ContractBuild
