import ContractBuild.Interface
import ContractBuild.Text.Numeral
/-!
The closed set of types that bindings can represent and the reading of a parameter's type text
into it. A type text is a base with any number of array suffixes; what is refused is refused
with the text that stood in the way.
-/
namespace ContractBuild
open Text

/-- A value together with what an interface says about its place. -/
structure Named (α : Type) where
  name : String
  type : α
  indexed : Bool

/-- Widths are in bits for integers and in bytes for fixed byte strings. -/
inductive AbiType
  | address
  | bool
  | string
  | bytes
  | fixedBytes (size : Nat)
  | uint (bits : Nat)
  | int (bits : Nat)
  | array (item : AbiType)
  | fixedArray (item : AbiType) (length : Nat)
  | tuple (members : List (Named AbiType))

abbrev TypedParam := Named AbiType

namespace AbiType

/-- An array suffix of a type text: `[]` or `[n]`. -/
inductive Suffix
  | any
  | exactly (length : Nat)
  deriving DecidableEq

def Suffix.apply (type : AbiType) : Suffix → AbiType
  | any => array type
  | exactly length => fixedArray type length

theorem length_dropWhile_le (p : α → Bool) (list : List α) :
    (list.dropWhile p).length ≤ list.length :=
  (List.dropWhile_sublist p).length_le

/-- Takes the suffixes off a reversed type text, innermost suffix first in the result. -/
def peelReversed (suffixes : List Suffix) (reversed : List Char) :
    Except (List Char) (List Char × List Suffix) :=
  match reversed with
  | ']' :: '[' :: rest => peelReversed (.any :: suffixes) rest
  | ']' :: rest =>
    match equation : rest.dropWhile (· ≠ '[') with
    | [] => .ok ((']' :: rest).reverse, suffixes)
    | _ :: inner =>
      match Numeral.readUpTo? Numeral.wordMax (rest.takeWhile (· ≠ '[')).reverse with
      | none | some 0 => .error (']' :: rest).reverse
      | some length =>
        have : inner.length < rest.length := by
          have := length_dropWhile_le (· ≠ '[') rest
          rw [equation] at this
          exact this
        peelReversed (.exactly length :: suffixes) inner
  | base => .ok (base.reverse, suffixes)
termination_by reversed.length

/-- The base of a type text and its suffixes from left to right. -/
def peel (type : List Char) : Except (List Char) (List Char × List Suffix) :=
  peelReversed [] type.reverse

def width? (lead base : List Char) : Option (Option Nat) :=
  (stripLead? lead base).map (Numeral.readUpTo? Numeral.wordMax)

def isIntegerWidth (bits : Nat) : Bool :=
  bits ≠ 0 && bits ≤ 256 && bits % 8 = 0

/-- A base without members. -/
def scalar? (base : List Char) : Option AbiType :=
  if base = "address".toList then some address
  else if base = "bool".toList then some bool
  else if base = "string".toList then some string
  else if base = "bytes".toList then some bytes
  else if base = "uint".toList then some (uint 256)
  else if base = "int".toList then some (int 256)
  else match width? "bytes".toList base, width? "uint".toList base, width? "int".toList base with
    | some size, _, _ => do
      let size ← size
      if 1 ≤ size && size ≤ 32 then some (fixedBytes size) else none
    | none, some bits, _ => do
      let bits ← bits
      if isIntegerWidth bits then some (uint bits) else none
    | none, none, some bits => do
      let bits ← bits
      if isIntegerWidth bits then some (int bits) else none
    | none, none, none => none

mutual

/-- The type of a parameter, or the part of its type text that has no place here. -/
def ofParam : Param → Except String AbiType
  | ⟨_, type, _, components, _⟩ =>
    match peel type.toList with
    | .error refused => .error (String.ofList refused)
    | .ok (base, suffixes) => do
      let inner ←
        if base = "tuple".toList then
          match components with
          | none => .error (String.ofList base)
          | some members => tuple <$> ofParams members
        else match scalar? base with
          | some type => .ok type
          | none => .error (String.ofList base)
      return suffixes.foldl Suffix.apply inner

/-- The types of parameters, refused at the first one that is. -/
def ofParams : List Param → Except String (List TypedParam)
  | [] => .ok []
  | param :: params => do
    let type ← ofParam param
    return ⟨param.name, type, param.indexed.getD false⟩ :: (← ofParams params)

end

end AbiType
end ContractBuild
