import ContractBuild.Binding.AbiType
import ContractBuild.Interface.Codec
/-!
What a binding of one interface offers, the same for every dialect: the callable entries with
the keys they are found under, the events, and the interface itself. A function is found under
its bare name, under its signature, or under both, depending on how it is overloaded and on
whether all overloads are wanted.
-/
namespace ContractBuild

structure FunctionEntry where
  name : String
  key : String
  signature : String
  overloaded : Bool
  ordinal : Nat
  inputs : List TypedParam
  outputs : List TypedParam
  mutability : Mutability

structure EventEntry where
  name : String
  key : String
  signature : String
  inputs : List TypedParam
  anonymous : Bool

structure BindingPlan where
  name : String
  functions : List FunctionEntry
  events : List EventEntry
  interfaceText : String

/-- An entry of an interface uses a type that has no place in a binding. -/
structure Unmappable where
  descriptor : String
  symbol : String
  type : String
  deriving DecidableEq

def FunctionEntry.isSignatureKey (entry : FunctionEntry) : Bool :=
  entry.key = entry.signature

namespace BindingPlan

/-- The entries of one declaration that is the `ordinal`-th of its name. -/
def functionEntries (everyOverload overloaded : Bool) (ordinal : Nat) (item : Item) :
    Except String (List FunctionEntry) :=
  match item with
  | .function name inputs outputs mutability _ => do
    let named : FunctionEntry := {
      name, key := name, signature := item.signature, overloaded, ordinal
      inputs := ← AbiType.ofParams inputs
      outputs := ← AbiType.ofParams outputs
      mutability }
    let signed := { named with key := named.signature }
    return if !everyOverload then [named] else if overloaded then [signed] else [named, signed]
  | _ => return []

/-- The entries of all declarations with one name, counted from `ordinal`. -/
def overloadEntries (everyOverload overloaded : Bool) :
    (ordinal : Nat) → List Item → Except String (List FunctionEntry)
  | _, [] => return []
  | ordinal, item :: items => do
    let entries ← functionEntries everyOverload overloaded ordinal item
    return entries ++ (← overloadEntries everyOverload overloaded (ordinal + 1) items)

def eventEntries (overloaded : Bool) : List Item → Except String (List EventEntry)
  | [] => return []
  | item :: items => do
    match item with
    | .event name inputs anonymous =>
      let signature := item.signature
      let entry : EventEntry := {
        name, key := if overloaded then signature else name, signature
        inputs := ← AbiType.ofParams inputs
        anonymous }
      return entry :: (← eventEntries overloaded items)
    | _ => eventEntries overloaded items

/-- Entries that are no part of the call surface still have to be representable. -/
def checkInputs : List Item → Except String Unit
  | [] => return ()
  | item :: items => do
    let _ ← AbiType.ofParams item.inputs
    checkInputs items

/-- The entries that one symbol contributes. -/
def symbolEntries (everyOverload : Bool) (symbol : Symbol) (items : List Item) :
    Except String (List FunctionEntry × List EventEntry) := do
  let overloaded := items.length > 1
  match symbol with
  | .function _ =>
    let chosen := if everyOverload then items else items.take 1
    return (← overloadEntries everyOverload overloaded 0 chosen, [])
  | .event _ => return ([], ← eventEntries overloaded items)
  | .error _ | .constructor =>
    checkInputs items
    return ([], [])
  | .fallback | .receive => return ([], [])

/-- The entries of all symbols, refused at the first symbol with a type out of place. -/
def groupEntries (descriptor : String) (everyOverload : Bool) :
    List (Symbol × List Item) → Except Unmappable (List FunctionEntry × List EventEntry)
  | [] => return ([], [])
  | (symbol, items) :: groups =>
    match symbolEntries everyOverload symbol items with
    | .error type => .error ⟨descriptor, symbol.text, type⟩
    | .ok (functions, events) => do
      let (moreFunctions, moreEvents) ← groupEntries descriptor everyOverload groups
      return (functions ++ moreFunctions, events ++ moreEvents)

/-- With `everyOverload`, each signature of an overloaded function has an entry under its
signature and a unique function has one under its name and one under its signature. Otherwise
each name has one entry, bound to its first declaration. -/
def ofDescriptor (everyOverload : Bool) (descriptor : Descriptor) :
    Except Unmappable BindingPlan := do
  let (functions, events) ← groupEntries descriptor.name everyOverload descriptor.grouped
  return {
    name := descriptor.name
    functions, events
    interfaceText := (Item.listToJson descriptor.items).compact }

/-- The functions under their bare names. -/
def namedFunctions (plan : BindingPlan) : List FunctionEntry :=
  plan.functions.filter fun entry => !entry.isSignatureKey

end BindingPlan
end ContractBuild
