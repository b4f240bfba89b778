import ContractBuild.Interface
/-!
One interface out of several. A symbol that several descriptors have must come with the same
set of shapes in each; constructors are left out, because no caller of the merged interface can
reach them.
-/
namespace ContractBuild

/-- A symbol with different sets of shapes in two descriptors. -/
structure Ambiguity where
  symbol : Symbol
  first : String
  second : String
  deriving DecidableEq

/-- A symbol as its first descriptor has it. -/
structure MergedSymbol where
  symbol : Symbol
  origin : String
  items : List Item

namespace Flatten

/-- The first item of each shape. -/
def distinctShapes (seen : List Shape) : List Item → List Item
  | [] => []
  | item :: items =>
    if item.shape ∈ seen then distinctShapes seen items
    else item :: distinctShapes (item.shape :: seen) items

def shapesOf (items : List Item) : List Shape :=
  items.map Item.shape

def sameShapes (left right : List Item) : Bool :=
  (shapesOf left).all (· ∈ shapesOf right) && (shapesOf right).all (· ∈ shapesOf left)

/-- Adds one symbol of one descriptor. -/
def mergeSymbol (origin : String) (symbol : Symbol) (items : List Item)
    (merged : List MergedSymbol) : Except Ambiguity (List MergedSymbol) :=
  match merged.find? (·.symbol = symbol) with
  | some existing =>
    if sameShapes existing.items items then .ok merged
    else .error ⟨symbol, existing.origin, origin⟩
  | none => .ok (merged ++ [⟨symbol, origin, distinctShapes [] items⟩])

def mergeGroups (origin : String) : List (Symbol × List Item) → List MergedSymbol →
    Except Ambiguity (List MergedSymbol)
  | [], merged => .ok merged
  | (symbol, items) :: groups, merged =>
    if symbol = .constructor then mergeGroups origin groups merged
    else do mergeGroups origin groups (← mergeSymbol origin symbol items merged)

def mergeDescriptors : List Descriptor → List MergedSymbol →
    Except Ambiguity (List MergedSymbol)
  | [], merged => .ok merged
  | descriptor :: descriptors, merged => do
    mergeDescriptors descriptors (← mergeGroups descriptor.name descriptor.grouped merged)

end Flatten

/-- Merges descriptors into one of the given name, symbols in order of first appearance. -/
def Descriptor.flatten (name : String) (descriptors : List Descriptor) :
    Except Ambiguity Descriptor := do
  let merged ← Flatten.mergeDescriptors descriptors []
  return ⟨name, merged.flatMap (·.items)⟩

end ContractBuild
