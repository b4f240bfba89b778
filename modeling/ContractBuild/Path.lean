import ContractBuild.Text
/-!
Paths as texts with the reading of their components. A path is never made canonical: joining
and taking parents keep the text that was given, while comparisons go by components.
-/
namespace ContractBuild

structure Path where
  text : String
  deriving DecidableEq

inductive Path.Component
  | root
  | current
  | parent
  | normal (name : String)
  deriving DecidableEq

namespace Path
open Text

instance : Coe String Path := ⟨Path.mk⟩

def empty : Path := ⟨""⟩

def isAbsolute (path : Path) : Bool :=
  path.text.toList.head? = some '/'

def segmentComponent? (segment : List Char) : Option Component :=
  if segment.isEmpty || segment = ['.'] then none
  else if segment = ['.', '.'] then some .parent
  else some (.normal (String.ofList segment))

/-- The components in order. Repeated separators and dots say nothing, except for a dot in
front of a relative path. -/
def components (path : Path) : List Component :=
  let segments := splitOn '/' path.text.toList
  let first : List Component :=
    if path.isAbsolute then [.root]
    else if segments.head? = some ['.'] then [.current]
    else []
  first ++ segments.filterMap segmentComponent?

def Component.text : Component → String
  | root => "/"
  | current => "."
  | parent => ".."
  | normal name => name

/-- The text behind the base with a separator between them, unless it stands on its own. -/
def join (base path : Path) : Path :=
  if path.isAbsolute then path
  else match base.text.toList.getLast? with
    | none => path
    | some '/' => ⟨base.text ++ path.text⟩
    | some _ => ⟨base.text ++ "/" ++ path.text⟩

/-- A path made of components. -/
def ofComponents (components : List Component) : Path :=
  components.foldl (fun path component => path.join ⟨component.text⟩) empty

/-- How many characters in front are no part of the body: a root, or a dot that is a component
of its own. -/
def frontLength (text : List Char) : Nat :=
  match text with
  | '/' :: _ => 1
  | ['.'] => 1
  | '.' :: '/' :: _ => 1
  | _ => 0

/-- Takes segments without a component off the end of a reversed body. -/
def dropIdle (reversed : List Char) : List Char :=
  match reversed with
  | '/' :: rest => dropIdle rest
  | ['.'] => []
  | '.' :: '/' :: rest => dropIdle rest
  | body => body
termination_by reversed.length

def dropSegment (reversed : List Char) : List Char :=
  reversed.dropWhile (· ≠ '/')

/-- The path without its last component. The root and the empty path have no parent. -/
def parent? (path : Path) : Option Path :=
  let text := path.text.toList
  let front := text.take (frontLength text)
  match dropIdle (text.drop front.length).reverse with
  | [] => if front = ['.'] then some empty else none
  | body => some ⟨String.ofList (front ++ (dropIdle (dropSegment body)).reverse)⟩

/-- The last component, if it is a name. -/
def fileName? (path : Path) : Option String :=
  match path.components.getLast? with
  | some (.normal name) => some name
  | _ => none

/-- A file name before and after its last dot. A dot in front is part of the stem. -/
def splitName (name : String) : String × Option String :=
  match cutLast? '.' name.toList with
  | some ([], _) | none => (name, none)
  | some (stem, extension) => (String.ofList stem, some (String.ofList extension))

def fileStem? (path : Path) : Option String :=
  path.fileName?.map fun name => (splitName name).1

def extension? (path : Path) : Option String :=
  path.fileName?.bind fun name => (splitName name).2

/-- The components behind those of a leading path. -/
def relativeTo? (path base : Path) : Option (List Component) :=
  let rec after : List Component → List Component → Option (List Component)
    | [], rest => some rest
    | _ :: _, [] => none
    | b :: base, c :: rest => if b = c then after base rest else none
  after base.components path.components

/-- Whether the path lies at or below the base, by components. -/
def isWithin (path base : Path) : Bool :=
  (path.relativeTo? base).isSome

/-- The names among components with slashes between them. -/
def slashText (components : List Component) : String :=
  Text.join "/" (components.filterMap fun
    | .normal name => some name
    | _ => none)

end Path
end ContractBuild
