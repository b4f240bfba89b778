import ContractBuild.Path
/-!
A tree of files and directories. The entries of a directory are kept in the order of their
names, so a walk meets files in the order of their paths. A path is followed name by name, and
everything before its last name has to be a directory that exists.
-/
namespace ContractBuild
open Text

/-- Contents are compared in one and the same way, whatever other instances are in scope. -/
instance (priority := 2000) decidableEqContents : DecidableEq ByteArray :=
  ByteArray.instDecidableEq

inductive FileNode
  | file (content : ByteArray)
  | directory (entries : List (String × FileNode))

/-- Why an operation on files fails. `disrupted` stands for a fault outside the tree, and `unopened` for a directory
that a walk cannot open because its path is too long. -/
inductive FileError
  | notFound
  | notDirectory
  | isDirectory
  | alreadyExists
  | notEmpty
  | busy
  | invalidArgument
  | unusableName
  | nameTooLong
  | unopened (path : Path)
  | notText
  | disrupted
  deriving DecidableEq

namespace FileError

def message : FileError → String
  | notFound => "No such file or directory (os error 2)"
  | disrupted => "Input/output error (os error 5)"
  | busy => "Device or resource busy (os error 16)"
  | alreadyExists => "File exists (os error 17)"
  | notDirectory => "Not a directory (os error 20)"
  | isDirectory => "Is a directory (os error 21)"
  | invalidArgument => "Invalid argument (os error 22)"
  | nameTooLong => "File name too long (os error 36)"
  | unopened path => "IO error for operation on " ++ path.text ++ ": File name too long (os error 36)"
  | notEmpty => "Directory not empty (os error 39)"
  | unusableName => "file name contained an unexpected NUL byte"
  | notText => "stream did not contain valid UTF-8"

end FileError

namespace FileTree

def nameLimit : Nat := 255

def pathLimit : Nat := 4095

end FileTree

namespace FileNode

def emptyDirectory : FileNode := directory []

def isDirectory : FileNode → Bool
  | directory _ => true
  | file _ => false

def entryOf? (name : String) : List (String × FileNode) → Option FileNode
  | [] => none
  | (other, node) :: entries => if other = name then some node else entryOf? name entries

/-- Gives a name a node, in its place among the names. -/
def putEntry (name : String) (node : FileNode) :
    List (String × FileNode) → List (String × FileNode)
  | [] => [(name, node)]
  | (other, old) :: entries =>
    if other = name then (name, node) :: entries
    else if name < other then (name, node) :: (other, old) :: entries
    else (other, old) :: putEntry name node entries

def dropEntry (name : String) : List (String × FileNode) → List (String × FileNode)
  | [] => []
  | (other, old) :: entries =>
    if other = name then entries else (other, old) :: dropEntry name entries

/-- What stands under a sequence of names. -/
def get? : List String → FileNode → Option FileNode
  | [], node => some node
  | name :: names, directory entries => (entryOf? name entries).bind (get? names)
  | _ :: _, file _ => none

/-- Puts a node under a sequence of names whose directories are there. -/
def put (new : FileNode) : List String → FileNode → FileNode
  | [], _ => new
  | [name], directory entries => directory (putEntry name new entries)
  | name :: names, directory entries =>
    match entryOf? name entries with
    | some child => directory (putEntry name (put new names child) entries)
    | none => directory entries
  | _ :: _, file content => file content

/-- Takes away what stands under a sequence of names. -/
def erase : List String → FileNode → FileNode
  | [], _ => emptyDirectory
  | [name], directory entries => directory (dropEntry name entries)
  | name :: names, directory entries =>
    match entryOf? name entries with
    | some child => directory (putEntry name (erase names child) entries)
    | none => directory entries
  | _ :: _, file content => file content

mutual

/-- What a walk meets at and below a node: each file under the path that leads to it, and an error for a directory
whose path is too long to open it. -/
def walkFrom (path : Path) : FileNode → List (Except FileError Path)
  | file _ => [.ok path]
  | directory entries =>
    if path.text.utf8ByteSize > FileTree.pathLimit then [.error (.unopened path)] else walkAmong path entries

def walkAmong (path : Path) : List (String × FileNode) → List (Except FileError Path)
  | [] => []
  | (name, node) :: entries => walkFrom (path.join ⟨name⟩) node ++ walkAmong path entries

end

mutual

/-- All that lies below a node in the order of its names: a directory, or a file with its
content. -/
def entriesBelow (path : Path) : FileNode → List (Path × Option ByteArray)
  | file _ => []
  | directory entries => entriesAmong path entries

def entriesAmong (path : Path) : List (String × FileNode) → List (Path × Option ByteArray)
  | [] => []
  | (name, file content) :: entries => (path.join ⟨name⟩, some content) :: entriesAmong path entries
  | (name, directory inner) :: entries =>
    (path.join ⟨name⟩, none) :: entriesAmong (path.join ⟨name⟩) inner ++ entriesAmong path entries

end

end FileNode

/-- A tree seen from a working directory. `faultAfter` counts the operations that still go well
before one is disrupted from outside. -/
structure FileTree where
  root : FileNode
  workingDirectory : List String
  faultAfter : Option Nat

namespace FileTree

/-- A tree that holds the working directory alone. -/
def within (workingDirectory : List String) : FileTree :=
  ⟨workingDirectory.foldr (fun name node => .directory [(name, node)]) .emptyDirectory,
    workingDirectory, none⟩

/-- Where a path leads. `asDirectory` holds for a path that ends in a separator. -/
structure Location where
  names : List String
  asDirectory : Bool

/-- Goes on from a place by the segments of a path. -/
def follow (root : FileNode) : (current : List String) → List (List Char) →
    Except FileError (List String)
  | current, [] => .ok current
  | current, segment :: segments =>
    match root.get? current with
    | none => .error .notFound
    | some (.file _) => .error .notDirectory
    | some (.directory _) =>
      if segment.isEmpty || segment = ['.'] then follow root current segments
      else if segment = ['.', '.'] then follow root current.dropLast segments
      else if (String.ofList segment).utf8ByteSize > nameLimit then .error .nameTooLong
      else follow root (current ++ [String.ofList segment]) segments

/-- Where following a path begins. -/
def start (tree : FileTree) (path : Path) : List String :=
  if path.isAbsolute then [] else tree.workingDirectory

/-- The segments of a path without the empty ones at its end. -/
def segments (path : Path) : List (List Char) :=
  ((splitOn '/' path.text.toList).reverse.dropWhile List.isEmpty).reverse

def locate (tree : FileTree) (path : Path) : Except FileError Location := do
  let text := path.text.toList
  if text.isEmpty then throw .notFound
  if text.contains '\x00' then throw .unusableName
  if path.text.utf8ByteSize > pathLimit then throw .nameTooLong
  let names ← follow tree.root (tree.start path) (segments path)
  return ⟨names, text.getLast? = some '/'⟩

/-- What a path leads to. -/
def node (tree : FileTree) (path : Path) : Except FileError FileNode := do
  let place ← tree.locate path
  match tree.root.get? place.names with
  | none => throw .notFound
  | some (.file content) =>
    if place.asDirectory then throw .notDirectory else return .file content
  | some found => return found

def node? (tree : FileTree) (path : Path) : Option FileNode :=
  (tree.node path).toOption

def exists? (tree : FileTree) (path : Path) : Bool :=
  (tree.node? path).isSome

def isFile (tree : FileTree) (path : Path) : Bool :=
  match tree.node? path with
  | some (.file _) => true
  | _ => false

def isDirectory (tree : FileTree) (path : Path) : Bool :=
  match tree.node? path with
  | some (.directory _) => true
  | _ => false

/-- The content of a file. -/
def content? (tree : FileTree) (path : Path) : Option ByteArray :=
  match tree.node? path with
  | some (.file content) => some content
  | _ => none

/-- The files at and below a path in the order of their paths, or the first error of the walk. -/
def filesBelow (tree : FileTree) (path : Path) : Except FileError (List Path) := do
  (FileNode.walkFrom path (← tree.node path)).mapM id

/-- The files that a walk meets that passes over errors. -/
def filesReached (tree : FileTree) (path : Path) : List Path :=
  match tree.node path with
  | .ok node => (FileNode.walkFrom path node).filterMap Except.toOption
  | .error _ => []

/-- The names under which a place is reached from the root. -/
def absolutePath (names : List String) : Path :=
  ⟨"/" ++ Text.join "/" names⟩

end FileTree
end ContractBuild
