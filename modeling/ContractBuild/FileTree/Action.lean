import ContractBuild.FileTree
/-!
Operations on a tree of files that can fail. An operation that fails leaves the tree as it was,
apart from `createDirectories` and `removeTree`, which stop where the failure is.
-/
namespace ContractBuild
open Text

abbrev FileAction (α : Type) := ExceptT FileError (StateM FileTree) α

namespace FileAction

/-- One operation. It is the one that is disrupted if the tree says so. -/
def attempt (operation : FileTree → Except FileError (α × FileTree)) : FileAction α :=
  fun tree =>
    match tree.faultAfter with
    | some 0 => (.error .disrupted, { tree with faultAfter := none })
    | left =>
      let tree := { tree with faultAfter := left.map (· - 1) }
      match operation tree with
      | .ok (value, tree) => (.ok value, tree)
      | .error cause => (.error cause, tree)

/-- A question about the tree that always has an answer. -/
def ask (question : FileTree → α) : FileAction α := do
  return question (← get)

def placed (tree : FileTree) (names : List String) (node : FileNode) : FileTree :=
  { tree with root := FileNode.put node names tree.root }

def readBytes (path : Path) : FileAction ByteArray :=
  attempt fun tree => do
    match ← tree.node path with
    | .file content => return (content, tree)
    | .directory _ => throw .isDirectory

def readText (path : Path) : FileAction String := do
  match String.fromUTF8? (← readBytes path) with
  | some text => return text
  | none => throw .notText

/-- The names in a directory. -/
def listDirectory (path : Path) : FileAction (List String) :=
  attempt fun tree => do
    match ← tree.node path with
    | .directory entries => return (entries.map (·.1), tree)
    | .file _ => throw .notDirectory

def filesBelow (path : Path) : FileAction (List Path) :=
  attempt fun tree => return (← tree.filesBelow path, tree)

/-- The names under which a path is reached from the root. -/
def canonical (path : Path) : FileAction Path :=
  attempt fun tree => do
    let place ← tree.locate path
    let _ ← tree.node path
    return (FileTree.absolutePath place.names, tree)

/-- Creates the directory at a place unless there is one. -/
def ensureDirectory (names : List String) : FileAction Unit :=
  attempt fun tree => do
    match tree.root.get? names with
    | none => return ((), placed tree names .emptyDirectory)
    | some (.directory _) => return ((), tree)
    | some (.file _) => throw .alreadyExists

def createAlong : (current : List String) → List (List Char) → FileAction Unit
  | _, [] => return ()
  | current, segment :: segments =>
    if segment.isEmpty || segment = ['.'] then createAlong current segments
    else if segment = ['.', '.'] then createAlong current.dropLast segments
    else if (String.ofList segment).utf8ByteSize > FileTree.nameLimit then throw .nameTooLong
    else do
      let next := current ++ [String.ofList segment]
      ensureDirectory next
      createAlong next segments

/-- Creates a directory and those it lies in, as far as they are missing. The empty path needs
none. -/
def createDirectories (path : Path) : FileAction Unit := do
  if path.text.toList.contains '\x00' then throw .unusableName
  if path.text.utf8ByteSize > FileTree.pathLimit then throw .nameTooLong
  createAlong ((← get).start path) (FileTree.segments path)

def storeAt (tree : FileTree) (path : Path) (content : ByteArray) :
    Except FileError (Unit × FileTree) := do
  let place ← tree.locate path
  match tree.root.get? place.names with
  | some (.directory _) => throw .isDirectory
  | _ =>
    if place.asDirectory then throw .notDirectory
    else return ((), placed tree place.names (.file content))

/-- Gives a file its content, whether it was there or not. -/
def writeFile (path : Path) (content : ByteArray) : FileAction Unit :=
  attempt fun tree => storeAt tree path content

/-- Puts a file in its place at once, by way of a new file in `directory`. -/
def replaceFile (directory path : Path) (content : ByteArray) : FileAction Unit :=
  attempt fun tree => do
    if !directory.text.isEmpty then
      if !(← tree.node directory).isDirectory then throw .notDirectory
    storeAt tree path content

def removeFile (path : Path) : FileAction Unit :=
  attempt fun tree => do
    let place ← tree.locate path
    match ← tree.node path with
    | .directory _ => throw .isDirectory
    | .file _ => return ((), { tree with root := tree.root.erase place.names })

/-- Goes on from a place by the dots in front. No name is looked up for them, so they also lead on from a working
directory that is gone. -/
def passDots : (current : List String) → List (List Char) → List String × List (List Char)
  | current, [] => (current, [])
  | current, segment :: segments =>
    if segment.isEmpty || segment = ['.'] then passDots current segments
    else if segment = ['.', '.'] then passDots current.dropLast segments
    else (current, segment :: segments)

/-- The directory to which a path leads up to its last segment. -/
def container (tree : FileTree) (path : Path) : Except FileError (List String) :=
  match passDots (tree.start path) (FileTree.segments path).dropLast with
  | (current, []) => .ok current
  | (current, segments) => FileTree.follow tree.root current (segments ++ [['.']])

/-- Takes away an emptied directory. If the way to it went with what was in it, nothing is left to take away, and
that is no error; otherwise the path has to end in its name. -/
def withoutDirectory (tree : FileTree) (path : Path) : Except FileError FileTree :=
  match container tree path with
  | .error .notFound => .ok tree
  | .error cause => .error cause
  | .ok place =>
    match (FileTree.segments path).getLast? with
    | none => .error .busy
    | some segment =>
      if segment = ['.'] then .error .invalidArgument
      else if segment = ['.', '.'] then .error .notEmpty
      else .ok { tree with root := tree.root.erase (place ++ [String.ofList segment]) }

def emptyAt (names : List String) : FileAction Unit :=
  attempt fun tree => return ((), placed tree names .emptyDirectory)

def removeEmptied (path : Path) : FileAction Unit :=
  attempt fun tree => return ((), ← withoutDirectory tree path)

/-- Removes a directory with all that it holds: first that, then the directory itself. -/
def removeTree (path : Path) : FileAction Unit := do
  let tree ← get
  let place ← tree.locate path
  match ← tree.node path with
  | .file _ => throw .notDirectory
  | .directory _ =>
    emptyAt place.names
    removeEmptied path

end FileAction
end ContractBuild
