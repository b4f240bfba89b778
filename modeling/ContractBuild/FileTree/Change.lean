import ContractBuild.FileTree
/-!
What has to be done to a tree of files to make another one of it: first removals, inner ones before
outer ones, and then additions, outer ones before inner ones.
-/
namespace ContractBuild

inductive FileChange
  | removeFile (path : Path)
  | removeDirectory (path : Path)
  | addDirectory (path : Path)
  | writeFile (path : Path) (content : ByteArray)

namespace FileChange

/-- Everything below a node under paths relative to it. -/
def listing (node : FileNode) : List (Path × Option ByteArray) :=
  node.entriesBelow Path.empty

def removal : Path × Option ByteArray → FileChange
  | (path, some _) => removeFile path
  | (path, none) => removeDirectory path

def addition : Path × Option ByteArray → FileChange
  | (path, some content) => writeFile path content
  | (path, none) => addDirectory path

/-- Whether an entry has the path and the kind of another. -/
def isSameKind (entry other : Path × Option ByteArray) : Bool :=
  entry.1 = other.1 && entry.2.isSome = other.2.isSome

/-- The changes that turn one tree into another. -/
def between (before after : FileNode) : List FileChange :=
  let old := listing before
  let new := listing after
  let gone := old.filter fun entry => !new.any (isSameKind entry)
  let fresh := new.filter fun entry => !old.any fun other => other = entry
  gone.reverse.map removal ++ fresh.map addition

end FileChange
end ContractBuild
