import ContractBuild.Build.Error
import ContractBuild.Project
/-!
Files that a build writes. A file that holds the right content already is left alone, and files
of earlier builds are told from others by their extension.
-/
namespace ContractBuild

abbrev BuildAction (α : Type) := ExceptT BuildError (StateM FileTree) α

instance : MonadLift (ExceptT FileError (StateM FileTree)) (ExceptT BuildError (StateM FileTree)) :=
  ⟨FileAction.telling .file⟩

/-- An action on a project as part of a build. -/
def ProjectAction.inBuild (action : ProjectAction α) : BuildAction α := fun tree =>
  match action tree with
  | (.ok value, tree) => (.ok value, tree)
  | (.error cause, tree) => (.error (.project cause), tree)

inductive WriteStatus
  | written
  | unchanged
  deriving DecidableEq

namespace Output

/-- The content of a file that can be read. -/
def existing? (path : Path) : FileAction (Option ByteArray) :=
  fun tree =>
    match FileAction.readBytes path tree with
    | (.ok content, tree) => (.ok (some content), tree)
    | (.error _, tree) => (.ok none, tree)

/-- Gives a file its text unless it holds it already. The directory is created as needed. -/
def writeIfChanged (path : Path) (text : String) : FileAction WriteStatus := do
  let content := text.toUTF8
  if (← existing? path) = some content then return .unchanged
  let directory := path.parent?.getD ⟨"."⟩
  FileAction.createDirectories directory
  FileAction.replaceFile directory path content
  return .written

/-- Whether a path is a file with the extension and a stem that is not to be kept. -/
def isStale (tree : FileTree) (extension : String) (keep : List String) (path : Path) : Bool :=
  tree.isFile path && path.extension? = some extension &&
    path.fileStem?.any fun stem => stem ∉ keep

def removeStale (directory : Path) (extension : String) (keep : List String) :
    List String → FileAction (List Path)
  | [] => return []
  | name :: names => do
    let path := directory.join ⟨name⟩
    if isStale (← get) extension keep path then
      FileAction.removeFile path
      return path :: (← removeStale directory extension keep names)
    else removeStale directory extension keep names

/-- Removes the files directly in a directory that have the extension and a stem outside `keep`,
and gives their paths in order. -/
def purgeStale (directory : Path) (extension : String) (keep : List String) :
    FileAction (List Path) := do
  if !(← get).isDirectory directory then return []
  removeStale directory extension keep (← FileAction.listDirectory directory)

end Output
end ContractBuild
