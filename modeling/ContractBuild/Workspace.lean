import ContractBuild.Cancellation
import ContractBuild.FileTree.Action
import ContractBuild.Routine
import ContractBuild.Source
/-!
What a compilation works with: the files, the request to cancel, what is known about the
installed compilers, and a record of the compilations that were asked for.
-/
namespace ContractBuild

/-- A value that is made once. While someone makes it, others wait; if that one gives up, the
cell is vacant again. -/
inductive Cell (α : Type)
  | vacant
  | busy
  | filled (value : α)
  deriving DecidableEq

def Cell.isBusy : Cell α → Bool
  | busy => true
  | _ => false

/-- What a check of an installed compiler found: its version, or what is wrong with it. -/
abbrev VersionFinding := Except String String

structure Workspace where
  files : FileTree
  cancellation : Cancellation
  versions : Language → Cell VersionFinding
  calls : List Language

namespace Workspace

def ofFiles (files : FileTree) : Workspace :=
  ⟨files, .quiet, fun _ => .vacant, []⟩

/-- Looks at the request to cancel. -/
def isCancelled : StateM Workspace Bool := fun workspace =>
  let (seen, cancellation) := workspace.cancellation.check
  (seen, { workspace with cancellation })

def onFiles (action : ExceptT ε (StateM FileTree) α) : StateM Workspace (Except ε α) :=
  fun workspace =>
    let (outcome, files) := action workspace.files
    (outcome, { workspace with files })

def setVersion (language : Language) (cell : Cell VersionFinding) (workspace : Workspace) :
    Workspace :=
  { workspace with
    versions := fun other => if other = language then cell else workspace.versions other }

/-- Notes that a compilation was asked for. -/
def noteCall (language : Language) (workspace : Workspace) : Workspace :=
  { workspace with calls := workspace.calls ++ [language] }

def callCount (workspace : Workspace) (language : Language) : Nat :=
  workspace.calls.count language

end Workspace
end ContractBuild
