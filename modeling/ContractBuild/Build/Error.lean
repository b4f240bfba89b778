import ContractBuild.Binding.Plan
import ContractBuild.Duration
import ContractBuild.Interface.Flatten
import ContractBuild.Project.Error
/-!
Why a build or a part of it fails. An error that several requests for one compilation receive is
retold to each of them; what does not belong to one source becomes a diagnostic of the source
that asked.
-/
namespace ContractBuild

inductive BuildError
  | compile (unit : Path) (diagnostics : List String)
  | toolchain (language : Language) (problem : String)
  | selection (names : List String)
  | ambiguous (symbol first second : String)
  | unmappable (descriptor symbol type : String)
  | duplicateArtifact (name : String) (first second : Path)
  | invalidDescriptor (path : Path) (reason : String)
  | cancelled
  | timeout (unit : Path) (limit : Duration)
  | cache (problem : String)
  | file (cause : FileError)
  | json
  | project (cause : ProjectError)
  deriving DecidableEq

namespace BuildError
open Text

def message : BuildError → String
  | compile unit diagnostics => "failed to compile " ++ unit.text ++ ": " ++ join "; " diagnostics
  | toolchain language problem => language.tag ++ " toolchain error: " ++ problem
  | selection names => "selection names unknown artifacts: " ++ join ", " names
  | ambiguous symbol first second =>
    "ambiguous interface: " ++ symbol ++ " differs between '" ++ first ++ "' and '" ++ second ++ "'"
  | unmappable descriptor symbol type =>
    "cannot generate bindings for '" ++ descriptor ++ "': " ++ symbol ++ " uses unsupported type '"
      ++ type ++ "'"
  | duplicateArtifact name first second =>
    "artifact '" ++ name ++ "' is produced by both " ++ first.text ++ " and " ++ second.text
  | invalidDescriptor path reason => "invalid descriptor " ++ path.text ++ ": " ++ reason
  | cancelled => "cancelled"
  | timeout unit limit => "compiling " ++ unit.text ++ " timed out after " ++ limit.text
  | cache problem => "cache error: " ++ problem
  | file cause => "IO error: " ++ cause.message
  | json => "JSON error: malformed JSON"
  | project cause => cause.message

/-- Whether the error belongs to a single source. -/
def isCompileFailure : BuildError → Bool
  | compile .. | toolchain .. | timeout .. => true
  | _ => false

/-- The error as another request for the same compilation receives it. -/
def duplicate (error : BuildError) (unit : Path) : BuildError :=
  match error with
  | compile .. | toolchain .. | timeout .. | cancelled => error
  | other => compile unit [other.message]

def ofAmbiguity (cause : Ambiguity) : BuildError :=
  ambiguous cause.symbol.text cause.first cause.second

def ofUnmappable (cause : Unmappable) : BuildError :=
  unmappable cause.descriptor cause.symbol cause.type

theorem isCompileFailure_duplicate {error : BuildError} (unit : Path) (lasting : error ≠ cancelled) :
    (error.duplicate unit).isCompileFailure = true := by
  cases error <;> first | rfl | exact absurd rfl lasting

end BuildError
end ContractBuild
