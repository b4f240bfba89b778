import ContractBuild.Build.Error
/-!
The report of a run: the stages it went through and what it made of the sources, with every
error. A run ends in `done` exactly if there is none.
-/
namespace ContractBuild

inductive Stage
  | idle
  | compiling
  | extracting
  | generating
  | done
  | failed
  deriving DecidableEq

def Stage.text : Stage → String
  | idle => "idle"
  | compiling => "compiling"
  | extracting => "extracting"
  | generating => "generating"
  | done => "done"
  | failed => "failed"

/-- Which stages a run has: `settings` leaves it to the settings whether more than compilation is
wanted. -/
inductive Mode
  | settings
  | compileOnly
  | full
  deriving DecidableEq

structure RunReport where
  stage : Stage
  history : List Stage
  compiled : List String
  cacheHits : List String
  descriptors : List Path
  bindings : List Path
  errors : List BuildError
  generateSkipped : Bool
  deriving DecidableEq

namespace RunReport

def start : RunReport :=
  ⟨.idle, [.idle], [], [], [], [], [], false⟩

def enter (report : RunReport) (stage : Stage) : RunReport :=
  { report with stage, history := report.history ++ [stage] }

def addError (report : RunReport) (error : BuildError) : RunReport :=
  { report with errors := report.errors ++ [error] }

/-- Ends a run. A cancelled run tells so once, behind all other errors. -/
def finish (report : RunReport) (cancelled : Bool) : RunReport :=
  let report := if cancelled then
      { report with errors := report.errors.filter (· ≠ .cancelled) ++ [.cancelled] }
    else report
  report.enter (if report.errors.isEmpty then .done else .failed)

def isSuccess (report : RunReport) : Bool :=
  report.stage = .done

/-- The errors that belong to a single source. -/
def compileErrors (report : RunReport) : List BuildError :=
  report.errors.filter BuildError.isCompileFailure

end RunReport
end ContractBuild
