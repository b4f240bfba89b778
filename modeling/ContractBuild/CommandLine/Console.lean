import ContractBuild.Build.Pipeline
/-!
What a command says while it works on files, and how it ends. A command that fails gives a reason
with a chain of causes.
-/
namespace ContractBuild
open Text

inductive LogLevel
  | error
  | warn
  | info
  | debug
  | trace
  deriving DecidableEq

namespace LogLevel

def text : LogLevel → String
  | error => "ERROR"
  | warn => "WARN"
  | info => "INFO"
  | debug => "DEBUG"
  | trace => "TRACE"

/-- How much is said at most up to a level. -/
def rank : LogLevel → Nat
  | error => 1
  | warn => 2
  | info => 3
  | debug => 4
  | trace => 5

/-- The number of levels that a filter lets pass. -/
def filterRank? (name : String) : Option Nat :=
  match String.map Char.toLower name with
  | "off" | "0" => some 0
  | "" | "error" | "1" => some 1
  | "warn" | "2" => some 2
  | "info" | "3" => some 3
  | "debug" | "4" => some 4
  | "trace" | "5" => some 5
  | _ => none

end LogLevel

/-- One thing said: a text for the output, a line for the error stream, or a log message. -/
inductive Utterance
  | output (text : String)
  | complaint (line : String)
  | log (level : LogLevel) (message : String)
  deriving DecidableEq

/-- Why a command fails, outermost reason first. -/
structure Trouble where
  reason : String
  causes : List String
  deriving DecidableEq

namespace Trouble

/-- A reason of its own. -/
def plain (reason : String) : Trouble := ⟨reason, []⟩

def ofFile (cause : FileError) : Trouble := plain cause.message

/-- A further reason in front. -/
def within (reason : String) (trouble : Trouble) : Trouble :=
  ⟨reason, trouble.reason :: trouble.causes⟩

def ofProject (error : ProjectError) : Trouble :=
  match error with
  | .malformed => ⟨error.message, ["malformed YAML"]⟩
  | .file cause => ⟨error.message, [cause.message]⟩
  | .json => ⟨error.message, ["malformed JSON"]⟩
  | _ => plain error.message

def ofBuild (error : BuildError) : Trouble :=
  match error with
  | .file cause => ⟨error.message, [cause.message]⟩
  | .json => ⟨error.message, ["malformed JSON"]⟩
  | .project cause => ofProject cause
  | _ => plain error.message

def ofPipeline : PipelineError → Trouble
  | .build cause => ofBuild cause
  | .project cause => ofProject cause
  | error => plain error.message

/-- The lines of a cause, set in by four blanks or behind its number. -/
def causeLines (number : Option Nat) (cause : String) : List String :=
  let front := match number with
    | none => "    "
    | some n =>
      let digits := Numeral.render n
      String.ofList (List.replicate (5 - digits.length) ' ') ++ digits ++ ": "
  let indent := match number with
    | none => "    "
    | some _ => "       "
  match (splitOn '\n' cause.toList).map String.ofList with
  | [] => []
  | first :: rest => (front ++ first) :: rest.map (indent ++ ·)

def numberedLines (number : Nat) : List String → List String
  | [] => []
  | cause :: causes => causeLines (some number) cause ++ numberedLines (number + 1) causes

/-- How a failed command ends on the error stream. Causes are numbered if there are several. -/
def lines (trouble : Trouble) : List String :=
  let head := (splitOn '\n' ("Error: " ++ trouble.reason).toList).map String.ofList
  match trouble.causes with
  | [] => head
  | [cause] => head ++ ["", "Caused by:"] ++ causeLines none cause
  | causes => head ++ ["", "Caused by:"] ++ numberedLines 0 causes

end Trouble

/-- Files and what has been said so far. -/
structure Console where
  files : FileTree
  said : List Utterance

abbrev ConsoleAction (α : Type) := ExceptT Trouble (StateM Console) α

namespace ConsoleAction

def say (utterance : Utterance) : ConsoleAction Unit :=
  modify fun console => { console with said := console.said ++ [utterance] }

def info (message : String) : ConsoleAction Unit :=
  say (.log .info message)

def warn (message : String) : ConsoleAction Unit :=
  say (.log .warn message)

/-- A line of output. -/
def print (line : String) : ConsoleAction Unit :=
  say (.output (line ++ "\n"))

/-- A text on the error stream, line by line. -/
def complain (text : String) : ConsoleAction Unit :=
  say (.complaint text)

/-- An action on files whose failure is told as trouble. -/
def onFiles (tell : ε → Trouble) (action : ExceptT ε (StateM FileTree) α) : ConsoleAction α :=
  fun console =>
    let (outcome, files) := action console.files
    (outcome.mapError tell, { console with files })

end ConsoleAction
end ContractBuild
