import ContractBuild.Compiler.Invocation
/-!
Versions of compilers: reading them from what a compiler says of itself, comparing them, and
making sure that the installed one is the one asked for. What a check found is remembered; a
check that was cut short is not.
-/
namespace ContractBuild
open Text

namespace Version

def endsWord (c : Char) : Bool :=
  isBlank c || c = ':' || c = ','

/-- The pieces of a text between characters that satisfy `p`. -/
def splitWhere (p : Char → Bool) : List Char → List (List Char)
  | [] => [[]]
  | c :: text =>
    if p c then [] :: splitWhere p text
    else match splitWhere p text with
      | [] => [[c]]
      | piece :: pieces => (c :: piece) :: pieces

def isVersionWord (word : List Char) : Bool :=
  word.head?.any Numeral.isDigit && word.count '.' ≥ 2

/-- The bare version in the first word that begins with a digit and has two points. -/
def installed? (output : String) : Option String :=
  ((splitWhere endsWord output.toList).find? isVersionWord).map fun word =>
    let core := word.takeWhile fun c => c ≠ '+' && c ≠ '-'
    String.ofList (core.reverse.dropWhile (· = '.')).reverse

/-- The three numbers of a release. -/
structure Release where
  major : Nat
  minor : Nat
  patch : Nat
  deriving DecidableEq

def Release.isBefore (left right : Release) : Bool :=
  left.major < right.major ||
    (left.major = right.major &&
      (left.minor < right.minor || (left.minor = right.minor && left.patch < right.patch)))

/-- The numbers at the front of a version. A missing or unreadable patch number counts as zero. -/
def release? (version : String) : Option Release := do
  let core := version.toList.takeWhile fun c => c ≠ '+' && c ≠ '-' && c ≠ 'b' && c ≠ 'r'
  let numbers := (splitOn '.' core).map (Numeral.readUpTo? Numeral.wordMax)
  let major ← (numbers[0]?).join
  let minor ← (numbers[1]?).join
  return ⟨major, minor, (numbers[2]?).join.getD 0⟩

end Version

/-- What a compiler says when asked for its version. -/
def askVersion (machine : Machine) (language : Language) (program : String)
    (limit : Option Duration) : CompilerAction String := do
  let answer ← machine.run ⟨language, program, ["--version"], none, none, limit, ⟨program⟩⟩
  if answer.success then return trimmed answer.output
  else throw (.toolchain language
    ("`" ++ program ++ " --version` failed: " ++ trimmed answer.errors))

namespace VersionCheck

/-- What is worth remembering of a check. -/
def finding (program : String) : Except BuildError String → Except BuildError VersionFinding
  | .ok answer =>
    match Version.installed? answer with
    | some version => .ok (.ok version)
    | none => .ok (.error ("unrecognized `" ++ program ++ " --version` output: " ++ answer))
  | .error .cancelled => .error .cancelled
  | .error (.timeout unit limit) => .error (.timeout unit limit)
  | .error (.toolchain _ problem) => .ok (.error problem)
  | .error cause => .ok (.error cause.message)

/-- Compares what was found with what is asked for. -/
def judge (language : Language) (program requested : String) :
    VersionFinding → Except BuildError Unit
  | .ok version =>
    if version = requested then .ok ()
    else .error (.toolchain language (program ++ " is version " ++ version ++ ", but " ++ requested
      ++ " is required"))
  | .error problem => .error (.toolchain language problem)

def cellOf (language : Language) : StateM Workspace (Cell VersionFinding) := fun workspace =>
  (workspace.versions language, workspace)

def setCell (language : Language) (cell : Cell VersionFinding) : StateM Workspace Unit :=
  fun workspace => ((), workspace.setVersion language cell)

/-- Asks the compiler and remembers what it finds. -/
def lead (machine : Machine) (language : Language) (program : String) (limit : Option Duration) :
    CompilerAction VersionFinding := do
  CompilerAction.perform (setCell language .busy)
  match finding program (← ExceptT.lift (askVersion machine language program limit).run) with
  | .ok found =>
    CompilerAction.perform (setCell language (.filled found))
    return found
  | .error cause =>
    CompilerAction.perform (setCell language .vacant)
    throw cause

/-- What is remembered about the installed compiler. While someone else asks it, waits. -/
def remembered (machine : Machine) (language : Language) (program : String) (limit : Option Duration) :
    CompilerAction VersionFinding := do
  match ← CompilerAction.perform (cellOf language) with
  | .filled found => return found
  | .vacant => lead machine language program limit
  | .busy =>
    CompilerAction.await fun workspace => !(workspace.versions language).isBusy
    match ← CompilerAction.perform (cellOf language) with
    | .filled found => return found
    | _ => lead machine language program limit

/-- Makes sure that the installed compiler has the requested version. -/
def ensure (machine : Machine) (language : Language) (program requested : String)
    (limit : Option Duration) : CompilerAction Unit := do
  judge language program requested (← remembered machine language program limit)

end VersionCheck
end ContractBuild
