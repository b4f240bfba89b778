import ContractBuild.Build.Output
import ContractBuild.Text.Lossy
import ContractBuild.Workspace
/-!
Starting a compiler as a program of its own and waiting for it. A request to cancel wins over
whatever the program did in the meantime, and a limit ends the wait for a program that takes as
long.
-/
namespace ContractBuild

/-- What to start, and for which source. -/
structure Invocation where
  language : Language
  program : String
  arguments : List String
  input : Option String
  directory : Option Path
  limit : Option Duration
  unit : Path
  deriving DecidableEq

/-- What a program leaves behind. It has no code if a signal ended it. -/
structure ProgramOutput where
  code : Option Int
  output : String
  errors : String
  deriving DecidableEq

def ProgramOutput.success (output : ProgramOutput) : Bool :=
  output.code = some 0

/-- What a program writes, as it is written. -/
structure RawOutput where
  code : Option Int
  output : ByteArray
  errors : ByteArray

def RawOutput.decoded (raw : RawOutput) : ProgramOutput :=
  ⟨raw.code, Text.Lossy.decode raw.output, Text.Lossy.decode raw.errors⟩

/-- What comes of starting a program. A program that was started may end without taking its input, and
then its output is lost. -/
inductive Launch
  | refused (reason : String)
  | started (lasting : Duration) (output : RawOutput)
  | broken (lasting : Duration) (cause : FileError)

/-- A machine decides what programs do to its files and what they answer. -/
structure Machine where
  launch : Invocation → FileTree → Launch × FileTree

/-- A routine on a workspace that can fail. -/
abbrev CompilerAction (α : Type) := ExceptT BuildError (Routine Workspace) α

namespace CompilerAction

/-- A step on the workspace within a piece. -/
def perform (action : StateM Workspace α) : CompilerAction α :=
  ExceptT.lift (Routine.step action)

/-- Lets others go on until the workspace is ready. -/
def await (ready : Workspace → Bool) : CompilerAction Unit :=
  ExceptT.lift (Routine.await ready (.done ()))

/-- An action on files that can fail. -/
def onFiles (action : BuildAction α) : CompilerAction α :=
  Routine.step (Workspace.onFiles action)

/-- Stops here if the request to cancel has come. -/
def checkpoint : CompilerAction Unit := do
  if ← perform Workspace.isCancelled then throw .cancelled

end CompilerAction

namespace Machine

/-- A machine without programs. -/
def bare (reason : String) : Machine :=
  ⟨fun _ files => (.refused reason, files)⟩

def start (machine : Machine) (invocation : Invocation) : StateM Workspace Launch :=
  fun workspace =>
    let (launch, files) := machine.launch invocation workspace.files
    (launch, { workspace with files })

/-- What a started program comes to, unless the request to cancel comes first. -/
def settle (invocation : Invocation) (lasting : Duration) (ending : Except BuildError ProgramOutput) :
    Except BuildError ProgramOutput :=
  match invocation.limit with
  | some limit =>
    if limit.nanoseconds ≤ lasting.nanoseconds then .error (.timeout invocation.unit limit) else ending
  | none => ending

/-- Waits for the end of a started program. -/
def await (invocation : Invocation) (lasting : Duration) (ending : Except BuildError ProgramOutput) :
    CompilerAction ProgramOutput := do
  CompilerAction.await fun _ => true
  CompilerAction.checkpoint
  settle invocation lasting ending

/-- Starts a program and waits for its end. -/
def run (machine : Machine) (invocation : Invocation) : CompilerAction ProgramOutput := do
  CompilerAction.checkpoint
  match ← CompilerAction.perform (machine.start invocation) with
  | .refused reason =>
    throw (.toolchain invocation.language ("failed to run " ++ invocation.program ++ ": " ++ reason))
  | .started lasting output => await invocation lasting (.ok output.decoded)
  | .broken lasting cause => await invocation lasting (.error (.file cause))

end Machine
end ContractBuild
