import ContractBuild.Compiler.Adapter
import ContractBuild.Compiler.Diagnostics
/-!
The Vyper compiler: a source file in, a line with the interface and a line with the bytecode
out.
-/
namespace ContractBuild.Vyper
open Text

def usualCommand : String := "vyper"

def flags (settings : CompilerSettings) : List String :=
  [Compiler.flagText "optimize" settings.optimize, Compiler.evmFlag settings] ++ settings.extraArgs

/-- The first release whose optimizer can be switched off. -/
def firstOptional : Version.Release := ⟨0, 3, 4⟩

/-- Whether the optimizer of a version cannot be switched off. -/
def alwaysOptimizes (version : String) : Bool :=
  (Version.release? version).any (·.isBefore firstOptional)

def arguments (base unit : Path) (settings : CompilerSettings) (version : String) : List String :=
  ["-f", "abi,bytecode", "-p", base.text]
    ++ (match settings.evmVersion with
      | some name => ["--evm-version", name]
      | none => [])
    ++ (if settings.optimize || alwaysOptimizes version then [] else ["--no-optimize"])
    ++ settings.extraArgs ++ [unit.text]

def interfaceOf? (line : String) : Option (List Item) :=
  (Json.scan? line).bind Item.manyOfJson?

/-- The interface and bytecode in the compiler's output, or what is missing. -/
def readOutput (text : String) : Except (List String) CompilerOutput :=
  match Compiler.filledLines text with
  | [] => .error ["vyper produced no output"]
  | line :: rest =>
    match interfaceOf? line, rest with
    | none, _ => .error ["unreadable vyper ABI: malformed JSON"]
    | some _, [] => .error ["vyper produced no bytecode"]
    | some interface, bytecode :: _ => .ok ⟨interface, Compiler.markedHex bytecode⟩

/-- The invocation that compiles one source. -/
def invocation (settings : CompilerSettings) (options : CompilerOptions) (unit : SourceUnit)
    (version : String) : Invocation where
  language := .vyper
  program := settings.commandOr usualCommand
  arguments := arguments options.base unit.path settings version
  input := none
  directory := none
  limit := options.limit
  unit := unit.path

/-- What a compiler that came to its end left behind. Its code tells of a failure. -/
def readAnswer (settings : CompilerSettings) (output : ProgramOutput) :
    Except (List String) CompilerOutput :=
  if output.success then readOutput output.output
  else .error (Compiler.diagnostics (settings.commandOr usualCommand) output.errors output.code)

def compile (machine : Machine) (settings : CompilerSettings) (options : CompilerOptions)
    (unit : SourceUnit) (version : String) : CompilerAction Artifact :=
  Compiler.compileUnit machine options unit version (flags settings) (invocation settings options unit version)
    (readAnswer settings)

def adapter (machine : Machine) (settings : CompilerSettings) (options : CompilerOptions) :
    Adapter :=
  ⟨.vyper, flags settings, compile machine settings options⟩

end ContractBuild.Vyper
