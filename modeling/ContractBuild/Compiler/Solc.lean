import ContractBuild.Compiler.Adapter
import ContractBuild.Compiler.Diagnostics
/-!
The Solidity compiler: one JSON document in, one out. A document that reports an error is a
failure whatever else it holds; otherwise the contract named like the source counts, or the only
one there.
-/
namespace ContractBuild.Solc
open Json Text

def usualCommand : String := "solc"

def flags (settings : CompilerSettings) : List String :=
  [Compiler.flagText "optimize" settings.optimize,
    "runs=" ++ Numeral.render settings.optimizerRuns,
    Compiler.evmFlag settings] ++ settings.extraArgs

/-- The name of a source inside the document: its path from the base with slashes. -/
def sourceKey (unit base : Path) : String :=
  Path.slashText ((unit.relativeTo? base).getD unit.components)

/-- The document that asks for the interface and the bytecode of one source. -/
def request (key content : String) (settings : CompilerSettings) : Json :=
  let evm := settings.evmVersion.map fun version => ("evmVersion", Json.string version)
  .object [
    ("language", .string "Solidity"),
    ("settings", .object (evm.toList ++ [
      ("optimizer", .object [
        ("enabled", .bool settings.optimize), ("runs", .natural settings.optimizerRuns)]),
      ("outputSelection", .object [
        ("*", .object [("*", ofStrings ["abi", "evm.bytecode.object"])])])])),
    ("sources", .object [(key, .object [("content", .string content)])])]

def arguments (base : Path) (settings : CompilerSettings) : List String :=
  ["--standard-json", "--base-path", base.text, "--allow-paths", base.text] ++ settings.extraArgs

structure Diagnostic where
  severity : String
  text : String
  deriving DecidableEq

/-- A contract in the answer. -/
structure Contract where
  interface : List Item
  bytecode : String

structure Answer where
  diagnostics : List Diagnostic
  contracts : List (String × List (String × Contract))

def diagnosticOf? (value : Json) : Option Diagnostic := do
  match ← fields? ["severity", "message", "formattedMessage"] value with
  | [severity, message, formatted] =>
    let severity ← required? asString? severity
    let message ← defaulted? "" asString? message
    return ⟨severity, (← optional? asString? formatted).getD message⟩
  | _ => none

def bytecodeOf? (value : Json) : Option String := do
  match ← fields? ["object"] value with
  | [digits] => defaulted? "" asString? digits
  | _ => none

def evmOf? (value : Json) : Option (Option String) := do
  match ← fields? ["bytecode"] value with
  | [bytecode] => optional? bytecodeOf? bytecode
  | _ => none

def contractOf? (value : Json) : Option Contract := do
  match ← fields? ["abi", "evm"] value with
  | [interface, evm] =>
    let interface ← defaulted? [] Item.manyOfJson? interface
    return ⟨interface, (← optional? evmOf? evm).join.getD ""⟩
  | _ => none

/-- The members of an object by key. Of members with one key the last counts. -/
def entriesOf? (decode : Json → Option α) : Json → Option (List (String × α))
  | object members => do
    return lastOfEach (← members.mapM fun (key, value) => (decode value).map (key, ·))
  | _ => none

def Answer.ofText? (text : String) : Option Answer := do
  match ← fields? ["errors", "contracts"] (← scan? text) with
  | [errors, contracts] =>
    return {
      diagnostics := ← defaulted? [] (asList? diagnosticOf?) errors
      contracts := ← defaulted? [] (entriesOf? (entriesOf? contractOf?)) contracts }
  | _ => none

/-- The texts of the diagnostics that are errors. -/
def Answer.errors (answer : Answer) : List String :=
  (answer.diagnostics.filter (·.severity = "error")).map fun diagnostic => trimmed diagnostic.text

def pickContract (key name : String) (contracts : List (String × Contract)) :
    Except String Contract :=
  match contracts.find? (·.1 = name), contracts with
  | some (_, contract), _ => .ok contract
  | none, [(_, contract)] => .ok contract
  | none, contracts =>
    .error ("no contract named " ++ name ++ " in " ++ key ++ " (found: "
      ++ join ", " ((contracts.map (·.1)).mergeSort (· ≤ ·)) ++ ")")

/-- What an answer without errors gives for one source and contract. -/
def Answer.contract (answer : Answer) (key name : String) : Except String Contract :=
  match answer.contracts.find? (·.1 = key) with
  | none => .error ("solc produced no contracts for " ++ key)
  | some (_, contracts) => pickContract key name contracts

/-- The interface and bytecode in the compiler's output, or its diagnostics. -/
def readOutput (text key name : String) : Except (List String) CompilerOutput :=
  match Answer.ofText? text with
  | none => .error ["unreadable solc output: malformed JSON"]
  | some answer =>
    if answer.errors.isEmpty then
      match answer.contract key name with
      | .ok contract => .ok ⟨contract.interface, Compiler.markedHex contract.bytecode⟩
      | .error problem => .error [problem]
    else .error answer.errors

/-- The invocation that compiles one source. -/
def invocation (settings : CompilerSettings) (options : CompilerOptions) (unit : SourceUnit) : Invocation where
  language := .solidity
  program := settings.commandOr usualCommand
  arguments := arguments options.base settings
  input := some (request (sourceKey unit.path options.base) unit.content settings).compact
  directory := none
  limit := options.limit
  unit := unit.path

/-- What a compiler that came to its end left behind. Output alone tells of a failure: the code counts only
where there is none. -/
def readAnswer (settings : CompilerSettings) (options : CompilerOptions) (unit : SourceUnit)
    (output : ProgramOutput) : Except (List String) CompilerOutput :=
  if isBlankText output.output then
    .error (Compiler.diagnostics (settings.commandOr usualCommand) output.errors output.code)
  else readOutput output.output (sourceKey unit.path options.base) unit.artifactName

def compile (machine : Machine) (settings : CompilerSettings) (options : CompilerOptions)
    (unit : SourceUnit) (version : String) : CompilerAction Artifact :=
  Compiler.compileUnit machine options unit version (flags settings) (invocation settings options unit)
    (readAnswer settings options unit)

def adapter (machine : Machine) (settings : CompilerSettings) (options : CompilerOptions) :
    Adapter :=
  ⟨.solidity, flags settings, compile machine settings options⟩

end ContractBuild.Solc
