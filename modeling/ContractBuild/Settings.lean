import ContractBuild.Binding.Dialect
import ContractBuild.Source
import ContractBuild.Yaml.Decode
/-!
The settings of a project as its file gives them, with a value for everything that is left out.
Older spellings of a name are read as well, but no field may be given twice.
-/
namespace ContractBuild
open Text

structure CompilerSettings where
  version : String
  command : Option String
  optimize : Bool
  optimizerRuns : Nat
  evmVersion : Option String
  extraArgs : List String
  deriving DecidableEq

structure BuildSettings where
  cacheDir : String
  scratchDir : String
  keepScratch : Bool
  concurrency : Nat
  timeoutSeconds : Option Nat
  deriving DecidableEq

structure InterfaceSettings where
  path : String
  runOnCompile : Bool
  clear : Bool
  flat : Bool
  flatName : String
  only : List String
  spacing : Nat
  deriving DecidableEq

structure BindingSettings where
  outDir : String
  target : Dialect
  everyOverload : Bool
  externals : List String
  deriving DecidableEq

structure Settings where
  name : String
  version : String
  sources : String
  solidity : Option CompilerSettings
  vyper : Option CompilerSettings
  build : BuildSettings
  interfaces : InterfaceSettings
  bindings : BindingSettings
  deriving DecidableEq

/-- Why settings that can be read are refused. -/
inductive SettingsError
  | noConcurrency
  | emptyVersion (language : Language)
  | repeatedSelection (name : String)
  | wideSpacing
  | emptyFlatName
  deriving DecidableEq

namespace SettingsError

def message : SettingsError → String
  | noConcurrency => "build.concurrency must be at least 1"
  | emptyVersion language => "compilers." ++ language.tag ++ ".version must not be empty"
  | repeatedSelection name => "interfaces.only lists '" ++ name ++ "' more than once"
  | wideSpacing => "interfaces.spacing must be at most 16"
  | emptyFlatName => "interfaces.flat_name must not be empty when flat is enabled"

end SettingsError

namespace CompilerSettings
open Yaml

/-- The executable, or the usual one. -/
def commandOr (settings : CompilerSettings) (usual : String) : String :=
  settings.command.getD usual

def defaultRuns : Nat := 200

def ofYaml? (value : Yaml) : Option CompilerSettings := do
  let members ← members? value
  return {
    version := ← required? members ["version", "compilerVersion"] asString?
    command := ← defaulted? members ["command"] none (asOption? asString?)
    optimize := ← defaulted? members ["optimize"] true asBool?
    optimizerRuns := ← defaulted? members ["optimizer_runs"] defaultRuns (asNatural? (UInt32.size - 1))
    evmVersion := ← defaulted? members ["evm_version"] none (asOption? asString?)
    extraArgs := ← defaulted? members ["extra_args"] [] (asList? asString?) }

end CompilerSettings

namespace BuildSettings
open Yaml

def default : BuildSettings :=
  ⟨".kiln/cache", ".kiln/scratch", false, 4, none⟩

def ofYaml? (value : Yaml) : Option BuildSettings := do
  let members ← members? value
  return {
    cacheDir := ← defaulted? members ["cache_dir"] default.cacheDir asString?
    scratchDir := ← defaulted? members ["scratch_dir"] default.scratchDir asString?
    keepScratch := ← defaulted? members ["keep_scratch"] default.keepScratch asBool?
    concurrency := ← defaulted? members ["concurrency"] default.concurrency
      (asNatural? Numeral.wordMax)
    timeoutSeconds := ← defaulted? members ["compiler_timeout_secs"] default.timeoutSeconds
      (asOption? (asNatural? Numeral.wordMax)) }

end BuildSettings

namespace InterfaceSettings
open Yaml

def default : InterfaceSettings :=
  ⟨"abis", false, false, false, "Interface", [], 2⟩

def ofYaml? (value : Yaml) : Option InterfaceSettings := do
  let members ← members? value
  return {
    path := ← defaulted? members ["path", "outputPath"] default.path asString?
    runOnCompile := ← defaulted? members ["run_on_compile", "runOnCompile"] default.runOnCompile asBool?
    clear := ← defaulted? members ["clear", "clearStale"] default.clear asBool?
    flat := ← defaulted? members ["flat", "flatten"] default.flat asBool?
    flatName := ← defaulted? members ["flat_name"] default.flatName asString?
    only := ← defaulted? members ["only", "selection"] default.only (asList? asString?)
    spacing := ← defaulted? members ["spacing"] default.spacing (asNatural? Numeral.wordMax) }

end InterfaceSettings

namespace BindingSettings
open Yaml

def default : BindingSettings :=
  ⟨"bindings", .ethersV5, false, []⟩

def ofYaml? (value : Yaml) : Option BindingSettings := do
  let members ← members? value
  return {
    outDir := ← defaulted? members ["out_dir", "outDir"] default.outDir asString?
    target := ← defaulted? members ["target"] default.target
      fun value => (asCase? value).bind Dialect.ofText?
    everyOverload := ← defaulted? members ["always_generate_overloads", "alwaysGenerateOverloads"]
      default.everyOverload asBool?
    externals := ← defaulted? members ["external_artifacts", "externalArtifacts"] default.externals
      (asList? asString?) }

end BindingSettings

namespace Settings
open Yaml

def compilers? (value : Yaml) :
    Option (Option CompilerSettings × Option CompilerSettings) := do
  let members ← members? value
  let solidity ← defaulted? members ["solidity"] none (asOption? CompilerSettings.ofYaml?)
  let vyper ← defaulted? members ["vyper"] none (asOption? CompilerSettings.ofYaml?)
  return (solidity, vyper)

def ofYaml? (value : Yaml) : Option Settings := do
  let members ← members? value
  let (solidity, vyper) ← defaulted? members ["compilers"] (none, none) compilers?
  return {
    name := ← required? members ["name"] asString?
    version := ← defaulted? members ["version"] "0.1.0" asString?
    sources := ← defaulted? members ["sources"] "contracts" asString?
    solidity, vyper
    build := ← defaulted? members ["build"] .default BuildSettings.ofYaml?
    interfaces := ← defaulted? members ["interfaces", "abi_exporter", "abiExporter"] .default
      InterfaceSettings.ofYaml?
    bindings := ← defaulted? members ["bindings", "typechain"] .default BindingSettings.ofYaml? }

def ofText? (text : String) : Option Settings :=
  match Yaml.read text with
  | .ok value => ofYaml? value
  | .error _ => none

def compiler? (settings : Settings) : Language → Option CompilerSettings
  | .solidity => settings.solidity
  | .vyper => settings.vyper

/-- The first name that occurs twice. -/
def firstRepeated? (seen : List String) : List String → Option String
  | [] => none
  | name :: names => if name ∈ seen then some name else firstRepeated? (name :: seen) names

def emptyVersion? (settings : Settings) : Option Language :=
  Language.all.find? fun language =>
    (settings.compiler? language).any fun compiler => isBlankText compiler.version

/-- The first thing that is wrong with settings. -/
def check (settings : Settings) : Except SettingsError Unit := do
  if settings.build.concurrency = 0 then throw .noConcurrency
  match settings.emptyVersion? with
  | some language => throw (.emptyVersion language)
  | none => pure ()
  match firstRepeated? [] settings.interfaces.only with
  | some name => throw (.repeatedSelection name)
  | none => pure ()
  if settings.interfaces.spacing > 16 then throw .wideSpacing
  if settings.interfaces.flat && isBlankText settings.interfaces.flatName then throw .emptyFlatName

end Settings
end ContractBuild
