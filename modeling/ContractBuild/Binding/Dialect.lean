import ContractBuild.Binding.RustModule
import ContractBuild.Binding.TypeScript
/-!
The dialects that bindings can be written in, and the files that the bindings of a list of
descriptors are kept in: one for each descriptor and an index over them.
-/
namespace ContractBuild

inductive Dialect
  | ethersV5
  | rust
  deriving DecidableEq

namespace Dialect

/-- The line at the top of every generated file. -/
def header : String := "Autogenerated by kiln. Do not edit manually."

def text : Dialect → String
  | ethersV5 => "ethers-v5"
  | rust => "rust"

def ofText? : String → Option Dialect
  | "ethers-v5" => some ethersV5
  | "rust" => some rust
  | _ => none

/-- Without the dot. -/
def fileExtension : Dialect → String
  | ethersV5 => "ts"
  | rust => "rs"

def indexStem : Dialect → String
  | ethersV5 => TypeScript.indexStem
  | rust => RustModule.indexStem

def fileStem : Dialect → String → String
  | ethersV5, name => name
  | rust, name => RustModule.moduleName name

def render : Dialect → BindingPlan → String
  | ethersV5, plan => TypeScript.render header plan
  | rust, plan => RustModule.render header plan

def renderIndex : Dialect → List String → String
  | ethersV5, names => TypeScript.renderIndex header names
  | rust, names => RustModule.renderIndex header names

def fileName (dialect : Dialect) (stem : String) : String :=
  stem ++ "." ++ dialect.fileExtension

end Dialect
end ContractBuild
