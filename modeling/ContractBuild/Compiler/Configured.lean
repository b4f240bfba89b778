import ContractBuild.Compiler.Solc
import ContractBuild.Compiler.Vyper
/-!
The adapters that the settings of a project call for: one for each language with a section of
its own.
-/
namespace ContractBuild

def Adapters.ofProject (machine : Machine) (project : Project) : Adapters :=
  let options := CompilerOptions.ofProject project
  fun language =>
    (project.settings.compiler? language).map fun settings =>
      match language with
      | .solidity => Solc.adapter machine settings options
      | .vyper => Vyper.adapter machine settings options

end ContractBuild
