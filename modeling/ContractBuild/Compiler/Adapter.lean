import ContractBuild.Artifact
import ContractBuild.Compiler.Version
/-!
Adapters: one compiler for one language. The flags say everything about its settings that has a
part in what it produces.
-/
namespace ContractBuild

structure Adapter where
  language : Language
  flags : List String
  compile : SourceUnit → (version : String) → CompilerAction Artifact

/-- The adapter of each language that has one. -/
abbrev Adapters := Language → Option Adapter

/-- What compilers run by one project have in common: where imports start from, where raw output
is kept if it is kept, and how long a compiler may take. -/
structure CompilerOptions where
  base : Path
  scratch : Option Path
  limit : Option Duration
  deriving DecidableEq

namespace CompilerOptions

def ofProject (project : Project) : CompilerOptions :=
  let build := project.settings.build
  { base := project.sourcesDir
    scratch := if build.keepScratch then some project.scratchDir else none
    limit := build.timeoutSeconds.map Duration.ofSeconds }

end CompilerOptions

namespace Compiler

def flagText (name : String) (value : Bool) : String :=
  name ++ "=" ++ (if value then "true" else "false")

def evmFlag (settings : CompilerSettings) : String :=
  "evm=" ++ settings.evmVersion.getD "default"

/-- Writes raw compiler output to the scratch directory. -/
def keepOutput (directory : Path) (name : String) (language : Language) (text : String) :
    FileAction Path := do
  FileAction.createDirectories directory
  let path := directory.join ⟨name ++ "." ++ language.tag ++ ".out"⟩
  FileAction.writeFile path text.toUTF8
  return path

/-- Keeps the output of a compiler if the options ask for it. -/
def keepIfWanted (options : CompilerOptions) (unit : SourceUnit) (language : Language)
    (output : ProgramOutput) : CompilerAction Unit :=
  match options.scratch with
  | none => return ()
  | some directory =>
    CompilerAction.onFiles do
      let _ ← keepOutput directory unit.artifactName language output.output
      return ()

/-- One compilation of a source: the version is checked, the compiler runs, and its output is kept if the
options ask for that and then read. -/
def compileUnit (machine : Machine) (options : CompilerOptions) (unit : SourceUnit) (version : String)
    (flags : List String) (invocation : Invocation)
    (read : ProgramOutput → Except (List String) CompilerOutput) : CompilerAction Artifact := do
  VersionCheck.ensure machine invocation.language invocation.program version options.limit
  let output ← machine.run invocation
  keepIfWanted options unit invocation.language output
  match read output with
  | .ok result => return Artifact.ofOutput unit version flags result
  | .error diagnostics => throw (.compile unit.path diagnostics)

end Compiler
end ContractBuild
