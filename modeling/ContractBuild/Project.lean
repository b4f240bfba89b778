import ContractBuild.FileTree.Action
import ContractBuild.Project.Error
/-!
A project: settings together with the directory that their paths start from. Paths in the
settings are taken relative to that directory and never made canonical.
-/
namespace ContractBuild

structure Project where
  settings : Settings
  base : Path
  deriving DecidableEq

abbrev ProjectAction (α : Type) := ExceptT ProjectError (StateM FileTree) α

/-- An action on files whose failure is told in other terms. -/
def FileAction.telling (tell : FileError → ε) (action : FileAction α) :
    ExceptT ε (StateM FileTree) α :=
  fun tree =>
    match action tree with
    | (.ok value, tree) => (.ok value, tree)
    | (.error cause, tree) => (.error (tell cause), tree)

instance : MonadLift (ExceptT FileError (StateM FileTree)) (ExceptT ProjectError (StateM FileTree)) :=
  ⟨FileAction.telling .file⟩

namespace Project

/-- The name of the settings file in a project's directory. -/
def settingsFile : Path := ⟨"kiln.yaml"⟩

def ofText (text : String) (base : Path) : Except ProjectError Project :=
  match Settings.ofText? text with
  | none => .error .malformed
  | some settings =>
    match settings.check with
    | .error cause => .error (.refused cause.message)
    | .ok () => .ok ⟨settings, base⟩

/-- The project of a directory or of a settings file. -/
def load (path : Path) : ProjectAction Project := do
  let tree ← get
  let (file, base) :=
    if tree.isDirectory path then (path.join settingsFile, path)
    else (path, path.parent?.getD ⟨"."⟩)
  if !tree.exists? file then throw (.missing file)
  ofText (← FileAction.readText file) base

def resolve (project : Project) (path : String) : Path :=
  project.base.join ⟨path⟩

def sourcesDir (project : Project) : Path :=
  project.resolve project.settings.sources

def cacheDir (project : Project) : Path :=
  project.resolve project.settings.build.cacheDir

def scratchDir (project : Project) : Path :=
  project.resolve project.settings.build.scratchDir

def interfacesDir (project : Project) : Path :=
  project.resolve project.settings.interfaces.path

def bindingsDir (project : Project) : Path :=
  project.resolve project.settings.bindings.outDir

def compiler (project : Project) (language : Language) : Except ProjectError CompilerSettings :=
  match project.settings.compiler? language with
  | some compiler => .ok compiler
  | none => .error (.noCompiler language)

def hasCompiler (project : Project) (language : Language) : Bool :=
  (project.settings.compiler? language).isSome

end Project
end ContractBuild
