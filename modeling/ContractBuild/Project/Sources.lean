import ContractBuild.Project
/-!
The sources of a project: every file below the source directory whose extension tells a
language, in the order of their paths.
-/
namespace ContractBuild

/-- The sources at and below a root. There are none if the root is missing. -/
def discoverSources (root : Path) : ProjectAction (List Path) := do
  if !(← get).exists? root then return []
  return (← FileAction.filesBelow root).filter fun path => (Language.ofPath? path).isSome

namespace SourceUnit

def read (path : Path) : ProjectAction SourceUnit := do
  match Language.ofPath? path with
  | none => throw (.unsupportedSource path)
  | some language => return ⟨path, language, ← FileAction.readText path⟩

end SourceUnit

def Project.sourcePaths (project : Project) : ProjectAction (List Path) :=
  discoverSources project.sourcesDir

end ContractBuild
