import ContractBuild.Proofs.Build.Loading
import ContractBuild.Proofs.CommandLine.NewProject
import ContractBuild.Proofs.CommandLine.NewSettings

/-!
Loading a project that has just been laid out.
-/
namespace ContractBuild
open FileTree FileAction ContractBuild.Action

namespace Command

variable {directory : Path} {given : Option String} {before after : FileTree}

theorem Course.reveals_of_ok (course : Course directory given before (.ok ()) after) :
    ∃ name, given.or (absolutePath (before.place directory)).fileName? = some name ∧
      after.isDirectory directory = true ∧
      after.Reveals (directory.join Project.settingsFile) (initialSettings name).toUTF8 := by
  cases course with
  | @whole ready middle written _ name opened unset vacant filled named created settings ignored =>
    obtain ⟨location, located, asFile⟩ := settings.located
    have places : ∀ path, written.place path = middle.place path := settings.confined.place_eq
    have apart : middle.place (directory.join Project.settingsFile) ≠ written.place (directory.join ⟨".gitignore"⟩) := by
      have settingsPlace : middle.place (directory.join Project.settingsFile) = middle.place directory ++ ["kiln.yaml"] :=
        placeFrom_join_plain _ _ plain_settingsFile
      have ignoredPlace : middle.place (directory.join ⟨".gitignore"⟩) = middle.place directory ++ [".gitignore"] :=
        placeFrom_join_plain _ _ plain_ignored
      rw [places, settingsPlace, ignoredPlace]
      simp
    have there : after.fileAt (middle.place (directory.join Project.settingsFile)) =
        some (initialSettings name).toUTF8 := by
      rw [ignored.confined.outside _ apart]
      exact settings.there
    have reveals : after.Reveals (directory.join Project.settingsFile) (initialSettings name).toUTF8 := by
      refine ⟨location, ignored.confined.locate located, asFile, ?_⟩
      rw [ignored.confined.place_eq, places]
      exact there
    refine ⟨name, ?_, ?_, reveals⟩
    · rw [opened.confined.place_eq] at named
      rcases named with rfl | ⟨rfl, last⟩
      · rfl
      · exact last
    · obtain ⟨⟨entries, found, -⟩, -⟩ := (node_join_iff filled plain_settingsFile).1 (FileTree.reveals_iff.1 reveals)
      rw [FileTree.isDirectory, node?, found]
      rfl

/-- A new project is loaded with what can be read from its settings file. -/
theorem runInit_load_iff {path : String} {given : Option String} {console ended : Console}
    (ran : runInit path given console = (.ok (), ended)) (quiet : ended.files.faultAfter = none) :
    ∃ name, given.or (absolutePath (console.files.place ⟨path⟩)).fileName? = some name ∧
      ∀ project, Project.load ⟨path⟩ ended.files = (.ok project, ended.files) ↔
        project.base = ⟨path⟩ ∧ Settings.ofText? (initialSettings name) = some project.settings ∧
          project.settings.check = .ok () := by
  have course := runInit_course path given console
  rw [ran] at course
  obtain ⟨name, named, isDirectory, reveals⟩ := course.reveals_of_ok
  refine ⟨name, named, fun project => ?_⟩
  rw [Project.load_directory_iff quiet isDirectory]
  refine and_congr_right fun _ => ⟨?_, fun ⟨read, fine⟩ => ⟨_, _, reveals, fromUTF8?_toUTF8 _, read, fine⟩⟩
  rintro ⟨content, text, revealsOther, decoded, read, fine⟩
  have same := (FileTree.reveals_iff.1 revealsOther).symm.trans (FileTree.reveals_iff.1 reveals)
  obtain rfl : content = (initialSettings name).toUTF8 := by simpa using same
  rw [fromUTF8?_toUTF8] at decoded
  obtain rfl := Option.some.inj decoded
  exact ⟨read, fine⟩

/-- A new project is loaded under the name it was given exactly if the name is empty or verbatim, and then with the
settings of a new project. -/
theorem runInit_load_name_iff {path : String} {given : Option String} {console ended : Console}
    (ran : runInit path given console = (.ok (), ended)) (quiet : ended.files.faultAfter = none) :
    ∃ name, given.or (absolutePath (console.files.place ⟨path⟩)).fileName? = some name ∧
      ((∃ project, Project.load ⟨path⟩ ended.files = (.ok project, ended.files) ∧ project.settings.name = name) ↔
        name = "" ∨ Yaml.isVerbatim name.toList = true) ∧
      (name = "" ∨ Yaml.isVerbatim name.toList = true →
        Project.load ⟨path⟩ ended.files = (.ok ⟨newSettings name, ⟨path⟩⟩, ended.files)) := by
  obtain ⟨name, named, loads⟩ := runInit_load_iff ran quiet
  have loaded : name = "" ∨ Yaml.isVerbatim name.toList = true →
      Project.load ⟨path⟩ ended.files = (.ok ⟨newSettings name, ⟨path⟩⟩, ended.files) := by
    intro kept
    refine (loads _).2 ⟨rfl, ?_, rfl⟩
    rcases kept with rfl | verbatim
    · exact ofText?_unnamed
    · exact ofText?_verbatim verbatim
  refine ⟨name, named, ⟨fun ⟨project, found, same⟩ => ?_, fun kept => ⟨_, loaded kept, rfl⟩⟩, loaded⟩
  exact verbatim_of_ofText? ((loads project).1 found).2.1 same

def nothingThere : Console :=
  ⟨⟨.directory [], [], none⟩, []⟩

theorem runInit_load_name_iff_spaced : (runInit "p" (some "my project") nothingThere).1 = .ok () ∧
    Project.load ⟨"p"⟩ (runInit "p" (some "my project") nothingThere).2.files =
      (.ok ⟨newSettings "my project", ⟨"p"⟩⟩, (runInit "p" (some "my project") nothingThere).2.files) := by
  have ok : (runInit "p" (some "my project") nothingThere).1.isOk = true := by decide +kernel
  have quiet : (runInit "p" (some "my project") nothingThere).2.files.faultAfter.isNone = true := by decide +kernel
  -- what the command writes is not to be computed
  generalize ran : runInit "p" (some "my project") nothingThere = result at ok quiet
  obtain ⟨_ | ⟨⟩, ended⟩ := result
  · cases ok
  · obtain ⟨name, named, -, loads⟩ := runInit_load_name_iff ran (Option.isNone_iff_eq_none.1 quiet)
    rw [Option.some_or] at named
    obtain rfl := Option.some.inj named
    exact ⟨rfl, loads (.inr (by decide))⟩

end Command
end ContractBuild
