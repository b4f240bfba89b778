import ContractBuild.CommandLine.Commands
import ContractBuild.Proofs.FileTree.Spelling

/-!
Laying out a new project next to what is there already. Files are written in two places only, and only one
of them is looked at first: where the settings are, nothing has been before, but an ignore list takes the
place of whatever file has its name.
-/
namespace ContractBuild
open FileTree FileAction ContractBuild.Action
open FileNode (Plain)

theorem FileTree.exists?_eq_true {tree : FileTree} {path : Path} :
    tree.exists? path = true ↔ ∃ node, tree.node path = .ok node := by
  unfold exists? node?
  cases tree.node path with
  | error cause => exact ⟨nofun, nofun⟩
  | ok node => exact ⟨fun _ => ⟨node, rfl⟩, fun _ => rfl⟩

namespace FileAction

theorem writeFile_ok {path : Path} {content : ByteArray} {tree after : FileTree}
    (ran : writeFile path content tree = (.ok (), after)) :
    (∃ location, tree.locate path = .ok location) ∧ Stored tree path content after := by
  obtain ⟨left, quiet, went⟩ := attempt_ok ran
  obtain ⟨location, located, asFile, free, rfl⟩ := storeAt_ok went
  have stored := stored_placed located asFile free content
  exact ⟨⟨location, located⟩, stored.located,
    (sameFiles_withFault quiet).confined.trans stored.confined, stored.there⟩

theorem writeFile_error {path : Path} {content : ByteArray} {tree after : FileTree} {cause : FileError}
    (ran : writeFile path content tree = (.error cause, after)) : tree.SameFiles after :=
  attempt_error ran

theorem Stored.of_same {tree middle after : FileTree} {path : Path} {content : ByteArray}
    (stored : Stored tree path content middle) (same : middle.SameFiles after) : Stored tree path content after := by
  obtain ⟨⟨location, located, asFile⟩, confined, there⟩ := stored
  exact ⟨⟨location, (same.locate_eq path).trans located, asFile⟩, confined.trans same.confined,
    (same.fileAt_eq _).trans there⟩

theorem reads_canonical (path : Path) : Reads (canonical path) := by
  refine reads_attempt fun tree place after ran => ?_
  cases located : tree.locate path with
  | error cause => rw [located] at ran; cases ran
  | ok location =>
    cases found : tree.node path with
    | error cause => rw [located, found] at ran; cases ran
    | ok node => rw [located, found] at ran; cases ran; rfl

theorem canonical_ok {path place : Path} {tree after : FileTree} (ran : canonical path tree = (.ok place, after)) :
    (∃ node, after.node path = .ok node) ∧ place = absolutePath (after.place path) := by
  have same : tree.SameFiles after := by
    have reads := reads_canonical path tree
    rwa [ran] at reads
  obtain ⟨left, -, went⟩ := attempt_ok ran
  rw [same.node_eq, same.place_eq]
  have sameLocated : tree.locate path = (withFault tree left).locate path := rfl
  have sameNode : tree.node path = (withFault tree left).node path := rfl
  rw [← sameLocated, ← sameNode] at went
  cases located : tree.locate path with
  | error cause => rw [located] at went; cases went
  | ok location =>
    cases found : tree.node path with
    | error cause => rw [located, found] at went; cases went
    | ok node =>
      rw [located, found] at went
      cases went
      exact ⟨⟨node, rfl⟩, by rw [(locate_ok located).1]⟩

/-- Nothing has to be created for the empty path. -/
theorem createDirectories_empty (tree : FileTree) : createDirectories Path.empty tree = (.ok (), tree) := by
  rw [createDirectories_eq]
  rfl

end FileAction

namespace ConsoleAction

variable {ε α : Type}

@[simp] theorem info_apply (message : String) (console : Console) :
    info message console = (.ok (), { console with said := console.said ++ [.log .info message] }) := rfl

theorem onFiles_apply (tell : ε → Trouble) (action : ExceptT ε (StateM FileTree) α) (console : Console) :
    onFiles tell action console =
      ((action console.files).1.mapError tell, { console with files := (action console.files).2 }) := rfl

end ConsoleAction

namespace Command
open ConsoleAction

variable {directory : Path} {given : Option String} {before ready middle after : FileTree} {name : String}

/-! The steps of the command -/

def layOut (directory : Path) (name : String) : FileAction Unit := do
  createDirectories (directory.join ⟨"contracts"⟩)
  writeFile (directory.join Project.settingsFile) (initialSettings name).toUTF8
  writeFile (directory.join ⟨".gitignore"⟩) ignoreList.toUTF8

structure Opened (directory : Path) (before ready : FileTree) : Prop where
  confined : Confined (fun _ => False) before ready
  same : before.exists? (directory.join Project.settingsFile) = true → before.SameFiles ready

theorem Opened.of_same (opened : Opened directory before ready) (same : ready.SameFiles after) :
    Opened directory before after :=
  ⟨opened.confined.trans same.confined, fun settings => (opened.same settings).trans same⟩

/-- How far laying out a project comes. It fails before it writes a file, between the two, or not at all. -/
inductive Course (directory : Path) (given : Option String) (before : FileTree) :
    Except Trouble Unit → FileTree → Prop
  | refused {trouble : Trouble} {after : FileTree} (opened : Opened directory before after) :
      Course directory given before (.error trouble) after
  | bare {trouble : Trouble} {ready after : FileTree} (opened : Opened directory before ready)
      (unset : ready.exists? (directory.join Project.settingsFile) = false)
      (created : Confined (fun _ => False) ready after) :
      Course directory given before (.error trouble) after
  | half {trouble : Trouble} {ready middle after : FileTree} {name : String}
      (opened : Opened directory before ready)
      (unset : ready.exists? (directory.join Project.settingsFile) = false)
      (vacant : ready.root.sight (ready.place (directory.join Project.settingsFile)) = none)
      (created : Confined (fun _ => False) ready middle)
      (settings : Stored middle (directory.join Project.settingsFile) (initialSettings name).toUTF8 after) :
      Course directory given before (.error trouble) after
  | whole {ready middle written after : FileTree} {name : String} (opened : Opened directory before ready)
      (unset : ready.exists? (directory.join Project.settingsFile) = false)
      (vacant : ready.root.sight (ready.place (directory.join Project.settingsFile)) = none)
      (filled : directory.text.toList ≠ [])
      (named : given = some name ∨
        given = none ∧ (absolutePath (ready.place directory)).fileName? = some name)
      (created : Confined (fun _ => False) ready middle)
      (settings : Stored middle (directory.join Project.settingsFile) (initialSettings name).toUTF8 written)
      (ignored : Stored written (directory.join ⟨".gitignore"⟩) ignoreList.toUTF8 after) :
      Course directory given before (.ok ()) after

theorem plain_settingsFile : Plain "kiln.yaml" :=
  ⟨by decide, by decide, by decide, by decide⟩

theorem plain_ignored : Plain ".gitignore" :=
  ⟨by decide, by decide, by decide, by decide⟩

theorem opened_of_ran {outcome : Except FileError Unit}
    (ran : (if !before.exists? directory then createDirectories directory before else (.ok (), before)) =
      (outcome, ready)) : Opened directory before ready := by
  cases there : before.exists? directory with
  | true =>
    rw [there, if_neg (by decide)] at ran
    cases ran
    exact ⟨.refl before, fun _ => .refl before⟩
  | false =>
    rw [there, if_pos (by decide)] at ran
    have confined : Confined (fun _ => False) before (createDirectories directory before).2 :=
      createDirectories_confined directory before
    rw [ran] at confined
    refine ⟨confined, fun settings => ?_⟩
    obtain ⟨node, found⟩ := exists?_eq_true.1 settings
    -- only behind the empty path can a file be where no directory is
    have empty : directory.text.toList = [] := by
      by_contra filled
      obtain ⟨⟨entries, isThere, -⟩, -⟩ := (node_join_iff filled plain_settingsFile).1 found
      rw [exists?_eq_true.2 ⟨_, isThere⟩] at there
      cases there
    obtain rfl : directory = Path.empty := by
      cases directory
      exact congrArg Path.mk (String.toList_eq_nil_iff.1 empty)
    rw [createDirectories_empty] at ran
    cases ran
    exact .refl before

/-- Settings are only written where nothing is. -/
theorem vacant_of_written {node : FileNode} (found : ready.node directory = .ok node)
    (unset : ready.exists? (directory.join Project.settingsFile) = false)
    (created : Confined (fun _ => False) ready middle)
    (located : ∃ location, middle.locate (directory.join Project.settingsFile) = .ok location) :
    ready.root.sight (ready.place (directory.join Project.settingsFile)) = none := by
  obtain ⟨location, located⟩ := located
  obtain ⟨names, usable⟩ := locate_ok located
  rw [created.place_eq] at names
  have behind : ready.place (directory.join Project.settingsFile) = ready.place directory ++ ["kiln.yaml"] :=
    placeFrom_join_plain _ _ plain_settingsFile
  have leads : middle.IsDirectoryAt (ready.place directory) := by
    rcases usable.reaches with none | leads
    · rw [names, behind] at none
      simp at none
    · rwa [names, behind, List.dropLast_concat] at leads
  obtain ⟨place, locatedThere, there, -⟩ := node_eq_ok.1 found
  rw [(locate_ok locatedThere).1] at there
  cases node with
  | file content =>
    have stays := created.outside (ready.place directory) not_false
    rw [fileAt_eq_some.2 there] at stays
    exact absurd leads (not_isDirectoryAt_of_fileAt stays)
  | directory entries =>
    rw [behind, FileNode.sight, FileNode.get?_append there]
    cases entry : FileNode.entryOf? "kiln.yaml" entries with
    | none => simp [FileNode.get?, entry]
    | some child =>
      obtain ⟨-, noNull, short, -⟩ := locate_eq_ok.1 located
      have isThere : ready.node (directory.join Project.settingsFile) = .ok child :=
        (node_join_iff (node_nonempty found) plain_settingsFile).2
          ⟨⟨entries, found, entry⟩, ⟨noNull, Nat.le_of_not_gt short⟩, by decide⟩
      rw [exists?_eq_true.2 ⟨child, isThere⟩] at unset
      cases unset

theorem projectName_apply (given : Option String) (place : Path) (console : Console) :
    (∃ name, projectName given place console = (.ok name, console) ∧
        (given = some name ∨ given = none ∧ place.fileName? = some name)) ∨
      ∃ trouble, projectName given place console = (.error trouble, console) := by
  unfold projectName
  cases given with
  | some name => exact .inl ⟨name, rfl, .inl rfl⟩
  | none =>
    cases last : place.fileName? with
    | some name => exact .inl ⟨name, rfl, .inr ⟨rfl, rfl⟩⟩
    | none => exact .inr ⟨_, rfl⟩

theorem sayNextSteps_apply (directory : Path) (console : Console) :
    ∃ said, sayNextSteps directory console = (.ok (), ⟨console.files, said⟩) := by
  unfold sayNextSteps
  by_cases here : directory.text = "."
  · exact ⟨_, by simp [here]; rfl⟩
  · exact ⟨_, by simp [here]; rfl⟩

theorem layOut_course {outcome : Except FileError Unit} {node : FileNode}
    (opened : Opened directory before ready) (found : ready.node directory = .ok node)
    (unset : ready.exists? (directory.join Project.settingsFile) = false)
    (named : given = some name ∨ given = none ∧ (absolutePath (ready.place directory)).fileName? = some name)
    (ran : layOut directory name ready = (outcome, after)) :
    Course directory given before (outcome.mapError .ofFile) after := by
  unfold layOut at ran
  have created : Confined (fun _ => False) ready (createDirectories (directory.join ⟨"contracts"⟩) ready).2 :=
    createDirectories_confined _ _
  cases made : createDirectories (directory.join ⟨"contracts"⟩) ready with
  | mk outcomeMade middle =>
    rw [made] at created
    cases outcomeMade with
    | error cause =>
      rw [bind_of_error made] at ran
      cases ran
      exact .bare opened unset created
    | ok _ =>
      rw [bind_of_ok made] at ran
      cases wrote : writeFile (directory.join Project.settingsFile) (initialSettings name).toUTF8 middle with
      | mk outcomeWrote written =>
        cases outcomeWrote with
        | error cause =>
          rw [bind_of_error wrote] at ran
          cases ran
          exact .bare opened unset (created.trans (writeFile_error wrote).confined)
        | ok _ =>
          rw [bind_of_ok wrote] at ran
          obtain ⟨located, settings⟩ := writeFile_ok wrote
          have vacant := vacant_of_written found unset created located
          cases outcome with
          | error cause => exact .half opened unset vacant created (settings.of_same (writeFile_error ran))
          | ok _ => exact .whole opened unset vacant (node_nonempty found) named created settings (writeFile_ok ran).2

def startIn (directory : Path) (given : Option String) : ConsoleAction Unit := do
  let place ← onFiles .ofFile (canonical directory)
  let name ← projectName given place
  if (← get).files.exists? (directory.join Project.settingsFile) then
    throw (.plain ("Directory '" ++ directory.text ++ "' already contains a " ++ Project.settingsFile.text))
  info ("Creating new Kiln project: " ++ name)
  onFiles .ofFile (layOut directory name)
  info ("✓ Created project '" ++ name ++ "' at " ++ place.text)
  sayNextSteps directory

theorem runInit_eq (path : String) (given : Option String) (console : Console) :
    runInit path given console =
      match if !console.files.exists? ⟨path⟩ then createDirectories ⟨path⟩ console.files
        else (.ok (), console.files) with
      | (.ok (), files) => startIn ⟨path⟩ given ⟨files, console.said⟩
      | (.error cause, files) => (.error (.ofFile cause), ⟨files, console.said⟩) := by
  unfold runInit
  rw [bind_apply]
  simp only [get_apply]
  cases console.files.exists? ⟨path⟩ with
  | true => rfl
  | false =>
    rw [if_pos (by decide), if_pos (by decide), bind_apply, onFiles_apply]
    rcases createDirectories ⟨path⟩ console.files with ⟨cause | _, files⟩ <;> rfl

theorem startIn_course {console : Console} (opened : Opened directory before console.files) :
    Course directory given before (startIn directory given console).1 (startIn directory given console).2.files := by
  unfold startIn
  rw [bind_apply, onFiles_apply]
  cases settled : canonical directory console.files with
  | mk outcome ready =>
    have same : console.files.SameFiles ready := by
      have reads := reads_canonical directory console.files
      rwa [settled] at reads
    have openedReady := opened.of_same same
    cases outcome with
    | error cause => exact .refused openedReady
    | ok place =>
      obtain ⟨⟨node, found⟩, rfl⟩ := canonical_ok settled
      simp only [Except.mapError, bind_apply]
      obtain ⟨name, chosen, named⟩ | ⟨trouble, refused⟩ :=
        projectName_apply given (absolutePath (ready.place directory)) ⟨ready, console.said⟩
      · rw [chosen]
        simp only [get_apply]
        cases unset : ready.exists? (directory.join Project.settingsFile) with
        | true => exact .refused openedReady
        | false =>
          rw [if_neg Bool.false_ne_true]
          simp only [bind_apply, info_apply, onFiles_apply]
          cases ran : layOut directory name ready with
          | mk outcome after =>
            have course := layOut_course openedReady found unset named ran
            cases outcome with
            | error cause => exact course
            | ok _ =>
              obtain ⟨said, closing⟩ := sayNextSteps_apply directory ⟨after, console.said ++
                [.log .info ("Creating new Kiln project: " ++ name)] ++ [.log .info ("✓ Created project '" ++ name ++
                  "' at " ++ (absolutePath (ready.place directory)).text)]⟩
              simp only [Except.mapError]
              rw [closing]
              exact course
      · rw [refused]
        exact .refused openedReady

/-- Every run of the command takes one of the courses. -/
theorem runInit_course (path : String) (given : Option String) (console : Console) :
    Course ⟨path⟩ given console.files (runInit path given console).1 (runInit path given console).2.files := by
  rw [runInit_eq]
  cases ran : (if !console.files.exists? ⟨path⟩ then createDirectories ⟨path⟩ console.files
      else (.ok (), console.files)) with
  | mk outcome files =>
    have opened := opened_of_ran ran
    cases outcome with
    | error cause => exact .refused opened
    | ok _ => exact startIn_course opened

/-! What was there before -/

variable {outcome : Except Trouble Unit}

theorem seen_of_confined (confined : Confined (fun _ => False) before after) {names : List String}
    (seen : before.root.sight names ≠ none) : after.root.sight names ≠ none := by
  cases there : before.root.sight names with
  | none => exact absurd there seen
  | some kind =>
    cases kind with
    | none =>
      rw [confined.directories names there]
      exact Option.some_ne_none _
    | some content =>
      have stays := confined.outside names not_false
      rw [fileAt, fileAt, there] at stays
      intro gone
      rw [gone] at stays
      cases stays

/-- A run that fails writes no more than the settings. -/
theorem Course.confined_of_error {trouble : Trouble} (course : Course directory given before (.error trouble) after) :
    Confined (· = before.place (directory.join Project.settingsFile)) before after := by
  cases course with
  | refused opened => exact opened.confined.mono fun _ none => none.elim
  | bare opened _ created => exact (opened.confined.trans created).mono fun _ none => none.elim
  | half opened _ _ created settings =>
    have front := opened.confined.trans created
    refine (front.mono fun _ none => none.elim).trans (settings.confined.mono fun names here => ?_)
    rw [here, front.place_eq]

theorem Course.confined_of_ok (course : Course directory given before (.ok ()) after) :
    Confined (fun names => names = before.place (directory.join Project.settingsFile) ∨
      names = before.place (directory.join ⟨".gitignore"⟩)) before after := by
  cases course with
  | whole opened _ _ _ _ created settings ignored =>
    have front := opened.confined.trans created
    have wrote := settings.confined
    have last := ignored.confined
    rw [wrote.place_eq, front.place_eq] at last
    rw [front.place_eq] at wrote
    exact ((front.mono fun _ none => none.elim).trans (wrote.mono fun _ => .inl)).trans (last.mono fun _ => .inr)

/-- Where the settings would be written something is already, so they are not. -/
theorem Course.kept_of_seen (course : Course directory given before outcome after)
    (seen : before.root.sight (before.place (directory.join Project.settingsFile)) ≠ none) :
    outcome.isOk = false ∧ Confined (fun _ => False) before after := by
  have taken : ∀ {ready}, Opened directory before ready →
      ready.root.sight (ready.place (directory.join Project.settingsFile)) ≠ none := by
    intro ready opened
    rw [opened.confined.place_eq]
    exact seen_of_confined opened.confined seen
  cases course with
  | refused opened => exact ⟨rfl, opened.confined⟩
  | bare opened _ created => exact ⟨rfl, opened.confined.trans created⟩
  | half opened _ vacant _ _ => exact absurd vacant (taken opened)
  | whole opened _ vacant _ _ _ _ _ => exact absurd vacant (taken opened)

/-- A file that was there is kept, unless an ignore list is put in its place. -/
theorem Course.fileAt_eq (course : Course directory given before outcome after) {names : List String}
    {content : ByteArray} (there : before.fileAt names = some content)
    (kept : ¬ (names = before.place (directory.join ⟨".gitignore"⟩) ∧ outcome.isOk = true)) :
    after.fileAt names = some content := by
  rw [← there]
  by_cases settings : names = before.place (directory.join Project.settingsFile)
  · have seen := sight_ne_none_of_fileAt there
    rw [settings] at seen
    exact (course.kept_of_seen seen).2.outside names not_false
  · cases outcome with
    | error trouble => exact course.confined_of_error.outside names settings
    | ok _ => exact course.confined_of_ok.outside names fun written => written.elim settings fun here => kept ⟨here, rfl⟩

theorem Course.confined (course : Course directory given before outcome after) :
    Confined (fun names => names = before.place (directory.join Project.settingsFile) ∨
      names = before.place (directory.join ⟨".gitignore"⟩)) before after := by
  cases outcome with
  | error trouble => exact course.confined_of_error.mono fun _ => .inl
  | ok _ => exact course.confined_of_ok

end Command
end ContractBuild
