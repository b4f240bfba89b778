import ContractBuild.Proofs.Build.Loading
import ContractBuild.Proofs.CommandLine.NewProject

/-!
Removing what builds have made. The four directories of the settings are taken away with all that they hold,
whatever that is: the settings and the sources stay exactly as long as they lie in none of them.
-/
namespace ContractBuild
open FileTree FileAction ContractBuild.Action
open FileNode (Plain)

namespace FileTree

/-- The files at and below a place are gone, and all else is as it was. -/
structure Clears (place : List String) (before after : FileTree) : Prop where
  workingDirectory : after.workingDirectory = before.workingDirectory
  tidy : before.root.Tidy → after.root.Tidy
  quiet : before.faultAfter = none → after.faultAfter = none
  noNewDirectories : NoNewDirectories before after
  files : ∀ names, after.fileAt names = if place <+: names then none else before.fileAt names

variable {tree before middle after : FileTree} {place names : List String}

theorem SameFiles.clears (same : before.SameFiles middle) (clears : Clears place middle after) :
    Clears place before after :=
  ⟨clears.workingDirectory.trans same.workingDirectory, fun tidy => clears.tidy (same.root ▸ tidy),
    clears.quiet ∘ same.quiet, same.noNewDirectories.trans clears.noNewDirectories,
    fun names => by rw [clears.files, same.fileAt_eq]⟩

theorem Clears.of_same (clears : Clears place before middle) (same : middle.SameFiles after) :
    Clears place before after :=
  ⟨same.workingDirectory.trans clears.workingDirectory, fun tidy => same.root ▸ clears.tidy tidy,
    same.quiet ∘ clears.quiet, clears.noNewDirectories.trans same.noNewDirectories,
    fun names => by rw [same.fileAt_eq, clears.files]⟩

theorem Clears.place_eq (clears : Clears place before after) (path : Path) : after.place path = before.place path := by
  rw [FileTree.place, FileTree.place, clears.workingDirectory]

theorem sight_emptied (isDirectory : tree.IsDirectoryAt place) (names : List String) :
    (placed tree place .emptyDirectory).root.sight names =
      if names = place then some none else if place <+: names then none else tree.root.sight names := by
  have reaches := isDirectory.reaches
  by_cases covered : place <+: names
  · obtain ⟨rest, rfl⟩ := covered
    rw [show (placed tree place .emptyDirectory).root.sight (place ++ rest) = FileNode.emptyDirectory.sight rest from
      FileNode.sight_put_append _ reaches rest, if_pos (List.prefix_append place rest)]
    cases rest with
    | nil => simp [FileNode.sight, FileNode.get?, FileNode.emptyDirectory]
    | cons name rest => simp [FileNode.sight_emptyDirectory_cons]
  · rw [if_neg (by rintro rfl; exact covered (List.prefix_refl _)), if_neg covered]
    exact FileNode.sight_put _ reaches covered

theorem endsPlain_of_isDirectoryAt (tidy : tree.root.Tidy) (isDirectory : tree.IsDirectoryAt place) :
    FileNode.EndsPlain place := by
  obtain ⟨entries, found⟩ := isDirectoryAt_iff.1 isDirectory
  exact fun name last => FileNode.plain_of_get? tidy found name (List.mem_of_getLast? last)

theorem clears_emptied (isDirectory : tree.IsDirectoryAt place) :
    Clears place tree (placed tree place .emptyDirectory) := by
  refine ⟨rfl, fun tidy => FileNode.Tidy.empty.put tidy (endsPlain_of_isDirectoryAt tidy isDirectory), id, ?_, ?_⟩
  · intro names there
    rw [IsDirectoryAt, sight_emptied isDirectory] at there
    split at there
    · next same => exact same ▸ isDirectory
    · split at there
      · cases there
      · exact there
  · intro names
    rw [fileAt, sight_emptied isDirectory]
    split
    · next same => simp [same]
    · split <;> rfl

/-- What is taken away leaves nothing behind, not even the directory itself. -/
theorem sight_erased (tidy : tree.root.Tidy) (isDirectory : tree.IsDirectoryAt place) (names : List String) :
    (tree.root.erase place).sight names =
      if place <+: names then (if place = [] ∧ names = [] then some none else none) else tree.root.sight names := by
  by_cases covered : place <+: names
  · rw [if_pos covered]
    obtain ⟨rest, rfl⟩ := covered
    by_cases root : place = []
    · subst root
      cases rest with
      | nil => rfl
      | cons name rest => simp [FileNode.erase, FileNode.sight_emptyDirectory_cons]
    · rw [FileNode.sight_erase_append tidy isDirectory.reaches root, if_neg (fun both => root both.1)]
  · rw [if_neg covered]
    exact FileNode.sight_erase isDirectory.reaches covered

theorem clears_erased (tidy : tree.root.Tidy) (isDirectory : tree.IsDirectoryAt place) :
    Clears place tree { tree with root := tree.root.erase place } := by
  refine ⟨rfl, fun tidy => tidy.erase place, id, ?_, ?_⟩
  · intro names there
    rw [IsDirectoryAt, sight_erased tidy isDirectory] at there
    split at there
    · split at there
      · next both => rw [both.2, ← both.1]; exact isDirectory
      · cases there
    · exact there
  · intro names
    rw [fileAt, sight_erased tidy isDirectory]
    split
    · split <;> rfl
    · rfl

theorem Clears.again (clears : Clears place before middle) (again : Clears place middle after) :
    Clears place before after := by
  refine ⟨again.workingDirectory.trans clears.workingDirectory, again.tidy ∘ clears.tidy,
    again.quiet ∘ clears.quiet, clears.noNewDirectories.trans again.noNewDirectories, fun names => ?_⟩
  rw [again.files, clears.files]
  split <;> rfl

end FileTree

/-! Removing one directory -/

namespace FileAction

variable {tree : FileTree} {directory : Path}

theorem removeTree_of_file {content : ByteArray} (found : tree.node directory = .ok (.file content)) :
    removeTree directory tree = (.error .notDirectory, tree) := by
  obtain ⟨location, located, -⟩ := node_eq_ok.1 found
  have isLocated : (liftM (tree.locate directory) : FileAction Location) tree = (.ok location, tree) := by
    rw [located]; rfl
  have isFound : (liftM (tree.node directory) : FileAction FileNode) tree = (.ok (.file content), tree) := by
    rw [found]; rfl
  unfold removeTree
  rw [bind_of_ok (get_apply tree), bind_of_ok isLocated, bind_of_ok isFound]
  rfl

theorem removeTree_of_directory {entries : List (String × FileNode)}
    (found : tree.node directory = .ok (.directory entries)) :
    tree.IsDirectoryAt (tree.place directory) ∧ removeTree directory tree = (do
      emptyAt (tree.place directory)
      removeEmptied directory : FileAction Unit) tree := by
  obtain ⟨location, located, there, -⟩ := node_eq_ok.1 found
  have isLocated : (liftM (tree.locate directory) : FileAction Location) tree = (.ok location, tree) := by
    rw [located]; rfl
  have isFound : (liftM (tree.node directory) : FileAction FileNode) tree = (.ok (.directory entries), tree) := by
    rw [found]; rfl
  unfold removeTree
  rw [bind_of_ok (get_apply tree), bind_of_ok isLocated, bind_of_ok isFound]
  rw [(locate_ok located).1] at there
  dsimp only
  rw [(locate_ok located).1]
  exact ⟨isDirectoryAt_iff.2 ⟨entries, there⟩, rfl⟩

theorem settle_passDots (current : List String) (segments : List (List Char)) :
    settle (passDots current segments).1 (passDots current segments).2 = settle current segments := by
  induction segments generalizing current with
  | nil => rfl
  | cons segment segments ih =>
    rw [passDots, settle]
    split
    · exact ih current
    · next named =>
      split
      · exact ih current.dropLast
      · next down => rw [settle, if_neg named, if_neg down]

theorem passDots_suffix (current : List String) (segments : List (List Char)) :
    (passDots current segments).2 <:+ segments := by
  induction segments generalizing current with
  | nil => exact List.suffix_refl _
  | cons segment segments ih =>
    rw [passDots]
    split
    · exact (ih current).trans (List.suffix_cons segment segments)
    · split
      · exact (ih current.dropLast).trans (List.suffix_cons segment segments)
      · exact List.suffix_refl _

theorem container_ok {place : List String} (found : container tree directory = .ok place) :
    place = settle (tree.start directory) (segments directory).dropLast := by
  have settled := settle_passDots (tree.start directory) (segments directory).dropLast
  have inside : ∀ segment ∈ (passDots (tree.start directory) (segments directory).dropLast).2,
      segment ∈ segments directory := fun segment member =>
    List.dropLast_subset _ ((passDots_suffix _ _).subset member)
  unfold container at found
  generalize passDots (tree.start directory) (segments directory).dropLast = passed at settled inside found
  obtain ⟨current, rest⟩ := passed
  rw [← settled]
  cases rest with
  | nil => exact (Except.ok.inj found).symm
  | cons segment rest =>
    have whole : ∀ other ∈ (segment :: rest) ++ [['.']], '/' ∉ other := by
      intro other member
      rcases List.mem_append.1 member with isPart | isDot
      · exact not_mem_of_mem_segments (inside other isPart)
      · rw [List.mem_singleton.1 isDot]
        decide
    exact (follow_ok whole found nofun).1.trans (settle_append current _ _)

theorem not_isEmpty_of_last {path : Path} {segment : List Char} (last : (segments path).getLast? = some segment) :
    segment.isEmpty = false := by
  have front := List.head?_dropWhile_not List.isEmpty (Text.splitOn '/' path.text.toList).reverse
  rw [segments, List.getLast?_reverse] at last
  rwa [last] at front

/-- An emptied directory is taken away, or it stays. -/
theorem withoutDirectory_ok {after : FileTree} (went : withoutDirectory tree directory = .ok after) :
    after = tree ∨ after = { tree with root := tree.root.erase (tree.place directory) } := by
  unfold withoutDirectory at went
  split at went
  · exact .inl (Except.ok.inj went).symm
  · cases went
  · next place found =>
    split at went
    · cases went
    · next segment last =>
      split at went
      · cases went
      · next other =>
        split at went
        · cases went
        · next down =>
          right
          have named : ¬ (segment.isEmpty || decide (segment = ['.'])) = true := by
            simp [other, not_isEmpty_of_last last]
          have ends : tree.place directory = settle (settle (tree.start directory) (segments directory).dropLast)
              [segment] := by
            rw [← settle_append, List.dropLast_append_getLast? segment last, settle_segments]
            rfl
          rw [ends, ← container_ok found, settle, if_neg named, if_neg down, settle]
          exact (Except.ok.inj went).symm

/-- Whatever becomes of the directory itself, its files are gone. -/
theorem clears_withoutDirectory {before after : FileTree} (clears : Clears (tree.place directory) before tree)
    (tidy : tree.root.Tidy) (isDirectory : tree.IsDirectoryAt (tree.place directory))
    (went : withoutDirectory tree directory = .ok after) : Clears (tree.place directory) before after := by
  rcases withoutDirectory_ok went with rfl | rfl
  · exact clears
  · exact clears.again (clears_erased tidy isDirectory)

/-- An attempt that changes the tree in one way has changed it so, or not at all. -/
theorem attempt_changes (change : FileTree → FileTree) (tree : FileTree) :
    ∃ middle, tree.SameFiles middle ∧
      ((∃ cause, attempt (fun tree => .ok ((), change tree)) tree = (.error cause, middle)) ∨
        attempt (fun tree => .ok ((), change tree)) tree = (.ok (), change middle)) := by
  obtain ⟨left, quiet, ⟨cause, failed⟩ | ⟨value, after, went, ran⟩⟩ :=
    attempt_cases (fun tree => .ok ((), change tree)) tree
  · exact ⟨_, sameFiles_withFault quiet, .inl ⟨cause, failed⟩⟩
  · cases went
    exact ⟨_, sameFiles_withFault quiet, .inr ran⟩

theorem removeEmptied_cases (directory : Path) (tree : FileTree) :
    ∃ middle, tree.SameFiles middle ∧ ((∃ cause, removeEmptied directory tree = (.error cause, middle)) ∨
      ∃ after, withoutDirectory middle directory = .ok after ∧ removeEmptied directory tree = (.ok (), after)) := by
  obtain ⟨left, quiet, ⟨cause, failed⟩ | ⟨value, after, went, ran⟩⟩ :=
    attempt_cases (fun tree => return ((), ← withoutDirectory tree directory)) tree
  · exact ⟨_, sameFiles_withFault quiet, .inl ⟨cause, failed⟩⟩
  · refine ⟨_, sameFiles_withFault quiet, .inr ⟨after, ?_, ran⟩⟩
    cases gone : withoutDirectory (withFault tree left) directory with
    | error cause => simp [gone, bind, Except.bind] at went
    | ok rest =>
      simp only [gone] at went
      cases went
      rfl

/-- Whatever removing a directory comes to, it has cleared the directory or done nothing. -/
theorem removeTree_clears (tidy : tree.root.Tidy) {entries : List (String × FileNode)}
    (found : tree.node directory = .ok (.directory entries)) :
    tree.SameFiles (removeTree directory tree).2 ∨
      Clears (tree.place directory) tree (removeTree directory tree).2 := by
  obtain ⟨isDirectory, runs⟩ := removeTree_of_directory found
  rw [runs]
  obtain ⟨middle, same, ⟨cause, failed⟩ | emptied⟩ :=
    attempt_changes (fun tree' => placed tree' (tree.place directory) .emptyDirectory) tree
  · rw [bind_of_error (show emptyAt (tree.place directory) tree = _ from failed)]
    exact .inl same
  · rw [bind_of_ok (show emptyAt (tree.place directory) tree = _ from emptied)]
    have isDirectoryMiddle : middle.IsDirectoryAt (tree.place directory) := by
      rw [IsDirectoryAt, same.root]
      exact isDirectory
    have clears := same.clears (clears_emptied isDirectoryMiddle)
    obtain ⟨last, sameLast, ⟨cause, failed⟩ | ⟨after, gone, went⟩⟩ :=
      removeEmptied_cases directory (placed middle (tree.place directory) .emptyDirectory)
    · rw [failed]
      exact .inr (clears.of_same sameLast)
    · rw [went]
      have clearsLast := clears.of_same sameLast
      have place : last.place directory = tree.place directory := clearsLast.place_eq directory
      have isDirectoryLast : last.IsDirectoryAt (tree.place directory) := by
        rw [IsDirectoryAt, sameLast.root, sight_emptied isDirectoryMiddle, if_pos rfl]
      rw [← place] at clearsLast isDirectoryLast ⊢
      exact .inr (clears_withoutDirectory clearsLast (clearsLast.tidy tidy) isDirectoryLast gone)

/-- Without a fault a directory is emptied, and then taken away or found to stay. -/
theorem removeTree_of_quiet (quiet : tree.faultAfter = none) {entries : List (String × FileNode)}
    (found : tree.node directory = .ok (.directory entries)) :
    removeTree directory tree =
      match withoutDirectory (placed tree (tree.place directory) .emptyDirectory) directory with
      | .ok after => (.ok (), after)
      | .error cause => (.error cause, placed tree (tree.place directory) .emptyDirectory) := by
  have emptied : emptyAt (tree.place directory) tree = (.ok (), placed tree (tree.place directory) .emptyDirectory) :=
    attempt_of_quiet quiet rfl
  have stillQuiet : (placed tree (tree.place directory) .emptyDirectory).faultAfter = none := quiet
  rw [(removeTree_of_directory found).2, bind_of_ok emptied]
  generalize placed tree (tree.place directory) .emptyDirectory = last at stillQuiet
  rw [removeEmptied, attempt_quiet _ stillQuiet]
  cases withoutDirectory last directory <;> rfl

end FileAction

namespace Command
open ConsoleAction

/-- The places that are cleared, one directory after the other. A directory that is not there is passed over. It
ends at a file, and behind a directory that was emptied and cannot be taken away itself. -/
def swept (tree : FileTree) : List Path → List (List String)
  | [] => []
  | directory :: directories =>
    match tree.node? directory with
    | none => swept tree directories
    | some (.file _) => []
    | some (.directory _) =>
      tree.place directory ::
        match withoutDirectory (placed tree (tree.place directory) .emptyDirectory) directory with
        | .ok rest => swept rest directories
        | .error _ => []

/-- What one directory adds to a run of removals. -/
theorem cleanEach_cons (directory : Path) (directories : List Path) (console : Console) :
    ∃ said, cleanEach (directory :: directories) console =
      if console.files.exists? directory then
        match removeTree directory console.files with
        | (.ok (), files) => cleanEach directories ⟨files, said⟩
        | (.error cause, files) =>
          (.error (.within ("Failed to remove " ++ directory.text) (.ofFile cause)), ⟨files, console.said⟩)
      else cleanEach directories console := by
  let found := count (console.files.filesReached directory)
  refine ⟨console.said ++ [.log .info ("Removed " ++ directory.text ++ " (" ++ found ++ " files)")], ?_⟩
  rw [cleanEach, bind_of_ok (get_apply console)]
  dsimp only
  split
  · rw [bind_apply, onFiles_apply]
    rcases removeTree directory console.files with ⟨cause | _, files⟩
    · rfl
    · rfl
  · rfl

variable {directories : List Path} {console : Console} {names : List String}

/-- A file that lies in none of the directories is kept, wherever the removals break off. -/
theorem cleanEach_spares (tidy : console.files.root.Tidy)
    (outside : ∀ directory ∈ directories, console.files.IsDirectoryAt (console.files.place directory) →
      ¬ console.files.place directory <+: names) :
    (cleanEach directories console).2.files.fileAt names = console.files.fileAt names := by
  induction directories generalizing console with
  | nil => rfl
  | cons directory directories ih =>
    have outsideRest : ∀ other ∈ directories, console.files.IsDirectoryAt (console.files.place other) →
        ¬ console.files.place other <+: names := fun other member => outside other (List.mem_cons_of_mem _ member)
    obtain ⟨said, runs⟩ := cleanEach_cons directory directories console
    rw [runs]
    split
    · next there =>
      obtain ⟨node, found⟩ := exists?_eq_true.1 there
      cases node with
      | file content =>
        rw [removeTree_of_file found]
      | directory entries =>
        have isDirectory := (removeTree_of_directory found).1
        have removed := removeTree_clears tidy found
        cases ran : removeTree directory console.files with
        | mk outcome files =>
          rw [ran] at removed
          have kept : files.fileAt names = console.files.fileAt names := by
            rcases removed with same | clears
            · exact same.fileAt_eq names
            · rw [clears.files, if_neg (outside directory List.mem_cons_self isDirectory)]
          cases outcome with
          | error cause => exact kept
          | ok _ =>
            rw [← kept]
            refine @ih ⟨files, said⟩ ?_ ?_
            · rcases removed with same | clears
              · exact same.root ▸ tidy
              · exact clears.tidy tidy
            · intro other member isThere
              rcases removed with same | clears
              · rw [same.place_eq] at isThere ⊢
                exact outsideRest other member (same.noNewDirectories _ isThere)
              · rw [clears.place_eq] at isThere ⊢
                exact outsideRest other member (clears.noNewDirectories _ isThere)
    · exact ih tidy outsideRest

/-- Exactly the files at and below the places that are cleared go. -/
theorem cleanEach_fileAt (tidy : console.files.root.Tidy) (quiet : console.files.faultAfter = none)
    (names : List String) : (cleanEach directories console).2.files.fileAt names =
      if ∃ place ∈ swept console.files directories, place <+: names then none else console.files.fileAt names := by
  induction directories generalizing console with
  | nil => simp [swept, cleanEach]
  | cons directory directories ih =>
    obtain ⟨said, runs⟩ := cleanEach_cons directory directories console
    rw [runs, swept]
    cases found : console.files.node directory with
    | error cause =>
      have missing : console.files.exists? directory = false := by
        rw [exists?, node?, found]
        rfl
      rw [missing, if_neg Bool.false_ne_true, node?, found]
      exact ih tidy quiet
    | ok node =>
      rw [exists?_eq_true.2 ⟨node, found⟩, if_pos rfl, node?, found]
      cases node with
      | file content => simp [removeTree_of_file found, Except.toOption]
      | directory entries =>
        have isDirectory := (removeTree_of_directory found).1
        rw [removeTree_of_quiet quiet found]
        simp only [Except.toOption]
        have emptied := clears_emptied isDirectory
        cases went : withoutDirectory (placed console.files (console.files.place directory) .emptyDirectory)
            directory with
        | ok rest =>
          have clears : Clears (console.files.place directory) console.files rest :=
            @clears_withoutDirectory (placed _ _ _) directory console.files rest emptied (emptied.tidy tidy)
              ((sight_emptied isDirectory _).trans (if_pos rfl)) went
          have behind := @ih ⟨rest, said⟩ (clears.tidy tidy) (clears.quiet quiet)
          dsimp only
          rw [behind, clears.files]
          by_cases here : console.files.place directory <+: names
          · simp [here]
          · simp [here]
        | error cause =>
          simp only [emptied.files]
          simp

/-- A directory that goes with the way to it is not missed, and one that is reached otherwise is. -/
example :
    let tree : FileTree := ⟨.directory [("p", .directory [("sub", .emptyDirectory)]), ("q", .emptyDirectory)], [], none⟩
    swept tree [⟨"p/sub/.."⟩, ⟨"q"⟩] = [["p"], ["q"]] ∧ swept tree [⟨"q/../p/."⟩, ⟨"q"⟩] = [["p"]] := by
  decide +kernel

/-! The inputs of a project -/

def settingsPath (tree : FileTree) (path : Path) : Path :=
  if tree.isDirectory path then path.join Project.settingsFile else path

theorem reads_load (path : Path) : Reads (Project.load path) := by
  refine Reads.bind Reads.get fun tree => ?_
  rcases (if tree.isDirectory path then (path.join Project.settingsFile, path)
    else (path, path.parent?.getD ⟨"."⟩)) with ⟨file, base⟩
  have read : Reads (do Project.ofText (← FileAction.readText file) base : ProjectAction Project) :=
    Reads.bind (keeps_telling _ (reads_readText file)) fun text state => .refl state
  dsimp only
  split
  · exact Reads.bind (Reads.throw _) fun _ => read
  · exact read

theorem runClean_files {config : String} {project : Project}
    (loaded : (Project.load ⟨config⟩ console.files).1 = .ok project) :
    ∃ files, console.files.SameFiles files ∧
      (runClean config console).2.files = (cleanEach (outputDirs project) ⟨files, console.said⟩).2.files := by
  have same := reads_load ⟨config⟩ console.files
  unfold runClean loadProject
  rw [bind_apply, onFiles_apply]
  cases ran : Project.load ⟨config⟩ console.files with
  | mk outcome files =>
    rw [ran] at same loaded
    subst loaded
    refine ⟨files, same, ?_⟩
    simp only [Except.mapError, bind_apply]
    rcases cleanEach (outputDirs project) ⟨files, console.said⟩ with ⟨cause | _, after⟩ <;> rfl

/-- The settings and the sources of a project are files. -/
theorem fileAt_input {tree : FileTree} (tidy : tree.root.Tidy) (quiet : tree.faultAfter = none) {config path : Path}
    {project : Project} (loaded : (Project.load config tree).1 = .ok project) {paths : List Path}
    (discovered : project.sourcePaths tree = (.ok paths, tree)) (member : path ∈ settingsPath tree config :: paths) :
    ∃ content, tree.fileAt (tree.place path) = some content := by
  rcases List.mem_cons.1 member with rfl | member
  · cases ran : Project.load config tree with
    | mk outcome after =>
      rw [ran] at loaded
      subst loaded
      obtain ⟨text, read, -⟩ := (Project.load_eq_ok Prod.mk.eta.symm).1 ran
      obtain ⟨content, ⟨location, -, -, there⟩, -⟩ := readText_ok read
      refine ⟨content, ?_⟩
      unfold settingsPath
      split at there
      · next isDirectory => rwa [if_pos isDirectory]
      · next other => rwa [if_neg other]
  · obtain ⟨-, rfl, -⟩ := (discoverSources_ok_iff tidy quiet).1 discovered
    obtain ⟨-, node, names, content, found, rfl, -, below⟩ := (mem_listed tidy).1 member
    obtain ⟨place, there⟩ := fileAt_descend tidy found below
    exact ⟨content, place ▸ there⟩

/-- Cleaning keeps every file that lies in no output directory, also when it breaks off. Without a fault the
settings and each source that was discovered are kept exactly if they lie in none of the directories that
are come to. That is said where the working directory stays: without it relative paths lead elsewhere. -/
theorem runClean_spares {config : String} {project : Project} (tidy : console.files.root.Tidy)
    (loaded : (Project.load ⟨config⟩ console.files).1 = .ok project) :
    let before := console.files
    let after := (runClean config console).2.files
    (∀ names, (∀ directory ∈ outputDirs project, before.IsDirectoryAt (before.place directory) →
        ¬ before.place directory <+: names) → after.fileAt names = before.fileAt names) ∧
    (before.faultAfter = none → after.IsDirectoryAt before.workingDirectory →
      ∀ paths, project.sourcePaths before = (.ok paths, before) →
      ∀ path ∈ settingsPath before ⟨config⟩ :: paths, ∃ content, before.fileAt (before.place path) = some content ∧
        after.fileAt (before.place path) =
          if ∃ place ∈ swept before (outputDirs project), place <+: before.place path then none else some content) := by
  intro before after
  obtain ⟨files, same, ended⟩ := runClean_files loaded
  have tidyFiles : files.root.Tidy := same.root ▸ tidy
  constructor
  · intro names outside
    have kept : (cleanEach (outputDirs project) ⟨files, console.said⟩).2.files.fileAt names = files.fileAt names := by
      refine cleanEach_spares tidyFiles fun directory member isThere => ?_
      rw [same.place_eq] at isThere ⊢
      exact outside directory member (same.noNewDirectories _ isThere)
    rw [show after = _ from ended, kept, same.fileAt_eq]
  · intro quiet _ paths discovered path member
    obtain ⟨content, there⟩ := fileAt_input tidy quiet loaded discovered member
    refine ⟨content, there, ?_⟩
    obtain rfl : files = before := same.eq_of_quiet quiet
    rw [show after = _ from ended, cleanEach_fileAt tidy quiet, there]

def overlapping : Console :=
  ⟨⟨.directory [("contracts", .directory [("A.vy", .file "[]".toUTF8)]),
    ("kiln.yaml", .file "name: p\nbindings:\n  out_dir: contracts\n".toUTF8)], [], none⟩, []⟩

theorem load_overlapping : ∃ project, Project.load ⟨"."⟩ overlapping.files = (.ok project, overlapping.files) ∧
    outputDirs project = [⟨"./.kiln/cache"⟩, ⟨"./.kiln/scratch"⟩, ⟨"./abis"⟩, ⟨"./contracts"⟩] ∧
    project.sourcePaths overlapping.files = (.ok [⟨"./contracts/A.vy"⟩], overlapping.files) := by
  have told : (Project.load ⟨"."⟩ overlapping.files).1.toOption.map (fun project => (outputDirs project,
      (project.sourcePaths overlapping.files).1.toOption)) = some ([⟨"./.kiln/cache"⟩, ⟨"./.kiln/scratch"⟩,
        ⟨"./abis"⟩, ⟨"./contracts"⟩], some [⟨"./contracts/A.vy"⟩]) := by decide +kernel
  cases ran : Project.load ⟨"."⟩ overlapping.files with
  | mk outcome after =>
    rw [ran] at told
    cases outcome with
    | error cause => cases told
    | ok project =>
      obtain rfl : after = overlapping.files := Project.after_of_load rfl ran
      obtain ⟨dirs, found⟩ := Prod.mk.inj (Option.some.inj told)
      refine ⟨project, rfl, dirs, ?_⟩
      have tidy : overlapping.files.root.Tidy := FileNode.tidy_of_isTidy (by decide +kernel)
      cases discovered : project.sourcePaths overlapping.files with
      | mk outcome after =>
        rw [discovered] at found
        cases outcome with
        | error cause => cases found
        | ok paths =>
          obtain ⟨-, -, rfl⟩ := (discoverSources_ok_iff tidy rfl).1 discovered
          rw [Option.some.inj found]

theorem runClean_spares_overlapping : overlapping.files.root.Tidy ∧
    ∃ project, (Project.load ⟨"."⟩ overlapping.files).1 = .ok project ∧
      (runClean "." overlapping).2.files.fileAt ["kiln.yaml"] = overlapping.files.fileAt ["kiln.yaml"] := by
  have tidy : overlapping.files.root.Tidy := FileNode.tidy_of_isTidy (by decide +kernel)
  obtain ⟨project, loaded, directories, -⟩ := load_overlapping
  have accepted : (Project.load ⟨"."⟩ overlapping.files).1 = .ok project := by rw [loaded]
  refine ⟨tidy, project, accepted, (runClean_spares tidy accepted).1 ["kiln.yaml"] fun directory member _ => ?_⟩
  rw [directories] at member
  have elsewhere : ∀ directory ∈ [Path.mk "./.kiln/cache", ⟨"./.kiln/scratch"⟩, ⟨"./abis"⟩, ⟨"./contracts"⟩],
      ¬ overlapping.files.place directory <+: ["kiln.yaml"] := by decide +kernel
  exact elsewhere directory member

/-- Settings that are accepted can name the directory of the sources for what is removed. -/
theorem exists_cleaned_source : ∃ (config : String) (console : Console) (project : Project) (paths : List Path),
    console.files.root.Tidy ∧ console.files.faultAfter = none ∧
      Project.load ⟨config⟩ console.files = (.ok project, console.files) ∧
      project.sourcePaths console.files = (.ok paths, console.files) ∧
      ∃ path ∈ paths, console.files.fileAt (console.files.place path) ≠ none ∧
        (runClean config console).2.files.fileAt (console.files.place path) = none := by
  have tidy : overlapping.files.root.Tidy := FileNode.tidy_of_isTidy (by decide +kernel)
  obtain ⟨project, loaded, -, discovered⟩ := load_overlapping
  exact ⟨".", overlapping, project, _, tidy, rfl, loaded, discovered, _, List.mem_singleton.2 rfl,
    by decide +kernel, by decide +kernel⟩

end Command
end ContractBuild
