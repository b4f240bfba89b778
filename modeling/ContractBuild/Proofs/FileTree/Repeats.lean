import ContractBuild.Proofs.FileTree.Operations
import ContractBuild.Proofs.FileTree.Parents

/-!
Files that were found once are found again. Directories that were created need not be created a
second time, and a path behind a directory leads to the same place as soon as the directory is
there.
-/
namespace ContractBuild.FileTree
open Text FileNode FileAction ContractBuild.Action

theorem IsDirectoryAt.of_append {tree : FileTree} (lead : List String) {rest : List String}
    (isDirectory : tree.IsDirectoryAt (lead ++ rest)) : tree.IsDirectoryAt lead := by
  by_cases empty : rest = []
  · rwa [empty, List.append_nil] at isDirectory
  · refine sight_of_append empty ?_
    rw [isDirectory]
    exact Option.some_ne_none _

def IsInside (tree : FileTree) : Prop :=
  tree.IsDirectoryAt tree.workingDirectory

theorem IsInside.start {tree : FileTree} (inside : tree.IsInside) (path : Path) :
    tree.IsDirectoryAt (tree.start path) := by
  unfold FileTree.start
  split
  · exact IsDirectoryAt.of_append [] inside
  · exact inside

theorem Confined.isInside {scope : List String → Prop} {before after : FileTree}
    (confined : Confined scope before after) (inside : before.IsInside) : after.IsInside := by
  rw [IsInside, confined.workingDirectory]
  exact confined.directories _ inside

/-! Directories that came or did not come to be -/

theorem node_eq_directory {tree : FileTree} {path : Path} (isDirectory : tree.isDirectory path = true) :
    ∃ entries location, tree.node path = .ok (.directory entries) ∧
      tree.locate path = .ok location ∧ tree.root.get? location.names = some (.directory entries) := by
  unfold FileTree.isDirectory node? at isDirectory
  cases found : tree.node path with
  | error cause => rw [found] at isDirectory; cases isDirectory
  | ok node =>
    rw [found] at isDirectory
    cases node with
    | file content => cases isDirectory
    | directory entries =>
      obtain ⟨location, located, there, _⟩ := node_eq_ok.1 found
      exact ⟨entries, location, rfl, located, there⟩


def NoNewDirectories (before after : FileTree) : Prop :=
  ∀ names, after.IsDirectoryAt names → before.IsDirectoryAt names

theorem SameFiles.noNewDirectories {before after : FileTree} (same : before.SameFiles after) :
    NoNewDirectories before after := by
  intro names
  rw [IsDirectoryAt, IsDirectoryAt, same.root]
  exact id

theorem NoNewDirectories.trans {first middle last : FileTree}
    (earlier : NoNewDirectories first middle) (later : NoNewDirectories middle last) :
    NoNewDirectories first last :=
  fun names => earlier names ∘ later names

theorem noNewDirectories_erase {tree : FileTree} (tidy : tree.root.Tidy) {names : List String}
    (nonempty : names ≠ []) {content : ByteArray} (reaches : tree.root.Reaches names)
    (found : tree.fileAt names = some content) :
    NoNewDirectories tree { tree with root := tree.root.erase names } := by
  intro other isDirectory
  by_cases here : other = names
  · subst here
    have gone := sight_erase_append tidy reaches nonempty []
    rw [List.append_nil] at gone
    rw [IsDirectoryAt, gone] at isDirectory
    cases isDirectory
  · rw [IsDirectoryAt, sight_erase_file tidy reaches found here] at isDirectory
    exact isDirectory

theorem noNewDirectories_placed {tree : FileTree} {names : List String}
    (reaches : tree.root.Reaches names) (free : ¬ tree.IsDirectoryAt names) (content : ByteArray) :
    NoNewDirectories tree (placed tree names (.file content)) := by
  intro other isDirectory
  rw [IsDirectoryAt, sight_placed_file reaches free] at isDirectory
  split at isDirectory
  · cases isDirectory
  · exact isDirectory

/-- Directories that were created once need not be created again. -/
theorem createDirectories_again {path : Path} {before made later : FileTree}
    (ran : createDirectories path before = (.ok (), made)) (inside : before.IsInside)
    (same : later.workingDirectory = made.workingDirectory)
    (directories : ∀ names, made.IsDirectoryAt names → later.IsDirectoryAt names)
    (quiet : later.faultAfter = none) : createDirectories path later = (.ok (), later) := by
  have confined : Confined (fun _ => False) before (createDirectories path before).2 :=
    createDirectories_confined path before
  rw [ran] at confined
  rw [createDirectories_eq] at ran ⊢
  split at ran
  · cases ran
  · next usable =>
    rw [if_neg usable]
    split at ran
    · cases ran
    · next short =>
      rw [if_neg short]
      have created := createAlong_ok (fun _ => not_mem_of_mem_segments) ran (inside.start path)
      have started : later.start path = before.start path := by
        rw [FileTree.start, FileTree.start, same, confined.workingDirectory]
      rw [started]
      exact createAlong_of_created quiet (created.mono directories)

/-- What was created is there. -/
theorem isDirectory_of_created {path : Path} {before made : FileTree}
    (ran : createDirectories path before = (.ok (), made)) (inside : before.IsInside)
    (nonempty : path.text.toList ≠ []) : made.isDirectory path = true := by
  have confined : Confined (fun _ => False) before (createDirectories path before).2 :=
    createDirectories_confined path before
  rw [ran] at confined
  rw [createDirectories_eq] at ran
  split at ran
  · cases ran
  · next usable =>
    split at ran
    · cases ran
    · next short =>
      have created := createAlong_ok (fun _ => not_mem_of_mem_segments) ran (inside.start path)
      have started : made.start path = before.start path := by
        rw [FileTree.start, FileTree.start, confined.workingDirectory]
      obtain ⟨followed, there⟩ := follow_of_created (confined.directories _ (inside.start path)) created
      rw [← started] at followed there
      obtain ⟨entries, found⟩ := isDirectoryAt_iff.1 there
      have located : made.locate path = .ok ⟨_, decide (path.text.toList.getLast? = some '/')⟩ :=
        locate_eq_ok.2 ⟨nonempty, by simpa using usable, short, followed, rfl⟩
      unfold FileTree.isDirectory node?
      rw [node_eq_ok.2 ⟨_, located, found, fun _ => rfl⟩]
      rfl

/-- An empty path leads to no directory. -/
theorem isDirectory_of_empty {path : Path} (empty : path.text.toList = []) (tree : FileTree) :
    tree.isDirectory path = false := by
  rw [Bool.eq_false_iff]
  intro isDirectory
  obtain ⟨_, _, _, located, _⟩ := node_eq_directory isDirectory
  exact (locate_eq_ok.1 located).1 empty

structure Shrinks (before after : FileTree) : Prop where
  workingDirectory : after.workingDirectory = before.workingDirectory
  noNewDirectories : NoNewDirectories before after
  files : Alters (fun _ found => found = none) before after

theorem Shrinks.trans {first middle last : FileTree} (earlier : first.Shrinks middle)
    (later : middle.Shrinks last) : first.Shrinks last :=
  ⟨later.workingDirectory.trans earlier.workingDirectory,
    earlier.noNewDirectories.trans later.noNewDirectories, earlier.files.trans later.files⟩

theorem SameFiles.shrinks {before after : FileTree} (same : before.SameFiles after) :
    before.Shrinks after :=
  ⟨same.workingDirectory, same.noNewDirectories, same.alters⟩

/-- Removing a file that is not the root removes nothing but it. -/
theorem removeFile_shrinks {path : Path} {tree : FileTree} (tidy : tree.root.Tidy)
    (nonempty : tree.place path ≠ []) : tree.Shrinks (removeFile path tree).2 := by
  refine ⟨(removeFile_confined path tidy).workingDirectory, ?_,
    (removeFile_alters path tidy).mono fun _ _ gone => gone.2⟩
  cases ran : removeFile path tree with
  | mk outcome after =>
    cases outcome with
    | error cause => exact (attempt_error ran).noNewDirectories
    | ok value =>
      obtain ⟨left, quiet, went⟩ := attempt_ok ran
      obtain ⟨⟨content, found⟩, reaches, rfl⟩ := removeFile_steps went
      exact noNewDirectories_erase tidy nonempty reaches found

/-! Paths behind a directory -/

theorem follow_append {root : FileNode} {current : List String} {first second : List (List Char)} :
    follow root current (first ++ second) =
      (follow root current first).bind fun names => follow root names second := by
  induction first generalizing current with
  | nil => rfl
  | cons segment first ih =>
    rw [List.cons_append, follow, follow]
    split
    · rfl
    · rfl
    · split
      · exact ih
      · split
        · exact ih
        · split
          · rfl
          · exact ih

/-- A directory that can be followed has all directories along its segments. -/
theorem created_of_follow_directory {tree : FileTree} {current names : List String}
    {segments : List (List Char)} (followed : follow tree.root current segments = .ok names)
    (isDirectory : tree.IsDirectoryAt names) : Created tree current segments := by
  induction segments generalizing current with
  | nil => trivial
  | cons segment segments ih =>
    obtain ⟨_, rest⟩ := follow_cons_ok followed
    rw [Created]
    split at rest
    · next idle =>
      rw [if_pos (show isIdle segment = true from idle)]
      exact ih rest
    · next named =>
      rw [if_neg (show ¬ isIdle segment = true from named)]
      split at rest
      · next up =>
        rw [if_pos up]
        exact ih rest
      · next down =>
        rw [if_neg down]
        split at rest
        · cases rest
        · next fits =>
          refine ⟨fits, ?_, ih rest⟩
          cases segments with
          | nil =>
            cases rest
            exact isDirectory
          | cons next others => exact (follow_cons_ok rest).1

theorem segments_eq_of_last {path : Path} {lead : List (List Char)} {last : List Char}
    (split : splitOn '/' path.text.toList = lead ++ [last]) (named : last ≠ []) :
    segments path = lead ++ [last] := by
  have stays : ([last] ++ lead.reverse).dropWhile List.isEmpty = [last] ++ lead.reverse := by
    simp [named]
  rw [segments, split, List.reverse_append, List.reverse_singleton, stays]
  simp

/-- The segments of a name behind a directory. -/
theorem segments_join_plain {directory : Path} (nonempty : directory.text.toList ≠ [])
    {name : String} (plain : Plain name) :
    ∃ lead, segments (directory.join ⟨name⟩) = lead ++ [name.toList] ∧
      lead.filter (!isIdle ·) = Path.named directory.text.toList ∧
      (directory.join ⟨name⟩).isAbsolute = directory.isAbsolute := by
  have single : splitOn '/' name.toList = [name.toList] := splitOn_of_not_mem plain.whole
  unfold Path.join
  rw [Plain.isAbsolute_eq plain, if_neg Bool.false_ne_true]
  split
  · next none => exact absurd (List.getLast?_eq_none_iff.1 none) nonempty
  · next last =>
    obtain ⟨front, text⟩ := List.getLast?_eq_some_iff.1 last
    refine ⟨splitOn '/' front, ?_, ?_, isAbsolute_append nonempty name⟩
    · apply segments_eq_of_last _ plain.nonempty
      rw [String.toList_append, text, List.append_assoc, List.singleton_append, splitOn_append, single]
    · rw [text, Path.named_append_slash]
      rfl
  · refine ⟨splitOn '/' directory.text.toList, ?_, rfl, ?_⟩
    · apply segments_eq_of_last _ plain.nonempty
      rw [String.append_assoc, String.toList_append, String.toList_append]
      show splitOn '/' (directory.text.toList ++ '/' :: name.toList) = _
      rw [splitOn_append, single]
    · rw [String.append_assoc]
      exact isAbsolute_append nonempty _

theorem follow_plain {tree : FileTree} {current : List String} (isDirectory : tree.IsDirectoryAt current)
    {name : String} (plain : Plain name) :
    follow tree.root current [name.toList] =
      if name.utf8ByteSize > nameLimit then .error .nameTooLong else .ok (current ++ [name]) := by
  obtain ⟨entries, found⟩ := isDirectoryAt_iff.1 isDirectory
  have named : ¬ (name.toList.isEmpty || decide (name.toList = ['.'])) = true := by
    simpa using ⟨by simpa using plain.nonempty, plain.notCurrent⟩
  rw [follow, found]
  dsimp only
  rw [if_neg named, if_neg plain.notParent, String.ofList_toList]
  rfl

/-- A name behind a directory leads to its place wherever the directory is there. -/
theorem locate_join_of_isDirectory {tree other : FileTree} {directory : Path}
    (isDirectory : tree.isDirectory directory = true) (inside : tree.IsInside)
    (same : other.workingDirectory = tree.workingDirectory) {name : String} (plain : Plain name)
    {location : Location} (located : other.locate (directory.join ⟨name⟩) = .ok location) :
    tree.locate (directory.join ⟨name⟩) = .ok location := by
  obtain ⟨entries, there, _, locatedThere, found⟩ := node_eq_directory isDirectory
  obtain ⟨nonempty, _, _, followedThere, _⟩ := locate_eq_ok.1 locatedThere
  obtain ⟨lead, split, namedLead, absolute⟩ := segments_join_plain nonempty plain
  have started : tree.start (directory.join ⟨name⟩) = tree.start directory := by
    rw [FileTree.start, FileTree.start, absolute]
  have startedOther : other.start (directory.join ⟨name⟩) = tree.start directory := by
    rw [FileTree.start, FileTree.start, absolute, same]
  have created : Created tree (tree.start directory) lead := by
    rw [← created_filter, namedLead, ← Path.filter_segments, created_filter]
    exact created_of_follow_directory followedThere (isDirectoryAt_iff.2 ⟨entries, found⟩)
  obtain ⟨followed, isThere⟩ := follow_of_created (inside.start directory) created
  obtain ⟨filled, noNull, short, followedOther, asDirectory⟩ := locate_eq_ok.1 located
  refine locate_eq_ok.2 ⟨filled, noNull, short, ?_, asDirectory⟩
  rw [startedOther, split, follow_append] at followedOther
  rw [started, split, follow_append, followed]
  cases reached : follow other.root (tree.start directory) lead with
  | error cause => rw [reached] at followedOther; cases followedOther
  | ok names =>
    rw [reached] at followedOther
    have isThereOther : other.IsDirectoryAt names := (follow_cons_ok followedOther).1
    have whole : ∀ segment ∈ lead, '/' ∉ segment := fun segment member =>
      not_mem_of_mem_segments (split ▸ List.mem_append_left _ member)
    have settled : names = settle (tree.start directory) lead := by
      refine (follow_ok whole reached fun none => ?_).1
      subst none
      cases reached
      exact isThereOther.usable
    have beyond : follow other.root names [name.toList] = .ok location.names := followedOther
    rw [follow_plain isThereOther plain] at beyond
    show follow tree.root (settle (tree.start directory) lead) [name.toList] = _
    rw [follow_plain isThere plain, ← settled]
    exact beyond

/-! Files that are there -/

theorem isFile_eq_true {tree : FileTree} {path : Path} :
    tree.isFile path = true ↔ ∃ location content, tree.locate path = .ok location ∧
      location.asDirectory = false ∧ tree.fileAt (tree.place path) = some content := by
  unfold FileTree.isFile node?
  constructor
  · intro isFile
    cases found : tree.node path with
    | error cause => rw [found] at isFile; cases isFile
    | ok node =>
      rw [found] at isFile
      cases node with
      | directory entries => cases isFile
      | file content =>
        obtain ⟨location, located, there, asDirectory⟩ := node_eq_ok.1 found
        refine ⟨location, content, located, ?_, ?_⟩
        · cases isSet : location.asDirectory with
          | false => rfl
          | true => exact absurd (asDirectory isSet) (by simp [FileNode.isDirectory])
        · rw [← (locate_ok located).1, fileAt_eq_some]
          exact there
  · rintro ⟨location, content, located, asFile, there⟩
    rw [← (locate_ok located).1, fileAt_eq_some] at there
    rw [node_eq_ok.2 ⟨location, located, there, by simp [asFile]⟩]
    rfl

/-- Only files that were there are left. -/
theorem Shrinks.isFile {before after : FileTree} (shrinks : before.Shrinks after) {path : Path}
    (isFile : after.isFile path = true) : before.isFile path = true := by
  obtain ⟨location, content, located, asFile, there⟩ := isFile_eq_true.1 isFile
  refine isFile_eq_true.2 ⟨location, content, ?_, asFile, ?_⟩
  · exact locate_mono shrinks.workingDirectory.symm shrinks.noNewDirectories located
  · rw [FileTree.place, ← shrinks.workingDirectory]
    rcases shrinks.files (after.place path) with same | gone
    · exact same ▸ there
    · rw [there] at gone
      cases gone

/-- What is there stays as long as its file is unchanged and no directory goes away. -/
theorem exists?_mono {before after : FileTree} {path : Path}
    (same : after.workingDirectory = before.workingDirectory)
    (directories : ∀ names, before.IsDirectoryAt names → after.IsDirectoryAt names)
    (file : after.fileAt (before.place path) = before.fileAt (before.place path))
    (isThere : before.exists? path = true) : after.exists? path = true := by
  unfold exists? node? at isThere ⊢
  cases found : before.node path with
  | error cause => rw [found] at isThere; cases isThere
  | ok node =>
    obtain ⟨location, located, there, asDirectory⟩ := node_eq_ok.1 found
    rw [← (locate_ok located).1] at file
    have locatedAfter := locate_mono same directories located
    cases node with
    | directory entries =>
      obtain ⟨others, foundAfter⟩ := isDirectoryAt_iff.1
        (directories _ (isDirectoryAt_iff.2 ⟨entries, there⟩))
      rw [node_eq_ok.2 ⟨location, locatedAfter, foundAfter, fun _ => rfl⟩]
      rfl
    | file content =>
      rw [fileAt_eq_some.2 there, fileAt_eq_some] at file
      rw [node_eq_ok.2 ⟨location, locatedAfter, file, asDirectory⟩]
      rfl

theorem exists?_of_fileAt {tree : FileTree} {path : Path} {location : Location}
    (located : tree.locate path = .ok location) (asFile : location.asDirectory = false)
    {content : ByteArray} (there : tree.fileAt (tree.place path) = some content) :
    tree.exists? path = true := by
  rw [← (locate_ok located).1, fileAt_eq_some] at there
  unfold exists? node?
  rw [node_eq_ok.2 ⟨location, located, there, by simp [asFile]⟩]
  rfl

end ContractBuild.FileTree
