import ContractBuild.Build.Output
import ContractBuild.Proofs.FileTree.Repeats

/-!
Files that a build writes and clears away. A write that goes well leaves its text in its place,
whether or not it was there before; a purge removes files of one extension in one directory, and
when it goes well none is left to remove.
-/
namespace ContractBuild
open FileTree FileAction ContractBuild.Action

namespace FileAction

theorem telling_snd {α ε : Type} (tell : FileError → ε) (action : FileAction α) (tree : FileTree) :
    (FileAction.telling tell action tree).2 = (action tree).2 := by
  unfold FileAction.telling
  rcases action tree with ⟨cause | other, last⟩ <;> rfl

/-- In whatever terms a failure is told, the files are the same. -/
theorem keeps_telling {α ε : Type} {related : FileTree → FileTree → Prop} (tell : FileError → ε)
    {action : FileAction α} (keeps : Keeps related action) :
    Keeps related (FileAction.telling tell action) := by
  intro tree
  rw [telling_snd]
  exact keeps tree

theorem fails_telling {α ε : Type} (tell : FileError → ε) (action : FileAction α) :
    Fails (fun cause => ∃ failure, cause = tell failure) (FileAction.telling tell action) := by
  intro tree cause failed
  unfold FileAction.telling at failed
  revert failed
  rcases action tree with ⟨failure | value, after⟩
  · exact fun failed => ⟨failure, (Except.error.inj failed).symm⟩
  · exact fun failed => nomatch failed

theorem telling_ok {α ε : Type} {tell : FileError → ε} {action : FileAction α} {tree after : FileTree}
    {value : α} : FileAction.telling tell action tree = (.ok value, after) ↔
      action tree = (.ok value, after) := by
  unfold FileAction.telling
  rcases action tree with ⟨cause | other, last⟩
  · exact ⟨nofun, nofun⟩
  · constructor
    · intro same
      cases same
      rfl
    · intro same
      cases same
      rfl

/-- An action on files as part of a build. -/
theorem inBuild_apply {α : Type} (action : FileAction α) (tree : FileTree) :
    (liftM action : BuildAction α) tree =
      match action tree with
      | (.ok value, after) => (.ok value, after)
      | (.error cause, after) => (.error (.file cause), after) := rfl

end FileAction

namespace Output

/-! Reading what is there -/

theorem existing?_cases (path : Path) (tree : FileTree) :
    ∃ after, tree.SameFiles after ∧
      (existing? path tree = (.ok none, after) ∨ ∃ content, existing? path tree = (.ok (some content), after) ∧
        readBytes path tree = (.ok content, after)) := by
  have same := reads_readBytes path tree
  unfold existing?
  revert same
  rcases readBytes path tree with ⟨cause | content, after⟩
  · exact fun same => ⟨after, same, .inl rfl⟩
  · exact fun same => ⟨after, same, .inr ⟨content, rfl, rfl⟩⟩

theorem reads_existing? (path : Path) : Reads (existing? path) := by
  intro tree
  obtain ⟨after, same, run | ⟨content, run, _⟩⟩ := existing?_cases path tree
  all_goals
    rw [run]
    exact same

/-! Writing -/

def rewrite (directory path : Path) (content : ByteArray) : FileAction WriteStatus := do
  FileAction.createDirectories directory
  FileAction.replaceFile directory path content
  return .written

theorem rewrite_confined (directory path : Path) (content : ByteArray) (tree : FileTree) :
    Confined (· = tree.place path) tree (rewrite directory path content tree).2 := by
  have created : Confined (· = tree.place path) tree (createDirectories directory tree).2 :=
    createDirectories_confined directory tree
  unfold rewrite
  rw [bind_apply]
  revert created
  rcases createDirectories directory tree with ⟨cause | value, made⟩
  · exact id
  · intro created
    have replaced := replaceFile_confined directory path content made
    rw [created.place_eq] at replaced
    dsimp only
    rw [bind_apply]
    revert replaced
    rcases replaceFile directory path content made with ⟨cause | value, after⟩
    all_goals exact fun replaced => created.trans replaced

theorem rewrite_ok {directory path : Path} {content : ByteArray} {tree after : FileTree}
    {status : WriteStatus} (ran : rewrite directory path content tree = (.ok status, after)) :
    Stored tree path content after := by
  have confined := rewrite_confined directory path content tree
  rw [ran] at confined
  obtain ⟨value, made, created, rest⟩ := bind_eq_ok ran
  obtain ⟨value, written, replaced, last⟩ := bind_eq_ok rest
  cases last
  have stored := replaceFile_ok replaced
  have kept : Confined (fun _ => False) tree (createDirectories directory tree).2 :=
    createDirectories_confined directory tree
  rw [created] at kept
  exact ⟨stored.located, confined, kept.place_eq path ▸ stored.there⟩

theorem writeIfChanged_eq (path : Path) (text : String) (tree : FileTree) :
    writeIfChanged path text tree =
      match existing? path tree with
      | (.ok found, after) =>
        if found = some text.toUTF8 then (.ok .unchanged, after)
        else rewrite (path.parent?.getD ⟨"."⟩) path text.toUTF8 after
      | (.error cause, after) => (.error cause, after) := by
  unfold writeIfChanged
  rw [bind_apply]
  rcases existing? path tree with ⟨cause | found, after⟩
  · rfl
  · dsimp only
    split <;> rfl

theorem writeIfChanged_confined (path : Path) (text : String) (tree : FileTree) :
    Confined (· = tree.place path) tree (writeIfChanged path text tree).2 := by
  rw [writeIfChanged_eq]
  have same := reads_existing? path tree
  revert same
  rcases existing? path tree with ⟨cause | found, read⟩
  · exact SameFiles.confined
  · intro same
    dsimp only
    split
    · exact same.confined
    · have rewritten := rewrite_confined (path.parent?.getD ⟨"."⟩) path text.toUTF8 read
      rw [same.place_eq] at rewritten
      exact same.confined.trans rewritten

/-- A write that goes well leaves the text in its place. -/
theorem writeIfChanged_ok {path : Path} {text : String} {tree after : FileTree} {status : WriteStatus}
    (ran : writeIfChanged path text tree = (.ok status, after)) :
    Stored tree path text.toUTF8 after := by
  have confined := writeIfChanged_confined path text tree
  rw [ran] at confined
  rw [writeIfChanged_eq] at ran
  obtain ⟨read, same, run⟩ := existing?_cases path tree
  have anew : rewrite (path.parent?.getD ⟨"."⟩) path text.toUTF8 read = (.ok status, after) →
      Stored tree path text.toUTF8 after := by
    intro rewritten
    have stored := rewrite_ok rewritten
    exact ⟨stored.located, confined, same.place_eq path ▸ stored.there⟩
  rcases run with run | ⟨content, run, bytes⟩
  · rw [run] at ran
    exact anew ran
  · rw [run] at ran
    dsimp only at ran
    split at ran
    · next equal =>
      cases ran
      obtain ⟨location, located, asFile, there⟩ := readBytes_ok bytes
      refine ⟨⟨location, ?_, asFile⟩, confined, ?_⟩
      · rw [same.locate_eq]
        exact located
      · rw [← Option.some.inj equal, ← there, fileAt, fileAt, same.root]
    · exact anew ran

theorem rewrite_error {directory path : Path} {content : ByteArray} {tree after : FileTree}
    {cause : FileError} (ran : rewrite directory path content tree = (.error cause, after)) :
    Confined (fun _ => False) tree after := by
  have made : Confined (fun _ => False) tree (createDirectories directory tree).2 :=
    createDirectories_confined directory tree
  unfold rewrite at ran
  rw [bind_apply] at ran
  revert made ran
  rcases createDirectories directory tree with ⟨cause | value, middle⟩
  · intro ran made
    cases ran
    exact made
  · intro ran made
    dsimp only at ran
    rw [bind_apply] at ran
    cases replaced : replaceFile directory path content middle with
    | mk outcome last =>
      rw [replaced] at ran
      cases outcome with
      | error cause =>
        cases ran
        exact made.trans (replaceFile_error replaced).confined
      | ok value => cases ran

/-- A write that fails leaves the files as they were. -/
theorem writeIfChanged_error {path : Path} {text : String} {tree after : FileTree}
    {cause : FileError} (ran : writeIfChanged path text tree = (.error cause, after)) :
    Confined (fun _ => False) tree after := by
  rw [writeIfChanged_eq] at ran
  obtain ⟨read, same, run⟩ := existing?_cases path tree
  rcases run with run | ⟨content, run, _⟩
  all_goals
    rw [run] at ran
    dsimp only at ran
    split at ran
    · cases ran
    · exact same.confined.trans (rewrite_error ran)

theorem writeIfChanged_alters (path : Path) (text : String) (tree : FileTree) :
    Alters (fun names found => names = tree.place path ∧ found = some text.toUTF8) tree
      (writeIfChanged path text tree).2 := by
  intro names
  cases ran : writeIfChanged path text tree with
  | mk outcome after =>
    cases outcome with
    | error cause => exact .inl ((writeIfChanged_error ran).outside names id)
    | ok status =>
      have stored := writeIfChanged_ok ran
      by_cases here : names = tree.place path
      · exact .inr ⟨here, here ▸ stored.there⟩
      · exact .inl (stored.confined.outside names here)

/-- The parent of a path that can be followed is there. -/
theorem parent_of_located {path : Path} {tree : FileTree} {location : Location}
    (located : tree.locate path = .ok location) {lead : List (List Char)} {last : List Char}
    (names : Path.named path.text.toList = lead ++ [last]) (quiet : tree.faultAfter = none) :
    ∃ parent, path.parent? = some parent ∧ createDirectories parent tree = (.ok (), tree) ∧
      (parent.text.isEmpty = false → ∃ entries, tree.node parent = .ok (.directory entries)) := by
  obtain ⟨parent, isParent, namedParent, absolute, relative, rest, whole⟩ := Path.parent_spec names
  obtain ⟨nonempty, noNull, short, followed, _⟩ := locate_eq_ok.1 located
  have text : path.text = parent.text ++ String.ofList rest := by
    apply String.toList_injective
    rw [String.toList_append, String.toList_ofList, whole]
  have started : tree.start parent = tree.start path := by
    by_cases filled : parent.text.toList = []
    · have noRoot : parent.isAbsolute = false := by simp [Path.isAbsolute, filled]
      rw [FileTree.start, FileTree.start, noRoot, relative filled]
    · rw [FileTree.start, FileTree.start, absolute filled]
  have isDirectory : tree.IsDirectoryAt (tree.start path) := by
    rw [← Path.filter_segments] at names
    cases shape : segments path with
    | nil => rw [shape] at names; simp at names
    | cons segment others =>
      rw [shape] at followed
      exact (follow_cons_ok followed).1
  have created : Created tree (tree.start parent) (segments parent) := by
    rw [← created_filter, Path.filter_segments, namedParent, started]
    exact created_of_follow followed ((Path.filter_segments path).trans names)
  have noNullParent : parent.text.toList.contains '\x00' = false := by
    rw [← whole] at noNull
    simp only [List.contains_eq_mem, List.mem_append, decide_eq_false_iff_not] at noNull ⊢
    exact fun member => noNull (.inl member)
  have shortParent : ¬ parent.text.utf8ByteSize > pathLimit := by
    rw [text, String.utf8ByteSize_append] at short
    omega
  refine ⟨parent, isParent, ?_, ?_⟩
  · rw [createDirectories_eq, noNullParent, if_neg Bool.false_ne_true, if_neg shortParent]
    exact createAlong_of_created quiet created
  · intro filled
    obtain ⟨followedParent, there⟩ := follow_of_created (started ▸ isDirectory) created
    obtain ⟨entries, found⟩ := isDirectoryAt_iff.1 there
    refine ⟨entries, node_eq_ok.2 ⟨⟨_, decide (parent.text.toList.getLast? = some '/')⟩, ?_, found,
      fun _ => rfl⟩⟩
    refine locate_eq_ok.2 ⟨?_, noNullParent, shortParent, followedParent, rfl⟩
    intro none
    have empty : parent.text = "" := String.toList_injective none
    rw [empty] at filled
    cases filled

/-- A path that leads to a file names something. -/
theorem named_of_fileAt {tree : FileTree} (inside : tree.IsInside) {path : Path} {content : ByteArray}
    (there : tree.fileAt (tree.place path) = some content) :
    ∃ lead last, Path.named path.text.toList = lead ++ [last] := by
  rcases List.eq_nil_or_concat' (Path.named path.text.toList) with none | ⟨lead, last, named⟩
  · rw [FileTree.place, Path.placeFrom_eq_named, none] at there
    exact absurd (inside.start path) (not_isDirectoryAt_of_fileAt there)
  · exact ⟨lead, last, named⟩

/-- A path that can be followed and is no directory can be written. -/
theorem writeIfChanged_of_located {path : Path} (text : String) {tree : FileTree}
    (quiet : tree.faultAfter = none) {location : Location}
    (located : tree.locate path = .ok location) (asFile : location.asDirectory = false)
    (free : ¬ tree.IsDirectoryAt (tree.place path)) {lead : List (List Char)} {last : List Char}
    (names : Path.named path.text.toList = lead ++ [last]) :
    ∃ status after, writeIfChanged path text tree = (.ok status, after) ∧ NoNewDirectories tree after := by
  obtain ⟨parent, isParent, made, inDirectory⟩ := parent_of_located located names quiet
  have replaced := replaceFile_of_located quiet located asFile free inDirectory text.toUTF8
  have rewritten : rewrite parent path text.toUTF8 tree =
      (.ok .written, placed tree (tree.place path) (.file text.toUTF8)) := by
    unfold rewrite
    rw [bind_of_ok made, bind_of_ok replaced]
    rfl
  rw [writeIfChanged_eq]
  obtain ⟨read, same, run⟩ := existing?_cases path tree
  obtain rfl := same.eq_of_quiet quiet
  rcases run with run | ⟨content, run, _⟩
  all_goals
    rw [run]
    dsimp only
    split
    · exact ⟨_, _, rfl, fun _ => id⟩
    · rw [isParent]
      refine ⟨_, _, rewritten, noNewDirectories_placed ?_ free _⟩
      obtain ⟨place, usable⟩ := locate_ok located
      exact place ▸ usable.reaches

end Output
end ContractBuild
