import ContractBuild.Proofs.Build.Outputs

/-!
Clearing files away. A purge removes files directly in a directory that have the extension and a
stem outside those that are kept, and nothing else.
-/
namespace ContractBuild.Output
open FileTree FileAction ContractBuild.Action

def StaleName (extension : String) (keep : List String) (path : Path) : Prop :=
  path.extension? = some extension ∧ (path.fileStem?.any fun stem => stem ∉ keep) = true

theorem isStale_iff {tree : FileTree} {extension : String} {keep : List String} {path : Path} :
    isStale tree extension keep path = true ↔
      tree.isFile path = true ∧ StaleName extension keep path := by
  simp [isStale, StaleName, and_assoc]

def Purgeable (workingDirectory : List String) (directory : Path) (extension : String)
    (keep : List String) (names : List String) : Prop :=
  ∃ name, FileNode.Plain name ∧ StaleName extension keep (directory.join ⟨name⟩) ∧
    names = placeFrom workingDirectory (directory.join ⟨name⟩)

theorem Purgeable.endsIn {workingDirectory : List String} {directory : Path} {extension : String}
    {keep names : List String} (purgeable : Purgeable workingDirectory directory extension keep names) :
    EndsIn extension names := by
  obtain ⟨name, _, stale, rfl⟩ := purgeable
  exact Path.placeFrom_of_extension? workingDirectory stale.1

variable {directory : Path} {extension : String} {keep : List String}

/-- One name of the listing: its file is removed, the removal fails, or it stays. -/
theorem removeStale_cons (name : String) (names : List String) (tree : FileTree) :
    removeStale directory extension keep (name :: names) tree =
      if isStale tree extension keep (directory.join ⟨name⟩) then
        (do
          removeFile (directory.join ⟨name⟩)
          return directory.join ⟨name⟩ :: (← removeStale directory extension keep names) :
            FileAction (List Path)) tree
      else removeStale directory extension keep names tree := by
  rw [removeStale, bind_apply, get_apply]
  dsimp only
  split <;> rfl

theorem removeStale_confined {names : List String} (plain : ∀ name ∈ names, FileNode.Plain name)
    {tree : FileTree} (tidy : tree.root.Tidy) :
    Confined (Purgeable tree.workingDirectory directory extension keep) tree
      (removeStale directory extension keep names tree).2 := by
  induction names generalizing tree with
  | nil => exact .refl tree
  | cons name names ih =>
    have plainRest := fun other member => plain other (List.mem_cons_of_mem name member)
    rw [removeStale_cons]
    split
    · next stale =>
      have removed : Confined (Purgeable tree.workingDirectory directory extension keep) tree
          (removeFile (directory.join ⟨name⟩) tree).2 := by
        refine (removeFile_confined _ tidy).mono ?_
        rintro place rfl
        exact ⟨name, plain name List.mem_cons_self, (isStale_iff.1 stale).2, rfl⟩
      rw [bind_apply]
      revert removed
      rcases removeFile (directory.join ⟨name⟩) tree with ⟨cause | value, middle⟩
      · exact id
      · intro removed
        have rest := ih plainRest (removed.tidy tidy)
        rw [removed.workingDirectory] at rest
        dsimp only
        rw [bind_apply]
        revert rest
        rcases removeStale directory extension keep names middle with ⟨cause | paths, after⟩
        all_goals exact fun rest => removed.trans rest
    · exact ih plainRest tidy

/-- The names in a directory of a tidy tree are plain. -/
theorem listDirectory_plain {tree after : FileTree} (tidy : tree.root.Tidy) {names : List String}
    (ran : listDirectory directory tree = (.ok names, after)) : ∀ name ∈ names, FileNode.Plain name := by
  obtain ⟨left, _, went⟩ := attempt_ok ran
  cases found : (withFault tree left).node directory with
  | error cause =>
    rw [found] at went
    cases went
  | ok node =>
    rw [found] at went
    cases node with
    | file content => cases went
    | directory entries =>
      cases went
      obtain ⟨location, _, there, _⟩ := node_eq_ok.1 found
      have tidyThere := FileNode.tidy_of_get? tidy there
      intro name member
      obtain ⟨entry, inside, rfl⟩ := List.mem_map.1 member
      cases tidyThere with
      | directory _ plain _ => exact plain entry inside

theorem purgeStale_confined (directory : Path) (extension : String) (keep : List String)
    {tree : FileTree} (tidy : tree.root.Tidy) :
    Confined (Purgeable tree.workingDirectory directory extension keep) tree
      (purgeStale directory extension keep tree).2 := by
  unfold purgeStale
  rw [bind_apply, get_apply]
  dsimp only
  split
  · exact .refl tree
  · have same := reads_listDirectory directory tree
    rw [bind_apply]
    cases read : listDirectory directory tree with
    | mk outcome listed =>
      rw [read] at same
      cases outcome with
      | error cause => exact same.confined
      | ok names =>
        have tidyListed : listed.root.Tidy := by
          rw [same.root]
          exact tidy
        have removed : Confined _ listed (removeStale directory extension keep names listed).2 :=
          removeStale_confined (listDirectory_plain tidy read) tidyListed
        rw [same.workingDirectory] at removed
        exact same.confined.trans removed

theorem place_ne_nil_of_stale {tree : FileTree} {path : Path}
    (stale : isStale tree extension keep path = true) : tree.place path ≠ [] := by
  obtain ⟨lead, last, front, place, _⟩ := Path.placeFrom_of_extension? tree.workingDirectory
    (isStale_iff.1 stale).2.1
  rw [FileTree.place, place]
  simp

theorem removeStale_shrinks (names : List String) {tree : FileTree} (tidy : tree.root.Tidy) :
    tree.Shrinks (removeStale directory extension keep names tree).2 := by
  induction names generalizing tree with
  | nil => exact (SameFiles.refl tree).shrinks
  | cons name names ih =>
    rw [removeStale_cons]
    split
    · next stale =>
      have removed := removeFile_shrinks tidy (place_ne_nil_of_stale stale)
      have confined := removeFile_confined (directory.join ⟨name⟩) tidy
      rw [bind_apply]
      revert removed confined
      rcases removeFile (directory.join ⟨name⟩) tree with ⟨cause | value, middle⟩
      · exact fun removed _ => removed
      · intro removed confined
        have rest := ih (confined.tidy tidy)
        dsimp only
        rw [bind_apply]
        revert rest
        rcases removeStale directory extension keep names middle with ⟨cause | paths, after⟩
        all_goals exact fun rest => removed.trans rest
    · exact ih tidy

/-- A purge only removes files. -/
theorem purgeStale_shrinks (directory : Path) (extension : String) (keep : List String)
    {tree : FileTree} (tidy : tree.root.Tidy) :
    tree.Shrinks (purgeStale directory extension keep tree).2 := by
  unfold purgeStale
  rw [bind_apply, get_apply]
  dsimp only
  split
  · exact (SameFiles.refl tree).shrinks
  · have same := reads_listDirectory directory tree
    rw [bind_apply]
    revert same
    rcases listDirectory directory tree with ⟨cause | names, listed⟩
    · exact SameFiles.shrinks
    · intro same
      have tidyListed : listed.root.Tidy := by
        rw [same.root]
        exact tidy
      exact same.shrinks.trans (removeStale_shrinks names tidyListed)

theorem isStale_of_shrinks {before after : FileTree} (shrinks : before.Shrinks after) {path : Path}
    (stale : isStale after extension keep path = true) : isStale before extension keep path = true := by
  obtain ⟨isFile, name⟩ := isStale_iff.1 stale
  exact isStale_iff.2 ⟨shrinks.isFile isFile, name⟩

theorem removeStale_removes {names : List String} (plain : ∀ name ∈ names, FileNode.Plain name)
    {tree : FileTree} (tidy : tree.root.Tidy) (place : List String) :
    (removeStale directory extension keep names tree).2.fileAt place = tree.fileAt place ∨
      ∃ name, FileNode.Plain name ∧ isStale tree extension keep (directory.join ⟨name⟩) = true ∧
        place = tree.place (directory.join ⟨name⟩) := by
  induction names generalizing tree with
  | nil => exact .inl rfl
  | cons name names ih =>
    have plainRest := fun other member => plain other (List.mem_cons_of_mem name member)
    rw [removeStale_cons]
    split
    · next stale =>
      by_cases here : place = tree.place (directory.join ⟨name⟩)
      · exact .inr ⟨name, plain name List.mem_cons_self, stale, here⟩
      have shrinks := removeFile_shrinks tidy (place_ne_nil_of_stale stale)
      have confined := removeFile_confined (directory.join ⟨name⟩) tidy
      rw [bind_apply]
      revert shrinks confined
      rcases removeFile (directory.join ⟨name⟩) tree with ⟨cause | value, middle⟩
      · exact fun _ confined => .inl (confined.outside place here)
      · intro shrinks confined
        have rest := ih plainRest (confined.tidy tidy)
        rw [confined.outside place here] at rest
        dsimp only
        rw [bind_apply]
        have goal : ∀ outcome : Except FileError (List Path) × FileTree,
            (outcome.2.fileAt place = tree.fileAt place ∨ ∃ name, FileNode.Plain name ∧
              isStale middle extension keep (directory.join ⟨name⟩) = true ∧
                place = middle.place (directory.join ⟨name⟩)) →
            outcome.2.fileAt place = tree.fileAt place ∨ ∃ name, FileNode.Plain name ∧
              isStale tree extension keep (directory.join ⟨name⟩) = true ∧
                place = tree.place (directory.join ⟨name⟩) := by
          rintro outcome (same | ⟨other, plainOther, staleOther, there⟩)
          · exact .inl same
          · exact .inr ⟨other, plainOther, isStale_of_shrinks shrinks staleOther, there.trans (confined.place_eq _)⟩
        have told := goal _ rest
        revert told
        rcases removeStale directory extension keep names middle with ⟨cause | paths, after⟩
        all_goals exact id
    · exact ih plainRest tidy

/-- What a purge removed was stale. -/
theorem purgeStale_removes (directory : Path) (extension : String) (keep : List String)
    {tree : FileTree} (tidy : tree.root.Tidy) (place : List String) :
    (purgeStale directory extension keep tree).2.fileAt place = tree.fileAt place ∨
      ∃ name, FileNode.Plain name ∧ isStale tree extension keep (directory.join ⟨name⟩) = true ∧
        place = tree.place (directory.join ⟨name⟩) := by
  unfold purgeStale
  rw [bind_apply, get_apply]
  dsimp only
  split
  · exact .inl rfl
  · have same := reads_listDirectory directory tree
    rw [bind_apply]
    cases read : listDirectory directory tree with
    | mk outcome listed =>
      rw [read] at same
      cases outcome with
      | error cause => exact .inl (same.fileAt_eq place)
      | ok names =>
        have tidyListed : listed.root.Tidy := by
          rw [same.root]
          exact tidy
        rcases removeStale_removes (listDirectory_plain tidy read) tidyListed place with kept | ⟨name, plain, stale, there⟩
        · exact .inl (kept.trans (same.fileAt_eq place))
        · exact .inr ⟨name, plain, isStale_of_shrinks same.shrinks stale, there.trans (same.place_eq _)⟩

/-! Purges that go well -/

theorem removeStale_of_quiet (names : List String) {tree : FileTree} (tidy : tree.root.Tidy)
    (quiet : tree.faultAfter = none) :
    ∃ paths after, removeStale directory extension keep names tree = (.ok paths, after) := by
  induction names generalizing tree with
  | nil => exact ⟨[], tree, rfl⟩
  | cons name names ih =>
    rw [removeStale_cons]
    split
    · next stale =>
      obtain ⟨middle, removed⟩ := removeFile_of_isFile quiet (isStale_iff.1 stale).1
      have confined := removeFile_confined (directory.join ⟨name⟩) tidy
      rw [removed] at confined
      obtain ⟨paths, after, rest⟩ := ih (confined.tidy tidy) (confined.quiet quiet)
      rw [bind_of_ok removed, bind_of_ok rest]
      exact ⟨_, after, rfl⟩
    · exact ih tidy quiet

/-- Where there is no directory there is nothing to remove. -/
theorem purgeStale_of_missing (extension : String) (keep : List String) {tree : FileTree}
    (missing : tree.isDirectory directory = false) :
    purgeStale directory extension keep tree = (.ok [], tree) := by
  unfold purgeStale
  rw [bind_apply, get_apply]
  dsimp only
  rw [missing]
  rfl

/-- Without a fault a purge goes well. -/
theorem purgeStale_of_quiet (directory : Path) (extension : String) (keep : List String)
    {tree : FileTree} (tidy : tree.root.Tidy) (quiet : tree.faultAfter = none) :
    ∃ paths after, purgeStale directory extension keep tree = (.ok paths, after) := by
  unfold purgeStale
  rw [bind_apply, get_apply]
  dsimp only
  cases isDirectory : tree.isDirectory directory with
  | false => exact ⟨[], tree, rfl⟩
  | true =>
    obtain ⟨entries, _, there, _⟩ := node_eq_directory isDirectory
    have listed : listDirectory directory tree = (.ok (entries.map (·.1)), tree) := by
      refine attempt_of_quiet quiet ?_
      rw [there]
      rfl
    rw [Bool.not_true, if_neg Bool.false_ne_true, bind_of_ok listed]
    exact removeStale_of_quiet _ tidy quiet

theorem removeStale_ok {names : List String} {tree after : FileTree} {paths : List Path}
    (tidy : tree.root.Tidy)
    (ran : removeStale directory extension keep names tree = (.ok paths, after)) {name : String}
    (listed : name ∈ names) : isStale after extension keep (directory.join ⟨name⟩) = false := by
  induction names generalizing tree paths with
  | nil => cases listed
  | cons first names ih =>
    rw [removeStale_cons] at ran
    split at ran
    · obtain ⟨value, middle, removed, ran⟩ := bind_eq_ok ran
      obtain ⟨others, last, rest, done⟩ := bind_eq_ok ran
      cases done
      have confined := removeFile_confined (directory.join ⟨first⟩) tidy
      have gone := removeFile_ok tidy removed
      rw [removed] at confined
      rcases List.mem_cons.1 listed with rfl | inside
      · have shrinks : Shrinks _ (removeStale directory extension keep names _).2 :=
          removeStale_shrinks names (confined.tidy tidy)
        rw [rest] at shrinks
        rw [Bool.eq_false_iff]
        intro stale
        obtain ⟨_, content, _, _, there⟩ := isFile_eq_true.1 (shrinks.isFile (isStale_iff.1 stale).1)
        rw [confined.place_eq, gone] at there
        cases there
      · exact ih (confined.tidy tidy) rest inside
    · next fresh =>
      rcases List.mem_cons.1 listed with rfl | inside
      · have shrinks : Shrinks _ (removeStale directory extension keep names _).2 :=
          removeStale_shrinks names tidy
        rw [ran] at shrinks
        rw [Bool.eq_false_iff]
        intro stale
        exact fresh (isStale_of_shrinks shrinks stale)
      · exact ih tidy ran inside

/-- A purge that went well left nothing to remove. -/
theorem purgeStale_ok {tree after : FileTree} {paths : List Path} (tidy : tree.root.Tidy)
    (isDirectory : tree.isDirectory directory = true)
    (ran : purgeStale directory extension keep tree = (.ok paths, after)) {name : String}
    (plain : FileNode.Plain name) :
    isStale after extension keep (directory.join ⟨name⟩) = false := by
  have shrinks := purgeStale_shrinks directory extension keep tidy
  rw [ran] at shrinks
  unfold purgeStale at ran
  rw [bind_apply, get_apply] at ran
  dsimp only at ran
  rw [isDirectory, Bool.not_true, if_neg Bool.false_ne_true] at ran
  obtain ⟨names, listed, read, rest⟩ := bind_eq_ok ran
  have same := reads_listDirectory directory tree
  rw [read] at same
  have tidyListed : listed.root.Tidy := by
    rw [same.root]
    exact tidy
  obtain ⟨entries, location, there, located, found⟩ := node_eq_directory isDirectory
  have namesEq : names = entries.map (·.1) := by
    obtain ⟨left, _, went⟩ := attempt_ok read
    have again : (withFault tree left).node directory = .ok (.directory entries) := there
    rw [again] at went
    cases went
    rfl
  by_cases member : name ∈ names
  · exact removeStale_ok tidyListed rest member
  · -- what is not listed was not there and has not come to be
    rw [Bool.eq_false_iff]
    intro stale
    obtain ⟨_, content, _, _, file⟩ := isFile_eq_true.1 (shrinks.isFile (isStale_iff.1 stale).1)
    rw [FileTree.place, placeFrom_join_plain _ _ plain] at file
    have lead : placeFrom tree.workingDirectory directory = location.names := (locate_ok located).1.symm
    rw [lead, fileAt_eq_some, FileNode.get?_append found] at file
    obtain ⟨node, entry, _⟩ := Option.bind_eq_some_iff.1 file
    exact member (namesEq ▸ List.mem_map_of_mem (FileNode.mem_of_entryOf? entry))

end ContractBuild.Output
