import ContractBuild.Proofs.FileTree.Locations

/-!
What each operation on files can change. Reading changes nothing, creating directories changes no
file, and writing or removing a file changes the place of its path alone. This holds whether the
operation goes well, fails or is disrupted.
-/
namespace ContractBuild
open FileTree FileAction

namespace FileNode

/-- A node cannot be put where no directory leads. -/
theorem sight_put_unreached (new : FileNode) {node : FileNode} {names : List String}
    (unreached : ¬ node.Reaches names) (other : List String) :
    (put new names node).sight other = node.sight other := by
  induction names generalizing node other with
  | nil => exact absurd (.inl rfl) unreached
  | cons name names ih =>
    cases node with
    | file content => cases names <;> rfl
    | directory entries =>
      cases names with
      | nil => exact absurd (.inr rfl) unreached
      | cons next rest =>
        simp only [put]
        cases found : entryOf? name entries with
        | none => rfl
        | some child =>
          have unreachedChild : ¬ child.Reaches (next :: rest) := by
            intro reaches
            rcases reaches with empty | lead
            · cases empty
            · refine unreached (.inr ?_)
              rw [List.dropLast_cons_of_ne_nil (by simp), sight_directory_cons, found]
              exact lead
          cases other with
          | nil => rfl
          | cons first others =>
            rw [sight_directory_cons, sight_directory_cons]
            by_cases same : first = name
            · subst same
              rw [entryOf?_putEntry_self, found]
              exact ih unreachedChild others
            · rw [entryOf?_putEntry_of_ne same]

end FileNode

namespace FileTree
open FileNode

/-- The same files seen from the same directory. A fault may have passed. -/
structure SameFiles (before after : FileTree) : Prop where
  root : after.root = before.root
  workingDirectory : after.workingDirectory = before.workingDirectory
  quiet : before.faultAfter = none → after.faultAfter = none

theorem SameFiles.refl (tree : FileTree) : tree.SameFiles tree :=
  ⟨rfl, rfl, id⟩

theorem SameFiles.trans {first middle last : FileTree} (earlier : first.SameFiles middle)
    (later : middle.SameFiles last) : first.SameFiles last :=
  ⟨later.root.trans earlier.root, later.workingDirectory.trans earlier.workingDirectory,
    later.quiet ∘ earlier.quiet⟩

theorem SameFiles.eq_of_quiet {before after : FileTree} (same : before.SameFiles after)
    (quiet : before.faultAfter = none) : after = before := by
  obtain ⟨root, workingDirectory, keepsQuiet⟩ := same
  have silent := keepsQuiet quiet
  cases before
  cases after
  simp_all

theorem SameFiles.place_eq {before after : FileTree} (same : before.SameFiles after) (path : Path) :
    after.place path = before.place path := by
  rw [place, place, same.workingDirectory]

theorem SameFiles.locate_eq {before after : FileTree} (same : before.SameFiles after) (path : Path) :
    after.locate path = before.locate path := by
  simp only [locate, start, same.root, same.workingDirectory]

theorem SameFiles.node_eq {before after : FileTree} (same : before.SameFiles after) (path : Path) :
    after.node path = before.node path := by
  simp only [FileTree.node, same.locate_eq, same.root]

/-- What changed from one tree to another is confined to the files at some places. -/
structure Confined (scope : List String → Prop) (before after : FileTree) : Prop where
  workingDirectory : after.workingDirectory = before.workingDirectory
  outside : ∀ names, ¬ scope names → after.fileAt names = before.fileAt names
  directories : ∀ names, before.IsDirectoryAt names → after.IsDirectoryAt names
  tidy : before.root.Tidy → after.root.Tidy
  quiet : before.faultAfter = none → after.faultAfter = none

variable {scope wider : List String → Prop}

theorem Confined.refl (tree : FileTree) : Confined scope tree tree :=
  ⟨rfl, fun _ _ => rfl, fun _ => id, id, id⟩

theorem Confined.trans {first middle last : FileTree} (earlier : Confined scope first middle)
    (later : Confined scope middle last) : Confined scope first last :=
  ⟨later.workingDirectory.trans earlier.workingDirectory,
    fun names outside => (later.outside names outside).trans (earlier.outside names outside),
    fun names => later.directories names ∘ earlier.directories names,
    later.tidy ∘ earlier.tidy, later.quiet ∘ earlier.quiet⟩

theorem Confined.mono {before after : FileTree} (confined : Confined scope before after)
    (within : ∀ names, scope names → wider names) : Confined wider before after :=
  ⟨confined.workingDirectory,
    fun names outside => confined.outside names fun inside => outside (within names inside),
    confined.directories, confined.tidy, confined.quiet⟩

theorem SameFiles.confined {before after : FileTree} (same : before.SameFiles after) :
    Confined scope before after := by
  refine ⟨same.workingDirectory, ?_, ?_, ?_, same.quiet⟩
  · intro names _
    rw [fileAt, fileAt, same.root]
  · intro names
    rw [IsDirectoryAt, IsDirectoryAt, same.root]
    exact id
  · rw [same.root]
    exact id

theorem Confined.place_eq {before after : FileTree} (confined : Confined scope before after)
    (path : Path) : after.place path = before.place path := by
  rw [place, place, confined.workingDirectory]

theorem Confined.locate {before after : FileTree} (confined : Confined scope before after)
    {path : Path} {location : Location} (located : before.locate path = .ok location) :
    after.locate path = .ok location :=
  locate_mono confined.workingDirectory confined.directories located

def Alters (allowed : List String → Option ByteArray → Prop) (before after : FileTree) : Prop :=
  ∀ names, after.fileAt names = before.fileAt names ∨ allowed names (after.fileAt names)

theorem Alters.refl {allowed : List String → Option ByteArray → Prop} (tree : FileTree) :
    Alters allowed tree tree :=
  fun _ => .inl rfl

theorem Alters.trans {allowed : List String → Option ByteArray → Prop}
    {first middle last : FileTree} (earlier : Alters allowed first middle)
    (later : Alters allowed middle last) : Alters allowed first last := by
  intro names
  rcases later names with same | fine
  · rw [same]
    exact earlier names
  · exact .inr fine

theorem Alters.mono {allowed more : List String → Option ByteArray → Prop}
    {before after : FileTree} (alters : Alters allowed before after)
    (within : ∀ names found, allowed names found → more names found) : Alters more before after :=
  fun names => (alters names).imp_right (within names _)

theorem SameFiles.fileAt_eq {before after : FileTree} (same : before.SameFiles after)
    (names : List String) : after.fileAt names = before.fileAt names := by
  rw [fileAt, fileAt, same.root]

theorem SameFiles.alters {allowed : List String → Option ByteArray → Prop} {before after : FileTree}
    (same : before.SameFiles after) : Alters allowed before after :=
  fun names => .inl (same.fileAt_eq names)

def ConfinedFrom (workingDirectory : List String) (scope : List String → Prop)
    (before after : FileTree) : Prop :=
  before.workingDirectory = workingDirectory → before.root.Tidy → Confined scope before after

theorem ConfinedFrom.refl {workingDirectory : List String} (tree : FileTree) :
    ConfinedFrom workingDirectory scope tree tree :=
  fun _ _ => .refl tree

theorem ConfinedFrom.trans {workingDirectory : List String} {first middle last : FileTree}
    (earlier : ConfinedFrom workingDirectory scope first middle)
    (later : ConfinedFrom workingDirectory scope middle last) :
    ConfinedFrom workingDirectory scope first last := by
  intro same tidy
  have confined := earlier same tidy
  exact confined.trans (later (confined.workingDirectory.trans same) (confined.tidy tidy))

/-! One change of the tree -/

/-- A directory that is created is seen at its place and nowhere else. -/
theorem sight_placed_directory {tree : FileTree} {names : List String} (vacant : tree.root.get? names = none)
    (other : List String) : (placed tree names .emptyDirectory).root.sight other = tree.root.sight other ∨
      other = names ∧ (placed tree names .emptyDirectory).root.sight other = some none := by
  have unseen : tree.root.sight names = none := by
    rw [sight, vacant]
    rfl
  by_cases reaches : tree.root.Reaches names
  · by_cases covered : names <+: other
    · obtain ⟨rest, rfl⟩ := covered
      have there : (placed tree names .emptyDirectory).root.sight (names ++ rest) =
          FileNode.emptyDirectory.sight rest := sight_put_append _ reaches rest
      cases rest with
      | nil => exact .inr ⟨List.append_nil names, there⟩
      | cons name rest =>
        left
        rw [there, sight_emptyDirectory_cons,
          sight_append_of_not_directory (by simp) (by simp [unseen])]
    · exact .inl (sight_put _ reaches covered)
  · exact .inl (sight_put_unreached _ reaches other)

theorem confined_placed_directory {tree : FileTree} {names : List String}
    (vacant : tree.root.get? names = none) (plain : EndsPlain names) :
    Confined scope tree (placed tree names .emptyDirectory) := by
  refine ⟨rfl, ?_, ?_, fun tidy => FileNode.Tidy.empty.put tidy plain, id⟩
  · intro other _
    rw [fileAt, fileAt]
    rcases sight_placed_directory vacant other with same | ⟨rfl, made⟩
    · rw [same]
    · rw [made, sight, vacant]
      rfl
  · intro other isDirectory
    rcases sight_placed_directory vacant other with same | ⟨_, made⟩
    · exact same.trans isDirectory
    · exact made

theorem isDirectoryAt_placed {tree : FileTree} {names : List String}
    (reaches : tree.root.Reaches names) :
    (placed tree names .emptyDirectory).IsDirectoryAt names := by
  have there := sight_put_append .emptyDirectory reaches []
  rw [List.append_nil] at there
  exact there

theorem sight_placed_file {tree : FileTree} {names : List String}
    (reaches : tree.root.Reaches names) (free : ¬ tree.IsDirectoryAt names) (content : ByteArray)
    (other : List String) :
    (placed tree names (.file content)).root.sight other =
      if other = names then some (some content) else tree.root.sight other := by
  by_cases covered : names <+: other
  · obtain ⟨rest, rfl⟩ := covered
    show (FileNode.put (.file content) names tree.root).sight (names ++ rest) = _
    rw [sight_put_append _ reaches]
    cases rest with
    | nil => simp [sight, get?]
    | cons name rest =>
      rw [sight_file_cons, if_neg (by simp), sight_append_of_not_directory (by simp) free]
  · rw [if_neg (by rintro rfl; exact covered (List.prefix_refl _))]
    exact sight_put _ reaches covered

theorem confined_placed_file {tree : FileTree} {names : List String} (usable : tree.Usable names)
    (free : ¬ tree.IsDirectoryAt names) (content : ByteArray) :
    Confined (· = names) tree (placed tree names (.file content)) := by
  have plain : EndsPlain names := usable.ends.resolve_left free
  refine ⟨rfl, ?_, ?_, fun tidy => (FileNode.Tidy.file content).put tidy plain, id⟩
  · intro other outside
    rw [fileAt, fileAt, sight_placed_file usable.reaches free, if_neg outside]
  · intro other isDirectory
    have differs : other ≠ names := by
      rintro rfl
      exact free isDirectory
    rw [IsDirectoryAt, sight_placed_file usable.reaches free, if_neg differs]
    exact isDirectory

/-- Taking a file away changes nothing else. -/
theorem sight_erase_file {tree : FileTree} (tidy : tree.root.Tidy) {names : List String}
    {content : ByteArray} (reaches : tree.root.Reaches names)
    (found : tree.fileAt names = some content) {other : List String} (differs : other ≠ names) :
    (tree.root.erase names).sight other = tree.root.sight other := by
  by_cases covered : names <+: other
  · obtain ⟨rest, rfl⟩ := covered
    have nonempty : rest ≠ [] := by
      rintro rfl
      exact differs (List.append_nil names)
    have isFile : tree.root.sight names = some (some content) := by
      rw [sight, fileAt_eq_some.1 found]
      rfl
    have unseen : tree.root.sight (names ++ rest) = none :=
      sight_append_of_not_directory nonempty (by simp [isFile])
    rw [unseen]
    by_cases atRoot : names = []
    · subst atRoot
      obtain ⟨name, rest, rfl⟩ := List.exists_cons_of_ne_nil nonempty
      rfl
    · exact sight_erase_append tidy reaches atRoot rest
  · exact sight_erase reaches covered

theorem not_isDirectoryAt_of_fileAt {tree : FileTree} {names : List String} {content : ByteArray}
    (found : tree.fileAt names = some content) : ¬ tree.IsDirectoryAt names := by
  intro isDirectory
  rw [fileAt, isDirectory] at found
  cases found

theorem confined_erase {tree : FileTree} (tidy : tree.root.Tidy) {names : List String}
    {content : ByteArray} (reaches : tree.root.Reaches names)
    (found : tree.fileAt names = some content) :
    Confined (· = names) tree { tree with root := tree.root.erase names } := by
  refine ⟨rfl, ?_, ?_, fun tidy => tidy.erase names, id⟩
  · intro other outside
    rw [fileAt, fileAt]
    exact congrArg Option.join (sight_erase_file tidy reaches found outside)
  · intro other isDirectory
    have differs : other ≠ names := by
      rintro rfl
      exact not_isDirectoryAt_of_fileAt found isDirectory
    rw [IsDirectoryAt]
    exact (sight_erase_file tidy reaches found differs).trans isDirectory

theorem fileAt_erase {tree : FileTree} (tidy : tree.root.Tidy) {names : List String}
    (reaches : tree.root.Reaches names) :
    fileAt { tree with root := tree.root.erase names } names = none := by
  by_cases atRoot : names = []
  · subst atRoot
    rfl
  · have gone := sight_erase_append tidy reaches atRoot []
    rw [List.append_nil] at gone
    rw [fileAt, gone]
    rfl

end FileTree
end ContractBuild
