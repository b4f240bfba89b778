import ContractBuild.Proofs.Build.Purge
import ContractBuild.Proofs.Build.Records
import ContractBuild.Proofs.Store.Entries

/-!
What the store does to files. The file of an artifact is removed when its entry is dropped and put
in place as a whole when it is published; no other file changes. A store that is opened has the
artifacts of the files that are named after them.
-/
namespace ContractBuild

/-- Sources are compiled under whole names. -/
theorem SourceUnit.artifactName_whole (unit : SourceUnit) : '/' ∉ unit.artifactName.toList := by
  unfold artifactName
  cases isStem : unit.path.fileStem? with
  | none => simp
  | some stem => exact Path.fileStem?_whole isStem

namespace Store
open FileTree FileAction ContractBuild.Action

theorem suffix_fileExtension : Suffix fileExtension := by
  constructor <;> decide

theorem placeFrom_pathFor (workingDirectory : List String) (store : Store) (name : String) :
    EndsIn fileExtension (placeFrom workingDirectory (store.pathFor name)) :=
  suffix_fileExtension.placeFrom_endsIn workingDirectory store.directory name

/-- Dropping an entry runs at most the removal of its file. -/
theorem workspace_invalidate (name : String) (state : BuildState) :
    (invalidate name state).2.workspace = state.workspace ∨
      (invalidate name state).2.workspace = { state.workspace with
        files := (removeFile (state.store.pathFor name) state.workspace.files).2 } := by
  rw [invalidate_eq]
  unfold clearFile
  split
  · exact .inr rfl
  · exact .inl rfl

def writeArtifact (store : Store) (artifact : Artifact) : FileAction Unit := do
  FileAction.createDirectories store.directory
  FileAction.replaceFile store.directory (store.pathFor artifact.name)
    artifact.toJson.compact.toUTF8

theorem workspace_publish (artifact : Artifact) (state : BuildState) :
    (publish artifact state).2.workspace = { state.workspace with
      files := (state.store.writeArtifact artifact state.workspace.files).2 } := by
  unfold publish writeArtifact
  simp only [Action.bind_apply, Action.get_apply]
  obtain ⟨outcome, files, ran, run⟩ := onFiles_cases (do
    FileAction.createDirectories state.store.directory
    FileAction.replaceFile state.store.directory (state.store.pathFor artifact.name)
      artifact.toJson.compact.toUTF8) state
  rw [run]
  simp only [Action.bind_apply] at ran
  rw [ran]
  cases outcome <;> rfl

theorem writeArtifact_confined (store : Store) (artifact : Artifact) (tree : FileTree) :
    Confined (· = tree.place (store.pathFor artifact.name)) tree
      (store.writeArtifact artifact tree).2 := by
  have made : Confined (· = tree.place (store.pathFor artifact.name)) tree
      (createDirectories store.directory tree).2 := createDirectories_confined store.directory tree
  unfold writeArtifact
  rw [bind_apply]
  revert made
  rcases createDirectories store.directory tree with ⟨cause | value, middle⟩
  · exact id
  · intro made
    have replaced := replaceFile_confined store.directory (store.pathFor artifact.name)
      artifact.toJson.compact.toUTF8 middle
    rw [made.place_eq] at replaced
    exact made.trans replaced

theorem writeArtifact_alters (store : Store) (artifact : Artifact) (tree : FileTree) :
    Alters (fun names found => names = tree.place (store.pathFor artifact.name) ∧
      found = some artifact.toJson.compact.toUTF8) tree (store.writeArtifact artifact tree).2 := by
  have made : Confined (fun _ => False) tree (createDirectories store.directory tree).2 :=
    createDirectories_confined store.directory tree
  unfold writeArtifact
  rw [bind_apply]
  revert made
  rcases createDirectories store.directory tree with ⟨cause | value, middle⟩
  · exact fun made names => .inl (made.outside names id)
  · intro made
    have altered := replaceFile_alters store.directory (store.pathFor artifact.name)
      artifact.toJson.compact.toUTF8 middle
    rw [made.place_eq] at altered
    exact Alters.trans (fun names => .inl (made.outside names id)) altered

/-! Opening a store -/

structure Kept (tree : FileTree) (path : Path) (artifact : Artifact) : Prop where
  extension : path.extension? = some fileExtension
  stem : path.fileStem? = some artifact.name
  held : (tree.fileAt (tree.place path)).bind Artifact.held? = some artifact

theorem readArtifact?_cases {path : Path} (isRecord : path.extension? = some fileExtension) (tree : FileTree) :
    ∃ after, tree.SameFiles after ∧ (readArtifact? path tree = (.ok none, after) ∨
      ∃ artifact, readArtifact? path tree = (.ok (some artifact), after) ∧ Kept tree path artifact) := by
  obtain ⟨after, same, ran | ⟨content, ran, read⟩⟩ := Output.existing?_cases path tree
  · refine ⟨after, same, .inl ?_⟩
    rw [readArtifact?, bind_of_ok ran]
    rfl
  · refine ⟨after, same, ?_⟩
    rw [readArtifact?, bind_of_ok ran]
    cases holds : (Artifact.held? content).filter fun found => path.fileStem? = some found.name with
    | none => exact .inl (congrArg (fun found => (Except.ok found, after)) holds)
    | some artifact =>
      obtain ⟨held, named⟩ := Option.filter_eq_some_iff.1 holds
      obtain ⟨_, _, _, there⟩ := readBytes_ok read
      refine .inr ⟨artifact, congrArg (fun found => (Except.ok found, after)) holds, isRecord, ?_, ?_⟩
      · simpa using named
      · rw [there, Option.bind_some]
        exact held

/-- Whatever is read from a directory was there before or is kept in one of its files. -/
theorem mem_readAll {directory : Path} {found live : List Artifact} {names : List String}
    {tree after : FileTree} (ran : readAll directory found names tree = (.ok live, after)) :
    tree.SameFiles after ∧ ∀ artifact ∈ live, artifact ∈ found ∨
      ∃ name ∈ names, Kept tree (directory.join ⟨name⟩) artifact := by
  induction names generalizing found tree with
  | nil =>
    cases ran
    exact ⟨.refl _, fun artifact member => .inl member⟩
  | cons name names ih =>
    have rest : ∀ {found : List Artifact} {read : FileTree}, tree.SameFiles read →
        readAll directory found names read = (.ok live, after) →
        tree.SameFiles after ∧ ∀ artifact ∈ live, artifact ∈ found ∨
          ∃ other ∈ name :: names, Kept tree (directory.join ⟨other⟩) artifact := by
      intro found read same ran
      obtain ⟨later, members⟩ := ih ran
      refine ⟨same.trans later, fun artifact member => (members artifact member).imp_right ?_⟩
      rintro ⟨other, inside, extension, stem, held⟩
      refine ⟨other, List.mem_cons_of_mem _ inside, extension, stem, ?_⟩
      rwa [same.place_eq, same.fileAt_eq] at held
    rw [readAll] at ran
    split at ran
    · next isRecord =>
      obtain ⟨read, same, none | ⟨artifact, some, kept⟩⟩ := readArtifact?_cases isRecord tree
      · rw [bind_of_ok none] at ran
        exact rest same ran
      · rw [bind_of_ok some] at ran
        obtain ⟨last, members⟩ := rest same ran
        refine ⟨last, fun other member => ?_⟩
        rcases members other member with inserted | later
        · rcases mem_insertArtifact inserted with rfl | old
          · exact .inr ⟨name, List.mem_cons_self, kept⟩
          · exact .inl old
        · exact .inr later
    · exact rest (.refl tree) ran

/-- A store that was opened has what is kept in the directory. -/
theorem load_ok {cache : Path} {tree after : FileTree} {store : Store} (tidy : tree.root.Tidy)
    (ran : load cache tree = (.ok store, after)) :
    Confined (fun _ => False) tree after ∧ store.directory = artifactsDir cache ∧ store.slots = [] ∧
      ∀ artifact ∈ store.live, ∃ name, FileNode.Plain name ∧
        Kept after ((artifactsDir cache).join ⟨name⟩) artifact := by
  have made : Confined (fun _ => False) tree (createDirectories (artifactsDir cache) tree).2 :=
    createDirectories_confined _ tree
  unfold load at ran
  obtain ⟨_, created, creates, ran⟩ := bind_eq_ok ran
  obtain ⟨names, listed, lists, ran⟩ := bind_eq_ok ran
  obtain ⟨live, read, reads, done⟩ := bind_eq_ok ran
  cases done
  rw [creates] at made
  have same := reads_listDirectory (artifactsDir cache) created
  rw [lists] at same
  obtain ⟨sameRead, members⟩ := mem_readAll reads
  refine ⟨(made.trans same.confined).trans sameRead.confined, rfl, rfl, fun artifact member => ?_⟩
  rcases members artifact member with none | ⟨name, inside, extension, stem, held⟩
  · cases none
  · refine ⟨name, Output.listDirectory_plain (made.tidy tidy) lists name inside, extension, stem, ?_⟩
    rw [sameRead.place_eq, sameRead.fileAt_eq]
    exact held

end Store
end ContractBuild
