import ContractBuild.Proofs.FileTree.Houses
import ContractBuild.Proofs.Store.Files

/-!
The store as shelves, one for each name: the entry of the name and what stands in the place of its
file. Dropping and publishing an artifact work on the shelf of its name alone.
-/
namespace ContractBuild
open FileTree FileAction ContractBuild.Action

structure Shelf where
  entry : Option Artifact
  file : Option (Option ByteArray)
  refusal : Option FileError

namespace BuildState

def IsHoused (state : BuildState) : Prop :=
  state.workspace.files.Houses state.store.directory

def spot (state : BuildState) (name : String) : List String :=
  state.workspace.files.place (state.store.pathFor name)

def shelf (state : BuildState) (name : String) : Shelf :=
  ⟨state.store.lookup name, state.workspace.files.root.sight (state.spot name),
    refusal? state.store.directory (name ++ "." ++ Store.fileExtension)⟩

structure SameShelves (first second : BuildState) : Prop where
  directory : second.store.directory = first.store.directory
  live : second.store.live = first.store.live
  files : second.workspace.files = first.workspace.files

structure Touches (touched : String → Prop) (before after : BuildState) : Prop where
  directory : after.store.directory = before.store.directory
  workingDirectory : after.workspace.files.workingDirectory = before.workspace.files.workingDirectory
  entries : ∀ name, ¬ touched name → after.store.lookup name = before.store.lookup name
  files : ∀ place, (∀ name, touched name → place ≠ before.spot name) →
    after.workspace.files.root.sight place = before.workspace.files.root.sight place
  housed : before.IsHoused → after.IsHoused

variable {first second third state before after : BuildState} {touched wider : String → Prop} {name other : String}

theorem SameShelves.refl (state : BuildState) : state.SameShelves state :=
  ⟨rfl, rfl, rfl⟩

theorem SameShelves.shelf_eq (same : first.SameShelves second) (name : String) :
    second.shelf name = first.shelf name := by
  rw [shelf, shelf, spot, spot, Store.pathFor, Store.pathFor, same.directory, same.files,
    Store.lookup_of_live_eq same.live]

theorem SameShelves.housed (same : first.SameShelves second) (housed : first.IsHoused) : second.IsHoused := by
  rwa [IsHoused, same.files, same.directory]

theorem SameShelves.touches (same : first.SameShelves second) : Touches touched first second := by
  refine ⟨same.directory, by rw [same.files], ?_, ?_, same.housed⟩
  · exact fun name _ => Store.lookup_of_live_eq same.live name
  · intro place _
    rw [same.files]

theorem Touches.spot_eq (touches : Touches touched before after) (name : String) :
    after.spot name = before.spot name := by
  rw [spot, spot, Store.pathFor, Store.pathFor, touches.directory, place, place, touches.workingDirectory]

theorem Touches.trans (earlier : Touches touched first second) (later : Touches touched second third) :
    Touches touched first third := by
  refine ⟨later.directory.trans earlier.directory,
    later.workingDirectory.trans earlier.workingDirectory, ?_, ?_, later.housed ∘ earlier.housed⟩
  · exact fun name apart => (later.entries name apart).trans (earlier.entries name apart)
  · intro place apart
    rw [later.files place fun name isTouched => earlier.spot_eq name ▸ apart name isTouched,
      earlier.files place apart]

theorem Touches.mono (touches : Touches touched before after) (within : ∀ name, touched name → wider name) :
    Touches wider before after :=
  ⟨touches.directory, touches.workingDirectory,
    fun name apart => touches.entries name fun isTouched => apart (within name isTouched),
    fun place apart => touches.files place fun name isTouched => apart name (within name isTouched),
    touches.housed⟩

theorem spot_ne (state : BuildState) (whole : '/' ∉ name.toList) (wholeToo : '/' ∉ other.toList)
    (differs : name ≠ other) : state.spot name ≠ state.spot other := by
  rw [spot, spot, Store.pathFor, Store.pathFor, place, place,
    placeFrom_join_plain _ _ (Store.suffix_fileExtension.plain whole),
    placeFrom_join_plain _ _ (Store.suffix_fileExtension.plain wholeToo)]
  intro same
  have ends := List.append_cancel_left same
  rw [List.cons.injEq] at ends
  have chars := congrArg String.toList ends.1
  rw [String.toList_append, String.toList_append, String.toList_append, String.toList_append,
    List.append_assoc, List.append_assoc] at chars
  exact differs (String.toList_injective (List.append_cancel_right chars))

/-- The shelves of other names stay as they are. -/
theorem Touches.shelf_eq (touches : Touches touched before after) (whole : '/' ∉ other.toList)
    (apart : ∀ name, touched name → '/' ∉ name.toList ∧ name ≠ other) :
    after.shelf other = before.shelf other := by
  have elsewhere : ∀ name, touched name → before.spot other ≠ before.spot name := fun name isTouched =>
    spot_ne before whole (apart name isTouched).1 (apart name isTouched).2.symm
  have untouched : ¬ touched other := fun isTouched => (apart other isTouched).2 rfl
  rw [shelf, shelf, touches.entries other untouched, touches.spot_eq, touches.files _ elsewhere,
    touches.directory]

end BuildState
namespace Shelf

def clear (shelf : Shelf) : Except BuildError Unit × Shelf :=
  let fate := clearFate shelf.refusal shelf.file
  (fate.outcome.mapError .file, { shelf with entry := none, file := fate.seen })

def put (artifact : Artifact) (shelf : Shelf) : Except BuildError Artifact × Shelf :=
  let fate := storeFate artifact.toJson.compact.toUTF8 shelf.refusal shelf.file
  match fate.outcome with
  | .ok () => (.ok artifact, { shelf with entry := some artifact, file := fate.seen })
  | .error cause => (.error (.file cause), shelf)

end Shelf

namespace Store
open BuildState

variable {state : BuildState} {name : String} {artifact : Artifact}

theorem sets_touches {seen : Option (Option ByteArray)} {before : BuildState} {files : FileTree}
    (sets : Sets (before.spot name) seen before.workspace.files files)
    (houses : files.Houses before.store.directory) {store : Store}
    (directory : store.directory = before.store.directory)
    (entries : ∀ other, other ≠ name → store.lookup other = before.store.lookup other) :
    Touches (· = name) before ⟨{ before.workspace with files }, store⟩ := by
  refine ⟨directory, sets.workingDirectory, entries, ?_, ?_⟩
  · intro place apart
    rw [sets.sight, if_neg (apart name rfl)]
  · intro _
    rwa [IsHoused, directory]

theorem sets_shelf {seen : Option (Option ByteArray)} {before : BuildState} {files : FileTree}
    (sets : Sets (before.spot name) seen before.workspace.files files) (store : Store)
    (directory : store.directory = before.store.directory) :
    shelf ⟨{ before.workspace with files }, store⟩ name =
      ⟨store.lookup name, seen, (before.shelf name).refusal⟩ := by
  have place : spot ⟨{ before.workspace with files }, store⟩ name = before.spot name := by
    rw [spot, spot, pathFor, pathFor, directory, FileTree.place, FileTree.place, sets.workingDirectory]
  rw [shelf, place, sets.sight, if_pos rfl, directory]
  rfl

theorem onFiles_of_eq {α : Type} (state : BuildState) {action : FileAction α} {outcome : Except FileError α} {files : FileTree}
    (ran : action state.workspace.files = (outcome, files)) :
    StoreAction.onFiles action state =
      (outcome.mapError .file, { state with workspace := { state.workspace with files } }) := by
  simp only [StoreAction.onFiles, ran]

theorem clear_spot (housed : state.IsHoused) (whole : '/' ∉ name.toList) :
    ∃ files, state.store.clearFile name state.workspace.files =
      ((clearFate (state.shelf name).refusal (state.shelf name).file).outcome, files) ∧
      Sets (state.spot name) (clearFate (state.shelf name).refusal (state.shelf name).file).seen
        state.workspace.files files ∧ files.Houses state.store.directory := by
  have cleared := Houses.clear_join housed (suffix_fileExtension.plain whole)
  simp only [shelf, spot, pathFor]
  exact cleared

theorem store_spot (housed : state.IsHoused) (whole : '/' ∉ name.toList) (content : ByteArray) :
    ∃ files, replaceFile state.store.directory (state.store.pathFor name) content state.workspace.files =
      ((storeFate content (state.shelf name).refusal (state.shelf name).file).outcome, files) ∧
      Sets (state.spot name) (storeFate content (state.shelf name).refusal (state.shelf name).file).seen
        state.workspace.files files ∧ files.Houses state.store.directory := by
  have stored := Houses.store_join housed (suffix_fileExtension.plain whole) content
  simp only [shelf, spot, pathFor]
  exact stored

/-- Whatever the name, no more than the file in its place goes. -/
theorem clearFile_sets {tree : FileTree} {directory : Path} (houses : tree.Houses directory) (store : Store)
    (name : String) :
    ∃ seen, (seen = none ∨ seen = tree.root.sight (tree.place (store.pathFor name))) ∧
      Sets (tree.place (store.pathFor name)) seen tree (store.clearFile name tree).2 ∧
      (store.clearFile name tree).2.Houses directory := by
  have stays := Sets.refl tree (tree.place (store.pathFor name))
  unfold clearFile
  split
  · cases ran : removeFile (store.pathFor name) tree with
    | mk outcome after =>
      cases outcome with
      | error cause =>
        have same : after = tree := SameFiles.eq_of_quiet (attempt_error ran) houses.quiet
        exact ⟨_, .inr rfl, same.symm ▸ stays, same.symm ▸ houses⟩
      | ok value =>
        obtain ⟨left, quiet, went⟩ := attempt_ok ran
        rw [(sameFiles_withFault quiet).eq_of_quiet houses.quiet] at went
        obtain ⟨⟨content, found⟩, reaches, rfl⟩ := removeFile_steps went
        have behind : tree.place (store.pathFor name) ≠ [] := by
          obtain ⟨lead, last, _, isPlace, _⟩ := placeFrom_pathFor tree.workingDirectory store name
          rw [place, isPlace]
          exact List.append_ne_nil_of_right_ne_nil _ (List.cons_ne_nil _ _)
        have erased := sets_erase houses.tidy behind reaches found
        refine ⟨none, .inl rfl, erased, erased.houses houses ?_⟩
        exact fun isDirectory => absurd isDirectory (not_isDirectoryAt_of_fileAt found)
  · exact ⟨_, .inr rfl, stays, houses⟩

/-- Dropping an entry clears its shelf. -/
theorem invalidate_shelf (housed : state.IsHoused) (whole : '/' ∉ name.toList) :
    (invalidate name state).1.map (fun _ => ()) = (state.shelf name).clear.1 ∧
      (invalidate name state).2.shelf name = (state.shelf name).clear.2 ∧
      Touches (· = name) state (invalidate name state).2 := by
  obtain ⟨files, ran, sets, houses⟩ := clear_spot housed whole
  rw [invalidate_eq, ran]
  refine ⟨?_, ?_, sets_touches sets houses rfl fun other differs => lookup_erase_of_ne state.store differs⟩
  · rw [Shelf.clear]
    cases (clearFate (state.shelf name).refusal (state.shelf name).file).outcome <;> rfl
  · refine (sets_shelf sets (state.store.erase name) rfl).trans ?_
    rw [lookup_erase_self]
    rfl

/-- Publishing an artifact puts it on its shelf. -/
theorem publish_shelf (housed : state.IsHoused) (whole : '/' ∉ artifact.name.toList) :
    (publish artifact state).1 = ((state.shelf artifact.name).put artifact).1 ∧
      (publish artifact state).2.shelf artifact.name = ((state.shelf artifact.name).put artifact).2 ∧
      Touches (· = artifact.name) state (publish artifact state).2 := by
  obtain ⟨files, ran, sets, houses⟩ := store_spot housed whole artifact.toJson.compact.toUTF8
  have written : (do
      FileAction.createDirectories state.store.directory
      FileAction.replaceFile state.store.directory (state.store.pathFor artifact.name)
        artifact.toJson.compact.toUTF8 : FileAction Unit) state.workspace.files =
      ((storeFate artifact.toJson.compact.toUTF8 (state.shelf artifact.name).refusal
        (state.shelf artifact.name).file).outcome, files) := by
    rw [bind_of_ok (Houses.createDirectories_eq housed)]
    exact ran
  unfold publish
  rw [Action.bind_apply, Action.get_apply]
  dsimp only
  rw [Action.bind_apply, onFiles_of_eq state written, Shelf.put]
  cases outcome : (storeFate artifact.toJson.compact.toUTF8 (state.shelf artifact.name).refusal
      (state.shelf artifact.name).file).outcome with
  | ok value =>
    refine ⟨rfl, ?_, sets_touches sets houses rfl fun other differs => lookup_insert_of_ne state.store differs⟩
    refine (sets_shelf sets (state.store.insert artifact) rfl).trans ?_
    rw [lookup_insert_self]
  | error cause =>
    refine ⟨rfl, ?_, sets_touches sets houses rfl fun _ _ => rfl⟩
    refine (sets_shelf sets state.store rfl).trans ?_
    rw [storeFate_error outcome]
    rfl

end Store
end ContractBuild
