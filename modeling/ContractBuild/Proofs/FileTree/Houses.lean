import ContractBuild.Proofs.FileTree.Listing
import ContractBuild.Proofs.FileTree.Repeats

/-!
Files side by side in one directory that is there. What an operation on one of them comes to lies
with what stands at its place alone, and an operation on one of them leaves the others as they are.
-/
namespace ContractBuild.FileTree
open Text FileNode FileAction ContractBuild.Action

structure Houses (tree : FileTree) (directory : Path) : Prop where
  quiet : tree.faultAfter = none
  tidy : tree.root.Tidy
  inside : tree.IsInside
  there : tree.isDirectory directory = true

variable {tree other : FileTree} {directory : Path} {name : String}

/-- A name in a directory that is there leads to its place unless the name is too long. -/
theorem Houses.follow_join (houses : tree.Houses directory) (plain : Plain name) :
    follow tree.root (tree.start (directory.join ⟨name⟩)) (segments (directory.join ⟨name⟩)) =
      if name.utf8ByteSize > nameLimit then .error .nameTooLong
      else .ok (tree.place (directory.join ⟨name⟩)) := by
  obtain ⟨entries, _, _, located, found⟩ := node_eq_directory houses.there
  obtain ⟨nonempty, _, _, followed, _⟩ := locate_eq_ok.1 located
  obtain ⟨lead, split, namedLead, absolute⟩ := segments_join_plain nonempty plain
  have started : tree.start (directory.join ⟨name⟩) = tree.start directory := by
    rw [FileTree.start, FileTree.start, absolute]
  have created : Created tree (tree.start directory) lead := by
    rw [← created_filter, namedLead, ← Path.filter_segments, created_filter]
    exact created_of_follow_directory followed (isDirectoryAt_iff.2 ⟨entries, found⟩)
  obtain ⟨along, isThere⟩ := follow_of_created (houses.inside.start directory) created
  have settled : tree.place (directory.join ⟨name⟩) = settle (tree.start directory) lead ++ [name] := by
    rw [place, placeFrom, ← settle_segments, split, settle_append, settle_plain plain, absolute]
    rfl
  rw [started, split, follow_append, along, settled]
  exact follow_plain isThere plain

/-- What a directory that is there holds, and that looking at it changes nothing. -/
theorem Houses.listDirectory_eq (houses : tree.Houses directory) :
    ∃ names, listDirectory directory tree = (.ok names, tree) ∧ names.Pairwise (· < ·) ∧
      (∀ name ∈ names, Plain name) ∧ ∀ name, Plain name →
        (name ∈ names ↔ tree.root.sight (tree.place (directory.join ⟨name⟩)) ≠ none) := by
  obtain ⟨entries, location, listed, located, found⟩ := node_eq_directory houses.there
  refine ⟨entries.map (·.1), attempt_of_quiet houses.quiet (by rw [listed]; rfl), ?_⟩
  cases tidy_of_get? houses.tidy found with
  | directory ordered plain inner =>
    refine ⟨ordered, ?_, ?_⟩
    · intro name member
      obtain ⟨entry, inside, rfl⟩ := List.mem_map.1 member
      exact plain entry inside
    · intro name plainName
      have below : tree.root.get? (tree.place (directory.join ⟨name⟩)) = entryOf? name entries := by
        rw [place, placeFrom_join_plain _ _ plainName, ← place, ← (locate_ok located).1, get?_append found]
        exact Option.bind_fun_some _
      rw [sight, below, ne_eq, Option.map_eq_none_iff]
      constructor
      · intro member
        obtain ⟨entry, inside, rfl⟩ := List.mem_map.1 member
        simp [entryOf?_of_mem ordered inside]
      · intro there
        obtain ⟨node, entry⟩ := Option.ne_none_iff_exists'.1 there
        exact List.mem_map.2 ⟨_, mem_of_entryOf? entry, rfl⟩

theorem toList_join (plain : Plain name) :
    ∃ front, (directory.join ⟨name⟩).text.toList = front ++ name.toList := by
  unfold Path.join
  rw [Plain.isAbsolute_eq plain, if_neg Bool.false_ne_true]
  split
  · exact ⟨[], rfl⟩
  · exact ⟨directory.text.toList, String.toList_append ..⟩
  · exact ⟨directory.text.toList ++ ['/'], by simp [String.toList_append]⟩

def refusal? (directory : Path) (name : String) : Option FileError :=
  if (directory.join ⟨name⟩).text.toList.contains '\x00' then some .unusableName
  else if (directory.join ⟨name⟩).text.utf8ByteSize > pathLimit then some .nameTooLong
  else if name.utf8ByteSize > nameLimit then some .nameTooLong
  else none

theorem Houses.locate_join (houses : tree.Houses directory) (plain : Plain name) :
    tree.locate (directory.join ⟨name⟩) =
      match refusal? directory name with
      | some cause => .error cause
      | none => .ok ⟨tree.place (directory.join ⟨name⟩), false⟩ := by
  have joined : ∃ front, (directory.join ⟨name⟩).text.toList = front ++ name.toList := toList_join plain
  obtain ⟨front, text⟩ := joined
  have filled : (directory.join ⟨name⟩).text.toList.isEmpty = false := by
    simp [text, plain.nonempty]
  have open' : decide ((directory.join ⟨name⟩).text.toList.getLast? = some '/') = false := by
    rw [text, List.getLast?_append_of_ne_nil _ plain.nonempty, decide_eq_false_iff_not]
    exact fun isLast => plain.whole (List.mem_of_getLast? isLast)
  have followed := houses.follow_join plain
  by_cases null : '\x00' ∈ (directory.join ⟨name⟩).text.toList
  · simp [locate, refusal?, filled, null, bind, Except.bind, throw, throwThe, MonadExceptOf.throw]
  by_cases long : (directory.join ⟨name⟩).text.utf8ByteSize > pathLimit
  · simp [locate, refusal?, filled, null, long, bind, Except.bind, throw, throwThe, MonadExceptOf.throw]
  by_cases wide : name.utf8ByteSize > nameLimit
  · rw [if_pos wide] at followed
    simp [locate, refusal?, filled, null, long, wide, followed, bind, Except.bind]
  · rw [if_neg wide] at followed
    have admitted : refusal? directory name = none := by simp [refusal?, null, long, wide]
    rw [admitted]
    exact locate_eq_ok.2 ⟨List.isEmpty_eq_false_iff.1 filled, by simpa using null, long, followed, open'.symm⟩

/-! What becomes of a file -/

structure Sets (names : List String) (seen : Option (Option ByteArray)) (before after : FileTree) : Prop where
  workingDirectory : after.workingDirectory = before.workingDirectory
  quiet : before.faultAfter = none → after.faultAfter = none
  tidy : before.root.Tidy → after.root.Tidy
  sight : ∀ other, after.root.sight other = if other = names then seen else before.root.sight other

theorem Sets.refl (tree : FileTree) (names : List String) :
    Sets names (tree.root.sight names) tree tree := by
  refine ⟨rfl, id, id, fun other => ?_⟩
  split
  · next same => rw [same]
  · rfl

variable {before after : FileTree} {names : List String} {seen : Option (Option ByteArray)}

theorem Sets.directories (sets : Sets names seen before after)
    (kept : before.IsDirectoryAt names → seen = some none) {other : List String}
    (isDirectory : before.IsDirectoryAt other) : after.IsDirectoryAt other := by
  rw [IsDirectoryAt, sets.sight]
  split
  · next same => exact kept (same ▸ isDirectory)
  · exact isDirectory

/-- A directory houses files as long as no directory is replaced. -/
theorem Sets.houses (sets : Sets names seen before after) (houses : before.Houses directory)
    (kept : before.IsDirectoryAt names → seen = some none) : after.Houses directory := by
  refine ⟨sets.quiet houses.quiet, sets.tidy houses.tidy, ?_, ?_⟩
  · rw [IsInside, sets.workingDirectory]
    exact sets.directories kept houses.inside
  · obtain ⟨entries, location, _, located, found⟩ := node_eq_directory houses.there
    have locatedAfter := locate_mono sets.workingDirectory (fun _ => sets.directories kept) located
    obtain ⟨others, foundAfter⟩ := isDirectoryAt_iff.1
      (sets.directories kept (isDirectoryAt_iff.2 ⟨entries, found⟩))
    unfold FileTree.isDirectory node?
    rw [node_eq_ok.2 ⟨location, locatedAfter, foundAfter, fun _ => rfl⟩]
    rfl

structure Fate where
  outcome : Except FileError Unit
  seen : Option (Option ByteArray)

def clearFate (refusal : Option FileError) (seen : Option (Option ByteArray)) : Fate :=
  match refusal, seen with
  | none, some none => ⟨.error .isDirectory, seen⟩
  | none, some (some _) => ⟨.ok (), none⟩
  | _, _ => ⟨.ok (), seen⟩

def storeFate (content : ByteArray) (refusal : Option FileError) (seen : Option (Option ByteArray)) : Fate :=
  match refusal, seen with
  | some cause, _ => ⟨.error cause, seen⟩
  | none, some none => ⟨.error .isDirectory, seen⟩
  | none, _ => ⟨.ok (), some (some content)⟩

/-- A file that cannot be put in its place leaves what is there. -/
theorem storeFate_error {content : ByteArray} {refusal : Option FileError} {cause : FileError}
    (failed : (storeFate content refusal seen).outcome = .error cause) :
    (storeFate content refusal seen).seen = seen := by
  unfold storeFate at failed ⊢
  split at failed
  · rfl
  · rfl
  · cases failed

theorem Houses.node_join (houses : tree.Houses directory) (plain : Plain name) :
    tree.node (directory.join ⟨name⟩) =
      match refusal? directory name with
      | some cause => .error cause
      | none =>
        match tree.root.get? (tree.place (directory.join ⟨name⟩)) with
        | none => .error .notFound
        | some node => .ok node := by
  have located := houses.locate_join plain
  unfold node
  rw [located]
  cases refusal? directory name with
  | some cause => rfl
  | none =>
    cases found : tree.root.get? (tree.place (directory.join ⟨name⟩)) with
    | none => simp [found, bind, Except.bind, throw, throwThe, MonadExceptOf.throw]
    | some node => cases node <;> simp [found, bind, Except.bind, pure, Except.pure]

theorem sets_erase (tidy : tree.root.Tidy) {content : ByteArray} (nonempty : names ≠ [])
    (reaches : tree.root.Reaches names) (found : tree.fileAt names = some content) :
    Sets names none tree { tree with root := tree.root.erase names } := by
  refine ⟨rfl, id, fun tidy => tidy.erase names, fun other => ?_⟩
  split
  · next same =>
    rw [same]
    have gone := sight_erase_append tidy reaches nonempty []
    rwa [List.append_nil] at gone
  · next differs => exact sight_erase_file tidy reaches found differs

theorem sets_placed (usable : tree.Usable names) (free : ¬ tree.IsDirectoryAt names) (content : ByteArray) :
    Sets names (some (some content)) tree (placed tree names (.file content)) := by
  refine ⟨rfl, id, (confined_placed_file usable free content).tidy, fun other => ?_⟩
  exact sight_placed_file usable.reaches free content other

/-- Whether a file goes lies with what stands at its place. -/
theorem Houses.clear_join (houses : tree.Houses directory) (plain : Plain name) :
    ∃ after, (if tree.exists? (directory.join ⟨name⟩) then removeFile (directory.join ⟨name⟩) tree
        else (.ok (), tree)) =
      ((clearFate (refusal? directory name) (tree.root.sight (tree.place (directory.join ⟨name⟩)))).outcome,
        after) ∧
      Sets (tree.place (directory.join ⟨name⟩))
        (clearFate (refusal? directory name) (tree.root.sight (tree.place (directory.join ⟨name⟩)))).seen
        tree after ∧ after.Houses directory := by
  have there := houses.node_join plain
  have located := houses.locate_join plain
  have behind : tree.place (directory.join ⟨name⟩) ≠ [] := by
    rw [place, placeFrom_join_plain _ _ plain]
    exact List.append_ne_nil_of_right_ne_nil _ (List.cons_ne_nil _ _)
  have stays := Sets.refl tree (tree.place (directory.join ⟨name⟩))
  generalize tree.place (directory.join ⟨name⟩) = place at there located stays behind ⊢
  unfold removeFile
  rw [attempt_quiet _ houses.quiet]
  cases refusal : refusal? directory name with
  | some cause =>
    rw [refusal] at there
    exact ⟨tree, by simp [exists?, node?, there, Except.toOption, clearFate], stays, houses⟩
  | none =>
    rw [refusal] at there located
    simp only [sight] at stays ⊢
    cases found : tree.root.get? place with
    | none =>
      simp only [found] at there
      rw [found] at stays
      exact ⟨tree, by simp [exists?, node?, there, Except.toOption, clearFate], stays, houses⟩
    | some node =>
      simp only [found] at there
      rw [found] at stays
      cases node with
      | directory entries =>
        refine ⟨tree, ?_, stays, houses⟩
        simp [exists?, node?, there, located, Except.toOption, clearFate, bind, Except.bind, throw,
          throwThe, MonadExceptOf.throw]
      | file content =>
        have isFile : tree.fileAt place = some content := fileAt_eq_some.2 found
        have erased := sets_erase houses.tidy behind (locate_ok located).2.reaches isFile
        refine ⟨{ tree with root := tree.root.erase place }, ?_, erased, erased.houses houses ?_⟩
        · simp [exists?, node?, there, located, Except.toOption, clearFate, bind, Except.bind, pure, Except.pure]
        · exact fun isDirectory => absurd isDirectory (not_isDirectoryAt_of_fileAt isFile)

theorem Houses.createDirectories_eq (houses : tree.Houses directory) :
    createDirectories directory tree = (.ok (), tree) := by
  obtain ⟨entries, location, _, located, found⟩ := node_eq_directory houses.there
  obtain ⟨_, null, short, followed, _⟩ := locate_eq_ok.1 located
  rw [FileAction.createDirectories_eq, null, if_neg Bool.false_ne_true, if_neg short]
  exact createAlong_of_created houses.quiet
    (created_of_follow_directory followed (isDirectoryAt_iff.2 ⟨entries, found⟩))

/-- Whether a file is put in its place lies with what stands there. -/
theorem Houses.store_join (houses : tree.Houses directory) (plain : Plain name) (content : ByteArray) :
    ∃ after, replaceFile directory (directory.join ⟨name⟩) content tree =
      ((storeFate content (refusal? directory name)
        (tree.root.sight (tree.place (directory.join ⟨name⟩)))).outcome, after) ∧
      Sets (tree.place (directory.join ⟨name⟩)) (storeFate content (refusal? directory name)
        (tree.root.sight (tree.place (directory.join ⟨name⟩)))).seen tree after ∧
      after.Houses directory := by
  have located := houses.locate_join plain
  obtain ⟨others, _, inDirectory, _⟩ := node_eq_directory houses.there
  have stays := Sets.refl tree (tree.place (directory.join ⟨name⟩))
  generalize tree.place (directory.join ⟨name⟩) = place at located stays ⊢
  unfold replaceFile
  rw [attempt_quiet _ houses.quiet]
  have opened : ∀ next : Except FileError (Unit × FileTree), (do
      if !directory.text.isEmpty then
        if !(← tree.node directory).isDirectory then throw .notDirectory
      next : Except FileError (Unit × FileTree)) = next := by
    intro next
    cases directory.text.isEmpty <;>
      simp [inDirectory, FileNode.isDirectory, bind, Except.bind]
  rw [opened]
  unfold storeAt
  cases refusal : refusal? directory name with
  | some cause =>
    rw [refusal] at located
    exact ⟨tree, by simp [located, storeFate, bind, Except.bind], stays, houses⟩
  | none =>
    rw [refusal] at located
    have usable : tree.Usable place := (locate_ok located).2
    simp only [sight] at stays ⊢
    cases found : tree.root.get? place with
    | none =>
      have free : ¬ tree.IsDirectoryAt place := by simp [isDirectoryAt_iff, found]
      have placed := sets_placed usable free content
      refine ⟨FileAction.placed tree place (.file content), ?_, placed, placed.houses houses ?_⟩
      · simp [located, found, storeFate, bind, Except.bind, pure, Except.pure]
      · exact fun there => absurd there free
    | some node =>
      rw [found] at stays
      cases node with
      | directory entries =>
        refine ⟨tree, ?_, stays, houses⟩
        simp [located, found, storeFate, bind, Except.bind, throw, throwThe, MonadExceptOf.throw]
      | file old =>
        have free : ¬ tree.IsDirectoryAt place := by simp [isDirectoryAt_iff, found]
        have placed := sets_placed usable free content
        refine ⟨FileAction.placed tree place (.file content), ?_, placed, placed.houses houses ?_⟩
        · simp [located, found, storeFate, bind, Except.bind, pure, Except.pure]
        · exact fun there => absurd there free

end ContractBuild.FileTree
