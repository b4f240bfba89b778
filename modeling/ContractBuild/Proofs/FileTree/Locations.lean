import Mathlib.Data.List.TakeWhile
import Mathlib.Data.List.Induction
import ContractBuild.Proofs.Action
import ContractBuild.Proofs.FileTree.Places
import ContractBuild.FileTree.Action

/-!
Following paths. A path that can be followed leads to its place, and it can still be followed when
directories are added. What an action changes is confined to some places: every other file stays as
it is, and no directory goes away.
-/
namespace ContractBuild.FileTree
open Text FileNode

def fileAt (tree : FileTree) (names : List String) : Option ByteArray :=
  (tree.root.sight names).join

def IsDirectoryAt (tree : FileTree) (names : List String) : Prop :=
  tree.root.sight names = some none

theorem fileAt_eq_some {tree : FileTree} {names : List String} {content : ByteArray} :
    tree.fileAt names = some content ↔ tree.root.get? names = some (.file content) := by
  rw [fileAt, sight]
  cases tree.root.get? names with
  | none => simp
  | some node => cases node <;> simp

theorem isDirectoryAt_iff {tree : FileTree} {names : List String} :
    tree.IsDirectoryAt names ↔ ∃ entries, tree.root.get? names = some (.directory entries) := by
  rw [IsDirectoryAt, sight]
  cases tree.root.get? names with
  | none => simp
  | some node => cases node <;> simp

/-- Directories lead to a directory. -/
theorem IsDirectoryAt.dropLast {tree : FileTree} {names : List String}
    (isDirectory : tree.IsDirectoryAt names) : tree.IsDirectoryAt names.dropLast := by
  cases names using List.reverseRecOn with
  | nil => exact isDirectory
  | append_singleton lead last =>
    rw [List.dropLast_concat]
    refine sight_of_append (List.cons_ne_nil last []) ?_
    rw [isDirectory]
    exact Option.some_ne_none _

theorem IsDirectoryAt.reaches {tree : FileTree} {names : List String}
    (isDirectory : tree.IsDirectoryAt names) : tree.root.Reaches names :=
  .inr isDirectory.dropLast

theorem IsDirectoryAt.reaches_append {tree : FileTree} {names : List String}
    (isDirectory : tree.IsDirectoryAt names) (name : String) :
    tree.root.Reaches (names ++ [name]) := by
  refine .inr ?_
  rw [List.dropLast_concat]
  exact isDirectory

/-! Following segments -/

theorem follow_cons_ok {root : FileNode} {current names : List String} {segment : List Char}
    {segments : List (List Char)} (followed : follow root current (segment :: segments) = .ok names) :
    root.sight current = some none ∧
      (if segment.isEmpty || segment = ['.'] then follow root current segments
        else if segment = ['.', '.'] then follow root current.dropLast segments
        else if (String.ofList segment).utf8ByteSize > nameLimit then .error .nameTooLong
        else follow root (current ++ [String.ofList segment]) segments) = .ok names := by
  rw [follow] at followed
  cases found : root.get? current with
  | none => rw [found] at followed; cases followed
  | some node =>
    cases node with
    | file content => rw [found] at followed; cases followed
    | directory entries =>
      rw [found] at followed
      exact ⟨by rw [sight, found]; rfl, followed⟩

structure Usable (tree : FileTree) (names : List String) : Prop where
  reaches : tree.root.Reaches names
  ends : tree.IsDirectoryAt names ∨ EndsPlain names

theorem IsDirectoryAt.usable {tree : FileTree} {names : List String}
    (isDirectory : tree.IsDirectoryAt names) : tree.Usable names :=
  ⟨isDirectory.reaches, .inl isDirectory⟩

/-- Segments that can be followed lead where they settle, by way of directories. -/
theorem follow_ok {tree : FileTree} {current names : List String} {segments : List (List Char)}
    (whole : ∀ segment ∈ segments, '/' ∉ segment)
    (followed : follow tree.root current segments = .ok names)
    (start : segments = [] → tree.Usable current) :
    names = settle current segments ∧ tree.Usable names := by
  induction segments generalizing current with
  | nil =>
    cases followed
    exact ⟨rfl, start rfl⟩
  | cons segment segments ih =>
    obtain ⟨isDirectory, rest⟩ := follow_cons_ok followed
    have here : tree.IsDirectoryAt current := isDirectory
    have wholeRest : ∀ segment ∈ segments, '/' ∉ segment :=
      fun other member => whole other (List.mem_cons_of_mem _ member)
    rw [settle]
    split at rest
    · next idle =>
      rw [if_pos idle]
      exact ih wholeRest rest fun _ => here.usable
    · next named =>
      rw [if_neg named]
      split at rest
      · next up =>
        rw [if_pos up]
        exact ih wholeRest rest fun _ => here.dropLast.usable
      · next down =>
        rw [if_neg down]
        split at rest
        · cases rest
        · have plain : Plain (String.ofList segment) :=
            plain_of_segment (whole segment List.mem_cons_self) (Bool.eq_false_iff.2 named) down
          exact ih wholeRest rest
            fun _ => ⟨here.reaches_append _, .inr (endsPlain_append plain current)⟩

theorem follow_mono {before after : FileTree}
    (directories : ∀ names, before.IsDirectoryAt names → after.IsDirectoryAt names)
    {current names : List String} {segments : List (List Char)}
    (followed : follow before.root current segments = .ok names) :
    follow after.root current segments = .ok names := by
  induction segments generalizing current with
  | nil => exact followed
  | cons segment segments ih =>
    obtain ⟨isDirectory, rest⟩ := follow_cons_ok followed
    obtain ⟨entries, found⟩ := isDirectoryAt_iff.1 (directories current isDirectory)
    rw [follow, found]
    dsimp only
    split at rest
    · next idle =>
      rw [if_pos idle]
      exact ih rest
    · next named =>
      rw [if_neg named]
      split at rest
      · next up =>
        rw [if_pos up]
        exact ih rest
      · next down =>
        rw [if_neg down]
        split at rest
        · cases rest
        · next fits =>
          rw [if_neg fits]
          exact ih rest

theorem segments_ne_nil {path : Path} (nonempty : path.text.toList ≠ [])
    (relative : path.isAbsolute = false) : segments path ≠ [] := by
  obtain ⟨c, chars, text⟩ := List.exists_cons_of_ne_nil nonempty
  have notSlash : c ≠ '/' := by
    rintro rfl
    simp [Path.isAbsolute, text] at relative
  intro none
  have idle : ∀ piece ∈ splitOn '/' path.text.toList, piece.isEmpty = true := by
    intro piece member
    have dropped : (splitOn '/' path.text.toList).reverse.dropWhile List.isEmpty = [] := by
      simpa [segments] using none
    exact List.dropWhile_eq_nil_iff.1 dropped piece (List.mem_reverse.2 member)
  rw [text, splitOn, if_neg notSlash] at idle
  cases pieces : splitOn '/' chars with
  | nil => exact absurd pieces (splitOn_ne_nil '/' chars)
  | cons piece rest =>
    rw [pieces] at idle
    exact absurd (idle (c :: piece) List.mem_cons_self) (by simp)

theorem locate_eq_ok {tree : FileTree} {path : Path} {location : Location} :
    tree.locate path = .ok location ↔
      path.text.toList ≠ [] ∧ path.text.toList.contains '\x00' = false ∧
      ¬ path.text.utf8ByteSize > pathLimit ∧
      follow tree.root (tree.start path) (segments path) = .ok location.names ∧
      location.asDirectory = decide (path.text.toList.getLast? = some '/') := by
  unfold locate
  by_cases empty : path.text.toList = []
  · simp [empty, bind, Except.bind, throw, throwThe, MonadExceptOf.throw]
  by_cases null : '\x00' ∈ path.text.toList
  · simp [empty, null, bind, Except.bind, throw, throwThe, MonadExceptOf.throw]
  by_cases long : path.text.utf8ByteSize > pathLimit
  · simp [empty, null, long, bind, Except.bind, throw, throwThe, MonadExceptOf.throw]
  cases followed : follow tree.root (tree.start path) (segments path) with
  | error cause =>
    simp [empty, null, long, bind, Except.bind]
  | ok names =>
    obtain ⟨there, asDirectory⟩ := location
    simp [empty, null, long, bind, Except.bind, pure, Except.pure]
    exact fun _ => eq_comm

theorem not_mem_of_mem_segments {path : Path} {segment : List Char}
    (member : segment ∈ segments path) : '/' ∉ segment := by
  have inside := (List.dropWhile_sublist _).subset (List.mem_reverse.1 member)
  exact not_mem_of_mem_splitOn (List.mem_reverse.1 inside)

/-- A path that can be followed leads to its place. -/
theorem locate_ok {tree : FileTree} {path : Path} {location : Location}
    (located : tree.locate path = .ok location) :
    location.names = tree.place path ∧ tree.Usable location.names := by
  obtain ⟨nonempty, _, _, followed, _⟩ := locate_eq_ok.1 located
  have start : segments path = [] → tree.Usable (tree.start path) := by
    intro none
    cases absolute : path.isAbsolute with
    | false => exact absurd none (segments_ne_nil nonempty absolute)
    | true =>
      rw [FileTree.start, absolute]
      exact ⟨.inl rfl, .inr nofun⟩
  obtain ⟨names, usable⟩ := follow_ok (fun _ => not_mem_of_mem_segments) followed start
  exact ⟨names.trans (settle_segments _ path), usable⟩

theorem locate_mono {before after : FileTree}
    (same : after.workingDirectory = before.workingDirectory)
    (directories : ∀ names, before.IsDirectoryAt names → after.IsDirectoryAt names)
    {path : Path} {location : Location} (located : before.locate path = .ok location) :
    after.locate path = .ok location := by
  obtain ⟨nonempty, null, long, followed, asDirectory⟩ := locate_eq_ok.1 located
  refine locate_eq_ok.2 ⟨nonempty, null, long, ?_, asDirectory⟩
  have started : after.start path = before.start path := by
    rw [FileTree.start, FileTree.start, same]
  rw [started]
  exact follow_mono directories followed

theorem node_eq_ok {tree : FileTree} {path : Path} {node : FileNode} :
    tree.node path = .ok node ↔ ∃ location, tree.locate path = .ok location ∧
      tree.root.get? location.names = some node ∧
      (location.asDirectory = true → node.isDirectory = true) := by
  unfold FileTree.node
  cases located : tree.locate path with
  | error cause => simp [bind, Except.bind]
  | ok location =>
    cases found : tree.root.get? location.names with
    | none => simp [found, bind, Except.bind, throw, throwThe, MonadExceptOf.throw]
    | some there =>
      cases there with
      | directory entries =>
        simp [found, bind, Except.bind, pure, Except.pure]
        rintro rfl _
        rfl
      | file content =>
        cases asDirectory : location.asDirectory with
        | true =>
          simp [found, asDirectory, bind, Except.bind, throw, throwThe, MonadExceptOf.throw]
          rintro rfl
          rfl
        | false => simp [found, asDirectory, bind, Except.bind, pure, Except.pure]

end ContractBuild.FileTree
