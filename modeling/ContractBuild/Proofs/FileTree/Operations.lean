import ContractBuild.Proofs.FileTree.Confined

/-!
The operations on files one by one: what they leave unchanged, what is true when one went well, and
when one does go well.
-/
namespace ContractBuild
open FileTree

namespace FileAction
open ContractBuild.Action

variable {α β : Type}

abbrev Reads {ε : Type} (action : ExceptT ε (StateM FileTree) α) : Prop :=
  Keeps SameFiles action

theorem Reads.bind {ε : Type} {action : ExceptT ε (StateM FileTree) α}
    {next : α → ExceptT ε (StateM FileTree) β} (first : Reads action)
    (second : ∀ value, Reads (next value)) : Reads (action >>= next) :=
  Keeps.bind (fun earlier later => earlier.trans later) first second

theorem Reads.pure {ε : Type} (value : α) :
    Reads (Pure.pure value : ExceptT ε (StateM FileTree) α) :=
  Keeps.pure SameFiles.refl value

theorem Reads.throw {ε : Type} (cause : ε) :
    Reads (MonadExcept.throw cause : ExceptT ε (StateM FileTree) α) :=
  Keeps.throw SameFiles.refl cause

theorem Reads.get {ε : Type} : Reads (MonadState.get : ExceptT ε (StateM FileTree) FileTree) :=
  fun tree => .refl tree

/-! One operation -/

abbrev Confines {ε : Type} (workingDirectory : List String) (scope : List String → Prop)
    (action : ExceptT ε (StateM FileTree) α) : Prop :=
  Keeps (ConfinedFrom workingDirectory scope) action

theorem Confines.bind {ε : Type} {workingDirectory : List String} {scope : List String → Prop}
    {action : ExceptT ε (StateM FileTree) α} {next : α → ExceptT ε (StateM FileTree) β}
    (first : Confines workingDirectory scope action)
    (second : ∀ value, Confines workingDirectory scope (next value)) :
    Confines workingDirectory scope (action >>= next) :=
  Keeps.bind (fun earlier later => earlier.trans later) first second

theorem Confines.pure {ε : Type} {workingDirectory : List String} {scope : List String → Prop}
    (value : α) :
    Confines workingDirectory scope (Pure.pure value : ExceptT ε (StateM FileTree) α) :=
  Keeps.pure ConfinedFrom.refl value

def withFault (tree : FileTree) (left : Option Nat) : FileTree :=
  { tree with faultAfter := left }

theorem sameFiles_withFault {tree : FileTree} {left : Option Nat}
    (quiet : tree.faultAfter = none → left = none) : tree.SameFiles (withFault tree left) :=
  ⟨rfl, rfl, quiet⟩

/-- An operation runs, or is disrupted before it begins. -/
theorem attempt_cases (operation : FileTree → Except FileError (α × FileTree)) (tree : FileTree) :
    ∃ left, (tree.faultAfter = none → left = none) ∧
      ((∃ cause, attempt operation tree = (.error cause, withFault tree left)) ∨
      ∃ value after, operation (withFault tree left) = .ok (value, after) ∧
        attempt operation tree = (.ok value, after)) := by
  obtain ⟨root, workingDirectory, faultAfter⟩ := tree
  have runs : ∀ left, faultAfter ≠ some 0 → faultAfter.map (· - 1) = left →
      (∃ cause, attempt operation ⟨root, workingDirectory, faultAfter⟩ =
        (.error cause, ⟨root, workingDirectory, left⟩)) ∨
      ∃ value after, operation ⟨root, workingDirectory, left⟩ = .ok (value, after) ∧
        attempt operation ⟨root, workingDirectory, faultAfter⟩ = (.ok value, after) := by
    intro left goesOn isLeft
    unfold attempt
    split
    · next stops => exact absurd stops goesOn
    · dsimp only
      rw [isLeft]
      cases operation ⟨root, workingDirectory, left⟩ with
      | error cause => exact .inl ⟨cause, rfl⟩
      | ok result => exact .inr ⟨result.1, result.2, rfl, rfl⟩
  rcases faultAfter with _ | _ | count
  · exact ⟨none, fun _ => rfl, runs none (Option.some_ne_none 0).symm rfl⟩
  · exact ⟨none, fun _ => rfl, .inl ⟨.disrupted, rfl⟩⟩
  · exact ⟨some count, fun quiet => absurd quiet (Option.some_ne_none _),
      runs (some count) (fun same => absurd (Option.some.inj same) (Nat.succ_ne_zero count)) rfl⟩

theorem attempt_of_quiet {operation : FileTree → Except FileError (α × FileTree)} {tree : FileTree}
    (quiet : tree.faultAfter = none) {value : α} {after : FileTree}
    (ran : operation tree = .ok (value, after)) :
    attempt operation tree = (.ok value, after) := by
  obtain ⟨root, workingDirectory, faultAfter⟩ := tree
  subst quiet
  unfold attempt
  dsimp only [Option.map_none]
  rw [ran]

/-- Without a fault an operation does what it does. -/
theorem attempt_quiet (operation : FileTree → Except FileError (α × FileTree)) {tree : FileTree}
    (quiet : tree.faultAfter = none) :
    attempt operation tree =
      match operation tree with
      | .ok (value, after) => (.ok value, after)
      | .error cause => (.error cause, tree) := by
  unfold attempt
  obtain ⟨root, workingDirectory, faultAfter⟩ := tree
  subst quiet
  rfl

theorem attempt_ok {operation : FileTree → Except FileError (α × FileTree)} {tree after : FileTree}
    {value : α} (ran : attempt operation tree = (.ok value, after)) :
    ∃ left, (tree.faultAfter = none → left = none) ∧
      operation (withFault tree left) = .ok (value, after) := by
  obtain ⟨left, quiet, ⟨cause, failed⟩ | ⟨other, last, went, same⟩⟩ := attempt_cases operation tree
  · rw [failed] at ran
    cases ran
  · rw [same] at ran
    cases ran
    exact ⟨left, quiet, went⟩

/-- An operation that fails leaves all as it was. -/
theorem attempt_error {operation : FileTree → Except FileError (α × FileTree)}
    {tree after : FileTree} {cause : FileError}
    (ran : attempt operation tree = (.error cause, after)) : tree.SameFiles after := by
  obtain ⟨left, quiet, ⟨other, failed⟩ | ⟨value, last, _, went⟩⟩ := attempt_cases operation tree
  · rw [ran] at failed
    cases failed
    exact sameFiles_withFault quiet
  · rw [ran] at went
    cases went

theorem reads_attempt {operation : FileTree → Except FileError (α × FileTree)}
    (steps : ∀ tree value after, operation tree = .ok (value, after) → after = tree) :
    Reads (attempt operation) := by
  intro tree
  obtain ⟨left, quiet, ⟨cause, failed⟩ | ⟨value, after, went, same⟩⟩ := attempt_cases operation tree
  · rw [failed]
    exact sameFiles_withFault quiet
  · rw [same, steps _ _ _ went]
    exact sameFiles_withFault quiet

theorem confined_attempt {scope : List String → Prop}
    {operation : FileTree → Except FileError (α × FileTree)} {tree : FileTree}
    (steps : ∀ left value after, operation (withFault tree left) = .ok (value, after) →
      Confined scope (withFault tree left) after) :
    Confined scope tree (attempt operation tree).2 := by
  obtain ⟨left, quiet, ⟨cause, failed⟩ | ⟨value, after, went, same⟩⟩ := attempt_cases operation tree
  · rw [failed]
    exact (sameFiles_withFault quiet).confined
  · rw [same]
    exact (sameFiles_withFault quiet).confined.trans (steps left value after went)

/-! Reading -/

theorem reads_readBytes (path : Path) : Reads (readBytes path) := by
  refine reads_attempt fun tree content after ran => ?_
  cases found : tree.node path with
  | error cause => rw [found] at ran; cases ran
  | ok node =>
    rw [found] at ran
    cases node with
    | directory entries => cases ran
    | file content => cases ran; rfl

theorem readBytes_ok {path : Path} {tree after : FileTree} {content : ByteArray}
    (ran : readBytes path tree = (.ok content, after)) :
    ∃ location, tree.locate path = .ok location ∧ location.asDirectory = false ∧
      tree.fileAt (tree.place path) = some content := by
  obtain ⟨left, _, went⟩ := attempt_ok ran
  have same : tree.node path = (withFault tree left).node path := rfl
  rw [← same] at went
  cases found : tree.node path with
  | error cause => rw [found] at went; cases went
  | ok node =>
    rw [found] at went
    cases node with
    | directory entries => cases went
    | file there =>
      cases went
      obtain ⟨location, located, there, asDirectory⟩ := node_eq_ok.1 found
      refine ⟨location, located, ?_, ?_⟩
      · cases isSet : location.asDirectory with
        | false => rfl
        | true => exact absurd (asDirectory isSet) (by simp [FileNode.isDirectory])
      · rw [← (locate_ok located).1, fileAt_eq_some]
        exact there

theorem readBytes_of_fileAt {path : Path} {tree : FileTree} (quiet : tree.faultAfter = none)
    {location : Location} (located : tree.locate path = .ok location)
    (asFile : location.asDirectory = false) {content : ByteArray}
    (there : tree.fileAt (tree.place path) = some content) :
    readBytes path tree = (.ok content, tree) := by
  refine attempt_of_quiet quiet ?_
  rw [← (locate_ok located).1, fileAt_eq_some] at there
  have found : tree.node path = .ok (.file content) :=
    node_eq_ok.2 ⟨location, located, there, by simp [asFile]⟩
  rw [found]
  rfl

theorem reads_readText (path : Path) : Reads (readText path) := by
  refine (reads_readBytes path).bind fun bytes => ?_
  cases String.fromUTF8? bytes with
  | none => exact .throw _
  | some text => exact .pure text

theorem reads_listDirectory (path : Path) : Reads (listDirectory path) := by
  refine reads_attempt fun tree names after ran => ?_
  cases found : tree.node path with
  | error cause => rw [found] at ran; cases ran
  | ok node =>
    rw [found] at ran
    cases node with
    | directory entries => cases ran; rfl
    | file content => cases ran

theorem reads_filesBelow (path : Path) : Reads (FileAction.filesBelow path) := by
  refine reads_attempt fun tree paths after ran => ?_
  cases found : tree.filesBelow path with
  | error cause => rw [found] at ran; cases ran
  | ok found => rw [found] at ran; cases ran; rfl

/-! Creating directories -/

theorem ensureDirectory_confined {scope : List String → Prop} {names : List String}
    (plain : FileNode.EndsPlain names) (tree : FileTree) : Confined scope tree (ensureDirectory names tree).2 := by
  refine confined_attempt fun left value after ran => ?_
  cases found : (withFault tree left).root.get? names with
  | none =>
    rw [found] at ran
    cases ran
    exact confined_placed_directory found plain
  | some node =>
    rw [found] at ran
    cases node with
    | directory entries => cases ran; exact .refl _
    | file content => cases ran

theorem ensureDirectory_ok {names : List String} {tree after : FileTree}
    (ran : ensureDirectory names tree = (.ok (), after)) (reaches : tree.root.Reaches names) :
    after.IsDirectoryAt names := by
  obtain ⟨left, _, went⟩ := attempt_ok ran
  cases found : (withFault tree left).root.get? names with
  | none =>
    rw [found] at went
    cases went
    exact isDirectoryAt_placed reaches
  | some node =>
    rw [found] at went
    cases node with
    | directory entries => cases went; exact isDirectoryAt_iff.2 ⟨entries, found⟩
    | file content => cases went

theorem ensureDirectory_of_isDirectoryAt {names : List String} {tree : FileTree}
    (quiet : tree.faultAfter = none) (isDirectory : tree.IsDirectoryAt names) :
    ensureDirectory names tree = (.ok (), tree) := by
  refine attempt_of_quiet quiet ?_
  obtain ⟨entries, found⟩ := isDirectoryAt_iff.1 isDirectory
  rw [found]
  rfl

theorem createAlong_confined {scope : List String → Prop} (current : List String)
    {segments : List (List Char)} (whole : ∀ segment ∈ segments, '/' ∉ segment) (tree : FileTree) :
    Confined scope tree (createAlong current segments tree).2 := by
  induction segments generalizing current tree with
  | nil => exact .refl tree
  | cons segment segments ih =>
    have wholeRest : ∀ segment ∈ segments, '/' ∉ segment :=
      fun other member => whole other (List.mem_cons_of_mem _ member)
    rw [createAlong]
    split
    · exact ih current wholeRest tree
    · next named =>
      split
      · exact ih current.dropLast wholeRest tree
      · next down =>
        split
        · exact .refl tree
        · have plain : FileNode.Plain (String.ofList segment) :=
            plain_of_segment (whole segment List.mem_cons_self) (Bool.eq_false_iff.2 named) down
          have first : Confined scope tree
              (ensureDirectory (current ++ [String.ofList segment]) tree).2 :=
            ensureDirectory_confined (FileNode.endsPlain_append plain current) tree
          rw [bind_apply]
          revert first
          rcases ensureDirectory (current ++ [String.ofList segment]) tree with
            ⟨cause | value, after⟩
          · exact id
          · exact fun first => first.trans (ih _ wholeRest after)

theorem createDirectories_eq (path : Path) (tree : FileTree) :
    createDirectories path tree =
      if path.text.toList.contains '\x00' then (.error .unusableName, tree)
      else if path.text.utf8ByteSize > pathLimit then (.error .nameTooLong, tree)
      else createAlong (tree.start path) (segments path) tree := by
  unfold createDirectories
  split
  · rfl
  · split <;> rfl

theorem createDirectories_confined {scope : List String → Prop} (path : Path) (tree : FileTree) :
    Confined scope tree (createDirectories path tree).2 := by
  rw [createDirectories_eq]
  split
  · exact .refl tree
  · split
    · exact .refl tree
    · exact createAlong_confined _ (fun _ => not_mem_of_mem_segments) tree

def Created (tree : FileTree) : List String → List (List Char) → Prop
  | _, [] => True
  | current, segment :: segments =>
    if isIdle segment then Created tree current segments
    else if segment = ['.', '.'] then Created tree current.dropLast segments
    else ¬ (String.ofList segment).utf8ByteSize > nameLimit ∧
      tree.IsDirectoryAt (current ++ [String.ofList segment]) ∧
      Created tree (current ++ [String.ofList segment]) segments

theorem Created.mono {before after : FileTree}
    (directories : ∀ names, before.IsDirectoryAt names → after.IsDirectoryAt names)
    {current : List String} {segments : List (List Char)}
    (created : Created before current segments) : Created after current segments := by
  induction segments generalizing current with
  | nil => trivial
  | cons segment segments ih =>
    rw [Created] at created ⊢
    split at created
    · next idle =>
      rw [if_pos idle]
      exact ih created
    · next named =>
      rw [if_neg named]
      split at created
      · next up =>
        rw [if_pos up]
        exact ih created
      · next down =>
        rw [if_neg down]
        exact ⟨created.1, directories _ created.2.1, ih created.2.2⟩

/-- Segments that lead nowhere can be left out. -/
theorem created_filter {tree : FileTree} {current : List String} {segments : List (List Char)} :
    Created tree current (segments.filter (!isIdle ·)) ↔ Created tree current segments := by
  induction segments generalizing current with
  | nil => exact Iff.rfl
  | cons segment segments ih =>
    by_cases idle : isIdle segment = true
    · rw [List.filter_cons_of_neg (by simp [idle]), Created, if_pos idle]
      exact ih
    · rw [List.filter_cons_of_pos (by simp [idle]), Created, Created, if_neg idle, if_neg idle]
      split
      · exact ih
      · rw [ih]

theorem createAlong_ok {current : List String} {segments : List (List Char)}
    (whole : ∀ segment ∈ segments, '/' ∉ segment) {tree after : FileTree} (ran : createAlong current segments tree = (.ok (), after))
    (isDirectory : tree.IsDirectoryAt current) : Created after current segments := by
  induction segments generalizing current tree with
  | nil => trivial
  | cons segment segments ih =>
    have wholeRest : ∀ segment ∈ segments, '/' ∉ segment :=
      fun other member => whole other (List.mem_cons_of_mem _ member)
    rw [createAlong] at ran
    rw [Created]
    split at ran
    · next idle =>
      rw [if_pos (show isIdle segment = true from idle)]
      exact ih wholeRest ran isDirectory
    · next named =>
      rw [if_neg (show ¬ isIdle segment = true from named)]
      split at ran
      · next up =>
        rw [if_pos up]
        exact ih wholeRest ran isDirectory.dropLast
      · next down =>
        rw [if_neg down]
        split at ran
        · cases ran
        · next fits =>
          obtain ⟨value, middle, ensured, rest⟩ := bind_eq_ok ran
          have made := ensureDirectory_ok ensured (isDirectory.reaches_append _)
          have confined : Confined (fun _ => False) middle
              (createAlong (current ++ [String.ofList segment]) segments middle).2 :=
            createAlong_confined _ wholeRest middle
          rw [rest] at confined
          exact ⟨fits, confined.directories _ made, ih wholeRest rest made⟩

theorem createAlong_of_created {current : List String} {segments : List (List Char)}
    {tree : FileTree} (quiet : tree.faultAfter = none) (created : Created tree current segments) :
    createAlong current segments tree = (.ok (), tree) := by
  induction segments generalizing current with
  | nil => rfl
  | cons segment segments ih =>
    rw [createAlong]
    rw [Created] at created
    split at created
    · next idle =>
      rw [if_pos (show (segment.isEmpty || decide (segment = ['.'])) = true from idle)]
      exact ih created
    · next named =>
      rw [if_neg (show ¬ (segment.isEmpty || decide (segment = ['.'])) = true from named)]
      split at created
      · next up =>
        rw [if_pos up]
        exact ih created
      · next down =>
        rw [if_neg down, if_neg created.1,
          bind_of_ok (ensureDirectory_of_isDirectoryAt quiet created.2.1)]
        exact ih created.2.2

/-- Directories that are there can be followed. -/
theorem follow_of_created {tree : FileTree} {current : List String} {segments : List (List Char)}
    (isDirectory : tree.IsDirectoryAt current) (created : Created tree current segments) :
    follow tree.root current segments = .ok (settle current segments) ∧
      tree.IsDirectoryAt (settle current segments) := by
  induction segments generalizing current with
  | nil => exact ⟨rfl, isDirectory⟩
  | cons segment segments ih =>
    obtain ⟨entries, found⟩ := isDirectoryAt_iff.1 isDirectory
    rw [follow, found, settle]
    dsimp only
    rw [Created] at created
    split at created
    · next idle =>
      rw [if_pos (show (segment.isEmpty || decide (segment = ['.'])) = true from idle),
        if_pos (show (segment.isEmpty || decide (segment = ['.'])) = true from idle)]
      exact ih isDirectory created
    · next named =>
      rw [if_neg (show ¬ (segment.isEmpty || decide (segment = ['.'])) = true from named),
        if_neg (show ¬ (segment.isEmpty || decide (segment = ['.'])) = true from named)]
      split at created
      · next up =>
        rw [if_pos up, if_pos up]
        exact ih isDirectory.dropLast created
      · next down =>
        rw [if_neg down, if_neg down, if_neg created.1]
        exact ih created.2.1 created.2.2

/-- A path that can be followed has the directories in front of its last name. -/
theorem created_of_follow {tree : FileTree} {current names : List String}
    {segments lead : List (List Char)} {last : List Char}
    (followed : follow tree.root current segments = .ok names)
    (split : segments.filter (!isIdle ·) = lead ++ [last]) : Created tree current lead := by
  induction segments generalizing current lead with
  | nil => simp at split
  | cons segment segments ih =>
    obtain ⟨_, rest⟩ := follow_cons_ok followed
    by_cases idle : isIdle segment = true
    · rw [List.filter_cons_of_neg (by simp [idle])] at split
      rw [if_pos (show (segment.isEmpty || decide (segment = ['.'])) = true from idle)] at rest
      exact ih rest split
    · rw [List.filter_cons_of_pos (by simp [idle])] at split
      rw [if_neg (show ¬ (segment.isEmpty || decide (segment = ['.'])) = true from idle)] at rest
      cases lead with
      | nil => trivial
      | cons first lead =>
        obtain ⟨rfl, inner⟩ := List.cons.inj split
        rw [Created, if_neg idle]
        by_cases up : segment = ['.', '.']
        · rw [if_pos up] at rest ⊢
          exact ih rest inner
        · rw [if_neg up] at rest ⊢
          split at rest
          · cases rest
          · next fits =>
            refine ⟨fits, ?_, ih rest inner⟩
            cases segments with
            | nil => simp at inner
            | cons next others => exact (follow_cons_ok rest).1

/-! Writing and removing files -/

theorem storeAt_ok {tree after : FileTree} {path : Path} {content : ByteArray}
    (ran : storeAt tree path content = .ok ((), after)) :
    ∃ location, tree.locate path = .ok location ∧ location.asDirectory = false ∧
      ¬ tree.IsDirectoryAt (tree.place path) ∧
      after = placed tree (tree.place path) (.file content) := by
  unfold storeAt at ran
  cases located : tree.locate path with
  | error cause => rw [located] at ran; cases ran
  | ok location =>
    rw [located] at ran
    obtain ⟨names, _⟩ := locate_ok located
    have free : ∀ {entries}, tree.root.get? location.names = some (.directory entries) → False := by
      intro entries found
      simp only [bind, Except.bind, found] at ran
      cases ran
    cases asDirectory : location.asDirectory with
    | true =>
      cases found : tree.root.get? location.names with
      | none =>
        simp only [bind, Except.bind, found, asDirectory, if_true] at ran
        cases ran
      | some node =>
        cases node with
        | directory entries => exact (free found).elim
        | file old =>
          simp only [bind, Except.bind, found, asDirectory, if_true] at ran
          cases ran
    | false =>
      have stored : after = placed tree location.names (.file content) := by
        cases found : tree.root.get? location.names with
        | none =>
          simp only [bind, Except.bind, found, asDirectory] at ran
          cases ran
          rfl
        | some node =>
          cases node with
          | directory entries => exact (free found).elim
          | file old =>
            simp only [bind, Except.bind, found, asDirectory] at ran
            cases ran
            rfl
      refine ⟨location, rfl, asDirectory, ?_, names ▸ stored⟩
      intro isDirectory
      obtain ⟨entries, found⟩ := isDirectoryAt_iff.1 isDirectory
      exact free (names ▸ found)

theorem storeAt_of_located {tree : FileTree} {path : Path} {location : Location}
    (located : tree.locate path = .ok location) (asFile : location.asDirectory = false)
    (free : ¬ tree.IsDirectoryAt (tree.place path)) (content : ByteArray) :
    storeAt tree path content = .ok ((), placed tree (tree.place path) (.file content)) := by
  obtain ⟨names, _⟩ := locate_ok located
  rw [← names] at free ⊢
  unfold storeAt
  rw [located]
  cases found : tree.root.get? location.names with
  | none => simp only [bind, Except.bind, found, asFile]; rfl
  | some node =>
    cases node with
    | directory entries => exact absurd (isDirectoryAt_iff.2 ⟨entries, found⟩) free
    | file old => simp only [bind, Except.bind, found, asFile]; rfl

structure Stored (tree : FileTree) (path : Path) (content : ByteArray) (after : FileTree) : Prop where
  located : ∃ location, after.locate path = .ok location ∧ location.asDirectory = false
  confined : Confined (· = tree.place path) tree after
  there : after.fileAt (tree.place path) = some content

theorem stored_placed {tree : FileTree} {path : Path} {location : Location}
    (located : tree.locate path = .ok location) (asFile : location.asDirectory = false)
    (free : ¬ tree.IsDirectoryAt (tree.place path)) (content : ByteArray) :
    Stored tree path content (placed tree (tree.place path) (.file content)) := by
  obtain ⟨names, usable⟩ := locate_ok located
  rw [names] at usable
  have confined := confined_placed_file usable free content
  refine ⟨⟨location, confined.locate located, asFile⟩, confined, ?_⟩
  rw [fileAt, sight_placed_file usable.reaches free, if_pos rfl]
  rfl

theorem replaceFile_steps {directory path : Path} {content : ByteArray} {tree after : FileTree}
    (ran : (do
      if !directory.text.isEmpty then
        if !(← tree.node directory).isDirectory then throw .notDirectory
      storeAt tree path content : Except FileError (Unit × FileTree)) = .ok ((), after)) :
    storeAt tree path content = .ok ((), after) := by
  cases empty : directory.text.isEmpty with
  | true => simpa [empty] using ran
  | false =>
    cases found : tree.node directory with
    | error cause => simp [empty, found, bind, Except.bind] at ran
    | ok node =>
      cases isDirectory : node.isDirectory with
      | false => simp [empty, found, isDirectory, bind, Except.bind, throw, throwThe,
          MonadExceptOf.throw] at ran
      | true => simpa [empty, found, isDirectory, bind, Except.bind, pure, Except.pure] using ran

theorem replaceFile_ok {directory path : Path} {content : ByteArray} {tree after : FileTree}
    (ran : replaceFile directory path content tree = (.ok (), after)) :
    Stored tree path content after := by
  obtain ⟨left, quiet, went⟩ := attempt_ok ran
  obtain ⟨location, located, asFile, free, rfl⟩ := storeAt_ok (replaceFile_steps went)
  have stored := stored_placed located asFile free content
  exact ⟨stored.located, (sameFiles_withFault quiet).confined.trans stored.confined, stored.there⟩

theorem replaceFile_confined (directory path : Path) (content : ByteArray) (tree : FileTree) :
    Confined (· = tree.place path) tree (replaceFile directory path content tree).2 := by
  refine confined_attempt fun left value after ran => ?_
  obtain ⟨location, located, asFile, free, rfl⟩ := storeAt_ok (replaceFile_steps ran)
  exact (stored_placed located asFile free content).confined

/-- A file that cannot be put in its place leaves all as it was. -/
theorem replaceFile_error {directory path : Path} {content : ByteArray} {tree after : FileTree}
    {cause : FileError} (ran : replaceFile directory path content tree = (.error cause, after)) :
    tree.SameFiles after := by
  exact attempt_error ran

theorem replaceFile_alters (directory path : Path) (content : ByteArray) (tree : FileTree) :
    Alters (fun names found => names = tree.place path ∧ found = some content) tree
      (replaceFile directory path content tree).2 := by
  intro names
  cases ran : replaceFile directory path content tree with
  | mk outcome after =>
    cases outcome with
    | error cause => exact .inl ((replaceFile_error ran).fileAt_eq names)
    | ok value =>
      have stored := replaceFile_ok ran
      by_cases here : names = tree.place path
      · exact .inr ⟨here, here ▸ stored.there⟩
      · exact .inl (stored.confined.outside names here)

theorem replaceFile_of_located {directory path : Path} {tree : FileTree}
    (quiet : tree.faultAfter = none) {location : Location}
    (located : tree.locate path = .ok location) (asFile : location.asDirectory = false)
    (free : ¬ tree.IsDirectoryAt (tree.place path))
    (inDirectory : directory.text.isEmpty = false → ∃ entries,
      tree.node directory = .ok (.directory entries)) (content : ByteArray) :
    replaceFile directory path content tree =
      (.ok (), placed tree (tree.place path) (.file content)) := by
  refine attempt_of_quiet quiet ?_
  rw [storeAt_of_located located asFile free content]
  cases empty : directory.text.isEmpty with
  | true => rfl
  | false =>
    obtain ⟨entries, found⟩ := inDirectory empty
    rw [found]
    rfl

/-- What is true when a file was removed. -/
theorem removeFile_steps {path : Path} {tree after : FileTree}
    (ran : (do
      let place ← tree.locate path
      match ← tree.node path with
      | .directory _ => throw .isDirectory
      | .file _ => return ((), { tree with root := tree.root.erase place.names }) :
        Except FileError (Unit × FileTree)) = .ok ((), after)) :
    (∃ content, tree.fileAt (tree.place path) = some content) ∧
      tree.root.Reaches (tree.place path) ∧
      after = { tree with root := tree.root.erase (tree.place path) } := by
  cases located : tree.locate path with
  | error cause => rw [located] at ran; cases ran
  | ok location =>
    obtain ⟨names, usable⟩ := locate_ok located
    cases found : tree.node path with
    | error cause => rw [located, found] at ran; cases ran
    | ok node =>
      rw [located, found] at ran
      cases node with
      | directory entries => cases ran
      | file content =>
        cases ran
        obtain ⟨other, again, there, _⟩ := node_eq_ok.1 found
        rw [located, Except.ok.injEq] at again
        subst again
        rw [names] at there usable ⊢
        exact ⟨⟨content, fileAt_eq_some.2 there⟩, usable.reaches, rfl⟩

theorem removeFile_confined (path : Path) {tree : FileTree} (tidy : tree.root.Tidy) :
    Confined (· = tree.place path) tree (removeFile path tree).2 := by
  refine confined_attempt fun left value after ran => ?_
  obtain ⟨⟨content, found⟩, reaches, rfl⟩ := removeFile_steps ran
  have tidyLeft : (withFault tree left).root.Tidy := tidy
  exact confined_erase tidyLeft reaches found

theorem removeFile_ok {path : Path} {tree after : FileTree} (tidy : tree.root.Tidy)
    (ran : removeFile path tree = (.ok (), after)) : after.fileAt (tree.place path) = none := by
  obtain ⟨left, quiet, went⟩ := attempt_ok ran
  obtain ⟨⟨content, found⟩, reaches, rfl⟩ := removeFile_steps went
  exact fileAt_erase tidy reaches

theorem removeFile_alters (path : Path) {tree : FileTree} (tidy : tree.root.Tidy) :
    Alters (fun names found => names = tree.place path ∧ found = none) tree
      (removeFile path tree).2 := by
  intro names
  cases ran : removeFile path tree with
  | mk outcome after =>
    cases outcome with
    | error cause => exact .inl ((attempt_error ran).fileAt_eq names)
    | ok value =>
      by_cases here : names = tree.place path
      · exact .inr ⟨here, here ▸ removeFile_ok tidy ran⟩
      · have confined := removeFile_confined path tidy
        rw [ran] at confined
        exact .inl (confined.outside names here)

theorem removeFile_of_isFile {path : Path} {tree : FileTree} (quiet : tree.faultAfter = none)
    (isFile : tree.isFile path = true) : ∃ after, removeFile path tree = (.ok (), after) := by
  unfold FileTree.isFile node? at isFile
  cases found : tree.node path with
  | error cause => rw [found] at isFile; cases isFile
  | ok node =>
    rw [found] at isFile
    cases node with
    | directory entries => cases isFile
    | file content =>
      obtain ⟨location, located, _⟩ := node_eq_ok.1 found
      refine ⟨{ tree with root := tree.root.erase location.names }, attempt_of_quiet quiet ?_⟩
      rw [located, found]
      rfl

end FileAction
end ContractBuild
