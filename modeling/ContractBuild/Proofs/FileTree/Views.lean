import ContractBuild.Proofs.FileTree.Listing
import ContractBuild.Proofs.FileTree.Repeats

/-!
Two trees that differ in hidden files alone, one of which may have more directories. A path leads to
the same file in both, and a walk over visible files finds the same, as long as the way of the path
does not need directories that only one of them has.
-/
namespace ContractBuild.FileTree
open Text FileNode FileAction ContractBuild.Action

/-! The way of a path -/

def trail : List String → List (List Char) → List (List String)
  | _, [] => []
  | current, segment :: segments =>
    current :: (if segment.isEmpty || segment = ['.'] then trail current segments
      else if segment = ['.', '.'] then trail current.dropLast segments
      else trail (current ++ [String.ofList segment]) segments)

def wayFrom (workingDirectory : List String) (path : Path) : List (List String) :=
  trail (if path.isAbsolute then [] else workingDirectory) (segments path)

theorem follow_along {small large : FileTree} {current names : List String} {segments : List (List Char)}
    (directories : ∀ place ∈ trail current segments, large.IsDirectoryAt place → small.IsDirectoryAt place)
    (followed : follow large.root current segments = .ok names) :
    follow small.root current segments = .ok names := by
  induction segments generalizing current with
  | nil => exact followed
  | cons segment segments ih =>
    obtain ⟨isDirectory, rest⟩ := follow_cons_ok followed
    rw [trail] at directories
    obtain ⟨entries, found⟩ := isDirectoryAt_iff.1 (directories current List.mem_cons_self isDirectory)
    have later := fun place member => directories place (List.mem_cons_of_mem _ member)
    rw [follow, found]
    dsimp only
    split at rest
    · next idle =>
      rw [if_pos idle] at later ⊢
      exact ih later rest
    · next named =>
      rw [if_neg named] at later ⊢
      split at rest
      · next up =>
        rw [if_pos up] at later ⊢
        exact ih later rest
      · next down =>
        rw [if_neg down] at later ⊢
        split at rest
        · cases rest
        · next fits =>
          rw [if_neg fits]
          exact ih later rest

theorem trail_append (current : List String) (first second : List (List Char)) :
    trail current (first ++ second) = trail current first ++ trail (settle current first) second := by
  induction first generalizing current with
  | nil => rfl
  | cons segment first ih =>
    rw [List.cons_append, trail, trail, settle, List.cons_append]
    split
    · rw [ih]
    · split
      · rw [ih]
      · rw [ih]

/-- Segments that lead nowhere add no place but the one that is reached in the end. -/
theorem mem_trail_filter {current place : List String} {segments : List (List Char)}
    (member : place ∈ trail current segments) :
    place ∈ trail current (segments.filter (!isIdle ·)) ∨ place = settle current segments := by
  induction segments generalizing current with
  | nil => cases member
  | cons segment segments ih =>
    rw [trail] at member
    by_cases idle : isIdle segment = true
    · rw [List.filter_cons_of_neg (by simp [idle]), settle,
        if_pos (show (segment.isEmpty || decide (segment = ['.'])) = true from idle)]
      rw [if_pos (show (segment.isEmpty || decide (segment = ['.'])) = true from idle)] at member
      rcases List.mem_cons.1 member with rfl | later
      · cases shape : segments.filter (!isIdle ·) with
        | nil =>
          rw [← Path.settle_filter, shape]
          exact .inr rfl
        | cons next others => exact .inl List.mem_cons_self
      · exact ih later
    · rw [List.filter_cons_of_pos (by simp [idle]), settle, trail,
        if_neg (show ¬ (segment.isEmpty || decide (segment = ['.'])) = true from idle),
        if_neg (show ¬ (segment.isEmpty || decide (segment = ['.'])) = true from idle)]
      rw [if_neg (show ¬ (segment.isEmpty || decide (segment = ['.'])) = true from idle)] at member
      rcases List.mem_cons.1 member with rfl | later
      · exact .inl List.mem_cons_self
      · split at later
        · next up =>
          rw [if_pos up, if_pos up]
          exact (ih later).imp_left (List.mem_cons_of_mem _)
        · next down =>
          rw [if_neg down, if_neg down]
          exact (ih later).imp_left (List.mem_cons_of_mem _)

theorem mem_trail_of_filter {current place : List String} {segments : List (List Char)}
    (member : place ∈ trail current (segments.filter (!isIdle ·))) : place ∈ trail current segments := by
  induction segments generalizing current with
  | nil => cases member
  | cons segment segments ih =>
    rw [trail]
    by_cases idle : isIdle segment = true
    · rw [List.filter_cons_of_neg (by simp [idle])] at member
      rw [if_pos (show (segment.isEmpty || decide (segment = ['.'])) = true from idle)]
      exact List.mem_cons_of_mem _ (ih member)
    · rw [List.filter_cons_of_pos (by simp [idle]), trail,
        if_neg (show ¬ (segment.isEmpty || decide (segment = ['.'])) = true from idle)] at member
      rw [if_neg (show ¬ (segment.isEmpty || decide (segment = ['.'])) = true from idle)]
      rcases List.mem_cons.1 member with rfl | later
      · exact List.mem_cons_self
      · apply List.mem_cons_of_mem
        split at later
        · next up =>
          rw [if_pos up]
          exact ih later
        · next down =>
          rw [if_neg down]
          exact ih later

/-- Behind a path, the way to a plain name leads through the path's own place. -/
theorem mem_way_join {workingDirectory place : List String} {base : Path}
    (nonempty : base.text.toList ≠ []) {name : String} (plain : Plain name)
    (member : place ∈ wayFrom workingDirectory (base.join ⟨name⟩)) :
    place ∈ wayFrom workingDirectory base ∨ place = placeFrom workingDirectory base := by
  obtain ⟨lead, split, named, absolute⟩ := segments_join_plain nonempty plain
  have filtered : lead.filter (!isIdle ·) = (segments base).filter (!isIdle ·) :=
    named.trans (Path.filter_segments base).symm
  rw [wayFrom, split, trail_append, absolute] at member
  have reached : settle (if base.isAbsolute then [] else workingDirectory) lead =
      placeFrom workingDirectory base := by
    rw [placeFrom, ← settle_segments, ← Path.settle_filter, filtered, Path.settle_filter]
  rcases List.mem_append.1 member with along | last
  · rcases mem_trail_filter along with through | there
    · rw [filtered] at through
      exact .inl (mem_trail_of_filter through)
    · exact .inr (there.trans reached)
  · have idle : (name.toList.isEmpty || decide (name.toList = ['.'])) = false := by
      simpa using ⟨by simpa using plain.nonempty, plain.notCurrent⟩
    rw [trail, idle, if_neg Bool.false_ne_true, if_neg plain.notParent] at last
    have here : place = settle (if base.isAbsolute then [] else workingDirectory) lead := by
      simpa [trail] using last
    exact .inr (here.trans reached)

theorem join_nonempty {base : Path} {name : String} (plain : Plain name) :
    (base.join ⟨name⟩).text.toList ≠ [] := by
  unfold Path.join
  rw [Plain.isAbsolute_eq plain, if_neg Bool.false_ne_true]
  split
  · exact plain.nonempty
  · simp [String.toList_append, plain.nonempty]
  · simp [String.toList_append]

theorem placeFrom_descend (workingDirectory : List String) {base : Path} {names : List String}
    (plain : ∀ name ∈ names, Plain name) :
    placeFrom workingDirectory (base.descend names) = placeFrom workingDirectory base ++ names := by
  induction names generalizing base with
  | nil => exact (List.append_nil _).symm
  | cons name names ih =>
    show placeFrom workingDirectory ((base.join ⟨name⟩).descend names) = _
    rw [ih fun other member => plain other (List.mem_cons_of_mem _ member),
      placeFrom_join_plain _ _ (plain name List.mem_cons_self), List.append_assoc, List.singleton_append]

theorem mem_way_descend {workingDirectory place : List String} {base : Path}
    (nonempty : base.text.toList ≠ []) {names : List String} (plain : ∀ name ∈ names, Plain name)
    (member : place ∈ wayFrom workingDirectory (base.descend names)) :
    place ∈ wayFrom workingDirectory base ∨
      ∃ front rest, rest ≠ [] ∧ names = front ++ rest ∧ place = placeFrom workingDirectory base ++ front := by
  induction names generalizing base with
  | nil => exact .inl member
  | cons name names ih =>
    have plainName := plain name List.mem_cons_self
    rcases ih (join_nonempty plainName) (fun other member => plain other (List.mem_cons_of_mem _ member))
        member with through | ⟨front, rest, more, split, there⟩
    · rcases mem_way_join nonempty plainName through with through | there
      · exact .inl through
      · exact .inr ⟨[], name :: names, List.cons_ne_nil _ _, rfl, by rw [there, List.append_nil]⟩
    · refine .inr ⟨name :: front, rest, more, by rw [split]; rfl, ?_⟩
      rw [there, placeFrom_join_plain _ _ plainName, List.append_assoc, List.singleton_append]

/-! Trees with the same visible files -/

structure Widens (hidden : List String → Prop) (small large : FileTree) : Prop where
  workingDirectory : large.workingDirectory = small.workingDirectory
  directories : ∀ names, small.IsDirectoryAt names → large.IsDirectoryAt names
  files : ∀ names, ¬ hidden names → large.fileAt names = small.fileAt names
  tidySmall : small.root.Tidy
  tidyLarge : large.root.Tidy

def Walks (small large : FileTree) (path : Path) : Prop :=
  ∀ place ∈ wayFrom small.workingDirectory path, large.IsDirectoryAt place →
    small.root.sight (small.place path) ≠ none → small.IsDirectoryAt place

def Direct (tree : FileTree) (path : Path) : Prop :=
  ∀ place ∈ wayFrom tree.workingDirectory path,
    tree.IsDirectoryAt place ∨ ∃ rest, rest ≠ [] ∧ tree.place path = place ++ rest

def Reveals (tree : FileTree) (path : Path) (content : ByteArray) : Prop :=
  ∃ location, tree.locate path = .ok location ∧ location.asDirectory = false ∧
    tree.fileAt (tree.place path) = some content

variable {hidden : List String → Prop} {small large : FileTree} {path root : Path} {content : ByteArray}

/-- What was direct once stays so as directories come to be, and then needs none of them. -/
theorem Direct.walks {first : FileTree} (direct : first.Direct path)
    (workingDirectory : small.workingDirectory = first.workingDirectory)
    (directories : ∀ names, first.IsDirectoryAt names → small.IsDirectoryAt names) :
    Walks small large path := by
  intro place member _ seen
  rw [FileTree.place, workingDirectory] at seen
  rw [workingDirectory] at member
  rcases direct place member with isDirectory | ⟨rest, more, down⟩
  · exact directories place isDirectory
  · rw [FileTree.place] at down
    rw [down] at seen
    exact sight_of_append more seen

theorem reveals_of_readBytes {tree after : FileTree} (ran : readBytes path tree = (.ok content, after)) :
    tree.Reveals path content :=
  readBytes_ok ran

theorem Reveals.readBytes_eq {tree : FileTree} (reveals : tree.Reveals path content)
    (quiet : tree.faultAfter = none) : readBytes path tree = (.ok content, tree) := by
  obtain ⟨location, located, asFile, there⟩ := reveals
  exact readBytes_of_fileAt quiet located asFile there

theorem Widens.place_eq (widens : Widens hidden small large) (path : Path) :
    large.place path = small.place path := by
  rw [place, place, widens.workingDirectory]

theorem Widens.locate_large (widens : Widens hidden small large) {location : Location}
    (located : small.locate path = .ok location) : large.locate path = .ok location :=
  locate_mono widens.workingDirectory widens.directories located

theorem Widens.locate_small (widens : Widens hidden small large) (walks : Walks small large path)
    (there : small.root.sight (small.place path) ≠ none) {location : Location}
    (located : large.locate path = .ok location) : small.locate path = .ok location := by
  obtain ⟨nonempty, null, long, followed, asDirectory⟩ := locate_eq_ok.1 located
  refine locate_eq_ok.2 ⟨nonempty, null, long, ?_, asDirectory⟩
  have started : large.start path = small.start path := by
    rw [FileTree.start, FileTree.start, widens.workingDirectory]
  rw [started] at followed
  exact follow_along (fun place member isDirectory => walks place member isDirectory there) followed

theorem sight_ne_none_of_fileAt {tree : FileTree} {names : List String}
    (there : tree.fileAt names = some content) : tree.root.sight names ≠ none := by
  intro none
  rw [fileAt, none] at there
  cases there

theorem Widens.reveals_large (widens : Widens hidden small large) (visible : ¬ hidden (small.place path))
    (reveals : small.Reveals path content) : large.Reveals path content := by
  obtain ⟨location, located, asFile, there⟩ := reveals
  refine ⟨location, widens.locate_large located, asFile, ?_⟩
  rw [widens.place_eq, widens.files _ visible]
  exact there

theorem Widens.reveals_small (widens : Widens hidden small large) (walks : Walks small large path)
    (visible : ¬ hidden (small.place path)) (reveals : large.Reveals path content) :
    small.Reveals path content := by
  obtain ⟨location, located, asFile, there⟩ := reveals
  rw [widens.place_eq, widens.files _ visible] at there
  exact ⟨location, widens.locate_small walks (sight_ne_none_of_fileAt there) located, asFile, there⟩

/-- What is visible is revealed by both trees or by none. -/
theorem Widens.reveals_iff (widens : Widens hidden small large) (walks : Walks small large path)
    (visible : ¬ hidden (small.place path)) : small.Reveals path content ↔ large.Reveals path content :=
  ⟨widens.reveals_large visible, widens.reveals_small walks visible⟩

/-! Walks over files -/

def listed (tree : FileTree) (root : Path) (wanted : Path → Bool) : List Path :=
  (tree.filesReached root).filter wanted

theorem listed_of_node {tree : FileTree} {node : FileNode} (found : tree.node root = .ok node)
    (wanted : Path → Bool) :
    tree.listed root wanted =
      (node.leaves.filter fun names => wanted (root.descend names) && root.reaches names).map root.descend := by
  rw [listed, filesReached, found]
  dsimp only
  rw [reached_walkFrom, List.filter_map, List.filter_filter]
  rfl

theorem listed_of_error {tree : FileTree} {cause : FileError} (found : tree.node root = .error cause)
    (wanted : Path → Bool) : tree.listed root wanted = [] := by
  rw [listed, filesReached, found]
  rfl

/-- A path on a list leads through plain names to a file below the root. -/
theorem mem_listed {tree : FileTree} (tidy : tree.root.Tidy) {wanted : Path → Bool} :
    path ∈ tree.listed root wanted ↔ wanted path = true ∧ ∃ node names content,
      tree.node root = .ok node ∧ path = root.descend names ∧ root.reaches names = true ∧
        node.get? names = some (.file content) := by
  cases found : tree.node root with
  | error cause => simp [listed_of_error found]
  | ok node =>
    obtain ⟨location, _, there, _⟩ := node_eq_ok.1 found
    have tidyNode := tidy_of_get? tidy there
    rw [listed_of_node found, List.mem_map]
    constructor
    · rintro ⟨names, member, rfl⟩
      obtain ⟨isLeaf, sought⟩ := List.mem_filter.1 member
      obtain ⟨isWanted, reaches⟩ := Bool.and_eq_true_iff.1 sought
      obtain ⟨content, below⟩ := (mem_leaves tidyNode).1 isLeaf
      exact ⟨isWanted, node, names, content, rfl, rfl, reaches, below⟩
    · rintro ⟨isWanted, other, names, content, same, rfl, reaches, below⟩
      cases same
      exact ⟨names, List.mem_filter.2 ⟨(mem_leaves tidyNode).2 ⟨content, below⟩,
        Bool.and_eq_true_iff.2 ⟨isWanted, reaches⟩⟩, rfl⟩

theorem fileAt_descend {tree : FileTree} (tidy : tree.root.Tidy) {node : FileNode} {names : List String}
    (found : tree.node root = .ok node) (below : node.get? names = some (.file content)) :
    tree.place (root.descend names) = tree.place root ++ names ∧
      tree.fileAt (tree.place root ++ names) = some content := by
  obtain ⟨location, located, there, _⟩ := node_eq_ok.1 found
  have plain := plain_of_get? (tidy_of_get? tidy there) below
  refine ⟨placeFrom_descend _ plain, ?_⟩
  rw [← (locate_ok located).1, fileAt_eq_some, get?_append there]
  exact below

theorem node_nonempty {tree : FileTree} {node : FileNode} (found : tree.node root = .ok node) :
    root.text.toList ≠ [] := by
  obtain ⟨_, located, _⟩ := node_eq_ok.1 found
  exact (locate_eq_ok.1 located).1

/-- If a file below the root is there in the smaller tree, then so is the root. -/
theorem Widens.node_small (widens : Widens hidden small large) (walks : Walks small large root)
    {node : FileNode} (found : large.node root = .ok node) {names : List String}
    (below : node.get? names = some (.file content))
    (there : small.fileAt (small.place root ++ names) = some content) :
    ∃ other, small.node root = .ok other := by
  have seen : small.root.sight (small.place root) ≠ none := by
    cases names with
    | nil =>
      rw [List.append_nil] at there
      exact sight_ne_none_of_fileAt there
    | cons name names =>
      rw [sight_of_append (List.cons_ne_nil name names) (sight_ne_none_of_fileAt there)]
      exact Option.some_ne_none _
  obtain ⟨location, located, foundThere, asDirectory⟩ := node_eq_ok.1 found
  have locatedSmall := widens.locate_small walks seen located
  rw [← (locate_ok locatedSmall).1] at there seen
  cases names with
  | nil =>
    rw [List.append_nil, fileAt_eq_some] at there
    cases node with
    | directory entries => cases below
    | file other => exact ⟨_, node_eq_ok.2 ⟨location, locatedSmall, there, asDirectory⟩⟩
  | cons name names =>
    have isDirectory : small.IsDirectoryAt location.names :=
      sight_of_append (List.cons_ne_nil name names) (sight_ne_none_of_fileAt there)
    obtain ⟨entries, entry⟩ := isDirectoryAt_iff.1 isDirectory
    exact ⟨_, node_eq_ok.2 ⟨location, locatedSmall, entry, fun _ => rfl⟩⟩

theorem Widens.node_large (widens : Widens hidden small large) {node : FileNode}
    (found : small.node root = .ok node) {names : List String}
    (below : node.get? names = some (.file content))
    (there : large.fileAt (small.place root ++ names) = some content) :
    ∃ other, large.node root = .ok other := by
  obtain ⟨location, located, foundThere, asDirectory⟩ := node_eq_ok.1 found
  have locatedLarge := widens.locate_large located
  rw [← (locate_ok located).1] at there
  cases node with
  | directory entries =>
    obtain ⟨others, entry⟩ := isDirectoryAt_iff.1
      (widens.directories _ (isDirectoryAt_iff.2 ⟨entries, foundThere⟩))
    exact ⟨_, node_eq_ok.2 ⟨location, locatedLarge, entry, fun _ => rfl⟩⟩
  | file other =>
    cases names with
    | nil =>
      rw [List.append_nil, fileAt_eq_some] at there
      exact ⟨_, node_eq_ok.2 ⟨location, locatedLarge, there, asDirectory⟩⟩
    | cons name names => cases below

/-- A walk that wants no hidden file finds the same in both trees. -/
theorem Widens.listed_eq (widens : Widens hidden small large) (walks : Walks small large root)
    {wanted : Path → Bool}
    (visibleSmall : ∀ path ∈ small.listed root wanted, ¬ hidden (small.place path))
    (visibleLarge : ∀ path ∈ large.listed root wanted, ¬ hidden (small.place path)) :
    large.listed root wanted = small.listed root wanted := by
  -- whatever is wanted and there in one of the trees is a file of the other one
  have inLarge : ∀ {node : FileNode} {names : List String}, small.node root = .ok node →
      wanted (root.descend names) = true → root.reaches names = true → ∀ {content}, node.get? names = some (.file content) →
      large.fileAt (small.place root ++ names) = some content := by
    intro node names found isWanted reaches content below
    obtain ⟨place, there⟩ := fileAt_descend widens.tidySmall found below
    have visible := visibleSmall _ ((mem_listed widens.tidySmall).2
      ⟨isWanted, node, names, content, found, rfl, reaches, below⟩)
    rw [place] at visible
    rw [widens.files _ visible]
    exact there
  have inSmall : ∀ {node : FileNode} {names : List String}, large.node root = .ok node →
      wanted (root.descend names) = true → root.reaches names = true → ∀ {content}, node.get? names = some (.file content) →
      small.fileAt (small.place root ++ names) = some content := by
    intro node names found isWanted reaches content below
    obtain ⟨place, there⟩ := fileAt_descend widens.tidyLarge found below
    have visible := visibleLarge _ ((mem_listed widens.tidyLarge).2
      ⟨isWanted, node, names, content, found, rfl, reaches, below⟩)
    rw [widens.place_eq, widens.place_eq] at place
    rw [widens.place_eq] at there
    rw [place] at visible
    rw [← widens.files _ visible]
    exact there
  cases foundSmall : small.node root with
  | error cause =>
    rw [listed_of_error foundSmall, List.eq_nil_iff_forall_not_mem]
    intro path member
    obtain ⟨isWanted, node, names, content, found, rfl, reaches, below⟩ := (mem_listed widens.tidyLarge).1 member
    obtain ⟨other, isThere⟩ := widens.node_small walks found below (inSmall found isWanted reaches below)
    rw [foundSmall] at isThere
    cases isThere
  | ok node =>
    cases foundLarge : large.node root with
    | error cause =>
      rw [listed_of_error foundLarge, eq_comm, List.eq_nil_iff_forall_not_mem]
      intro path member
      obtain ⟨isWanted, node, names, content, found, rfl, reaches, below⟩ := (mem_listed widens.tidySmall).1 member
      obtain ⟨other, isThere⟩ := widens.node_large found below (inLarge found isWanted reaches below)
      rw [foundLarge] at isThere
      cases isThere
    | ok other =>
      obtain ⟨locationSmall, locatedSmall, thereSmall, _⟩ := node_eq_ok.1 foundSmall
      obtain ⟨locationLarge, locatedLarge, thereLarge, _⟩ := node_eq_ok.1 foundLarge
      have placeSmall := (locate_ok locatedSmall).1
      have placeLarge := (locate_ok locatedLarge).1.trans (widens.place_eq root)
      rw [listed_of_node foundSmall, listed_of_node foundLarge]
      congr 1
      refine filter_leaves_eq (tidy_of_get? widens.tidyLarge thereLarge)
        (tidy_of_get? widens.tidySmall thereSmall) fun names sought => ?_
      obtain ⟨isWanted, reaches⟩ := Bool.and_eq_true_iff.1 sought
      constructor
      · rintro ⟨content, below⟩
        have there := inSmall foundLarge isWanted reaches below
        rw [← placeSmall, fileAt_eq_some, get?_append thereSmall] at there
        exact ⟨content, there⟩
      · rintro ⟨content, below⟩
        have there := inLarge foundSmall isWanted reaches below
        rw [← placeLarge, fileAt_eq_some, get?_append thereLarge] at there
        exact ⟨content, there⟩

/-- The way to a file below a root that is walked is one that is walked as well. -/
theorem Walks.descend (walks : Walks small large root) {tree : FileTree} {node : FileNode}
    (tidy : tree.root.Tidy) (found : tree.node root = .ok node) {names : List String}
    (below : node.get? names = some (.file content)) : Walks small large (root.descend names) := by
  obtain ⟨location, located, there, _⟩ := node_eq_ok.1 found
  have plain := plain_of_get? (tidy_of_get? tidy there) below
  intro place member isDirectory seen
  rw [FileTree.place, placeFrom_descend _ plain] at seen
  rcases mem_way_descend (node_nonempty found) plain member with through | ⟨front, rest, more, split, isPlace⟩
  · refine walks place through isDirectory ?_
    cases names with
    | nil =>
      rw [List.append_nil] at seen
      exact seen
    | cons name names =>
      show small.root.sight (placeFrom small.workingDirectory root) ≠ none
      rw [sight_of_append (List.cons_ne_nil name names) seen]
      exact Option.some_ne_none _
  · rw [split, ← List.append_assoc] at seen
    rw [isPlace]
    exact sight_of_append more seen

/-- A file on a list is revealed by both trees or by none. -/
theorem Widens.reveals_listed (widens : Widens hidden small large) (walks : Walks small large root)
    {wanted : Path → Bool} (visible : ∀ path ∈ small.listed root wanted, ¬ hidden (small.place path))
    (member : path ∈ small.listed root wanted) :
    small.Reveals path content ↔ large.Reveals path content := by
  obtain ⟨_, node, names, _, found, rfl, -, below⟩ := (mem_listed widens.tidySmall).1 member
  exact widens.reveals_iff (walks.descend widens.tidySmall found below) (visible _ member)

/-! Walks that nothing stops -/

def Opens (tree : FileTree) (root : Path) : Prop :=
  tree.exists? root = true → ∀ names, tree.IsDirectoryAt (tree.place root ++ names) →
    (root.descend names).text.utf8ByteSize ≤ pathLimit

theorem exists?_iff {tree : FileTree} : tree.exists? path = true ↔ ∃ node, tree.node path = .ok node := by
  rw [exists?, node?]
  cases tree.node path with
  | error cause => exact ⟨nofun, nofun⟩
  | ok node => exact ⟨fun _ => ⟨node, rfl⟩, fun _ => rfl⟩

theorem isDirectoryAt_append_iff {tree : FileTree} {node : FileNode} (found : tree.node root = .ok node)
    {names : List String} : tree.IsDirectoryAt (tree.place root ++ names) ↔
      ∃ entries, node.get? names = some (.directory entries) := by
  obtain ⟨location, located, there, _⟩ := node_eq_ok.1 found
  rw [isDirectoryAt_iff, ← (locate_ok located).1, get?_append there]

theorem Opens.fits {tree : FileTree} {node : FileNode} (opens : tree.Opens root) (found : tree.node root = .ok node)
    (names : List String) (entries : List (String × FileNode))
    (below : node.get? names = some (.directory entries)) : (root.descend names).text.utf8ByteSize ≤ pathLimit :=
  opens (exists?_iff.2 ⟨node, found⟩) names ((isDirectoryAt_append_iff found).2 ⟨entries, below⟩)

/-- A walk that nothing stops comes to every file. -/
theorem listed_of_opens {tree : FileTree} (tidy : tree.root.Tidy) {node : FileNode} (found : tree.node root = .ok node)
    (opens : tree.Opens root) (wanted : Path → Bool) :
    tree.listed root wanted = (node.leaves.filter fun names => wanted (root.descend names)).map root.descend := by
  obtain ⟨_, _, here, _⟩ := node_eq_ok.1 found
  rw [listed_of_node found]
  congr 1
  refine List.filter_congr fun names member => ?_
  obtain ⟨content, below⟩ := (mem_leaves (tidy_of_get? tidy here)).1 member
  rw [reaches_of_fits (opens.fits found) below, Bool.and_true]

theorem filesBelow_of_opens {tree : FileTree} (tidy : tree.root.Tidy) {node : FileNode}
    (found : tree.node root = .ok node) (opens : tree.Opens root) :
    tree.filesBelow root = .ok (tree.filesReached root) := by
  obtain ⟨location, _, there, _⟩ := node_eq_ok.1 found
  have goes := walkFrom_eq (tidy_of_get? tidy there) (opens.fits found)
  rw [filesBelow, filesReached, found]
  show (walkFrom root node).mapM id = _
  rw [goes, List.mapM_map]
  exact (List.mapM_pure (f := id)).trans (congrArg _ (List.map_id _))

theorem filesBelow_of_error {tree : FileTree} {node : FileNode} (found : tree.node root = .ok node)
    (stops : ∃ cause, .error cause ∈ walkFrom root node) :
    ∃ cause, tree.filesBelow root = .error cause ∧ .error cause ∈ walkFrom root node := by
  rw [filesBelow, found]
  show ∃ cause, (walkFrom root node).mapM id = .error cause ∧ _
  generalize walkFrom root node = walk at stops
  induction walk with
  | nil => simp at stops
  | cons met others ih =>
    rw [List.mapM_cons]
    cases met with
    | error cause => exact ⟨cause, rfl, List.mem_cons_self⟩
    | ok path =>
      obtain ⟨cause, fails, member⟩ := ih (by simpa using stops)
      rw [fails]
      exact ⟨cause, rfl, List.mem_cons_of_mem _ member⟩

/-- The first directory that cannot be opened stops the walk. -/
theorem filesBelow_of_not_opens {tree : FileTree} (tidy : tree.root.Tidy) (closed : ¬ tree.Opens root) :
    tree.exists? root = true ∧ ∃ names, tree.IsDirectoryAt (tree.place root ++ names) ∧
      pathLimit < (root.descend names).text.utf8ByteSize ∧
        tree.filesBelow root = .error (.unopened (root.descend names)) := by
  unfold Opens at closed
  push Not at closed
  obtain ⟨isThere, deep, isDirectory, long⟩ := closed
  obtain ⟨node, found⟩ := exists?_iff.1 isThere
  obtain ⟨_, _, there, _⟩ := node_eq_ok.1 found
  obtain ⟨entries, below⟩ := (isDirectoryAt_append_iff found).1 isDirectory
  obtain ⟨cause, fails, member⟩ := filesBelow_of_error found (exists_error_mem_walkFrom below long)
  obtain ⟨names, inner, here, isLong, rfl⟩ := error_of_mem_walkFrom (tidy_of_get? tidy there) member
  exact ⟨isThere, names, (isDirectoryAt_append_iff found).2 ⟨inner, here⟩, isLong, fails⟩

theorem opens_of_isSome {tree : FileTree} (tidy : tree.root.Tidy)
    (goes : (tree.filesBelow root).toOption.isSome = true) : tree.Opens root := by
  by_contra closed
  obtain ⟨_, _, _, _, fails⟩ := filesBelow_of_not_opens tidy closed
  rw [fails] at goes
  cases goes

theorem Widens.opens (widens : Widens hidden small large) (opens : large.Opens root) : small.Opens root := by
  intro isThere names isDirectory
  obtain ⟨node, found⟩ := exists?_iff.1 isThere
  obtain ⟨location, located, there, asDirectory⟩ := node_eq_ok.1 found
  have inLarge := widens.directories _ isDirectory
  rw [← widens.place_eq] at inLarge
  have locatedLarge := widens.locate_large located
  have isRoot : large.IsDirectoryAt location.names := by
    rw [(locate_ok locatedLarge).1]
    exact inLarge.of_append
  obtain ⟨entries, here⟩ := isDirectoryAt_iff.1 isRoot
  exact opens (exists?_iff.2 ⟨_, node_eq_ok.2 ⟨location, locatedLarge, here, fun _ => rfl⟩⟩) names inLarge

end ContractBuild.FileTree
