import ContractBuild.Proofs.FileTree.Views

/-!
One path spelled in several ways. Segments that lead nowhere only ask for a directory to stand in, so what
a path leads to depends on the segments that lead somewhere, on whether its end asks for a directory, and
on whether its text fits the limits for paths.
-/
namespace ContractBuild
open Text FileTree
open FileNode (Plain)

namespace Path

/-! Texts of joined paths -/

def separator (text : List Char) : String :=
  if text = [] ∨ text.getLast? = some '/' then "" else "/"

theorem join_of_relative (base : Path) {path : Path} (relative : path.isAbsolute = false) :
    base.join path = ⟨base.text ++ separator base.text.toList ++ path.text⟩ := by
  unfold join
  rw [relative, if_neg Bool.false_ne_true, separator]
  split
  · next last =>
    have empty : base.text = "" := String.toList_eq_nil_iff.1 (List.getLast?_eq_none_iff.1 last)
    simp [empty]
  · next last => simp [last]
  · next c other last =>
    have nonempty : base.text ≠ "" := by
      intro empty
      rw [empty] at last
      cases last
    simp [last, nonempty, show c ≠ '/' from other]

theorem separator_of_closed {text : List Char} (closed : text.getLast? = some '/') : separator text = "" :=
  if_pos (.inr closed)

/-- A text that was set off needs nothing more in front of a name. -/
theorem separator_separator (text : List Char) : separator (text ++ (separator text).toList) = "" := by
  by_cases ready : text = [] ∨ text.getLast? = some '/'
  · rw [show separator text = "" from if_pos ready, String.toList_empty, List.append_nil]
    exact if_pos ready
  · rw [show separator text = "/" from if_neg ready]
    exact separator_of_closed (List.getLast?_concat)

theorem separator_append (front : List Char) {text : List Char} (filled : text ≠ []) :
    separator (front ++ text) = separator text := by
  rw [separator, separator, List.getLast?_append]
  simp [filled, List.getLast?_eq_some_getLast filled]

theorem join_join (base : Path) {path : Path} (filled : path.text.toList ≠ []) (relative : path.isAbsolute = false)
    {name : String} (plain : Plain name) : base.join (path.join ⟨name⟩) = (base.join path).join ⟨name⟩ := by
  have relativeName := Plain.isAbsolute_eq plain
  have behind : (path.join ⟨name⟩).isAbsolute = false := by
    rw [join_of_relative path relativeName, String.append_assoc, isAbsolute_append filled]
    exact relative
  rw [join_of_relative base behind, join_of_relative _ relativeName, join_of_relative _ relativeName,
    join_of_relative base relative, String.toList_append, separator_append _ filled]
  simp only [String.append_assoc]

end Path

namespace FileTree

/-! Idle segments -/

def endsIdle (segments : List (List Char)) : Bool :=
  segments.getLast?.any isIdle

theorem follow_cons_eq_ok {root : FileNode} {current names : List String} {segment : List Char}
    {segments : List (List Char)} : follow root current (segment :: segments) = .ok names ↔
      root.sight current = some none ∧
        (if isIdle segment then follow root current segments
          else if segment = ['.', '.'] then follow root current.dropLast segments
          else if (String.ofList segment).utf8ByteSize > nameLimit then .error .nameTooLong
          else follow root (current ++ [String.ofList segment]) segments) = .ok names := by
  refine ⟨follow_cons_ok, fun ⟨isDirectory, rest⟩ => ?_⟩
  obtain ⟨entries, found⟩ := (@isDirectoryAt_iff ⟨root, [], none⟩ current).1 isDirectory
  rw [follow, found]
  exact rest

theorem endsIdle_cons_of_ne_nil (segment : List Char) {segments : List (List Char)} (more : segments ≠ []) :
    endsIdle (segment :: segments) = endsIdle segments := by
  obtain ⟨next, rest, rfl⟩ := List.exists_cons_of_ne_nil more
  rfl

/-- Segments that lead nowhere can be left out, apart from the directory that the last one asks for. -/
theorem follow_eq_ok_iff {root : FileNode} {current names : List String} {segments : List (List Char)} :
    follow root current segments = .ok names ↔
      follow root current (segments.filter (!isIdle ·)) = .ok names ∧
        (endsIdle segments = true → root.sight names = some none) := by
  induction segments generalizing current with
  | nil => simp [endsIdle]
  | cons segment segments ih =>
    rw [follow_cons_eq_ok]
    by_cases idle : isIdle segment = true
    · rw [if_pos idle, List.filter_cons_of_neg (by simp [idle]), ih]
      by_cases last : segments = []
      · subst last
        simp only [List.filter_nil, follow, Except.ok.injEq, endsIdle, List.getLast?_nil, List.getLast?_singleton,
          Option.any_none, Option.any_some, idle, Bool.false_eq_true, false_implies, and_true, forall_const]
        constructor
        · rintro ⟨here, same⟩
          exact ⟨same, same ▸ here⟩
        · rintro ⟨same, here⟩
          exact ⟨same ▸ here, same⟩
      · rw [endsIdle_cons_of_ne_nil segment last]
        refine and_iff_right_of_imp ?_
        rintro ⟨followed, ends⟩
        -- the directory is asked for again further on
        cases rest : segments.filter (!isIdle ·) with
        | nil =>
          rw [rest] at followed
          obtain rfl : current = names := Except.ok.inj followed
          refine ends ?_
          have all := List.filter_eq_nil_iff.1 rest _ (List.getLast_mem last)
          rw [endsIdle, List.getLast?_eq_some_getLast last]
          simpa using all
        | cons next others =>
          rw [rest] at followed
          exact (follow_cons_eq_ok.1 followed).1
    · have ends : endsIdle (segment :: segments) = endsIdle segments := by
        cases segments with
        | nil => simpa [endsIdle] using idle
        | cons next others => rfl
      rw [if_neg idle, List.filter_cons_of_pos (by simp [idle]), follow_cons_eq_ok, if_neg idle, ends, and_assoc]
      refine and_congr_right fun _ => ?_
      split
      · exact ih
      · split
        · simp
        · exact ih

def Fits (path : Path) : Prop :=
  path.text.toList.contains '\x00' = false ∧ path.text.utf8ByteSize ≤ pathLimit

def asksDirectory (path : Path) : Bool :=
  endsIdle (splitOn '/' path.text.toList)

theorem asksDirectory_eq {path : Path} (filled : path.text.toList ≠ []) :
    asksDirectory path = (endsIdle (segments path) || decide (path.text.toList.getLast? = some '/')) := by
  obtain ⟨front, c, text⟩ : ∃ front c, path.text.toList = front ++ [c] :=
    ⟨_, _, (List.dropLast_append_getLast filled).symm⟩
  by_cases slash : c = '/'
  · subst slash
    rw [asksDirectory, text, splitOn_append]
    simp [endsIdle, splitOn, isIdle]
  · obtain ⟨lead, last, split⟩ := @getLast?_splitOn_append '/' front [c] (by simpa using Ne.symm slash)
    rw [← text] at split
    rw [segments_eq_of_last split (by simp), asksDirectory, split, text]
    simp [slash]

/-- What a path leads to, told by its segments that lead somewhere. -/
theorem node_eq_ok_iff {tree : FileTree} {path : Path} {node : FileNode} :
    tree.node path = .ok node ↔ path.text.toList ≠ [] ∧ Fits path ∧
      ∃ names, follow tree.root (tree.start path) (Path.named path.text.toList) = .ok names ∧
        tree.root.get? names = some node ∧ (asksDirectory path = true → node.isDirectory = true) := by
  have asks : ∀ {names}, tree.root.get? names = some node →
      (tree.root.sight names = some none ↔ node.isDirectory = true) := by
    intro names found
    rw [FileNode.sight, found]
    cases node <;> simp [FileNode.isDirectory]
  rw [node_eq_ok]
  constructor
  · rintro ⟨location, located, found, asDirectory⟩
    obtain ⟨filled, noNull, short, followed, isLast⟩ := locate_eq_ok.1 located
    rw [follow_eq_ok_iff, Path.filter_segments] at followed
    refine ⟨filled, ⟨noNull, Nat.le_of_not_gt short⟩, location.names, followed.1, found, fun asked => ?_⟩
    rw [asksDirectory_eq filled, Bool.or_eq_true, ← isLast] at asked
    exact asked.elim (fun idle => (asks found).1 (followed.2 idle)) asDirectory
  · rintro ⟨filled, ⟨noNull, short⟩, names, followed, found, asked⟩
    rw [asksDirectory_eq filled, Bool.or_eq_true] at asked
    refine ⟨⟨names, decide (path.text.toList.getLast? = some '/')⟩, locate_eq_ok.2 ⟨filled, noNull,
      Nat.not_lt_of_le short, ?_, rfl⟩, found, fun closed => asked (.inr closed)⟩
    rw [follow_eq_ok_iff, Path.filter_segments]
    exact ⟨followed, fun idle => (asks found).2 (asked (.inl idle))⟩

/-! Names below a path -/

variable {tree : FileTree} {base : Path}

theorem isIdle_of_plain {name : String} (plain : Plain name) : isIdle name.toList = false := by
  simpa [isIdle] using ⟨by simpa using plain.nonempty, plain.notCurrent⟩

theorem fits_of_append {front rest : String} (fits : Fits ⟨front ++ rest⟩) : Fits ⟨front⟩ := by
  obtain ⟨noNull, short⟩ := fits
  rw [String.toList_append] at noNull
  rw [String.utf8ByteSize_append] at short
  exact ⟨by simp_all, Nat.le_trans (Nat.le_add_right _ _) short⟩

theorem fits_of_join {name : String} (plain : Plain name) (fits : Fits (base.join ⟨name⟩)) : Fits base := by
  rw [Path.join_of_relative base (Plain.isAbsolute_eq plain), String.append_assoc] at fits
  exact fits_of_append fits

theorem named_join (base : Path) {name : String} (plain : Plain name) :
    Path.named (base.join ⟨name⟩).text.toList = Path.named base.text.toList ++ [name.toList] := by
  have single : Path.named name.toList = [name.toList] := by
    rw [Path.named, splitOn_of_not_mem plain.whole]
    simp [isIdle_of_plain plain]
  rw [Path.join_of_relative base (Plain.isAbsolute_eq plain), Path.separator]
  split
  · next ready =>
    rcases ready with empty | closed
    · simp [empty, single]
    · obtain ⟨front, text⟩ := List.getLast?_eq_some_iff.1 closed
      rw [String.toList_append, String.append_empty, text, List.append_assoc, List.singleton_append,
        Path.named_append, Path.named_append_slash, single]
  · rw [String.append_assoc, String.toList_append, String.toList_append]
    show Path.named (base.text.toList ++ '/' :: name.toList) = _
    rw [Path.named_append, single]

theorem node_join_iff (filled : base.text.toList ≠ []) {name : String} (plain : Plain name) {node : FileNode} :
    tree.node (base.join ⟨name⟩) = .ok node ↔
      (∃ entries, tree.node base = .ok (.directory entries) ∧ FileNode.entryOf? name entries = some node) ∧
        Fits (base.join ⟨name⟩) ∧ name.utf8ByteSize ≤ nameLimit := by
  obtain ⟨lead, split, -, absolute⟩ := segments_join_plain filled plain
  have started : tree.start (base.join ⟨name⟩) = tree.start base := by
    rw [FileTree.start, FileTree.start, absolute]
  have asks : asksDirectory (base.join ⟨name⟩) = false := by
    rw [asksDirectory_eq (join_nonempty plain), split, Path.join_of_relative base (Plain.isAbsolute_eq plain),
      String.toList_append, List.getLast?_append_of_ne_nil _ plain.nonempty]
    have last : name.toList.getLast? ≠ some '/' := fun slash => plain.whole (List.mem_of_getLast? slash)
    simp [endsIdle, isIdle_of_plain plain, last]
  rw [node_eq_ok_iff, named_join base plain, started, asks]
  constructor
  · rintro ⟨-, fits, names, followed, found, -⟩
    rw [follow_append] at followed
    cases reached : follow tree.root (tree.start base) (Path.named base.text.toList) with
    | error cause =>
      rw [reached] at followed
      cases followed
    | ok place =>
      rw [reached] at followed
      have isDirectory : tree.IsDirectoryAt place := (follow_cons_ok followed).1
      have last : follow tree.root place [name.toList] = .ok names := followed
      rw [follow_plain isDirectory plain] at last
      obtain ⟨entries, here⟩ := isDirectoryAt_iff.1 isDirectory
      split at last
      · cases last
      · next short =>
        cases last
        rw [FileNode.get?_append here] at found
        refine ⟨⟨entries, node_eq_ok_iff.2 ⟨filled, fits_of_join plain fits, place, reached, here, fun _ => rfl⟩, ?_⟩,
          fits, Nat.le_of_not_gt short⟩
        simpa [FileNode.get?] using found
  · rintro ⟨⟨entries, there, entry⟩, fits, short⟩
    obtain ⟨-, -, place, reached, here, -⟩ := node_eq_ok_iff.1 there
    refine ⟨join_nonempty plain, fits, place ++ [name], ?_, ?_, fun wanted => absurd wanted Bool.false_ne_true⟩
    · rw [follow_append, reached]
      show follow tree.root place [name.toList] = _
      rw [follow_plain (isDirectoryAt_iff.2 ⟨entries, here⟩) plain, if_neg (Nat.not_lt_of_le short)]
    · rw [FileNode.get?_append here]
      simpa [FileNode.get?] using entry

theorem fits_of_descend {names : List String} (plain : ∀ name ∈ names, Plain name)
    (fits : Fits (base.descend names)) : Fits base := by
  induction names generalizing base with
  | nil => exact fits
  | cons name names ih =>
    exact fits_of_join (plain name List.mem_cons_self)
      (ih (fun other member => plain other (List.mem_cons_of_mem _ member)) fits)

/-- What plain names lead to below a path. -/
theorem node_descend_iff (filled : base.text.toList ≠ []) {names : List String} (plain : ∀ name ∈ names, Plain name)
    {node : FileNode} : tree.node (base.descend names) = .ok node ↔
      (∃ root, tree.node base = .ok root ∧ root.get? names = some node) ∧
        Fits (base.descend names) ∧ ∀ name ∈ names, name.utf8ByteSize ≤ nameLimit := by
  induction names generalizing base with
  | nil =>
    show tree.node base = .ok node ↔ _
    constructor
    · intro found
      exact ⟨⟨node, found, rfl⟩, (node_eq_ok_iff.1 found).2.1, nofun⟩
    · rintro ⟨⟨root, found, same⟩, -⟩
      rw [found, Option.some.inj same]
  | cons name names ih =>
    have first := plain name List.mem_cons_self
    have others : ∀ other ∈ names, Plain other := fun other member => plain other (List.mem_cons_of_mem _ member)
    show tree.node ((base.join ⟨name⟩).descend names) = .ok node ↔ _
    rw [ih (join_nonempty first) others, List.forall_mem_cons]
    constructor
    · rintro ⟨⟨middle, found, below⟩, fits, short⟩
      obtain ⟨⟨entries, root, entry⟩, -, shortFirst⟩ := (node_join_iff filled first).1 found
      refine ⟨⟨_, root, ?_⟩, fits, shortFirst, short⟩
      rw [FileNode.get?, entry]
      exact below
    · rintro ⟨⟨root, found, below⟩, fits, shortFirst, short⟩
      cases root with
      | file content => cases below
      | directory entries =>
        obtain ⟨middle, entry, below⟩ := Option.bind_eq_some_iff.1 below
        exact ⟨⟨middle, (node_join_iff filled first).2
          ⟨⟨entries, found, entry⟩, fits_of_descend others fits, shortFirst⟩, below⟩, fits, short⟩

end FileTree
end ContractBuild
