import ContractBuild.Proofs.FileTree.Nodes

/-!
The place of a path. Without links a path leads to the same place whenever it can be followed, so
places can be told apart by the texts of paths alone: a name behind a directory is a place of its
own, and paths with different extensions never meet.
-/
namespace ContractBuild

namespace Text

theorem splitOn_of_not_mem {separator : Char} {text : List Char} (absent : separator ∉ text) :
    splitOn separator text = [text] := by
  induction text with
  | nil => rfl
  | cons c text ih =>
    obtain ⟨differs, rest⟩ := not_or.1 (fun member => absent (List.mem_cons.2 member))
    simp [splitOn, Ne.symm differs, ih rest]

theorem splitOn_append (separator : Char) (left right : List Char) :
    splitOn separator (left ++ separator :: right) =
      splitOn separator left ++ splitOn separator right := by
  induction left with
  | nil => simp [splitOn]
  | cons c left ih =>
    simp only [List.cons_append, splitOn]
    by_cases same : c = separator
    · simp [same, ih]
    · simp only [same, if_false, ih]
      cases pieces : splitOn separator left with
      | nil => exact absurd pieces (splitOn_ne_nil separator left)
      | cons piece rest => rfl

theorem not_mem_of_mem_splitOn {separator : Char} {text piece : List Char}
    (member : piece ∈ splitOn separator text) : separator ∉ piece := by
  induction text generalizing piece with
  | nil =>
    rw [List.mem_singleton.1 member]
    exact List.not_mem_nil
  | cons c text ih =>
    simp only [splitOn] at member
    split at member
    · rcases List.mem_cons.1 member with rfl | inside
      · exact List.not_mem_nil
      · exact ih inside
    · next differs =>
      split at member
      · rw [List.mem_singleton.1 member]
        simpa using Ne.symm differs
      · next first rest pieces =>
        rcases List.mem_cons.1 member with rfl | inside
        · intro found
          rcases List.mem_cons.1 found with same | within
          · exact differs same.symm
          · exact ih (pieces ▸ List.mem_cons_self) within
        · exact ih (pieces ▸ List.mem_cons_of_mem _ inside)

/-- The last piece is what stands behind the last separator. -/
theorem getLast?_splitOn_append (separator : Char) (left : List Char) {right : List Char}
    (absent : separator ∉ right) :
    ∃ lead front, splitOn separator (left ++ right) = lead ++ [front ++ right] := by
  induction left with
  | nil => exact ⟨[], [], by simp [splitOn_of_not_mem absent]⟩
  | cons c left ih =>
    obtain ⟨lead, front, split⟩ := ih
    simp only [List.cons_append, splitOn, split]
    by_cases same : c = separator
    · exact ⟨[] :: lead, front, by simp [same]⟩
    · cases lead with
      | nil => exact ⟨[], c :: front, by simp [same]⟩
      | cons piece lead => exact ⟨(c :: piece) :: lead, front, by simp [same]⟩

end Text

namespace FileTree
open Text
open FileNode (Plain)

def isIdle (segment : List Char) : Bool :=
  segment.isEmpty || segment = ['.']

/-- A segment without a separator is idle, leads up or is a plain name. -/
theorem plain_of_segment {segment : List Char} (whole : '/' ∉ segment) (named : isIdle segment = false)
    (notParent : segment ≠ ['.', '.']) : Plain (String.ofList segment) := by
  simp only [isIdle, Bool.or_eq_false_iff, decide_eq_false_iff_not] at named
  refine ⟨?_, ?_, ?_, ?_⟩ <;> rw [String.toList_ofList]
  · simpa using named.1
  · exact whole
  · exact named.2
  · exact notParent

def settle : List String → List (List Char) → List String
  | current, [] => current
  | current, segment :: segments =>
    if segment.isEmpty || segment = ['.'] then settle current segments
    else if segment = ['.', '.'] then settle current.dropLast segments
    else settle (current ++ [String.ofList segment]) segments

def placeFrom (workingDirectory : List String) (path : Path) : List String :=
  settle (if path.isAbsolute then [] else workingDirectory) (splitOn '/' path.text.toList)

def place (tree : FileTree) (path : Path) : List String :=
  placeFrom tree.workingDirectory path

theorem settle_append (current : List String) (first second : List (List Char)) :
    settle current (first ++ second) = settle (settle current first) second := by
  induction first generalizing current with
  | nil => rfl
  | cons segment first ih =>
    simp only [List.cons_append, settle]
    split
    · exact ih current
    · split
      · exact ih current.dropLast
      · exact ih _

theorem settle_of_idle (current : List String) {pieces : List (List Char)}
    (idle : ∀ piece ∈ pieces, piece.isEmpty = true) : settle current pieces = current := by
  induction pieces with
  | nil => rfl
  | cons piece pieces ih =>
    simp only [settle, idle piece List.mem_cons_self, Bool.true_or, if_true]
    exact ih fun other member => idle other (List.mem_cons_of_mem _ member)

/-- The segments of a path are the pieces of its text without the empty ones at the end. -/
theorem splitOn_eq_segments (path : Path) :
    ∃ idle, splitOn '/' path.text.toList = segments path ++ idle ∧
      ∀ piece ∈ idle, piece.isEmpty = true := by
  let reversed := (splitOn '/' path.text.toList).reverse
  refine ⟨(reversed.takeWhile List.isEmpty).reverse, ?_, ?_⟩
  · have cut : reversed.takeWhile List.isEmpty ++ reversed.dropWhile List.isEmpty = reversed :=
      List.takeWhile_append_dropWhile
    have back := congrArg List.reverse cut
    rw [List.reverse_append, List.reverse_reverse] at back
    exact back.symm
  · intro piece member
    exact List.all_eq_true.1 List.all_takeWhile piece (List.mem_reverse.1 member)

theorem settle_segments (current : List String) (path : Path) :
    settle current (segments path) = settle current (splitOn '/' path.text.toList) := by
  obtain ⟨idle, parts, isIdle⟩ := splitOn_eq_segments path
  rw [parts, settle_append]
  exact (settle_of_idle _ isIdle).symm

theorem settle_plain {name : String} (plain : Plain name) (current : List String) :
    settle current [name.toList] = current ++ [name] := by
  have nonempty : name.toList.isEmpty = false := by
    simpa using plain.nonempty
  simp [settle, nonempty, plain.notCurrent, plain.notParent]

theorem isAbsolute_append {base : Path} (nonempty : base.text.toList ≠ []) (rest : String) :
    (Path.mk (base.text ++ rest)).isAbsolute = base.isAbsolute := by
  obtain ⟨c, chars, same⟩ := List.exists_cons_of_ne_nil nonempty
  simp [Path.isAbsolute, same]

/-- A relative path goes on from where its base leads. -/
theorem placeFrom_join (workingDirectory : List String) (base : Path) {path : Path}
    (relative : path.isAbsolute = false) :
    placeFrom workingDirectory (base.join path) =
      settle (placeFrom workingDirectory base) (splitOn '/' path.text.toList) := by
  unfold Path.join
  simp only [relative, Bool.false_eq_true, if_false]
  split
  · next last =>
    have empty : base.text.toList = [] := List.getLast?_eq_none_iff.1 last
    have started : placeFrom workingDirectory base = workingDirectory := by
      simp [placeFrom, Path.isAbsolute, empty, splitOn, settle]
    rw [started, placeFrom, relative]
    rfl
  · next last =>
    obtain ⟨front, split⟩ := List.getLast?_eq_some_iff.1 last
    rw [placeFrom, placeFrom, isAbsolute_append (by simp [split]), String.toList_append, split,
      List.append_assoc, List.singleton_append, splitOn_append, splitOn_append, settle_append,
      settle_append]
    rfl
  · next c _ last =>
    have nonempty : base.text.toList ≠ [] := by
      intro empty
      rw [empty] at last
      cases last
    rw [String.append_assoc, placeFrom, placeFrom, isAbsolute_append nonempty,
      String.toList_append, String.toList_append]
    show settle _ (splitOn '/' (base.text.toList ++ '/' :: path.text.toList)) = _
    rw [splitOn_append, settle_append]

theorem Plain.isAbsolute_eq {name : String} (plain : Plain name) : (Path.mk name).isAbsolute = false := by
  cases chars : name.toList with
  | nil => exact absurd chars plain.nonempty
  | cons c rest =>
    have differs : c ≠ '/' := by
      rintro rfl
      exact plain.whole (chars ▸ List.mem_cons_self)
    simp [Path.isAbsolute, chars, differs]

/-- A plain name behind a path is a further name behind its place. -/
theorem placeFrom_join_plain (workingDirectory : List String) (base : Path) {name : String}
    (plain : Plain name) :
    placeFrom workingDirectory (base.join ⟨name⟩) = placeFrom workingDirectory base ++ [name] := by
  rw [placeFrom_join workingDirectory base (Plain.isAbsolute_eq plain), splitOn_of_not_mem plain.whole,
    settle_plain plain]

/-- Plain names behind a path have places of their own. -/
theorem placeFrom_join_plain_inj (workingDirectory : List String) (base : Path) {one other : String}
    (plainOne : Plain one) (plainOther : Plain other) :
    placeFrom workingDirectory (base.join ⟨one⟩) = placeFrom workingDirectory (base.join ⟨other⟩) ↔
      one = other := by
  rw [placeFrom_join_plain _ _ plainOne, placeFrom_join_plain _ _ plainOther, List.append_cancel_left_eq,
    List.singleton_inj]

def EndsIn (extension : String) (names : List String) : Prop :=
  ∃ lead last front, names = lead ++ [last] ∧ last.toList = front ++ '.' :: extension.toList

theorem EndsIn.last_eq {extension : String} {names : List String} (ends : EndsIn extension names) :
    ∃ name front, names.getLast? = some name ∧ name.toList = front ++ '.' :: extension.toList := by
  obtain ⟨lead, last, front, rfl, text⟩ := ends
  exact ⟨last, front, by simp, text⟩

structure Suffix (extension : String) : Prop where
  nonempty : extension.toList ≠ []
  noSlash : '/' ∉ extension.toList
  noDot : '.' ∉ extension.toList

theorem Suffix.plain {extension : String} (suffix : Suffix extension) {name : String}
    (whole : '/' ∉ name.toList) : Plain (name ++ "." ++ extension) := by
  have chars : (name ++ "." ++ extension).toList = name.toList ++ '.' :: extension.toList := by
    simp [String.toList_append]
  obtain ⟨c, rest, text⟩ := List.exists_cons_of_ne_nil suffix.nonempty
  have notDot : c ≠ '.' := by
    rintro rfl
    exact suffix.noDot (text ▸ List.mem_cons_self)
  refine ⟨by simp, ?_, ?_, ?_⟩
  · rw [chars]
    simp [whole, suffix.noSlash]
  · rw [chars, text]
    intro same
    have := congrArg List.length same
    simp at this
    omega
  · rw [chars, text]
    intro same
    cases stem : name.toList with
    | nil => rw [stem] at same; simp [notDot] at same
    | cons first others =>
      rw [stem] at same
      have := congrArg List.length same
      simp at this
      omega

theorem Suffix.settle_endsIn {extension : String} (suffix : Suffix extension) (stem : List Char)
    (current : List String) :
    EndsIn extension (settle current (splitOn '/' (stem ++ '.' :: extension.toList))) := by
  have absent : '/' ∉ '.' :: extension.toList := by
    simp [suffix.noSlash]
  obtain ⟨lead, front, split⟩ := getLast?_splitOn_append '/' stem absent
  rw [split, settle_append]
  obtain ⟨c, rest, text⟩ := List.exists_cons_of_ne_nil suffix.nonempty
  have notDot : c ≠ '.' := by
    rintro rfl
    exact suffix.noDot (text ▸ List.mem_cons_self)
  have notCurrent : front ++ '.' :: extension.toList ≠ ['.'] := by
    intro same
    have := congrArg List.length same
    simp [text] at this
    omega
  have notParent : front ++ '.' :: extension.toList ≠ ['.', '.'] := by
    rw [text]
    intro same
    cases front with
    | nil => simp [notDot] at same
    | cons first others =>
      have := congrArg List.length same
      simp at this
      omega
  refine ⟨settle current lead, String.ofList (front ++ '.' :: extension.toList), front, ?_, by simp⟩
  simp [settle, notCurrent, notParent]

/-- The place of a path behind a directory, the extension at its end, ends in the extension. -/
theorem Suffix.placeFrom_endsIn {extension : String} (suffix : Suffix extension)
    (workingDirectory : List String) (base : Path) (stem : String) :
    EndsIn extension (placeFrom workingDirectory (base.join ⟨stem ++ "." ++ extension⟩)) := by
  have chars : (stem ++ "." ++ extension).toList = stem.toList ++ '.' :: extension.toList := by
    simp [String.toList_append]
  by_cases absolute : (Path.mk (stem ++ "." ++ extension)).isAbsolute = true
  · rw [Path.join, if_pos absolute, placeFrom]
    show EndsIn extension (settle _ (splitOn '/' (stem ++ "." ++ extension).toList))
    rw [chars]
    exact suffix.settle_endsIn _ _
  · rw [placeFrom_join workingDirectory base (by simpa using absolute)]
    show EndsIn extension (settle _ (splitOn '/' (stem ++ "." ++ extension).toList))
    rw [chars]
    exact suffix.settle_endsIn _ _

theorem EndsIn.unique {first second : String} (left : Suffix first) (right : Suffix second)
    {names : List String} (endsFirst : EndsIn first names) (endsSecond : EndsIn second names) :
    first = second := by
  obtain ⟨name, front, last, text⟩ := endsFirst.last_eq
  obtain ⟨other, front', last', text'⟩ := endsSecond.last_eq
  obtain rfl : name = other := by
    rw [last] at last'
    exact Option.some.inj last'
  rw [text] at text'
  have reversed := congrArg (List.takeWhile (· ≠ '.') ∘ List.reverse) text'
  have keeps : ∀ {chars : List Char}, '.' ∉ chars → ∀ front : List Char,
      (front ++ '.' :: chars).reverse.takeWhile (· ≠ '.') = chars.reverse := by
    intro chars absent front
    rw [List.reverse_append, List.reverse_cons, List.append_assoc]
    rw [List.takeWhile_append_of_pos (fun c member => by
      simp only [ne_eq, decide_not, Bool.not_eq_true', decide_eq_false_iff_not]
      rintro rfl
      exact absent (List.mem_reverse.1 member))]
    simp
  simp only [Function.comp_apply] at reversed
  rw [keeps left.noDot, keeps right.noDot] at reversed
  exact String.toList_injective (List.reverse_injective reversed)

end FileTree
end ContractBuild
