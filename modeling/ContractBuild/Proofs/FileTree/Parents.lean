import Mathlib.Data.List.TakeWhile
import ContractBuild.Proofs.FileTree.Places

/-!
The parent of a path has the path's segments without the last one, apart from segments that lead
nowhere. Its text is a part in front of the path's text.
-/
namespace ContractBuild
open Text FileTree

namespace Path

def named (text : List Char) : List (List Char) :=
  (splitOn '/' text).filter (!isIdle ·)

theorem filter_segments (path : Path) :
    (segments path).filter (!isIdle ·) = named path.text.toList := by
  obtain ⟨idle, parts, empty⟩ := splitOn_eq_segments path
  have none : idle.filter (!isIdle ·) = [] := by
    refine List.filter_eq_nil_iff.2 fun piece member => ?_
    simp [isIdle, List.isEmpty_iff.1 (empty piece member)]
  rw [named, parts, List.filter_append, none, List.append_nil]

theorem named_append (left right : List Char) :
    named (left ++ '/' :: right) = named left ++ named right := by
  rw [named, splitOn_append, List.filter_append]
  rfl

@[simp] theorem named_nil : named [] = [] := rfl

@[simp] theorem named_dot : named ['.'] = [] := rfl

theorem named_slash_cons (text : List Char) : named ('/' :: text) = named text :=
  named_append [] text

theorem named_append_slash (text : List Char) : named (text ++ ['/']) = named text := by
  rw [named_append]
  exact List.append_nil _

theorem named_dropIdle (reversed : List Char) :
    named (dropIdle reversed).reverse = named reversed.reverse := by
  fun_induction dropIdle reversed with
  | case1 rest ih =>
    rw [ih, List.reverse_cons, named_append_slash]
  | case2 => rfl
  | case3 rest ih =>
    rw [ih, List.reverse_cons, List.reverse_cons, List.append_assoc, List.singleton_append,
      named_append, named_dot, List.append_nil]
  | case4 => rfl

/-- What `dropIdle` leaves ends in a segment that leads somewhere. -/
theorem dropIdle_segment (reversed : List Char) (nonempty : dropIdle reversed ≠ []) :
    ∃ segment, dropIdle reversed = segment ++ dropSegment (dropIdle reversed) ∧
      '/' ∉ segment ∧ isIdle segment.reverse = false := by
  fun_induction dropIdle reversed with
  | case1 rest ih => exact ih nonempty
  | case2 => exact absurd rfl nonempty
  | case3 rest ih => exact ih nonempty
  | case4 body notSlash notDot notDotSlash =>
    refine ⟨body.takeWhile (· ≠ '/'), List.takeWhile_append_dropWhile.symm, ?_, ?_⟩
    · intro member
      have := List.mem_takeWhile_imp member
      simp at this
    · cases body with
      | nil => exact absurd rfl nonempty
      | cons c rest =>
        have differs : c ≠ '/' := by
          rintro rfl
          exact notSlash rest rfl
        have taken : (c :: rest).takeWhile (· ≠ '/') = c :: rest.takeWhile (· ≠ '/') := by
          simp [differs]
        rw [taken, isIdle]
        simp only [List.reverse_cons, Bool.or_eq_false_iff, decide_eq_false_iff_not]
        refine ⟨by simp, ?_⟩
        intro same
        have backwards := congrArg List.reverse same
        simp only [List.reverse_append, List.reverse_reverse, List.reverse_singleton,
          List.singleton_append, List.cons.injEq] at backwards
        obtain ⟨rfl, none⟩ := backwards
        cases rest with
        | nil => exact notDot rfl
        | cons next others =>
          by_cases slash : next = '/'
          · subst slash
            exact notDotSlash others rfl
          · simp [slash] at none

theorem dropIdle_suffix (reversed : List Char) : dropIdle reversed <:+ reversed := by
  fun_induction dropIdle reversed with
  | case1 rest ih => exact ih.trans (List.suffix_cons _ _)
  | case2 => exact List.nil_suffix
  | case3 rest ih => exact ih.trans ((List.suffix_cons _ _).trans (List.suffix_cons _ _))
  | case4 => exact List.suffix_refl _

theorem dropSegment_suffix (reversed : List Char) : dropSegment reversed <:+ reversed :=
  List.dropWhile_suffix _

theorem named_dropSegment {reversed segment : List Char}
    (split : reversed = segment ++ dropSegment reversed) (whole : '/' ∉ segment)
    (leads : isIdle segment.reverse = false) :
    named reversed.reverse = named (dropSegment reversed).reverse ++ [segment.reverse] := by
  have wholeReverse : '/' ∉ segment.reverse := by simpa using whole
  have single : named segment.reverse = [segment.reverse] := by
    rw [named, splitOn_of_not_mem wholeReverse]
    simp [leads]
  cases dropped : dropSegment reversed with
  | nil =>
    rw [dropped, List.append_nil] at split
    rw [split, single]
    rfl
  | cons c rest =>
    have slash : c = '/' := by
      have stopped := List.head?_dropWhile_not (· ≠ '/') reversed
      rw [show reversed.dropWhile (· ≠ '/') = c :: rest from dropped] at stopped
      simpa using stopped
    subst slash
    rw [dropped] at split
    rw [split, List.reverse_append, List.reverse_cons, List.append_assoc, List.singleton_append,
      named_append, single, named_append_slash]

/-- What stands in front of the body of a path names nothing. -/
theorem front_spec (text : List Char) :
    ∃ front body, text.take (frontLength text) = front ∧ text.drop front.length = body ∧
      text = front ++ body ∧ named body = named text ∧
      (∀ part, part <+: body → named (front ++ part) = named part) ∧
      (front = [] → text.head? ≠ some '/') := by
  unfold frontLength
  split
  · next body =>
    exact ⟨['/'], body, rfl, rfl, rfl, (named_slash_cons body).symm,
      fun part _ => named_slash_cons part, fun empty => absurd empty (List.cons_ne_nil _ _)⟩
  · refine ⟨['.'], [], rfl, rfl, rfl, rfl, ?_, fun empty => absurd empty (List.cons_ne_nil _ _)⟩
    intro part isPart
    rw [List.prefix_nil.1 isPart]
    rfl
  · next body =>
    refine ⟨['.'], '/' :: body, rfl, rfl, rfl, (named_slash_cons body).trans
      (named_append ['.'] body).symm, ?_, fun empty => absurd empty (List.cons_ne_nil _ _)⟩
    intro part isPart
    cases part with
    | nil => rfl
    | cons c others =>
      obtain ⟨rfl, _⟩ := List.cons_prefix_cons.1 isPart
      exact (named_append ['.'] others).trans (named_slash_cons others).symm
  · next notSlash _ _ =>
    refine ⟨[], text, rfl, rfl, rfl, rfl, fun part _ => rfl, ?_⟩
    intro _ slash
    obtain ⟨body, rfl⟩ := List.head?_eq_some_iff.1 slash
    exact notSlash body rfl

/-- The parent of a path that names something. -/
theorem parent_spec {path : Path} {lead : List (List Char)} {last : List Char}
    (split : named path.text.toList = lead ++ [last]) :
    ∃ parent, path.parent? = some parent ∧ named parent.text.toList = lead ∧
      (parent.text.toList ≠ [] → parent.isAbsolute = path.isAbsolute) ∧
      (parent.text.toList = [] → path.isAbsolute = false) ∧
      parent.text.toList <+: path.text.toList := by
  obtain ⟨front, body, isFront, isBody, whole, namedBody, namedPart, noFront⟩ :=
    front_spec path.text.toList
  rw [split] at namedBody
  have namedEnded : named (dropIdle body.reverse).reverse = lead ++ [last] := by
    rw [named_dropIdle, List.reverse_reverse, namedBody]
  have nonempty : dropIdle body.reverse ≠ [] := by
    intro empty
    rw [empty] at namedEnded
    simp at namedEnded
  obtain ⟨segment, cut, noSlash, leads⟩ := dropIdle_segment body.reverse nonempty
  -- the body without its last segment
  let rest := (dropIdle (dropSegment (dropIdle body.reverse))).reverse
  have shortened : rest <+: body := by
    have suffix : dropIdle (dropSegment (dropIdle body.reverse)) <:+ body.reverse :=
      ((dropIdle_suffix _).trans (dropSegment_suffix _)).trans (dropIdle_suffix _)
    rwa [← List.reverse_suffix, List.reverse_reverse]
  have namedRest : named rest = lead := by
    have parts := named_dropSegment cut noSlash leads
    rw [namedEnded] at parts
    rw [named_dropIdle]
    exact (List.append_inj_left' parts rfl).symm
  have isPrefix : front ++ rest <+: path.text.toList := by
    rw [whole]
    exact (List.prefix_append_right_inj front).2 shortened
  refine ⟨⟨String.ofList (front ++ rest)⟩, ?_, ?_, ?_, ?_, ?_⟩
  · unfold parent?
    dsimp only
    rw [isFront, isBody]
    cases shape : dropIdle body.reverse with
    | nil => exact absurd shape nonempty
    | cons c others => simp only [rest, shape]
  · rw [String.toList_ofList, namedPart rest shortened, namedRest]
  · intro filled
    rw [String.toList_ofList] at filled
    obtain ⟨tail, same⟩ := isPrefix
    obtain ⟨c, others, shape⟩ := List.exists_cons_of_ne_nil filled
    rw [isAbsolute, isAbsolute, String.toList_ofList, ← same, shape]
    rfl
  · intro none
    rw [String.toList_ofList] at none
    simpa [isAbsolute] using noFront (List.append_eq_nil_iff.1 none).1
  · rwa [String.toList_ofList]

/-! File names -/

theorem settle_filter (current : List String) (segments : List (List Char)) :
    settle current (segments.filter (!isIdle ·)) = settle current segments := by
  induction segments generalizing current with
  | nil => rfl
  | cons segment segments ih =>
    by_cases idle : isIdle segment = true
    · rw [List.filter_cons_of_neg (by simp [idle]), settle,
        if_pos (show (segment.isEmpty || decide (segment = ['.'])) = true from idle)]
      exact ih current
    · rw [List.filter_cons_of_pos (by simp [idle]), settle, settle]
      split
      · exact ih current
      · split
        · exact ih current.dropLast
        · exact ih _

theorem placeFrom_eq_named (workingDirectory : List String) (path : Path) :
    placeFrom workingDirectory path =
      settle (if path.isAbsolute then [] else workingDirectory) (named path.text.toList) :=
  (settle_filter _ _).symm

theorem segmentComponent?_eq (segment : List Char) :
    segmentComponent? segment =
      if isIdle segment then none
      else if segment = ['.', '.'] then some .parent else some (.normal (String.ofList segment)) :=
  rfl

theorem named_of_fileName? {path : Path} {name : String} (isName : path.fileName? = some name) :
    ∃ lead, named path.text.toList = lead ++ [name.toList] ∧ FileNode.Plain name := by
  have inside : ∀ segments : List (List Char), segments.filterMap segmentComponent? =
      (segments.filter (!isIdle ·)).filterMap segmentComponent? := by
    intro segments
    rw [List.filterMap_filter]
    congr 1
    funext segment
    by_cases idle : isIdle segment = true <;> simp [segmentComponent?_eq, idle]
  unfold fileName? at isName
  cases last : path.components.getLast? with
  | none => rw [last] at isName; cases isName
  | some component =>
    rw [last] at isName
    cases component with
    | root => cases isName
    | current => cases isName
    | parent => cases isName
    | normal other =>
      cases isName
      unfold components at last
      dsimp only at last
      rw [inside] at last
      rcases List.eq_nil_or_concat (named path.text.toList) with none | ⟨lead, segment, split⟩
      · rw [show (splitOn '/' path.text.toList).filter (!isIdle ·) = [] from none] at last
        simp only [List.filterMap_nil, List.append_nil] at last
        split at last
        · cases last
        · split at last <;> cases last
      · rw [List.concat_eq_append] at split
        have member : segment ∈ named path.text.toList := by simp [split]
        obtain ⟨piece, leads⟩ := List.mem_filter.1 member
        have whole := not_mem_of_mem_splitOn piece
        have named : isIdle segment = false := by simpa using leads
        rw [show (splitOn '/' path.text.toList).filter (!isIdle ·) = lead ++ [segment] from split,
          List.filterMap_append, ← List.append_assoc] at last
        by_cases up : segment = ['.', '.']
        · have shape : [segment].filterMap segmentComponent? = [.parent] := by
            rw [up]
            rfl
          rw [shape, List.getLast?_concat, Option.some.injEq] at last
          cases last
        · have shape : [segment].filterMap segmentComponent? = [.normal (String.ofList segment)] := by
            simp [segmentComponent?_eq, named, up]
          rw [shape, List.getLast?_concat, Option.some.injEq, Component.normal.injEq] at last
          subst last
          exact ⟨lead, by rw [split, String.toList_ofList], plain_of_segment whole named up⟩

theorem cutFirst?_eq_some {separator : Char} {text before after : List Char}
    (cut : cutFirst? separator text = some (before, after)) : text = before ++ separator :: after := by
  induction text generalizing before with
  | nil => cases cut
  | cons c text ih =>
    rw [cutFirst?] at cut
    split at cut
    · next same =>
      cases cut
      rw [same]
      rfl
    · obtain ⟨⟨first, rest⟩, found, same⟩ := Option.map_eq_some_iff.1 cut
      cases same
      rw [ih found]
      rfl

theorem cutLast?_eq_some {separator : Char} {text before after : List Char}
    (cut : cutLast? separator text = some (before, after)) : text = before ++ separator :: after := by
  obtain ⟨⟨last, first⟩, found, same⟩ := Option.map_eq_some_iff.1 cut
  cases same
  have whole := congrArg List.reverse (cutFirst?_eq_some found)
  simpa using whole

theorem splitName_snd {name extension : String} (split : (splitName name).2 = some extension) :
    ∃ front, name.toList = front ++ '.' :: extension.toList := by
  unfold splitName at split
  split at split
  · cases split
  · cases split
  · next stem rest _ cut =>
    cases split
    exact ⟨stem, by rw [String.toList_ofList]; exact cutLast?_eq_some cut⟩

theorem cutFirst?_append {separator : Char} {before : List Char} (absent : separator ∉ before) (after : List Char) :
    cutFirst? separator (before ++ separator :: after) = some (before, after) := by
  induction before with
  | nil => simp [cutFirst?]
  | cons c before ih =>
    obtain ⟨differs, rest⟩ := not_or.1 fun member => absent (List.mem_cons.2 member)
    simp [cutFirst?, Ne.symm differs, ih rest]

theorem cutLast?_append {separator : Char} {after : List Char} (absent : separator ∉ after) (before : List Char) :
    cutLast? separator (before ++ separator :: after) = some (before, after) := by
  have backwards := cutFirst?_append (mt List.mem_reverse.1 absent) before.reverse
  simp [cutLast?, backwards]

theorem splitName_dotted {stem extension : String} (filled : stem ≠ "") (noDot : '.' ∉ extension.toList) :
    splitName (stem ++ "." ++ extension) = (stem, some extension) := by
  have text : (stem ++ "." ++ extension).toList = stem.toList ++ '.' :: extension.toList := by
    simp [String.toList_append]
  obtain ⟨c, rest, chars⟩ := List.exists_cons_of_ne_nil (mt String.toList_eq_nil_iff.1 filled)
  unfold splitName
  rw [text, cutLast?_append noDot, chars]
  dsimp only
  rw [← chars, String.ofList_toList, String.ofList_toList]

theorem eq_of_splitName {name stem extension : String} (split : splitName name = (stem, some extension)) :
    stem ≠ "" ∧ name = stem ++ "." ++ extension := by
  unfold splitName at split
  split at split
  · cases split
  · cases split
  · next front rest filled cut =>
    cases split
    refine ⟨?_, String.toList_injective ?_⟩
    · intro empty
      have chars := congrArg String.toList empty
      rw [String.toList_ofList] at chars
      exact filled chars
    · rw [cutLast?_eq_some cut]
      simp [String.toList_append]

/-- The last name of a path is the plain name behind a directory. -/
theorem fileName?_join {directory : Path} {name : String} (plain : FileNode.Plain name) :
    (directory.join ⟨name⟩).fileName? = some name := by
  have ends : ∃ lead, splitOn '/' (directory.join ⟨name⟩).text.toList = lead ++ [name.toList] := by
    have single : splitOn '/' name.toList = [name.toList] := splitOn_of_not_mem plain.whole
    unfold join
    rw [Plain.isAbsolute_eq plain, if_neg Bool.false_ne_true]
    split
    · exact ⟨[], single⟩
    · next last =>
      obtain ⟨front, text⟩ := List.getLast?_eq_some_iff.1 last
      refine ⟨splitOn '/' front, ?_⟩
      rw [String.toList_append, text, List.append_assoc, List.singleton_append, splitOn_append, single]
    · refine ⟨splitOn '/' directory.text.toList, ?_⟩
      rw [String.append_assoc, String.toList_append, String.toList_append]
      show splitOn '/' (directory.text.toList ++ '/' :: name.toList) = _
      rw [splitOn_append, single]
  obtain ⟨lead, split⟩ := ends
  have leads : isIdle name.toList = false := by
    simpa [isIdle] using ⟨by simpa using plain.nonempty, plain.notCurrent⟩
  have last : segmentComponent? name.toList = some (.normal name) := by
    rw [segmentComponent?_eq, leads, if_neg plain.notParent, String.ofList_toList]
    rfl
  rw [fileName?, components, split, List.filterMap_append, List.filterMap_cons, last, ← List.append_assoc,
    List.filterMap_nil, List.getLast?_concat]

/-- The stem of a file has no separator in it. -/
theorem fileStem?_whole {path : Path} {stem : String} (isStem : path.fileStem? = some stem) :
    '/' ∉ stem.toList := by
  obtain ⟨name, isName, rfl⟩ := Option.map_eq_some_iff.1 isStem
  obtain ⟨_, _, plain⟩ := named_of_fileName? isName
  unfold splitName
  split
  · exact plain.whole
  · exact plain.whole
  · next stem rest _ cut =>
    intro inside
    rw [String.toList_ofList] at inside
    exact plain.whole (cutLast?_eq_some cut ▸ List.mem_append_left _ inside)

/-- A path with an extension leads to a place that ends in it. -/
theorem placeFrom_of_extension? (workingDirectory : List String) {path : Path} {extension : String}
    (has : path.extension? = some extension) : EndsIn extension (placeFrom workingDirectory path) := by
  obtain ⟨name, isName, split⟩ := Option.bind_eq_some_iff.1 has
  obtain ⟨lead, named, plain⟩ := named_of_fileName? isName
  obtain ⟨front, text⟩ := splitName_snd split
  rw [placeFrom_eq_named, named, settle_append, settle_plain plain]
  exact ⟨_, name, front, rfl, text⟩

end Path
end ContractBuild
