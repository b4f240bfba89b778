import ContractBuild.Proofs.FileTree.Spelling

/-!
Paths that are spelled anew. Two paths that differ in nothing but segments that lead nowhere lead to the same
node, as long as both ask for the same at their end. The parent of a path with a name behind it is such a
path: the path without the idle segments at its end.
-/
namespace ContractBuild
open Text FileTree
open FileNode (Plain)

namespace Path

/-! Joined paths -/

theorem isAbsolute_join (base path : Path) : (base.join path).isAbsolute = (path.isAbsolute || base.isAbsolute) := by
  cases absolute : path.isAbsolute with
  | true => rw [join, if_pos absolute, absolute, Bool.true_or]
  | false =>
    rw [join_of_relative base absolute, Bool.false_or]
    by_cases empty : base.text.toList = []
    · have blank : base.text = "" := String.toList_eq_nil_iff.1 empty
      simpa [blank, separator, isAbsolute] using absolute
    · rw [String.append_assoc, isAbsolute_append empty]

theorem named_join_of_relative (base : Path) {path : Path} (relative : path.isAbsolute = false) :
    named (base.join path).text.toList = named base.text.toList ++ named path.text.toList := by
  rw [join_of_relative base relative, separator]
  split
  · next ready =>
    rw [String.append_empty, String.toList_append]
    rcases ready with empty | closed
    · simp [empty]
    · obtain ⟨front, text⟩ := List.getLast?_eq_some_iff.1 closed
      rw [text, List.append_assoc, List.singleton_append, named_append, named_append_slash]
  · rw [String.append_assoc, String.toList_append, String.toList_append]
    exact named_append _ _

/-- The end of a joined path is that of the path behind. -/
theorem asksDirectory_join (base path : Path) : asksDirectory (base.join path) = asksDirectory path := by
  have behind : ∀ front text, endsIdle (splitOn '/' (front ++ '/' :: text)) = endsIdle (splitOn '/' text) := by
    intro front text
    rw [endsIdle, endsIdle, splitOn_append, List.getLast?_append_of_ne_nil _ (splitOn_ne_nil '/' text)]
  cases absolute : path.isAbsolute with
  | true => rw [join, if_pos absolute]
  | false =>
    rw [join_of_relative base absolute, separator]
    split
    · next ready =>
      rw [String.append_empty, asksDirectory, String.toList_append]
      rcases ready with empty | closed
      · rw [empty]
        rfl
      · obtain ⟨front, text⟩ := List.getLast?_eq_some_iff.1 closed
        rw [text, List.append_assoc, List.singleton_append]
        exact behind front path.text.toList
    · rw [String.append_assoc, asksDirectory, String.toList_append, String.toList_append]
      exact behind _ _

/-! Spelled anew -/

structure Respells (one other : Path) : Prop where
  absolute : one.isAbsolute = other.isAbsolute
  names : named one.text.toList = named other.text.toList

variable {one other : Path}

theorem Respells.symm (respells : one.Respells other) : other.Respells one :=
  ⟨respells.absolute.symm, respells.names.symm⟩

theorem Respells.join (respells : one.Respells other) (path : Path) : (one.join path).Respells (other.join path) := by
  refine ⟨by rw [isAbsolute_join, isAbsolute_join, respells.absolute], ?_⟩
  cases absolute : path.isAbsolute with
  | true => rw [Path.join, Path.join, if_pos absolute, if_pos absolute]
  | false => rw [named_join_of_relative one absolute, named_join_of_relative other absolute, respells.names]

theorem named_descend (base : Path) {names : List String} (plain : ∀ name ∈ names, Plain name) :
    named (base.descend names).text.toList = named base.text.toList ++ names.map String.toList := by
  induction names generalizing base with
  | nil => exact (List.append_nil _).symm
  | cons name names ih =>
    obtain ⟨first, others⟩ := List.forall_mem_cons.1 plain
    show named ((base.join ⟨name⟩).descend names).text.toList = _
    rw [ih _ others, named_join base first, List.append_assoc]
    rfl

/-- The names behind respelt paths are told from the paths. -/
theorem Respells.eq_of_descend (respells : one.Respells other) {names more : List String}
    (plain : ∀ name ∈ names, Plain name) (plainMore : ∀ name ∈ more, Plain name)
    (same : (one.descend names).Respells (other.descend more)) : names = more := by
  have listed := same.names
  rw [named_descend _ plain, named_descend _ plainMore, respells.names, List.append_right_inj] at listed
  exact List.map_injective_iff.2 (fun _ _ => String.toList_injective) listed

theorem join_filled {base : Path} (filled : base.text.toList ≠ []) (path : Path) : (base.join path).text.toList ≠ [] := by
  cases absolute : path.isAbsolute with
  | true =>
    rw [Path.join, if_pos absolute]
    intro empty
    simp [isAbsolute, empty] at absolute
  | false =>
    rw [join_of_relative base absolute, String.toList_append, String.toList_append]
    simp [filled]

structure Alike (one other : Path) : Prop extends Respells one other where
  asks : asksDirectory one = asksDirectory other
  filled : one.text.toList ≠ []
  filledOther : other.text.toList ≠ []

theorem Alike.symm (alike : one.Alike other) : other.Alike one :=
  ⟨alike.toRespells.symm, alike.asks.symm, alike.filledOther, alike.filled⟩

theorem Respells.alike_join (respells : one.Respells other) {path : Path} (filled : (one.join path).text.toList ≠ [])
    (filledOther : (other.join path).text.toList ≠ []) : (one.join path).Alike (other.join path) :=
  ⟨respells.join path, by rw [asksDirectory_join, asksDirectory_join], filled, filledOther⟩

theorem Alike.descend (alike : one.Alike other) (names : List String) :
    (one.descend names).Alike (other.descend names) := by
  induction names generalizing one other with
  | nil => exact alike
  | cons name names ih =>
    exact ih (alike.alike_join (join_filled alike.filled _) (join_filled alike.filledOther _))

/-- Two spellings of one path lead to the same node. -/
theorem Alike.node_iff (alike : one.Alike other) (fits : Fits one) (fitsOther : Fits other) {tree : FileTree}
    {node : FileNode} : tree.node one = .ok node ↔ tree.node other = .ok node := by
  have started : tree.start one = tree.start other := by
    rw [FileTree.start, FileTree.start, alike.absolute]
  rw [node_eq_ok_iff, node_eq_ok_iff, started, alike.names, alike.asks]
  constructor
  · rintro ⟨-, -, found⟩
    exact ⟨alike.filledOther, fitsOther, found⟩
  · rintro ⟨-, -, found⟩
    exact ⟨alike.filled, fits, found⟩

/-! Components -/

def opening (path : Path) : List Component :=
  if path.isAbsolute then [.root]
  else if (splitOn '/' path.text.toList).head? = some ['.'] then [.current]
  else []

def steps (path : Path) : List Component :=
  (named path.text.toList).filterMap segmentComponent?

theorem components_eq (path : Path) : path.components = path.opening ++ path.steps := by
  have idle : ∀ segments : List (List Char), (segments.filter (!isIdle ·)).filterMap segmentComponent? =
      segments.filterMap segmentComponent? := by
    intro segments
    rw [List.filterMap_filter]
    congr 1
    funext segment
    by_cases idle : isIdle segment = true <;> simp [segmentComponent?_eq, idle]
  rw [steps, named, idle]
  rfl

theorem mem_steps {path : Path} {component : Component} (member : component ∈ path.steps) :
    component ≠ .root ∧ component ≠ .current := by
  obtain ⟨segment, -, given⟩ := List.mem_filterMap.1 member
  rw [segmentComponent?_eq] at given
  split at given
  · cases given
  · split at given <;> cases given <;> exact ⟨nofun, nofun⟩

/-- The file name is that of the last segment. -/
theorem Respells.fileName?_eq (respells : one.Respells other) : one.fileName? = other.fileName? := by
  have unnamed : ∀ path : Path, named path.text.toList = [] → path.fileName? = none := by
    intro path unnamed
    have parts : path.components = path.opening := by
      rw [components_eq, steps, unnamed, List.filterMap_nil, List.append_nil]
    rw [fileName?, parts, opening]
    by_cases absolute : path.isAbsolute = true <;>
      by_cases dotted : (splitOn '/' path.text.toList).head? = some ['.'] <;> simp [absolute, dotted]
  have ends : ∀ (path : Path) (lead : List (List Char)) (last : List Char), named path.text.toList = lead ++ [last] →
      path.components.getLast? = segmentComponent? last := by
    intro path lead last split
    have leads : last ∈ named path.text.toList := by simp [split]
    have notIdle : isIdle last = false := by simpa using (List.mem_filter.1 leads).2
    rw [components_eq, steps, split, List.filterMap_append, List.filterMap_cons, List.filterMap_nil,
      segmentComponent?_eq, notIdle, if_neg Bool.false_ne_true]
    by_cases up : last = ['.', '.'] <;> simp [up]
  rcases List.eq_nil_or_concat (named one.text.toList) with none | ⟨lead, last, split⟩
  · rw [unnamed one none, unnamed other (respells.names ▸ none)]
  · rw [List.concat_eq_append] at split
    rw [fileName?, fileName?, ends one lead last split, ends other lead last (respells.names ▸ split)]

/-! The end of a path -/

def trimmed (path : Path) : Path :=
  ⟨String.ofList (path.text.toList.take (frontLength path.text.toList) ++
    (dropIdle (path.text.toList.drop (frontLength path.text.toList)).reverse).reverse)⟩

theorem trimmed_empty : empty.trimmed = empty := by
  simp [trimmed, empty, dropIdle]

theorem dropIdle_of_leads {segment : List Char} (whole : '/' ∉ segment) (leads : isIdle segment = false)
    (rest : List Char) : dropIdle (segment ++ rest) = segment ++ rest := by
  cases segment with
  | nil => cases leads
  | cons c others =>
    have notSlash : c ≠ '/' := fun same => whole (same ▸ List.mem_cons_self)
    refine dropIdle.eq_4 _ (fun _ same => notSlash (List.cons.inj same).1) (fun same => ?_) (fun _ same => ?_)
    · obtain ⟨rfl, empty⟩ := List.cons.inj same
      rw [(List.append_eq_nil_iff.1 empty).1] at leads
      cases leads
    · obtain ⟨rfl, behind⟩ := List.cons.inj same
      cases others with
      | nil => cases leads
      | cons next more =>
        obtain ⟨rfl, -⟩ := List.cons.inj behind
        exact whole (by simp)

theorem dropSegment_of_whole {segment rest : List Char} (whole : '/' ∉ segment)
    (apart : rest = [] ∨ rest.head? = some '/') : dropSegment (segment ++ rest) = rest := by
  have passed : ∀ c ∈ segment, (decide (c ≠ '/')) = true :=
    fun c member => decide_eq_true fun same => whole (same ▸ member)
  rw [dropSegment, List.dropWhile_append_of_pos passed]
  rcases apart with rfl | slash
  · rfl
  · obtain ⟨more, rfl⟩ := List.head?_eq_some_iff.1 slash
    rfl

theorem frontLength_append {text : List Char} (filled : text ≠ []) {more : List Char}
    (behind : text = ['.'] → more.head? = some '/') : frontLength (text ++ more) = frontLength text := by
  match text with
  | [c] =>
    by_cases dot : c = '.'
    · subst dot
      obtain ⟨rest, rfl⟩ := List.head?_eq_some_iff.1 (behind rfl)
      rfl
    · by_cases slash : c = '/'
      · subst slash
        rfl
      · simp [frontLength, dot, slash]
  | c :: d :: rest =>
    by_cases dot : c = '.' <;> by_cases slash : c = '/' <;> by_cases next : d = '/' <;>
      simp_all [frontLength]

theorem frontLength_plain {name : String} (plain : Plain name) : frontLength name.toList = 0 := by
  unfold frontLength
  split
  · next body text => exact absurd (text ▸ List.mem_cons_self) plain.whole
  · next text => exact absurd text plain.notCurrent
  · next body text => exact absurd (text ▸ List.mem_cons_of_mem _ List.mem_cons_self) plain.whole
  · rfl

theorem frontLength_le (text : List Char) : frontLength text ≤ text.length := by
  unfold frontLength
  split <;> simp

/-- The parent of a name behind a path. -/
theorem parent?_join (path : Path) {name : String} (plain : Plain name) :
    (path.join ⟨name⟩).parent? = some path.trimmed := by
  let text := path.text.toList
  let body := text.drop (frontLength text)
  have whole : '/' ∉ name.toList.reverse := mt List.mem_reverse.1 plain.whole
  have leads : isIdle name.toList.reverse = false := by
    simpa [isIdle, List.reverse_eq_iff] using isIdle_of_plain plain
  have joined : (path.join ⟨name⟩).text.toList = text ++ ((separator text).toList ++ name.toList) := by
    rw [join_of_relative path (Plain.isAbsolute_eq plain), String.toList_append, String.toList_append,
      List.append_assoc]
  have front : frontLength (text ++ ((separator text).toList ++ name.toList)) = frontLength text := by
    by_cases empty : text = []
    · rw [empty]
      exact frontLength_plain plain
    · refine frontLength_append empty fun dot => ?_
      rw [dot]
      rfl
  have ready : separator text = "" ∨ separator text = "/" := by
    rw [separator]
    split <;> simp
  have apart : (separator text).toList.reverse ++ body.reverse = [] ∨
      ((separator text).toList.reverse ++ body.reverse).head? = some '/' := by
    rw [separator]
    split
    · next closed =>
      rcases closed with empty | closed
      · exact .inl (by simp [body, empty])
      · by_cases short : text.length ≤ frontLength text
        · exact .inl (by simp [body, short])
        · refine .inr ?_
          rw [String.toList_empty, List.reverse_nil, List.nil_append, List.head?_reverse, List.getLast?_drop,
            if_neg short, closed]
    · exact .inr rfl
  have rest : dropIdle ((separator text).toList.reverse ++ body.reverse) = dropIdle body.reverse := by
    rcases ready with none | slash
    · rw [none]
      rfl
    · rw [slash]
      exact dropIdle.eq_1 _
  have reversed : ((text ++ ((separator text).toList ++ name.toList)).drop (frontLength text)).reverse =
      name.toList.reverse ++ ((separator text).toList.reverse ++ body.reverse) := by
    rw [List.drop_append_of_le_length (frontLength_le text), List.reverse_append, List.reverse_append, List.append_assoc]
  have filled : name.toList.reverse ++ ((separator text).toList.reverse ++ body.reverse) ≠ [] := by
    simp [plain.nonempty]
  unfold parent?
  dsimp only
  rw [joined, front, List.take_append_of_le_length (frontLength_le text), List.length_take,
    Nat.min_eq_left (frontLength_le text), reversed, dropIdle_of_leads whole leads]
  split
  · next none => exact absurd none filled
  · rw [dropSegment_of_whole whole apart, rest]
    rfl

theorem head?_splitOn_slash {text : List Char} (relative : text.head? ≠ some '/') :
    (splitOn '/' text).head? = some ['.'] ↔ frontLength text = 1 := by
  match text with
  | [] => simp [splitOn, frontLength]
  | [c] =>
    have notSlash : c ≠ '/' := fun same => relative (by rw [same]; rfl)
    by_cases dot : c = '.' <;> simp [splitOn, frontLength, notSlash, dot]
  | c :: d :: rest =>
    have notSlash : c ≠ '/' := fun same => relative (by rw [same]; rfl)
    cases pieces : splitOn '/' rest with
    | nil => exact absurd pieces (splitOn_ne_nil '/' rest)
    | cons piece others =>
      by_cases dot : c = '.' <;> by_cases slash : d = '/' <;>
        simp [splitOn, frontLength, notSlash, dot, slash, pieces]

theorem opening_eq (path : Path) : path.opening =
    if path.isAbsolute then [.root] else if frontLength path.text.toList = 1 then [.current] else [] := by
  by_cases absolute : path.isAbsolute = true
  · rw [opening, if_pos absolute, if_pos absolute]
  · rw [opening, if_neg absolute, if_neg absolute]
    exact if_congr (head?_splitOn_slash fun slash => absolute (decide_eq_true slash)) rfl rfl

/-- What is kept of the body does not end in a segment that leads nowhere. -/
theorem text_trimmed (path : Path) : ∃ part, path.trimmed.text.toList =
    path.text.toList.take (frontLength path.text.toList) ++ part ∧
      part <+: path.text.toList.drop (frontLength path.text.toList) ∧ part ≠ ['.'] ∧
      named part = named (path.text.toList.drop (frontLength path.text.toList)) := by
  let body := path.text.toList.drop (frontLength path.text.toList)
  refine ⟨(dropIdle body.reverse).reverse, String.toList_ofList, ?_, fun dot => ?_, ?_⟩
  · rw [← List.reverse_suffix, List.reverse_reverse]
    exact dropIdle_suffix _
  · have last : dropIdle body.reverse = ['.'] := List.reverse_eq_iff.1 dot
    obtain ⟨segment, split, -, leads⟩ := dropIdle_segment body.reverse (last ▸ List.cons_ne_nil _ _)
    rw [last] at split
    rw [show segment = ['.'] by simpa [dropSegment] using split.symm] at leads
    cases leads
  · rw [named_dropIdle, List.reverse_reverse]

theorem frontLength_cases (text : List Char) : (∃ body, text = '/' :: body) ∨ text = ['.'] ∨
    (∃ body, text = '.' :: '/' :: body) ∨ frontLength text = 0 := by
  unfold frontLength
  split <;> simp

theorem frontLength_trimmed (path : Path) : frontLength path.trimmed.text.toList = frontLength path.text.toList := by
  obtain ⟨part, text, isPrefix, notDot, -⟩ := text_trimmed path
  rw [text]
  rcases frontLength_cases path.text.toList with ⟨body, whole⟩ | whole | ⟨body, whole⟩ | zero
  · rw [whole]
    rfl
  · rw [whole] at isPrefix ⊢
    obtain rfl : part = [] := List.prefix_nil.1 isPrefix
    rfl
  · rw [whole] at isPrefix ⊢
    cases part with
    | nil => rfl
    | cons c rest =>
      obtain ⟨rfl, -⟩ := List.cons_prefix_cons.1 isPrefix
      rfl
  · rw [zero] at isPrefix
    rw [zero, List.take_zero, List.nil_append]
    by_cases empty : part = []
    · rw [empty]
      rfl
    · obtain ⟨rest, same⟩ := isPrefix
      rw [← frontLength_append empty fun dot => absurd dot notDot, same]
      exact zero

theorem respells_trimmed (path : Path) : path.trimmed.Respells path := by
  obtain ⟨part, text, isPrefix, -, names⟩ := text_trimmed path
  obtain ⟨front, body, isFront, isBody, whole, namedBody, namedPart, noFront⟩ := front_spec path.text.toList
  have length : front.length = frontLength path.text.toList := by
    rw [← isFront, List.length_take, Nat.min_eq_left (frontLength_le _)]
  rw [isFront] at text
  rw [← length, isBody] at isPrefix names
  refine ⟨?_, by rw [text, namedPart part isPrefix, names, namedBody]⟩
  have heads : (front ++ part).head? = some '/' ↔ (front ++ body).head? = some '/' := by
    cases front with
    | cons c rest => rfl
    | nil =>
      rw [List.nil_append] at whole
      have bare := noFront rfl
      rw [whole] at bare
      simp only [List.nil_append]
      refine ⟨fun slash => ?_, fun slash => absurd slash bare⟩
      obtain ⟨rest, rfl⟩ := List.head?_eq_some_iff.1 slash
      obtain ⟨more, rfl⟩ := isPrefix
      rfl
  rw [isAbsolute, isAbsolute, text, whole]
  exact decide_eq_decide.2 heads

/-- A path whose segments all lead nowhere opens with a component of its own. -/
theorem opening_ne_nil {path : Path} (filled : path.text.toList ≠ []) (unnamed : named path.text.toList = []) :
    path.opening ≠ [] := by
  intro none
  rw [opening] at none
  by_cases absolute : path.isAbsolute = true
  · rw [if_pos absolute] at none
    cases none
  · rw [if_neg absolute] at none
    have dotted : (splitOn '/' path.text.toList).head? ≠ some ['.'] := by
      intro dot
      rw [if_pos dot] at none
      cases none
    obtain ⟨c, rest, text⟩ := List.exists_cons_of_ne_nil filled
    have notSlash : c ≠ '/' := fun same => absolute (by simp [isAbsolute, text, same])
    cases pieces : splitOn '/' rest with
    | nil => exact absurd pieces (splitOn_ne_nil '/' rest)
    | cons piece others =>
      have split : splitOn '/' path.text.toList = (c :: piece) :: others := by
        rw [text, splitOn, if_neg notSlash, pieces]
      rw [split] at dotted
      have idle : isIdle (c :: piece) = true := by
        have all := List.filter_eq_nil_iff.1 unnamed (c :: piece) (split ▸ List.mem_cons_self)
        simpa using all
      exact dotted (congrArg some (by simpa [isIdle] using idle))

theorem frontLength_join {base : Path} (filled : base.text.toList ≠ []) {path : Path}
    (relative : path.isAbsolute = false) : frontLength (base.join path).text.toList = frontLength base.text.toList := by
  rw [join_of_relative base relative, String.append_assoc, String.toList_append]
  refine frontLength_append filled fun dot => ?_
  rw [dot, String.toList_append]
  rfl

/-- The components of a relative path behind those of its base. -/
theorem components_join {base : Path} (filled : base.text.toList ≠ []) {path : Path}
    (relative : path.isAbsolute = false) :
    (base.join path).components = base.components ++ path.steps := by
  rw [components_eq, components_eq base, opening_eq, opening_eq, frontLength_join filled relative, isAbsolute_join,
    relative, Bool.false_or, steps, named_join_of_relative base relative, List.filterMap_append, List.append_assoc]
  rfl

theorem components_trimmed (path : Path) : path.trimmed.components = path.components := by
  rw [components_eq, components_eq, opening_eq, opening_eq, frontLength_trimmed, (respells_trimmed path).absolute,
    steps, steps, (respells_trimmed path).names]

theorem trimmed_filled {path : Path} (filled : path.text.toList ≠ []) : path.trimmed.text.toList ≠ [] := by
  intro empty
  have unnamed : named path.text.toList = [] := by
    rw [← (respells_trimmed path).names, empty]
    rfl
  have closed : path.trimmed.opening = path.opening := by
    rw [opening_eq, opening_eq, frontLength_trimmed, (respells_trimmed path).absolute]
  refine opening_ne_nil filled unnamed (closed.symm.trans ?_)
  simp [opening_eq, isAbsolute, empty, frontLength]

theorem components_join_trimmed {base : Path} (filled : base.text.toList ≠ []) (path : Path) :
    (base.trimmed.join path).components = (base.join path).components := by
  cases absolute : path.isAbsolute with
  | true => rw [join, join, if_pos absolute, if_pos absolute]
  | false => rw [components_join (trimmed_filled filled) absolute, components_join filled absolute, components_trimmed]

/-! Relative paths from a dot and from nothing -/

theorem empty_join (path : Path) : empty.join path = path := by
  unfold join
  split <;> rfl

theorem opening_of_relative {path : Path} (relative : path.isAbsolute = false) :
    path.opening = [] ∨ path.opening = [.current] := by
  rw [opening, relative, if_neg Bool.false_ne_true]
  split <;> simp

theorem components_dot_join {path : Path} (relative : path.isAbsolute = false) :
    ((Path.mk ".").join path).components = .current :: path.steps :=
  components_join (by decide) relative

theorem components_of_absolute {path : Path} (absolute : path.isAbsolute = true) :
    path.components = .root :: path.steps := by
  rw [components_eq, opening, if_pos absolute]
  rfl

end Path
end ContractBuild
