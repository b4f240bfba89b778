import ContractBuild.Proofs.Build.Containment

/-!
The exporter's own files among those that patterns stand for. Whether a file lies in the directory of
the export is told by its text alone, and not at all for a pattern that names a file outright. Where
the directory and the lead of a pattern are spelled alike the text says the same as the place.
-/
namespace ContractBuild
open FileTree FileAction ContractBuild.Action
open Text

namespace Path
open FileNode (Plain)

/-! Components -/

theorem after_eq_some {base path rest : List Component} :
    relativeTo?.after base path = some rest ↔ path = base ++ rest := by
  induction base generalizing path with
  | nil => simp [relativeTo?.after, eq_comm]
  | cons component base ih =>
    cases path with
    | nil => simp [relativeTo?.after]
    | cons first path =>
      rw [relativeTo?.after, List.cons_append, List.cons.injEq]
      split
      · next same => simp [same, ih]
      · next differs => simp [Ne.symm differs]

theorem isWithin_iff {path base : Path} : path.isWithin base = true ↔ base.components <+: path.components := by
  rw [isWithin, Option.isSome_iff_exists]
  constructor
  · rintro ⟨rest, found⟩
    exact ⟨rest, (after_eq_some.1 found).symm⟩
  · rintro ⟨rest, split⟩
    exact ⟨rest, after_eq_some.2 split.symm⟩

theorem segmentComponent?_plain {name : String} (plain : Plain name) :
    segmentComponent? name.toList = some (.normal name) := by
  have leads : isIdle name.toList = false := by
    simpa [isIdle] using ⟨by simpa using plain.nonempty, plain.notCurrent⟩
  rw [segmentComponent?_eq, leads, if_neg plain.notParent, String.ofList_toList]
  rfl

theorem components_join_plain (base : Path) {name : String} (plain : Plain name) :
    (base.join ⟨name⟩).components = base.components ++ [.normal name] := by
  have single : splitOn '/' name.toList = [name.toList] := splitOn_of_not_mem plain.whole
  have last : [name.toList].filterMap segmentComponent? = [.normal name] := by
    rw [List.filterMap_cons, segmentComponent?_plain plain, List.filterMap_nil]
  have relative := Plain.isAbsolute_eq plain
  unfold join
  rw [relative, if_neg Bool.false_ne_true]
  split
  · next empty =>
    have chars : base.text.toList = [] := List.getLast?_eq_none_iff.1 empty
    have bare : base.isAbsolute = false := by simp [isAbsolute, chars]
    simp [components, relative, bare, chars, single, splitOn, segmentComponent?_plain plain,
      show segmentComponent? [] = none from rfl, plain.notCurrent]
  · next slash =>
    obtain ⟨front, text⟩ := List.getLast?_eq_some_iff.1 slash
    have whole : splitOn '/' base.text.toList = splitOn '/' front ++ [[]] := by
      rw [text, splitOn_append]
      rfl
    have longer : splitOn '/' (base.text ++ name).toList = splitOn '/' front ++ [name.toList] := by
      rw [String.toList_append, text, List.append_assoc, List.singleton_append, splitOn_append, single]
    obtain ⟨first, rest, filled⟩ := List.exists_cons_of_ne_nil (splitOn_ne_nil '/' front)
    simp only [components, isAbsolute_append (show base.text.toList ≠ [] by simp [text]), whole, longer,
      List.filterMap_append, last, filled]
    simp [segmentComponent?]
  · next c _ other =>
    have nonempty : base.text.toList ≠ [] := by
      intro empty
      rw [empty] at other
      cases other
    have longer : splitOn '/' (base.text ++ "/" ++ name).toList =
        splitOn '/' base.text.toList ++ [name.toList] := by
      rw [String.append_assoc, String.toList_append, String.toList_append]
      show splitOn '/' (base.text.toList ++ '/' :: name.toList) = _
      rw [splitOn_append, single]
    obtain ⟨first, rest, filled⟩ := List.exists_cons_of_ne_nil (splitOn_ne_nil '/' base.text.toList)
    rw [String.append_assoc] at longer ⊢
    simp only [components, isAbsolute_append nonempty, longer, List.filterMap_append, last, filled]
    simp

theorem components_descend (base : Path) {names : List String} (plain : ∀ name ∈ names, Plain name) :
    (base.descend names).components = base.components ++ names.map .normal := by
  induction names generalizing base with
  | nil => exact (List.append_nil _).symm
  | cons name names ih =>
    show ((base.join ⟨name⟩).descend names).components = _
    rw [ih _ fun other member => plain other (List.mem_cons_of_mem _ member),
      components_join_plain base (plain name List.mem_cons_self), List.append_assoc]
    rfl

def Component.goFrom : List String → Component → List String
  | _, root => []
  | place, current => place
  | place, parent => place.dropLast
  | place, normal name => place ++ [name]

theorem settle_eq_foldl (place : List String) (segments : List (List Char)) :
    settle place segments = (segments.filterMap segmentComponent?).foldl Component.goFrom place := by
  induction segments generalizing place with
  | nil => rfl
  | cons segment segments ih =>
    rw [settle, List.filterMap_cons, segmentComponent?]
    split
    · exact ih place
    · split
      · exact ih place.dropLast
      · exact ih _

/-- Paths of the same components have the same place. -/
theorem placeFrom_eq_foldl (workingDirectory : List String) (path : Path) :
    placeFrom workingDirectory path = path.components.foldl Component.goFrom workingDirectory := by
  rw [placeFrom, settle_eq_foldl, components, List.foldl_append]
  congr 1
  split
  · rfl
  · split <;> rfl

theorem foldl_normal (place names : List String) :
    (names.map Component.normal).foldl Component.goFrom place = place ++ names := by
  induction names generalizing place with
  | nil => exact (List.append_nil place).symm
  | cons name names ih => exact (ih (place ++ [name])).trans (List.append_assoc place [name] names)

/-! Directories in sight -/

def LiesIn (path directory : Path) (tree : FileTree) : Prop :=
  tree.place directory <+: tree.place path

def Parts (path directory : Path) : Prop :=
  ∃ (shared : List Component) (names more : List String),
    path.components = shared ++ names.map .normal ∧ directory.components = shared ++ more.map .normal

def Sights (path directory : Path) : Prop :=
  directory.components <+: path.components ∨ path.Parts directory

/-- A file in a directory is told from its text if and only if the directory is in sight from where the
names begin. -/
theorem isWithin_descend_iff {root directory : Path} {names : List String} (plain : ∀ name ∈ names, Plain name)
    {tree : FileTree} (inside : (root.descend names).LiesIn directory tree) :
    (root.descend names).isWithin directory = true ↔ root.Sights directory := by
  rw [isWithin_iff, components_descend root plain]
  constructor
  · intro within
    rcases List.prefix_or_prefix_of_prefix within (List.prefix_append _ _) with whole | ⟨front, split⟩
    · exact .inl whole
    · rw [← split, List.prefix_append_right_inj] at within
      obtain ⟨more, -, rfl⟩ := List.prefix_map_iff.1 within
      exact .inr ⟨root.components, [], more, (List.append_nil _).symm, split.symm⟩
  · rintro (whole | ⟨shared, lead, more, isRoot, isDirectory⟩)
    · exact whole.trans (List.prefix_append _ _)
    · rw [LiesIn, place, place, placeFrom_descend _ plain, placeFrom_eq_foldl, placeFrom_eq_foldl, isRoot,
        isDirectory, List.foldl_append, List.foldl_append, foldl_normal, foldl_normal, List.append_assoc,
        List.prefix_append_right_inj] at inside
      rw [isRoot, isDirectory, List.append_assoc, List.prefix_append_right_inj, ← List.map_append]
      exact inside.map _

end Path

namespace InterfaceExport

variable {exporter : InterfaceExport} {tree : FileTree}

def Slips (exporter : InterfaceExport) (glob : Glob) (tree : FileTree) (path : Path) : Prop :=
  let lead := exporter.base.join glob.literalLead
  if tree.isFile lead then path = lead
  else ¬ lead.Sights exporter.outDir ∧
    path ∈ tree.listed lead fun path => (path.relativeTo? exporter.base).any glob.acceptsPath

theorem matched_iff_slips {glob : Glob} {path : Path} (tidy : tree.root.Tidy)
    (inside : path.LiesIn exporter.outDir tree) :
    path ∈ exporter.matched glob tree ↔ exporter.Slips glob tree path := by
  cases isFile : tree.isFile (exporter.base.join glob.literalLead) with
  | true => simp [matched_of_isFile isFile, Slips, isFile]
  | false =>
    rw [matched_of_not_isFile isFile, Slips]
    simp only [isFile, Bool.false_eq_true, if_false]
    rw [mem_listed tidy, mem_listed tidy]
    have seen : ∀ {node names content}, tree.node (exporter.base.join glob.literalLead) = .ok node →
        path = (exporter.base.join glob.literalLead).descend names → node.get? names = some (.file content) →
        (path.isWithin exporter.outDir = true ↔
          (exporter.base.join glob.literalLead).Sights exporter.outDir) := by
      rintro node names content found rfl below
      obtain ⟨_, _, there, _⟩ := node_eq_ok.1 found
      exact Path.isWithin_descend_iff (FileNode.plain_of_get? (FileNode.tidy_of_get? tidy there) below) inside
    constructor
    · rintro ⟨wanted, node, names, content, found, same, reaches, below⟩
      rw [isWanted, Bool.and_eq_true, Bool.not_eq_true'] at wanted
      refine ⟨?_, wanted.2, node, names, content, found, same, reaches, below⟩
      rw [← seen found same below, wanted.1]
      exact Bool.false_ne_true
    · rintro ⟨unseen, accepted, node, names, content, found, same, reaches, below⟩
      rw [← seen found same below, Bool.not_eq_true] at unseen
      refine ⟨?_, node, names, content, found, same, reaches, below⟩
      rw [isWanted, unseen, accepted]
      rfl

theorem mem_sought {patterns : List String} {path : Path} :
    path ∈ exporter.sought patterns tree ↔ ∃ pattern ∈ patterns, path ∈ exporter.matched ⟨⟨pattern⟩⟩ tree :=
  List.mem_flatMap

/-- Every descriptor from elsewhere is read from a file that a pattern stands for. A file in the directory
of the export is among them if and only if it slips through, and none does where no pattern names such
a file outright and the directory is in sight from the lead of every pattern. -/
theorem sought_apart {externals : List Descriptor} {after : FileTree} (tidy : tree.root.Tidy)
    (loaded : exporter.loadExternals tree = (.ok externals, after)) :
    (∀ descriptor ∈ externals, ∃ path ∈ exporter.sought exporter.externals tree, descriptor.IsAt tree path) ∧
    (∀ path : Path, path.LiesIn exporter.outDir tree → (path ∈ exporter.sought exporter.externals tree ↔
      ∃ pattern ∈ exporter.externals, exporter.Slips ⟨⟨pattern⟩⟩ tree path)) ∧
    ((∀ pattern ∈ exporter.externals,
        let lead := exporter.base.join (Glob.mk ⟨pattern⟩).literalLead
        lead.Sights exporter.outDir ∧ (tree.isFile lead = true → ¬ lead.LiesIn exporter.outDir tree)) →
      ∀ path ∈ exporter.sought exporter.externals tree, ¬ path.LiesIn exporter.outDir tree) := by
  have slips : ∀ path : Path, path.LiesIn exporter.outDir tree → (path ∈ exporter.sought exporter.externals tree ↔
      ∃ pattern ∈ exporter.externals, exporter.Slips ⟨⟨pattern⟩⟩ tree path) := by
    intro path inside
    simp only [mem_sought, matched_iff_slips tidy inside]
  refine ⟨fun _ member => isAt_of_loaded loaded member, slips, ?_⟩
  intro apart path member inside
  obtain ⟨pattern, listed, slip⟩ := (slips path inside).1 member
  obtain ⟨sights, outright⟩ := apart pattern listed
  unfold Slips at slip
  dsimp only at slip
  split at slip
  · next isFile =>
    subst slip
    exact outright isFile inside
  · exact slip.1 sights

def wideExport : InterfaceExport :=
  ⟨⟨"p"⟩, ⟨"p/abis"⟩, false, false, "Flat", 2, ["**/*.json", "vendor/V.json"]⟩

def exported : FileTree :=
  ⟨.directory [("p", .directory [("abis", .directory [("Own.json", .file "[]".toUTF8)]),
    ("vendor", .directory [("V.json", .file "[]".toUTF8)])])], [], none⟩

theorem sought_apart_exported :
    ∃ externals after, wideExport.loadExternals exported = (.ok externals, after) ∧
      externals.map (·.name) = ["V"] ∧ (Path.mk "p/abis/Own.json").LiesIn wideExport.outDir exported ∧
      (∀ descriptor ∈ externals,
        ∃ path ∈ wideExport.sought wideExport.externals exported, descriptor.IsAt exported path) ∧
      ∀ path ∈ wideExport.sought wideExport.externals exported,
        ¬ path.LiesIn wideExport.outDir exported := by
  have found : (wideExport.loadExternals exported).1.toOption.map (·.map (·.name)) = some ["V"] := by
    decide +kernel
  have tidy : exported.root.Tidy := FileNode.tidy_of_isTidy (by decide +kernel)
  cases ran : wideExport.loadExternals exported with
  | mk outcome after =>
    rw [ran] at found
    cases outcome with
    | error cause => cases found
    | ok externals =>
      obtain ⟨sources, -, apart⟩ := sought_apart tidy ran
      refine ⟨externals, after, rfl, Option.some.inj found, ⟨["Own.json"], by decide +kernel⟩, sources, apart ?_⟩
      intro pattern member
      rcases List.mem_cons.1 member with rfl | member
      · refine ⟨.inr ⟨[.normal "p"], [], ["abis"], by decide +kernel, by decide +kernel⟩, fun isFile => ?_⟩
        cases (show exported.isFile (wideExport.base.join (Glob.mk ⟨"**/*.json"⟩).literalLead) = false by
          decide +kernel).symm.trans isFile
      · obtain rfl := List.mem_singleton.1 member
        refine ⟨.inr ⟨[.normal "p"], ["vendor", "V.json"], ["abis"], by decide +kernel, by decide +kernel⟩,
          fun _ => ?_⟩
        rintro ⟨rest, ahead⟩
        have second : (["p", "abis"] ++ rest)[1]? = ["p", "vendor", "V.json"][1]? := congrArg (·[1]?) ahead
        exact absurd second (by simp)

end InterfaceExport
end ContractBuild
