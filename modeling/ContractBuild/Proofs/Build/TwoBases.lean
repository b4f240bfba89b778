import ContractBuild.Proofs.Build.OwnOutput
import ContractBuild.Proofs.FileTree.Respelt

/-!
What is found from two spellings of one base. Idle segments in a base make no difference to the files that are
listed or that a pattern stands for. A dot and nothing do: from nothing the walk for a pattern without names in
front begins nowhere, from a dot no absolute path is below the base, and whether a file is spelled as one in
the directory of the export can change as a dot is put in front of both.
-/
namespace ContractBuild
open FileTree FileAction ContractBuild.Action
open FileNode (Plain)

variable {tree : FileTree}

/-! Reading a path in another spelling -/

theorem FileTree.reveals_iff {path : Path} {content : ByteArray} :
    tree.Reveals path content ↔ tree.node path = .ok (.file content) := by
  rw [node_eq_ok]
  constructor
  · rintro ⟨location, located, asFile, there⟩
    rw [← (locate_ok located).1, fileAt_eq_some] at there
    exact ⟨location, located, there, by simp [asFile]⟩
  · rintro ⟨location, located, there, asDirectory⟩
    refine ⟨location, located, ?_, ?_⟩
    · cases ends : location.asDirectory with
      | false => rfl
      | true => cases asDirectory ends
    · rw [← (locate_ok located).1, fileAt_eq_some]
      exact there

theorem Path.Alike.reveals_iff {one other : Path} (alike : one.Alike other) (fits : Fits one) (fitsOther : Fits other)
    {content : ByteArray} : tree.Reveals one content ↔ tree.Reveals other content := by
  rw [FileTree.reveals_iff, FileTree.reveals_iff, alike.node_iff fits fitsOther]

theorem Path.Alike.isFile_eq {one other : Path} (alike : one.Alike other) (fits : Fits one) (fitsOther : Fits other) :
    tree.isFile one = tree.isFile other := by
  rw [Bool.eq_iff_iff, InterfaceExport.isFile_iff_reveals, InterfaceExport.isFile_iff_reveals]
  exact exists_congr fun _ => alike.reveals_iff fits fitsOther

theorem readText_iff (quiet : tree.faultAfter = none) {path : Path} {text : String} :
    readText path tree = (.ok text, tree) ↔
      ∃ content, tree.Reveals path content ∧ String.fromUTF8? content = some text :=
  ⟨readText_ok, fun ⟨_, reveals, decoded⟩ => readText_of_reveals reveals decoded quiet⟩

namespace Descriptor

theorem load_iff (quiet : tree.faultAfter = none) {path : Path} {descriptor : Descriptor} :
    load path tree = (.ok descriptor, tree) ↔ descriptor.IsAt tree path := by
  refine ⟨load_ok, fun ⟨content, text, value, reveals, decoded, scanned, made⟩ => ?_⟩
  have read : (liftM (readText path) : BuildAction String) tree = (.ok text, tree) :=
    telling_ok.2 (readText_of_reveals reveals decoded quiet)
  unfold load
  rw [bind_of_ok read, scanned]
  dsimp only
  rw [made]
  rfl

theorem IsAt.of_alike {one other : Path} {descriptor : Descriptor} (isAt : descriptor.IsAt tree one)
    (alike : one.Alike other) (fits : Fits one) (fitsOther : Fits other) : descriptor.IsAt tree other := by
  obtain ⟨content, text, value, reveals, decoded, scanned, made⟩ := isAt
  refine ⟨content, text, value, (alike.reveals_iff fits fitsOther).1 reveals, decoded, scanned, ?_⟩
  rwa [Path.fileStem?, ← alike.fileName?_eq]

end Descriptor

/-! Listed files -/

structure FileTree.Walkable (tree : FileTree) (root : Path) : Prop where
  fits : Fits root
  opens : tree.Opens root

theorem FileTree.plain_of_leaf (tidy : tree.root.Tidy) {root : Path} {node : FileNode}
    (found : tree.node root = .ok node) : ∀ names ∈ node.leaves, ∀ name ∈ names, Plain name := by
  intro names member
  obtain ⟨_, _, here, _⟩ := node_eq_ok.1 found
  have tidyNode := FileNode.tidy_of_get? tidy here
  obtain ⟨content, below⟩ := (FileNode.mem_leaves tidyNode).1 member
  exact FileNode.plain_of_get? tidyNode below

theorem Path.Alike.eq_of_descend {one other : Path} (alike : one.Alike other) {routes more : List (List String)}
    (plain : ∀ names ∈ routes, ∀ name ∈ names, Plain name) (plainMore : ∀ names ∈ more, ∀ name ∈ names, Plain name)
    (each : List.Forall₂ (fun names rest => (one.descend names).Alike (other.descend rest)) routes more) :
    routes = more := by
  induction each with
  | nil => rfl
  | cons first _ ih =>
    obtain ⟨here, others⟩ := List.forall_mem_cons.1 plain
    obtain ⟨hereMore, othersMore⟩ := List.forall_mem_cons.1 plainMore
    rw [alike.toRespells.eq_of_descend here hereMore first.toRespells, ih others othersMore]

/-- What is listed below two spellings of one root is the same if and only if the same is wanted. -/
theorem FileTree.forall₂_listed_iff (tidy : tree.root.Tidy) {one other : Path} (alike : one.Alike other)
    (walks : tree.Walkable one) (walksOther : tree.Walkable other) {wanted wantedOther : Path → Bool} :
    List.Forall₂ Path.Alike (tree.listed one wanted) (tree.listed other wantedOther) ↔
      ∀ node, tree.node one = .ok node → ∀ names ∈ node.leaves,
        wanted (one.descend names) = wantedOther (other.descend names) := by
  cases found : tree.node one with
  | error cause =>
    have none : tree.listed other wantedOther = [] := by
      cases foundOther : tree.node other with
      | error cause => exact listed_of_error foundOther _
      | ok node => cases found.symm.trans ((alike.node_iff walks.fits walksOther.fits).2 foundOther)
    rw [listed_of_error found, none]
    exact ⟨fun _ _ => nofun, fun _ => .nil⟩
  | ok node =>
    have plain := plain_of_leaf tidy found
    rw [listed_of_opens tidy found walks.opens,
      listed_of_opens tidy ((alike.node_iff walks.fits walksOther.fits).1 found) walksOther.opens,
      List.forall₂_map_left_iff, List.forall₂_map_right_iff]
    constructor
    · rintro each _ ⟨⟩ names member
      have same : (node.leaves.filter fun names => wanted (one.descend names)) =
          node.leaves.filter fun names => wantedOther (other.descend names) :=
        alike.eq_of_descend (fun names member => plain names (List.mem_filter.1 member).1)
          (fun names member => plain names (List.mem_filter.1 member).1) each
      have both := congrArg (names ∈ ·) same
      simpa [List.mem_filter, member] using both
    · intro each
      rw [List.filter_congr (each node rfl)]
      exact List.forall₂_same.2 fun names _ => alike.descend names

/-- The sources below two spellings of one root. -/
theorem FileTree.sources_alike (tidy : tree.root.Tidy) {one other : Path} (alike : one.Alike other)
    (walks : tree.Walkable one) (walksOther : tree.Walkable other) :
    List.Forall₂ Path.Alike (tree.listed one isSource) (tree.listed other isSource) := by
  refine (forall₂_listed_iff tidy alike walks walksOther).2 fun _ _ names _ => ?_
  rw [isSource, isSource, Language.ofPath?, Language.ofPath?, Path.extension?, Path.extension?,
    (alike.descend names).fileName?_eq]

/-! Patterns -/

namespace InterfaceExport

variable {exporter other : InterfaceExport} {glob : Glob}

/-- Two exporters whose patterns begin at the same file stand for that file. -/
theorem matched_of_alike_file (alike : (exporter.base.join glob.literalLead).Alike (other.base.join glob.literalLead))
    (fits : Fits (exporter.base.join glob.literalLead)) (fitsOther : Fits (other.base.join glob.literalLead))
    (isFile : tree.isFile (exporter.base.join glob.literalLead) = true) :
    List.Forall₂ Path.Alike (exporter.matched glob tree) (other.matched glob tree) := by
  rw [matched_of_isFile isFile, matched_of_isFile (alike.isFile_eq fits fitsOther ▸ isFile)]
  exact .cons alike .nil

/-- Otherwise they stand for the same if and only if they want the same below where they begin. -/
theorem forall₂_matched_iff (tidy : tree.root.Tidy)
    (alike : (exporter.base.join glob.literalLead).Alike (other.base.join glob.literalLead))
    (walks : tree.Walkable (exporter.base.join glob.literalLead))
    (walksOther : tree.Walkable (other.base.join glob.literalLead))
    (noFile : tree.isFile (exporter.base.join glob.literalLead) = false) :
    List.Forall₂ Path.Alike (exporter.matched glob tree) (other.matched glob tree) ↔
      ∀ node, tree.node (exporter.base.join glob.literalLead) = .ok node → ∀ names ∈ node.leaves,
        exporter.isWanted glob ((exporter.base.join glob.literalLead).descend names) =
          other.isWanted glob ((other.base.join glob.literalLead).descend names) := by
  rw [matched_of_not_isFile noFile, matched_of_not_isFile (alike.isFile_eq walks.fits walksOther.fits ▸ noFile),
    forall₂_listed_iff tidy alike walks walksOther]

/-- What is wanted is told from the components of the paths. -/
theorem isWanted_congr {path otherPath : Path} (components : path.components = otherPath.components)
    (base : exporter.base.components = other.base.components)
    (outDir : exporter.outDir.components = other.outDir.components) :
    exporter.isWanted glob path = other.isWanted glob otherPath := by
  rw [isWanted, isWanted, Path.isWithin, Path.isWithin, Path.relativeTo?, Path.relativeTo?, Path.relativeTo?,
    Path.relativeTo?, components, base, outDir]

end InterfaceExport

namespace Path

/-- What a directory is spelled to hold stays in it as a dot is put in front of both. -/
theorem isWithin_dot_join {path directory : Path} (relative : path.isAbsolute = false)
    (within : path.isWithin directory = true) :
    ((Path.mk ".").join path).isWithin ((Path.mk ".").join directory) = true := by
  rw [isWithin_iff, components_eq, components_eq path] at within
  cases absolute : directory.isAbsolute with
  | true =>
    have front : directory.opening = [.root] := by rw [opening, if_pos absolute]
    rw [front] at within
    have first : Component.root ∈ path.opening ++ path.steps :=
      within.subset (List.mem_append_left _ List.mem_cons_self)
    rcases List.mem_append.1 first with inFront | inSteps
    · rcases opening_of_relative relative with none | dotted
      · rw [none] at inFront
        cases inFront
      · rw [dotted] at inFront
        cases List.mem_singleton.1 inFront
    · exact absurd rfl (mem_steps inSteps).1
  | false =>
    rw [isWithin_iff, components_dot_join relative, components_dot_join absolute, List.cons_prefix_cons]
    refine ⟨rfl, ?_⟩
    rcases opening_of_relative absolute with bare | dotted <;> rcases opening_of_relative relative with none | dot
    · rwa [bare, none] at within
    · rw [bare, dot] at within
      cases shape : directory.steps with
      | nil => exact List.nil_prefix
      | cons first rest =>
        rw [shape] at within
        have isFirst : first = .current := (List.cons_prefix_cons.1 within).1
        exact absurd isFirst (mem_steps (shape ▸ List.mem_cons_self)).2
    · rw [dotted, none] at within
      exact absurd rfl (mem_steps (within.subset List.mem_cons_self)).2
    · rw [dotted, dot] at within
      exact (List.cons_prefix_cons.1 within).2

end Path

namespace InterfaceExport
variable {settings : Settings} {glob : Glob}

abbrev fromBase (settings : Settings) (base : Path) : InterfaceExport :=
  ofProject ⟨settings, base⟩

theorem acceptsPath_opening {path : Path} (relative : path.isAbsolute = false) :
    glob.acceptsPath path.components = glob.acceptsPath path.steps := by
  have same : Path.slashText path.components = Path.slashText path.steps := by
    rw [Path.components_eq]
    rcases Path.opening_of_relative relative with none | dotted
    · rw [none, List.nil_append]
    · rw [dotted]
      rfl
  rw [Glob.acceptsPath, Glob.acceptsPath, same]

/-- From a dot a file is wanted if it is from nothing and is not spelled as one in the directory of the export
with a dot in front of both. -/
theorem isWanted_dot {path : Path} (relative : path.isAbsolute = false) :
    (fromBase settings ⟨"."⟩).isWanted glob ((Path.mk ".").join path) =
      ((fromBase settings .empty).isWanted glob path &&
        !((Path.mk ".").join path).isWithin (fromBase settings ⟨"."⟩).outDir) := by
  have behindDot : ((Path.mk ".").join path).relativeTo? ⟨"."⟩ = some path.steps :=
    Path.after_eq_some.2 (Path.components_dot_join relative)
  have behindNothing : path.relativeTo? .empty = some path.components := Path.after_eq_some.2 rfl
  have outDir : (fromBase settings .empty).outDir = ⟨settings.interfaces.path⟩ := Path.empty_join _
  have stays : path.isWithin ⟨settings.interfaces.path⟩ = true →
      ((Path.mk ".").join path).isWithin (fromBase settings ⟨"."⟩).outDir = true :=
    Path.isWithin_dot_join relative
  rw [isWanted, isWanted, outDir, show (fromBase settings ⟨"."⟩).base = ⟨"."⟩ from rfl,
    show (fromBase settings .empty).base = .empty from rfl, behindDot, behindNothing, Option.any_some, Option.any_some,
    acceptsPath_opening relative]
  cases within : path.isWithin ⟨settings.interfaces.path⟩ with
  | true => rw [stays within]; simp
  | false => cases ((Path.mk ".").join path).isWithin (fromBase settings ⟨"."⟩).outDir <;> simp

theorem isWanted_dot_absolute {path : Path} (absolute : path.components.head? = some .root) :
    (fromBase settings ⟨"."⟩).isWanted glob path = false := by
  have apart : path.relativeTo? ⟨"."⟩ = none := by
    rw [Option.eq_none_iff_forall_ne_some]
    intro rest behind
    rw [Path.after_eq_some.1 behind] at absolute
    cases absolute
  rw [isWanted, show (fromBase settings ⟨"."⟩).base = ⟨"."⟩ from rfl, apart, Option.any_none, Bool.and_false]

/-! The working directory -/

def FindAlike (exporter other : InterfaceExport) (glob : Glob) (tree : FileTree) : Prop :=
  ∃ paths others, exporter.expand glob tree = (.ok paths, tree) ∧ other.expand glob tree = (.ok others, tree) ∧
    List.Forall₂ Path.Alike paths others

theorem findAlike_iff {exporter other : InterfaceExport} : exporter.FindAlike other glob tree ↔
    List.Forall₂ Path.Alike (exporter.matched glob tree) (other.matched glob tree) := by
  constructor
  · rintro ⟨paths, others, expanded, expandedOther, alike⟩
    rw [expand_eq, Prod.mk.injEq, Except.ok.injEq] at expanded expandedOther
    rwa [expanded.1, expandedOther.1]
  · exact fun alike => ⟨_, _, expand_eq .., expand_eq .., alike⟩

def Unmoved (settings : Settings) (glob : Glob) (tree : FileTree) : Prop :=
  if glob.literalLead.text = "" then (fromBase settings ⟨"."⟩).expand glob tree = (.ok [], tree)
  else tree.isFile glob.literalLead = true ∨
    if glob.literalLead.isAbsolute then (fromBase settings .empty).expand glob tree = (.ok [], tree)
    else ∀ path ∈ (fromBase settings .empty).matched glob tree,
      ((Path.mk ".").join path).isWithin (fromBase settings ⟨"."⟩).outDir = false

theorem expand_eq_nil_iff {exporter : InterfaceExport} :
    exporter.expand glob tree = (.ok [], tree) ↔ exporter.matched glob tree = [] := by
  rw [expand_eq, Prod.mk.injEq, Except.ok.injEq, and_iff_left rfl]

/-- Nothing is found where the walk would begin at the empty path. -/
theorem matched_of_empty (exporter : InterfaceExport) (empty : (exporter.base.join glob.literalLead).text.toList = []) :
    exporter.matched glob tree = [] := by
  have missing : ∀ node, tree.node (exporter.base.join glob.literalLead) ≠ .ok node :=
    fun node found => node_nonempty found empty
  have noFile : tree.isFile (exporter.base.join glob.literalLead) = false := by
    rw [Bool.eq_false_iff]
    intro isFile
    obtain ⟨content, reveals⟩ := isFile_iff_reveals.1 isFile
    exact missing _ (FileTree.reveals_iff.1 reveals)
  rw [matched_of_not_isFile noFile]
  cases found : tree.node (exporter.base.join glob.literalLead) with
  | error cause => exact listed_of_error found _
  | ok node => exact absurd found (missing node)

/-- From a dot no file is found at an absolute path, unless the pattern names it outright. -/
theorem matched_dot_absolute (tidy : tree.root.Tidy) (absolute : glob.literalLead.isAbsolute = true)
    (noFile : tree.isFile glob.literalLead = false) : (fromBase settings ⟨"."⟩).matched glob tree = [] := by
  have root : (fromBase settings ⟨"."⟩).base.join glob.literalLead = glob.literalLead := if_pos absolute
  rw [matched_of_not_isFile (root.symm ▸ noFile), root]
  cases found : tree.node glob.literalLead with
  | error cause =>
    exact listed_of_error found _
  | ok node =>
    rw [listed_of_node found, List.map_eq_nil_iff, List.filter_eq_nil_iff]
    intro names member
    have first : (glob.literalLead.descend names).components.head? = some .root := by
      rw [Path.components_descend _ (plain_of_leaf tidy found names member), Path.components_of_absolute absolute]
      rfl
    rw [isWanted_dot_absolute first, Bool.false_and]
    exact Bool.false_ne_true

theorem dot_respells : (Path.mk ".").Respells .empty :=
  ⟨by decide, by decide⟩

/-- The names below a path behind a dot. -/
theorem descend_dot_join {path : Path} (filled : path.text.toList ≠ []) (relative : path.isAbsolute = false)
    {names : List String} (plain : ∀ name ∈ names, Plain name) :
    ((Path.mk ".").join path).descend names = (Path.mk ".").join (path.descend names) := by
  induction names generalizing path with
  | nil => rfl
  | cons name names ih =>
    obtain ⟨first, others⟩ := List.forall_mem_cons.1 plain
    have behind : (path.join ⟨name⟩).isAbsolute = false := by
      rw [Path.isAbsolute_join, Plain.isAbsolute_eq first, relative, Bool.or_self]
    show (((Path.mk ".").join path).join ⟨name⟩).descend names = _
    rw [← Path.join_join _ filled relative first, ih (Path.join_filled filled _) behind others]
    rfl

theorem isAbsolute_descend {path : Path} (relative : path.isAbsolute = false) {names : List String}
    (plain : ∀ name ∈ names, Plain name) : (path.descend names).isAbsolute = false := by
  induction names generalizing path with
  | nil => exact relative
  | cons name names ih =>
    obtain ⟨first, others⟩ := List.forall_mem_cons.1 plain
    refine ih ?_ others
    rw [Path.isAbsolute_join, Plain.isAbsolute_eq first, relative, Bool.or_self]

/-- Below a relative lead the same is wanted from a dot as from nothing if and only if no file that is found from
nothing is spelled as one in the directory of the export once a dot stands in front of both. -/
theorem wanted_dot_iff (tidy : tree.root.Tidy) {lead : Path} (relative : lead.isAbsolute = false)
    (alike : ((Path.mk ".").join lead).Alike (Path.empty.join lead)) (fits : Fits ((Path.mk ".").join lead))
    (walks : tree.Walkable lead) :
    (∀ node, tree.node ((Path.mk ".").join lead) = .ok node → ∀ names ∈ node.leaves,
      (fromBase settings ⟨"."⟩).isWanted glob (((Path.mk ".").join lead).descend names) =
        (fromBase settings .empty).isWanted glob (lead.descend names)) ↔
      ∀ path ∈ tree.listed lead ((fromBase settings .empty).isWanted glob),
        ((Path.mk ".").join path).isWithin (fromBase settings ⟨"."⟩).outDir = false := by
  rw [Path.empty_join] at alike
  cases found : tree.node lead with
  | error cause =>
    rw [listed_of_error found]
    exact ⟨fun _ => nofun, fun _ node there => nomatch found.symm.trans ((alike.node_iff fits walks.fits).1 there)⟩
  | ok node =>
    have foundDot := (alike.node_iff fits walks.fits).2 found
    have plain := plain_of_leaf tidy found
    have each : ∀ names ∈ node.leaves, (fromBase settings ⟨"."⟩).isWanted glob (((Path.mk ".").join lead).descend names) =
        ((fromBase settings .empty).isWanted glob (lead.descend names) &&
          !((Path.mk ".").join (lead.descend names)).isWithin (fromBase settings ⟨"."⟩).outDir) := by
      intro names member
      rw [descend_dot_join alike.filledOther relative (plain names member),
        isWanted_dot (isAbsolute_descend relative (plain names member))]
    rw [listed_of_opens tidy found walks.opens]
    constructor
    · intro same path member
      obtain ⟨names, listed, rfl⟩ := List.mem_map.1 member
      obtain ⟨isLeaf, isWanted⟩ := List.mem_filter.1 listed
      have kept := (each names isLeaf).symm.trans (same node foundDot names isLeaf)
      rw [isWanted, Bool.true_and] at kept
      simpa using kept
    · intro outside other there names member
      obtain rfl : node = other := Except.ok.inj (foundDot.symm.trans there)
      rw [each names member]
      cases isWanted : (fromBase settings .empty).isWanted glob (lead.descend names) with
      | false => rfl
      | true =>
        rw [outside _ (List.mem_map_of_mem (List.mem_filter.2 ⟨member, isWanted⟩))]
        rfl

/-- Which patterns stand for the same files from a dot as from nothing. -/
theorem findAlike_dot_iff (tidy : tree.root.Tidy) (walks : tree.Walkable ((Path.mk ".").join glob.literalLead))
    (walksBare : tree.Walkable glob.literalLead) :
    (fromBase settings ⟨"."⟩).FindAlike (fromBase settings .empty) glob tree ↔ Unmoved settings glob tree := by
  have bareRoot : (fromBase settings .empty).base.join glob.literalLead = glob.literalLead := Path.empty_join _
  rw [findAlike_iff, Unmoved]
  by_cases empty : glob.literalLead.text = ""
  · have none : (fromBase settings .empty).matched glob tree = [] := by
      refine matched_of_empty _ ?_
      rw [bareRoot, empty]
      rfl
    rw [if_pos empty, none, List.forall₂_nil_right_iff, expand_eq_nil_iff]
  · have filled : glob.literalLead.text.toList ≠ [] := mt String.toList_eq_nil_iff.1 empty
    have alike : ((Path.mk ".").join glob.literalLead).Alike (Path.empty.join glob.literalLead) :=
      dot_respells.alike_join (Path.join_filled (by decide) _) (by rwa [Path.empty_join])
    have walksRoot : tree.Walkable (Path.empty.join glob.literalLead) := by rwa [Path.empty_join]
    have sameFile : tree.isFile ((Path.mk ".").join glob.literalLead) = tree.isFile glob.literalLead := by
      rw [alike.isFile_eq walks.fits walksRoot.fits, Path.empty_join]
    rw [if_neg empty]
    cases isFile : tree.isFile glob.literalLead with
    | true =>
      have isFileDot := sameFile.trans isFile
      exact ⟨fun _ => .inl rfl, fun _ => matched_of_alike_file alike walks.fits walksRoot.fits isFileDot⟩
    | false =>
      have noFile : tree.isFile ((fromBase settings ⟨"."⟩).base.join glob.literalLead) = false :=
        sameFile.trans isFile
      simp only [Bool.false_eq_true, false_or]
      cases absolute : glob.literalLead.isAbsolute with
      | true =>
        rw [matched_dot_absolute tidy absolute isFile, List.forall₂_nil_left_iff, if_pos rfl, expand_eq_nil_iff]
      | false =>
        rw [@forall₂_matched_iff tree (fromBase settings ⟨"."⟩) (fromBase settings .empty) glob tidy alike walks walksRoot
          noFile, if_neg Bool.false_ne_true]
        rw [matched_of_not_isFile (bareRoot.symm ▸ isFile), bareRoot]
        exact wanted_dot_iff tidy absolute alike walks.fits walksBare

/-! Loading descriptors -/

/-- The paths that a pattern leads to fit the limits for paths. -/
structure InLimits (exporter : InterfaceExport) (glob : Glob) (tree : FileTree) : Prop where
  lead : tree.Walkable (exporter.base.join glob.literalLead)
  files : ∀ path ∈ exporter.matched glob tree, Fits path

theorem readAll_of_alike (quiet : tree.faultAfter = none) {found descriptors : List Descriptor}
    {paths others : List Path} (each : List.Forall₂ Path.Alike paths others) (fits : ∀ path ∈ paths, Fits path)
    (fitsOthers : ∀ path ∈ others, Fits path) (ran : readAll found paths tree = (.ok descriptors, tree)) :
    readAll found others tree = (.ok descriptors, tree) := by
  induction each generalizing found with
  | nil => exact ran
  | @cons path other _ _ alike _ ih =>
    obtain ⟨here, more⟩ := List.forall_mem_cons.1 fits
    obtain ⟨hereOther, moreOthers⟩ := List.forall_mem_cons.1 fitsOthers
    obtain ⟨descriptor, middle, loaded, rest⟩ := bind_eq_ok ran
    have unchanged := (reads_loadDescriptor path tree).eq_of_quiet quiet
    rw [loaded] at unchanged
    obtain rfl : middle = tree := unchanged
    have again := ((Descriptor.load_iff quiet).1 loaded).of_alike alike here hereOther
    unfold readAll
    rw [bind_of_ok ((Descriptor.load_iff quiet).2 again)]
    exact ih more moreOthers rest

theorem loadFrom_of_alike (quiet : tree.faultAfter = none) {exporter other : InterfaceExport}
    {found descriptors : List Descriptor} {patterns : List String}
    (alike : ∀ pattern ∈ patterns, exporter.FindAlike other ⟨⟨pattern⟩⟩ tree)
    (fits : ∀ pattern ∈ patterns, exporter.InLimits ⟨⟨pattern⟩⟩ tree)
    (fitsOther : ∀ pattern ∈ patterns, other.InLimits ⟨⟨pattern⟩⟩ tree)
    (ran : exporter.loadFrom found patterns tree = (.ok descriptors, tree)) :
    other.loadFrom found patterns tree = (.ok descriptors, tree) := by
  induction patterns generalizing found with
  | nil => exact ran
  | cons pattern patterns ih =>
    obtain ⟨here, more⟩ := List.forall_mem_cons.1 alike
    obtain ⟨limits, moreLimits⟩ := List.forall_mem_cons.1 fits
    obtain ⟨limitsOther, moreLimitsOther⟩ := List.forall_mem_cons.1 fitsOther
    have expanded : ∀ one : InterfaceExport, (liftM (one.expand ⟨⟨pattern⟩⟩) : BuildAction (List Path)) tree =
        (.ok (one.matched ⟨⟨pattern⟩⟩ tree), tree) := fun one => telling_ok.2 (one.expand_eq ⟨⟨pattern⟩⟩ tree)
    unfold loadFrom at ran ⊢
    rw [bind_of_ok (expanded exporter)] at ran
    rw [bind_of_ok (expanded other)]
    obtain ⟨gathered, middle, read, rest⟩ := bind_eq_ok ran
    have unchanged := (reads_readAll found (exporter.matched ⟨⟨pattern⟩⟩ tree) tree).eq_of_quiet quiet
    rw [read] at unchanged
    obtain rfl : middle = tree := unchanged
    rw [bind_of_ok (readAll_of_alike quiet (findAlike_iff.1 here) limits.files limitsOther.files read)]
    exact ih more moreLimits moreLimitsOther rest

theorem matched_congr {exporter other : InterfaceExport} (base : exporter.base = other.base)
    (outDir : exporter.outDir = other.outDir) : exporter.matched glob tree = other.matched glob tree := by
  unfold matched isWanted
  rw [base, outDir]

theorem FindAlike.symm {exporter other : InterfaceExport} (alike : exporter.FindAlike other glob tree) :
    other.FindAlike exporter glob tree := by
  rw [findAlike_iff] at alike ⊢
  exact (List.Forall₂.flip alike).imp fun _ _ => Path.Alike.symm

end InterfaceExport

end ContractBuild
