import ContractBuild.Proofs.Glob
import ContractBuild.Proofs.FileTree.Spelling
import ContractBuild.Proofs.Build.OwnOutput

/-!
What a pattern expands to. The walk begins at the lead of the pattern, and no file that the pattern matches
is missed by that: the files are those below the base that match, in the order of their names, each once.
Left out are the files whose path is spelled as one in the directory of the export, which are the files in
that directory as long as base and directory are spelled alike up to names.
-/
namespace ContractBuild
open FileTree FileAction
open FileNode (Plain)

namespace Path

/-! Leads -/

theorem ofComponents_normal (names : List String) : ofComponents (names.map .normal) = empty.descend names := by
  rw [ofComponents, List.foldl_map]
  rfl

theorem descend_append (base : Path) (lead rest : List String) :
    base.descend (lead ++ rest) = (base.descend lead).descend rest :=
  List.foldl_append

theorem join_descend (base : Path) {path : Path} (filled : path.text.toList ≠ []) (relative : path.isAbsolute = false)
    {names : List String} (plain : ∀ name ∈ names, Plain name) :
    base.join (path.descend names) = (base.join path).descend names := by
  induction names generalizing path with
  | nil => rfl
  | cons name names ih =>
    have first := plain name List.mem_cons_self
    have still : (path.join ⟨name⟩).isAbsolute = false := by
      rw [join_of_relative path (Plain.isAbsolute_eq first), String.append_assoc, isAbsolute_append filled]
      exact relative
    show base.join ((path.join ⟨name⟩).descend names) = _
    rw [ih (join_nonempty first) still fun other member => plain other (List.mem_cons_of_mem _ member),
      join_join base filled relative first]
    rfl

/-- A lead of names that is joined to a base. -/
theorem join_lead_cons (base : Path) {name : String} {names : List String}
    (plain : ∀ other ∈ name :: names, Plain other) :
    base.join (empty.descend (name :: names)) = base.descend (name :: names) := by
  have first := plain name List.mem_cons_self
  have alone : empty.join ⟨name⟩ = ⟨name⟩ := by
    rw [join_of_relative empty (Plain.isAbsolute_eq first)]
    simp [empty, separator]
  show base.join ((empty.join ⟨name⟩).descend names) = _
  rw [alone, join_descend base first.nonempty (Plain.isAbsolute_eq first)
    fun other member => plain other (List.mem_cons_of_mem _ member)]
  rfl

theorem join_empty (base : Path) : base.join empty = ⟨base.text ++ separator base.text.toList⟩ := by
  rw [join_of_relative base (show empty.isAbsolute = false from rfl)]
  exact congrArg Path.mk (String.append_empty)

/-- Below the lead the files have the paths that they have below the base. -/
theorem descend_lead (base : Path) {lead rest : List String} (plain : ∀ name ∈ lead ++ rest, Plain name)
    (goesOn : lead ++ rest ≠ []) : (base.join (empty.descend lead)).descend rest = base.descend (lead ++ rest) := by
  cases lead with
  | cons name lead =>
    rw [join_lead_cons base fun other member => plain other (List.mem_append_left rest member), descend_append]
  | nil =>
    obtain ⟨name, rest, rfl⟩ := List.exists_cons_of_ne_nil goesOn
    have first := plain name List.mem_cons_self
    show ((base.join empty).join ⟨name⟩).descend rest = (base.join ⟨name⟩).descend rest
    congr 1
    rw [join_of_relative _ (Plain.isAbsolute_eq first), join_of_relative _ (Plain.isAbsolute_eq first), join_empty,
      String.toList_append, separator_separator, String.append_empty]

theorem plain_of_component {path : Path} {name : String} (member : Component.normal name ∈ path.components) :
    Plain name := by
  rw [components, List.mem_append] at member
  rcases member with inFront | inside
  · split at inFront
    · simp at inFront
    · split at inFront <;> simp at inFront
  · obtain ⟨segment, piece, read⟩ := List.mem_filterMap.1 inside
    rw [segmentComponent?_eq] at read
    split at read
    · cases read
    · next leads =>
      split at read
      · cases read
      · next notParent =>
        cases read
        exact plain_of_segment (Text.not_mem_of_mem_splitOn piece) (Bool.eq_false_iff.2 leads) notParent

/-! Directories spelled alike -/

/-- The files of such a directory are told from their texts. -/
theorem Parts.isWithin_iff {base directory : Path} (parts : base.Parts directory) {route : List String}
    (plain : ∀ name ∈ route, Plain name) (tree : FileTree) :
    (base.descend route).isWithin directory = true ↔ (base.descend route).LiesIn directory tree := by
  refine ⟨fun within => ?_, fun inside => (isWithin_descend_iff plain inside).2 (.inr parts)⟩
  obtain ⟨shared, names, more, isBase, isDirectory⟩ := parts
  rw [Path.isWithin_iff, components_descend base plain, isBase, isDirectory, List.append_assoc,
    List.prefix_append_right_inj, ← List.map_append] at within
  have ahead : more <+: names ++ route := (List.prefix_map_iff_of_injective fun _ _ => Component.normal.inj).1 within
  rw [LiesIn, place, place, placeFrom_descend _ plain, placeFrom_eq_foldl, placeFrom_eq_foldl, isBase, isDirectory,
    List.foldl_append, List.foldl_append, foldl_normal, foldl_normal, List.append_assoc]
  exact (List.prefix_append_right_inj _).2 ahead

end Path

theorem FileNode.exists_of_get?_append {node found : FileNode} {lead rest : List String}
    (there : node.get? (lead ++ rest) = some found) :
    ∃ middle, node.get? lead = some middle ∧ middle.get? rest = some found := by
  induction lead generalizing node with
  | nil => exact ⟨node, rfl, there⟩
  | cons name lead ih =>
    cases node with
    | file content => cases there
    | directory entries =>
      obtain ⟨child, entry, below⟩ := Option.bind_eq_some_iff.1 there
      obtain ⟨middle, onTheWay, rest⟩ := ih below
      exact ⟨middle, by rw [get?, entry]; exact onTheWay, rest⟩

namespace FileTree
variable {tree : FileTree} {base : Path}

/-- The directory that a lead leads to. -/
theorem node_lead_iff (filled : base.text.toList ≠ []) {lead : List String} (plain : ∀ name ∈ lead, Plain name)
    {entries : List (String × FileNode)} :
    tree.node (base.join (Path.empty.descend lead)) = .ok (.directory entries) ↔
      (∃ root, tree.node base = .ok root ∧ root.get? lead = some (.directory entries)) ∧
        Fits (base.join (Path.empty.descend lead)) ∧ ∀ name ∈ lead, name.utf8ByteSize ≤ nameLimit := by
  cases lead with
  | cons name lead =>
    rw [Path.join_lead_cons base plain]
    exact node_descend_iff filled plain
  | nil =>
    have started : tree.start ⟨base.text ++ Path.separator base.text.toList⟩ = tree.start base := by
      rw [FileTree.start, FileTree.start, isAbsolute_append filled]
    have sameNamed : Path.named (base.text ++ Path.separator base.text.toList).toList =
        Path.named base.text.toList := by
      rw [Path.separator]
      split
      · simp
      · rw [String.toList_append]
        exact Path.named_append_slash _
    show tree.node (base.join Path.empty) = _ ↔ _ ∧ Fits (base.join Path.empty) ∧ _
    rw [Path.join_empty, node_eq_ok_iff, started, sameNamed]
    constructor
    · rintro ⟨-, fits, names, followed, found, -⟩
      exact ⟨⟨_, node_eq_ok_iff.2 ⟨filled, fits_of_append fits, names, followed, found, fun _ => rfl⟩, rfl⟩, fits,
        List.forall_mem_nil _⟩
    · rintro ⟨⟨root, found, same⟩, fits, -⟩
      obtain rfl : root = .directory entries := Option.some.inj same
      obtain ⟨-, -, names, followed, there, -⟩ := node_eq_ok_iff.1 found
      exact ⟨by simp [filled], fits, names, followed, there, fun _ => rfl⟩

def IsFileBelow (tree : FileTree) (base : Path) (route : List String) : Prop :=
  route ≠ [] ∧ ∃ root content, tree.node base = .ok root ∧ root.get? route = some (.file content)

theorem IsFileBelow.plain (tidy : tree.root.Tidy) {route : List String} (below : tree.IsFileBelow base route) :
    ∀ name ∈ route, Plain name := by
  obtain ⟨-, root, content, found, there⟩ := below
  obtain ⟨_, _, here, _⟩ := node_eq_ok.1 found
  exact FileNode.plain_of_get? (FileNode.tidy_of_get? tidy here) there

end FileTree

namespace InterfaceExport

variable {exporter : InterfaceExport} {glob : Glob} {tree : FileTree} {names route : List String}

theorem slashText_normal (names : List String) : Path.slashText (names.map .normal) = Text.join "/" names := by
  rw [Path.slashText, List.filterMap_map]
  congr 1
  exact List.filterMap_some

theorem line_join {route : List String} (lines : ∀ name ∈ route, '\n' ∉ name.toList) :
    '\n' ∉ (Text.join "/" route).toList := by
  induction route with
  | nil => simp [Text.join]
  | cons name route ih =>
    obtain ⟨first, others⟩ := List.forall_mem_cons.1 lines
    rw [Text.toList_join_cons, List.mem_append, not_or]
    refine ⟨first, ?_⟩
    split
    · exact List.not_mem_nil
    · exact List.not_mem_cons_of_ne_of_not_mem (by decide) (ih others)

/-- What the test of a file says: its path is not spelled as one in the directory of the export, and the
pattern matches its names. -/
theorem isWanted_iff (normal : glob.pattern.components = names.map .normal) (plain : ∀ name ∈ route, Plain name)
    (lines : ∀ name ∈ route, '\n' ∉ name.toList) :
    exporter.isWanted glob (exporter.base.descend route) = true ↔
      (exporter.base.descend route).isWithin exporter.outDir = false ∧
        Glob.Matches (Text.join "/" names).toList (Text.join "/" route).toList := by
  have relative : (exporter.base.descend route).relativeTo? exporter.base = some (route.map .normal) :=
    Path.after_eq_some.2 (Path.components_descend exporter.base plain)
  rw [isWanted, relative, Option.any_some, Glob.acceptsPath, normal, slashText_normal, slashText_normal,
    Bool.and_eq_true, Bool.not_eq_true', Glob.accepts_iff_matches (line_join lines)]

def Admits (exporter : InterfaceExport) (glob : Glob) (route : List String) : Prop :=
  (Fits (exporter.base.join glob.literalLead) ∧
    ∀ name, Path.Component.normal name ∈ glob.literalLead.components → name.utf8ByteSize ≤ nameLimit) ∧
  (exporter.base.join glob.literalLead).reaches (route.drop glob.literalLead.components.length) = true

theorem admits_iff (normal : glob.pattern.components = names.map .normal) (plain : ∀ name ∈ names, Plain name) :
    exporter.Admits glob route ↔ (Fits (exporter.base.join (Path.empty.descend (Glob.leadNames names))) ∧
      ∀ name ∈ Glob.leadNames names, name.utf8ByteSize ≤ nameLimit) ∧
        (exporter.base.join glob.literalLead).reaches (route.drop (Glob.leadNames names).length) = true := by
  have plainLead : ∀ name ∈ Glob.leadNames names, Plain name :=
    fun name member => plain name ((List.takeWhile_prefix _).subset member)
  have components : (Path.empty.descend (Glob.leadNames names)).components =
      (Glob.leadNames names).map .normal := by
    rw [Path.components_descend Path.empty plainLead, show Path.empty.components = [] by decide, List.nil_append]
  have listed : ∀ name, Path.Component.normal name ∈ (Glob.leadNames names).map Path.Component.normal ↔
      name ∈ Glob.leadNames names := by
    intro name
    simp
  rw [Admits, Glob.literalLead_eq normal, Path.ofComponents_normal, components, List.length_map]
  simp only [listed]

def routes (exporter : InterfaceExport) (glob : Glob) (names : List String) (tree : FileTree) :
    List (List String) :=
  match tree.node (exporter.base.join glob.literalLead) with
  | .ok node => ((node.leaves.filter (exporter.base.join glob.literalLead).reaches).map
      (Glob.leadNames names ++ ·)).filter fun route => exporter.isWanted glob (exporter.base.descend route)
  | .error _ => []

section
variable (tidy : tree.root.Tidy) (filled : exporter.base.text ≠ "")
  (normal : glob.pattern.components = names.map .normal) (plain : ∀ name ∈ names, Plain name)
  (noFile : tree.isFile (exporter.base.join glob.literalLead) = false)
include tidy plain noFile

/-- The walk begins at a directory. -/
theorem leaves_of_root {node : FileNode} (found : tree.node (exporter.base.join glob.literalLead) = .ok node) :
    (∃ entries, node = .directory entries) ∧ node.Tidy ∧ ∀ rest ∈ node.leaves,
      Glob.leadNames names ++ rest ≠ [] ∧ ∀ name ∈ Glob.leadNames names ++ rest, Plain name := by
  obtain ⟨_, _, there, _⟩ := node_eq_ok.1 found
  have tidyNode := FileNode.tidy_of_get? tidy there
  cases node with
  | file content =>
    rw [isFile, node?, found] at noFile
    cases noFile
  | directory entries =>
    refine ⟨⟨entries, rfl⟩, tidyNode, fun rest member => ?_⟩
    obtain ⟨content, below⟩ := (FileNode.mem_leaves tidyNode).1 member
    have goesOn : rest ≠ [] := by
      rintro rfl
      cases below
    refine ⟨fun empty => goesOn (List.append_eq_nil_iff.1 empty).2, fun name member => ?_⟩
    rcases List.mem_append.1 member with inLead | inRest
    · exact plain name ((List.takeWhile_prefix _).subset inLead)
    · exact FileNode.plain_of_get? tidyNode below name inRest

theorem sorted_routes : (exporter.routes glob names tree).Pairwise (· < ·) := by
  unfold routes
  cases found : tree.node (exporter.base.join glob.literalLead) with
  | error cause => exact .nil
  | ok node =>
    obtain ⟨-, tidyNode, -⟩ := leaves_of_root tidy plain noFile found
    have sorted := (FileNode.sorted_leaves tidyNode).filter (exporter.base.join glob.literalLead).reaches
    exact List.Pairwise.filter _ (List.pairwise_map.2 (sorted.imp fun before => List.append_left_lt before))

include normal

theorem matched_eq_routes : exporter.matched glob tree = (exporter.routes glob names tree).map exporter.base.descend := by
  rw [matched_of_not_isFile noFile]
  unfold routes
  cases found : tree.node (exporter.base.join glob.literalLead) with
  | error cause => exact listed_of_error found _
  | ok node =>
    obtain ⟨-, -, behind⟩ := leaves_of_root tidy plain noFile found
    have same : ∀ rest ∈ node.leaves, (exporter.base.join glob.literalLead).descend rest =
        exporter.base.descend (Glob.leadNames names ++ rest) := by
      intro rest member
      obtain ⟨goesOn, plainRoute⟩ := behind rest member
      rw [Glob.literalLead_eq normal, Path.ofComponents_normal]
      exact Path.descend_lead exporter.base plainRoute goesOn
    rw [listed_of_node found]
    dsimp only
    rw [List.filter_map, List.map_map, List.filter_filter]
    refine (List.map_congr_left fun rest member => same rest (List.mem_filter.1 member).1).trans ?_
    refine congrArg _ (List.filter_congr fun rest member => ?_)
    rw [same rest member]
    rfl

include filled in
/-- A file is among them if and only if it lies below the base, is wanted, and the walk for the pattern can
begin. -/
theorem mem_routes (lines : ∀ route, tree.IsFileBelow exporter.base route → ∀ name ∈ route, '\n' ∉ name.toList)
    {route : List String} : route ∈ exporter.routes glob names tree ↔
      tree.IsFileBelow exporter.base route ∧ exporter.Admits glob route ∧
        (exporter.base.descend route).isWithin exporter.outDir = false ∧
        Glob.Matches (Text.join "/" names).toList (Text.join "/" route).toList := by
  have plainLead : ∀ name ∈ Glob.leadNames names, Plain name :=
    fun name member => plain name ((List.takeWhile_prefix _).subset member)
  have filledText : exporter.base.text.toList ≠ [] := mt String.toList_eq_nil_iff.1 filled
  have isLead : glob.literalLead = Path.empty.descend (Glob.leadNames names) := by
    rw [Glob.literalLead_eq normal, Path.ofComponents_normal]
  rw [admits_iff normal plain]
  constructor
  · intro member
    unfold routes at member
    cases found : tree.node (exporter.base.join glob.literalLead) with
    | error cause =>
      rw [found] at member
      cases member
    | ok node =>
      rw [found] at member
      obtain ⟨⟨entries, rfl⟩, tidyNode, behind⟩ := leaves_of_root tidy plain noFile found
      obtain ⟨listed, isWanted⟩ := List.mem_filter.1 member
      obtain ⟨rest, reached, rfl⟩ := List.mem_map.1 listed
      obtain ⟨inside, reaches⟩ := List.mem_filter.1 reached
      obtain ⟨goesOn, plainRoute⟩ := behind rest inside
      obtain ⟨content, below⟩ := (FileNode.mem_leaves tidyNode).1 inside
      rw [isLead] at found
      obtain ⟨⟨root, there, onTheWay⟩, admitted⟩ := (node_lead_iff filledText plainLead).1 found
      have isFile : tree.IsFileBelow exporter.base (Glob.leadNames names ++ rest) :=
        ⟨goesOn, root, content, there, (FileNode.get?_append onTheWay rest).trans below⟩
      rw [List.drop_left]
      exact ⟨isFile, ⟨admitted, reaches⟩, (isWanted_iff normal plainRoute (lines _ isFile)).1 isWanted⟩
  · rintro ⟨isFile, ⟨admitted, reaches⟩, wanted⟩
    have plainRoute := isFile.plain tidy
    have isWanted := (isWanted_iff normal plainRoute (lines _ isFile)).2 wanted
    obtain ⟨goesOn, root, content, there, below⟩ := isFile
    obtain ⟨rest, rfl⟩ := Glob.leadNames_prefix (fun name member => (plain name member).whole) goesOn
      (fun name member => (plainRoute name member).whole) wanted.2
    rw [List.drop_left] at reaches
    obtain ⟨middle, onTheWay, below⟩ := FileNode.exists_of_get?_append below
    cases middle with
    | file other =>
      -- the lead itself would be a file
      cases rest with
      | cons name rest => cases below
      | nil =>
        rw [List.append_nil] at goesOn
        obtain ⟨name, more, split⟩ := List.exists_cons_of_ne_nil goesOn
        have isRoot : exporter.base.join glob.literalLead = exporter.base.descend (Glob.leadNames names) := by
          rw [isLead, split, Path.join_lead_cons exporter.base (split ▸ plainLead)]
        have found := (node_descend_iff filledText plainLead).2 ⟨⟨root, there, onTheWay⟩, isRoot ▸ isLead ▸ admitted⟩
        rw [isFile, node?, isRoot, found] at noFile
        cases noFile
    | directory entries =>
      have found := (node_lead_iff filledText plainLead).2 ⟨⟨root, there, onTheWay⟩, admitted⟩
      rw [← isLead] at found
      obtain ⟨-, tidyNode, -⟩ := leaves_of_root tidy plain noFile found
      unfold routes
      rw [found]
      have isLeaf := (FileNode.mem_leaves tidyNode).2 ⟨content, below⟩
      exact List.mem_filter.2 ⟨List.mem_map_of_mem (List.mem_filter.2 ⟨isLeaf, reaches⟩), isWanted⟩

end

/-- A pattern of names expands to the files below the base that it matches and that are not spelled as
files in the directory of the export, each once and in the order of their names. A file in that directory
is left out if and only if the directory is in sight from the base, so all of them are, and no others, where
base and directory are spelled alike up to names. -/
theorem expand_exact (tidy : tree.root.Tidy) (filled : exporter.base.text ≠ "")
    (normal : glob.pattern.components = names.map .normal)
    (noFile : tree.isFile (exporter.base.join glob.literalLead) = false)
    (lines : ∀ route, tree.IsFileBelow exporter.base route → ∀ name ∈ route, '\n' ∉ name.toList) :
    ∃ routes : List (List String), exporter.expand glob tree = (.ok (routes.map exporter.base.descend), tree) ∧
      routes.Pairwise (· < ·) ∧ (routes.map exporter.base.descend).Nodup ∧
      (∀ route, route ∈ routes ↔ tree.IsFileBelow exporter.base route ∧ exporter.Admits glob route ∧
        (exporter.base.descend route).isWithin exporter.outDir = false ∧
        Glob.Matches (Text.join "/" names).toList (Text.join "/" route).toList) ∧
      (∀ route, tree.IsFileBelow exporter.base route → (exporter.base.descend route).LiesIn exporter.outDir tree →
        ((exporter.base.descend route).isWithin exporter.outDir = true ↔ exporter.base.Sights exporter.outDir)) ∧
      (exporter.base.Parts exporter.outDir →
        ∀ route, route ∈ routes ↔ tree.IsFileBelow exporter.base route ∧ exporter.Admits glob route ∧
          ¬ (exporter.base.descend route).LiesIn exporter.outDir tree ∧
          Glob.Matches (Text.join "/" names).toList (Text.join "/" route).toList) := by
  have plain : ∀ name ∈ names, Plain name :=
    fun name member => Path.plain_of_component (normal ▸ List.mem_map_of_mem member)
  have members := fun route => @mem_routes exporter glob tree names tidy filled normal plain noFile lines route
  have sorted : (exporter.routes glob names tree).Pairwise (· < ·) := sorted_routes tidy plain noFile
  refine ⟨exporter.routes glob names tree, ?_, sorted, ?_, members, ?_, ?_⟩
  · rw [expand_eq, matched_eq_routes tidy normal plain noFile]
  · refine List.Nodup.map_on (fun one isOne other isOther same => ?_) sorted.nodup
    have plainOne := ((members one).1 isOne).1.plain tidy
    have plainOther := ((members other).1 isOther).1.plain tidy
    have components := congrArg Path.components same
    rw [Path.components_descend _ plainOne, Path.components_descend _ plainOther, List.append_right_inj] at components
    exact List.map_injective_iff.2 (fun _ _ => Path.Component.normal.inj) components
  · exact fun route below inside => Path.isWithin_descend_iff (below.plain tidy) inside
  · intro parts route
    rw [members]
    refine and_congr_right fun below => and_congr_right fun _ => and_congr_left fun _ => ?_
    rw [← Path.Parts.isWithin_iff parts (below.plain tidy), Bool.not_eq_true]

def roundaboutExport : InterfaceExport :=
  ⟨⟨"p"⟩, ⟨"p/sub/../abis"⟩, false, false, "Flat", 2, ["abis/*.json"]⟩

def roundabout : FileTree :=
  ⟨.directory [("p", .directory [("abis", .directory [("Own.json", .file "[]".toUTF8)]), ("sub", .directory [])])],
    [], none⟩

theorem expand_exact_roundabout :
    ∃ routes : List (List String),
      roundaboutExport.expand ⟨⟨"abis/*.json"⟩⟩ roundabout = (.ok (routes.map (Path.mk "p").descend), roundabout) ∧
      ["abis", "Own.json"] ∈ routes ∧
      ((Path.mk "p").descend ["abis", "Own.json"]).LiesIn roundaboutExport.outDir roundabout ∧
      ¬ (Path.mk "p").Sights roundaboutExport.outDir := by
  have tidy : roundabout.root.Tidy := FileNode.tidy_of_isTidy (by decide +kernel)
  have isRoot : roundabout.node ⟨"p"⟩ = .ok (.directory [("abis", .directory [("Own.json", .file "[]".toUTF8)]),
      ("sub", .directory [])]) := rfl
  have below : roundabout.IsFileBelow ⟨"p"⟩ ["abis", "Own.json"] := ⟨by decide, _, _, isRoot, rfl⟩
  have lines : ∀ route, roundabout.IsFileBelow ⟨"p"⟩ route → ∀ name ∈ route, '\n' ∉ name.toList := by
    rintro route ⟨-, root, content, found, there⟩
    rw [isRoot] at found
    cases found
    have listed := (FileNode.mem_leaves (FileNode.tidy_of_isTidy (by decide +kernel))).2 ⟨content, there⟩
    obtain rfl : route = ["abis", "Own.json"] := List.mem_singleton.1 listed
    decide +kernel
  obtain ⟨routes, expanded, -, -, members, seen, -⟩ := @expand_exact roundaboutExport ⟨⟨"abis/*.json"⟩⟩ roundabout
    ["abis", "*.json"] tidy (by decide) (by decide +kernel) (by decide +kernel) lines
  have inside : ((Path.mk "p").descend ["abis", "Own.json"]).LiesIn roundaboutExport.outDir roundabout :=
    ⟨["Own.json"], by decide +kernel⟩
  have unseen : ((Path.mk "p").descend ["abis", "Own.json"]).isWithin roundaboutExport.outDir = false := by
    decide +kernel
  refine ⟨routes, expanded, (members _).2 ⟨below, ?_, unseen, ?_⟩, inside, ?_⟩
  · refine ⟨⟨⟨by decide +kernel, by decide +kernel⟩, fun name member => ?_⟩, by decide +kernel⟩
    rw [show (Glob.mk ⟨"abis/*.json"⟩).literalLead.components = [.normal "abis"] by decide +kernel,
      List.mem_singleton] at member
    cases member
    decide +kernel
  · exact (Glob.accepts_iff_matches (by decide +kernel)).1 (by decide +kernel)
  · intro sights
    exact Bool.false_ne_true (unseen.symm.trans ((seen _ below inside).2 sights))

end InterfaceExport
end ContractBuild
