import ContractBuild.Proofs.Build.Inputs
import ContractBuild.Proofs.Build.OwnOutput
import ContractBuild.Proofs.FileTree.Respelt

/-!
Which files are found as sources, and in which order. The walk goes through the directories one inside
the other, each in the order of its names, and that is the order of the paths by their components: a
directory stands with all that it holds in front of a file whose name goes on behind the directory's.
-/
namespace ContractBuild
open FileTree Text
open FileNode (Plain)

namespace Path

def Component.rank : Component → Nat
  | root => 0
  | current => 1
  | parent => 2
  | normal _ => 3

def Component.Before : Component → Component → Prop
  | normal name, normal other => name < other
  | one, other => one.rank < other.rank

def Before (one other : Path) : Prop :=
  List.Lex Component.Before one.components other.components

theorem Component.not_before_self (component : Component) : ¬ component.Before component := by
  cases component with
  | normal name => exact lt_irrefl name
  | _ => exact lt_irrefl _

theorem not_before_self (path : Path) : ¬ path.Before path := by
  have stands : ∀ components : List Component, ¬ List.Lex Component.Before components components := by
    intro components
    induction components with
    | nil => exact nofun
    | cons component components ih =>
      intro before
      cases before with
      | rel first => exact component.not_before_self first
      | cons later => exact ih later
  exact stands path.components

theorem Component.Before.trans {first middle last : Component} (earlier : first.Before middle)
    (later : middle.Before last) : first.Before last := by
  cases first <;> cases middle <;> cases last <;>
    first
    | exact lt_trans (α := String) earlier later
    | simp_all [Component.Before, Component.rank]

theorem Before.trans {first middle last : Path} (earlier : first.Before middle) (later : middle.Before last) :
    first.Before last := by
  have follows : ∀ {one other third : List Component}, List.Lex Component.Before one other →
      List.Lex Component.Before other third → List.Lex Component.Before one third := by
    intro one other third earlier later
    induction earlier generalizing third with
    | nil => cases later <;> exact .nil
    | cons _ ih =>
      cases later with
      | rel first => exact .rel first
      | cons later => exact .cons (ih later)
    | rel first =>
      cases later with
      | rel next => exact .rel (Component.Before.trans first next)
      | cons later => exact .rel first
  exact follows earlier later

instance : IsStrictOrder Path Before where
  irrefl := not_before_self
  trans _ _ _ := Before.trans

/-- Below one path the order is that of the names behind it. -/
theorem before_descend (base : Path) {names others : List String} (plain : ∀ name ∈ names, Plain name)
    (plainOthers : ∀ name ∈ others, Plain name) (lt : names < others) :
    (base.descend names).Before (base.descend others) := by
  have among : List.Lex Component.Before (names.map .normal) (others.map .normal) := by
    clear plain plainOthers
    induction lt with
    | nil => exact .nil
    | cons _ ih => exact .cons ih
    | rel first => exact .rel first
  rw [Before, components_descend base plain, components_descend base plainOthers]
  exact List.Lex.append_left _ among _

end Path

theorem isSource_iff {path : Path} :
    isSource path = true ↔ path.extension? = some "sol" ∨ path.extension? = some "vy" := by
  have known : ∀ extension, (Language.ofExtension? extension).isSome = true ↔
      extension = "sol" ∨ extension = "vy" := by
    intro extension
    unfold Language.ofExtension?
    split <;> simp_all
  unfold isSource Language.ofPath?
  cases path.extension? with
  | none => simp
  | some extension => simpa using known extension

/-- The sources at and below a root are the files there with one of the two extensions, each once and in
the order of their paths. There are none if the root is missing. A directory whose path is too long to open it
stops the walk: then nothing is found. -/
theorem discoverSources_exact {tree : FileTree} (tidy : tree.root.Tidy) (quiet : tree.faultAfter = none)
    (root : Path) :
    (tree.exists? root = false → discoverSources root tree = (.ok [], tree)) ∧
    (tree.Opens root → ∃ paths, discoverSources root tree = (.ok paths, tree) ∧
      paths.Pairwise Path.Before ∧ (paths.map tree.place).Nodup ∧
      ∀ path, path ∈ paths ↔
        (path.extension? = some "sol" ∨ path.extension? = some "vy") ∧ tree.exists? root = true ∧
          ∃ names content, path = root.descend names ∧
            tree.fileAt (tree.place root ++ names) = some content) ∧
    (¬ tree.Opens root → ∃ names, tree.IsDirectoryAt (tree.place root ++ names) ∧
      pathLimit < (root.descend names).text.utf8ByteSize ∧
        discoverSources root tree = (.error (.file (.unopened (root.descend names))), tree)) := by
  refine ⟨discoverSources_of_missing, fun opens => ?_, fun closed => discoverSources_of_not_opens tidy closed quiet⟩
  refine ⟨tree.listed root isSource, discoverSources_eq tidy opens quiet, ?_⟩
  cases found : tree.node root with
  | error cause =>
    have missing : ¬ tree.exists? root = true := by
      rintro isThere
      obtain ⟨node, there⟩ := exists?_iff.1 isThere
      cases found.symm.trans there
    simp [listed_of_error found, missing]
  | ok node =>
    have there : tree.exists? root = true := exists?_iff.2 ⟨node, found⟩
    obtain ⟨location, located, here, -⟩ := node_eq_ok.1 found
    have tidyNode := FileNode.tidy_of_get? tidy here
    have isPlace : tree.place root = location.names := (locate_ok located).1.symm
    have plain : ∀ names ∈ node.leaves, ∀ name ∈ names, Plain name := by
      intro names member
      obtain ⟨content, below⟩ := (FileNode.mem_leaves tidyNode).1 member
      exact FileNode.plain_of_get? tidyNode below
    have listing := listed_of_opens tidy found opens isSource
    have sorted := (FileNode.sorted_leaves tidyNode).filter fun names => isSource (root.descend names)
    have inside : ∀ names ∈ node.leaves.filter fun names => isSource (root.descend names), names ∈ node.leaves :=
      fun names member => (List.mem_filter.1 member).1
    refine ⟨?_, ?_, fun path => ?_⟩
    · rw [listing, List.pairwise_map]
      exact sorted.imp_of_mem fun one other lt =>
        Path.before_descend root (plain _ (inside _ one)) (plain _ (inside _ other)) lt
    · rw [listing, List.map_map]
      refine List.Nodup.map_on (fun one isOne other isOther same => ?_) sorted.nodup
      have place : ∀ {names}, names ∈ node.leaves → tree.place (root.descend names) = tree.place root ++ names :=
        fun member => placeFrom_descend _ (plain _ member)
      have together : tree.place root ++ one = tree.place root ++ other := by
        rw [← place (inside _ isOne), ← place (inside _ isOther)]
        exact same
      exact List.append_cancel_left together
    · rw [mem_listed tidy, isSource_iff]
      refine and_congr_right fun _ => ?_
      constructor
      · rintro ⟨other, names, content, same, rfl, -, below⟩
        rw [found] at same
        cases same
        exact ⟨there, names, content, rfl, (fileAt_descend tidy found below).2⟩
      · rintro ⟨-, names, content, rfl, isFile⟩
        rw [isPlace, fileAt_eq_some, FileNode.get?_append here] at isFile
        exact ⟨node, names, content, found, rfl, FileNode.reaches_of_fits (opens.fits found) isFile, isFile⟩

/-- Sources whose names go on behind the name of a directory, and files that are none. -/
def crossedSources : FileTree :=
  ⟨.directory [("contracts", .directory [
      (".sol", .file "".toUTF8),
      ("a", .directory [("z.vy", .file "".toUTF8)]),
      ("a-b.sol", .file "".toUTF8),
      ("a.sol", .file "".toUTF8),
      ("notes.sol.md", .file "".toUTF8)])], [], none⟩

theorem discoverSources_crossed :
    crossedSources.root.Tidy ∧ crossedSources.faultAfter = none ∧
      crossedSources.Opens ⟨"contracts"⟩ ∧
      ∃ paths, discoverSources ⟨"contracts"⟩ crossedSources = (.ok paths, crossedSources) ∧
        paths.Pairwise Path.Before ∧ Path.mk "contracts/a/z.vy" ∈ paths ∧ Path.mk "contracts/a.sol" ∈ paths ∧
        Path.mk "contracts/.sol" ∉ paths := by
  have tidy : crossedSources.root.Tidy := FileNode.tidy_of_isTidy (by decide +kernel)
  have there : crossedSources.exists? ⟨"contracts"⟩ = true := by decide +kernel
  have opens : crossedSources.Opens ⟨"contracts"⟩ := opens_of_isSome tidy (by decide +kernel)
  obtain ⟨paths, found, sorted, -, members⟩ := (discoverSources_exact tidy rfl ⟨"contracts"⟩).2.1 opens
  refine ⟨tidy, rfl, opens, paths, found, sorted, ?_, ?_, ?_⟩
  · exact (members _).2 ⟨by decide +kernel, there, ["a", "z.vy"], "".toUTF8, by decide +kernel, by decide +kernel⟩
  · exact (members _).2 ⟨by decide +kernel, there, ["a.sol"], "".toUTF8, by decide +kernel, by decide +kernel⟩
  · rw [members]
    exact fun listed => absurd listed.1 (by decide +kernel)

def nestedSource : FileTree :=
  ⟨.directory [("contracts", .directory [("sub", .directory [("A.vy", .file "".toUTF8)])])], [], none⟩

def slashedSources : Path :=
  ⟨"contracts" ++ String.ofList (List.replicate 4086 '/')⟩

theorem text_slashedSources : slashedSources.text.toList = "contracts".toList ++ List.replicate 4086 '/' :=
  String.toList_append.trans (congrArg _ String.toList_ofList)

theorem ends_slashedSources :
    slashedSources.text.toList = ("contracts".toList ++ List.replicate 4085 '/') ++ ['/'] := by
  rw [text_slashedSources, List.append_assoc, ← List.replicate_succ']

theorem size_slashedSources : slashedSources.text.utf8ByteSize = pathLimit := by
  have slashes : ∀ count, (String.ofList (List.replicate count '/')).utf8ByteSize = count := by
    intro count
    induction count with
    | zero => rfl
    | succ count ih =>
      rw [List.replicate_succ, String.ofList_cons, String.utf8ByteSize_append, ih, String.utf8ByteSize_singleton]
      exact Nat.add_comm 1 count
  rw [slashedSources, String.utf8ByteSize_append, slashes]
  rfl

theorem slashedSources_alike : slashedSources.Alike ⟨"contracts/"⟩ := by
  have named : ∀ (text : List Char) (count : Nat),
      Path.named (text ++ List.replicate count '/') = Path.named text := by
    intro text count
    induction count with
    | zero => rw [List.replicate_zero, List.append_nil]
    | succ count ih => rw [List.replicate_succ', ← List.append_assoc, Path.named_append_slash, ih]
  refine ⟨⟨?_, ?_⟩, ?_, ?_, by decide⟩
  · rw [Path.isAbsolute, text_slashedSources]
    rfl
  · rw [text_slashedSources, named]
    decide
  · rw [asksDirectory, ends_slashedSources, endsIdle, splitOn_append, List.getLast?_append_of_ne_nil _ (splitOn_ne_nil '/' [])]
    decide
  · rw [ends_slashedSources]
    exact List.append_ne_nil_of_right_ne_nil _ (List.cons_ne_nil _ _)

/-- A source is not found though it is there: the directory that holds it cannot be opened by its path. -/
theorem discoverSources_slashed :
    nestedSource.root.Tidy ∧ nestedSource.faultAfter = none ∧ nestedSource.exists? slashedSources = true ∧
      (∃ names content, (slashedSources.descend names).extension? = some "vy" ∧
        nestedSource.fileAt (nestedSource.place slashedSources ++ names) = some content) ∧
      ∃ cause, discoverSources slashedSources nestedSource = (.error cause, nestedSource) := by
  have tidy : nestedSource.root.Tidy := FileNode.tidy_of_isTidy (by decide +kernel)
  have fits : Fits slashedSources := by
    refine ⟨?_, size_slashedSources.le⟩
    rw [text_slashedSources, List.contains_eq_mem, decide_eq_false_iff_not, List.mem_append, not_or]
    exact ⟨by decide, fun member => absurd (List.eq_of_mem_replicate member) (by decide)⟩
  obtain ⟨node, found, inside, below⟩ : ∃ node, nestedSource.node ⟨"contracts/"⟩ = .ok node ∧
      node.get? ["sub"] = some (.directory [("A.vy", .file "".toUTF8)]) ∧
      node.get? ["sub", "A.vy"] = some (.file "".toUTF8) := ⟨_, rfl, rfl, rfl⟩
  have there := (slashedSources_alike.node_iff fits ⟨by decide, by decide⟩).2 found
  have closed : ¬ nestedSource.Opens slashedSources := by
    intro opens
    have short := opens.fits there ["sub"] _ inside
    have behind : ∀ {path : Path} {front : List Char}, path.text.toList = front ++ ['/'] →
        (path.descend ["sub"]).text = path.text ++ "sub" := by
      intro path front ends
      show (path.join ⟨"sub"⟩).text = _
      rw [Path.join, if_neg (by decide), ends, List.getLast?_concat]
      rfl
    rw [behind ends_slashedSources, String.utf8ByteSize_append, size_slashedSources] at short
    exact absurd short (by decide)
  obtain ⟨_, _, _, fails⟩ := discoverSources_of_not_opens tidy closed rfl
  refine ⟨tidy, rfl, exists?_iff.2 ⟨node, there⟩, ⟨["sub", "A.vy"], _, ?_, (fileAt_descend tidy there below).2⟩,
    _, fails⟩
  rw [Path.extension?, (slashedSources_alike.descend _).fileName?_eq]
  decide +kernel

end ContractBuild
