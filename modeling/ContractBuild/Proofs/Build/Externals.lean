import Mathlib.Data.String.Basic
import ContractBuild.Proofs.Build.Inputs

/-!
Descriptors from elsewhere. The files are those that the patterns stand for, pattern by pattern and each
time in the order of the walk; of the descriptors in them the first of each name counts, and they come in the
order of their names.
-/
namespace ContractBuild
open FileTree FileAction ContractBuild.Action

namespace Descriptor

def InOrder (descriptors : List Descriptor) : Prop :=
  descriptors.Pairwise fun one other => one.name < other.name

theorem mem_addNamed {descriptor other : Descriptor} {found : List Descriptor}
    (member : other ∈ addNamed descriptor found) : other = descriptor ∨ other ∈ found := by
  induction found with
  | nil => exact .inl (List.mem_singleton.1 member)
  | cons first found ih =>
    rw [addNamed] at member
    split at member
    · exact .inr member
    · split at member
      · exact List.mem_cons.1 member
      · rcases List.mem_cons.1 member with rfl | later
        · exact .inr List.mem_cons_self
        · exact (ih later).imp_right (List.mem_cons_of_mem _)

theorem InOrder.addNamed {found : List Descriptor} (ordered : InOrder found) (descriptor : Descriptor) :
    InOrder (addNamed descriptor found) := by
  induction found with
  | nil => exact List.pairwise_singleton _ _
  | cons first found ih =>
    obtain ⟨below, rest⟩ := List.pairwise_cons.1 ordered
    rw [Descriptor.addNamed]
    by_cases taken : first.name = descriptor.name
    · rw [if_pos taken]
      exact ordered
    · rw [if_neg taken]
      by_cases before : descriptor.name < first.name
      · rw [if_pos before]
        refine List.pairwise_cons.2 ⟨fun other member => ?_, ordered⟩
        rcases List.mem_cons.1 member with rfl | later
        · exact before
        · exact before.trans (below other later)
      · rw [if_neg before]
        refine List.pairwise_cons.2 ⟨fun other member => ?_, ih rest⟩
        rcases mem_addNamed member with rfl | old
        · exact lt_of_le_of_ne (not_lt.1 before) taken
        · exact below other old

/-- A descriptor takes the place of its name only if that is free. -/
theorem InOrder.find?_addNamed {found : List Descriptor} (ordered : InOrder found) (descriptor : Descriptor)
    (name : String) : (Descriptor.addNamed descriptor found).find? (·.name = name) =
      (found.find? (·.name = name)).or (if descriptor.name = name then some descriptor else none) := by
  induction found with
  | nil => by_cases here : descriptor.name = name <;> simp [Descriptor.addNamed, here]
  | cons first found ih =>
    obtain ⟨below, rest⟩ := List.pairwise_cons.1 ordered
    rw [Descriptor.addNamed]
    by_cases taken : first.name = descriptor.name
    · rw [if_pos taken]
      by_cases here : first.name = name
      · simp [here]
      · have other : descriptor.name ≠ name := taken ▸ here
        simp [other]
    · rw [if_neg taken]
      by_cases before : descriptor.name < first.name
      · rw [if_pos before, List.find?_cons]
        by_cases here : descriptor.name = name
        · have free : (first :: found).find? (·.name = name) = none := by
            rw [List.find?_eq_none]
            intro other member
            have after : descriptor.name < other.name := by
              rcases List.mem_cons.1 member with rfl | later
              · exact before
              · exact before.trans (below other later)
            simpa [← here] using after.ne'
          rw [free]
          simp [here]
        · simp [here]
      · rw [if_neg before]
        by_cases here : first.name = name
        · simp [here]
        · simp [here, ih rest]

/-- A descriptor is in the file that a path leads to, named by what it declares or else by the file's stem. -/
def IsAt (descriptor : Descriptor) (tree : FileTree) (path : Path) : Prop :=
  ∃ content text value, tree.Reveals path content ∧ String.fromUTF8? content = some text ∧
    Json.read? text = some value ∧
    ofJson ((declaredName? value).getD (path.fileStem?.getD "")) value = .ok descriptor

theorem load_ok {path : Path} {descriptor : Descriptor} {tree after : FileTree}
    (ran : load path tree = (.ok descriptor, after)) : descriptor.IsAt tree path := by
  unfold load at ran
  obtain ⟨text, middle, read, rest⟩ := bind_eq_ok ran
  obtain ⟨content, reveals, decoded⟩ := readText_ok (telling_ok.1 read)
  cases scanned : Json.read? text with
  | none =>
    rw [scanned] at rest
    cases rest
  | some value =>
    rw [scanned] at rest
    refine ⟨content, text, value, reveals, decoded, scanned, ?_⟩
    dsimp only at rest
    cases made : ofJson ((declaredName? value).getD (path.fileStem?.getD "")) value with
    | error cause =>
      rw [made] at rest
      cases rest
    | ok other =>
      rw [made] at rest
      cases rest
      rfl

theorem IsAt.of_sameFiles {descriptor : Descriptor} {before after : FileTree} {path : Path}
    (isAt : descriptor.IsAt after path) (same : before.SameFiles after) : descriptor.IsAt before path := by
  obtain ⟨content, text, value, ⟨location, located, asFile, there⟩, rest⟩ := isAt
  rw [same.locate_eq] at located
  rw [same.place_eq, same.fileAt_eq] at there
  exact ⟨content, text, value, ⟨location, located, asFile, there⟩, rest⟩

end Descriptor

namespace InterfaceExport

/-- The files of a pattern, in order: they are reached from the lead of the pattern by rising routes. -/
theorem matched_rises (exporter : InterfaceExport) (glob : Glob) {tree : FileTree} (tidy : tree.root.Tidy) :
    ∃ routes : List (List String), routes.Pairwise (· < ·) ∧
      exporter.matched glob tree = routes.map (exporter.base.join glob.literalLead).descend := by
  unfold matched
  dsimp only
  split
  · exact ⟨[[]], List.pairwise_singleton _ _, rfl⟩
  · cases found : tree.node (exporter.base.join glob.literalLead) with
    | error cause => exact ⟨[], .nil, listed_of_error found _⟩
    | ok node =>
      obtain ⟨_, _, there, _⟩ := node_eq_ok.1 found
      exact ⟨_, (FileNode.sorted_leaves (FileNode.tidy_of_get? tidy there)).filter _, listed_of_node found _⟩

theorem matched_of_sameFiles (exporter : InterfaceExport) (glob : Glob) {before after : FileTree}
    (same : before.SameFiles after) : exporter.matched glob after = exporter.matched glob before := by
  unfold matched listed filesReached isFile node?
  dsimp only
  rw [same.node_eq]

def sought (exporter : InterfaceExport) (patterns : List String) (tree : FileTree) : List Path :=
  patterns.flatMap fun pattern => exporter.matched ⟨⟨pattern⟩⟩ tree

/-- The descriptors that a tree holds for some patterns: those of the files that are looked for, the first of
each name, in the order of their names. The files of a pattern come in the order of the routes to them. -/
structure Gathers (exporter : InterfaceExport) (tree : FileTree) (externals : List Descriptor) : Prop where
  rises : ∀ pattern ∈ exporter.externals, ∃ routes : List (List String), routes.Pairwise (· < ·) ∧
    exporter.matched ⟨⟨pattern⟩⟩ tree = routes.map (exporter.base.join (Glob.mk ⟨pattern⟩).literalLead).descend
  inOrder : Descriptor.InOrder externals
  first : ∃ read, List.Forall₂ (fun path descriptor => Descriptor.IsAt descriptor tree path)
      (exporter.sought exporter.externals tree) read ∧
    ∀ name, externals.find? (·.name = name) = read.find? (·.name = name)

theorem readAll_ok {found descriptors : List Descriptor} {paths : List Path} {tree after : FileTree}
    (ran : readAll found paths tree = (.ok descriptors, after)) (ordered : Descriptor.InOrder found) :
    Descriptor.InOrder descriptors ∧ tree.SameFiles after ∧
      ∃ read, List.Forall₂ (fun path descriptor => Descriptor.IsAt descriptor tree path) paths read ∧
        ∀ name, descriptors.find? (·.name = name) = (found ++ read).find? (·.name = name) := by
  induction paths generalizing found tree with
  | nil =>
    cases ran
    exact ⟨ordered, .refl _, [], .nil, fun name => by rw [List.append_nil]⟩
  | cons path paths ih =>
    obtain ⟨descriptor, middle, loaded, rest⟩ := bind_eq_ok ran
    have same := reads_loadDescriptor path tree
    rw [loaded] at same
    obtain ⟨inOrder, later, read, each, first⟩ := ih rest (ordered.addNamed descriptor)
    refine ⟨inOrder, same.trans later, descriptor :: read, .cons (Descriptor.load_ok loaded)
      (each.imp fun _ _ isAt => isAt.of_sameFiles same), fun name => ?_⟩
    rw [first, List.find?_append, List.find?_append, ordered.find?_addNamed, Option.or_assoc]
    congr 1
    by_cases here : descriptor.name = name <;> simp [here]

theorem loadFrom_ok {exporter : InterfaceExport} {found descriptors : List Descriptor} {patterns : List String}
    {tree after : FileTree} (ran : exporter.loadFrom found patterns tree = (.ok descriptors, after))
    (ordered : Descriptor.InOrder found) :
    Descriptor.InOrder descriptors ∧
      ∃ read, List.Forall₂ (fun path descriptor => Descriptor.IsAt descriptor tree path)
          (exporter.sought patterns tree) read ∧
        ∀ name, descriptors.find? (·.name = name) = (found ++ read).find? (·.name = name) := by
  induction patterns generalizing found tree with
  | nil =>
    cases ran
    exact ⟨ordered, [], .nil, fun name => by rw [List.append_nil]⟩
  | cons pattern patterns ih =>
    have expanded : (liftM (exporter.expand ⟨⟨pattern⟩⟩) : BuildAction (List Path)) tree =
        (.ok (exporter.matched ⟨⟨pattern⟩⟩ tree), tree) :=
      telling_ok.2 (exporter.expand_eq ⟨⟨pattern⟩⟩ tree)
    unfold loadFrom at ran
    rw [bind_of_ok expanded] at ran
    obtain ⟨more, middle, loaded, rest⟩ := bind_eq_ok ran
    obtain ⟨inOrderMore, same, here, eachHere, firstHere⟩ := readAll_ok loaded ordered
    obtain ⟨inOrder, later, eachLater, first⟩ := ih rest inOrderMore
    have soughtAgain : exporter.sought patterns middle = exporter.sought patterns tree := by
      unfold sought
      simp only [matched_of_sameFiles _ _ same]
    rw [soughtAgain] at eachLater
    refine ⟨inOrder, here ++ later, ?_, fun name => ?_⟩
    · rw [sought, List.flatMap_cons]
      exact List.rel_append eachHere (eachLater.imp fun _ _ isAt => isAt.of_sameFiles same)
    · rw [first, List.find?_append, firstHere, ← List.find?_append, List.append_assoc]

theorem loadExternals_ok {exporter : InterfaceExport} {externals : List Descriptor} {tree after : FileTree}
    (ran : exporter.loadExternals tree = (.ok externals, after)) (tidy : tree.root.Tidy) :
    exporter.Gathers tree externals := by
  obtain ⟨inOrder, read, each, first⟩ := loadFrom_ok ran .nil
  exact ⟨fun pattern _ => exporter.matched_rises ⟨⟨pattern⟩⟩ tidy, inOrder, read, each, first⟩

end InterfaceExport
end ContractBuild
