import ContractBuild.Proofs.Build.Grounds

/-!
When bindings keep apart. Two bindings share a file, and an index has two entries of one name, where
the names of their descriptors are respellings of each other, and nowhere else.
-/
namespace ContractBuild
open FileTree
open Relation (EqvGen)

namespace Dialect

def exportedName : Dialect → String → String
  | ethersV5, name => TypeScript.typeName name
  | rust, name => RustModule.identifierText (RustModule.moduleName name)

def indexHead : Dialect → String
  | ethersV5 => TypeScript.linesText (TypeScript.banner header)
  | rust => "// " ++ header ++ "\n\n"

def indexEntry : Dialect → (exported name : String) → String
  | ethersV5, exported, name => TypeScript.linesText [
      "export type \x7b " ++ exported ++ " \x7d from \"./" ++ name ++ "\";",
      "export \x7b connect" ++ exported ++ ", " ++ exported ++ "__abi \x7d from \"./" ++ name ++ "\";"]
  | rust, exported, _ => RustModule.tokens ["pub", "mod", exported, ";"] ++ "\n"

/-- The index has one entry for each name, and says of it what it exports it under. -/
theorem renderIndex_eq (dialect : Dialect) (names : List String) :
    dialect.renderIndex names =
      dialect.indexHead ++ String.join (names.map fun name => dialect.indexEntry (dialect.exportedName name) name) := by
  cases dialect with
  | ethersV5 =>
    show TypeScript.linesText (_ ++ _) = _
    rw [TypeScript.linesText_append]
    congr 1
    induction names with
    | nil => rfl
    | cons name names ih =>
      rw [List.flatMap_cons, TypeScript.linesText_append, ih, List.map_cons, String.join_cons]
      rfl
  | rust => rfl

theorem exportedName_eq_iff {dialect : Dialect} {one other : String} :
    dialect.exportedName one = dialect.exportedName other ↔ EqvGen dialect.Respelling one.toList other.toList := by
  rw [← stem_eq_iff]
  cases dialect with
  | ethersV5 => rfl
  | rust => exact RustModule.identifierText_moduleName_inj

def Apart (dialect : Dialect) (one other : Descriptor) : Prop :=
  ¬ EqvGen dialect.Respelling one.name.toList other.name.toList

end Dialect

namespace BindingExport

variable {exporter : BindingExport} {tree : FileTree}

/-- The index has an entry for each descriptor, and exports them under different names if and only if no
two of their names are respellings of each other. So much is needed for modules to have files of their own,
while files of TypeScript keep the names of their descriptors, which are told apart as long as none holds a
separator. -/
theorem bindings_apart_iff (exporter : BindingExport) (tree : FileTree) {descriptors : List Descriptor}
    (distinct : (descriptors.map (·.name)).Nodup)
    (whole : exporter.dialect = .ethersV5 → ∀ descriptor ∈ descriptors, '/' ∉ descriptor.name.toList) :
    ((descriptors.map fun descriptor => tree.place (exporter.bindingPath descriptor.name)).Nodup ↔
      (exporter.dialect = .rust → descriptors.Pairwise exporter.dialect.Apart)) ∧
    exporter.dialect.renderIndex (descriptors.map (·.name)) = exporter.dialect.indexHead ++
      String.join (descriptors.map fun descriptor =>
        exporter.dialect.indexEntry (exporter.dialect.exportedName descriptor.name) descriptor.name) ∧
    ((descriptors.map fun descriptor => exporter.dialect.exportedName descriptor.name).Nodup ↔
      descriptors.Pairwise exporter.dialect.Apart) := by
  refine ⟨?_, ?_, ?_⟩
  · cases dialect : exporter.dialect with
    | ethersV5 =>
      refine ⟨nofun, fun _ => ?_⟩
      have names : descriptors.Pairwise fun one other => one.name ≠ other.name := List.pairwise_map.1 distinct
      refine List.pairwise_map.2 (names.imp_of_mem fun {one other} isOne isOther differs same => ?_)
      have stems : ∀ name, exporter.dialect.fileStem name = name := by
        intro name
        rw [dialect]
        rfl
      rw [bindingPath, bindingPath, stems, stems,
        place_file_eq_iff (whole dialect one isOne) (whole dialect other isOther)] at same
      exact differs same
    | rust =>
      have stems : ∀ name, exporter.dialect.fileStem name = RustModule.moduleName name := by
        intro name
        rw [dialect]
        rfl
      have each : ∀ one other : Descriptor,
          tree.place (exporter.bindingPath one.name) ≠ tree.place (exporter.bindingPath other.name) ↔
            Dialect.rust.Apart one other := by
        intro one other
        rw [ne_eq, bindingPath, bindingPath, stems, stems,
          place_file_eq_iff (Ground.moduleName_whole _) (Ground.moduleName_whole _)]
        exact not_congr (@Dialect.stem_eq_iff .rust one.name other.name)
      rw [List.Nodup, List.pairwise_map]
      exact (List.Pairwise.iff each).trans ⟨fun apart _ => apart, fun apart => apart rfl⟩
  · rw [Dialect.renderIndex_eq, List.map_map]
    rfl
  · rw [List.Nodup, List.pairwise_map]
    exact List.Pairwise.iff fun one other => not_congr Dialect.exportedName_eq_iff

def moduleExport : BindingExport :=
  ⟨⟨"out"⟩, .rust, false, false⟩

theorem bindings_apart_iff_tokens :
    let descriptors : List Descriptor := [⟨"Token", []⟩, ⟨"token", []⟩]
    (descriptors.map (·.name)).Nodup ∧ ¬ descriptors.Pairwise moduleExport.dialect.Apart ∧
      ¬ (descriptors.map fun descriptor =>
        (FileTree.within []).place (moduleExport.bindingPath descriptor.name)).Nodup ∧
      ¬ (descriptors.map fun descriptor => moduleExport.dialect.exportedName descriptor.name).Nodup := by
  intro descriptors
  have distinct : (descriptors.map (·.name)).Nodup := by decide
  obtain ⟨places, -, exported⟩ := bindings_apart_iff moduleExport (FileTree.within []) distinct nofun
  have small : ∀ d ∈ "oken".toList.head?, Text.isUppercase d = false := by
    rintro d ⟨⟩
    decide
  have respelled : EqvGen (Dialect.Respelling .rust) "Token".toList "token".toList :=
    .rel _ _ (@Dialect.Respelling.small [] "oken".toList 'T' small)
  have meet : ¬ descriptors.Pairwise moduleExport.dialect.Apart := fun apart =>
    (List.pairwise_pair.1 apart) respelled
  exact ⟨distinct, meet, fun nodup => meet (places.1 nodup rfl), fun nodup => meet (exported.1 nodup)⟩

end BindingExport
end ContractBuild
