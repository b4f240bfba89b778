import ContractBuild.Proofs.Build.Bounded
import ContractBuild.Proofs.Build.Externals

/-!
What leaves the directory of an export. Interfaces and bindings are files directly in their
directories, except for those of a descriptor from elsewhere that declares a name with a separator in
it: such a name is taken for a path. Modules are named by what is left of a name without separators,
so no binding in Rust leaves its directory.
-/
namespace ContractBuild
open FileTree FileAction ContractBuild.Action

def FileTree.IsDirectlyIn (tree : FileTree) (directory : Path) (names : List String) : Prop :=
  ∃ name, names = tree.place directory ++ [name]

namespace Descriptor

def IsDeclaredAt (descriptor : Descriptor) (tree : FileTree) (path : Path) : Prop :=
  ∃ content text value, tree.Reveals path content ∧ String.fromUTF8? content = some text ∧
    Json.read? text = some value ∧ declaredName? value = some descriptor.name

theorem name_of_ofJson {name : String} {value : Json} {descriptor : Descriptor}
    (made : ofJson name value = .ok descriptor) : descriptor.name = name := by
  unfold ofJson at made
  cases found : interfaceOf value with
  | error cause =>
    rw [found] at made
    cases made
  | ok entries =>
    rw [found] at made
    dsimp only [bind, Except.bind] at made
    split at made
    · cases made
    · cases made
      rfl

theorem IsAt.isDeclaredAt {descriptor : Descriptor} {tree : FileTree} {path : Path}
    (isAt : descriptor.IsAt tree path) (separated : '/' ∈ descriptor.name.toList) :
    descriptor.IsDeclaredAt tree path := by
  obtain ⟨content, text, value, reveals, decoded, scanned, made⟩ := isAt
  refine ⟨content, text, value, reveals, decoded, scanned, ?_⟩
  have name := name_of_ofJson made
  cases declared : declaredName? value with
  | some other => rw [name, declared, Option.getD_some]
  | none =>
    rw [declared, Option.getD_none] at name
    -- without a declared name the descriptor is named after the file, whose stem has no separator
    cases stem : path.fileStem? with
    | none =>
      rw [name, stem] at separated
      simp at separated
    | some other =>
      rw [name, stem] at separated
      exact absurd separated (Path.fileStem?_whole stem)

def Strays (descriptor : Descriptor) (descriptors : List Descriptor) : Prop :=
  descriptor ∈ descriptors ∧ '/' ∈ descriptor.name.toList

theorem InOrder.eq_of_name {descriptors : List Descriptor} (ordered : InOrder descriptors)
    {one other : Descriptor} (isOne : one ∈ descriptors) (isOther : other ∈ descriptors)
    (same : one.name = other.name) : one = other := by
  have distinct : (descriptors.map (·.name)).Nodup := List.pairwise_map.2 (ordered.imp ne_of_lt)
  exact List.inj_on_of_nodup_map distinct isOne isOther same

end Descriptor

namespace InterfaceExport

variable {exporter : InterfaceExport} {externals descriptors : List Descriptor} {selection : List String}
  {lookup : String → Option Artifact} {tree after : FileTree}

theorem isAt_of_loaded (loaded : exporter.loadExternals tree = (.ok externals, after))
    {descriptor : Descriptor} (member : descriptor ∈ externals) :
    ∃ path ∈ exporter.sought exporter.externals tree, descriptor.IsAt tree path := by
  obtain ⟨inOrder, read, each, first⟩ := loadFrom_ok loaded .nil
  have found : externals.find? (·.name = descriptor.name) = some descriptor := by
    cases found : externals.find? (·.name = descriptor.name) with
    | none => simpa using List.find?_eq_none.1 found descriptor member
    | some other =>
      have same : other.name = descriptor.name := by simpa using List.find?_some found
      rw [inOrder.eq_of_name (List.mem_of_find?_eq_some found) member same]
  -- the descriptor is the first of its name among those that were read, so some file was read as it
  rw [first, List.nil_append] at found
  obtain ⟨⟨position, inside⟩, rfl⟩ := List.mem_iff_get.1 (List.mem_of_find?_eq_some found)
  obtain ⟨lengths, related⟩ := List.forall₂_iff_get.1 each
  exact ⟨_, List.get_mem _ _, related position (lengths ▸ inside) inside⟩

theorem strays_of_selected (flatName : '/' ∉ exporter.flatName.toList)
    (live : ∀ name ∈ selection, ∀ artifact, lookup name = some artifact → '/' ∉ artifact.name.toList)
    (loaded : exporter.loadExternals tree = (.ok externals, after))
    (selected : exporter.select selection lookup externals = .ok descriptors) {descriptor : Descriptor}
    (strays : descriptor.Strays descriptors) :
    exporter.flat = false ∧ ∃ path, descriptor.IsDeclaredAt tree path := by
  obtain ⟨member, separated⟩ := strays
  rcases mem_of_select selected member with
    merged | ⟨apart, ⟨name, isSelected, artifact, isLive, rfl⟩ | external⟩
  · exact absurd (merged ▸ separated) flatName
  · exact absurd separated (live name isSelected artifact isLive)
  · obtain ⟨path, -, isAt⟩ := isAt_of_loaded loaded external
    exact ⟨apart, path, isAt.isDeclaredAt separated⟩

/-- Writing changes files directly in the directory, and else those of descriptors astray. -/
theorem write_contained (exporter : InterfaceExport) (descriptors : List Descriptor) (selection : List String)
    (tidy : tree.root.Tidy) :
    Confined (fun names => tree.IsDirectlyIn exporter.outDir names ∨
        ∃ descriptor : Descriptor, descriptor.Strays descriptors ∧
          names = tree.place (exporter.descriptorPath descriptor.name))
      tree (exporter.write descriptors selection tree).2 := by
  apply (exporter.write_confined descriptors selection tidy).mono
  -- a file that is written or purged away
  rintro names (⟨descriptor, member, rfl⟩ | ⟨name, plain, _, rfl⟩)
  · by_cases separated : '/' ∈ descriptor.name.toList
    · exact .inr ⟨descriptor, ⟨member, separated⟩, rfl⟩
    · exact .inl ⟨_, placeFrom_join_plain _ _ (suffix_json.plain separated)⟩
  · exact .inl ⟨name, placeFrom_join_plain _ _ plain⟩

/-- Where writing goes well, the file of every descriptor is there, astray or not. -/
theorem fileAt_of_written {paths : List Path}
    (wrote : exporter.write descriptors selection tree = (.ok paths, after)) {descriptor : Descriptor}
    (member : descriptor ∈ descriptors) :
    ∃ content, after.fileAt (after.place (exporter.descriptorPath descriptor.name)) = some content := by
  obtain ⟨made, -, each⟩ := write_ok wrote
  obtain ⟨-, written⟩ := writeEach_ok each
  obtain ⟨write, listed, path⟩ : ∃ write ∈ exporter.writes descriptors,
      write.1 = exporter.descriptorPath descriptor.name := ⟨_, List.mem_map_of_mem member, rfl⟩
  obtain ⟨content, left⟩ : ∃ content, Output.left made.workingDirectory (exporter.writes descriptors)
      (placeFrom made.workingDirectory write.1) = some content := Output.left_isSome_of_mem listed
  refine ⟨content, ?_⟩
  rw [written.confined.place_eq, ← path]
  exact written.there _ _ left

end InterfaceExport

namespace BindingExport

variable {tree : FileTree}

/-- Generating changes files directly in the directory, and in one dialect those of descriptors astray. -/
theorem generate_contained (exporter : BindingExport) (descriptors : List Descriptor) (tidy : tree.root.Tidy) :
    Confined (fun names => tree.IsDirectlyIn exporter.outDir names ∨
        exporter.dialect = .ethersV5 ∧ ∃ descriptor : Descriptor, descriptor.Strays descriptors ∧
          names = tree.place (exporter.bindingPath descriptor.name))
      tree (exporter.generate descriptors tree).2 := by
  apply (exporter.generate_confined descriptors tidy).mono
  rintro names (⟨path, expected, rfl⟩ | ⟨name, plain, _, rfl⟩)
  · rw [expectedFiles, List.mem_append, List.mem_map, List.mem_singleton] at expected
    rcases expected with ⟨name, isName, rfl⟩ | rfl
    · obtain ⟨descriptor, member, rfl⟩ := List.mem_map.1 isName
      by_cases whole : '/' ∉ (exporter.dialect.fileStem descriptor.name).toList
      · exact .inl ⟨_, placeFrom_join_plain _ _ (Dialect.plain_fileName _ whole)⟩
      · refine .inr ?_
        cases dialect : exporter.dialect with
        | ethersV5 =>
          rw [dialect] at whole
          exact ⟨rfl, descriptor, ⟨member, not_not.1 whole⟩, rfl⟩
        | rust =>
          rw [dialect] at whole
          exact absurd (Ground.moduleName_whole descriptor.name) whole
    · exact .inl ⟨_, placeFrom_join_plain _ _ (Dialect.plain_fileName _ (Dialect.whole_indexStem _))⟩
  · exact .inl ⟨name, placeFrom_join_plain _ _ plain⟩

end BindingExport

/-- Descriptors that are chosen from artifacts with whole names and from files elsewhere stray only if a
file declares a name with a separator, and nothing is merged. Whatever comes of writing them and of
generating bindings from them, files directly in the two directories change, and in a directory of
interfaces or of TypeScript else only those of descriptors astray, which are there where writing goes
well. -/
theorem exports_contained {exporter : InterfaceExport} {selection : List String}
    {lookup : String → Option Artifact} {externals descriptors : List Descriptor} {sources after : FileTree}
    (flatName : '/' ∉ exporter.flatName.toList)
    (live : ∀ name ∈ selection, ∀ artifact, lookup name = some artifact → '/' ∉ artifact.name.toList)
    (loaded : exporter.loadExternals sources = (.ok externals, after))
    (selected : exporter.select selection lookup externals = .ok descriptors) :
    (∀ descriptor : Descriptor, descriptor.Strays descriptors →
      exporter.flat = false ∧ ∃ path, descriptor.IsDeclaredAt sources path) ∧
    (∀ tree : FileTree, tree.root.Tidy → Confined (fun names => tree.IsDirectlyIn exporter.outDir names ∨
        ∃ descriptor : Descriptor, descriptor.Strays descriptors ∧
          names = tree.place (exporter.descriptorPath descriptor.name))
      tree (exporter.write descriptors selection tree).2) ∧
    (∀ tree paths written, exporter.write descriptors selection tree = (.ok paths, written) →
      ∀ descriptor : Descriptor, descriptor.Strays descriptors →
        ∃ content, written.fileAt (written.place (exporter.descriptorPath descriptor.name)) = some content) ∧
    ∀ (generator : BindingExport) (tree : FileTree), tree.root.Tidy →
      Confined (fun names => tree.IsDirectlyIn generator.outDir names ∨
          generator.dialect = .ethersV5 ∧ ∃ descriptor : Descriptor, descriptor.Strays descriptors ∧
            names = tree.place (generator.bindingPath descriptor.name))
        tree (generator.generate descriptors tree).2 :=
  ⟨fun _ strays => InterfaceExport.strays_of_selected flatName live loaded selected strays,
    fun _ tidy => exporter.write_contained descriptors selection tidy,
    fun _ _ _ wrote _ strays => InterfaceExport.fileAt_of_written wrote strays.1,
    fun generator _ tidy => generator.generate_contained descriptors tidy⟩

def vendorExport : InterfaceExport :=
  ⟨⟨""⟩, ⟨"abis"⟩, false, false, "Flat", 2, ["vendor/V.json"]⟩

def vendored : FileTree :=
  ⟨.directory [("vendor", .directory
    [("V.json", .file "\x7b\"contractName\": \"../x\", \"abi\": []\x7d".toUTF8)])], [], none⟩

theorem loadExternals_vendored :
    ∃ after, vendorExport.loadExternals vendored = (.ok [⟨"../x", []⟩], after) := by
  have found : (vendorExport.loadExternals vendored).1.toOption.map
      (·.map fun descriptor => (descriptor.name, descriptor.items.length)) = some [("../x", 0)] := by
    decide +kernel
  revert found
  rcases vendorExport.loadExternals vendored with ⟨cause | externals, after⟩
  · exact fun found => nomatch found
  · intro found
    obtain ⟨⟨name, items⟩, rfl, named⟩ := List.map_eq_singleton_iff.1 (Option.some.inj found)
    obtain ⟨rfl, empty⟩ := Prod.mk.inj named
    obtain rfl := List.length_eq_zero_iff.1 empty
    exact ⟨after, rfl⟩

theorem exports_contained_vendored :
    ∃ written, vendorExport.write [⟨"../x", []⟩] [] vendored = (.ok [⟨"abis/../x.json"⟩], written) ∧
      (∃ path, (Descriptor.mk "../x" []).IsDeclaredAt vendored path) ∧
      (∃ content, written.fileAt ["x.json"] = some content) ∧
      ∀ names, ¬ vendored.IsDirectlyIn ⟨"abis"⟩ names → names ≠ ["x.json"] →
        written.fileAt names = vendored.fileAt names := by
  obtain ⟨after, loaded⟩ := loadExternals_vendored
  have selected : vendorExport.select [] (fun _ => none) [⟨"../x", []⟩] = .ok [⟨"../x", []⟩] := rfl
  obtain ⟨declared, contained, there, -⟩ :=
    exports_contained (by decide) (by simp) loaded selected
  have tidy : vendored.root.Tidy := FileNode.tidy_of_isTidy (by decide +kernel)
  have strays : (Descriptor.mk "../x" []).Strays [⟨"../x", []⟩] := ⟨List.mem_singleton_self _, by decide⟩
  have place : vendored.place (vendorExport.descriptorPath "../x") = ["x.json"] := by decide +kernel
  have went : (vendorExport.write [⟨"../x", []⟩] [] vendored).1.toOption = some [⟨"abis/../x.json"⟩] := by
    decide +kernel
  have confined := contained vendored tidy
  cases ran : vendorExport.write [⟨"../x", []⟩] [] vendored with
  | mk outcome written =>
    rw [ran] at went confined
    cases outcome with
    | error cause => cases went
    | ok paths =>
      cases went
      obtain ⟨content, found⟩ := there vendored _ written ran _ strays
      rw [confined.place_eq, place] at found
      refine ⟨written, rfl, (declared _ strays).2, ⟨content, found⟩, ?_⟩
      intro names apart other
      apply confined.outside
      rintro (directly | ⟨descriptor, ⟨member, -⟩, rfl⟩)
      · exact apart directly
      · obtain rfl := List.mem_singleton.1 member
        exact other place

end ContractBuild
