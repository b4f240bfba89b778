import Mathlib.Data.List.Nodup
import ContractBuild.Proofs.Build.Bindings
import ContractBuild.Proofs.FileTree.Houses

/-!
Failures in a generation. A descriptor that cannot be rendered is reported, and neither its file nor
anything else depends on it: the others are written as they are rendered, and what is cleared away is
what belongs to no descriptor, rendered or not.
-/
namespace ContractBuild
open FileTree FileAction ContractBuild.Action Output

namespace FileTree

variable {tree : FileTree} {path : Path}

structure Takes (tree : FileTree) (path : Path) : Prop where
  located : ∃ location, tree.locate path = .ok location ∧ location.asDirectory = false
  free : ¬ tree.IsDirectoryAt (tree.place path)

theorem Takes.of_confined {scope : List String → Prop} {after : FileTree} (takes : tree.Takes path)
    (confined : Confined scope tree after) (kept : NoNewDirectories tree after) : after.Takes path := by
  obtain ⟨location, located, asFile⟩ := takes.located
  refine ⟨⟨location, confined.locate located, asFile⟩, ?_⟩
  rw [confined.place_eq]
  exact fun isDirectory => takes.free (kept _ isDirectory)

theorem Houses.takes {directory : Path} {name : String} (houses : tree.Houses directory) (plain : FileNode.Plain name)
    (admitted : refusal? directory name = none) (free : ¬ tree.IsDirectoryAt (tree.place (directory.join ⟨name⟩))) :
    tree.Takes (directory.join ⟨name⟩) := by
  have located := houses.locate_join plain
  rw [admitted] at located
  exact ⟨⟨_, located, rfl⟩, free⟩

end FileTree

namespace Output

variable {tree : FileTree} {path : Path}

def statusOf (tree : FileTree) (path : Path) (text : String) : WriteStatus :=
  if tree.fileAt (tree.place path) = some text.toUTF8 then .unchanged else .written

theorem staleName_join_iff {directory : Path} {extension name : String} {keep : List String}
    (suffix : Suffix extension) (plain : FileNode.Plain name) :
    StaleName extension keep (directory.join ⟨name⟩) ↔
      ∃ stem, stem ≠ "" ∧ stem ∉ keep ∧ name = stem ++ "." ++ extension := by
  have isName : (directory.join ⟨name⟩).fileName? = some name := Path.fileName?_join plain
  rw [StaleName, Path.extension?, Path.fileStem?, isName, Option.bind_some, Option.map_some, Option.any_some,
    decide_eq_true_eq]
  constructor
  · rintro ⟨split, other⟩
    have whole : Path.splitName name = ((Path.splitName name).1, some extension) := Prod.ext rfl split
    obtain ⟨filled, same⟩ := Path.eq_of_splitName whole
    exact ⟨_, filled, other, same⟩
  · rintro ⟨stem, filled, other, rfl⟩
    rw [Path.splitName_dotted filled suffix.noDot]
    exact ⟨rfl, other⟩

end Output

namespace BindingExport

variable {exporter : BindingExport} {descriptors : List Descriptor} {tree made : FileTree}

/-! One descriptor after another -/

def write? (exporter : BindingExport) (descriptor : Descriptor) : Option (Path × String) :=
  match exporter.render descriptor with
  | .ok (_, code) => some (exporter.bindingPath descriptor.name, code)
  | .error _ => none

theorem write?_eq_some {descriptor : Descriptor} {write : Path × String} :
    exporter.write? descriptor = some write ↔ ∃ entries code, exporter.render descriptor = .ok (entries, code) ∧
      write = (exporter.bindingPath descriptor.name, code) := by
  unfold write?
  cases exporter.render descriptor with
  | error cause => simp
  | ok rendered =>
    obtain ⟨entries, code⟩ := rendered
    simp [eq_comm]

def Leftover (exporter : BindingExport) (descriptors : List Descriptor) (tree : FileTree)
    (names : List String) : Prop :=
  ∃ stem, stem ≠ "" ∧ '/' ∉ stem.toList ∧ stem ∉ exporter.scope descriptors ∧
    tree.isFile (exporter.outDir.join ⟨exporter.dialect.fileName stem⟩) = true ∧
    names = tree.place (exporter.outDir.join ⟨exporter.dialect.fileName stem⟩)

theorem leftover_of_stale {name : String} (plain : FileNode.Plain name)
    (stale : isStale tree exporter.dialect.fileExtension (exporter.scope descriptors)
      (exporter.outDir.join ⟨name⟩) = true) :
    exporter.Leftover descriptors tree (tree.place (exporter.outDir.join ⟨name⟩)) := by
  obtain ⟨isFile, staleName⟩ := isStale_iff.1 stale
  obtain ⟨stem, filled, other, rfl⟩ := (staleName_join_iff (Dialect.suffix _) plain).1 staleName
  refine ⟨stem, filled, fun inside => plain.whole ?_, other, isFile, rfl⟩
  simp [String.toList_append, inside]

def Clears (exporter : BindingExport) : Prop :=
  exporter.clear = true ∧ exporter.outDir.text ≠ ""

structure Cleared (exporter : BindingExport) (descriptors : List Descriptor) (made cleared : FileTree) : Prop where
  confined : Confined (fun names => exporter.Clears ∧ exporter.Leftover descriptors made names) made cleared
  noNewDirectories : NoNewDirectories made cleared
  gone : exporter.Clears → ∀ names, exporter.Leftover descriptors made names → cleared.fileAt names = none

theorem purge_clears (descriptors : List Descriptor) (clear : exporter.clear = true) (tidy : made.root.Tidy)
    (quiet : made.faultAfter = none)
    (stands : exporter.outDir.text ≠ "" → made.isDirectory exporter.outDir = true) :
    ∃ paths cleared, purgeStale exporter.outDir exporter.dialect.fileExtension (exporter.scope descriptors) made =
      (.ok paths, cleared) ∧ exporter.Cleared descriptors made cleared := by
  obtain ⟨paths, cleared, ran⟩ := purgeStale_of_quiet exporter.outDir exporter.dialect.fileExtension
    (exporter.scope descriptors) tidy quiet
  have confined := purgeStale_confined exporter.outDir exporter.dialect.fileExtension (exporter.scope descriptors) tidy
  have shrinks := purgeStale_shrinks exporter.outDir exporter.dialect.fileExtension (exporter.scope descriptors) tidy
  have removes := purgeStale_removes exporter.outDir exporter.dialect.fileExtension (exporter.scope descriptors) tidy
  rw [ran] at confined shrinks removes
  refine ⟨paths, cleared, ran, ⟨confined.workingDirectory, ?_, confined.directories, confined.tidy, confined.quiet⟩,
    shrinks.noNewDirectories, ?_⟩
  · intro names outside
    cases isDirectory : made.isDirectory exporter.outDir with
    | false =>
      rw [purgeStale_of_missing _ _ isDirectory] at ran
      cases ran
      rfl
    | true =>
      rcases removes names with same | ⟨name, plain, stale, rfl⟩
      · exact same
      · have filled : exporter.outDir.text ≠ "" := by
          intro empty
          rw [isDirectory_of_empty (by rw [empty]; rfl)] at isDirectory
          cases isDirectory
        exact absurd ⟨⟨clear, filled⟩, leftover_of_stale plain stale⟩ outside
  · rintro ⟨-, filled⟩ names ⟨stem, named, whole, other, isFile, rfl⟩
    have plain := exporter.dialect.plain_fileName whole
    have left := purgeStale_ok tidy (stands filled) ran plain
    cases there : cleared.fileAt (made.place (exporter.outDir.join ⟨exporter.dialect.fileName stem⟩)) with
    | none => rfl
    | some content =>
      -- a file that is still there would be one to remove
      obtain ⟨location, _, located, asFile, _⟩ := isFile_eq_true.1 isFile
      have isFileStill : cleared.isFile (exporter.outDir.join ⟨exporter.dialect.fileName stem⟩) = true :=
        isFile_eq_true.2 ⟨location, content, confined.locate located, asFile, by rw [confined.place_eq]; exact there⟩
      rw [isStale_iff.2 ⟨isFileStill, (staleName_join_iff (Dialect.suffix _) plain).2 ⟨stem, named, other, rfl⟩⟩] at left
      cases left

theorem prepare_eq (descriptors : List Descriptor) (tidy : tree.root.Tidy) (quiet : tree.faultAfter = none)
    (inside : tree.IsInside) (creates : createDirectories exporter.outDir tree = (.ok (), made)) :
    ∃ cleared, exporter.prepare descriptors tree = (.ok (), cleared) ∧ exporter.Cleared descriptors made cleared := by
  have confined : Confined (fun _ => False) tree (createDirectories exporter.outDir tree).2 :=
    createDirectories_confined exporter.outDir tree
  rw [creates] at confined
  have created : (liftM (createDirectories exporter.outDir) : BuildAction Unit) tree = (.ok (), made) :=
    telling_ok.2 creates
  have stands : exporter.outDir.text ≠ "" → made.isDirectory exporter.outDir = true :=
    fun filled => isDirectory_of_created creates inside (mt String.toList_eq_nil_iff.1 filled)
  unfold prepare
  rw [bind_of_ok created]
  cases clear : exporter.clear with
  | false =>
    refine ⟨made, rfl, .refl made, fun _ => id, fun clears => ?_⟩
    rw [Clears, clear] at clears
    cases clears.1
  | true =>
    obtain ⟨paths, cleared, ran, clears⟩ := purge_clears descriptors clear (confined.tidy tidy)
      (confined.quiet quiet) stands
    have purged : (liftM (purgeStale exporter.outDir exporter.dialect.fileExtension (exporter.scope descriptors)) :
        BuildAction (List Path)) made = (.ok paths, cleared) := telling_ok.2 ran
    refine ⟨cleared, ?_, clears⟩
    rw [if_pos rfl, bind_of_ok purged]
    rfl

/-! A whole generation -/

/-- The files of the descriptors are directly in the directory, and each is another one and not the index. -/
structure Separate (exporter : BindingExport) (descriptors : List Descriptor) : Prop where
  whole : ∀ descriptor ∈ descriptors, '/' ∉ (exporter.dialect.fileStem descriptor.name).toList
  distinct : (exporter.expectedFiles (descriptors.map (·.name))).Nodup

variable {one other path : Path}

theorem Separate.stem_of_expected (separate : exporter.Separate descriptors)
    (member : path ∈ exporter.expectedFiles (descriptors.map (·.name))) :
    ∃ stem ∈ exporter.scope descriptors, '/' ∉ stem.toList ∧
      path = exporter.outDir.join ⟨exporter.dialect.fileName stem⟩ := by
  rw [expectedFiles, List.map_map, List.mem_append, List.mem_map, List.mem_singleton] at member
  rcases member with ⟨descriptor, listed, rfl⟩ | rfl
  · exact ⟨_, List.mem_cons_of_mem _ (List.mem_map_of_mem listed), separate.whole descriptor listed, rfl⟩
  · exact ⟨_, List.mem_cons_self, Dialect.whole_indexStem _, rfl⟩

theorem Separate.eq_of_place (separate : exporter.Separate descriptors)
    (isOne : one ∈ exporter.expectedFiles (descriptors.map (·.name)))
    (isOther : other ∈ exporter.expectedFiles (descriptors.map (·.name)))
    (same : tree.place one = tree.place other) : one = other := by
  obtain ⟨stem, -, whole, rfl⟩ := separate.stem_of_expected isOne
  obtain ⟨otherStem, -, wholeOther, rfl⟩ := separate.stem_of_expected isOther
  rw [(place_file_eq_iff whole wholeOther).1 same]

theorem Separate.not_leftover (separate : exporter.Separate descriptors)
    (member : path ∈ exporter.expectedFiles (descriptors.map (·.name))) :
    ¬ exporter.Leftover descriptors tree (tree.place path) := by
  rintro ⟨stem, -, whole, other, -, same⟩
  obtain ⟨known, isKnown, wholeKnown, rfl⟩ := separate.stem_of_expected member
  rw [place_file_eq_iff wholeKnown whole] at same
  exact other (same ▸ isKnown)

theorem mem_expected {descriptor : Descriptor} (member : descriptor ∈ descriptors) :
    exporter.bindingPath descriptor.name ∈ exporter.expectedFiles (descriptors.map (·.name)) :=
  List.mem_append_left _ (List.mem_map_of_mem (List.mem_map_of_mem member))

theorem index_mem_expected : exporter.indexPath ∈ exporter.expectedFiles (descriptors.map (·.name)) :=
  List.mem_append_right _ List.mem_cons_self

theorem Separate.nodup_places (separate : exporter.Separate descriptors) :
    (descriptors.map fun descriptor => tree.place (exporter.bindingPath descriptor.name)).Nodup := by
  have paths := (List.nodup_append.1 separate.distinct).1
  rw [List.map_map] at paths
  rw [show (fun descriptor : Descriptor => tree.place (exporter.bindingPath descriptor.name)) =
    tree.place ∘ (exporter.bindingPath ∘ (·.name)) from rfl, ← List.map_map]
  refine paths.map_on fun one isOne other isOther same => ?_
  obtain ⟨first, isFirst, rfl⟩ := List.mem_map.1 isOne
  obtain ⟨second, isSecond, rfl⟩ := List.mem_map.1 isOther
  exact separate.eq_of_place (mem_expected isFirst) (mem_expected isSecond) same

theorem Separate.write_at (separate : exporter.Separate descriptors) {descriptor : Descriptor}
    (member : descriptor ∈ descriptors) {names : List String} {write : Path × String}
    (written : write ∈ descriptors.filterMap exporter.write? ++ [exporter.indexWrite names])
    (same : tree.place write.1 = tree.place (exporter.bindingPath descriptor.name)) :
    exporter.write? descriptor = some write := by
  obtain ⟨-, -, apart⟩ := List.nodup_append.1 separate.distinct
  rcases List.mem_append.1 written with isCode | isIndex
  · obtain ⟨other, isOther, isWrite⟩ := List.mem_filterMap.1 isCode
    obtain ⟨entries, code, rendered, rfl⟩ := write?_eq_some.1 isWrite
    obtain rfl : other = descriptor := List.inj_on_of_nodup_map separate.nodup_places isOther member same
    exact isWrite
  · obtain rfl := List.mem_singleton.1 isIndex
    have path := separate.eq_of_place index_mem_expected (mem_expected member) same
    exact absurd path.symm (apart _ (List.mem_map_of_mem (List.mem_map_of_mem member)) _ List.mem_cons_self)

/-- What is left at the file of a descriptor is what is written for that descriptor alone. -/
theorem Separate.left_eq (separate : exporter.Separate descriptors) {descriptor : Descriptor}
    (member : descriptor ∈ descriptors) (names : List String) (tree : FileTree) :
    left tree.workingDirectory (descriptors.filterMap exporter.write? ++ [exporter.indexWrite names])
      (tree.place (exporter.bindingPath descriptor.name)) = (exporter.write? descriptor).map (·.2.toUTF8) := by
  cases isWrite : exporter.write? descriptor with
  | none =>
    refine left_eq_none.2 fun write written same => ?_
    rw [separate.write_at member written same] at isWrite
    cases isWrite
  | some write =>
    obtain ⟨entries, code, -, rfl⟩ := write?_eq_some.1 isWrite
    have listed := List.mem_append_left [exporter.indexWrite names]
      (List.mem_filterMap.2 ⟨descriptor, member, isWrite⟩)
    obtain ⟨content, found⟩ := @left_isSome_of_mem tree.workingDirectory _ _ listed
    obtain ⟨other, written, there, rfl⟩ := exists_of_left found
    have same := separate.write_at member written there
    rw [isWrite] at same
    cases same
    exact found

/-! What was there before the directory was made and cleared -/

variable {cleared after : FileTree}

theorem Cleared.place_eq (clears : exporter.Cleared descriptors made cleared)
    (creates : Confined (fun _ => False) tree made) (path : Path) : cleared.place path = tree.place path :=
  (clears.confined.place_eq path).trans (creates.place_eq path)

theorem Cleared.fileAt_eq (clears : exporter.Cleared descriptors made cleared)
    (creates : Confined (fun _ => False) tree made) {names : List String}
    (kept : ¬ (exporter.Clears ∧ exporter.Leftover descriptors made names)) :
    cleared.fileAt names = tree.fileAt names :=
  (clears.confined.outside names kept).trans (creates.outside names id)

def unmappable : Descriptor :=
  ⟨"Bad", [.function "f" [.plain "x" "fixed"] [] .view none]⟩

def mixed : List Descriptor :=
  [unmappable, ⟨"Good", []⟩]

def bound : FileTree :=
  ⟨.directory [("out", .directory [("Bad.ts", .file "bad".toUTF8), ("Old.ts", .file "old".toUTF8)])], [], none⟩

end BindingExport
end ContractBuild
