import ContractBuild.Proofs.Build.Isolation
import ContractBuild.Proofs.Build.Writes
import ContractBuild.Proofs.FileTree.Ways

/-!
The directory of descriptors after it was written. Each descriptor is in its file, what belonged to none of them is
gone if that is wanted, and everything else is as it was. The empty path stands for the working directory when files
are written, but it is no directory when files are cleared away.
-/
namespace ContractBuild
open FileTree FileAction ContractBuild.Action Output
open FileNode (Plain)

namespace FileTree

variable {scope : List String → Prop} {tree before after : FileTree} {directory path : Path} {name : String}

theorem Confined.isDirectory (confined : Confined scope before after) (there : before.isDirectory path = true) :
    after.isDirectory path = true := by
  obtain ⟨entries, location, -, located, found⟩ := node_eq_directory there
  obtain ⟨others, still⟩ := isDirectoryAt_iff.1 (confined.directories _ (isDirectoryAt_iff.2 ⟨entries, found⟩))
  unfold FileTree.isDirectory node?
  rw [node_eq_ok.2 ⟨location, confined.locate located, still, fun _ => rfl⟩]
  rfl

/-- Whether a fault is to come does not matter for where a name leads. -/
theorem locate_join_admitted (tidy : tree.root.Tidy) (inside : tree.IsInside)
    (there : tree.isDirectory directory = true) (plain : Plain name) (admitted : refusal? directory name = none) :
    tree.locate (directory.join ⟨name⟩) = .ok ⟨tree.place (directory.join ⟨name⟩), false⟩ := by
  have houses : Houses { tree with faultAfter := none } directory := ⟨rfl, tidy, inside, there⟩
  have located := houses.locate_join plain
  rw [admitted] at located
  exact located

theorem isFile_join_iff (tidy : tree.root.Tidy) (inside : tree.IsInside) (there : tree.isDirectory directory = true)
    (plain : Plain name) : tree.isFile (directory.join ⟨name⟩) = true ↔
      refusal? directory name = none ∧ tree.fileAt (tree.place (directory.join ⟨name⟩)) ≠ none := by
  have houses : Houses { tree with faultAfter := none } directory := ⟨rfl, tidy, inside, there⟩
  rw [isFile_eq_true]
  constructor
  · rintro ⟨location, content, located, -, found⟩
    have joined := houses.locate_join plain
    rw [show locate { tree with faultAfter := none } (directory.join ⟨name⟩) = .ok location from located] at joined
    refine ⟨?_, by simp [found]⟩
    cases refused : refusal? directory name with
    | none => rfl
    | some cause =>
      rw [refused] at joined
      cases joined
  · rintro ⟨admitted, found⟩
    obtain ⟨content, isThere⟩ := Option.ne_none_iff_exists'.1 found
    exact ⟨_, content, locate_join_admitted tidy inside there plain admitted, rfl, isThere⟩

end FileTree

namespace Output

variable {tree : FileTree} {directory path : Path} {extension : String} {keep : List String}

theorem removeStale_of_fresh {names : List String}
    (fresh : ∀ name ∈ names, isStale tree extension keep (directory.join ⟨name⟩) = false) :
    removeStale directory extension keep names tree = (.ok [], tree) := by
  induction names with
  | nil => rfl
  | cons name names ih =>
    obtain ⟨here, rest⟩ := List.forall_mem_cons.1 fresh
    rw [removeStale_cons, here, if_neg Bool.false_ne_true, ih rest]

/-- A purge that finds nothing to remove changes nothing. -/
theorem purgeStale_of_fresh (houses : tree.Houses directory)
    (fresh : ∀ name, Plain name → isStale tree extension keep (directory.join ⟨name⟩) = false) :
    purgeStale directory extension keep tree = (.ok [], tree) := by
  obtain ⟨names, listed, -, plain, -⟩ := houses.listDirectory_eq
  unfold purgeStale
  rw [bind_apply, get_apply]
  dsimp only
  rw [houses.there, Bool.not_true, if_neg Bool.false_ne_true, bind_of_ok listed]
  exact removeStale_of_fresh fun name member => fresh name (plain name member)

/-- A file that holds its text already is left alone. -/
theorem writeIfChanged_of_reveals {text : String} (quiet : tree.faultAfter = none)
    (reveals : tree.Reveals path text.toUTF8) : writeIfChanged path text tree = (.ok .unchanged, tree) := by
  obtain ⟨location, located, asFile, there⟩ := reveals
  rw [writeIfChanged_eq, existing?, readBytes_of_fileAt quiet located asFile there]
  exact if_pos rfl

/-- Where places differ, each write leaves its text. -/
theorem left_of_distinct {workingDirectory : List String} {writes : List (Path × String)}
    (distinct : (writes.map fun write => placeFrom workingDirectory write.1).Nodup) {text : String}
    (member : (path, text) ∈ writes) :
    left workingDirectory writes (placeFrom workingDirectory path) = some text.toUTF8 := by
  obtain ⟨content, found⟩ := @left_isSome_of_mem workingDirectory _ _ member
  obtain ⟨other, isOther, there, rfl⟩ := exists_of_left found
  rw [found, List.inj_on_of_nodup_map distinct isOther member there]

end Output

namespace InterfaceExport

variable {exporter : InterfaceExport} {descriptors : List Descriptor} {selection : List String}
  {tree made cleared after : FileTree} {paths : List Path}

def spared (exporter : InterfaceExport) (selection : List String) : List String :=
  if exporter.flat then [exporter.flatName] else selection

def Leftover (exporter : InterfaceExport) (descriptors : List Descriptor) (selection : List String)
    (workingDirectory names : List String) : Prop :=
  exporter.outDir.text ≠ "" ∧ ∃ stem, stem ≠ "" ∧ '/' ∉ stem.toList ∧ stem ∉ exporter.scope descriptors selection ∧
    refusal? exporter.outDir (stem ++ "." ++ fileExtension) = none ∧
    names = placeFrom workingDirectory (exporter.descriptorPath stem)

theorem suffix_fileExtension : Suffix fileExtension :=
  suffix_json

theorem plain_file {stem : String} (whole : '/' ∉ stem.toList) : Plain (stem ++ "." ++ fileExtension) :=
  suffix_fileExtension.plain whole

theorem descriptorPath_inj {workingDirectory : List String} {one other : String} (wholeOne : '/' ∉ one.toList)
    (wholeOther : '/' ∉ other.toList) :
    placeFrom workingDirectory (exporter.descriptorPath one) =
      placeFrom workingDirectory (exporter.descriptorPath other) ↔ one = other := by
  rw [descriptorPath, descriptorPath, placeFrom_join_plain_inj _ _ (plain_file wholeOne) (plain_file wholeOther),
    String.append_left_inj, String.append_left_inj]

/-! Making the directory and clearing it -/

/-- What is left when the directory was made and, if that is wanted, cleared. -/
structure Clears (exporter : InterfaceExport) (descriptors : List Descriptor) (selection : List String)
    (tree cleared : FileTree) : Prop where
  workingDirectory : cleared.workingDirectory = tree.workingDirectory
  directories : ∀ names, tree.IsDirectoryAt names → cleared.IsDirectoryAt names
  adds : Adds (OnWay tree.workingDirectory exporter.outDir) tree cleared
  made : exporter.outDir.text ≠ "" → cleared.isDirectory exporter.outDir = true
  again : ∀ later : FileTree, later.workingDirectory = tree.workingDirectory →
    (∀ names, cleared.IsDirectoryAt names → later.IsDirectoryAt names) → later.faultAfter = none →
    createDirectories exporter.outDir later = (.ok (), later)
  gone : exporter.clear = true → ∀ names, exporter.Leftover descriptors selection tree.workingDirectory names →
    cleared.fileAt names = none
  kept : ∀ names, ¬ (exporter.clear = true ∧ exporter.Leftover descriptors selection tree.workingDirectory names) →
    cleared.fileAt names = tree.fileAt names

theorem leftover_of_stale (tidy : made.root.Tidy) (inside : made.IsInside)
    (there : made.isDirectory exporter.outDir = true) {name : String} (plain : Plain name)
    (stale : isStale made fileExtension (exporter.scope descriptors selection) (exporter.outDir.join ⟨name⟩) = true) :
    exporter.Leftover descriptors selection made.workingDirectory (made.place (exporter.outDir.join ⟨name⟩)) := by
  obtain ⟨isFile, staleName⟩ := isStale_iff.1 stale
  obtain ⟨stem, filled, other, rfl⟩ := (staleName_join_iff suffix_fileExtension plain).1 staleName
  refine ⟨?_, stem, filled, ?_, other, ((isFile_join_iff tidy inside there plain).1 isFile).1, rfl⟩
  · intro empty
    rw [isDirectory_of_empty (by rw [empty]; rfl)] at there
    cases there
  · intro slash
    refine plain.whole ?_
    simp [String.toList_append, slash]

theorem prepare_clears (tidy : tree.root.Tidy) (inside : tree.IsInside)
    (ran : exporter.prepare descriptors selection tree = (.ok (), cleared)) :
    exporter.Clears descriptors selection tree cleared := by
  obtain ⟨value, made, creates, rest⟩ := bind_eq_ok ran
  have confined : Confined (fun _ => False) tree (createDirectories exporter.outDir tree).2 :=
    createDirectories_confined exporter.outDir tree
  have adds := createDirectories_adds exporter.outDir tree
  rw [creates] at confined adds
  have stands : exporter.outDir.text ≠ "" → made.isDirectory exporter.outDir = true :=
    fun filled => isDirectory_of_created creates inside (mt String.toList_eq_nil_iff.1 filled)
  have tidyMade := confined.tidy tidy
  have insideMade := confined.isInside inside
  have again : ∀ later : FileTree, later.workingDirectory = tree.workingDirectory →
      (∀ names, made.IsDirectoryAt names → later.IsDirectoryAt names) → later.faultAfter = none →
      createDirectories exporter.outDir later = (.ok (), later) := fun later same directories quiet =>
    createDirectories_again creates inside (same.trans confined.workingDirectory.symm) directories quiet
  cases clear : exporter.clear with
  | false =>
    rw [clear] at rest
    cases rest
    refine ⟨confined.workingDirectory, confined.directories, adds, stands, again, ?_, fun names _ => ?_⟩
    · rw [clear]
      exact nofun
    · exact confined.outside names id
  | true =>
    rw [clear, if_pos rfl] at rest
    obtain ⟨removed, last, purged, done⟩ := bind_eq_ok rest
    cases done
    have purges := purgeStale_confined exporter.outDir fileExtension (exporter.scope descriptors selection) tidyMade
    have shrinks := purgeStale_shrinks exporter.outDir fileExtension (exporter.scope descriptors selection) tidyMade
    have removes := purgeStale_removes exporter.outDir fileExtension (exporter.scope descriptors selection) tidyMade
    rw [purged] at purges shrinks removes
    refine ⟨purges.workingDirectory.trans confined.workingDirectory,
      fun names => purges.directories names ∘ confined.directories names, adds.trans shrinks.noNewDirectories.adds,
      fun filled => purges.isDirectory (stands filled),
      fun later same directories => again later same fun names => directories names ∘ purges.directories names, ?_, ?_⟩
    · rintro - names ⟨filled, stem, named, whole, other, admitted, rfl⟩
      rw [← confined.workingDirectory]
      have fresh := purgeStale_ok tidyMade (stands filled) purged (plain_file whole)
      have located := purges.locate
        (locate_join_admitted tidyMade insideMade (stands filled) (plain_file whole) admitted)
      by_contra remains
      obtain ⟨content, found⟩ := Option.ne_none_iff_exists'.1 remains
      have isFile : cleared.isFile (exporter.descriptorPath stem) = true := by
        refine isFile_eq_true.2 ⟨_, content, located, rfl, ?_⟩
        rw [purges.place_eq]
        exact found
      have stale := isStale_iff.2 ⟨isFile, (staleName_join_iff suffix_fileExtension (plain_file whole)).2
        ⟨stem, named, other, rfl⟩⟩
      exact Bool.false_ne_true (fresh.symm.trans stale)
    · intro names outside
      obtain same | ⟨name, plain, stale, rfl⟩ := removes names
      · exact same.trans (confined.outside names id)
      · cases there : made.isDirectory exporter.outDir with
        | false =>
          rw [purgeStale_of_missing _ _ there] at purged
          cases purged
          exact confined.outside _ id
        | true =>
          have leftover := leftover_of_stale tidyMade insideMade there plain stale
          rw [confined.workingDirectory] at leftover
          exact absurd ⟨clear, leftover⟩ outside

/-! A whole write -/

/-- What stands in front of the extension of a descriptor file. -/
theorem stem_of_extension {name : String} (plain : Plain name)
    (extension : (exporter.outDir.join ⟨name⟩).extension? = some fileExtension) :
    ∃ stem, stem ≠ "" ∧ '/' ∉ stem.toList ∧ name = stem ++ "." ++ fileExtension ∧
      (exporter.outDir.join ⟨name⟩).fileStem? = some stem := by
  have isName : (exporter.outDir.join ⟨name⟩).fileName? = some name := Path.fileName?_join plain
  rw [Path.extension?, isName, Option.bind_some] at extension
  obtain ⟨filled, same⟩ := Path.eq_of_splitName (Prod.ext rfl extension :
    Path.splitName name = ((Path.splitName name).1, some fileExtension))
  refine ⟨_, filled, fun slash => plain.whole ?_, same, by rw [Path.fileStem?, isName, Option.map_some]⟩
  rw [same]
  simp [String.toList_append, slash]

/-- Every descriptor has a file of its own directly in the directory. -/
structure Separate (descriptors : List Descriptor) : Prop where
  whole : ∀ descriptor ∈ descriptors, '/' ∉ descriptor.name.toList
  distinct : (descriptors.map (·.name)).Nodup

theorem Separate.left_eq (separate : Separate descriptors) {descriptor : Descriptor} (member : descriptor ∈ descriptors)
    (workingDirectory : List String) :
    left workingDirectory (exporter.writes descriptors)
      (placeFrom workingDirectory (exporter.descriptorPath descriptor.name)) =
      some (descriptor.toText exporter.spacing).toUTF8 := by
  have isWrite : (exporter.descriptorPath descriptor.name, descriptor.toText exporter.spacing) ∈
      exporter.writes descriptors := List.mem_map_of_mem member
  have places : (descriptors.map fun descriptor =>
      placeFrom workingDirectory (exporter.descriptorPath descriptor.name)).Nodup := by
    refine (List.Nodup.of_map _ separate.distinct).map_on fun one isOne other isOther same => ?_
    rw [descriptorPath_inj (separate.whole one isOne) (separate.whole other isOther)] at same
    exact List.inj_on_of_nodup_map separate.distinct isOne isOther same
  have distinct : ((exporter.writes descriptors).map fun write => placeFrom workingDirectory write.1).Nodup := by
    rw [writes, List.map_map]
    exact places
  exact left_of_distinct distinct isWrite

theorem Separate.not_leftover (separate : Separate descriptors) {descriptor : Descriptor}
    (member : descriptor ∈ descriptors) (workingDirectory : List String) :
    ¬ exporter.Leftover descriptors selection workingDirectory
      (placeFrom workingDirectory (exporter.descriptorPath descriptor.name)) := by
  rintro ⟨-, stem, -, whole, other, -, same⟩
  rw [descriptorPath_inj (separate.whole descriptor member) whole] at same
  exact other (List.mem_append_left _ (List.mem_map.2 ⟨descriptor, member, same⟩))

theorem writeEach_adds (separate : Separate descriptors) (tree : FileTree) :
    Adds (OnWay tree.workingDirectory exporter.outDir) tree (exporter.writeEach descriptors tree).2 := by
  have whole := separate.whole
  clear separate
  induction descriptors generalizing tree with
  | nil => exact .refl tree
  | cons descriptor descriptors ih =>
    obtain ⟨wholeHere, wholeRest⟩ := List.forall_mem_cons.1 whole
    have first : Adds (OnWay tree.workingDirectory exporter.outDir) tree
        (writeIfChanged (exporter.descriptorPath descriptor.name) (descriptor.toText exporter.spacing) tree).2 :=
      writeIfChanged_adds exporter.outDir (plain_file wholeHere) _ tree
    have confined := writeIfChanged_confined (exporter.descriptorPath descriptor.name)
      (descriptor.toText exporter.spacing) tree
    rw [writeEach, bind_apply]
    revert first confined
    rcases writeIfChanged (exporter.descriptorPath descriptor.name) (descriptor.toText exporter.spacing)
      tree with ⟨cause | status, middle⟩
    · exact fun first _ => first
    · intro first confined
      have rest := ih middle wholeRest
      rw [confined.workingDirectory] at rest
      dsimp only
      rw [bind_apply]
      revert rest
      rcases exporter.writeEach descriptors middle with ⟨cause | paths, last⟩
      all_goals exact fun rest => first.trans rest

/-- Files that hold their texts already are all left alone. -/
theorem writeEach_of_reveals (quiet : tree.faultAfter = none)
    (reveals : ∀ descriptor ∈ descriptors, tree.Reveals (exporter.descriptorPath descriptor.name)
      (descriptor.toText exporter.spacing).toUTF8) :
    exporter.writeEach descriptors tree =
      (.ok (descriptors.map fun descriptor => exporter.descriptorPath descriptor.name), tree) := by
  induction descriptors with
  | nil => rfl
  | cons descriptor descriptors ih =>
    obtain ⟨here, rest⟩ := List.forall_mem_cons.1 reveals
    rw [writeEach, bind_of_ok (writeIfChanged_of_reveals quiet here), bind_of_ok (ih rest)]
    rfl

/-- What a write that went well leaves of a tree. -/
structure Leaves (exporter : InterfaceExport) (descriptors : List Descriptor) (selection : List String)
    (tree : FileTree) (paths : List Path) (after : FileTree) : Prop where
  answer : paths = descriptors.map fun descriptor => exporter.descriptorPath descriptor.name
  there : ∀ descriptor ∈ descriptors,
    after.Reveals (exporter.descriptorPath descriptor.name) (descriptor.toText exporter.spacing).toUTF8
  gone : exporter.clear = true → ∀ names, exporter.Leftover descriptors selection tree.workingDirectory names →
    after.fileAt names = none
  kept : ∀ names, (∀ descriptor ∈ descriptors, names ≠ tree.place (exporter.descriptorPath descriptor.name)) →
    ¬ (exporter.clear = true ∧ exporter.Leftover descriptors selection tree.workingDirectory names) →
    after.fileAt names = tree.fileAt names
  stands : exporter.outDir.text ≠ "" → after.isDirectory exporter.outDir = true
  directories : ∀ names, tree.IsDirectoryAt names → after.IsDirectoryAt names
  added : ∀ names, after.IsDirectoryAt names →
    tree.IsDirectoryAt names ∨ OnWay tree.workingDirectory exporter.outDir names

theorem write_leaves (tidy : tree.root.Tidy) (inside : tree.IsInside) (separate : Separate descriptors)
    (ran : exporter.write descriptors selection tree = (.ok paths, after)) :
    exporter.Leaves descriptors selection tree paths after := by
  obtain ⟨cleared, prepared, wrote⟩ := write_ok ran
  have clears := prepare_clears tidy inside prepared
  obtain ⟨isPaths, written⟩ := writeEach_ok wrote
  have adds : Adds (OnWay cleared.workingDirectory exporter.outDir) cleared
      (exporter.writeEach descriptors cleared).2 := writeEach_adds separate cleared
  rw [wrote, clears.workingDirectory] at adds
  have untouched : ∀ names, (∀ descriptor ∈ descriptors, names ≠ tree.place (exporter.descriptorPath descriptor.name)) →
      after.fileAt names = cleared.fileAt names := by
    intro names apart
    apply written.confined.outside
    rintro ⟨write, member, rfl⟩
    obtain ⟨descriptor, isMember, rfl⟩ := List.mem_map.1 member
    refine apart descriptor isMember ?_
    rw [FileTree.place, FileTree.place, clears.workingDirectory]
  refine ⟨isPaths, ?_, ?_, fun names apart outside => (untouched names apart).trans (clears.kept names outside),
    fun filled => written.confined.isDirectory (clears.made filled),
    fun names => written.confined.directories names ∘ clears.directories names, clears.adds.trans adds⟩
  · intro descriptor member
    obtain ⟨location, located, asFile⟩ := written.located _ (List.mem_map_of_mem member)
    refine ⟨location, located, asFile, ?_⟩
    rw [written.confined.place_eq]
    exact written.there _ _ (separate.left_eq member _)
  · intro clear names leftover
    rw [untouched names, clears.gone clear names leftover]
    rintro descriptor member rfl
    exact separate.not_leftover member _ leftover

/-- The descriptor files that a write with clearing leaves directly in the directory: those of the descriptors, and
those that were there and are spared. -/
theorem Leaves.isFile_iff (leaves : exporter.Leaves descriptors selection tree paths after)
    (separate : Separate descriptors) (same : after.workingDirectory = tree.workingDirectory)
    (tidy : after.root.Tidy) (inside : after.IsInside) (clear : exporter.clear = true)
    (filled : exporter.outDir.text ≠ "") {name : String} (plain : Plain name)
    (extension : (exporter.outDir.join ⟨name⟩).extension? = some fileExtension) :
    after.isFile (exporter.outDir.join ⟨name⟩) = true ↔
      (∃ descriptor ∈ descriptors, exporter.outDir.join ⟨name⟩ = exporter.descriptorPath descriptor.name) ∨
      (refusal? exporter.outDir name = none ∧ tree.fileAt (tree.place (exporter.outDir.join ⟨name⟩)) ≠ none ∧
        ∃ stem ∈ exporter.spared selection, (exporter.outDir.join ⟨name⟩).fileStem? = some stem) := by
  obtain ⟨stem, named, whole, rfl, isStem⟩ := stem_of_extension plain extension
  have isFile_iff := isFile_join_iff tidy inside (leaves.stands filled) plain
  rw [FileTree.place, same] at isFile_iff
  have spares : stem ∈ exporter.spared selection → ¬ (exporter.clear = true ∧ exporter.Leftover descriptors selection
      tree.workingDirectory (tree.place (exporter.descriptorPath stem))) := by
    rintro isSpared ⟨-, -, other, -, wholeOther, outOfScope, -, same⟩
    rw [FileTree.place, descriptorPath_inj whole wholeOther] at same
    exact outOfScope (List.mem_append_right _ (same ▸ isSpared))
  by_cases own : ∃ descriptor ∈ descriptors, descriptor.name = stem
  · obtain ⟨descriptor, member, rfl⟩ := own
    obtain ⟨location, located, asFile, found⟩ := leaves.there descriptor member
    exact iff_of_true (isFile_eq_true.2 ⟨location, _, located, asFile, found⟩) (.inl ⟨descriptor, member, rfl⟩)
  have apart : ∀ descriptor ∈ descriptors,
      tree.place (exporter.descriptorPath stem) ≠ tree.place (exporter.descriptorPath descriptor.name) := by
    rintro descriptor member same
    rw [FileTree.place, FileTree.place, descriptorPath_inj whole (separate.whole descriptor member)] at same
    exact own ⟨descriptor, member, same.symm⟩
  rw [isFile_iff]
  constructor
  · rintro ⟨admitted, found⟩
    by_cases isSpared : stem ∈ exporter.spared selection
    · have unchanged := leaves.kept _ apart (spares isSpared)
      exact .inr ⟨admitted, fun missing => found (unchanged.trans missing), stem, isSpared, isStem⟩
    · refine absurd (leaves.gone clear _ ⟨filled, stem, named, whole, fun inScope => ?_, admitted, rfl⟩) found
      exact (List.mem_append.1 inScope).elim (fun isOwn => own (List.mem_map.1 isOwn)) isSpared
  · rintro (⟨descriptor, member, path⟩ | ⟨admitted, found, other, isSpared, isOther⟩)
    · exact absurd (congrArg tree.place path) (apart descriptor member)
    · obtain rfl : stem = other := Option.some.inj (isStem.symm.trans isOther)
      exact ⟨admitted, fun missing => found ((leaves.kept _ apart (spares isSpared)).symm.trans missing)⟩

/-- Written once more, the descriptors change nothing. -/
theorem Leaves.write_again (leaves : exporter.Leaves descriptors selection tree paths after)
    (same : after.workingDirectory = tree.workingDirectory) (tidy : after.root.Tidy) (inside : after.IsInside)
    (quiet : after.faultAfter = none) (creates : createDirectories exporter.outDir after = (.ok (), after)) :
    exporter.write descriptors selection after = (.ok paths, after) := by
  have purges : exporter.clear = true → purgeStale exporter.outDir fileExtension (exporter.scope descriptors selection)
      after = (.ok [], after) := by
    intro clear
    by_cases filled : exporter.outDir.text = ""
    · exact purgeStale_of_missing _ _ (isDirectory_of_empty (by rw [filled]; rfl) after)
    · have houses : after.Houses exporter.outDir := ⟨quiet, tidy, inside, leaves.stands filled⟩
      refine purgeStale_of_fresh houses fun name plain => Bool.eq_false_iff.2 fun stale => ?_
      have leftover := leftover_of_stale tidy inside houses.there plain stale
      rw [same] at leftover
      have isFile := (isStale_iff.1 stale).1
      exact ((isFile_join_iff tidy inside houses.there plain).1 isFile).2 (leaves.gone clear _ leftover)
  have prepares : exporter.prepare descriptors selection after = (.ok (), after) := by
    unfold prepare
    rw [bind_of_ok creates]
    cases clear : exporter.clear with
    | false => rfl
    | true =>
      rw [if_pos rfl, bind_of_ok (purges clear)]
      rfl
  rw [write_eq, bind_of_ok prepares, writeEach_of_reveals quiet leaves.there, ← leaves.answer]

/-- Without a fault to come, the directory of a write that went well needs not be made again. -/
theorem createDirectories_of_written (tidy : tree.root.Tidy) (inside : tree.IsInside)
    (ran : exporter.write descriptors selection tree = (.ok paths, after)) (quiet : after.faultAfter = none) :
    createDirectories exporter.outDir after = (.ok (), after) := by
  have confined := exporter.write_confined descriptors selection tidy
  rw [ran] at confined
  obtain ⟨cleared, prepared, wrote⟩ := write_ok ran
  obtain ⟨-, written⟩ := writeEach_ok wrote
  exact (prepare_clears tidy inside prepared).again after confined.workingDirectory
    (fun names => written.confined.directories names) quiet

/-- Descriptors with names of their own that were written are in their files. With clearing, the descriptor files of
the directory are theirs and those that were there and are spared, unless the directory is spelled as the empty path,
where none is cleared away; all other files are as they were, no directory is gone, and directories came to be on the
way to the directory alone. Written once more, the descriptors change nothing. -/
theorem write_fills (tidy : tree.root.Tidy) (inside : tree.IsInside) (separate : Separate descriptors)
    (ran : exporter.write descriptors selection tree = (.ok paths, after)) :
    exporter.Leaves descriptors selection tree paths after ∧
      (exporter.clear = true → exporter.outDir.text ≠ "" → ∀ name, Plain name →
        (exporter.outDir.join ⟨name⟩).extension? = some fileExtension →
        (after.isFile (exporter.outDir.join ⟨name⟩) = true ↔
          (∃ descriptor ∈ descriptors, exporter.outDir.join ⟨name⟩ = exporter.descriptorPath descriptor.name) ∨
          (refusal? exporter.outDir name = none ∧ tree.fileAt (tree.place (exporter.outDir.join ⟨name⟩)) ≠ none ∧
            ∃ stem ∈ exporter.spared selection, (exporter.outDir.join ⟨name⟩).fileStem? = some stem))) ∧
      (after.faultAfter = none → exporter.write descriptors selection after = (.ok paths, after)) := by
  have leaves := write_leaves tidy inside separate ran
  have confined := exporter.write_confined descriptors selection tidy
  rw [ran] at confined
  have tidyAfter := confined.tidy tidy
  have insideAfter := confined.isInside inside
  refine ⟨leaves, fun clear filled name plain extension => ?_, fun quiet => ?_⟩
  · exact leaves.isFile_iff separate confined.workingDirectory tidyAfter insideAfter clear filled plain extension
  · exact leaves.write_again confined.workingDirectory tidyAfter insideAfter quiet
      (createDirectories_of_written tidy inside ran quiet)

def clearingWriter (outDir : Path) : InterfaceExport :=
  ⟨⟨"."⟩, outDir, true, false, "all", 0, []⟩

def formerExport : FileTree :=
  ⟨.directory [("Old.json", .file "old".toUTF8),
    ("abis", .directory [("Kept.json", .file "kept".toUTF8), ("Old.json", .file "old".toUTF8)])], [], none⟩

theorem write_fills_abis :
    ∃ after, (clearingWriter ⟨"abis"⟩).write [⟨"A", []⟩] ["A", "Kept"] formerExport = (.ok [⟨"abis/A.json"⟩], after) ∧
      after.Reveals ⟨"abis/A.json"⟩ (Descriptor.toText ⟨"A", []⟩ 0).toUTF8 ∧
      after.fileAt ["abis", "Old.json"] = none ∧ after.fileAt ["abis", "Kept.json"] = some "kept".toUTF8 ∧
      (clearingWriter ⟨"abis"⟩).write [⟨"A", []⟩] ["A", "Kept"] after = (.ok [⟨"abis/A.json"⟩], after) := by
  have tidy : formerExport.root.Tidy := FileNode.tidy_of_isTidy (by decide +kernel)
  have separate : Separate [⟨"A", []⟩] := ⟨by decide, by decide⟩
  have answer : ((clearingWriter ⟨"abis"⟩).write [⟨"A", []⟩] ["A", "Kept"] formerExport).1 = .ok [⟨"abis/A.json"⟩] := by
    decide +kernel
  have confined := (clearingWriter ⟨"abis"⟩).write_confined [⟨"A", []⟩] ["A", "Kept"] tidy
  cases ran : (clearingWriter ⟨"abis"⟩).write [⟨"A", []⟩] ["A", "Kept"] formerExport with
  | mk outcome after =>
    rw [ran] at answer confined
    obtain rfl : outcome = .ok [⟨"abis/A.json"⟩] := answer
    obtain ⟨leaves, -, again⟩ := write_fills tidy rfl separate ran
    have path : (clearingWriter ⟨"abis"⟩).descriptorPath "A" = ⟨"abis/A.json"⟩ := by decide +kernel
    have there := leaves.there ⟨"A", []⟩ List.mem_cons_self
    rw [path] at there
    refine ⟨after, rfl, there, ?_, ?_, again (confined.quiet rfl)⟩
    · exact leaves.gone rfl _ ⟨by decide, "Old", by decide, by decide, by decide, by decide +kernel, by decide +kernel⟩
    · refine (leaves.kept ["abis", "Kept.json"] (by decide +kernel) ?_).trans (by decide +kernel)
      rintro ⟨-, -, stem, -, whole, outOfScope, -, same⟩
      have kept : ["abis", "Kept.json"] = placeFrom [] ((clearingWriter ⟨"abis"⟩).descriptorPath "Kept") := by
        decide +kernel
      rw [kept, formerExport, descriptorPath_inj (by decide) whole] at same
      exact outOfScope (same ▸ by decide)

/-- The empty path is written to as the working directory, and not cleared. -/
example : ((clearingWriter ⟨""⟩).write [⟨"A", []⟩] ["A"] formerExport).1 = .ok [⟨"A.json"⟩] ∧
    ((clearingWriter ⟨""⟩).write [⟨"A", []⟩] ["A"] formerExport).2.fileAt ["Old.json"] = some "old".toUTF8 := by
  decide +kernel

end InterfaceExport
end ContractBuild
