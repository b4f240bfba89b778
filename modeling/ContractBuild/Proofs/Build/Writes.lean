import ContractBuild.Interface.Export
import ContractBuild.Proofs.Build.Purge
import ContractBuild.Proofs.Build.Records

/-!
Writing files one after another. Where several texts go to one place the last one stays, and every
file that is not among them is left alone.
-/
namespace ContractBuild
open FileTree FileAction ContractBuild.Action

namespace Output

def left (workingDirectory : List String) : List (Path × String) → List String → Option ByteArray
  | [], _ => none
  | (path, text) :: writes, names =>
    (left workingDirectory writes names).or
      (if placeFrom workingDirectory path = names then some text.toUTF8 else none)

theorem left_append (workingDirectory : List String) (first second : List (Path × String))
    (names : List String) :
    left workingDirectory (first ++ second) names =
      (left workingDirectory second names).or (left workingDirectory first names) := by
  induction first with
  | nil => simp [left]
  | cons write first ih =>
    obtain ⟨path, text⟩ := write
    rw [List.cons_append, left, ih, left, Option.or_assoc]

theorem left_eq_none {workingDirectory : List String} {writes : List (Path × String)}
    {names : List String} :
    left workingDirectory writes names = none ↔
      ∀ write ∈ writes, placeFrom workingDirectory write.1 ≠ names := by
  induction writes with
  | nil => simp [left]
  | cons write writes ih =>
    obtain ⟨path, text⟩ := write
    by_cases here : placeFrom workingDirectory path = names
    · simp [left, here]
    · simp [left, here, ih]

theorem left_isSome_of_mem {workingDirectory : List String} {writes : List (Path × String)}
    {write : Path × String} (member : write ∈ writes) :
    ∃ content, left workingDirectory writes (placeFrom workingDirectory write.1) = some content := by
  apply Option.ne_none_iff_exists'.1
  intro none
  exact left_eq_none.1 none write member rfl

/-- What some writes leave is the text of one of them. -/
theorem exists_of_left {workingDirectory : List String} {writes : List (Path × String)}
    {names : List String} {content : ByteArray}
    (found : left workingDirectory writes names = some content) :
    ∃ write ∈ writes, placeFrom workingDirectory write.1 = names ∧ content = write.2.toUTF8 := by
  induction writes with
  | nil => cases found
  | cons write writes ih =>
    obtain ⟨path, text⟩ := write
    rw [left, Option.or_eq_some_iff] at found
    rcases found with later | ⟨_, here⟩
    · obtain ⟨write, member, place, same⟩ := ih later
      exact ⟨write, List.mem_cons_of_mem _ member, place, same⟩
    · rw [Option.ite_none_right_eq_some] at here
      exact ⟨(path, text), List.mem_cons_self, here.1, (Option.some.inj here.2).symm⟩

/-- What is true when some files were written one after another. -/
structure Wrote (writes : List (Path × String)) (before after : FileTree) : Prop where
  confined : Confined (fun names => ∃ write ∈ writes, names = before.place write.1) before after
  there : ∀ names content, left before.workingDirectory writes names = some content →
    after.fileAt names = some content
  located : ∀ write ∈ writes, ∃ location, after.locate write.1 = .ok location ∧
    location.asDirectory = false

theorem Wrote.nil (tree : FileTree) : Wrote [] tree tree :=
  ⟨.refl tree, fun _ _ found => (nomatch found), fun _ member => (nomatch member)⟩

theorem Wrote.of_stored {path : Path} {text : String} {before after : FileTree}
    (stored : Stored before path text.toUTF8 after) : Wrote [(path, text)] before after := by
  refine ⟨?_, ?_, ?_⟩
  · apply stored.confined.mono
    rintro names rfl
    exact ⟨(path, text), List.mem_singleton.2 rfl, rfl⟩
  · intro names content found
    obtain ⟨write, member, rfl, rfl⟩ := exists_of_left found
    obtain rfl := List.mem_singleton.1 member
    exact stored.there
  · intro write member
    obtain rfl := List.mem_singleton.1 member
    exact stored.located

theorem Wrote.append {first second : List (Path × String)} {before middle after : FileTree}
    (earlier : Wrote first before middle) (later : Wrote second middle after) :
    Wrote (first ++ second) before after := by
  have same := earlier.confined.workingDirectory
  refine ⟨Confined.trans (earlier.confined.mono ?_) (later.confined.mono ?_), ?_, ?_⟩
  · rintro names ⟨write, member, place⟩
    exact ⟨write, List.mem_append_left second member, place⟩
  · rintro names ⟨write, member, rfl⟩
    exact ⟨write, List.mem_append_right first member, earlier.confined.place_eq write.1⟩
  · intro names content found
    rw [left_append, Option.or_eq_some_iff, ← same] at found
    rcases found with last | ⟨silent, last⟩
    · exact later.there names content last
    · rw [later.confined.outside]
      · exact earlier.there names content (same ▸ last)
      · rintro ⟨write, member, place⟩
        exact left_eq_none.1 silent write member place.symm
  · intro write member
    rcases List.mem_append.1 member with member | member
    · obtain ⟨location, located, asFile⟩ := earlier.located write member
      exact ⟨location, later.confined.locate located, asFile⟩
    · exact later.located write member

theorem Wrote.cons {path : Path} {text : String} {writes : List (Path × String)}
    {before middle after : FileTree} (stored : Stored before path text.toUTF8 middle)
    (rest : Wrote writes middle after) : Wrote ((path, text) :: writes) before after :=
  (Wrote.of_stored stored).append rest

/-- The file at a place after some writes: what they left there, or else what was there. -/
theorem Wrote.fileAt_eq {writes : List (Path × String)} {before after : FileTree}
    (wrote : Wrote writes before after) (names : List String) :
    after.fileAt names = (left before.workingDirectory writes names).or (before.fileAt names) := by
  cases found : left before.workingDirectory writes names with
  | some content => exact wrote.there names content found
  | none =>
    apply wrote.confined.outside
    rintro ⟨write, member, place⟩
    exact left_eq_none.1 found write member place.symm

end Output

namespace InterfaceExport
open Output

def writes (exporter : InterfaceExport) (descriptors : List Descriptor) : List (Path × String) :=
  descriptors.map fun descriptor =>
    (exporter.descriptorPath descriptor.name, descriptor.toText exporter.spacing)

theorem writeEach_ok {exporter : InterfaceExport} {descriptors : List Descriptor}
    {tree after : FileTree} {paths : List Path}
    (ran : exporter.writeEach descriptors tree = (.ok paths, after)) :
    paths = descriptors.map (fun descriptor => exporter.descriptorPath descriptor.name) ∧
      Wrote (exporter.writes descriptors) tree after := by
  induction descriptors generalizing tree paths with
  | nil =>
    cases ran
    exact ⟨rfl, .nil _⟩
  | cons descriptor descriptors ih =>
    obtain ⟨status, middle, written, rest⟩ := bind_eq_ok ran
    obtain ⟨others, last, wrote, done⟩ := bind_eq_ok rest
    cases done
    obtain ⟨rfl, later⟩ := ih wrote
    exact ⟨rfl, later.cons (writeIfChanged_ok written)⟩

/-! What writing descriptors can change -/

def prepare (exporter : InterfaceExport) (descriptors : List Descriptor) (selection : List String) :
    FileAction Unit := do
  FileAction.createDirectories exporter.outDir
  if exporter.clear then
    let _ ← purgeStale exporter.outDir fileExtension (exporter.scope descriptors selection)

variable {exporter : InterfaceExport} {descriptors : List Descriptor} {selection : List String}
  {tree after : FileTree}

theorem write_eq (exporter : InterfaceExport) (descriptors : List Descriptor) (selection : List String) :
    exporter.write descriptors selection =
      exporter.prepare descriptors selection >>= fun _ => exporter.writeEach descriptors := by
  unfold write prepare
  rw [bind_assoc]
  congr 1
  funext _
  split
  · rw [bind_assoc]
    rfl
  · rfl

theorem placeFrom_descriptorPath (workingDirectory : List String) (exporter : InterfaceExport)
    (name : String) :
    EndsIn fileExtension (placeFrom workingDirectory (exporter.descriptorPath name)) := by
  have suffix : Suffix fileExtension := by constructor <;> decide
  exact suffix.placeFrom_endsIn workingDirectory exporter.outDir name

def Changes (exporter : InterfaceExport) (descriptors : List Descriptor) (selection : List String)
    (workingDirectory names : List String) : Prop :=
  (∃ descriptor ∈ descriptors, names = placeFrom workingDirectory (exporter.descriptorPath descriptor.name)) ∨
    Purgeable workingDirectory exporter.outDir fileExtension (exporter.scope descriptors selection) names

theorem Changes.endsIn {workingDirectory names : List String}
    (changes : exporter.Changes descriptors selection workingDirectory names) : EndsIn fileExtension names := by
  rcases changes with ⟨descriptor, _, rfl⟩ | purgeable
  · exact placeFrom_descriptorPath workingDirectory exporter descriptor.name
  · exact purgeable.endsIn

theorem prepare_confined (exporter : InterfaceExport) (descriptors : List Descriptor)
    (selection : List String) (tidy : tree.root.Tidy) :
    Confined (Purgeable tree.workingDirectory exporter.outDir fileExtension
      (exporter.scope descriptors selection)) tree (exporter.prepare descriptors selection tree).2 := by
  have confines : Confines tree.workingDirectory (Purgeable tree.workingDirectory exporter.outDir
      fileExtension (exporter.scope descriptors selection)) (exporter.prepare descriptors selection) := by
    apply Confines.bind
    · exact fun other _ _ => createDirectories_confined exporter.outDir other
    · intro _
      split
      · apply Confines.bind
        · intro other same tidy
          have cleared := purgeStale_confined exporter.outDir fileExtension
            (exporter.scope descriptors selection) tidy
          rwa [same] at cleared
        · exact fun _ => Confines.pure ()
      · exact Confines.pure ()
  exact confines tree rfl tidy

theorem writeEach_confined (exporter : InterfaceExport) (descriptors : List Descriptor) (tree : FileTree) :
    Confined (fun names => ∃ descriptor ∈ descriptors,
      names = tree.place (exporter.descriptorPath descriptor.name)) tree
      (exporter.writeEach descriptors tree).2 := by
  induction descriptors generalizing tree with
  | nil => exact .refl tree
  | cons descriptor descriptors ih =>
    have first := writeIfChanged_confined (exporter.descriptorPath descriptor.name)
      (descriptor.toText exporter.spacing) tree
    have here : Confined (fun names => ∃ other ∈ descriptor :: descriptors,
        names = tree.place (exporter.descriptorPath other.name)) tree
        (writeIfChanged (exporter.descriptorPath descriptor.name) (descriptor.toText exporter.spacing) tree).2 :=
      first.mono fun _ same => ⟨descriptor, List.mem_cons_self, same⟩
    rw [writeEach, bind_apply]
    revert first here
    rcases writeIfChanged (exporter.descriptorPath descriptor.name) (descriptor.toText exporter.spacing)
      tree with ⟨cause | status, middle⟩
    · exact fun _ here => here
    · intro first here
      have rest : Confined (fun names => ∃ other ∈ descriptor :: descriptors,
          names = tree.place (exporter.descriptorPath other.name)) middle
          (exporter.writeEach descriptors middle).2 :=
        (ih middle).mono fun names ⟨other, member, same⟩ =>
          ⟨other, List.mem_cons_of_mem _ member, same.trans (first.place_eq _)⟩
      dsimp only
      rw [bind_apply]
      revert rest
      rcases exporter.writeEach descriptors middle with ⟨cause | paths, last⟩
      all_goals exact fun rest => here.trans rest

theorem write_confined (exporter : InterfaceExport) (descriptors : List Descriptor)
    (selection : List String) (tidy : tree.root.Tidy) :
    Confined (exporter.Changes descriptors selection tree.workingDirectory) tree
      (exporter.write descriptors selection tree).2 := by
  have prepared := exporter.prepare_confined descriptors selection tidy
  rw [write_eq, bind_apply]
  revert prepared
  rcases exporter.prepare descriptors selection tree with ⟨cause | value, made⟩
  · exact fun prepared => prepared.mono fun _ => .inr
  · intro prepared
    have wrote := exporter.writeEach_confined descriptors made
    refine (prepared.mono fun _ => .inr).trans (wrote.mono ?_)
    rintro names ⟨descriptor, member, rfl⟩
    exact .inl ⟨descriptor, member, prepared.place_eq _⟩

theorem write_ok {paths : List Path} (ran : exporter.write descriptors selection tree = (.ok paths, after)) :
    ∃ made, exporter.prepare descriptors selection tree = (.ok (), made) ∧
      exporter.writeEach descriptors made = (.ok paths, after) := by
  rw [write_eq] at ran
  obtain ⟨value, made, prepared, wrote⟩ := bind_eq_ok ran
  exact ⟨made, prepared, wrote⟩

/-! Writing them again -/

/-- Where every descriptor's file can be put in its place, all are. -/
theorem writeEach_of_located (quiet : tree.faultAfter = none)
    (ready : ∀ descriptor ∈ descriptors, ∃ location lead last,
      tree.locate (exporter.descriptorPath descriptor.name) = .ok location ∧ location.asDirectory = false ∧
      ¬ tree.IsDirectoryAt (tree.place (exporter.descriptorPath descriptor.name)) ∧
      Path.named (exporter.descriptorPath descriptor.name).text.toList = lead ++ [last]) :
    ∃ paths after, exporter.writeEach descriptors tree = (.ok paths, after) := by
  induction descriptors generalizing tree with
  | nil => exact ⟨[], tree, rfl⟩
  | cons descriptor descriptors ih =>
    obtain ⟨location, lead, last, located, asFile, free, named⟩ := ready descriptor List.mem_cons_self
    obtain ⟨status, middle, written, kept⟩ := writeIfChanged_of_located
      (descriptor.toText exporter.spacing) quiet located asFile free named
    have confined := writeIfChanged_confined (exporter.descriptorPath descriptor.name)
      (descriptor.toText exporter.spacing) tree
    rw [written] at confined
    have readyRest : ∀ other ∈ descriptors, ∃ location lead last,
        middle.locate (exporter.descriptorPath other.name) = .ok location ∧ location.asDirectory = false ∧
        ¬ middle.IsDirectoryAt (middle.place (exporter.descriptorPath other.name)) ∧
        Path.named (exporter.descriptorPath other.name).text.toList = lead ++ [last] := by
      intro other member
      obtain ⟨location, lead, last, located, asFile, free, named⟩ :=
        ready other (List.mem_cons_of_mem _ member)
      refine ⟨location, lead, last, confined.locate located, asFile, ?_, named⟩
      rw [confined.place_eq]
      exact fun isDirectory => free (kept _ isDirectory)
    obtain ⟨paths, after, rest⟩ := ih (confined.quiet quiet) readyRest
    rw [writeEach, bind_of_ok written, bind_of_ok rest]
    exact ⟨_, after, rfl⟩

/-- A directory that was made and cleared once can be made and cleared again, and what goes away then
has come to be since. -/
theorem prepare_again {made later : FileTree} (tidy : tree.root.Tidy) (inside : tree.IsInside)
    (ran : exporter.prepare descriptors selection tree = (.ok (), made))
    (same : later.workingDirectory = made.workingDirectory)
    (directories : ∀ names, made.IsDirectoryAt names → later.IsDirectoryAt names)
    (tidyLater : later.root.Tidy) (quiet : later.faultAfter = none) :
    ∃ cleared, exporter.prepare descriptors selection later = (.ok (), cleared) ∧ later.Shrinks cleared ∧
      ∀ names, cleared.fileAt names = later.fileAt names ∨
        (Purgeable later.workingDirectory exporter.outDir fileExtension
          (exporter.scope descriptors selection) names ∧ made.fileAt names ≠ later.fileAt names) := by
  obtain ⟨_, created, creates, rest⟩ := bind_eq_ok ran
  have confined : Confined (fun _ => False) tree (createDirectories exporter.outDir tree).2 :=
    createDirectories_confined exporter.outDir tree
  rw [creates] at confined
  have tidyCreated := confined.tidy tidy
  have again : ∀ {kept : FileTree}, kept.workingDirectory = created.workingDirectory →
      (∀ names, created.IsDirectoryAt names → kept.IsDirectoryAt names) → kept.faultAfter = none →
      createDirectories exporter.outDir kept = (.ok (), kept) :=
    fun same directories quiet => createDirectories_again creates inside same directories quiet
  cases clear : exporter.clear with
  | false =>
    rw [clear] at rest
    cases rest
    refine ⟨later, ?_, (SameFiles.refl later).shrinks, fun _ => .inl rfl⟩
    unfold prepare
    rw [bind_of_ok (again same directories quiet), clear]
    rfl
  | true =>
    rw [clear, if_pos rfl] at rest
    obtain ⟨paths, _, purged, done⟩ := bind_eq_ok rest
    cases done
    have purges := purgeStale_confined exporter.outDir fileExtension (exporter.scope descriptors selection)
      tidyCreated
    rw [purged] at purges
    obtain ⟨others, cleared, cleans⟩ := purgeStale_of_quiet exporter.outDir fileExtension
      (exporter.scope descriptors selection) tidyLater quiet
    have shrinks := purgeStale_shrinks exporter.outDir fileExtension (exporter.scope descriptors selection)
      tidyLater
    have removes := purgeStale_removes exporter.outDir fileExtension (exporter.scope descriptors selection)
      tidyLater
    rw [cleans] at shrinks removes
    refine ⟨cleared, ?_, shrinks, fun names => ?_⟩
    · unfold prepare
      rw [bind_of_ok (again (same.trans purges.workingDirectory)
        (fun names => directories names ∘ purges.directories names) quiet), clear, if_pos rfl, bind_of_ok cleans]
      rfl
    by_cases nonempty : exporter.outDir.text.toList = []
    · rw [purgeStale_of_missing _ _ (isDirectory_of_empty nonempty later)] at cleans
      cases cleans
      exact .inl rfl
    · refine (removes names).imp_right ?_
      rintro ⟨name, plain, stale, rfl⟩
      obtain ⟨isFile, staleName⟩ := isStale_iff.1 stale
      refine ⟨⟨name, plain, staleName, rfl⟩, fun unchanged => ?_⟩
      -- the first time it would have been removed as well
      obtain ⟨location, content, located, asFile, there⟩ := isFile_eq_true.1 isFile
      have isDirectory := isDirectory_of_created creates inside nonempty
      have sameCreated : later.workingDirectory = created.workingDirectory :=
        same.trans purges.workingDirectory
      have locatedThen := locate_join_of_isDirectory isDirectory (confined.isInside inside) sameCreated
        plain located
      have staleThen : isStale made fileExtension (exporter.scope descriptors selection)
          (exporter.outDir.join ⟨name⟩) = true := by
        refine isStale_iff.2 ⟨isFile_eq_true.2 ⟨location, content, purges.locate locatedThen, asFile, ?_⟩,
          staleName⟩
        rw [FileTree.place, ← same]
        exact unchanged.trans there
      rw [purgeStale_ok tidyCreated isDirectory purged plain] at staleThen
      cases staleThen

/-- Descriptors that were written can be written again, and that changes no file. -/
theorem write_again {later : FileTree} {paths : List Path} (tidy : tree.root.Tidy) (inside : tree.IsInside)
    (ran : exporter.write descriptors selection tree = (.ok paths, after))
    (same : later.workingDirectory = after.workingDirectory)
    (directories : ∀ names, after.IsDirectoryAt names → later.IsDirectoryAt names)
    (files : ∀ names, exporter.Changes descriptors selection later.workingDirectory names →
      later.fileAt names = after.fileAt names)
    (insideLater : later.IsInside) (tidyLater : later.root.Tidy) (quiet : later.faultAfter = none) :
    ∃ last, exporter.write descriptors selection later = (.ok paths, last) ∧
      ∀ names, last.fileAt names = later.fileAt names := by
  obtain ⟨made, prepared, wrote⟩ := write_ok ran
  have prepares := exporter.prepare_confined descriptors selection tidy
  rw [prepared] at prepares
  obtain ⟨isPaths, written⟩ := writeEach_ok wrote
  obtain ⟨cleared, preparedAgain, shrinks, cleans⟩ := prepare_again tidy inside prepared
    (same.trans written.confined.workingDirectory)
    (fun names => directories names ∘ written.confined.directories names) tidyLater quiet
  have clears := exporter.prepare_confined descriptors selection tidyLater
  rw [preparedAgain] at clears
  have sameCleared : cleared.workingDirectory = made.workingDirectory :=
    shrinks.workingDirectory.trans (same.trans written.confined.workingDirectory)
  have ready : ∀ descriptor ∈ descriptors, ∃ location lead last,
      cleared.locate (exporter.descriptorPath descriptor.name) = .ok location ∧ location.asDirectory = false ∧
      ¬ cleared.IsDirectoryAt (cleared.place (exporter.descriptorPath descriptor.name)) ∧
      Path.named (exporter.descriptorPath descriptor.name).text.toList = lead ++ [last] := by
    intro descriptor member
    have isWrite : (exporter.descriptorPath descriptor.name, descriptor.toText exporter.spacing) ∈
        exporter.writes descriptors := List.mem_map_of_mem member
    obtain ⟨location, located, asFile⟩ := written.located _ isWrite
    obtain ⟨content, leaves⟩ := @left_isSome_of_mem made.workingDirectory _ _ isWrite
    have there : later.fileAt (later.place (exporter.descriptorPath descriptor.name)) = some content := by
      rw [FileTree.place, files _ (.inl ⟨descriptor, member, rfl⟩), same, written.confined.workingDirectory]
      exact written.there _ _ leaves
    obtain ⟨lead, last, named⟩ := named_of_fileAt insideLater there
    refine ⟨location, lead, last, clears.locate (locate_mono same directories located), asFile, ?_, named⟩
    rw [clears.place_eq]
    exact fun isDirectory => not_isDirectoryAt_of_fileAt there (shrinks.noNewDirectories _ isDirectory)
  obtain ⟨others, last, wroteAgain⟩ := writeEach_of_located (clears.quiet quiet) ready
  obtain ⟨isOthers, writtenAgain⟩ := writeEach_ok wroteAgain
  refine ⟨last, ?_, fun names => ?_⟩
  · rw [write_eq, bind_of_ok preparedAgain, wroteAgain, isOthers, isPaths]
  · rw [writtenAgain.fileAt_eq, sameCleared]
    cases leaves : left made.workingDirectory (exporter.writes descriptors) names with
    | some content =>
      obtain ⟨write, member, rfl, _⟩ := exists_of_left leaves
      obtain ⟨descriptor, isMember, rfl⟩ := List.mem_map.1 member
      rw [Option.some_or, files _ (.inl ⟨descriptor, isMember, ?_⟩)]
      · exact (written.there _ _ leaves).symm
      · rw [same, written.confined.workingDirectory]
    | none =>
      rw [Option.none_or]
      rcases cleans names with kept | ⟨purgeable, differs⟩
      · exact kept
      · -- nothing was written there the first time either
        rw [files names (.inr purgeable), written.fileAt_eq, leaves, Option.none_or] at differs
        exact absurd rfl differs

end InterfaceExport
end ContractBuild
