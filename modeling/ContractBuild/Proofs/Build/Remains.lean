import ContractBuild.Proofs.Build.DescriptorFiles
import ContractBuild.Proofs.Build.History
import ContractBuild.Proofs.Build.Selection
import ContractBuild.Proofs.Store.SingleFlight

/-!
What remains of a source that is selected and fails. Its descriptor of an earlier build outlives the run, whatever
the run comes to: the selection spares it. Its binding has nothing that spares it where bindings are cleared away, so
it stays if and only if none are generated anew.
-/
namespace ContractBuild
open FileTree FileAction ContractBuild.Action Output

def RunReport.Generated (report : RunReport) : Prop :=
  .generating ∈ report.history ∧ report.generateSkipped = false

/-! The stems of bindings -/

theorem Name.identifier_ne_empty {fallback : String} (filled : fallback ≠ "") (name : String) :
    identifier fallback name ≠ "" := by
  rw [ne_eq, ← String.toList_inj, identifier_eq, String.toList_empty]
  unfold settled
  split
  · exact mt String.toList_eq_nil_iff.1 filled
  · next shown =>
    split
    · exact List.cons_ne_nil _ _
    · rintro empty
      rw [empty] at shown
      exact shown rfl

theorem Dialect.fileStem_ne_empty (dialect : Dialect) {name : String} (filled : name ≠ "") :
    dialect.fileStem name ≠ "" := by
  cases dialect with
  | ethersV5 => exact filled
  | rust =>
    show RustModule.moduleName name ≠ ""
    unfold RustModule.moduleName
    dsimp only
    split
    · intro empty
      simpa using congrArg String.toList empty
    · exact Name.identifier_ne_empty (by decide) _

namespace BindingExport

variable {exporter : BindingExport} {descriptors : List Descriptor} {tree : FileTree} {names : List String}

theorem prepare_confined_of_not_clears (descriptors : List Descriptor) (spares : ¬ exporter.Clears) (tree : FileTree) :
    Confined (fun _ => False) tree (exporter.prepare descriptors tree).2 := by
  have creates : Confined (fun _ => False) tree (createDirectories exporter.outDir tree).2 :=
    createDirectories_confined exporter.outDir tree
  unfold prepare
  rw [bind_apply, inBuild_apply]
  revert creates
  rcases createDirectories exporter.outDir tree with ⟨cause | value, made⟩
  · exact id
  · intro creates
    dsimp only
    cases clear : exporter.clear with
    | false => exact creates
    | true =>
      have empty : exporter.outDir.text = "" := not_not.1 fun filled => spares ⟨clear, filled⟩
      have purged : (liftM (purgeStale exporter.outDir exporter.dialect.fileExtension (exporter.scope descriptors)) :
          BuildAction (List Path)) made = (.ok [], made) :=
        telling_ok.2 (purgeStale_of_missing _ _ (isDirectory_of_empty (by rw [empty]; rfl) made))
      rw [if_pos rfl, bind_of_ok purged]
      exact creates

/-- Where nothing is cleared away, only the files that are expected of it change in a generation. -/
theorem generate_confined_of_not_clears (descriptors : List Descriptor) (spares : ¬ exporter.Clears)
    (tree : FileTree) :
    Confined (fun names => ∃ path ∈ exporter.expectedFiles (descriptors.map (·.name)), names = tree.place path) tree
      (exporter.generate descriptors tree).2 :=
  generate_confined_of_prepare
    ((prepare_confined_of_not_clears descriptors spares tree).mono fun _ => False.elim)
    fun path isExpected => ⟨path, isExpected, rfl⟩

/-- Whatever comes of a generation behind it, what belongs to no descriptor is cleared away. -/
theorem generate_clears (isClearing : exporter.Clears) (houses : tree.Houses exporter.outDir)
    (leftover : exporter.Leftover descriptors tree names)
    (apart : ∀ path ∈ exporter.expectedFiles (descriptors.map (·.name)), names ≠ tree.place path) :
    (exporter.generate descriptors tree).2.fileAt names = none := by
  obtain ⟨cleared, prepared, clears⟩ := prepare_eq descriptors houses.tidy houses.quiet houses.inside
    houses.createDirectories_eq
  rw [generate_eq, bind_of_ok prepared, (writeAll_confined exporter descriptors cleared).outside names,
    clears.gone isClearing names leftover]
  rintro ⟨path, expected, rfl⟩
  exact apart path expected (clears.confined.place_eq path)

structure Beside (exporter : BindingExport) (descriptors : List Descriptor) (tree : FileTree) (name : String) :
    Prop where
  whole : '/' ∉ (exporter.dialect.fileStem name).toList
  index : exporter.dialect.fileStem name ≠ exporter.dialect.indexStem
  apart : ∀ descriptor ∈ descriptors,
    tree.place (exporter.bindingPath descriptor.name) ≠ tree.place (exporter.bindingPath name)

variable {name : String}

theorem Beside.of_place_eq {before : FileTree} (beside : exporter.Beside descriptors before name)
    (places : ∀ path, tree.place path = before.place path) : exporter.Beside descriptors tree name := by
  refine ⟨beside.whole, beside.index, fun descriptor member => ?_⟩
  rw [places, places]
  exact beside.apart descriptor member

theorem Beside.not_expected (beside : exporter.Beside descriptors tree name) :
    ∀ path ∈ exporter.expectedFiles (descriptors.map (·.name)),
      tree.place (exporter.bindingPath name) ≠ tree.place path := by
  intro path expected same
  rw [expectedFiles, List.mem_append, List.mem_map, List.mem_singleton] at expected
  rcases expected with ⟨other, isName, rfl⟩ | rfl
  · obtain ⟨descriptor, member, rfl⟩ := List.mem_map.1 isName
    exact beside.apart descriptor member same.symm
  · exact beside.index ((place_file_eq_iff beside.whole (Dialect.whole_indexStem _)).1 same)

theorem Beside.leftover (beside : exporter.Beside descriptors tree name)
    (filled : exporter.dialect.fileStem name ≠ "") (isFile : tree.isFile (exporter.bindingPath name) = true) :
    exporter.Leftover descriptors tree (tree.place (exporter.bindingPath name)) := by
  refine ⟨_, filled, beside.whole, fun inScope => ?_, isFile, rfl⟩
  rcases List.mem_cons.1 inScope with isIndex | isOther
  · exact beside.index isIndex
  · obtain ⟨descriptor, member, same⟩ := List.mem_map.1 isOther
    refine beside.apart descriptor member ?_
    rw [bindingPath, bindingPath, same]

/-- The binding of a name beside those that are written stays unless bindings are cleared away, and then it goes. -/
theorem Beside.generate (beside : exporter.Beside descriptors tree name) :
    (¬ exporter.Clears → (exporter.generate descriptors tree).2.fileAt (tree.place (exporter.bindingPath name)) =
      tree.fileAt (tree.place (exporter.bindingPath name))) ∧
    (exporter.Clears → tree.Houses exporter.outDir → exporter.dialect.fileStem name ≠ "" →
      tree.isFile (exporter.bindingPath name) = true →
      (exporter.generate descriptors tree).2.fileAt (tree.place (exporter.bindingPath name)) = none) := by
  constructor
  · intro spares
    apply (generate_confined_of_not_clears descriptors spares tree).outside
    rintro ⟨path, expected, same⟩
    exact beside.not_expected path expected same
  · intro clears houses filled isFile
    exact generate_clears clears houses (beside.leftover filled isFile) beside.not_expected

end BindingExport

namespace Pipeline

variable {pipeline : Pipeline} {mode : Mode} {state : BuildState} {units : List SourceUnit}
  {checked compiled after : RunState} {results : List JobResult} {name : String} {descriptors : List Descriptor}

/-- The generating stage finds nothing to do, or it generates from files as they are and turns to the stamp. -/
theorem generate_cases (pipeline : Pipeline) (descriptors : List Descriptor) (run : RunState) :
    ((pipeline.generate descriptors run).2.report.generateSkipped = true ∧
      (files run).SameFiles (files (pipeline.generate descriptors run).2)) ∨
    (pipeline.generate descriptors run).2.report.generateSkipped = run.report.generateSkipped ∧
      ∃ read made, (files run).SameFiles read ∧ (pipeline.bindingExport.generate descriptors read).2 = made ∧
        Confined (· = made.place pipeline.stampPath) made (files (pipeline.generate descriptors run).2) := by
  obtain ⟨stamp, read, loaded, same, -⟩ := Stamp.load_cases pipeline.stampPath (files run)
  have looked : RunAction.onFiles (Stamp.load pipeline.stampPath) run = (.ok stamp, withFiles run read) := by
    apply onFiles_eq
    rw [inBuild_apply, loaded]
  unfold generate
  dsimp only
  rw [bind_of_ok looked, bind_of_ok (get_apply _)]
  split
  · exact .inl ⟨rfl, same⟩
  · right
    cases ran : pipeline.bindingExport.generate descriptors read with
    | mk outcome made =>
      have went : RunAction.onFiles (pipeline.bindingExport.generate descriptors) (withFiles run read) =
          (outcome, withFiles run made) := onFiles_eq ran
      cases outcome with
      | error cause =>
        rw [bind_of_error went]
        exact ⟨rfl, read, made, same, by rw [ran], .refl made⟩
      | ok outcome =>
        rw [bind_of_ok went]
        refine ⟨rfl, read, made, same, by rw [ran], ?_⟩
        have saves := writeIfChanged_confined pipeline.stampPath (pipeline.stampFor descriptors outcome).toText made
        have saved := Stamp.save_apply (pipeline.stampFor descriptors outcome) pipeline.stampPath made
        show Confined _ made ((liftM ((pipeline.stampFor descriptors outcome).save pipeline.stampPath) :
          BuildAction Unit) made).2
        rw [inBuild_apply, saved]
        revert saves
        rcases writeIfChanged pipeline.stampPath (pipeline.stampFor descriptors outcome).toText made with
          ⟨cause | status, written⟩
        all_goals exact id

/-- What blocks an export is the name of a selected source. -/
theorem Compiles.of_blocked (compiles : pipeline.Compiles ⟨.start, state⟩ units checked compiled results)
    (blocked : name ∈ (CompileSummary.ofResults results).blocked) :
    name ∈ pipeline.project.settings.interfaces.only ∧ '/' ∉ name.toList ∧ name ≠ "" := by
  rw [CompileSummary.ofResults_eq, List.mem_map] at blocked
  obtain ⟨result, member, rfl⟩ := blocked
  obtain ⟨member, blocks⟩ := List.mem_filter.1 member
  have selected := selected_of_runAll compiles.compiles result member
  have isUnit : result.name ∈ units.map SourceUnit.artifactName :=
    (tallies_of_runAll compiles.compiles).names ▸ List.mem_map_of_mem member
  obtain ⟨unit, isUnit, named⟩ := List.mem_map.1 isUnit
  obtain ⟨tree, evicted, retained, discovers, -⟩ := compiles.discovers
  obtain ⟨paths, middle, -, reads⟩ := bind_eq_ok discovers
  refine ⟨?_, named ▸ unit.artifactName_whole, ?_⟩
  · rw [JobResult.blocksExport, Bool.and_eq_true, selected, decide_eq_true_eq] at blocks
    exact blocks.1
  · exact named ▸ SourceUnit.artifactName_ne_empty (isSource_of_readUnits reads (List.forall_mem_nil _) unit isUnit)

/-! What a run may write beside -/

def IsExternal (pipeline : Pipeline) (compiled : RunState) (other : String) : Prop :=
  ∃ externals read, pipeline.interfaceExport.loadExternals (files compiled) = (.ok externals, read) ∧
    ∃ descriptor ∈ externals, descriptor.name = other ∧ compiled.build.store.lookup other = none

/-- Where the outputs of a name are, there are none of another selected name or of one from elsewhere, and no index. -/
structure Unrivalled (pipeline : Pipeline) (compiled : RunState) (name : String) : Prop where
  descriptor : ∀ other, pipeline.IsExternal compiled other →
    (files compiled).place (pipeline.interfaceExport.descriptorPath other) ≠
      (files compiled).place (pipeline.interfaceExport.descriptorPath name)
  binding : ∀ other,
    other ∈ pipeline.project.settings.interfaces.only ∧ other ≠ name ∨ pipeline.IsExternal compiled other →
    (files compiled).place (pipeline.bindingExport.bindingPath other) ≠
      (files compiled).place (pipeline.bindingExport.bindingPath name)
  index : pipeline.bindingExport.dialect.fileStem name ≠ pipeline.bindingExport.dialect.indexStem

theorem Unrivalled.apart (unrivalled : pipeline.Unrivalled compiled name)
    (plain : pipeline.project.settings.interfaces.flat = false) (whole : '/' ∉ name.toList)
    (live : ∀ artifact ∈ compiled.build.store.live, '/' ∉ artifact.name.toList)
    (blocked : name ∈ (CompileSummary.ofResults results).blocked) {externals : List Descriptor} {read : FileTree}
    (chooses : pipeline.Chooses mode results compiled externals descriptors read) :
    ∀ descriptor ∈ descriptors,
      (files compiled).place (pipeline.interfaceExport.descriptorPath descriptor.name) ≠
          (files compiled).place (pipeline.interfaceExport.descriptorPath name) ∧
        (files compiled).place (pipeline.bindingExport.bindingPath descriptor.name) ≠
          (files compiled).place (pipeline.bindingExport.bindingPath name) := by
  have selects := chooses.selects
  rw [InterfaceExport.select_of_plain plain] at selects
  split at selects
  · cases selects
    intro descriptor member
    rcases List.mem_append.1 member with selected | added
    · obtain ⟨other, inSelection, found⟩ := List.mem_filterMap.1 selected
      obtain ⟨artifact, isLive, rfl⟩ := Option.map_eq_some_iff.1 found
      obtain ⟨wanted, free⟩ := List.mem_filter.1 inSelection
      have named : artifact.descriptor.name = other := Store.name_of_lookup isLive
      have differs : other ≠ name := fun same => of_decide_eq_true free (same ▸ blocked)
      have wholeOther : '/' ∉ other.toList := named ▸ live artifact (List.mem_of_find?_eq_some isLive)
      rw [named]
      refine ⟨fun same => differs ?_, unrivalled.binding other (.inl ⟨wanted, differs⟩)⟩
      exact (InterfaceExport.descriptorPath_inj wholeOther whole).1 same
    · obtain ⟨isExternal, absent⟩ := List.mem_filter.1 added
      have external : pipeline.IsExternal compiled descriptor.name :=
        ⟨externals, read, chooses.loads, descriptor, isExternal, rfl, Option.isNone_iff_eq_none.1 absent⟩
      exact ⟨unrivalled.descriptor _ external, unrivalled.binding _ (.inr external)⟩
  · cases selects

def IsOutput (pipeline : Pipeline) (name : String) (workingDirectory names : List String) : Prop :=
  names = placeFrom workingDirectory (pipeline.interfaceExport.descriptorPath name) ∨
    names = placeFrom workingDirectory (pipeline.bindingExport.bindingPath name)

def Spares (pipeline : Pipeline) (name : String) (before after : FileTree) : Prop :=
  Confined (fun names => ¬ pipeline.IsOutput name before.workingDirectory names) before after

theorem Spares.trans {before middle last : FileTree} (earlier : pipeline.Spares name before middle)
    (later : pipeline.Spares name middle last) : pipeline.Spares name before last := by
  unfold Spares at later
  rw [earlier.workingDirectory] at later
  exact Confined.trans earlier later

theorem spares_of_sameFiles {before after : FileTree} (same : before.SameFiles after) :
    pipeline.Spares name before after :=
  same.confined

/-- What compiling may change is not what leaves the build. -/
theorem spares_of_stores {ground : Ground} (uses : ground.Uses pipeline) (secludes : ground.Secludes)
    {before after : FileTree} (sees : ground.Sees before) (whole : '/' ∉ name.toList)
    (stored : Confined ground.Stores before after) : pipeline.Spares name before after := by
  refine stored.mono fun names stores => ?_
  have exported : ∀ path, (∃ directory ∈ [ground.interfaces, ground.bindings],
      placeFrom ground.workingDirectory directory <+: placeFrom before.workingDirectory path) →
      names ≠ placeFrom before.workingDirectory path := by
    rintro path below rfl
    exact secludes.not_exports stores (.inl below)
  rintro (here | here)
  · refine exported _ ⟨_, List.mem_cons_self, ?_⟩ here
    rw [sees.workingDirectory, ← uses.interfaces, InterfaceExport.descriptorPath,
      placeFrom_join_plain _ _ (InterfaceExport.plain_file whole)]
    exact List.prefix_append _ _
  · refine exported _ ⟨_, List.mem_cons_of_mem _ List.mem_cons_self, ?_⟩ here
    rw [sees.workingDirectory, ← uses.bindings, BindingExport.bindingPath,
      placeFrom_join_plain _ _ (Dialect.plain_fileName _ (Ground.fileStem_whole _ whole))]
    exact List.prefix_append _ _

/-- A selected name is in the scope of what is written, so its descriptor is spared. -/
theorem spares_of_write {before : FileTree} (tidy : before.root.Tidy)
    (plain : pipeline.project.settings.interfaces.flat = false) (whole : '/' ∉ name.toList)
    (wanted : name ∈ pipeline.project.settings.interfaces.only)
    (apart : ∀ descriptor ∈ descriptors, before.place (pipeline.interfaceExport.descriptorPath descriptor.name) ≠
      before.place (pipeline.interfaceExport.descriptorPath name)) :
    pipeline.Spares name before
      (pipeline.interfaceExport.write descriptors pipeline.project.settings.interfaces.only before).2 := by
  refine (pipeline.interfaceExport.write_confined descriptors _ tidy).mono ?_
  rintro names changes (rfl | rfl)
  · rcases changes with ⟨descriptor, member, same⟩ | ⟨file, plainFile, stale, same⟩
    · exact apart descriptor member same.symm
    · rw [InterfaceExport.descriptorPath, placeFrom_join_plain_inj _ _ (InterfaceExport.plain_file whole) plainFile]
        at same
      obtain ⟨stem, -, outOfScope, named⟩ := (staleName_join_iff InterfaceExport.suffix_fileExtension plainFile).1 stale
      rw [← same, String.append_left_inj, String.append_left_inj] at named
      refine outOfScope (named ▸ List.mem_append_right _ ?_)
      rw [show pipeline.interfaceExport.flat = false from plain]
      exact wanted
  · exact Dialect.not_endsIn_json _ (BindingExport.placeFrom_bindingPath _ _ _) changes.endsIn

/-! The stages of the run -/

variable {outcome : Except BuildError (Option (List Descriptor))}

theorem Extracts.generateSkipped (extracts : pipeline.Extracts mode results compiled outcome after) :
    after.report.generateSkipped = compiled.report.generateSkipped := by
  cases extracts with
  | cancelled | unwanted | unloaded | unselected | unwritten => rfl
  | written _ _ ends =>
    obtain ⟨last, rfl, ⟨_, _, rfl⟩ | ⟨_, _, rfl⟩⟩ := ends <;> rfl

theorem Extracts.chooses (extracts : pipeline.Extracts mode results compiled (.ok (some descriptors)) after) :
    ∃ externals read, pipeline.Chooses mode results compiled externals descriptors read := by
  cases extracts with
  | written chooses _ ends =>
    obtain ⟨_, _, ⟨_, other, _⟩ | ⟨_, same, _⟩⟩ := ends
    · cases other
    · cases same
      exact ⟨_, _, chooses⟩

/-- Up to the generation of bindings a run spares the outputs of a selected name that is not chosen. -/
theorem Extracts.spares (extracts : pipeline.Extracts mode results compiled outcome after)
    (tidy : (files compiled).root.Tidy) (plain : pipeline.project.settings.interfaces.flat = false)
    (whole : '/' ∉ name.toList) (wanted : name ∈ pipeline.project.settings.interfaces.only)
    (apart : ∀ externals descriptors read, pipeline.Chooses mode results compiled externals descriptors read →
      ∀ descriptor ∈ descriptors, (files compiled).place (pipeline.interfaceExport.descriptorPath descriptor.name) ≠
        (files compiled).place (pipeline.interfaceExport.descriptorPath name)) :
    pipeline.Spares name (files compiled) (files after) := by
  have reads := InterfaceExport.reads_loadExternals pipeline.interfaceExport (files compiled)
  have writes : ∀ {externals descriptors read}, pipeline.Chooses mode results compiled externals descriptors read →
      pipeline.Spares name (files compiled)
        (pipeline.interfaceExport.write descriptors pipeline.project.settings.interfaces.only read).2 := by
    intro externals descriptors read chooses
    rw [chooses.loads] at reads
    refine (spares_of_sameFiles reads).trans (spares_of_write (reads.root ▸ tidy) plain whole wanted ?_)
    intro descriptor member
    rw [reads.place_eq, reads.place_eq]
    exact apart _ _ _ chooses descriptor member
  cases extracts with
  | cancelled | unwanted => exact Confined.refl _
  | unloaded _ _ loads | unselected _ _ loads =>
    rw [loads] at reads
    exact spares_of_sameFiles reads
  | unwritten chooses wrote =>
    have spares := writes chooses
    rwa [wrote] at spares
  | written chooses wrote ends =>
    have spares := writes chooses
    rw [wrote] at spares
    obtain ⟨last, rfl, ⟨_, _, rfl⟩ | ⟨_, _, rfl⟩⟩ := ends <;> exact spares

theorem Compiles.generateSkipped (compiles : pipeline.Compiles ⟨.start, state⟩ units checked compiled results) :
    compiled.report.generateSkipped = false := by
  obtain ⟨_, _, _, _, _, _, rfl⟩ := compiles.discovers
  rw [compiles.report]
  rfl

/-- Behind compilation, the generation of bindings is entered if and only if descriptors were chosen. -/
theorem Extracts.generating_iff (extracts : pipeline.Extracts mode results compiled outcome after)
    (compiling : compiled.report.history = [.idle, .compiling]) :
    .generating ∈ after.report.history ↔ ∃ descriptors, outcome = .ok (some descriptors) := by
  have early : .generating ∉ compiled.report.history ∧ .generating ∉ compiled.report.history ++ [.extracting] := by
    rw [compiling]
    decide
  cases extracts with
  | cancelled | unwanted => exact iff_of_false early.1 nofun
  | unloaded | unselected | unwritten => exact iff_of_false early.2 nofun
  | written _ _ ends =>
    obtain ⟨last, rfl, ⟨_, rfl, rfl⟩ | ⟨_, rfl, rfl⟩⟩ := ends
    · exact iff_of_false early.2 nofun
    · exact iff_of_true (List.mem_append_right _ List.mem_cons_self) ⟨_, rfl⟩

/-- What a run leaves of the outputs of a name. -/
structure Remains (pipeline : Pipeline) (name : String) (before : FileTree) (report : RunReport) (after : FileTree) :
    Prop where
  descriptor : after.fileAt (before.place (pipeline.interfaceExport.descriptorPath name)) =
    before.fileAt (before.place (pipeline.interfaceExport.descriptorPath name))
  binding : ¬ (pipeline.bindingExport.Clears ∧ report.Generated) →
    after.fileAt (before.place (pipeline.bindingExport.bindingPath name)) =
      before.fileAt (before.place (pipeline.bindingExport.bindingPath name))
  cleared : pipeline.bindingExport.Clears → report.Generated → before.Houses pipeline.bindingExport.outDir →
    before.isFile (pipeline.bindingExport.bindingPath name) = true →
    after.fileAt (before.place (pipeline.bindingExport.bindingPath name)) = none

theorem Spares.remains {before after : FileTree} (spares : pipeline.Spares name before after) {report : RunReport}
    (notGenerated : ¬ report.Generated) : pipeline.Remains name before report after :=
  ⟨spares.outside _ (not_not.2 (.inl rfl)), fun _ => spares.outside _ (not_not.2 (.inr rfl)),
    fun _ generated => absurd generated notGenerated⟩

theorem Spares.then_remains {before middle last : FileTree} (spares : pipeline.Spares name before middle)
    {report : RunReport} (remains : pipeline.Remains name middle report last) :
    pipeline.Remains name before report last := by
  have places := Confined.place_eq spares
  have descriptor : middle.fileAt _ = before.fileAt _ := spares.outside _ (not_not.2 (.inl rfl))
  have binding : middle.fileAt _ = before.fileAt _ := spares.outside _ (not_not.2 (.inr rfl))
  obtain ⟨first, second, third⟩ := remains
  rw [places] at first second third
  refine ⟨first.trans descriptor, fun not => (second not).trans binding, fun clears generated houses isFile => ?_⟩
  refine third clears generated ⟨spares.quiet houses.quiet, spares.tidy houses.tidy, spares.isInside houses.inside,
    spares.isDirectory houses.there⟩ ?_
  obtain ⟨location, content, located, asFile, found⟩ := isFile_eq_true.1 isFile
  refine isFile_eq_true.2 ⟨location, content, spares.locate located, asFile, ?_⟩
  rw [places]
  exact binding.trans found

theorem remains_of_generate {run : RunState} (tidy : (files run).root.Tidy)
    (beside : pipeline.bindingExport.Beside descriptors (files run) name)
    (filled : pipeline.bindingExport.dialect.fileStem name ≠ "")
    (stamp : (files run).place (pipeline.interfaceExport.descriptorPath name) ≠ (files run).place pipeline.stampPath)
    (fresh : run.report.generateSkipped = false) {report : RunReport} (generating : .generating ∈ report.history)
    (told : report.generateSkipped = (pipeline.generate descriptors run).2.report.generateSkipped) :
    pipeline.Remains name (files run) report (files (pipeline.generate descriptors run).2) := by
  rcases pipeline.generate_cases descriptors run with ⟨skipped, same⟩ | ⟨kept, read, made, same, ran, saved⟩
  · refine (spares_of_sameFiles same).remains fun generated => ?_
    rw [generated.2] at told
    exact Bool.false_ne_true (told.trans skipped)
  have generated : report.Generated := ⟨generating, told.trans (kept.trans fresh)⟩
  refine (spares_of_sameFiles same).then_remains ?_
  have generates := (beside.of_place_eq same.place_eq).generate
  have changes := pipeline.bindingExport.generate_confined descriptors (same.root ▸ tidy)
  rw [ran] at generates changes
  -- the stamp is neither of the two files
  rw [← same.place_eq, ← same.place_eq] at stamp
  have descriptorStays := saved.outside (read.place (pipeline.interfaceExport.descriptorPath name)) (by
    rw [changes.place_eq]
    exact stamp)
  have bindingStays := saved.outside (read.place (pipeline.bindingExport.bindingPath name)) (by
    intro same
    have record := pipeline.placeFrom_stampPath made.workingDirectory
    rw [show placeFrom made.workingDirectory pipeline.stampPath = _ from same.symm] at record
    exact Dialect.not_endsIn_json _ (BindingExport.placeFrom_bindingPath _ _ _) record)
  refine ⟨descriptorStays.trans (changes.outside _ fun changed => ?_), fun not => ?_, fun clears _ houses isFile => ?_⟩
  · exact Dialect.not_endsIn_json _ changed.endsIn (InterfaceExport.placeFrom_descriptorPath _ _ _)
  · exact bindingStays.trans (generates.1 fun clears => not ⟨clears, generated⟩)
  · exact bindingStays.trans (generates.2 clears houses filled isFile)

theorem stampPath_ne_descriptorPath {ground : Ground} (uses : ground.Uses pipeline) (secludes : ground.Secludes)
    {tree : FileTree} (sees : ground.Sees tree) (whole : '/' ∉ name.toList) :
    tree.place (pipeline.interfaceExport.descriptorPath name) ≠ tree.place pipeline.stampPath := by
  obtain ⟨file, placed⟩ := uses.placed_stamp
  rw [FileTree.place, FileTree.place, sees.workingDirectory, placed, InterfaceExport.descriptorPath,
    placeFrom_join_plain _ _ (InterfaceExport.plain_file whole),
    show pipeline.interfaceExport.outDir = ground.interfaces from uses.interfaces]
  intro same
  have directories := (List.append_inj' same rfl).1
  exact (secludes.apart _ List.mem_cons_self).1 (directories ▸ List.prefix_rfl)

/-- A run in which a selected source fails leaves its descriptor as it was, and its binding as well unless bindings
are cleared away and generated anew: then the binding is gone. -/
theorem remains_of_blocked {ground : Ground} (uses : ground.Uses pipeline) (secludes : ground.Secludes)
    (sees : ground.Sees state.workspace.files) (directory : state.store.directory = Store.artifactsDir ground.cache)
    (stocked : ∀ artifact ∈ state.store.live, '/' ∉ artifact.name.toList)
    (plain : pipeline.project.settings.interfaces.flat = false)
    (compiles : pipeline.Compiles ⟨.start, state⟩ units checked compiled results)
    (blocked : name ∈ (CompileSummary.ofResults results).blocked) (unrivalled : pipeline.Unrivalled compiled name) :
    pipeline.Remains name state.workspace.files (pipeline.run mode state).1
      (pipeline.run mode state).2.workspace.files := by
  obtain ⟨wanted, whole, filled⟩ := compiles.of_blocked blocked
  have since := (uses.since_compiles sees ⟨.refl _, directory, stocked⟩ compiles).1
  have live : ∀ artifact ∈ compiled.build.store.live, '/' ∉ artifact.name.toList := by
    intro artifact member
    obtain ⟨unit, -, named⟩ := List.mem_map.1 (since.live artifact member)
    exact named ▸ unit.artifactName_whole
  have seesCompiled := since.sees sees
  have stored := spares_of_stores uses secludes sees whole since.stores
  have extracts := pipeline.behind_extracts mode results compiled
  have fronted : pipeline.front mode ⟨.start, state⟩ = pipeline.behind mode _ compiled := front_of_compiles compiles
  have entered : .generating ∈ (pipeline.run mode state).1.history ↔ _ := mem_history (.inr rfl)
  have told := pipeline.generateSkipped_run mode state
  rw [fronted] at entered
  rw [stages_eq, bind_apply, fronted] at told
  rw [files_run, stages_eq, bind_apply, fronted]
  revert extracts entered told
  rcases pipeline.behind mode (CompileSummary.ofResults results).blocked compiled with ⟨outcome, reached⟩
  intro extracts entered told
  have apart : ∀ externals descriptors read, pipeline.Chooses mode results compiled externals descriptors read → _ :=
    fun _ _ _ chooses => unrivalled.apart plain whole live blocked chooses
  have spares := stored.trans (extracts.spares seesCompiled.tidy plain whole wanted
    fun _ _ _ chooses descriptor member => (apart _ _ _ chooses descriptor member).1)
  have short := extracts.generating_iff compiles.history
  rcases outcome with cause | _ | descriptors
  · exact spares.remains fun generated => nomatch short.1 (entered.1 generated.1)
  · exact spares.remains fun generated => nomatch short.1 (entered.1 generated.1)
  obtain ⟨externals, read, chooses⟩ := extracts.chooses
  refine spares.then_remains (remains_of_generate ?_ ?_ ?_ ?_ ?_ (entered.2 (short.2 ⟨_, rfl⟩)) told)
  · exact spares.tidy sees.tidy
  · refine ⟨Ground.fileStem_whole _ whole, unrivalled.index, fun descriptor member => ?_⟩
    rw [Confined.place_eq spares, Confined.place_eq spares, ← Confined.place_eq stored, ← Confined.place_eq stored]
    exact (apart _ _ _ chooses descriptor member).2
  · exact Dialect.fileStem_ne_empty _ filled
  · exact stampPath_ne_descriptorPath uses secludes (sees.confined spares) whole
  · exact extracts.generateSkipped.trans compiles.generateSkipped

def breaksAtA : Pipeline :=
  { selectsA with
    project.settings.interfaces.clear := true
    adapters := fun
      | .vyper => some Pool.brokenAdapter
      | .solidity => none }

def builtA : BuildState :=
  ⟨.ofFiles ⟨.directory [(".kiln", .directory [("cache", .directory [("artifacts", .emptyDirectory)])]),
      ("abis", .directory [("A.json", .file "[]".toUTF8)]), ("bindings", .directory [("A.ts", .file "old".toUTF8)]),
      ("contracts", .directory [("A.vy", .file "[]".toUTF8)])], [], none⟩,
    ⟨⟨".kiln/cache/artifacts"⟩, [], [], ⟨0, 0, 0, 0⟩⟩⟩

theorem uses_breaksAtA : Ground.usual.Uses breaksAtA := by
  refine ⟨by decide, by decide, by decide, fun language adapter isAdapter unit version => ?_⟩
  cases language with
  | solidity => cases isAdapter
  | vyper =>
    cases isAdapter
    exact .act (fun _ => ConfinedFrom.refl _) fun _ => .await (.done trivial)

/-- The descriptor of a source that fails stays, and its binding is cleared away. -/
theorem remains_of_broken :
    let ended := breaksAtA.run .full builtA
    ended.1.stage = .failed ∧ ended.2.workspace.files.fileAt ["abis", "A.json"] = some "[]".toUTF8 ∧
      builtA.workspace.files.fileAt ["bindings", "A.ts"] = some "old".toUTF8 ∧
      ended.2.workspace.files.fileAt ["bindings", "A.ts"] = none := by
  intro ended
  have ran : ((breaksAtA.concludesWithin 9 .full builtA).any fun ended => decide (ended.1.stage = .failed) &&
      decide (.generating ∈ ended.1.history) && !ended.1.generateSkipped) = true := by
    decide +kernel
  obtain ⟨last, within, ran⟩ := (Option.any_eq_true ..).1 ran
  obtain rfl : ended = last := run_of_concludesWithin within
  simp only [Bool.and_eq_true, decide_eq_true_eq, Bool.not_eq_true'] at ran
  obtain ⟨⟨failed, generating⟩, fresh⟩ := ran
  have found : (breaksAtA.lead ⟨.start, builtA⟩).1.toOption = some [unitA] := by decide +kernel
  have fails : ((Pool.ofWork (max breaksAtA.project.settings.build.concurrency 1)
      (([unitA].map breaksAtA.jobFor).map Job.work)).runWithin 9 0 (breaksAtA.lead ⟨.start, builtA⟩).2.build).any
      (fun last => decide ((CompileSummary.ofResults (Job.results ([unitA].map breaksAtA.jobFor) last.1)).blocked =
        ["A"])) = true := by
    decide +kernel
  obtain ⟨⟨pool, build⟩, worked, fails⟩ := (Option.any_eq_true ..).1 fails
  rcases led : breaksAtA.lead ⟨.start, builtA⟩ with ⟨cause | units, checked⟩
  · rw [led] at found
    cases found
  rw [led] at found worked
  obtain rfl : units = [unitA] := Option.some.inj found
  have tidy : builtA.workspace.files.root.Tidy := FileNode.tidy_of_isTidy (by decide +kernel)
  have secludes : Ground.usual.Secludes := ⟨by decide +kernel, fun _ => False.elim⟩
  have unrivalled : ∀ compiled, breaksAtA.Unrivalled compiled "A" := by
    have none : ∀ compiled other, ¬ breaksAtA.IsExternal compiled other := by
      rintro compiled other ⟨externals, read, loads, descriptor, member, -⟩
      cases loads
      cases member
    refine fun compiled => ⟨fun other external => absurd external (none compiled other), ?_, by decide⟩
    rintro other (⟨selected, differs⟩ | external)
    · exact absurd (List.mem_singleton.1 selected) differs
    · exact absurd external (none compiled other)
  have remains : breaksAtA.Remains "A" _ ended.1 _ :=
    remains_of_blocked uses_breaksAtA secludes ⟨rfl, tidy⟩ (by decide) (fun _ member => nomatch member) rfl
      (compiles_of_runWithin led worked) (of_decide_eq_true fails ▸ List.mem_singleton.2 rfl) (unrivalled _)
  refine ⟨failed, remains.descriptor.trans (by decide +kernel), by decide +kernel, ?_⟩
  exact remains.cleared ⟨rfl, by decide⟩ ⟨generating, fresh⟩ ⟨rfl, tidy, rfl, by decide +kernel⟩ (by decide +kernel)

end Pipeline
end ContractBuild
