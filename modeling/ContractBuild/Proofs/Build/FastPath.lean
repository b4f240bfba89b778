import ContractBuild.Proofs.Build.Bounded
import ContractBuild.Proofs.Build.Generation
import ContractBuild.Proofs.Store.Files

/-!
The fast path of generation. As long as only runs touch the stamp and the bindings, and no run ends
in an error after it has changed a binding, what the stamp vouches for is what a generation would
write.
-/
namespace ContractBuild
open FileTree FileAction ContractBuild.Action

/-- Where the runs of a project keep their stamp, as seen from one working directory, and all that they
generate from on the way. -/
structure Layout where
  workingDirectory : List String
  cache : Path
  generations : BindingExport → List Descriptor → Prop

namespace Layout

def stampPlace (layout : Layout) : List String :=
  placeFrom layout.workingDirectory (Stamp.pathIn layout.cache)

def IsBinding (layout : Layout) (names : List String) : Prop :=
  ∃ exporter descriptors, layout.generations exporter descriptors ∧
    ∃ path ∈ exporter.expectedFiles (descriptors.map (·.name)), names = placeFrom layout.workingDirectory path

structure Sees (layout : Layout) (tree : FileTree) : Prop where
  workingDirectory : tree.workingDirectory = layout.workingDirectory
  tidy : tree.root.Tidy

structure Spares (layout : Layout) (before after : FileTree) : Prop where
  workingDirectory : after.workingDirectory = before.workingDirectory
  tidy : before.root.Tidy → after.root.Tidy
  stamp : after.fileAt layout.stampPlace = before.fileAt layout.stampPlace
  bindings : ∀ names, layout.IsBinding names → after.fileAt names = before.fileAt names

/-- A pipeline of the layout, with adapters that spare the stamp and the bindings. -/
structure Uses (layout : Layout) (pipeline : Pipeline) : Prop where
  cache : pipeline.project.cacheDir = layout.cache
  adapters : ∀ language adapter, pipeline.adapters language = some adapter → ∀ unit version,
    (adapter.call unit version).Within
      (fun before after => layout.Sees before.files → layout.Spares before.files after.files) fun _ => True

def BreaksOff (layout : Layout) (pipeline : Pipeline) (mode : Mode) (state : BuildState) : Prop :=
  (∃ cause, (pipeline.stages mode ⟨.start, state⟩).1 = .error cause) ∧
    ∃ names, layout.IsBinding names ∧
      (pipeline.run mode state).2.workspace.files.fileAt names ≠ state.workspace.files.fileAt names

def Regenerates (pipeline : Pipeline) (mode : Mode) (state : BuildState) : Prop :=
  pipeline.wantsExport mode = true ∧ (pipeline.stages mode ⟨.start, state⟩).1 = .ok () ∧
    (pipeline.run mode state).1.generateSkipped = false

def From (pipeline : Pipeline) (mode : Mode) (state : BuildState) (descriptors : List Descriptor) : Prop :=
  (pipeline.front mode ⟨.start, state⟩).1 = .ok (some descriptors)

/-- The states that runs and other changes lead to from one without a stamp, or from a run that
generated anew. -/
inductive Life (layout : Layout) : BuildState → Prop
  | blank {state : BuildState} (sees : layout.Sees state.workspace.files)
    (silent : Stamp.at? state.workspace.files layout.stampPlace = none) : Life layout state
  | spared {before after : BuildState} (life : Life layout before)
    (spares : layout.Spares before.workspace.files after.workspace.files) : Life layout after
  | ran {state : BuildState} {pipeline : Pipeline} {mode : Mode} (life : Life layout state)
    (uses : layout.Uses pipeline)
    (counted : ∀ descriptors, From pipeline mode state descriptors →
      layout.generations pipeline.bindingExport descriptors)
    (whole : ¬ layout.BreaksOff pipeline mode state) : Life layout (pipeline.run mode state).2
  | regenerated {state : BuildState} {pipeline : Pipeline} {mode : Mode}
    (sees : layout.Sees state.workspace.files) (uses : layout.Uses pipeline)
    (counted : ∀ descriptors, From pipeline mode state descriptors →
      layout.generations pipeline.bindingExport descriptors)
    (anew : Regenerates pipeline mode state) : Life layout (pipeline.run mode state).2

variable {layout : Layout}

theorem stampPlace_endsIn (layout : Layout) : EndsIn "json" layout.stampPlace :=
  suffix_json.placeFrom_endsIn layout.workingDirectory layout.cache "stamps"

theorem IsBinding.not_endsIn {names : List String} (isBinding : layout.IsBinding names) :
    ¬ EndsIn "json" names := by
  obtain ⟨exporter, descriptors, _, path, expected, rfl⟩ := isBinding
  have changes : exporter.Changes descriptors layout.workingDirectory (placeFrom layout.workingDirectory path) :=
    .inl ⟨path, expected, rfl⟩
  exact exporter.dialect.not_endsIn_json changes.endsIn

structure Calms (layout : Layout) (before after : FileTree) : Prop where
  sees : layout.Sees after
  bindings : ∀ names, layout.IsBinding names → after.fileAt names = before.fileAt names
  stamp : Stamp.at? after layout.stampPlace = Stamp.at? before layout.stampPlace ∨
    Stamp.at? after layout.stampPlace = none

def Calm (layout : Layout) (before after : BuildState) : Prop :=
  layout.Sees before.workspace.files → layout.Calms before.workspace.files after.workspace.files

theorem Calm.trans {first middle last : BuildState} (earlier : layout.Calm first middle)
    (later : layout.Calm middle last) : layout.Calm first last := by
  intro sees
  have before := earlier sees
  have after := later before.sees
  refine ⟨after.sees, fun names isBinding =>
    (after.bindings names isBinding).trans (before.bindings names isBinding), ?_⟩
  rcases after.stamp with same | silent
  · rw [same]
    exact before.stamp
  · exact .inr silent

theorem Spares.calms {before after : FileTree} (spares : layout.Spares before after)
    (sees : layout.Sees before) : layout.Calms before after :=
  ⟨⟨spares.workingDirectory.trans sees.workingDirectory, spares.tidy sees.tidy⟩, spares.bindings,
    .inl (Stamp.at?_of_fileAt_eq spares.stamp)⟩

/-- Changes of records that are no stamps are calm. -/
theorem calms_of_records {before after : FileTree} (sees : layout.Sees before)
    (confined : Confined (EndsIn "json") before after)
    (alters : Alters (fun _ found => found.bind Stamp.told? = none) before after) :
    layout.Calms before after := by
  refine ⟨⟨confined.workingDirectory.trans sees.workingDirectory, confined.tidy sees.tidy⟩,
    fun names isBinding => confined.outside names isBinding.not_endsIn, ?_⟩
  rcases alters layout.stampPlace with same | silent
  · exact .inl (Stamp.at?_of_fileAt_eq same)
  · exact .inr silent

theorem calm_of_sameFiles (state : BuildState) (workspace : Workspace)
    (same : state.workspace.files.SameFiles workspace.files) : layout.Calm state { state with workspace } :=
  fun sees => calms_of_records sees same.confined same.alters

theorem calm_of_described (state : BuildState) (workspace : Workspace)
    (described : InterfaceExport.DescribedFrom state.workspace.files workspace.files) :
    layout.Calm state { state with workspace } := by
  intro sees
  have changes := described sees.tidy
  refine calms_of_records sees changes.confined (changes.alters.mono ?_)
  rintro names found ⟨_, rfl | ⟨descriptor, spacing, rfl⟩⟩
  · rfl
  · rw [Option.bind_some]
    exact descriptor.told?_toText spacing

theorem calm_invalidate (name : String) (state : BuildState) :
    layout.Calm state (Store.invalidate name state).2 := by
  intro sees
  rcases Store.workspace_invalidate name state with same | removed
  · rw [same]
    exact calms_of_records sees (.refl _) (.refl _)
  · rw [removed]
    refine calms_of_records sees ((removeFile_confined _ sees.tidy).mono ?_)
      ((removeFile_alters _ sees.tidy).mono ?_)
    · rintro names rfl
      exact Store.placeFrom_pathFor _ state.store name
    · rintro names found ⟨_, rfl⟩
      rfl

theorem calm_publish (artifact : Artifact) (state : BuildState) :
    layout.Calm state (Store.publish artifact state).2 := by
  intro sees
  rw [Store.workspace_publish]
  refine calms_of_records sees ((state.store.writeArtifact_confined artifact _).mono ?_)
    ((state.store.writeArtifact_alters artifact _).mono ?_)
  · rintro names rfl
    exact Store.placeFrom_pathFor _ state.store artifact.name
  · rintro names found ⟨_, rfl⟩
    rw [Option.bind_some]
    exact artifact.told?_toJson

/-- The adapters' calls and everything else in front of the generation are calm. -/
theorem Uses.upholds {pipeline : Pipeline} (uses : layout.Uses pipeline) :
    pipeline.Upholds layout.Calm fun _ => True := by
  have trans : ∀ {first middle last}, layout.Calm first middle → layout.Calm middle last →
      layout.Calm first last := Calm.trans
  refine ⟨trans, calm_of_sameFiles, ?_, ?_, ?_⟩
  · intro inUse state
    apply Store.retain_upholds
    · exact fun state sees => calms_of_records sees (.refl _) (.refl _)
    · exact trans
    · exact calm_invalidate
  · intro state externals descriptors read selection loaded _
    have looked := pipeline.interfaceExport.reads_loadExternals state.workspace.files
    rw [loaded] at looked
    have looks : InterfaceExport.DescribedFrom state.workspace.files read :=
      fun _ => ⟨looked.confined, looked.alters⟩
    exact calm_of_described state _ (looks.trans (pipeline.interfaceExport.describing_write descriptors _ read))
  intro units _ unit _ request asks
  obtain ⟨adapter, found, rfl⟩ := Pipeline.adapter_of_workFor asks
  refine ⟨trans, ?_, calm_invalidate request.name, ?_⟩
  · intro state store _ _ sees
    exact calms_of_records sees (.refl _) (.refl _)
  · exact (uses.adapters unit.language request.adapter found request.unit request.version).mono
      (fun before after spares store sees => (spares sees).calms sees)
      fun outcome _ artifact _ _ state => calm_publish artifact state

def Fits (workingDirectory : List String) (exporter : BindingExport) (descriptors : List Descriptor)
    (tree : FileTree) : Prop :=
  ∃ writes, exporter.writes? descriptors = some writes ∧ ∀ names content,
    Output.left workingDirectory writes names = some content → tree.fileAt names = some content

theorem isBinding_of_writes {exporter : BindingExport} {descriptors : List Descriptor}
    (counted : layout.generations exporter descriptors) {writes : List (Path × String)}
    (rendered : exporter.writes? descriptors = some writes) {names : List String}
    {content : ByteArray} (found : Output.left layout.workingDirectory writes names = some content) :
    layout.IsBinding names := by
  obtain ⟨write, member, rfl, _⟩ := Output.exists_of_left found
  refine ⟨exporter, descriptors, counted, write.1, ?_, rfl⟩
  rw [← BindingExport.paths_of_writes? rendered]
  exact List.mem_map_of_mem member

/-- Where no binding changes, what fits stays so. -/
theorem Fits.of_bindings {exporter : BindingExport} {descriptors : List Descriptor}
    (counted : layout.generations exporter descriptors) {before after : FileTree}
    (fits : Fits layout.workingDirectory exporter descriptors before)
    (bindings : ∀ names, layout.IsBinding names → after.fileAt names = before.fileAt names) :
    Fits layout.workingDirectory exporter descriptors after := by
  obtain ⟨writes, rendered, there⟩ := fits
  refine ⟨writes, rendered, fun names content found => ?_⟩
  rw [bindings names (isBinding_of_writes counted rendered found)]
  exact there names content found

theorem Fits.of_sameFiles {workingDirectory : List String} {exporter : BindingExport}
    {descriptors : List Descriptor} {before after : FileTree}
    (fits : Fits workingDirectory exporter descriptors before) (same : before.SameFiles after) :
    Fits workingDirectory exporter descriptors after := by
  obtain ⟨writes, rendered, there⟩ := fits
  refine ⟨writes, rendered, fun names content found => ?_⟩
  rw [same.fileAt_eq]
  exact there names content found

/-- A generation without failures makes everything fit. -/
theorem fits_of_generate {exporter : BindingExport} {descriptors : List Descriptor}
    {report : BindingReport} {before after : FileTree} (sees : layout.Sees before)
    (ran : exporter.generate descriptors before = (.ok report, after)) (clean : report.failures = []) :
    Fits layout.workingDirectory exporter descriptors after := by
  obtain ⟨writes, made, rendered, confined, wrote⟩ := BindingExport.generate_ok ran clean sees.tidy
  refine ⟨writes, rendered, fun names content found => wrote.there names content ?_⟩
  rw [confined.workingDirectory, sees.workingDirectory]
  exact found

/-- Two trees that fit the same descriptors agree in every file that is expected. -/
theorem Fits.agree {workingDirectory : List String} {exporter : BindingExport}
    {descriptors : List Descriptor} {first second : FileTree}
    (one : Fits workingDirectory exporter descriptors first)
    (other : Fits workingDirectory exporter descriptors second) {path : Path}
    (expected : path ∈ exporter.expectedFiles (descriptors.map (·.name))) :
    ∃ content, first.fileAt (placeFrom workingDirectory path) = some content ∧
      second.fileAt (placeFrom workingDirectory path) = some content := by
  obtain ⟨writes, rendered, there⟩ := one
  obtain ⟨others, again, thereToo⟩ := other
  rw [rendered] at again
  cases again
  rw [← BindingExport.paths_of_writes? rendered, List.mem_map] at expected
  obtain ⟨write, member, rfl⟩ := expected
  obtain ⟨content, found⟩ := Output.left_isSome_of_mem member
  exact ⟨content, there _ _ found, thereToo _ _ found⟩

structure Vouched (layout : Layout) (tree : FileTree) : Prop where
  sees : layout.Sees tree
  fits : ∀ digest, Stamp.at? tree layout.stampPlace = some digest →
    ∃ exporter descriptors, layout.generations exporter descriptors ∧
      exporter.digest descriptors = digest ∧
      Fits layout.workingDirectory exporter descriptors tree

theorem Vouched.calm {before after : FileTree} (vouched : layout.Vouched before)
    (calms : layout.Calms before after) : layout.Vouched after := by
  refine ⟨calms.sees, fun digest told => ?_⟩
  rcases calms.stamp with same | silent
  · rw [same] at told
    obtain ⟨exporter, descriptors, counted, digests, fits⟩ := vouched.fits digest told
    exact ⟨exporter, descriptors, counted, digests, fits.of_bindings counted calms.bindings⟩
  · rw [silent] at told
    cases told

theorem calms_of_sameFiles {before after : FileTree} (same : before.SameFiles after)
    (sees : layout.Sees before) : layout.Calms before after :=
  calms_of_records sees same.confined same.alters

theorem Uses.stampPlace {pipeline : Pipeline} (uses : layout.Uses pipeline) {tree : FileTree}
    (sees : layout.Sees tree) : tree.place pipeline.stampPath = layout.stampPlace := by
  rw [FileTree.place, sees.workingDirectory, Pipeline.stampPath, uses.cache]
  rfl

/-- Behind a generation that was not skipped the stamp vouches for it, or says nothing. -/
theorem vouched_of_completes {pipeline : Pipeline} (uses : layout.Uses pipeline)
    {descriptors : List Descriptor} {outcome : BindingReport} {read made after : FileTree}
    (sees : layout.Sees read)
    (ran : pipeline.bindingExport.generate descriptors read = (.ok outcome, made))
    (saved : Stored made pipeline.stampPath
      (pipeline.stampFor descriptors outcome).toText.toUTF8 after)
    (counted : layout.generations pipeline.bindingExport descriptors) : layout.Vouched after := by
  have confined := pipeline.bindingExport.generate_confined descriptors sees.tidy
  rw [ran] at confined
  have seesMade : layout.Sees made :=
    ⟨confined.workingDirectory.trans sees.workingDirectory, confined.tidy sees.tidy⟩
  have stampPlace := uses.stampPlace seesMade
  refine ⟨⟨saved.confined.workingDirectory.trans seesMade.workingDirectory,
    saved.confined.tidy seesMade.tidy⟩, fun digest told => ?_⟩
  have there := saved.there
  rw [stampPlace] at there
  rw [Stamp.at?, there, Option.bind_some, Stamp.told?_toText, Pipeline.stampFor] at told
  dsimp only at told
  rw [Option.ite_none_right_eq_some, List.isEmpty_iff] at told
  refine ⟨pipeline.bindingExport, descriptors, counted, Option.some.inj told.2, ?_⟩
  refine (fits_of_generate sees ran told.1).of_bindings counted fun names isBinding => ?_
  apply saved.confined.outside
  rintro rfl
  rw [stampPlace] at isBinding
  exact isBinding.not_endsIn layout.stampPlace_endsIn

theorem vouched_of_generates {pipeline : Pipeline} (uses : layout.Uses pipeline)
    {descriptors : List Descriptor} {before after : RunState} {outcome : Except BuildError Unit}
    (generates : pipeline.Generates descriptors before after outcome)
    (vouched : layout.Vouched (Pipeline.files before))
    (counted : layout.generations pipeline.bindingExport descriptors)
    (whole : ∀ cause, outcome = .error cause → ∀ names, layout.IsBinding names →
      (Pipeline.files after).fileAt names = (Pipeline.files before).fileAt names) :
    layout.Vouched (Pipeline.files after) := by
  cases generates with
  | skips same _ _ report => exact vouched.calm (calms_of_sameFiles same vouched.sees)
  | breaks confined report =>
    have changes := confined vouched.sees.tidy
    refine vouched.calm ⟨⟨changes.workingDirectory.trans vouched.sees.workingDirectory,
      changes.tidy vouched.sees.tidy⟩, whole _ rfl, .inl (Stamp.at?_of_fileAt_eq ?_)⟩
    apply changes.outside
    intro reached
    exact pipeline.bindingExport.dialect.not_endsIn_json reached.endsIn layout.stampPlace_endsIn
  | completes same ran saved report =>
    exact vouched_of_completes uses (calms_of_sameFiles same vouched.sees).sees ran saved counted

/-- Bindings that the stamp tells of fit. -/
theorem fits_of_told
    (agree : ∀ {exporter descriptors other others}, layout.generations exporter descriptors →
      layout.generations other others →
      exporter.digest descriptors = other.digest others → exporter = other ∧ descriptors = others)
    {tree : FileTree} (vouched : layout.Vouched tree) {pipeline : Pipeline} (uses : layout.Uses pipeline)
    {descriptors : List Descriptor} (counted : layout.generations pipeline.bindingExport descriptors)
    (told : Stamp.ToldAt tree pipeline.stampPath (pipeline.bindingExport.digest descriptors)) :
    Fits layout.workingDirectory pipeline.bindingExport descriptors tree := by
  have tells := told.at?
  rw [uses.stampPlace vouched.sees] at tells
  obtain ⟨exporter, others, countedThen, digests, fits⟩ := vouched.fits _ tells
  obtain ⟨rfl, rfl⟩ := agree countedThen counted digests
  exact fits

/-- A run ends in front of the generation, without a change that is not calm, or it generates. -/
theorem run_cases {pipeline : Pipeline} (uses : layout.Uses pipeline) (mode : Mode)
    (state : BuildState) (sees : layout.Sees state.workspace.files) :
    (layout.Calms state.workspace.files (pipeline.run mode state).2.workspace.files ∧
      (∀ descriptors, ¬ From pipeline mode state descriptors) ∧
      (pipeline.run mode state).1.generateSkipped = false ∧
      (pipeline.wantsExport mode = true → (pipeline.stages mode ⟨.start, state⟩).1 ≠ .ok ())) ∨
    ∃ descriptors run, From pipeline mode state descriptors ∧
      layout.Calms state.workspace.files (Pipeline.files run) ∧
      run.report.generateSkipped = false ∧
      pipeline.Generates descriptors run (pipeline.stages mode ⟨.start, state⟩).2
        (pipeline.stages mode ⟨.start, state⟩).1 := by
  obtain ⟨calm, skipped⟩ := uses.upholds.front mode ⟨.start, state⟩ fun _ _ => trivial
  have calms := calm sees
  rw [Pipeline.files_run, Pipeline.generateSkipped_run, Pipeline.stages_eq, bind_apply]
  unfold From
  cases ran : pipeline.front mode ⟨.start, state⟩ with
  | mk outcome run =>
    rw [ran] at calms skipped
    cases outcome with
    | error cause => exact .inl ⟨calms, fun _ same => (nomatch same), skipped, fun _ same => (nomatch same)⟩
    | ok chosen =>
      cases chosen with
      | none =>
        refine .inl ⟨calms, fun _ same => (nomatch same), skipped, fun wants => ?_⟩
        rw [Pipeline.wantsExport_of_front ran] at wants
        cases wants
      | some descriptors =>
        exact .inr ⟨descriptors, run, rfl, calms, skipped, pipeline.generate_generates descriptors run⟩

/-- The stamp vouches for the bindings at every moment. -/
theorem Life.vouched {state : BuildState} (life : layout.Life state) :
    layout.Vouched state.workspace.files := by
  induction life with
  | blank sees silent =>
    refine ⟨sees, fun digest told => ?_⟩
    rw [silent] at told
    cases told
  | spared _ spares ih => exact ih.calm (spares.calms ih.sees)
  | @ran state pipeline mode _ uses counted whole ih =>
    rcases run_cases uses mode state ih.sees with ⟨calms, _⟩ | ⟨descriptors, run, here, calms, _, generates⟩
    · exact ih.calm calms
    · rw [Pipeline.files_run]
      refine vouched_of_generates uses generates (ih.calm calms) (counted descriptors here) ?_
      intro cause failed names isBinding
      apply Decidable.byContradiction
      intro differs
      apply whole
      refine ⟨⟨cause, failed⟩, names, isBinding, ?_⟩
      rw [Pipeline.files_run, ← calms.bindings names isBinding]
      exact differs
  | @regenerated state pipeline mode sees uses counted anew =>
    obtain ⟨wants, fine, notSkipped⟩ := anew
    rcases run_cases uses mode state sees with ⟨_, _, _, failed⟩ |
      ⟨descriptors, run, here, calms, _, generates⟩
    · exact absurd fine (failed wants)
    · rw [Pipeline.files_run]
      rw [Pipeline.generateSkipped_run] at notSkipped
      rw [fine] at generates
      cases generates with
      | skips same _ _ report =>
        rw [report] at notSkipped
        cases notSkipped
      | completes same ran saved report =>
        exact vouched_of_completes uses (calms_of_sameFiles same calms.sees).sees ran saved
          (counted descriptors here)

/-- When a run skips generation, every binding and the index are as a generation from the run's
descriptors writes them, from whatever files it starts. Runs may have failed in any way since the
last generation, as long as none of them broke off after it had changed a binding. -/
theorem bindings_of_skipped_generation
    (agree : ∀ {exporter descriptors other others}, layout.generations exporter descriptors →
      layout.generations other others →
      exporter.digest descriptors = other.digest others → exporter = other ∧ descriptors = others)
    {state : BuildState} (life : layout.Life state) {pipeline : Pipeline} {mode : Mode}
    (uses : layout.Uses pipeline)
    (counted : ∀ descriptors, From pipeline mode state descriptors →
      layout.generations pipeline.bindingExport descriptors)
    (skipped : (pipeline.run mode state).1.generateSkipped = true) :
    ∃ descriptors, From pipeline mode state descriptors ∧
      ∀ path ∈ pipeline.bindingExport.expectedFiles (descriptors.map (·.name)), ∃ content,
        (pipeline.run mode state).2.workspace.files.fileAt
          (placeFrom layout.workingDirectory path) = some content ∧
        ∀ tree report after, layout.Sees tree →
          pipeline.bindingExport.generate descriptors tree = (.ok report, after) →
          report.failures = [] →
          after.fileAt (placeFrom layout.workingDirectory path) = some content := by
  have vouched := life.vouched
  rcases run_cases uses mode state vouched.sees with ⟨_, _, notSkipped, _⟩ |
    ⟨descriptors, run, here, calms, notYet, generates⟩
  · rw [notSkipped] at skipped
    cases skipped
  rw [Pipeline.generateSkipped_run] at skipped
  have vouchedThere := vouched.calm calms
  generalize outcome : (pipeline.stages mode ⟨.start, state⟩).1 = result at generates
  cases generates with
  | breaks confined report =>
    rcases report with report | ⟨_, _, _, _, report⟩
    all_goals
      rw [report] at skipped
      exact absurd (notYet.symm.trans skipped) Bool.false_ne_true
  | completes same ran saved report =>
    rw [report] at skipped
    exact absurd (notYet.symm.trans skipped) Bool.false_ne_true
  | skips same stamped _ report =>
    have fitsNow : Fits layout.workingDirectory pipeline.bindingExport descriptors
        (pipeline.run mode state).2.workspace.files := by
      rw [Pipeline.files_run]
      exact (fits_of_told agree vouchedThere uses (counted descriptors here) stamped).of_sameFiles same
    refine ⟨descriptors, here, fun path expected => ?_⟩
    obtain ⟨content, found, _⟩ := fitsNow.agree fitsNow expected
    refine ⟨content, found, fun tree report after sees ran clean => ?_⟩
    obtain ⟨again, foundAgain, made⟩ := fitsNow.agree (fits_of_generate sees ran clean) expected
    rw [found] at foundAgain
    cases foundAgain
    exact made

/-- A second run on the same source skips generation, and the binding is the one of the source. -/
theorem bindings_of_second_run :
    let second := Pipeline.selectsA.run .full (Pipeline.selectsA.run .full Pipeline.oneSource).2
    second.1.generateSkipped = true ∧
      ∃ content, second.2.workspace.files.fileAt ["bindings", "A.ts"] = some content ∧
        ∀ tree report after, tree.workingDirectory = [] → tree.root.Tidy →
          Pipeline.selectsA.bindingExport.generate [⟨"A", []⟩] tree = (.ok report, after) →
          report.failures = [] → after.fileAt ["bindings", "A.ts"] = some content := by
  have ran : ((Pipeline.selectsA.runWithin 9 .full Pipeline.oneSource).any fun first =>
      Pipeline.choosesA first.1 && !first.2.1.generateSkipped &&
        (Pipeline.selectsA.runWithin 9 .full first.2.2).any fun second =>
          Pipeline.choosesA second.1 && second.2.1.generateSkipped) = true := by
    decide +kernel
  obtain ⟨⟨_, first⟩, firstRan, checked⟩ := (Option.any_eq_true ..).1 ran
  rw [Bool.and_eq_true, Bool.and_eq_true] at checked
  obtain ⟨⟨bare, anew⟩, checked⟩ := checked
  obtain rfl := Pipeline.eq_of_choosesA bare
  obtain ⟨⟨_, second⟩, secondRan, checked⟩ := (Option.any_eq_true ..).1 checked
  rw [Bool.and_eq_true] at checked
  obtain ⟨bare, skipped⟩ := checked
  obtain rfl := Pipeline.eq_of_choosesA bare
  obtain ⟨fromFirst, endedFirst, rfl⟩ := Pipeline.run_of_runWithin firstRan
  obtain ⟨fromSecond, _, rfl⟩ := Pipeline.run_of_runWithin secondRan
  let generations (exporter : BindingExport) (descriptors : List Descriptor) : Prop :=
    exporter = Pipeline.selectsA.bindingExport ∧ descriptors = [⟨"A", []⟩]
  let layout : Layout := ⟨[], ⟨".kiln/cache"⟩, generations⟩
  have uses : layout.Uses Pipeline.selectsA := by
    refine ⟨by decide, fun language adapter isAdapter unit version => ?_⟩
    cases language with
    | solidity => cases isAdapter
    | vyper =>
      cases isAdapter
      exact .act (fun _ _ => ⟨rfl, id, rfl, fun _ _ => rfl⟩) fun _ => .await (.done trivial)
  have counted : ∀ {state : BuildState},
      From Pipeline.selectsA .full state [⟨"A", []⟩] →
      ∀ descriptors, From Pipeline.selectsA .full state descriptors →
        generations Pipeline.selectsA.bindingExport descriptors := by
    intro state known descriptors here
    have same := known.symm.trans here
    cases same
    exact ⟨rfl, rfl⟩
  have sees : layout.Sees Pipeline.oneSource.workspace.files :=
    ⟨rfl, FileNode.tidy_of_isTidy (by decide +kernel)⟩
  have life : layout.Life (Pipeline.selectsA.run .full Pipeline.oneSource).2 :=
    .regenerated sees uses (counted fromFirst) ⟨rfl, endedFirst, by simpa using anew⟩
  have agree : ∀ {exporter descriptors other others}, generations exporter descriptors →
      generations other others → exporter.digest descriptors = other.digest others →
      exporter = other ∧ descriptors = others :=
    fun one other _ => ⟨one.1.trans other.1.symm, one.2.trans other.2.symm⟩
  obtain ⟨_, here, agrees⟩ := bindings_of_skipped_generation agree
    life uses (counted fromSecond) skipped
  obtain ⟨_, rfl⟩ := counted fromSecond _ here
  refine ⟨skipped, ?_⟩
  obtain ⟨content, found, same⟩ := agrees ⟨"bindings/A.ts"⟩ (by decide)
  refine ⟨content, found, fun tree report after inside tidy generated clean => ?_⟩
  exact same tree report after ⟨inside, tidy⟩ generated clean

end Layout
end ContractBuild
