import ContractBuild.Proofs.Build.FastPath
import ContractBuild.Proofs.Build.Grounds
import ContractBuild.Proofs.Store.Upkeep

/-!
What the store holds across a history of runs. Whatever is live, and whatever an artifact's file holds,
was compiled by an adapter on the way. Every part of a run keeps it so, and so does opening the store
again.
-/
namespace ContractBuild
open FileTree FileAction ContractBuild.Action

def Request.input (request : Request) : CompileInput :=
  ⟨request.unit.language, request.version, request.adapter.flags, request.unit.content⟩

/-- What the runs of a history have in common: where they write, the interface that compiling comes to if it
comes to one, and all that they compile and generate from on the way. -/
structure Course where
  ground : Ground
  interface : String → CompileInput → Option (List Item)
  inputs : CompileInput → Prop
  generations : BindingExport → List Descriptor → Prop

namespace Course

def layout (course : Course) : Layout :=
  ⟨course.ground.workingDirectory, course.ground.cache, course.generations⟩

structure Good (course : Course) (artifact : Artifact) : Prop where
  whole : '/' ∉ artifact.name.toList
  compiled : ∃ input, course.inputs input ∧ artifact.fingerprint = .ofInput input ∧
    course.interface artifact.name input = some artifact.interface

def IsArtifact (course : Course) (names : List String) : Prop :=
  ∃ name, names = placeFrom course.ground.workingDirectory (Store.artifactsDir course.ground.cache) ++ [name] ∧
    EndsIn "json" names

def Fine (course : Course) (names : List String) (found : Option ByteArray) : Prop :=
  course.IsArtifact names → ∀ artifact, found.bind Artifact.held? = some artifact → course.Good artifact

/-- All that the store and its files hold is good. -/
structure Holds (course : Course) (state : BuildState) : Prop where
  sees : course.ground.Sees state.workspace.files
  directory : state.store.directory = Store.artifactsDir course.ground.cache
  live : ∀ artifact ∈ state.store.live, course.Good artifact
  files : ∀ names, course.Fine names (state.workspace.files.fileAt names)

def Retains (course : Course) (before after : BuildState) : Prop :=
  course.Holds before → course.Holds after

def Answers (course : Course) (request : Request) (outcome : Except BuildError Artifact) : Prop :=
  ∀ artifact, outcome = .ok artifact → request.isAnsweredBy artifact = true →
    course.interface request.name request.input = some artifact.interface

/-- A pipeline of the history. The interfaces that its adapters come to depend on the name and the input alone,
and they change no files but those they may. -/
structure Uses (course : Course) (pipeline : Pipeline) : Prop where
  cache : pipeline.project.cacheDir = course.ground.cache
  interfaces : pipeline.project.interfacesDir = course.ground.interfaces
  bindings : pipeline.project.bindingsDir = course.ground.bindings
  adapters : ∀ language adapter, pipeline.adapters language = some adapter → ∀ unit version,
    (adapter.call unit version).Within
      (fun before after =>
        ConfinedFrom course.ground.workingDirectory course.ground.scratch before.files after.files)
      (course.Answers ⟨unit, version, adapter⟩)

/-- Adapters stay away from the outputs. -/
structure Apart (course : Course) : Prop where
  outputs : ∀ names, course.ground.scratch names → ¬ course.ground.Yields names
  bindings : ∀ names, course.ground.scratch names → ¬ course.layout.IsBinding names

variable {course : Course} {pipeline : Pipeline} {state : BuildState} {before after : FileTree}

theorem Retains.trans {first middle last : BuildState} (earlier : course.Retains first middle)
    (later : course.Retains middle last) : course.Retains first last :=
  later ∘ earlier

theorem Uses.toGround (uses : course.Uses pipeline) : course.ground.Uses pipeline :=
  ⟨uses.cache, uses.interfaces, uses.bindings, fun language adapter found unit version =>
    (uses.adapters language adapter found unit version).mono (fun _ _ => id) fun _ _ => trivial⟩

theorem IsArtifact.yields {names : List String} (isArtifact : course.IsArtifact names) :
    course.ground.Yields names := by
  obtain ⟨name, placed, ends⟩ := isArtifact
  exact ⟨(Store.artifactsDir course.ground.cache, "json"), by simp [Ground.outputs], name, placed, ends⟩

theorem fine_of_none {names : List String} {found : Option ByteArray}
    (none : found.bind Artifact.held? = none) : course.Fine names found := by
  intro _ artifact holds
  rw [none] at holds
  cases holds

/-- Files in which no bad artifact comes to be. -/
theorem Holds.of_files (holds : course.Holds state) {workspace : Workspace}
    (sees : course.ground.Sees workspace.files)
    (alters : Alters course.Fine state.workspace.files workspace.files) :
    course.Holds { state with workspace } := by
  refine ⟨sees, holds.directory, holds.live, fun names => ?_⟩
  rcases alters names with same | fine
  · rw [same]
    exact holds.files names
  · exact fine

theorem retains_of_sameFiles (state : BuildState) (workspace : Workspace)
    (same : state.workspace.files.SameFiles workspace.files) :
    course.Retains state { state with workspace } :=
  fun holds => holds.of_files (holds.sees.confined (same.confined : Confined (fun _ => False) _ _)) same.alters

theorem retains_invalidate (name : String) (state : BuildState) :
    course.Retains state (Store.invalidate name state).2 := by
  intro holds
  have files : course.ground.Sees (Store.invalidate name state).2.workspace.files ∧
      Alters course.Fine state.workspace.files (Store.invalidate name state).2.workspace.files := by
    rcases Store.workspace_invalidate name state with same | removed
    · rw [same]
      exact ⟨holds.sees, .refl _⟩
    · rw [removed]
      refine ⟨holds.sees.confined (removeFile_confined _ holds.sees.tidy),
        (removeFile_alters _ holds.sees.tidy).mono ?_⟩
      rintro names found ⟨_, rfl⟩
      exact fine_of_none rfl
  have kept := holds.of_files files.1 files.2
  refine ⟨kept.sees, ?_, ?_, kept.files⟩
  · rw [Store.store_invalidate]
    exact holds.directory
  · rw [Store.store_invalidate]
    intro artifact member
    exact holds.live artifact (List.mem_filter.1 member).1

theorem retains_publish {artifact : Artifact} (good : course.Good artifact) (state : BuildState) :
    course.Retains state (Store.publish artifact state).2 := by
  intro holds
  have files : course.ground.Sees (Store.publish artifact state).2.workspace.files ∧
      Alters course.Fine state.workspace.files (Store.publish artifact state).2.workspace.files := by
    rw [Store.workspace_publish]
    refine ⟨holds.sees.confined (state.store.writeArtifact_confined artifact _),
      (state.store.writeArtifact_alters artifact _).mono ?_⟩
    rintro names found ⟨_, rfl⟩ _ other isOther
    rw [Option.bind_some] at isOther
    rw [Artifact.eq_of_held? isOther]
    exact good
  have kept := holds.of_files files.1 files.2
  rcases Store.publish_cases artifact state with ⟨written, ran⟩ | ⟨cause, written, ran⟩
  · rw [ran] at kept ⊢
    refine ⟨kept.sees, kept.directory, fun other member => ?_, kept.files⟩
    rcases Store.mem_insertArtifact member with rfl | old
    · exact good
    · exact holds.live other old
  · rw [ran] at kept ⊢
    exact kept

theorem retains_described (state : BuildState) (workspace : Workspace)
    (described : InterfaceExport.DescribedFrom state.workspace.files workspace.files) :
    course.Retains state { state with workspace } := by
  intro holds
  have changes := described holds.sees.tidy
  refine holds.of_files (holds.sees.confined changes.confined) (changes.alters.mono ?_)
  rintro names found ⟨_, rfl | ⟨descriptor, spacing, rfl⟩⟩
  · exact fine_of_none rfl
  · exact fine_of_none (Artifact.held?_descriptor descriptor spacing)

/-- Changes to files that are no outputs. -/
theorem retains_confined {scope : List String → Prop} (apart : ∀ names, scope names → ¬ course.ground.Yields names)
    (state : BuildState) (workspace : Workspace)
    (confined : course.ground.Sees state.workspace.files → Confined scope state.workspace.files workspace.files) :
    course.Retains state { state with workspace } := by
  intro holds
  have changes := confined holds.sees
  refine holds.of_files (holds.sees.confined changes) fun names => ?_
  by_cases reached : scope names
  · exact .inr fun isArtifact => absurd isArtifact.yields (apart names reached)
  · exact .inl (changes.outside names reached)

/-- Requests of the history for what is counted among its inputs keep all good. -/
theorem Uses.request_retains (uses : course.Uses pipeline) (apart : course.Apart) {unit : SourceUnit}
    {request : Request} (asks : pipeline.workFor unit = .ok request) (counted : course.inputs request.input) :
    request.Upholds course.Retains := by
  refine ⟨Retains.trans, ?_, retains_invalidate request.name, ?_⟩
  · intro state store live directory holds
    exact ⟨holds.sees, directory.trans holds.directory, live ▸ holds.live, holds.files⟩
  · obtain ⟨adapter, found, rfl⟩ := Pipeline.adapter_of_workFor asks
    refine (uses.adapters unit.language request.adapter found request.unit request.version).mono ?_ ?_
    · intro before after confined store
      exact retains_confined apart.outputs ⟨before, store⟩ after fun sees =>
        confined sees.workingDirectory sees.tidy
    · intro outcome produces artifact isOk answers state
      obtain ⟨fingerprint, name⟩ := Request.isAnsweredBy_iff.1 answers
      refine retains_publish ⟨?_, request.input, counted, fingerprint, ?_⟩ state
      · rw [name]
        exact request.unit.artifactName_whole
      · rw [name]
        exact produces artifact isOk answers

def Compiles (course : Course) (pipeline : Pipeline) (units : List SourceUnit) : Prop :=
  ∀ unit ∈ units, ∀ request, pipeline.workFor unit = .ok request → course.inputs request.input

theorem Uses.upholds (uses : course.Uses pipeline) (apart : course.Apart) :
    pipeline.Upholds course.Retains (course.Compiles pipeline) := by
  have trans : ∀ {first middle last}, course.Retains first middle → course.Retains middle last →
      course.Retains first last := Retains.trans
  refine ⟨trans, retains_of_sameFiles, ?_, ?_, ?_⟩
  · intro inUse state
    apply Store.retain_upholds
    · exact fun state => id
    · exact trans
    · exact retains_invalidate
  · intro state externals descriptors read selection loaded _
    have looked := pipeline.interfaceExport.reads_loadExternals state.workspace.files
    rw [loaded] at looked
    have looks : InterfaceExport.DescribedFrom state.workspace.files read :=
      fun _ => ⟨looked.confined, looked.alters⟩
    exact retains_described state _ (looks.trans (pipeline.interfaceExport.describing_write descriptors _ read))
  · exact fun units counted unit member request asks => uses.request_retains apart asks (counted unit member request asks)

/-- Bindings are no records, and a stamp holds no artifact. -/
theorem retains_generates {descriptors : List Descriptor} {before after : RunState}
    {outcome : Except BuildError Unit} (generates : pipeline.Generates descriptors before after outcome)
    (store : after.build.store = before.build.store) : course.Retains before.build after.build := by
  intro holds
  have bindings : ∀ {tree made : FileTree}, course.ground.Sees tree →
      Confined (pipeline.bindingExport.Changes descriptors tree.workingDirectory) tree made →
      Alters course.Fine tree made := by
    intro tree made sees confined names
    by_cases reached : pipeline.bindingExport.Changes descriptors tree.workingDirectory names
    · refine .inr fun isArtifact => ?_
      obtain ⟨_, _, ends⟩ := isArtifact
      exact absurd ends (pipeline.bindingExport.dialect.not_endsIn_json reached.endsIn)
    · exact .inl (confined.outside names reached)
  have changes : course.ground.Sees (Pipeline.files after) ∧
      Alters course.Fine (Pipeline.files before) (Pipeline.files after) := by
    cases generates with
    | skips same _ _ _ =>
      exact ⟨holds.sees.confined (same.confined : Confined (fun _ => False) _ _), same.alters⟩
    | breaks confined _ =>
      exact ⟨holds.sees.confined (confined holds.sees.tidy), bindings holds.sees (confined holds.sees.tidy)⟩
    | @completes outcome read made same ran saved _ =>
      have seesRead := holds.sees.confined (same.confined : Confined (fun _ => False) _ _)
      have confined := pipeline.bindingExport.generate_confined descriptors seesRead.tidy
      rw [ran] at confined
      refine ⟨(seesRead.confined confined).confined saved.confined,
        same.alters.trans ((bindings seesRead confined).trans fun names => ?_)⟩
      by_cases here : names = made.place pipeline.stampPath
      · subst here
        rw [saved.there]
        exact .inr (fine_of_none (Artifact.held?_stamp _))
      · exact .inl (saved.confined.outside names here)
  have kept := holds.of_files changes.1 changes.2
  exact ⟨kept.sees, store ▸ kept.directory, store ▸ kept.live, kept.files⟩

/-- A run of a pipeline of the history keeps all good. -/
theorem Uses.run_retains (uses : course.Uses pipeline) (apart : course.Apart) {mode : Mode}
    (counted : ∀ units, (pipeline.discover state.workspace.files).1 = .ok units → course.Compiles pipeline units) :
    course.Retains state (pipeline.run mode state).2 := by
  intro holds
  have front := ((uses.upholds apart).front mode ⟨.start, state⟩ counted).1 holds
  have ended : course.Holds (pipeline.stages mode ⟨.start, state⟩).2.build := by
    rw [Pipeline.stages_eq, bind_apply]
    revert front
    rcases pipeline.front mode ⟨.start, state⟩ with ⟨cause | chosen, before⟩
    · exact id
    · intro front
      cases chosen with
      | none => exact front
      | some descriptors =>
        exact retains_generates (pipeline.generate_generates descriptors before)
          (pipeline.store_generate descriptors before) front
  have files := pipeline.files_run mode state
  have store := pipeline.store_run mode state
  refine ⟨?_, ?_, ?_, fun names => ?_⟩
  · rw [files]
    exact ended.sees
  · rw [store]
    exact ended.directory
  · rw [store]
    exact ended.live
  · rw [files]
    exact ended.files names

/-! Opening the store -/

/-- A store that is opened again holds what is good. -/
theorem Holds.load (holds : course.Holds state) {store : Store} {after : FileTree}
    (ran : Store.load course.ground.cache state.workspace.files = (.ok store, after)) :
    course.Holds ⟨{ state.workspace with files := after }, store⟩ := by
  obtain ⟨confined, directory, _, members⟩ := Store.load_ok holds.sees.tidy ran
  have sees := holds.sees.confined confined
  have fine : ∀ names, course.Fine names (after.fileAt names) := by
    intro names
    rw [confined.outside names id]
    exact holds.files names
  refine ⟨sees, directory, fun artifact member => ?_, fine⟩
  obtain ⟨name, plain, extension, _, held⟩ := members artifact member
  have ends := Path.placeFrom_of_extension? course.ground.workingDirectory extension
  rw [FileTree.place, sees.workingDirectory] at held
  refine fine _ ⟨name, placeFrom_join_plain _ _ plain, ends⟩ artifact held

end Course
end ContractBuild
