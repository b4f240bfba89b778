import ContractBuild.Proofs.Binding.Respelling
import ContractBuild.Proofs.Build.Endings
import ContractBuild.Proofs.Build.Inputs
import ContractBuild.Proofs.Store.Files

/-!
Where builds write. A run changes files directly in the directories of the build and no others. As
long as these are no sources and no pattern stands for them, every part of a run finds the sources
and the descriptors from elsewhere that its start would have found.
-/
namespace ContractBuild
open FileTree FileAction ContractBuild.Action

/-- The names of descriptors that do not come from sources are fit for files. -/
structure Pipeline.HasWholeNames (pipeline : Pipeline) (tree : FileTree) : Prop where
  flatName : '/' ∉ pipeline.interfaceExport.flatName.toList
  externals : ∀ externals, pipeline.interfaceExport.loadExternals tree = (.ok externals, tree) →
    ∀ descriptor ∈ externals, '/' ∉ descriptor.name.toList

/-- Where the runs of a project write, as seen from one working directory: the directories of their
outputs, and the places of files that adapters may change. -/
structure Ground where
  workingDirectory : List String
  cache : Path
  interfaces : Path
  bindings : Path
  scratch : List String → Prop

namespace Ground

def outputs (ground : Ground) : List (Path × String) :=
  [(ground.cache, "json"), (Store.artifactsDir ground.cache, "json"), (ground.interfaces, "json"),
    (ground.bindings, Dialect.ethersV5.fileExtension), (ground.bindings, Dialect.rust.fileExtension)]

def Yields (ground : Ground) (names : List String) : Prop :=
  ∃ output ∈ ground.outputs, ∃ name,
    names = placeFrom ground.workingDirectory output.1 ++ [name] ∧ EndsIn output.2 names

def Owns (ground : Ground) (names : List String) : Prop :=
  ground.Yields names ∨ ground.scratch names

def Stores (ground : Ground) (names : List String) : Prop :=
  (∃ name, names = placeFrom ground.workingDirectory (Store.artifactsDir ground.cache) ++ [name] ∧
    EndsIn "json" names) ∨ ground.scratch names

structure Sees (ground : Ground) (tree : FileTree) : Prop where
  workingDirectory : tree.workingDirectory = ground.workingDirectory
  tidy : tree.root.Tidy

/-- A pipeline that writes where the ground has it. -/
structure Uses (ground : Ground) (pipeline : Pipeline) : Prop where
  cache : pipeline.project.cacheDir = ground.cache
  interfaces : pipeline.project.interfacesDir = ground.interfaces
  bindings : pipeline.project.bindingsDir = ground.bindings
  adapters : ∀ language adapter, pipeline.adapters language = some adapter → ∀ unit version,
    (adapter.call unit version).Within
      (fun before after => ConfinedFrom ground.workingDirectory ground.scratch before.files after.files)
      fun _ => True

/-- A tree that a run can start from, in which the way to the inputs is direct. Nothing that the ground
owns is among the inputs, here or in any other tree. -/
structure Suits (ground : Ground) (pipeline : Pipeline) (tree : FileTree) : Prop where
  sees : ground.Sees tree
  inside : tree.IsInside
  quiet : tree.faultAfter = none
  direct : pipeline.Direct tree
  overlooks : ∀ other, ground.Sees other → pipeline.Overlooks ground.Owns other

variable {ground : Ground} {pipeline : Pipeline} {tree first : FileTree} {descriptors : List Descriptor}

theorem owns_join {directory : Path} {extension : String} (member : (directory, extension) ∈ ground.outputs)
    {name : String} (plain : FileNode.Plain name)
    (ends : EndsIn extension (placeFrom ground.workingDirectory (directory.join ⟨name⟩))) :
    ground.Owns (placeFrom ground.workingDirectory (directory.join ⟨name⟩)) :=
  .inl ⟨_, member, name, placeFrom_join_plain _ _ plain, ends⟩

theorem owns_purgeable {directory : Path} {extension : String} (member : (directory, extension) ∈ ground.outputs)
    {keep names : List String}
    (purgeable : Output.Purgeable ground.workingDirectory directory extension keep names) :
    ground.Owns names := by
  have ends := purgeable.endsIn
  obtain ⟨name, plain, _, rfl⟩ := purgeable
  exact owns_join member plain ends

theorem Sees.confined {scope : List String → Prop} {before after : FileTree} (sees : ground.Sees before)
    (confined : Confined scope before after) : ground.Sees after :=
  ⟨confined.workingDirectory.trans sees.workingDirectory, confined.tidy sees.tidy⟩

/-- Adapters that change no file write where the ground has it. -/
theorem Uses.of_steady (cache : pipeline.project.cacheDir = ground.cache)
    (interfaces : pipeline.project.interfacesDir = ground.interfaces)
    (bindings : pipeline.project.bindingsDir = ground.bindings)
    (steady : pipeline.adapters = Pipeline.vyperOnly.adapters) : ground.Uses pipeline := by
  refine ⟨cache, interfaces, bindings, fun language adapter isAdapter unit version => ?_⟩
  rw [steady] at isAdapter
  cases language with
  | solidity => cases isAdapter
  | vyper =>
    cases isAdapter
    exact .act (fun _ => ConfinedFrom.refl _) fun _ => .await (.done trivial)

/-! What the stages of a run write -/

theorem Uses.placed_descriptors (uses : ground.Uses pipeline) {selection names : List String}
    (whole : ∀ descriptor ∈ descriptors, '/' ∉ descriptor.name.toList)
    (changes : pipeline.interfaceExport.Changes descriptors selection ground.workingDirectory names) :
    ∃ name, names = placeFrom ground.workingDirectory ground.interfaces ++ [name] := by
  have outDir : pipeline.interfaceExport.outDir = ground.interfaces := uses.interfaces
  rcases changes with ⟨descriptor, member, rfl⟩ | ⟨name, plain, _, rfl⟩
  · rw [← outDir]
    exact ⟨_, placeFrom_join_plain _ _ (suffix_json.plain (whole descriptor member))⟩
  · rw [← outDir]
    exact ⟨name, placeFrom_join_plain _ _ plain⟩

theorem Uses.owns_descriptors (uses : ground.Uses pipeline) {selection names : List String}
    (whole : ∀ descriptor ∈ descriptors, '/' ∉ descriptor.name.toList)
    (changes : pipeline.interfaceExport.Changes descriptors selection ground.workingDirectory names) :
    ground.Owns names := by
  obtain ⟨name, placed⟩ := uses.placed_descriptors whole changes
  exact .inl ⟨(ground.interfaces, "json"), by simp [outputs], name, placed, changes.endsIn⟩

/-- A module has a whole name whatever it is named after. -/
theorem moduleName_whole (name : String) : '/' ∉ (RustModule.moduleName name).toList := by
  intro inside
  exact absurd (RustModule.isIdentifierChar_moduleName name _ inside) (by decide)

theorem fileStem_whole (dialect : Dialect) {name : String} (whole : '/' ∉ name.toList) :
    '/' ∉ (dialect.fileStem name).toList := by
  cases dialect with
  | ethersV5 => exact whole
  | rust => exact moduleName_whole name

theorem Uses.owns_bindings (uses : ground.Uses pipeline) {names : List String}
    (whole : ∀ descriptor ∈ descriptors, '/' ∉ descriptor.name.toList)
    (changes : pipeline.bindingExport.Changes descriptors ground.workingDirectory names) :
    ground.Owns names := by
  have outDir : (pipeline.bindingExport.outDir, pipeline.bindingExport.dialect.fileExtension) ∈ ground.outputs := by
    show (pipeline.project.bindingsDir, _) ∈ _
    rw [uses.bindings]
    cases pipeline.bindingExport.dialect <;> simp [outputs]
  have ends := changes.endsIn
  rcases changes with ⟨path, expected, rfl⟩ | purgeable
  · rw [BindingExport.expectedFiles, List.mem_append, List.mem_map, List.mem_singleton] at expected
    rcases expected with ⟨name, isName, rfl⟩ | rfl
    · obtain ⟨descriptor, member, rfl⟩ := List.mem_map.1 isName
      exact owns_join outDir (Dialect.plain_fileName _ (fileStem_whole _ (whole descriptor member))) ends
    · exact owns_join outDir (Dialect.plain_fileName _ (Dialect.whole_indexStem _)) ends
  · exact owns_purgeable outDir purgeable

theorem Uses.placed_stamp (uses : ground.Uses pipeline) :
    ∃ name, placeFrom ground.workingDirectory pipeline.stampPath =
      placeFrom ground.workingDirectory ground.cache ++ [name] := by
  have plain : FileNode.Plain ("stamps" ++ "." ++ "json") := suffix_json.plain (by decide)
  rw [← uses.cache]
  exact ⟨_, placeFrom_join_plain _ _ plain⟩

theorem Uses.owns_stamp (uses : ground.Uses pipeline) :
    ground.Owns (placeFrom ground.workingDirectory pipeline.stampPath) := by
  obtain ⟨name, placed⟩ := uses.placed_stamp
  exact .inl ⟨(ground.cache, "json"), by simp [outputs], name, placed, pipeline.placeFrom_stampPath _⟩

theorem Stores.owns {names : List String} (stores : ground.Stores names) : ground.Owns names := by
  rcases stores with ⟨name, placed, ends⟩ | scratch
  · exact .inl ⟨(Store.artifactsDir ground.cache, "json"), by simp [outputs], name, placed, ends⟩
  · exact .inr scratch

theorem stores_artifact {store : Store} (directory : store.directory = Store.artifactsDir ground.cache)
    {name : String} (whole : '/' ∉ name.toList) :
    ground.Stores (placeFrom ground.workingDirectory (store.pathFor name)) := by
  have ends := Store.placeFrom_pathFor ground.workingDirectory store name
  unfold Store.pathFor at ends ⊢
  rw [directory] at ends ⊢
  exact .inl ⟨_, placeFrom_join_plain _ _ (Store.suffix_fileExtension.plain whole), ends⟩

/-- No output is taken for a source. -/
theorem not_yields_of_isSource {path : Path} (source : isSource path = true) :
    ¬ ground.Yields (placeFrom ground.workingDirectory path) := by
  rintro ⟨⟨directory, extension⟩, member, name, _, ends⟩
  obtain ⟨language, found⟩ := Option.isSome_iff_exists.1 source
  obtain ⟨other, has, isLanguage⟩ := Option.bind_eq_some_iff.1 found
  have isOther : other = "sol" ∨ other = "vy" := by
    unfold Language.ofExtension? at isLanguage
    split at isLanguage
    · exact .inl rfl
    · exact .inr rfl
    · cases isLanguage
  have suffix : Suffix other := by rcases isOther with rfl | rfl <;> constructor <;> decide
  have suffixToo : Suffix extension ∧ extension ≠ other := by
    simp only [outputs, List.mem_cons, Prod.mk.injEq, List.not_mem_nil, or_false] at member
    rcases member with ⟨_, rfl⟩ | ⟨_, rfl⟩ | ⟨_, rfl⟩ | ⟨_, rfl⟩ | ⟨_, rfl⟩ <;>
      rcases isOther with rfl | rfl <;> exact ⟨by constructor <;> decide, by decide⟩
  exact suffixToo.2 (EndsIn.unique suffixToo.1 suffix ends (Path.placeFrom_of_extension? _ has))

/-- Without patterns, what the ground owns is overlooked as long as adapters stay away from the sources. -/
theorem overlooks_of_apart (none : pipeline.interfaceExport.externals = [])
    (apart : ∀ names, ground.scratch names →
      ¬ placeFrom ground.workingDirectory pipeline.project.sourcesDir <+: names)
    (sees : ground.Sees tree) : pipeline.Overlooks ground.Owns tree := by
  refine ⟨fun path listed => ?_, by simp [none]⟩
  obtain ⟨source, node, names, content, found, rfl, -, below⟩ := (mem_listed sees.tidy).1 listed
  rintro (yields | scratch)
  · rw [FileTree.place, sees.workingDirectory] at yields
    exact not_yields_of_isSource source yields
  · refine apart _ scratch ⟨names, ?_⟩
    rw [(fileAt_descend sees.tidy found below).1, FileTree.place, sees.workingDirectory]

end Ground

/-! The descriptors that are chosen -/

theorem Descriptor.name_of_flatten {name : String} {descriptors : List Descriptor} {merged : Descriptor}
    (flattened : Descriptor.flatten name descriptors = .ok merged) : merged.name = name := by
  unfold Descriptor.flatten at flattened
  cases went : Flatten.mergeDescriptors descriptors [] with
  | error cause =>
    rw [went] at flattened
    cases flattened
  | ok symbols =>
    rw [went] at flattened
    cases flattened
    rfl

/-- What is chosen is the merged descriptor, or else one of a selected artifact or one from
elsewhere. -/
theorem InterfaceExport.mem_of_select {exporter : InterfaceExport} {selection : List String}
    {lookup : String → Option Artifact} {externals descriptors : List Descriptor}
    (chosen : exporter.select selection lookup externals = .ok descriptors) {descriptor : Descriptor}
    (member : descriptor ∈ descriptors) :
    descriptor.name = exporter.flatName ∨
      exporter.flat = false ∧
        ((∃ name ∈ selection, ∃ artifact, lookup name = some artifact ∧ descriptor = artifact.descriptor) ∨
          descriptor ∈ externals) := by
  have parts : ∀ descriptor ∈ (selection.filterMap fun name => (lookup name).map Artifact.descriptor) ++
      externals.filter fun descriptor => (lookup descriptor.name).isNone,
      (∃ name ∈ selection, ∃ artifact, lookup name = some artifact ∧ descriptor = artifact.descriptor) ∨
        descriptor ∈ externals := by
    intro descriptor member
    rcases List.mem_append.1 member with selected | added
    · obtain ⟨name, isSelected, found⟩ := List.mem_filterMap.1 selected
      obtain ⟨artifact, isLive, rfl⟩ := Option.map_eq_some_iff.1 found
      exact .inl ⟨name, isSelected, artifact, isLive, rfl⟩
    · exact .inr (List.mem_filter.1 added).1
  unfold select at chosen
  dsimp only at chosen
  split at chosen
  · cases chosen
  · split at chosen
    · split at chosen
      · next merged flattened =>
        cases chosen
        obtain rfl := List.mem_singleton.1 member
        exact .inl (Descriptor.name_of_flatten flattened)
      · cases chosen
    · next apart =>
      cases chosen
      exact .inr ⟨Bool.eq_false_iff.2 apart, parts descriptor member⟩

namespace Ground

/-! What holds at every moment of a run -/

structure Since (ground : Ground) (good : Artifact → Prop) (first : FileTree) (state : BuildState) : Prop where
  stores : Confined ground.Stores first state.workspace.files
  directory : state.store.directory = Store.artifactsDir ground.cache
  live : ∀ artifact ∈ state.store.live, good artifact

variable {ground : Ground} {pipeline : Pipeline} {good : Artifact → Prop} {first : FileTree}
  {state : BuildState}

def Lasts (ground : Ground) (good : Artifact → Prop) (first : FileTree) (before after : BuildState) : Prop :=
  ground.Since good first before → ground.Since good first after

theorem Lasts.trans {before middle after : BuildState} (earlier : ground.Lasts good first before middle)
    (later : ground.Lasts good first middle after) : ground.Lasts good first before after :=
  later ∘ earlier

theorem Since.confined (since : ground.Since good first state) :
    Confined ground.Owns first state.workspace.files :=
  since.stores.mono fun _ => Stores.owns

theorem Since.files {workspace : Workspace} (since : ground.Since good first state)
    (confined : Confined ground.Stores state.workspace.files workspace.files) :
    ground.Since good first { state with workspace } :=
  ⟨since.stores.trans confined, since.directory, since.live⟩

theorem Since.sees (sees : ground.Sees first) (since : ground.Since good first state) :
    ground.Sees state.workspace.files :=
  sees.confined since.confined

theorem Since.invalidate (sees : ground.Sees first) (since : ground.Since good first state) {name : String}
    (whole : '/' ∉ name.toList) : ground.Since good first (Store.invalidate name state).2 := by
  have now := since.sees sees
  have confined : Confined ground.Stores state.workspace.files (Store.invalidate name state).2.workspace.files := by
    rcases Store.workspace_invalidate name state with same | removed
    · rw [same]
      exact .refl _
    · rw [removed]
      refine (removeFile_confined _ now.tidy).mono ?_
      rintro names rfl
      rw [FileTree.place, now.workingDirectory]
      exact stores_artifact since.directory whole
  refine ⟨since.stores.trans confined, ?_, ?_⟩
  · rw [Store.store_invalidate]
    exact since.directory
  · rw [Store.store_invalidate]
    intro artifact member
    exact since.live artifact (List.mem_filter.1 member).1

theorem Since.publish (sees : ground.Sees first) (since : ground.Since good first state) {artifact : Artifact}
    (whole : '/' ∉ artifact.name.toList) (isGood : good artifact) :
    ground.Since good first (Store.publish artifact state).2 := by
  have now := since.sees sees
  have confined : Confined ground.Stores state.workspace.files
      (Store.publish artifact state).2.workspace.files := by
    rw [Store.workspace_publish]
    refine (state.store.writeArtifact_confined artifact _).mono ?_
    rintro names rfl
    rw [FileTree.place, now.workingDirectory]
    exact stores_artifact since.directory whole
  rcases Store.publish_cases artifact state with ⟨files, ran⟩ | ⟨cause, files, ran⟩
  · rw [ran] at confined ⊢
    refine ⟨since.stores.trans confined, since.directory, fun other member => ?_⟩
    rcases Store.mem_insertArtifact member with rfl | old
    · exact isGood
    · exact since.live other old
  · rw [ran] at confined ⊢
    exact ⟨since.stores.trans confined, since.directory, since.live⟩

theorem Since.invalidateAll (sees : ground.Sees first) {names : List String}
    (whole : ∀ name ∈ names, '/' ∉ name.toList) : Keeps (ground.Lasts good first) (Store.invalidateAll names) := by
  induction names with
  | nil => exact Keeps.pure (fun _ => id) ()
  | cons name names ih =>
    apply Keeps.bind
    · exact Lasts.trans
    · exact fun state since => since.invalidate sees (whole name List.mem_cons_self)
    · exact fun _ => ih fun other member => whole other (List.mem_cons_of_mem _ member)

theorem Since.retain (sees : ground.Sees first) (named : ∀ artifact, good artifact → '/' ∉ artifact.name.toList)
    (since : ground.Since good first state) (inUse : List String) :
    ground.Since good first (Store.retain inUse state).2 := by
  have whole : ∀ name ∈ state.store.names.filter fun name => name ∉ inUse, '/' ∉ name.toList := by
    intro name member
    obtain ⟨artifact, isLive, rfl⟩ := List.mem_map.1 (List.mem_filter.1 member).1
    exact named artifact (since.live artifact isLive)
  have dropped := Since.invalidateAll sees whole state since
  unfold Store.retain
  rw [bind_apply, get_apply]
  dsimp only
  rw [bind_apply]
  revert dropped
  rcases Store.invalidateAll (state.store.names.filter fun name => name ∉ inUse) state with ⟨cause | value, after⟩
  all_goals exact id

/-- Requests of a pipeline that uses the ground change only what it owns. -/
theorem Uses.lasts (uses : ground.Uses pipeline) (sees : ground.Sees first) {unit : SourceUnit}
    {request : Request} (asks : pipeline.workFor unit = .ok request)
    (publishes : ∀ artifact, request.isAnsweredBy artifact = true → good artifact) :
    request.Upholds (ground.Lasts good first) := by
  have whole : '/' ∉ request.name.toList := request.unit.artifactName_whole
  refine ⟨Lasts.trans, ?_, fun state since => since.invalidate sees whole, ?_⟩
  · intro state store live directory since
    exact ⟨since.stores, directory.trans since.directory, live ▸ since.live⟩
  · obtain ⟨adapter, found, rfl⟩ := Pipeline.adapter_of_workFor asks
    refine (uses.adapters unit.language request.adapter found request.unit request.version).mono ?_ ?_
    · intro before after confined store since
      have now := since.sees sees
      exact since.files ((confined now.workingDirectory now.tidy).mono fun _ => .inr)
    · intro outcome _ artifact _ answers state since
      refine since.publish sees ?_ (publishes artifact answers)
      rw [(Request.isAnsweredBy_iff.1 answers).2]
      exact whole

/-! The same inputs at every moment -/

variable {tree : FileTree} {descriptors : List Descriptor}

theorem Sees.widens (sees : ground.Sees first) (confined : Confined ground.Owns first tree) :
    Widens ground.Owns first tree :=
  ⟨confined.workingDirectory, confined.directories, confined.outside, sees.tidy, confined.tidy sees.tidy⟩

theorem Suits.discover_iff (suits : ground.Suits pipeline first) (confined : Confined ground.Owns first tree)
    (opens : tree.Opens pipeline.project.sourcesDir) {units : List SourceUnit} :
    pipeline.discover first = (.ok units, first) ↔ pipeline.discover tree = (.ok units, tree) :=
  Pipeline.discover_iff (suits.sees.widens confined) (suits.direct.arrives rfl fun _ => id)
    (suits.overlooks first suits.sees) (suits.overlooks tree (suits.sees.confined confined)) suits.quiet
    (confined.quiet suits.quiet) opens

theorem Suits.loadExternals_iff (suits : ground.Suits pipeline first)
    (confined : Confined ground.Owns first tree) {externals : List Descriptor} :
    pipeline.interfaceExport.loadExternals first = (.ok externals, first) ↔
      pipeline.interfaceExport.loadExternals tree = (.ok externals, tree) :=
  Pipeline.loadExternals_iff (suits.sees.widens confined) (suits.direct.arrives rfl fun _ => id)
    (suits.overlooks first suits.sees) (suits.overlooks tree (suits.sees.confined confined)) suits.quiet
    (confined.quiet suits.quiet)

/-- The names of all descriptors that are chosen are fit for files. -/
theorem Suits.whole (suits : ground.Suits pipeline first) (names : pipeline.HasWholeNames first)
    (confined : Confined ground.Owns first tree) {externals : List Descriptor}
    (loads : pipeline.interfaceExport.loadExternals tree = (.ok externals, tree)) {store : Store}
    (live : ∀ artifact ∈ store.live, '/' ∉ artifact.name.toList) {selection : List String}
    (selects : pipeline.interfaceExport.select selection store.lookup externals = .ok descriptors) :
    ∀ descriptor ∈ descriptors, '/' ∉ descriptor.name.toList := by
  intro descriptor member
  rcases InterfaceExport.mem_of_select selects member with
    merged | ⟨-, ⟨name, -, artifact, found, rfl⟩ | external⟩
  · rw [merged]
    exact names.flatName
  · exact live artifact (List.mem_of_find?_eq_some found)
  · exact names.externals externals ((suits.loadExternals_iff confined).2 loads) descriptor external

/-! The stages of a run -/

theorem Uses.since_runAll (uses : ground.Uses pipeline) (sees : ground.Sees first) {units : List SourceUnit}
    (publishes : ∀ unit ∈ units, ∀ request, pipeline.workFor unit = .ok request →
      ∀ artifact, request.isAnsweredBy artifact = true → good artifact)
    (since : ground.Since good first state) (limit : Nat) :
    ground.Since good first (Job.runAll limit (units.map pipeline.jobFor) state).2 := by
  have lasts : ground.Lasts good first state (Job.runAll limit (units.map pipeline.jobFor) state).2 := by
    apply Pool.run_upholds
    · exact fun _ => id
    · exact Lasts.trans
    · intro request member
      rw [Pipeline.work_jobs] at member
      obtain ⟨isUnit, asks⟩ := Pipeline.unit_of_mem member
      exact uses.lasts sees asks (publishes _ isUnit request asks)
  exact lasts since

theorem Since.evicts (sees : ground.Sees first)
    (start : ground.Since (fun artifact => '/' ∉ artifact.name.toList) first state)
    {units : List SourceUnit} {read : FileTree} {outcome : Except BuildError (List String)} {retained : BuildState}
    (discovers : pipeline.discover state.workspace.files = (.ok units, read))
    (retains : Store.retain (units.map (·.artifactName)) ⟨{ state.workspace with files := read }, state.store⟩ =
      (outcome, retained)) :
    ground.Since (fun artifact => '/' ∉ artifact.name.toList) first retained := by
  have reads := reads_discover pipeline state.workspace.files
  rw [discovers] at reads
  have found : ground.Since (fun artifact => '/' ∉ artifact.name.toList) first
      ⟨{ state.workspace with files := read }, state.store⟩ := start.files reads.confined
  have evicts := found.retain sees (fun _ => id) (units.map SourceUnit.artifactName)
  rwa [retains] at evicts

/-- Behind compilation nothing is live but artifacts of sources. -/
theorem Uses.since_compiles (uses : ground.Uses pipeline) (sees : ground.Sees first) {report : RunReport}
    (start : ground.Since (fun artifact => '/' ∉ artifact.name.toList) first state)
    {units : List SourceUnit} {checked compiled : RunState} {results : List JobResult}
    (compiles : pipeline.Compiles ⟨report, state⟩ units checked compiled results) :
    ground.Since (fun artifact => artifact.name ∈ units.map SourceUnit.artifactName) first compiled.build ∧
      checked.build.store.slots = state.store.slots := by
  obtain ⟨read, evicted, retained, discovers, retains, _, rfl⟩ := compiles.discovers
  have evicts := start.evicts sees discovers retains
  have waiting := Store.slots_retain (units.map SourceUnit.artifactName)
    (Pipeline.withFiles ⟨report, state⟩ read).build
  rw [retains] at waiting
  -- what is live behind the eviction has the name of a source, and so has all that is published later
  have early : ground.Since (fun artifact => artifact.name ∈ units.map SourceUnit.artifactName) first
      (Pipeline.looked { Pipeline.entered ⟨report, state⟩ .compiling with build := retained }).build :=
    ⟨evicts.stores, evicts.directory, fun artifact member => (Store.live_retain retains artifact member).2⟩
  have late := uses.since_runAll sees (fun unit member request asks artifact answers => by
    rw [(Request.isAnsweredBy_iff.1 answers).2, Request.name, Pipeline.workFor_eq_ok asks]
    exact List.mem_map_of_mem member) early (max pipeline.project.settings.build.concurrency 1)
  rw [compiles.compiles] at late
  exact ⟨late, waiting⟩

theorem Uses.write_confined (uses : ground.Uses pipeline) (sees : ground.Sees tree)
    (whole : ∀ descriptor ∈ descriptors, '/' ∉ descriptor.name.toList) (selection : List String) :
    Confined ground.Owns tree (pipeline.interfaceExport.write descriptors selection tree).2 := by
  have wrote := pipeline.interfaceExport.write_confined descriptors selection sees.tidy
  rw [sees.workingDirectory] at wrote
  exact wrote.mono fun _ => uses.owns_descriptors whole

theorem Uses.generates_confined (uses : ground.Uses pipeline) {before after : RunState}
    {outcome : Except BuildError Unit} (generates : pipeline.Generates descriptors before after outcome)
    (sees : ground.Sees (Pipeline.files before))
    (whole : ∀ descriptor ∈ descriptors, '/' ∉ descriptor.name.toList) :
    Confined ground.Owns (Pipeline.files before) (Pipeline.files after) := by
  cases generates with
  | skips same _ _ _ => exact same.confined
  | breaks confined _ =>
    have changes := confined sees.tidy
    rw [sees.workingDirectory] at changes
    exact changes.mono fun _ => uses.owns_bindings whole
  | completes same ran saved _ =>
    have seesRead := sees.confined (same.confined : Confined ground.Owns _ _)
    have made := pipeline.bindingExport.generate_confined descriptors seesRead.tidy
    rw [ran, seesRead.workingDirectory] at made
    have seesMade := seesRead.confined made
    refine (same.confined.trans (made.mono fun _ => uses.owns_bindings whole)).trans (saved.confined.mono ?_)
    rintro names rfl
    rw [FileTree.place, seesMade.workingDirectory]
    exact uses.owns_stamp

end Ground
end ContractBuild
