import ContractBuild.Build.Pipeline
import ContractBuild.Proofs.Build.Writes
import ContractBuild.Proofs.Store.Upkeep

/-!
The stages of a run. Everything in front of the generation of bindings looks at the sources and at
descriptors from elsewhere, drops and publishes artifacts, and writes descriptors; a relation that
holds across each of these holds across all of it.
-/
namespace ContractBuild
open FileTree FileAction ContractBuild.Action

/-! What only looks at files -/

theorem keeps_inBuild {α : Type} {related : FileTree → FileTree → Prop} {action : ProjectAction α}
    (keeps : Keeps related action) : Keeps related (ProjectAction.inBuild action) := by
  intro tree
  have kept := keeps tree
  unfold ProjectAction.inBuild
  revert kept
  rcases action tree with ⟨cause | value, after⟩ <;> exact id

theorem reads_sourcePaths (project : Project) : Reads project.sourcePaths := by
  apply Reads.bind Reads.get
  intro tree
  split
  · exact Reads.pure _
  · exact Reads.bind (keeps_telling _ (reads_filesBelow _)) fun _ => Reads.pure _

theorem reads_readUnit (path : Path) : Reads (SourceUnit.read path) := by
  unfold SourceUnit.read
  split
  · exact Reads.throw _
  · exact Reads.bind (keeps_telling _ (reads_readText path)) fun _ => Reads.pure _

theorem reads_readUnits (seen : List SourceUnit) (paths : List Path) :
    Reads (Pipeline.readUnits seen paths) := by
  induction paths generalizing seen with
  | nil => exact Reads.pure _
  | cons path paths ih =>
    apply Reads.bind (keeps_inBuild (reads_readUnit path))
    intro unit
    split
    · exact Reads.throw _
    · exact ih _

theorem reads_discover (pipeline : Pipeline) : Reads pipeline.discover :=
  Reads.bind (keeps_inBuild (reads_sourcePaths pipeline.project)) fun _ => reads_readUnits _ _

theorem reads_loadDescriptor (path : Path) : Reads (Descriptor.load path) := by
  apply Reads.bind (keeps_telling _ (reads_readText path))
  intro text
  split
  · exact Reads.throw _
  · dsimp only
    split
    · exact Reads.pure _
    · exact Reads.throw _

namespace InterfaceExport

theorem reads_expand (exporter : InterfaceExport) (glob : Glob) : Reads (exporter.expand glob) := by
  apply Reads.bind Reads.get
  intro tree
  split
  · exact Reads.pure _
  · split <;> exact Reads.pure _

theorem reads_readAll (found : List Descriptor) (paths : List Path) : Reads (readAll found paths) := by
  induction paths generalizing found with
  | nil => exact Reads.pure _
  | cons path paths ih => exact Reads.bind (reads_loadDescriptor path) fun _ => ih _

theorem reads_loadFrom (exporter : InterfaceExport) (found : List Descriptor)
    (patterns : List String) : Reads (exporter.loadFrom found patterns) := by
  induction patterns generalizing found with
  | nil => exact Reads.pure _
  | cons pattern patterns ih =>
    apply Reads.bind (keeps_telling _ (exporter.reads_expand _))
    intro paths
    exact Reads.bind (reads_readAll found paths) fun _ => ih _

theorem reads_loadExternals (exporter : InterfaceExport) : Reads exporter.loadExternals :=
  exporter.reads_loadFrom [] exporter.externals

/-! What writing descriptors changes -/

def Describes (names : List String) (found : Option ByteArray) : Prop :=
  EndsIn fileExtension names ∧ (found = none ∨
    ∃ (descriptor : Descriptor) (spacing : Nat), found = some (descriptor.toText spacing).toUTF8)

structure Described (before after : FileTree) : Prop where
  confined : Confined (EndsIn fileExtension) before after
  alters : Alters Describes before after

def DescribedFrom (before after : FileTree) : Prop :=
  before.root.Tidy → Described before after

theorem DescribedFrom.trans {first middle last : FileTree} (earlier : DescribedFrom first middle)
    (later : DescribedFrom middle last) : DescribedFrom first last := by
  intro tidy
  have before := earlier tidy
  have after := later (before.confined.tidy tidy)
  exact ⟨before.confined.trans after.confined, before.alters.trans after.alters⟩

theorem DescribedFrom.refl (tree : FileTree) : DescribedFrom tree tree :=
  fun _ => ⟨.refl tree, .refl tree⟩

abbrev Describing {ε α : Type} (action : ExceptT ε (StateM FileTree) α) : Prop :=
  Keeps DescribedFrom action

theorem Describing.bind {ε α β : Type} {action : ExceptT ε (StateM FileTree) α}
    {next : α → ExceptT ε (StateM FileTree) β} (first : Describing action)
    (second : ∀ value, Describing (next value)) : Describing (action >>= next) :=
  Keeps.bind (fun earlier later => earlier.trans later) first second

theorem Describing.pure {ε α : Type} (value : α) :
    Describing (Pure.pure value : ExceptT ε (StateM FileTree) α) :=
  Keeps.pure DescribedFrom.refl value

theorem describing_writeEach (exporter : InterfaceExport) (descriptors : List Descriptor) :
    Describing (exporter.writeEach descriptors) := by
  induction descriptors with
  | nil => exact Describing.pure _
  | cons descriptor descriptors ih =>
    apply Describing.bind
    · intro tree _
      refine ⟨(Output.writeIfChanged_confined _ _ tree).mono ?_,
        (Output.writeIfChanged_alters _ _ tree).mono ?_⟩
      · rintro names rfl
        exact placeFrom_descriptorPath tree.workingDirectory exporter _
      · rintro names found ⟨rfl, rfl⟩
        exact ⟨placeFrom_descriptorPath tree.workingDirectory exporter _,
          .inr ⟨descriptor, exporter.spacing, rfl⟩⟩
    · intro _
      exact Describing.bind ih fun _ => Describing.pure _

theorem describing_purge (exporter : InterfaceExport) (keep : List String) :
    Describing (Output.purgeStale exporter.outDir fileExtension keep) := by
  intro tree tidy
  have confined := (Output.purgeStale_confined exporter.outDir fileExtension keep tidy).mono
    fun _ purgeable => purgeable.endsIn
  refine ⟨confined, fun names => ?_⟩
  rcases (Output.purgeStale_shrinks exporter.outDir fileExtension keep tidy).files names with same | gone
  · exact .inl same
  · by_cases ends : EndsIn fileExtension names
    · exact .inr ⟨ends, .inl gone⟩
    · exact .inl (confined.outside names ends)

theorem describing_write (exporter : InterfaceExport) (descriptors : List Descriptor)
    (selection : List String) : Describing (exporter.write descriptors selection) := by
  apply Describing.bind
  · intro tree _
    have made : Confined (fun _ => False) tree (createDirectories exporter.outDir tree).2 :=
      createDirectories_confined exporter.outDir tree
    exact ⟨made.mono fun _ => False.elim, fun names => .inl (made.outside names id)⟩
  · intro _
    split
    · exact Describing.bind (exporter.describing_purge _) fun _ => exporter.describing_writeEach _
    · exact exporter.describing_writeEach _

end InterfaceExport
namespace Pipeline
open InterfaceExport

def front (pipeline : Pipeline) (mode : Mode) : RunAction (Option (List Descriptor)) := do
  RunAction.enter .compiling
  let units ← RunAction.onFiles pipeline.discover
  let _ ← RunAction.onStore (Store.retain (units.map (·.artifactName)))
  RunAction.checkpoint
  let blocked ← pipeline.compileAll units
  RunAction.checkpoint
  if pipeline.wantsExport mode then
    RunAction.enter .extracting
    let descriptors ← pipeline.extract blocked
    RunAction.checkpoint
    RunAction.enter .generating
    return some descriptors
  else return none

theorem stages_eq (pipeline : Pipeline) (mode : Mode) :
    pipeline.stages mode = pipeline.front mode >>= fun descriptors =>
      match descriptors with
      | some descriptors => pipeline.generate descriptors
      | none => return () := by
  unfold stages front
  simp only [bind_assoc]
  congr 1
  funext _
  congr 1
  funext units
  congr 1
  funext _
  congr 1
  funext _
  congr 1
  funext blocked
  congr 1
  funext _
  split
  · simp only [bind_assoc, pure_bind]
  · rfl

/-- Only a run that does not go on behind compilation ends without descriptors. -/
theorem wantsExport_of_front {pipeline : Pipeline} {mode : Mode} {before after : RunState}
    (ran : pipeline.front mode before = (.ok none, after)) : pipeline.wantsExport mode = false := by
  unfold front at ran
  obtain ⟨_, _, _, ran⟩ := bind_eq_ok ran
  obtain ⟨_, _, _, ran⟩ := bind_eq_ok ran
  obtain ⟨_, _, _, ran⟩ := bind_eq_ok ran
  obtain ⟨_, _, _, ran⟩ := bind_eq_ok ran
  obtain ⟨_, _, _, ran⟩ := bind_eq_ok ran
  obtain ⟨_, _, _, ran⟩ := bind_eq_ok ran
  cases wants : pipeline.wantsExport mode with
  | false => rfl
  | true =>
    rw [wants, if_pos rfl] at ran
    obtain ⟨_, _, _, ran⟩ := bind_eq_ok ran
    obtain ⟨_, _, _, ran⟩ := bind_eq_ok ran
    obtain ⟨_, _, _, ran⟩ := bind_eq_ok ran
    obtain ⟨_, _, _, ran⟩ := bind_eq_ok ran
    cases ran

structure Upholds (related : BuildState → BuildState → Prop) (found : List SourceUnit → Prop)
    (pipeline : Pipeline) : Prop where
  trans : ∀ {first middle last}, related first middle → related middle last → related first last
  looks : ∀ (state : BuildState) (workspace : Workspace),
    state.workspace.files.SameFiles workspace.files → related state { state with workspace }
  retains : ∀ inUse state, related state (Store.retain inUse state).2
  writes : ∀ (state : BuildState) {externals descriptors : List Descriptor} {read : FileTree}
    {selection : List String},
    pipeline.interfaceExport.loadExternals state.workspace.files = (.ok externals, read) →
    pipeline.interfaceExport.select selection state.store.lookup externals = .ok descriptors →
    related state { state with workspace := { state.workspace with
      files := (pipeline.interfaceExport.write descriptors pipeline.project.settings.interfaces.only
        read).2 } }
  requests : ∀ units, found units → ∀ unit ∈ units, ∀ request, pipeline.workFor unit = .ok request →
    request.Upholds related

variable {related : BuildState → BuildState → Prop} {found : List SourceUnit → Prop} {pipeline : Pipeline}

theorem Upholds.refl (upholds : pipeline.Upholds related found) (state : BuildState) :
    related state state :=
  upholds.looks state state.workspace (.refl _)

abbrev Upkeeps {α : Type} (related : BuildState → BuildState → Prop) (action : RunAction α) : Prop :=
  Keeps (fun before after : RunState => related before.build after.build ∧
    after.report.generateSkipped = before.report.generateSkipped) action

theorem Upholds.bind {α β : Type} (upholds : pipeline.Upholds related found)
    {action : RunAction α} {next : α → RunAction β} (first : Upkeeps related action)
    (second : ∀ value, Upkeeps related (next value)) : Upkeeps related (action >>= next) := by
  refine Keeps.bind ?_ first second
  exact fun earlier later => ⟨upholds.trans earlier.1 later.1, later.2.trans earlier.2⟩

theorem Upholds.stay (upholds : pipeline.Upholds related found) (run : RunState) :
    related run.build run.build ∧ run.report.generateSkipped = run.report.generateSkipped :=
  ⟨upholds.refl run.build, rfl⟩

theorem Upholds.report (upholds : pipeline.Upholds related found) {change : RunReport → RunReport}
    (steady : ∀ report, (change report).generateSkipped = report.generateSkipped) :
    Upkeeps related (RunAction.report change) :=
  fun run => ⟨upholds.refl run.build, steady run.report⟩

theorem Upholds.onFiles {α : Type} (upholds : pipeline.Upholds related found)
    {action : BuildAction α} (reads : Reads action) : Upkeeps related (RunAction.onFiles action) :=
  fun run => ⟨upholds.looks run.build _ (reads run.build.workspace.files), rfl⟩

theorem Upholds.enter (upholds : pipeline.Upholds related found) (stage : Stage) :
    Upkeeps related (RunAction.enter stage) :=
  upholds.report fun _ => rfl

theorem Upholds.retain (upholds : pipeline.Upholds related found) (inUse : List String) :
    Upkeeps related (RunAction.onStore (Store.retain inUse)) :=
  fun run => ⟨upholds.retains inUse run.build, rfl⟩

theorem Upholds.checkpoint (upholds : pipeline.Upholds related found) :
    Upkeeps related RunAction.checkpoint := by
  apply upholds.bind
  · exact fun run => ⟨upholds.looks run.build _ (.refl _), rfl⟩
  · intro cancelled
    split
    · exact Keeps.throw upholds.stay _
    · exact Keeps.pure upholds.stay _

theorem Upholds.compileAll (upholds : pipeline.Upholds related found) {units : List SourceUnit}
    (known : found units) : Upkeeps related (pipeline.compileAll units) := by
  intro run
  refine ⟨?_, rfl⟩
  apply Pool.run_upholds upholds.refl upholds.trans
  intro request member
  rw [List.map_map, List.mem_map] at member
  obtain ⟨unit, isUnit, asks⟩ := member
  exact upholds.requests units known unit isUnit request asks

theorem Upholds.extract (upholds : pipeline.Upholds related found) (blocked : List String) :
    Upkeeps related (pipeline.extract blocked) := by
  intro run
  have looked := reads_loadExternals pipeline.interfaceExport run.build.workspace.files
  unfold Pipeline.extract
  cases loaded : pipeline.interfaceExport.loadExternals run.build.workspace.files with
  | mk outcome read =>
    rw [loaded] at looked
    have went : RunAction.onFiles pipeline.interfaceExport.loadExternals run =
        (outcome, { run with build := { run.build with
          workspace := { run.build.workspace with files := read } } }) := by
      unfold RunAction.onFiles
      rw [loaded]
    cases outcome with
    | error cause =>
      dsimp only
      rw [bind_of_error went]
      exact ⟨upholds.looks run.build _ looked, rfl⟩
    | ok externals =>
      dsimp only
      rw [bind_of_ok went, bind_of_ok (get_apply _)]
      cases chosen : pipeline.interfaceExport.select (pipeline.project.settings.interfaces.only.filter
          fun name => name ∉ blocked) run.build.store.lookup externals with
      | error cause =>
        have selects : ∀ run, (liftM (Except.error cause : Except BuildError (List Descriptor)) :
            RunAction (List Descriptor)) run = (.error cause, run) := fun _ => rfl
        rw [bind_of_error (selects _)]
        exact ⟨upholds.looks run.build _ looked, rfl⟩
      | ok descriptors =>
        have selects : ∀ run, (liftM (Except.ok descriptors : Except BuildError (List Descriptor)) :
            RunAction (List Descriptor)) run = (.ok descriptors, run) := fun _ => rfl
        have wrote := upholds.writes run.build loaded chosen
        cases written : pipeline.interfaceExport.write descriptors
            pipeline.project.settings.interfaces.only read with
        | mk outcome after =>
          rw [written] at wrote
          have wentOn : RunAction.onFiles (liftM (pipeline.interfaceExport.write descriptors
              pipeline.project.settings.interfaces.only)) { run with build := { run.build with
                workspace := { run.build.workspace with files := read } } } =
              (outcome.mapError .file, { run with build := { run.build with
                workspace := { run.build.workspace with files := after } } }) := by
            unfold RunAction.onFiles
            dsimp only
            rw [inBuild_apply, written]
            cases outcome <;> rfl
          rw [bind_of_ok (selects _)]
          cases outcome with
          | error cause =>
            rw [bind_of_error wentOn]
            exact ⟨wrote, rfl⟩
          | ok paths =>
            rw [bind_of_ok wentOn]
            exact ⟨wrote, rfl⟩

/-- Up to the generation of bindings, all that a run does is related. -/
theorem Upholds.front (upholds : pipeline.Upholds related found) (mode : Mode) (run : RunState)
    (finds : ∀ units, (pipeline.discover run.build.workspace.files).1 = .ok units → found units) :
    related run.build (pipeline.front mode run).2.build ∧
      (pipeline.front mode run).2.report.generateSkipped = run.report.generateSkipped := by
  have behind : ∀ units, found units → Upkeeps related (do
      let _ ← RunAction.onStore (Store.retain (units.map (·.artifactName)))
      RunAction.checkpoint
      let blocked ← pipeline.compileAll units
      RunAction.checkpoint
      if pipeline.wantsExport mode then
        RunAction.enter .extracting
        let descriptors ← pipeline.extract blocked
        RunAction.checkpoint
        RunAction.enter .generating
        return some descriptors
      else return none) := by
    intro units known
    apply upholds.bind (upholds.retain _)
    intro _
    apply upholds.bind upholds.checkpoint
    intro _
    apply upholds.bind (upholds.compileAll known)
    intro blocked
    apply upholds.bind upholds.checkpoint
    intro _
    split
    · apply upholds.bind (upholds.enter _)
      intro _
      apply upholds.bind (upholds.extract blocked)
      intro descriptors
      apply upholds.bind upholds.checkpoint
      intro _
      exact upholds.bind (upholds.enter _) fun _ => Keeps.pure upholds.stay _
    · exact Keeps.pure upholds.stay _
  have entered : RunAction.enter .compiling run = (.ok (), { run with report := run.report.enter .compiling }) :=
    rfl
  unfold Pipeline.front
  rw [bind_of_ok entered, bind_apply]
  have looked := upholds.onFiles (reads_discover pipeline) { run with report := run.report.enter .compiling }
  have known : ∀ units, (RunAction.onFiles pipeline.discover
      { run with report := run.report.enter .compiling }).1 = .ok units → found units := finds
  revert looked known
  rcases RunAction.onFiles pipeline.discover { run with report := run.report.enter .compiling } with
    ⟨cause | units, after⟩
  · exact fun looked _ => looked
  · intro looked known
    obtain ⟨later, skipped⟩ := behind units (known units rfl) after
    exact ⟨upholds.trans looked.1 later, skipped.trans looked.2⟩

end Pipeline
end ContractBuild
