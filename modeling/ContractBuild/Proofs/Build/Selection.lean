import ContractBuild.Proofs.Build.Completion
import ContractBuild.Proofs.Build.Externals
import ContractBuild.Proofs.Build.Failures

/-!
The descriptors that a full run chooses: those of the selected sources that were compiled, in the order of
the selection, and then those from elsewhere whose name is no artifact's. A selection that names no source
ends the run with one error for all such names.
-/
namespace ContractBuild
open FileTree FileAction ContractBuild.Action

/-! Tokens that nobody cancels -/

def Workspace.StaysQuiet (before after : Workspace) : Prop :=
  before.cancellation = .quiet → after.cancellation = .quiet

def Pipeline.LeavesToken (pipeline : Pipeline) : Prop :=
  ∀ language adapter, pipeline.adapters language = some adapter → ∀ unit version,
    (adapter.call unit version).Within Workspace.StaysQuiet fun _ => True

namespace Pipeline

variable {pipeline : Pipeline} {state : BuildState} {units : List SourceUnit}

def StayQuiet (before after : BuildState) : Prop :=
  before.workspace.StaysQuiet after.workspace

theorem StayQuiet.refl (state : BuildState) : StayQuiet state state :=
  id

theorem StayQuiet.trans {first middle last : BuildState} (earlier : StayQuiet first middle)
    (later : StayQuiet middle last) : StayQuiet first last :=
  later ∘ earlier

theorem quiet_invalidate (name : String) (state : BuildState) : StayQuiet state (Store.invalidate name state).2 := by
  intro quiet
  rcases Store.workspace_invalidate name state with same | removed
  · rw [same]
    exact quiet
  · rw [removed]
    exact quiet

theorem quiet_retain (inUse : List String) (state : BuildState) : StayQuiet state (Store.retain inUse state).2 :=
  Store.retain_upholds StayQuiet.refl StayQuiet.trans quiet_invalidate inUse state

theorem quiet_runAll (units : List SourceUnit) (leaves : pipeline.LeavesToken) (limit : Nat) (state : BuildState) :
    state.workspace.StaysQuiet (Job.runAll limit (units.map pipeline.jobFor) state).2.workspace := by
  have staying : StayQuiet state (Job.runAll limit (units.map pipeline.jobFor) state).2 := by
    refine Pool.run_upholds StayQuiet.refl StayQuiet.trans ?_ limit state
    intro request member
    rw [work_jobs] at member
    obtain ⟨adapter, found, rfl⟩ := adapter_of_workFor (unit_of_mem member).2
    refine ⟨StayQuiet.trans, fun _ _ _ _ => id, quiet_invalidate request.name, ?_⟩
    refine (leaves _ _ found request.unit request.version).mono (fun _ _ quiet _ => quiet) ?_
    intro outcome _ artifact _ _ state quiet
    rw [Store.workspace_publish]
    exact quiet
  exact staying

theorem not_seesCancelled {run : RunState} (quiet : run.build.workspace.cancellation = .quiet) :
    ¬ SeesCancelled run := by
  rw [SeesCancelled, Workspace.isCancelled_of_quiet quiet]
  exact Bool.false_ne_true

theorem quiet_looked {run : RunState} (quiet : run.build.workspace.cancellation = .quiet) :
    (looked run).build.workspace.cancellation = .quiet := by
  rw [looked, RunAction.isCancelled_of_quiet quiet]
  exact quiet

/-- Where nobody asks for cancellation, a run that has found its sources and dropped the artifacts of
others compiles. -/
theorem compiles_of_quiet (quiet : state.workspace.cancellation = .quiet) (leaves : pipeline.LeavesToken)
    {tree : FileTree} {evicted : List String} {retained : BuildState}
    (discovers : pipeline.discover state.workspace.files = (.ok units, tree))
    (retains : Store.retain (units.map (·.artifactName)) (withFiles ⟨.start, state⟩ tree).build =
      (.ok evicted, retained)) :
    ∃ checked compiled results, pipeline.Compiles ⟨.start, state⟩ units checked compiled results ∧
      compiled.build.workspace.cancellation = .quiet := by
  have kept := quiet_retain (units.map SourceUnit.artifactName) (withFiles ⟨.start, state⟩ tree).build quiet
  rw [retains] at kept
  let checking : RunState := { entered ⟨.start, state⟩ .compiling with build := retained }
  have later := quiet_runAll units leaves (max pipeline.project.settings.build.concurrency 1)
    (looked checking).build (quiet_looked (show checking.build.workspace.cancellation = .quiet from kept))
  exact ⟨_, ⟨noteCompiled _ _, _⟩, _, ⟨⟨tree, evicted, retained, discovers, retains, not_seesCancelled kept, rfl⟩,
    rfl, rfl⟩, later⟩

/-! What is chosen -/

/-- The descriptors of the selected sources that were compiled, in the order of the selection. Each is that of
a live artifact with the fingerprint of its source as it is. -/
structure Selects (pipeline : Pipeline) (units : List SourceUnit) (results : List JobResult) (store : Store)
    (descriptors : List Descriptor) : Prop where
  names : descriptors.map (·.name) = pipeline.project.settings.interfaces.only.filter fun name =>
    results.any fun result => result.name = name && result.isOk
  fresh : ∀ descriptor ∈ descriptors, ∃ unit ∈ units, ∃ request artifact,
    unit.artifactName = descriptor.name ∧ pipeline.workFor unit = .ok request ∧
    store.lookup descriptor.name = some artifact ∧ artifact.fingerprint = request.fingerprint ∧
    descriptor = artifact.descriptor

end Pipeline

theorem InterfaceExport.select_of_plain {exporter : InterfaceExport} (plain : exporter.flat = false)
    (names : List String) (lookup : String → Option Artifact) (externals : List Descriptor) :
    exporter.select names lookup externals =
      if (names.filter fun name => (lookup name).isNone) = [] then
        .ok ((names.filterMap fun name => (lookup name).map Artifact.descriptor) ++
          externals.filter fun descriptor => (lookup descriptor.name).isNone)
      else .error (.selection (names.filter fun name => (lookup name).isNone)) := by
  unfold select
  dsimp only
  rw [plain]
  cases found : names.filter fun name => (lookup name).isNone with
  | nil => rfl
  | cons name missing => rfl

namespace Pipeline

variable {pipeline : Pipeline} {units : List SourceUnit} {results : List JobResult} {store : Store} {name : String}

structure Stands (pipeline : Pipeline) (units : List SourceUnit) (results : List JobResult) (store : Store) :
    Prop where
  nodup : (units.map SourceUnit.artifactName).Nodup
  names : results.map (·.name) = units.map SourceUnit.artifactName
  selected : ∀ result ∈ results,
    result.selected = decide (result.name ∈ pipeline.project.settings.interfaces.only)
  holds : ∀ unit ∈ units, ∀ result ∈ results, result.name = unit.artifactName → result.isOk = true →
    ∃ request, pipeline.workFor unit = .ok request ∧ store.Holds unit.artifactName request.fingerprint
  live : ∀ artifact ∈ store.live, artifact.name ∈ units.map SourceUnit.artifactName

/-- A source and a result of one name are in one place. -/
theorem Stands.of_name (stands : pipeline.Stands units results store) {unit : SourceUnit} (isUnit : unit ∈ units) :
    ∃ result ∈ results, result.name = unit.artifactName := by
  have member : unit.artifactName ∈ results.map (·.name) := stands.names ▸ List.mem_map_of_mem isUnit
  obtain ⟨result, isResult, same⟩ := List.mem_map.1 member
  exact ⟨result, isResult, same⟩

theorem Stands.unique (stands : pipeline.Stands units results store) {one other : JobResult} (isOne : one ∈ results)
    (isOther : other ∈ results) (same : one.name = other.name) : one = other :=
  List.inj_on_of_nodup_map (stands.names ▸ stands.nodup) isOne isOther same

theorem Stands.not_blocked_iff (stands : pipeline.Stands units results store)
    (wanted : name ∈ pipeline.project.settings.interfaces.only) :
    name ∉ (CompileSummary.ofResults results).blocked ↔
      ∀ result ∈ results, result.name = name → result.isOk = true := by
  rw [CompileSummary.ofResults_eq, List.mem_map]
  constructor
  · intro free result member same
    cases isOk : result.isOk with
    | true => rfl
    | false =>
      refine absurd ⟨result, List.mem_filter.2 ⟨member, ?_⟩, same⟩ free
      rw [JobResult.blocksExport, stands.selected result member, same, decide_eq_true wanted, isOk]
      rfl
  · rintro all ⟨result, member, same⟩
    obtain ⟨member, blocks⟩ := List.mem_filter.1 member
    rw [JobResult.blocksExport, all result member same] at blocks
    simp at blocks

/-- Among the selected names whose source did not fail, those without an artifact are those without a source. -/
theorem Stands.isNone_iff (stands : pipeline.Stands units results store)
    (ok : ∀ result ∈ results, result.name = name → result.isOk = true) :
    (store.lookup name).isNone = true ↔ name ∉ units.map SourceUnit.artifactName := by
  rw [Option.isNone_iff_eq_none]
  constructor
  · intro none member
    obtain ⟨unit, isUnit, rfl⟩ := List.mem_map.1 member
    obtain ⟨result, isResult, same⟩ := stands.of_name isUnit
    obtain ⟨request, _, artifact, found, _⟩ := stands.holds unit isUnit result isResult same (ok result isResult same)
    rw [none] at found
    cases found
  · intro free
    cases found : store.lookup name with
    | none => rfl
    | some artifact =>
      refine absurd ?_ free
      rw [← Store.name_of_lookup found]
      exact stands.live artifact (List.mem_of_find?_eq_some found)

theorem Stands.missing_eq (stands : pipeline.Stands units results store) :
    ((pipeline.selection results).filter fun name => (store.lookup name).isNone) =
      pipeline.project.settings.interfaces.only.filter fun name => name ∉ units.map SourceUnit.artifactName := by
  rw [selection, List.filter_filter]
  apply List.filter_congr
  intro name wanted
  rw [Bool.eq_iff_iff, Bool.and_eq_true, decide_eq_true_eq, decide_eq_true_eq, stands.not_blocked_iff wanted]
  constructor
  · rintro ⟨absent, ok⟩
    exact (stands.isNone_iff ok).1 absent
  · intro free
    have ok : ∀ result ∈ results, result.name = name → result.isOk = true := by
      intro result member same
      exact absurd (same ▸ stands.names ▸ List.mem_map_of_mem member) free
    exact ⟨(stands.isNone_iff ok).2 free, ok⟩

/-- Where every selected name has a source, the selection that remains is that of the compiled sources. -/
theorem Stands.selects (stands : pipeline.Stands units results store)
    (all : ∀ name ∈ pipeline.project.settings.interfaces.only, name ∈ units.map SourceUnit.artifactName) :
    pipeline.Selects units results store
      ((pipeline.selection results).filterMap fun name => (store.lookup name).map Artifact.descriptor) := by
  have chosen : ∀ name ∈ pipeline.selection results, ∃ unit ∈ units, ∃ request artifact,
      unit.artifactName = name ∧ pipeline.workFor unit = .ok request ∧ store.lookup name = some artifact ∧
      artifact.fingerprint = request.fingerprint := by
    intro name member
    obtain ⟨wanted, free⟩ := List.mem_filter.1 member
    obtain ⟨unit, isUnit, rfl⟩ := List.mem_map.1 (all name wanted)
    obtain ⟨result, isResult, same⟩ := stands.of_name isUnit
    have ok := (stands.not_blocked_iff wanted).1 (of_decide_eq_true free) result isResult same
    obtain ⟨request, asks, artifact, found, fingerprint⟩ := stands.holds unit isUnit result isResult same ok
    exact ⟨unit, isUnit, request, artifact, rfl, asks, found, fingerprint⟩
  refine ⟨?_, ?_⟩
  · have named : (((pipeline.selection results).filterMap fun name =>
        (store.lookup name).map Artifact.descriptor).map (·.name)) = pipeline.selection results := by
      rw [List.map_filterMap]
      calc (pipeline.selection results).filterMap
              (fun name => ((store.lookup name).map Artifact.descriptor).map (·.name))
          = (pipeline.selection results).filterMap some := by
            apply List.filterMap_congr
            intro name member
            obtain ⟨_, _, _, artifact, _, _, found, _⟩ := chosen name member
            rw [found]
            exact congrArg some (Store.name_of_lookup found)
        _ = pipeline.selection results := List.filterMap_some
    rw [named, selection]
    apply List.filter_congr
    intro name wanted
    rw [Bool.eq_iff_iff, decide_eq_true_eq, stands.not_blocked_iff wanted, List.any_eq_true]
    constructor
    · intro ok
      obtain ⟨unit, isUnit, rfl⟩ := List.mem_map.1 (all name wanted)
      obtain ⟨result, isResult, same⟩ := stands.of_name isUnit
      exact ⟨result, isResult, by rw [Bool.and_eq_true, decide_eq_true_eq]; exact ⟨same, ok result isResult same⟩⟩
    · rintro ⟨result, isResult, fine⟩ other isOther same
      rw [Bool.and_eq_true, decide_eq_true_eq] at fine
      rw [stands.unique isOther isResult (same.trans fine.1.symm)]
      exact fine.2
  · intro descriptor member
    obtain ⟨name, inside, made⟩ := List.mem_filterMap.1 member
    obtain ⟨unit, isUnit, request, artifact, named, asks, found, fingerprint⟩ := chosen name inside
    rw [found] at made
    obtain rfl : artifact.descriptor = descriptor := Option.some.inj made
    have same : artifact.descriptor.name = name := Store.name_of_lookup found
    exact ⟨unit, isUnit, request, artifact, named.trans same.symm, asks, same ▸ found, fingerprint, rfl⟩

theorem Compiles.stands {ground : Ground} (uses : ground.Uses pipeline) {state : BuildState}
    (sees : ground.Sees state.workspace.files) (stocks : ground.Stocks state.store)
    (own : ((units.filterMap fun unit => (pipeline.workFor unit).toOption).map Request.fingerprint).Nodup)
    {checked compiled : RunState}
    (compiles : pipeline.Compiles ⟨.start, state⟩ units checked compiled results) :
    pipeline.Stands units results compiled.build.store := by
  obtain ⟨since, slots⟩ := uses.since_compiles sees stocks.since compiles
  obtain ⟨_, _, _, discovers, _⟩ := compiles.discovers
  have nodup := nodup_of_discover discovers
  have tallies := tallies_of_runAll compiles.compiles
  refine ⟨nodup, tallies.names, selected_of_runAll compiles.compiles, ?_, since.live⟩
  intro unit isUnit result isResult same ok
  obtain ⟨position, found⟩ := List.mem_iff_getElem?.1 isUnit
  have place : (results.map (·.name))[position]? = some unit.artifactName := by
    rw [tallies.names, List.getElem?_map, found]
    rfl
  rw [List.getElem?_map] at place
  obtain ⟨other, isOther, named⟩ := Option.map_eq_some_iff.1 place
  obtain rfl : other = result := List.inj_on_of_nodup_map (tallies.names ▸ nodup) (List.mem_of_getElem? isOther)
    isResult (named.trans same.symm)
  refine holds_of_isOk (distinct_works nodup own) ?_ compiles.compiles found isOther ok
  rw [slots]
  exact stocks.idle

/-! How the run ends -/

theorem Compiles.errors {state : BuildState} {checked compiled : RunState}
    (compiles : pipeline.Compiles ⟨.start, state⟩ units checked compiled results) :
    compiled.report.errors = (CompileSummary.ofResults results).errors := by
  obtain ⟨_, _, _, _, _, _, rfl⟩ := compiles.discovers
  rw [compiles.report]
  rfl

theorem errors_conclude {last : RunState} (quiet : last.build.workspace.cancellation = .quiet) (cause : BuildError) :
    (conclude (.error cause, last)).1.errors = last.report.errors ++ [cause] := by
  unfold conclude
  rw [RunAction.isCancelled_of_quiet quiet]
  rfl

theorem descriptors_conclude (ended : Except BuildError Unit × RunState) :
    (conclude ended).1.descriptors = ended.2.report.descriptors := by
  have kept : ∀ (report : RunReport) cancelled, (report.finish cancelled).descriptors = report.descriptors := by
    intro report cancelled
    cases cancelled <;> rfl
  obtain ⟨cause | value, last⟩ := ended
  · exact kept _ _
  · exact kept _ _

theorem Notes.descriptors {descriptors : List Descriptor} {first last : RunReport}
    (notes : pipeline.Notes descriptors first last) : last.descriptors = first.descriptors := by
  cases notes <;> rfl

/-- What a full run does that has compiled, is not cancelled and has loaded the descriptors from elsewhere. -/
theorem stages_of_loaded {before checked compiled : RunState}
    (compiles : pipeline.Compiles before units checked compiled results)
    (quiet : compiled.build.workspace.cancellation = .quiet) {externals : List Descriptor} {read : FileTree}
    (loads : pipeline.interfaceExport.loadExternals (files compiled) = (.ok externals, read)) :
    pipeline.stages .full before =
      match pipeline.interfaceExport.select (pipeline.selection results) compiled.build.store.lookup externals with
      | .error cause => (.error cause, withFiles (entered (looked compiled) .extracting) read)
      | .ok descriptors =>
        match pipeline.interfaceExport.write descriptors pipeline.project.settings.interfaces.only read with
        | (.error cause, written) =>
          (.error (.file cause), withFiles (entered (looked compiled) .extracting) written)
        | (.ok paths, written) => pipeline.generate descriptors (entered
            { withFiles (entered (looked compiled) .extracting) written with
              report := { compiled.report.enter .extracting with descriptors := paths } } .generating) := by
  have overlooks : ∀ run : RunState,
      run.build.workspace.cancellation = (looked compiled).build.workspace.cancellation →
      RunAction.checkpoint run = (.ok (), run) :=
    fun run same => RunAction.checkpoint_of_quiet (same.trans (quiet_looked quiet))
  have extracts := pipeline.extract_apply (CompileSummary.ofResults results).blocked
    (entered (looked compiled) .extracting)
  rw [show files (entered (looked compiled) .extracting) = files compiled from rfl,
    show (entered (looked compiled) .extracting).build.store = compiled.build.store from rfl, loads] at extracts
  rw [stages_of_compiles compiles, rest, behind, bind_assoc,
    bind_of_ok (checkpoint_of_uncancelled (not_seesCancelled quiet))]
  rw [show pipeline.wantsExport .full = true from rfl, if_pos rfl, bind_assoc,
    bind_of_ok (show RunAction.enter .extracting (looked compiled) =
      (.ok (), entered (looked compiled) .extracting) from rfl), bind_assoc]
  unfold selection
  dsimp only at extracts
  cases chosen : pipeline.interfaceExport.select (pipeline.project.settings.interfaces.only.filter fun name =>
      name ∉ (CompileSummary.ofResults results).blocked) compiled.build.store.lookup externals with
  | error cause =>
    simp only [chosen] at extracts
    rw [bind_of_error extracts]
  | ok descriptors =>
    simp only [chosen] at extracts
    dsimp only
    cases writes : pipeline.interfaceExport.write descriptors pipeline.project.settings.interfaces.only read with
    | mk wrote written =>
      simp only [writes] at extracts
      cases wrote with
      | error cause => rw [bind_of_error extracts]
      | ok paths =>
        rw [bind_of_ok extracts, bind_assoc, bind_apply, overlooks]
        · rfl
        · rfl

/-- The descriptors of a full run that nobody cancels, once the descriptors from elsewhere are loaded. Where
selected names have no source, one error lists them and nothing is written; otherwise those of the selected
sources that were compiled are written and then those from elsewhere whose name is not live, unless a file
cannot be written. -/
theorem run_selects {ground : Ground} {state : BuildState} (uses : ground.Uses pipeline)
    (sees : ground.Sees state.workspace.files) (stocks : ground.Stocks state.store)
    (plain : pipeline.project.settings.interfaces.flat = false)
    (own : ((units.filterMap fun unit => (pipeline.workFor unit).toOption).map Request.fingerprint).Nodup)
    (quiet : state.workspace.cancellation = .quiet) (leaves : pipeline.LeavesToken)
    {tree : FileTree} {evicted : List String} {retained : BuildState}
    (discovers : pipeline.discover state.workspace.files = (.ok units, tree))
    (retains : Store.retain (units.map (·.artifactName)) (withFiles ⟨.start, state⟩ tree).build =
      (.ok evicted, retained)) :
    ∃ checked compiled results, pipeline.Compiles ⟨.start, state⟩ units checked compiled results ∧
      Tallies units results (.ofResults results) ∧
      ∀ externals read, pipeline.interfaceExport.loadExternals (files compiled) = (.ok externals, read) →
        let only := pipeline.project.settings.interfaces.only
        let missing := only.filter fun name => name ∉ units.map SourceUnit.artifactName
        let ended := pipeline.run .full state
        pipeline.interfaceExport.Gathers (files compiled) externals ∧
        (missing ≠ [] →
          ended.1.errors = (CompileSummary.ofResults results).errors ++ [.selection missing] ∧
          Confined ground.Stores state.workspace.files ended.2.workspace.files ∧
          (ground.Secludes → ∀ names, ground.Exports names →
            ended.2.workspace.files.fileAt names = state.workspace.files.fileAt names)) ∧
        (missing = [] → ∃ chosen, pipeline.Selects units results compiled.build.store chosen ∧
          let descriptors := chosen ++ externals.filter fun descriptor =>
            descriptor.name ∉ compiled.build.store.names
          (∀ paths written, pipeline.interfaceExport.write descriptors only read = (.ok paths, written) →
            ended.1.descriptors =
              descriptors.map (fun descriptor => pipeline.interfaceExport.descriptorPath descriptor.name) ∧
            ∃ made last, Output.Wrote (pipeline.interfaceExport.writes descriptors) made written ∧
              files last = written ∧
              pipeline.stages .full ⟨.start, state⟩ = pipeline.generate descriptors (entered last .generating)) ∧
          ∀ cause written, pipeline.interfaceExport.write descriptors only read = (.error cause, written) →
            ended.1.errors = (CompileSummary.ofResults results).errors ++ [.file cause]) := by
  obtain ⟨checked, compiled, results, compiles, still⟩ := compiles_of_quiet quiet leaves discovers retains
  have since := (uses.since_compiles sees stocks.since compiles).1
  have stands := compiles.stands uses sees stocks own
  refine ⟨checked, compiled, results, compiles, tallies_of_runAll compiles.compiles, ?_⟩
  intro externals read loads only missing ended
  have stages := stages_of_loaded compiles still loads
  rw [InterfaceExport.select_of_plain plain, stands.missing_eq] at stages
  have reads := InterfaceExport.reads_loadExternals pipeline.interfaceExport (files compiled)
  rw [loads] at reads
  have stillExtracting : ∀ tree, (withFiles (entered (looked compiled) .extracting) tree).build.workspace.cancellation
      = .quiet := fun _ => quiet_looked still
  refine ⟨InterfaceExport.loadExternals_ok loads (since.sees sees).tidy, fun some => ?_, fun none => ?_⟩
  · rw [if_neg some] at stages
    have stored : Confined ground.Stores state.workspace.files ended.2.workspace.files := by
      rw [show ended.2.workspace.files = _ from files_run pipeline .full state, stages]
      exact since.stores.trans reads.confined
    refine ⟨?_, stored, fun secludes names exported =>
      stored.outside names fun stores => secludes.not_exports stores exported⟩
    rw [show ended.1 = (conclude _).1 from congrArg Prod.fst (run_eq pipeline .full state), stages,
      errors_conclude (stillExtracting read), ← compiles.errors]
    rfl
  · rw [if_pos none] at stages
    have all : ∀ name ∈ only, name ∈ units.map SourceUnit.artifactName := by
      intro name member
      have silent := List.filter_eq_nil_iff.1 none name member
      simpa using silent
    refine ⟨_, stands.selects all, ?_⟩
    have added : (externals.filter fun descriptor => descriptor.name ∉ compiled.build.store.names) =
        externals.filter fun descriptor => (compiled.build.store.lookup descriptor.name).isNone := by
      apply List.filter_congr
      intro descriptor _
      rw [Bool.eq_iff_iff, decide_eq_true_eq, Option.isNone_iff_eq_none, Store.lookup, List.find?_eq_none,
        Store.names, List.mem_map]
      simp
    intro descriptors
    dsimp only at stages
    rw [← added] at stages
    refine ⟨fun paths written writes => ?_, fun cause written writes => ?_⟩
    · have writesThen : pipeline.interfaceExport.write _ only read = (.ok paths, written) := writes
      rw [writesThen] at stages
      dsimp only at stages
      obtain ⟨made, _, wroteEach⟩ := InterfaceExport.write_ok writes
      obtain ⟨rfl, wrote⟩ := InterfaceExport.writeEach_ok wroteEach
      refine ⟨?_, made, _, wrote, ?_, stages⟩
      · rw [show ended.1 = (conclude _).1 from congrArg Prod.fst (run_eq pipeline .full state),
          descriptors_conclude, stages]
        exact (pipeline.generate_generates _ _).notes.descriptors
      · rfl
    · have fails : pipeline.interfaceExport.write _ only read = (.error cause, written) := writes
      rw [fails] at stages
      dsimp only at stages
      rw [show ended.1 = (conclude _).1 from congrArg Prod.fst (run_eq pipeline .full state), stages,
        errors_conclude (stillExtracting written), ← compiles.errors]
      rfl

theorem leavesToken_of_steady (steady : pipeline.adapters = vyperOnly.adapters) : pipeline.LeavesToken := by
  intro language adapter isAdapter unit version
  rw [steady] at isAdapter
  cases language with
  | solidity => cases isAdapter
  | vyper =>
    cases isAdapter
    exact .act (fun _ => id) fun _ => .await (.done trivial)

/-- Two selected names have no source: the artifact of the third is kept, and one error tells of both. -/
theorem selects_of_missing :
    let pipeline := { vyperOnly with project.settings.interfaces.only := ["C", "A", "B"] }
    let ended := pipeline.run .full oneSource
    ended.1.errors = [.selection ["C", "B"]] ∧ ended.1.compiled = ["A"] ∧
      ∀ names, placeFrom [] ⟨"abis"⟩ <+: names →
        ended.2.workspace.files.fileAt names = oneSource.workspace.files.fileAt names := by
  intro pipeline ended
  have ran : ((pipeline.concludesWithin 9 .full oneSource).any fun ended =>
      decide (ended.1.errors.length = 1) && decide (ended.1.compiled = ["A"])) = true := by
    decide +kernel
  obtain ⟨last, within, ran⟩ := (Option.any_eq_true ..).1 ran
  obtain rfl : ended = last := run_of_concludesWithin within
  rw [Bool.and_eq_true, decide_eq_true_eq, decide_eq_true_eq] at ran
  have uses : Ground.usual.Uses pipeline := .of_steady (by decide) (by decide) (by decide) rfl
  have stocks : Ground.usual.Stocks oneSource.store :=
    ⟨by decide, fun _ member => (nomatch member), fun _ member => (nomatch member)⟩
  have own : (([unitA].filterMap fun unit => (pipeline.workFor unit).toOption).map Request.fingerprint).Nodup :=
    List.nodup_singleton _
  have discovers : pipeline.discover oneSource.workspace.files = (.ok [unitA], oneSource.workspace.files) :=
    discover_of_unitA (by decide +kernel) rfl
  obtain ⟨_, _, results, _, _, each⟩ := run_selects uses Ground.usual_sees stocks rfl own rfl
    (leavesToken_of_steady rfl) discovers (Store.retain_of_used fun _ member => nomatch member)
  obtain ⟨_, missing, _⟩ := each [] _ rfl
  obtain ⟨errors, _, kept⟩ := missing (by decide +kernel)
  refine ⟨?_, ran.2, fun names below => kept ⟨by decide +kernel, fun _ => False.elim⟩ names
    (.inl ⟨⟨"abis"⟩, List.mem_cons_self, below⟩)⟩
  have single := ran.1
  have errors : ended.1.errors = (CompileSummary.ofResults results).errors ++ [.selection ["C", "B"]] := errors
  have none : (CompileSummary.ofResults results).errors = [] := by
    rw [errors] at single
    simpa using single
  rw [errors, none]
  rfl

/-- The sources of a project that is not flat and has no descriptors from elsewhere, where nobody cancels. -/
structure Undisturbed (pipeline : Pipeline) (state : BuildState) (units : List SourceUnit) : Prop where
  plain : pipeline.project.settings.interfaces.flat = false
  none : pipeline.project.settings.bindings.externals = []
  quiet : state.workspace.cancellation = .quiet
  leaves : pipeline.LeavesToken
  own : ((units.filterMap fun unit => (pipeline.workFor unit).toOption).map Request.fingerprint).Nodup
  discovers : pipeline.discover state.workspace.files = (.ok units, state.workspace.files)

/-- Where the directory of descriptors is that of the artifacts, a run adds to it although the selection
names no source. Where it is no directory, a selected source that was compiled gets no descriptor. -/
theorem not_chosen_of_misplaced :
    (¬ ∀ (pipeline : Pipeline) (state : BuildState) units, pipeline.Undisturbed state units →
      (∃ name ∈ pipeline.project.settings.interfaces.only, name ∉ units.map SourceUnit.artifactName) →
      ∀ names, state.workspace.files.place pipeline.project.interfacesDir <+: names →
        (pipeline.run .full state).2.workspace.files.fileAt names = state.workspace.files.fileAt names) ∧
    ¬ ∀ (pipeline : Pipeline) (state : BuildState) units, pipeline.Undisturbed state units →
      (∀ name ∈ pipeline.project.settings.interfaces.only, name ∈ units.map SourceUnit.artifactName) →
      ∀ name ∈ pipeline.project.settings.interfaces.only, name ∈ (pipeline.run .full state).1.compiled →
        pipeline.interfaceExport.descriptorPath name ∈ (pipeline.run .full state).1.descriptors := by
  constructor
  · intro kept
    let pipeline := { vyperOnly with
      project.settings.interfaces.only := ["B"]
      project.settings.interfaces.path := ".kiln/cache/artifacts" }
    let place := [".kiln", "cache", "artifacts", "A.json"]
    have ran : ((pipeline.concludesWithin 9 .full oneSource).any fun ended =>
        (ended.2.workspace.files.fileAt place).isSome) = true := by
      decide +kernel
    obtain ⟨last, within, stored⟩ := (Option.any_eq_true ..).1 ran
    obtain rfl := run_of_concludesWithin within
    have same := kept pipeline oneSource [unitA]
      ⟨rfl, rfl, rfl, leavesToken_of_steady rfl, List.nodup_singleton _, discover_of_unitA (by decide +kernel) rfl⟩
      ⟨"B", List.mem_cons_self, by decide +kernel⟩ place (by decide +kernel)
    rw [same] at stored
    exact absurd stored (by decide +kernel)
  · intro written
    let occupied : BuildState :=
      ⟨.ofFiles ⟨.directory [(".kiln", .directory [("cache", .directory [("artifacts", .emptyDirectory)])]),
          ("abis", .file "".toUTF8), ("contracts", .directory [("A.vy", .file "[]".toUTF8)])], [], none⟩,
        ⟨⟨".kiln/cache/artifacts"⟩, [], [], ⟨0, 0, 0, 0⟩⟩⟩
    have ran : ((selectsA.concludesWithin 9 .full occupied).any fun ended =>
        decide (ended.1.compiled = ["A"]) && decide (ended.1.descriptors = [])) = true := by
      decide +kernel
    obtain ⟨last, within, ran⟩ := (Option.any_eq_true ..).1 ran
    obtain rfl := run_of_concludesWithin within
    rw [Bool.and_eq_true, decide_eq_true_eq, decide_eq_true_eq] at ran
    obtain ⟨compiled, none⟩ := ran
    have listed := written selectsA occupied [unitA]
      ⟨rfl, rfl, rfl, leavesToken_of_steady rfl, List.nodup_singleton _, discover_of_unitA (by decide +kernel) rfl⟩
      (by decide +kernel) "A" List.mem_cons_self (compiled ▸ List.mem_cons_self)
    rw [none] at listed
    cases listed

end Pipeline
end ContractBuild
