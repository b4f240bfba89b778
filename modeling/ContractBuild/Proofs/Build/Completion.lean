import ContractBuild.Proofs.Build.Grounds
import ContractBuild.Proofs.Build.Passage

/-!
Runs that go on behind compilation and are done. Such a run found the sources in its first files and
compiled all of them; the descriptors it wrote and generated from are those of the artifacts that were
in the store then.
-/
namespace ContractBuild
open FileTree FileAction ContractBuild.Action

def Pipeline.HasOwnFingerprints (pipeline : Pipeline) (tree : FileTree) : Prop :=
  ∀ units, pipeline.discover tree = (.ok units, tree) →
    ((units.filterMap fun unit => (pipeline.workFor unit).toOption).map Request.fingerprint).Nodup

theorem Pipeline.ownFingerprints_of_single {pipeline : Pipeline} {tree : FileTree} {unit : SourceUnit}
    (discovers : pipeline.discover tree = (.ok [unit], tree)) : pipeline.HasOwnFingerprints tree := by
  intro units found
  cases discovers.symm.trans found
  rw [List.filterMap_cons, List.filterMap_nil]
  cases (pipeline.workFor unit).toOption with
  | none => exact List.nodup_nil
  | some request => exact List.nodup_singleton _

namespace Ground

/-- A store as runs leave it: its files are in the cache, their names are fit for files, and nobody waits
for an artifact. -/
structure Stocks (ground : Ground) (store : Store) : Prop where
  directory : store.directory = Store.artifactsDir ground.cache
  whole : ∀ artifact ∈ store.live, '/' ∉ artifact.name.toList
  idle : ∀ slot ∈ store.slots, slot.listed = false

structure Completes (ground : Ground) (pipeline : Pipeline) (mode : Mode) (state : BuildState)
    (units : List SourceUnit) (externals descriptors : List Descriptor) (compiled : BuildState)
    (before last : RunState) : Prop where
  discovers : pipeline.discover state.workspace.files = (.ok units, state.workspace.files)
  compiles : ground.Since (fun artifact => artifact.name ∈ units.map SourceUnit.artifactName)
    state.workspace.files compiled
  fresh : Pool.AllFresh (units.map pipeline.workFor) compiled.store
  loads : pipeline.interfaceExport.loadExternals compiled.workspace.files =
    (.ok externals, compiled.workspace.files)
  selects : pipeline.interfaceExport.select pipeline.project.settings.interfaces.only compiled.store.lookup
    externals = .ok descriptors
  writes : ∃ paths, pipeline.interfaceExport.write descriptors pipeline.project.settings.interfaces.only
    compiled.workspace.files = (.ok paths, Pipeline.files before)
  fronted : pipeline.front mode ⟨.start, state⟩ = (.ok (some descriptors), before)
  generates : pipeline.Generates descriptors before last (.ok ())
  clean : last.report.errors = []
  stored : before.build.store = compiled.store
  store : (pipeline.run mode state).2.store = compiled.store
  files : (pipeline.run mode state).2.workspace.files = Pipeline.files last

variable {ground : Ground} {pipeline : Pipeline} {mode : Mode} {state : BuildState}

/-- Where no fault comes, the sources are those in the first files. -/
theorem discovers_of_compiles (quiet : state.workspace.files.faultAfter = none) {report : RunReport}
    {units : List SourceUnit} {checked compiled : RunState} {results : List JobResult}
    (compiles : pipeline.Compiles ⟨report, state⟩ units checked compiled results) :
    pipeline.discover state.workspace.files = (.ok units, state.workspace.files) := by
  obtain ⟨tree, _, _, discovers, _⟩ := compiles.discovers
  have reads := reads_discover pipeline state.workspace.files
  rw [show pipeline.discover state.workspace.files = _ from discovers] at reads ⊢
  obtain rfl : tree = state.workspace.files := reads.eq_of_quiet quiet
  rfl

theorem Stocks.since {store : Store} (stocks : ground.Stocks store) {workspace : Workspace} :
    ground.Since (fun artifact => '/' ∉ artifact.name.toList) workspace.files ⟨workspace, store⟩ :=
  ⟨.refl _, stocks.directory, stocks.whole⟩

theorem Uses.completes_of_done (uses : ground.Uses pipeline) (sees : ground.Sees state.workspace.files)
    (quiet : state.workspace.files.faultAfter = none) (stocks : ground.Stocks state.store)
    (own : pipeline.HasOwnFingerprints state.workspace.files) (exports : pipeline.wantsExport mode = true)
    (done : (pipeline.run mode state).1.stage = .done) :
    ∃ units externals descriptors compiled before last,
      ground.Completes pipeline mode state units externals descriptors compiled before last := by
  obtain ⟨last, ran, clean⟩ := Pipeline.run_done done
  have files := Pipeline.files_run pipeline mode state
  have store := Pipeline.store_run pipeline mode state
  rw [ran] at files store
  rw [Pipeline.stages_eq] at ran
  obtain ⟨chosen, before, fronted, generates⟩ := bind_eq_ok ran
  cases chosen with
  | none =>
    rw [Pipeline.wantsExport_of_front fronted] at exports
    cases exports
  | some descriptors =>
    obtain ⟨units, checked, compiled, results, externals, read, passes⟩ := Pipeline.front_ok fronted
    have discovers := discovers_of_compiles quiet passes.compiles
    obtain ⟨compiles, waiting⟩ := uses.since_compiles sees stocks.since passes.compiles
    have loads := passes.chooses.loads
    have readOnly := InterfaceExport.reads_loadExternals pipeline.interfaceExport (Pipeline.files compiled)
    obtain rfl : read = Pipeline.files compiled := by
      rw [loads] at readOnly
      exact readOnly.eq_of_quiet (compiles.confined.quiet quiet)
    have generated := pipeline.generate_generates descriptors before
    have kept := pipeline.store_generate descriptors before
    rw [show pipeline.generate descriptors before = _ from generates] at generated kept
    have noErrors : before.report.errors = [] := generated.errors_eq_nil clean
    rw [passes.errors] at noErrors
    obtain ⟨all, unblocked⟩ := CompileSummary.isOk_of_clean (List.append_eq_nil_iff.1 noErrors).2
    have selects := passes.chooses.selects
    rw [Pipeline.selection, unblocked, List.filter_eq_self.2 (by simp)] at selects
    refine ⟨units, externals, descriptors, compiled.build, before, last, discovers, compiles, ?_, loads, selects,
      passes.writes, fronted, generated, clean, passes.store, store.trans (kept.trans passes.store), files⟩
    refine Pipeline.allFresh_of_runAll ?_ ?_ passes.compiles.compiles all
    · exact Pipeline.distinct_works (nodup_of_discover discovers) (own units discovers)
    · rw [waiting]
      exact stocks.idle

end Ground
end ContractBuild
