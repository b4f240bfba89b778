import ContractBuild.Proofs.Build.Bounded
import ContractBuild.Proofs.Build.Completion

/-!
Running again. A full run that is done leaves fresh artifacts of all sources, the descriptors and the
bindings in their places, and a stamp that tells of them. As long as nothing of this is among the
inputs of the next run, that one finds everything up to date.
-/
namespace ContractBuild
open FileTree FileAction ContractBuild.Action

namespace Ground

/-- What a full run that is done found and left: the files when everything was compiled, when the
descriptors were written, and in the end. -/
structure Leaves (ground : Ground) (pipeline : Pipeline) (first : FileTree) (units : List SourceUnit)
    (externals descriptors : List Descriptor) (compiled written last : FileTree) (store : Store) : Prop where
  discovers : pipeline.discover first = (.ok units, first)
  compiles : Confined ground.Owns first compiled
  used : ∀ artifact ∈ store.live, artifact.name ∈ units.map SourceUnit.artifactName
  fresh : Pool.AllFresh (units.map pipeline.workFor) store
  loads : pipeline.interfaceExport.loadExternals compiled = (.ok externals, compiled)
  selects : pipeline.interfaceExport.select pipeline.project.settings.interfaces.only store.lookup externals =
    .ok descriptors
  whole : ∀ descriptor ∈ descriptors, '/' ∉ descriptor.name.toList
  writes : ∃ paths, pipeline.interfaceExport.write descriptors pipeline.project.settings.interfaces.only
    compiled = (.ok paths, written)
  generates : Confined (fun names => EndsIn pipeline.bindingExport.dialect.fileExtension names ∨
    names = placeFrom ground.workingDirectory pipeline.stampPath) written last
  confined : Confined ground.Owns first last
  told : Stamp.ToldAt last pipeline.stampPath (pipeline.bindingExport.digest descriptors)
  there : ∀ path ∈ pipeline.bindingExport.expectedFiles (descriptors.map (·.name)), last.exists? path = true

variable {ground : Ground} {pipeline : Pipeline} {state : BuildState} {descriptors : List Descriptor}

/-- Behind a generation without failures the stamp tells of it, and the expected files are there. -/
theorem told_of_generates {before after : RunState}
    (generates : pipeline.Generates descriptors before after (.ok ())) (sees : ground.Sees (Pipeline.files before))
    (clean : after.report.errors = []) :
    before.report.errors = [] ∧
      Confined (fun names => EndsIn pipeline.bindingExport.dialect.fileExtension names ∨
        names = placeFrom ground.workingDirectory pipeline.stampPath) (Pipeline.files before) (Pipeline.files after) ∧
      Stamp.ToldAt (Pipeline.files after) pipeline.stampPath (pipeline.bindingExport.digest descriptors) ∧
      ∀ path ∈ pipeline.bindingExport.expectedFiles (descriptors.map (·.name)),
        (Pipeline.files after).exists? path = true := by
  generalize result : Except.ok () = ended at generates
  cases generates with
  | breaks confined report => cases result
  | skips same told there report =>
    rw [report] at clean
    exact ⟨clean, same.confined, told.of_confined (same.confined : Confined (fun _ => False) _ _)
      (same.fileAt_eq _), there⟩
  | @completes outcome read made same ran saved report =>
    rw [report] at clean
    obtain ⟨earlier, none⟩ := List.append_eq_nil_iff.1 clean
    have seesRead := sees.confined (same.confined : Confined (fun _ => False) _ _)
    have generated := pipeline.bindingExport.generate_confined descriptors seesRead.tidy
    rw [ran] at generated
    have seesMade := seesRead.confined generated
    refine ⟨earlier, (same.confined.trans (generated.mono fun _ changes => .inl changes.endsIn)).trans
      (saved.confined.mono ?_), ?_, ?_⟩
    · rintro names rfl
      rw [FileTree.place, seesMade.workingDirectory]
      exact .inr rfl
    · obtain ⟨location, located, asFile⟩ := saved.located
      refine ⟨(pipeline.stampFor descriptors outcome).toText.toUTF8, ⟨location, located, asFile, ?_⟩, ?_⟩
      · rw [saved.confined.place_eq]
        exact saved.there
      · rw [Stamp.told?_toText, Pipeline.stampFor, none]
        rfl
    · intro path expected
      obtain ⟨writes, prepared, rendered, clears, wrote⟩ := BindingExport.generate_ok ran none seesRead.tidy
      have isWrite := expected
      rw [← BindingExport.paths_of_writes? rendered] at isWrite
      obtain ⟨write, member, rfl⟩ := List.mem_map.1 isWrite
      obtain ⟨location, located, asFile⟩ := wrote.located write member
      obtain ⟨content, left⟩ := @Output.left_isSome_of_mem prepared.workingDirectory _ _ member
      have found := wrote.there _ _ left
      rw [← wrote.confined.workingDirectory] at found
      refine exists?_mono saved.confined.workingDirectory saved.confined.directories
        (saved.confined.outside _ ?_) (exists?_of_fileAt located asFile found)
      intro same
      have isBinding : pipeline.bindingExport.Changes descriptors made.workingDirectory (made.place write.1) :=
        .inl ⟨write.1, expected, rfl⟩
      have isStamp : EndsIn "json" (made.place pipeline.stampPath) :=
        pipeline.placeFrom_stampPath made.workingDirectory
      rw [← same] at isStamp
      exact pipeline.bindingExport.dialect.not_endsIn_json isBinding.endsIn isStamp

theorem Uses.leaves_of_done (uses : ground.Uses pipeline) (suits : ground.Suits pipeline state.workspace.files)
    (names : pipeline.HasWholeNames state.workspace.files) (stocks : ground.Stocks state.store)
    (own : pipeline.HasOwnFingerprints state.workspace.files)
    (done : (pipeline.run .full state).1.stage = .done) :
    ∃ units externals descriptors compiled written,
      ground.Leaves pipeline state.workspace.files units externals descriptors compiled written
        (pipeline.run .full state).2.workspace.files (pipeline.run .full state).2.store := by
  obtain ⟨units, externals, descriptors, compiled, before, last, completes⟩ :=
    uses.completes_of_done suits.sees suits.quiet stocks own rfl done
  have compiles := completes.compiles
  have whole := suits.whole names compiles.confined completes.loads (fun artifact member => by
    obtain ⟨unit, _, name⟩ := List.mem_map.1 (compiles.live artifact member)
    rw [← name]
    exact unit.artifactName_whole) completes.selects
  obtain ⟨paths, wrote⟩ := completes.writes
  have writes := uses.write_confined (compiles.sees suits.sees) whole pipeline.project.settings.interfaces.only
  rw [wrote] at writes
  have sees := (compiles.sees suits.sees).confined writes
  have makes := uses.generates_confined completes.generates sees whole
  obtain ⟨_, generates, told, there⟩ := told_of_generates completes.generates sees completes.clean
  rw [completes.files, completes.store]
  exact ⟨units, externals, descriptors, compiled.workspace.files, Pipeline.files before, completes.discovers,
    compiles.confined, compiles.live, completes.fresh, completes.loads, completes.selects, whole,
    ⟨paths, wrote⟩, generates, (compiles.confined.trans writes).trans makes, told, there⟩

/-- A full run right after one that was done is done as well, if it can walk over the sources. It calls no adapter,
skips generation, and leaves every file as it is. -/
theorem run_again (uses : ground.Uses pipeline) (suits : ground.Suits pipeline state.workspace.files)
    (names : pipeline.HasWholeNames state.workspace.files) (stocks : ground.Stocks state.store)
    (own : pipeline.HasOwnFingerprints state.workspace.files)
    (apart : placeFrom ground.workingDirectory ground.interfaces ≠ placeFrom ground.workingDirectory ground.cache)
    (done : (pipeline.run .full state).1.stage = .done) {again : BuildState}
    (uncancelled : again.workspace.cancellation = .quiet)
    (files : again.workspace.files = (pipeline.run .full state).2.workspace.files)
    (live : again.store.live = (pipeline.run .full state).2.store.live)
    (opens : again.workspace.files.Opens pipeline.project.sourcesDir) :
    (pipeline.run .full again).1.stage = .done ∧ (pipeline.run .full again).1.generateSkipped = true ∧
      (pipeline.run .full again).1.compiled = [] ∧
      (pipeline.run .full again).2.store.counters.compiles = again.store.counters.compiles ∧
      (pipeline.run .full again).2.workspace.calls = again.workspace.calls ∧
      ∀ names, (pipeline.run .full again).2.workspace.files.fileAt names = again.workspace.files.fileAt names := by
  obtain ⟨units, externals, descriptors, compiled, written, leaves⟩ := uses.leaves_of_done suits names stocks own done
  rw [← files] at leaves
  have sees := suits.sees.confined leaves.confined
  have seesCompiled := suits.sees.confined leaves.compiles
  have quiet := leaves.confined.quiet suits.quiet
  obtain ⟨paths, writes⟩ := leaves.writes
  have wrote := uses.write_confined seesCompiled leaves.whole pipeline.project.settings.interfaces.only
  rw [writes] at wrote
  have kept : ∀ names, pipeline.interfaceExport.Changes descriptors pipeline.project.settings.interfaces.only
      again.workspace.files.workingDirectory names →
      again.workspace.files.fileAt names = written.fileAt names := by
    intro names changes
    apply leaves.generates.outside
    rintro (isBinding | isStamp)
    · exact pipeline.bindingExport.dialect.not_endsIn_json isBinding changes.endsIn
    · rw [sees.workingDirectory] at changes
      obtain ⟨name, placed⟩ := uses.placed_descriptors leaves.whole changes
      rw [isStamp] at placed
      obtain ⟨other, stamped⟩ := uses.placed_stamp
      rw [stamped] at placed
      exact apart (List.append_inj' placed rfl).1.symm
  obtain ⟨last, writesAgain, same⟩ := InterfaceExport.write_again seesCompiled.tidy
    (leaves.compiles.isInside suits.inside) writes leaves.generates.workingDirectory leaves.generates.directories
    kept (leaves.confined.isInside suits.inside) sees.tidy quiet
  have rewrites := uses.write_confined sees leaves.whole pipeline.project.settings.interfaces.only
  rw [writesAgain] at rewrites
  have lookup : again.store.lookup = (pipeline.run .full state).2.store.lookup :=
    funext fun name => Store.lookup_of_live_eq live name
  obtain ⟨isDone, skipped, none, counted, workspace⟩ := Pipeline.run_of_upToDate uncancelled
    ((suits.discover_iff leaves.confined opens).1 leaves.discovers)
    (fun artifact member => leaves.used artifact (live ▸ member))
    (fun asked member => by
      obtain ⟨request, isRequest, holds⟩ := leaves.fresh asked member
      exact ⟨request, isRequest, Store.holds_of_live_eq live holds⟩)
    ((suits.loadExternals_iff leaves.confined).1
      ((suits.loadExternals_iff leaves.compiles).2 leaves.loads))
    (by
      rw [lookup]
      exact leaves.selects)
    writesAgain (rewrites.quiet quiet) (leaves.told.of_confined rewrites (same _))
    fun path expected => exists?_mono rewrites.workingDirectory rewrites.directories (same _)
      (leaves.there path expected)
  refine ⟨isDone, skipped, none, counted, ?_, fun names => ?_⟩
  · rw [workspace]
  · rw [workspace]
    exact same names

/-- The project with one source is fit for runs that write as usual and need nothing from elsewhere. -/
theorem usual_suits {pipeline : Pipeline} (sources : pipeline.project.sourcesDir = ⟨"contracts"⟩)
    (none : pipeline.interfaceExport.externals = []) : usual.Suits pipeline Pipeline.oneSource.workspace.files := by
  have atRoot : Pipeline.oneSource.workspace.files.IsDirectoryAt [] := isDirectoryAt_iff.2 ⟨_, rfl⟩
  refine ⟨usual_sees, atRoot, rfl, ⟨fun place member => ?_, ?_⟩,
    fun other seen => overlooks_of_apart none (fun _ => False.elim) seen⟩
  · have way : wayFrom [] pipeline.project.sourcesDir = [[]] := by
      rw [sources]
      decide
    obtain rfl := List.mem_singleton.1 (way ▸ member)
    exact .inl atRoot
  · rw [none]
    exact fun pattern member => nomatch member

theorem wholeNames_of_none {pipeline : Pipeline} {tree : FileTree}
    (flatName : '/' ∉ pipeline.interfaceExport.flatName.toList) (none : pipeline.interfaceExport.externals = []) :
    pipeline.HasWholeNames tree := by
  refine ⟨flatName, fun externals loads => ?_⟩
  rw [InterfaceExport.loadExternals, none] at loads
  cases loads
  exact fun _ member => nomatch member

theorem run_again_oneSource :
    let first := Pipeline.selectsA.run .full Pipeline.oneSource
    let second := Pipeline.selectsA.run .full first.2
    second.1.stage = .done ∧ second.1.generateSkipped = true ∧ second.1.compiled = [] ∧
      second.2.workspace.calls = first.2.workspace.calls ∧
      ∀ names, second.2.workspace.files.fileAt names = first.2.workspace.files.fileAt names := by
  have ended : ((Pipeline.selectsA.runWithin 9 .full Pipeline.oneSource).any fun first =>
      decide (first.2.1.stage = .done) && decide (first.2.2.workspace.cancellation = .quiet) &&
        first.2.2.workspace.files.root.isTidy &&
        (first.2.2.workspace.files.filesBelow Pipeline.selectsA.project.sourcesDir).toOption.isSome) = true := by
    decide +kernel
  obtain ⟨⟨_, first⟩, ran, ended⟩ := (Option.any_eq_true ..).1 ended
  simp only [Bool.and_eq_true, decide_eq_true_eq] at ended
  obtain ⟨⟨⟨firstDone, uncancelled⟩, tidy⟩, goes⟩ := ended
  obtain ⟨_, _, rfl⟩ := Pipeline.run_of_runWithin ran
  have own : Pipeline.selectsA.HasOwnFingerprints Pipeline.oneSource.workspace.files :=
    Pipeline.ownFingerprints_of_single (Pipeline.discover_of_unitA (by decide +kernel) rfl)
  have uses : usual.Uses Pipeline.selectsA := .of_steady (by decide) (by decide) (by decide) rfl
  obtain ⟨isDone, skipped, none, _, calls, files⟩ := run_again uses (usual_suits (by decide) rfl)
    (wholeNames_of_none (by decide) rfl)
    ⟨by decide, fun _ member => (nomatch member), fun _ member => (nomatch member)⟩ own (by decide) firstDone
    uncancelled rfl rfl (opens_of_isSome (FileNode.tidy_of_isTidy tidy) goes)
  exact ⟨isDone, skipped, none, calls, files⟩

end Ground
end ContractBuild
