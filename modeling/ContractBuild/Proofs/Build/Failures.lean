import ContractBuild.Proofs.Build.Bounded
import ContractBuild.Proofs.Build.Grounds
import ContractBuild.Proofs.Build.Results

/-!
Where the errors of a run come from. An error of the project as a whole ends a run in front of all that
it writes to the directories of descriptors and bindings.
-/
namespace ContractBuild
open FileTree FileAction ContractBuild.Action

def BuildError.isStructural : BuildError → Bool
  | duplicateArtifact .. | selection .. | ambiguous .. | invalidDescriptor .. => true
  | _ => false

/-! The errors of the store itself -/

namespace Store

theorem fails_onFiles {α : Type} (action : FileAction α) :
    Fails (fun cause => ∃ failure, cause = BuildError.file failure) (StoreAction.onFiles action) := by
  intro state cause failed
  unfold StoreAction.onFiles at failed
  dsimp only at failed
  revert failed
  rcases action state.workspace.files with ⟨failure | value, after⟩
  · intro failed
    exact ⟨failure, (Except.error.inj failed).symm⟩
  · exact fun failed => nomatch failed

theorem fails_invalidate (name : String) :
    Fails (fun cause => ∃ failure, cause = .file failure) (Store.invalidate name) := by
  unfold Store.invalidate
  refine Fails.bind (fun _ _ failed => nomatch failed) fun before => ?_
  dsimp only
  refine Fails.bind (fun _ _ failed => nomatch failed) fun _ => ?_
  refine Fails.bind (fun _ _ failed => nomatch failed) fun after => ?_
  split
  · exact Fails.bind (fails_onFiles _) fun _ => Fails.pure _
  · exact Fails.pure _

theorem fails_retain (inUse : List String) :
    Fails (fun cause => ∃ failure, cause = .file failure) (Store.retain inUse) := by
  have each : ∀ names, Fails (fun cause => ∃ failure, cause = BuildError.file failure)
      (Store.invalidateAll names) := by
    intro names
    induction names with
    | nil => exact Fails.pure _
    | cons name names ih => exact Fails.bind (fails_invalidate name) fun _ => ih
  unfold Store.retain
  refine Fails.bind (fun _ _ failed => nomatch failed) fun state => ?_
  exact Fails.bind (each _) fun _ => Fails.pure _

end Store

/-! The errors of each stage -/

theorem Pipeline.OfSource.not_isStructural {cause : BuildError} (ofSource : Pipeline.OfSource cause) :
    cause.isStructural = false := by
  rcases ofSource with failure | rfl
  · cases cause <;> first | rfl | cases failure
  · rfl

def BindingExport.OfBinding (cause : BuildError) : Prop :=
  (∃ unmappable, cause = .ofUnmappable unmappable) ∨ ∃ failure, cause = .file failure

theorem BindingExport.OfBinding.not_isStructural {cause : BuildError} (ofBinding : BindingExport.OfBinding cause) :
    cause.isStructural = false := by
  rcases ofBinding with ⟨unmappable, rfl⟩ | ⟨failure, rfl⟩ <;> rfl

namespace InterfaceExport

def OfExternal (cause : BuildError) : Prop :=
  (∃ failure, cause = .file failure) ∨ ∃ path reason, cause = .invalidDescriptor path reason

theorem fails_load (path : Path) : Fails OfExternal (Descriptor.load path) := by
  apply Fails.bind
  · exact fun tree cause failed => .inl (fails_telling BuildError.file _ tree cause failed)
  · intro text
    split
    · exact fun _ _ failed => .inr ⟨_, _, (Except.error.inj failed).symm⟩
    · dsimp only
      split
      · exact Fails.pure _
      · exact fun _ _ failed => .inr ⟨_, _, (Except.error.inj failed).symm⟩

theorem fails_readAll (found : List Descriptor) (paths : List Path) : Fails OfExternal (readAll found paths) := by
  induction paths generalizing found with
  | nil => exact Fails.pure _
  | cons path paths ih => exact Fails.bind (fails_load path) fun _ => ih _

theorem fails_loadFrom (exporter : InterfaceExport) (found : List Descriptor) (patterns : List String) :
    Fails OfExternal (exporter.loadFrom found patterns) := by
  induction patterns generalizing found with
  | nil => exact Fails.pure _
  | cons pattern patterns ih =>
    refine Fails.bind ?_ fun paths => Fails.bind (fails_readAll found paths) fun _ => ih _
    exact fun tree cause failed => .inl (fails_telling BuildError.file _ tree cause failed)

theorem error_of_select {exporter : InterfaceExport} {names : List String}
    {lookup : String → Option Artifact} {externals : List Descriptor} {cause : BuildError}
    (failed : exporter.select names lookup externals = .error cause) :
    (∃ missing, cause = .selection missing) ∨ ∃ ambiguity, cause = .ofAmbiguity ambiguity := by
  unfold select at failed
  dsimp only at failed
  split at failed
  · exact .inl ⟨_, (Except.error.inj failed).symm⟩
  · split at failed
    · split at failed
      · cases failed
      · next ambiguity _ => exact .inr ⟨ambiguity, (Except.error.inj failed).symm⟩
    · cases failed

end InterfaceExport

namespace BindingExport

theorem ofBinding_of_render {exporter : BindingExport} {descriptor : Descriptor} {cause : BuildError}
    (failed : exporter.render descriptor = .error cause) : OfBinding cause := by
  unfold render at failed
  split at failed
  · cases failed
  · next unmappable _ => exact .inl ⟨unmappable, (Except.error.inj failed).symm⟩

/-- A binding fails that cannot be rendered, or whose file cannot be written. -/
theorem failures_writeEach (exporter : BindingExport) (descriptors : List Descriptor) (tree : FileTree) :
    ∀ cause ∈ (exporter.writeEach descriptors tree).1.2,
      (∃ descriptor ∈ descriptors, exporter.render descriptor = .error cause) ∨ ∃ failure, cause = .file failure := by
  induction descriptors generalizing tree with
  | nil => exact fun _ member => nomatch member
  | cons descriptor descriptors ih =>
    have rest : ∀ cause ∈ (exporter.writeEach descriptors (exporter.writeBinding descriptor tree).2).1.2,
        (∃ other ∈ descriptor :: descriptors, exporter.render other = .error cause) ∨
          ∃ failure, cause = .file failure := fun cause member =>
      (ih _ cause member).imp_left fun ⟨other, among, failed⟩ => ⟨other, List.mem_cons_of_mem _ among, failed⟩
    rw [writeEach_cons]
    dsimp only
    split
    · exact rest
    · next failure failed =>
      intro cause member
      rcases List.mem_cons.1 member with rfl | later
      · rw [writeBinding_eq] at failed
        split at failed
        · next error rendered =>
          cases failed
          exact .inl ⟨descriptor, List.mem_cons_self, rendered⟩
        · split at failed
          · cases failed
          · next other _ _ => exact .inr ⟨other, (Except.error.inj failed).symm⟩
      · exact rest cause later

theorem failures_generate {exporter : BindingExport} {descriptors : List Descriptor} {tree after : FileTree}
    {outcome : BindingReport} (ran : exporter.generate descriptors tree = (.ok outcome, after)) :
    ∀ cause ∈ outcome.failures,
      (∃ descriptor ∈ descriptors, exporter.render descriptor = .error cause) ∨ ∃ failure, cause = .file failure := by
  rw [generate_eq] at ran
  obtain ⟨_, made, _, ran⟩ := bind_eq_ok ran
  have each := failures_writeEach exporter descriptors made
  rw [writeAll_eq] at ran
  dsimp only at ran
  split at ran
  · cases ran
    exact each
  · cases ran

end BindingExport

namespace Pipeline

variable {pipeline : Pipeline} {mode : Mode} {before after : RunState} {cause : BuildError}

theorem Notes.errors {descriptors : List Descriptor} {first last : RunReport}
    (notes : pipeline.Notes descriptors first last) :
    ∀ cause ∈ last.errors, cause ∈ first.errors ∨ BindingExport.OfBinding cause := by
  cases notes with
  | nothing => exact fun _ => .inl
  | skipped bindings => exact fun _ => .inl
  | bindings ran =>
    intro cause member
    rcases List.mem_append.1 member with earlier | failure
    · exact .inl earlier
    · refine .inr ?_
      rcases BindingExport.failures_generate ran cause failure with ⟨_, _, failed⟩ | ofFile
      · exact BindingExport.ofBinding_of_render failed
      · exact .inr ofFile

theorem Extracts.errors {results : List JobResult} {compiled : RunState}
    {outcome : Except BuildError (Option (List Descriptor))}
    (extracts : pipeline.Extracts mode results compiled outcome after) :
    after.report.errors = compiled.report.errors := by
  cases extracts with
  | cancelled | unwanted | unloaded | unselected | unwritten => rfl
  | written _ _ ends =>
    obtain ⟨last, rfl, ⟨_, _, rfl⟩ | ⟨_, _, rfl⟩⟩ := ends <;> rfl

/-- Up to the generation of bindings only sources have errors of their own. -/
theorem Fronts.errors {outcome : Except BuildError (Option (List Descriptor))}
    (fronts : pipeline.Fronts mode before outcome after) :
    ∀ cause ∈ after.report.errors, cause ∈ before.report.errors ∨ OfSource cause := by
  cases fronts with
  | unread | unretained | uncompiled => exact fun _ => .inl
  | @compiled units checked compiled results _ _ compiles extracts =>
    obtain ⟨_, _, _, _, _, _, rfl⟩ := compiles.discovers
    intro cause member
    rw [extracts.errors, compiles.report] at member
    rcases List.mem_append.1 member with earlier | ofSource
    · exact .inl earlier
    · exact .inr ((tallies_of_runAll compiles.compiles).ofSource cause ofSource)

/-- Besides a cancellation a run reports what its stages noted and the error that ended them. -/
theorem errors_run {state : BuildState} (told : cause ∈ (pipeline.run mode state).1.errors) :
    cause = .cancelled ∨ (pipeline.stages mode ⟨.start, state⟩).1 = .error cause ∨
      cause ∈ (pipeline.stages mode ⟨.start, state⟩).2.report.errors := by
  have kept : ∀ (report : RunReport) cancelled, cause ∈ (report.finish cancelled).errors →
      cause = .cancelled ∨ cause ∈ report.errors := by
    intro report cancelled member
    cases cancelled with
    | false => exact .inr member
    | true =>
      rcases List.mem_append.1 member with earlier | last
      · exact .inr (List.mem_filter.1 earlier).1
      · exact .inl (List.mem_singleton.1 last)
  rw [run_eq] at told
  refine (kept _ _ told).imp_right fun member => ?_
  split at member
  · exact .inr member
  · next ended =>
    rcases List.mem_append.1 member with earlier | last
    · exact .inr earlier
    · rw [ended, List.mem_singleton.1 last]
      exact .inl rfl

/-- An error of the project as a whole ends the run in front of the generation of bindings. -/
theorem front_of_structural {state : BuildState} (structural : cause.isStructural = true)
    (told : cause ∈ (pipeline.run mode state).1.errors) :
    ∃ after, pipeline.front mode ⟨.start, state⟩ = (.error cause, after) ∧
      pipeline.stages mode ⟨.start, state⟩ = (.error cause, after) := by
  have other : cause ≠ .cancelled := by
    rintro rfl
    cases structural
  have ofStages := (errors_run told).resolve_left other
  have fronts := pipeline.front_fronts mode ⟨.start, state⟩
  rw [stages_eq] at ofStages ⊢
  have silent : ∀ {cause}, cause ∈ (pipeline.front mode ⟨.start, state⟩).2.report.errors →
      cause.isStructural = false := by
    intro cause member
    rcases fronts.errors cause member with earlier | ofSource
    · cases earlier
    · exact ofSource.not_isStructural
  cases ran : pipeline.front mode ⟨.start, state⟩ with
  | mk outcome after =>
    rw [ran] at silent
    cases outcome with
    | error first =>
      rw [bind_of_error ran] at ofStages ⊢
      rcases ofStages with same | member
      · cases same
        exact ⟨after, rfl, rfl⟩
      · rw [silent member] at structural
        cases structural
    | ok chosen =>
      rw [bind_of_ok ran] at ofStages
      exfalso
      cases chosen with
      | none =>
        rcases ofStages with ended | member
        · cases ended
        · rw [silent member] at structural
          cases structural
      | some descriptors =>
        have generates := pipeline.generate_generates descriptors after
        dsimp only at ofStages
        rcases ofStages with ended | member
        · rw [ended] at generates
          cases generates
          cases structural
        · rcases generates.notes.errors cause member with earlier | ofBinding
          · rw [silent earlier] at structural
            cases structural
          · rw [ofBinding.not_isStructural] at structural
            cases structural

/-- A run up to an error of the project as a whole: two sources of one name end it before it changes
anything, the other errors before it writes but what it stores. -/
theorem Fronts.secluded {ground : Ground} (uses : ground.Uses pipeline) {first : FileTree}
    (sees : ground.Sees first)
    {state : BuildState} (start : ground.Since (fun artifact => '/' ∉ artifact.name.toList) first state)
    (structural : cause.isStructural = true) (fronts : pipeline.Fronts mode ⟨.start, state⟩ (.error cause) after) :
    (state.workspace.files.SameFiles (files after) ∧ after.build.store = state.store) ∨
      Confined ground.Stores first (files after) ∧ ∀ name first second, cause ≠ .duplicateArtifact name first second := by
  cases fronts with
  | unread discovers =>
    have reads := reads_discover pipeline state.workspace.files
    rw [show pipeline.discover state.workspace.files = _ from discovers] at reads
    exact .inl ⟨reads, rfl⟩
  | unretained discovers retains =>
    obtain ⟨failure, rfl⟩ := Store.fails_retain _ _ cause (by rw [retains])
    cases structural
  | uncompiled => cases structural
  | @compiled units checked compiled results _ _ compiles extracts =>
    have stored := (uses.since_compiles sees start compiles).1.stores
    have loaded := InterfaceExport.reads_loadExternals pipeline.interfaceExport (files compiled)
    right
    cases extracts with
    | cancelled => cases structural
    | unloaded _ _ loads =>
      rw [loads] at loaded
      refine ⟨stored.trans loaded.confined, ?_⟩
      rintro name one two rfl
      rcases InterfaceExport.fails_loadFrom _ _ _ _ _ (congrArg Prod.fst loads) with ⟨_, other⟩ | ⟨_, _, other⟩
      · cases other
      · cases other
    | unselected _ _ loads selects =>
      rw [loads] at loaded
      refine ⟨stored.trans loaded.confined, ?_⟩
      rintro name one two rfl
      rcases InterfaceExport.error_of_select selects with ⟨_, other⟩ | ⟨_, other⟩
      · cases other
      · cases other
    | unwritten => cases structural
    | written _ _ ends =>
      obtain ⟨_, _, ⟨_, ended, _⟩ | ⟨_, ended, _⟩⟩ := ends
      · cases ended
        cases structural
      · cases ended

end Pipeline

namespace Ground

def Exports (ground : Ground) (names : List String) : Prop :=
  (∃ directory ∈ [ground.interfaces, ground.bindings], placeFrom ground.workingDirectory directory <+: names) ∨
    names = placeFrom ground.workingDirectory (Stamp.pathIn ground.cache)

/-- The directories of descriptors and bindings do not overlap the cache, nor anything that adapters write;
neither is the stamp theirs. -/
structure Secludes (ground : Ground) : Prop where
  apart : ∀ directory ∈ [ground.interfaces, ground.bindings],
    ¬ placeFrom ground.workingDirectory directory <+: placeFrom ground.workingDirectory ground.cache ∧
      ¬ placeFrom ground.workingDirectory ground.cache <+: placeFrom ground.workingDirectory directory
  scratch : ∀ names, ground.scratch names → ¬ ground.Exports names

theorem place_artifactsDir (ground : Ground) :
    placeFrom ground.workingDirectory (Store.artifactsDir ground.cache) =
      placeFrom ground.workingDirectory ground.cache ++ ["artifacts"] :=
  placeFrom_join_plain _ _ ⟨by decide, by decide, by decide, by decide⟩

/-- Nothing that is stored leaves the build. -/
theorem Secludes.not_exports {ground : Ground} (secludes : ground.Secludes) {names : List String}
    (stores : ground.Stores names) : ¬ ground.Exports names := by
  rcases stores with ⟨name, rfl, _⟩ | scratch
  · rw [place_artifactsDir, List.append_assoc]
    rintro (⟨directory, member, below⟩ | stamp)
    · obtain ⟨above, beside⟩ := secludes.apart directory member
      rcases List.prefix_or_prefix_of_prefix below (List.prefix_append _ _) with inside | outside
      · exact above inside
      · exact beside outside
    · have stampPlace : placeFrom ground.workingDirectory (Stamp.pathIn ground.cache) =
          placeFrom ground.workingDirectory ground.cache ++ ["stamps.json"] :=
        placeFrom_join_plain _ _ ⟨by decide, by decide, by decide, by decide⟩
      rw [stampPlace] at stamp
      have lengths := congrArg List.length (List.append_cancel_left stamp)
      simp at lengths
  · exact secludes.scratch names scratch

/-- An error of the project as a whole leaves every descriptor, every binding and the stamp as they were. Two
sources of one name leave the store as it was, too. -/
theorem exports_of_structural {ground : Ground} {pipeline : Pipeline} {mode : Mode} {state : BuildState}
    {cause : BuildError} (uses : ground.Uses pipeline) (secludes : ground.Secludes)
    (sees : ground.Sees state.workspace.files)
    (directory : state.store.directory = Store.artifactsDir ground.cache)
    (whole : ∀ artifact ∈ state.store.live, '/' ∉ artifact.name.toList)
    (structural : cause.isStructural = true) (told : cause ∈ (pipeline.run mode state).1.errors) :
    (∀ names, ground.Exports names →
      (pipeline.run mode state).2.workspace.files.fileAt names = state.workspace.files.fileAt names) ∧
    ∀ name first second, cause = .duplicateArtifact name first second →
      (pipeline.run mode state).2.store = state.store ∧
      ∀ names, (pipeline.run mode state).2.workspace.files.fileAt names = state.workspace.files.fileAt names := by
  obtain ⟨after, fronted, staged⟩ := Pipeline.front_of_structural structural told
  rw [Pipeline.files_run, Pipeline.store_run, staged]
  have fronts := pipeline.front_fronts mode ⟨.start, state⟩
  rw [fronted] at fronts
  rcases fronts.secluded uses sees ⟨.refl _, directory, whole⟩ structural with ⟨same, store⟩ | ⟨stored, other⟩
  · exact ⟨fun names _ => same.fileAt_eq names, fun _ _ _ _ => ⟨store, same.fileAt_eq⟩⟩
  · refine ⟨fun names exported => stored.outside names fun stores => secludes.not_exports stores exported, ?_⟩
    exact fun name first second same => absurd same (other name first second)

/-- A selection that names no source leaves the descriptor and the stamp of an earlier build. -/
theorem exports_of_unknown_selection :
    let pipeline := { Pipeline.vyperOnly with project.settings.interfaces.only := ["B"] }
    let state : BuildState :=
      ⟨.ofFiles ⟨.directory [
          (".kiln", .directory [("cache", .directory [
            ("artifacts", .emptyDirectory), ("stamps.json", .file "null".toUTF8)])]),
          ("abis", .directory [("B.json", .file "[]".toUTF8)]),
          ("contracts", .directory [("A.vy", .file "[]".toUTF8)])], [], none⟩,
        ⟨⟨".kiln/cache/artifacts"⟩, [], [], ⟨0, 0, 0, 0⟩⟩⟩
    let ended := pipeline.run .full state
    ended.1.errors = [.selection ["B"]] ∧ ended.1.compiled = ["A"] ∧
      (ended.2.workspace.files.fileAt [".kiln", "cache", "artifacts", "A.json"]).isSome = true ∧
      ended.2.workspace.files.fileAt ["abis", "B.json"] = some "[]".toUTF8 ∧
      ended.2.workspace.files.fileAt [".kiln", "cache", "stamps.json"] = some "null".toUTF8 := by
  intro pipeline state ended
  have ran : ((pipeline.concludesWithin 9 .full state).any fun ended =>
      decide (ended.1.errors = [.selection ["B"]]) && decide (ended.1.compiled = ["A"]) &&
        (ended.2.workspace.files.fileAt [".kiln", "cache", "artifacts", "A.json"]).isSome) = true := by
    decide +kernel
  obtain ⟨last, within, ran⟩ := (Option.any_eq_true ..).1 ran
  obtain rfl : ended = last := Pipeline.run_of_concludesWithin within
  rw [Bool.and_eq_true, Bool.and_eq_true, decide_eq_true_eq, decide_eq_true_eq] at ran
  obtain ⟨⟨errors, compiled⟩, stored⟩ := ran
  have uses : usual.Uses pipeline := .of_steady (by decide) (by decide) (by decide) rfl
  have sees : usual.Sees state.workspace.files := ⟨rfl, FileNode.tidy_of_isTidy (by decide +kernel)⟩
  have secludes : usual.Secludes := ⟨by decide +kernel, fun _ => False.elim⟩
  obtain ⟨kept, _⟩ := exports_of_structural uses secludes sees (by decide) (fun _ member => nomatch member)
    (rfl : (BuildError.selection ["B"]).isStructural = true)
    (show BuildError.selection ["B"] ∈ (pipeline.run .full state).1.errors from errors ▸ List.mem_cons_self)
  refine ⟨errors, compiled, stored, ?_, ?_⟩
  · exact kept _ (.inl ⟨⟨"abis"⟩, List.mem_cons_self, by decide +kernel⟩)
  · exact kept _ (.inr (by decide +kernel))

end Ground
end ContractBuild
