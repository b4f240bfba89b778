import ContractBuild.Proofs.Build.Idempotence
import ContractBuild.Proofs.Build.Incremental

/-!
The build of a project for which nothing was built yet. Unless it is disturbed, it comes to what the inputs
come to; so it leaves the descriptors and bindings that a run of a history leaves that is done.
-/
namespace ContractBuild
open FileTree FileAction ContractBuild.Action

def BuildError.Disturbs (cause : BuildError) : Prop :=
  Pipeline.OfSource cause ∨ ∃ failure, cause = .file failure

namespace Course

variable {course : Course} {pipeline : Pipeline} {mode : Mode} {clean : BuildState} {tree : FileTree}
  {units found : List SourceUnit} {externals descriptors : List Descriptor} {checked compiled : RunState}
  {results : List JobResult}

theorem Bare.since (bare : course.Bare clean) :
    course.ground.Since (fun artifact => '/' ∉ artifact.name.toList) clean.workspace.files clean :=
  ⟨.refl _, bare.directory, bare.live ▸ nofun⟩

/-- Behind compilation what is live is what the sources come to. -/
theorem Determines.lookup_eq (distinguishes : course.Distinguishes) (uses : course.Uses pipeline)
    (determines : course.Determines pipeline clean.workspace.files units externals descriptors)
    (bare : course.Bare clean) (own : pipeline.HasOwnFingerprints clean.workspace.files)
    (compiles : pipeline.Compiles ⟨.start, clean⟩ units checked compiled results)
    (live : ∀ artifact ∈ compiled.build.store.live, course.Good artifact)
    (all : ∀ result ∈ results, result.isOk = true) (name : String) :
    (compiled.build.store.lookup name).map Artifact.descriptor = course.product pipeline units name := by
  obtain ⟨since, slots⟩ := uses.toGround.since_compiles bare.sees bare.since compiles
  refine distinguishes.lookup_eq live since.live determines.counted ?_ name
  refine Pipeline.allFresh_of_runAll ?_ ?_ compiles.compiles all
  · exact Pipeline.distinct_works (nodup_of_discover determines.discovers) (own units determines.discovers)
  · rw [slots, bare.slots]
    exact nofun

/-- Where nothing was built, a run chooses the descriptors that the inputs come to, unless it is disturbed. -/
theorem Determines.front (apart : course.Apart) (distinguishes : course.Distinguishes) (uses : course.Uses pipeline)
    (determines : course.Determines pipeline clean.workspace.files units externals descriptors)
    (bare : course.Bare clean) (clears : course.Clears pipeline tree clean.workspace.files)
    (own : pipeline.HasOwnFingerprints clean.workspace.files) (exports : pipeline.wantsExport mode = true)
    (undisturbed : ∀ cause ∈ (pipeline.run mode clean).1.errors, ¬ cause.Disturbs) :
    ∃ before, pipeline.front mode ⟨.start, clean⟩ = (.ok (some descriptors), before) ∧
      before.report.errors = [] := by
  have ended : ∀ cause, (pipeline.front mode ⟨.start, clean⟩).1 = .error cause → ¬ cause.Disturbs :=
    fun cause failed => undisturbed cause (Pipeline.mem_errors_of_front failed)
  -- up to the generation of bindings only sources have errors that are noted
  have silent : (pipeline.front mode ⟨.start, clean⟩).2.report.errors = [] := by
    refine List.eq_nil_iff_forall_not_mem.2 fun cause member => ?_
    rcases (pipeline.front_fronts mode ⟨.start, clean⟩).errors cause member with earlier | ofSource
    · cases earlier
    · exact undisturbed cause (Pipeline.mem_errors_of_noted member) (.inl ofSource)
  have live := (((uses.upholds apart).front mode ⟨.start, clean⟩ fun units found => by
    cases (congrArg Prod.fst determines.discovers).symm.trans found
    exact determines.counted).1 bare.holds).live
  -- every other ending is at odds with what the inputs come to, or is reported as a disturbance
  have fronts := pipeline.front_fronts mode ⟨.start, clean⟩
  generalize pipeline.front mode ⟨.start, clean⟩ = fronted at ended silent live fronts
  obtain ⟨outcome, after⟩ := fronted
  cases fronts with
  | unread discovers => cases determines.discovers.symm.trans discovers
  | @unretained units read _ _ _ retains =>
    have used : ∀ artifact ∈ clean.store.live, artifact.name ∈ units.map SourceUnit.artifactName :=
      bare.live ▸ nofun
    have kept := Store.retain_of_used
      (show ∀ artifact ∈ (Pipeline.withFiles ⟨.start, clean⟩ read).build.store.live, _ from used)
    cases kept.symm.trans retains
  | uncompiled => exact absurd (.inl (.inr rfl)) (ended _ rfl)
  | @compiled found checked compiled results _ _ compiles extracts =>
    obtain ⟨read, _, _, discovers, _⟩ := compiles.discovers
    cases determines.discovers.symm.trans discovers
    have errors : (CompileSummary.ofResults results).errors = [] := by
      rw [extracts.errors, compiles.report] at silent
      exact (List.append_eq_nil_iff.1 silent).2
    obtain ⟨all, unblocked⟩ := CompileSummary.isOk_of_clean errors
    have selection : pipeline.selection results = pipeline.project.settings.interfaces.only := by
      rw [Pipeline.selection, unblocked, List.filter_eq_self.2 (by simp)]
    have since := (uses.toGround.since_compiles bare.sees bare.since compiles).1
    have loads := ((clears.self.confined since.confined).loadExternals_iff bare.sees (since.sees bare.sees)
      (since.confined.quiet clears.quiet)).1 determines.loads
    have chosen := determines.selects compiled.build.store.lookup
      (determines.lookup_eq distinguishes uses bare own compiles (extracts.store ▸ live) all)
    cases extracts with
    | cancelled => exact absurd (.inl (.inr rfl)) (ended _ rfl)
    | unwanted _ wants => cases exports.symm.trans wants
    | unloaded _ _ unloaded => cases loads.symm.trans unloaded
    | unselected _ _ loaded selects =>
      cases loads.symm.trans loaded
      rw [selection] at selects
      cases chosen.symm.trans selects
    | @unwritten _ _ failure => exact absurd (.inr ⟨failure, rfl⟩) (ended _ rfl)
    | written chooses _ ends =>
      cases loads.symm.trans chooses.loads
      have selects := chooses.selects
      rw [selection] at selects
      cases chosen.symm.trans selects
      obtain ⟨_, rfl, ⟨_, rfl, rfl⟩ | ⟨_, rfl, rfl⟩⟩ := ends
      · exact absurd (.inl (.inr rfl)) (ended _ rfl)
      · exact ⟨_, rfl, silent⟩

/-- While bindings are generated that can be rendered, all errors are those of files. -/
theorem Determines.ofFile (determines : course.Determines pipeline tree units externals descriptors)
    {before after : RunReport} (notes : pipeline.Notes descriptors before after) (silent : before.errors = []) :
    ∀ cause ∈ after.errors, ∃ failure, cause = .file failure := by
  intro cause noted
  cases notes with
  | nothing | skipped =>
    rw [silent] at noted
    cases noted
  | bindings ran =>
    rw [Pipeline.noteBindings, silent] at noted
    rcases BindingExport.failures_generate ran cause noted with ⟨descriptor, among, failed⟩ | ⟨failure, rfl⟩
    · obtain ⟨writes, rendered⟩ := determines.renders
      obtain ⟨code, renders⟩ := BindingExport.render_of_writes? rendered descriptor among
      cases renders.symm.trans failed
    · exact ⟨failure, rfl⟩

/-- Where nothing was built, a run is done, unless it is disturbed. -/
theorem Determines.done (apart : course.Apart) (distinguishes : course.Distinguishes) (uses : course.Uses pipeline)
    (determines : course.Determines pipeline clean.workspace.files units externals descriptors)
    (bare : course.Bare clean) (clears : course.Clears pipeline tree clean.workspace.files)
    (own : pipeline.HasOwnFingerprints clean.workspace.files) (exports : pipeline.wantsExport mode = true)
    (undisturbed : ∀ cause ∈ (pipeline.run mode clean).1.errors, ¬ cause.Disturbs) :
    (pipeline.run mode clean).1.stage = .done := by
  obtain ⟨before, fronted, silent⟩ := determines.front apart distinguishes uses bare clears own exports undisturbed
  refine Pipeline.done_iff.2 (List.eq_nil_iff_forall_not_mem.2 fun cause reported => ?_)
  have inside := undisturbed cause reported
  have ofStages := (Pipeline.errors_run reported).resolve_left fun cancelled => inside (.inl (.inr cancelled))
  rw [Pipeline.stages_eq, bind_of_ok fronted] at ofStages
  have generates := pipeline.generate_generates descriptors before
  dsimp only at ofStages
  rcases ofStages with broke | noted
  · rw [broke] at generates
    cases generates with
    | @breaks failure => exact inside (.inr ⟨failure, rfl⟩)
  · exact inside (.inr (determines.ofFile generates.notes silent cause noted))

/-- A history that counts a run counts the one where nothing was built. -/
theorem Determines.counts (uses : course.Uses pipeline)
    (determines : course.Determines pipeline clean.workspace.files units externals descriptors)
    (chooses : Layout.From pipeline mode clean descriptors) : course.Counts pipeline mode clean := by
  refine ⟨uses, fun found discovers => ?_, fun others chosen => ?_⟩
  · cases (congrArg Prod.fst determines.discovers).symm.trans discovers
    exact determines.counted
  · cases chooses.symm.trans chosen
    exact determines.generates

end Course
end ContractBuild
