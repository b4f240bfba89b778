import ContractBuild.Proofs.Build.Bindings
import ContractBuild.Proofs.Build.Stages
import ContractBuild.Proofs.FileTree.Views

/-!
The generating stage of a run. Bindings that the stamp vouches for are left alone; otherwise they
are made anew, and the stamp is saved behind them.
-/
namespace ContractBuild
open FileTree FileAction ContractBuild.Action

namespace Stamp

def at? (tree : FileTree) (place : List String) : Option String :=
  (tree.fileAt place).bind told?

theorem at?_of_fileAt_eq {before after : FileTree} {place : List String}
    (same : after.fileAt place = before.fileAt place) : at? after place = at? before place := by
  rw [at?, at?, same]

def ToldAt (tree : FileTree) (path : Path) (digest : String) : Prop :=
  ∃ content, tree.Reveals path content ∧ told? content = some digest

theorem ToldAt.at? {tree : FileTree} {path : Path} {digest : String} (told : ToldAt tree path digest) :
    Stamp.at? tree (tree.place path) = some digest := by
  obtain ⟨content, ⟨_, _, _, there⟩, tells⟩ := told
  rw [Stamp.at?, there, Option.bind_some, tells]

/-- As long as its file stays, a stamp tells what it told. -/
theorem ToldAt.of_confined {scope : List String → Prop} {before after : FileTree} {path : Path} {digest : String}
    (told : ToldAt before path digest) (confined : Confined scope before after)
    (file : after.fileAt (before.place path) = before.fileAt (before.place path)) : ToldAt after path digest := by
  obtain ⟨content, ⟨location, located, asFile, there⟩, tells⟩ := told
  refine ⟨content, ⟨location, confined.locate located, asFile, ?_⟩, tells⟩
  rw [confined.place_eq, file]
  exact there

/-- A stamp that is loaded is the one that the path leads to, or says nothing. -/
theorem load_cases (path : Path) (tree : FileTree) :
    ∃ stamp after, load path tree = (.ok stamp, after) ∧ tree.SameFiles after ∧
      ∀ digest, stamp.generation = some digest → ToldAt tree path digest := by
  obtain ⟨after, same, ran | ⟨content, ran, read⟩⟩ := Output.existing?_cases path tree
  · exact ⟨⟨none⟩, after, by rw [load, bind_of_ok ran]; rfl, same, fun _ told => nomatch told⟩
  · refine ⟨((String.fromUTF8? content).bind ofText?).getD ⟨none⟩, after,
      by rw [load, bind_of_ok ran]; rfl, same, ?_⟩
    intro digest told
    refine ⟨content, reveals_of_readBytes read, ?_⟩
    rw [told?]
    cases found : (String.fromUTF8? content).bind ofText? with
    | none => rw [found] at told; cases told
    | some stamp => rw [found] at told; exact told

theorem ToldAt.load {tree : FileTree} {path : Path} {digest : String} (told : ToldAt tree path digest)
    (quiet : tree.faultAfter = none) : load path tree = (.ok ⟨some digest⟩, tree) := by
  obtain ⟨content, reveals, tells⟩ := told
  have found : Output.existing? path tree = (.ok (some content), tree) := by
    unfold Output.existing?
    rw [reveals.readBytes_eq quiet]
  rw [Stamp.load, bind_of_ok found]
  rw [told?] at tells
  cases decoded : (String.fromUTF8? content).bind ofText? with
  | none =>
    rw [decoded] at tells
    cases tells
  | some stamp =>
    rw [decoded] at tells
    show (Except.ok (((String.fromUTF8? content).bind ofText?).getD ⟨none⟩), tree) = _
    rw [decoded]
    cases stamp
    cases tells
    rfl

theorem save_apply (stamp : Stamp) (path : Path) (tree : FileTree) :
    stamp.save path tree =
      match Output.writeIfChanged path stamp.toText tree with
      | (.ok _, after) => (.ok (), after)
      | (.error cause, after) => (.error cause, after) := by
  unfold save
  rw [bind_apply]
  rcases Output.writeIfChanged path stamp.toText tree with ⟨cause | status, after⟩ <;> rfl

end Stamp

namespace Pipeline
open Output

def files (run : RunState) : FileTree :=
  run.build.workspace.files

theorem placeFrom_stampPath (pipeline : Pipeline) (workingDirectory : List String) :
    EndsIn "json" (placeFrom workingDirectory pipeline.stampPath) :=
  suffix_json.placeFrom_endsIn workingDirectory pipeline.project.cacheDir "stamps"

def stampFor (pipeline : Pipeline) (descriptors : List Descriptor) (outcome : BindingReport) : Stamp :=
  ⟨if outcome.failures.isEmpty then some (pipeline.bindingExport.digest descriptors) else none⟩

def noteBindings (outcome : BindingReport) (report : RunReport) : RunReport :=
  { report with
    bindings := outcome.outputs.map (·.path)
    errors := report.errors ++ outcome.failures }

inductive Generates (pipeline : Pipeline) (descriptors : List Descriptor) (before after : RunState) :
    Except BuildError Unit → Prop
  | skips (same : (files before).SameFiles (files after))
    (told : Stamp.ToldAt (files before) pipeline.stampPath (pipeline.bindingExport.digest descriptors))
    (there : ∀ path ∈ pipeline.bindingExport.expectedFiles (descriptors.map (·.name)),
      (files after).exists? path = true)
    (report : after.report = { before.report with
      bindings := (descriptors.map (·.name)).map pipeline.bindingExport.bindingPath
      generateSkipped := true }) :
    Generates pipeline descriptors before after (.ok ())
  | breaks {failure : FileError}
    (confined : (files before).root.Tidy →
      Confined (pipeline.bindingExport.Changes descriptors (files before).workingDirectory) (files before)
        (files after))
    (report : after.report = before.report ∨ ∃ outcome read made,
      pipeline.bindingExport.generate descriptors read = (.ok outcome, made) ∧
      after.report = noteBindings outcome before.report) :
    Generates pipeline descriptors before after (.error (.file failure))
  | completes {outcome : BindingReport} {read made : FileTree}
    (same : (files before).SameFiles read)
    (ran : pipeline.bindingExport.generate descriptors read = (.ok outcome, made))
    (saved : Stored made pipeline.stampPath
      (pipeline.stampFor descriptors outcome).toText.toUTF8 (files after))
    (report : after.report = noteBindings outcome before.report) :
    Generates pipeline descriptors before after (.ok ())

/-- No error goes away in a generation. -/
theorem Generates.errors_eq_nil {pipeline : Pipeline} {descriptors : List Descriptor} {before after : RunState}
    (generates : pipeline.Generates descriptors before after (.ok ())) (clean : after.report.errors = []) :
    before.report.errors = [] := by
  generalize result : Except.ok () = ended at generates
  cases generates with
  | breaks confined report => cases result
  | skips same told there report =>
    rw [report] at clean
    exact clean
  | completes same ran saved report =>
    rw [report] at clean
    exact (List.append_eq_nil_iff.1 clean).1

inductive Notes (pipeline : Pipeline) (descriptors : List Descriptor) (before : RunReport) : RunReport → Prop
  | nothing : Notes pipeline descriptors before before
  | skipped (bindings : List Path) :
    Notes pipeline descriptors before { before with bindings, generateSkipped := true }
  | bindings {outcome : BindingReport} {read made : FileTree}
    (ran : pipeline.bindingExport.generate descriptors read = (.ok outcome, made)) :
    Notes pipeline descriptors before (noteBindings outcome before)

theorem Generates.notes {pipeline : Pipeline} {descriptors : List Descriptor} {before after : RunState}
    {outcome : Except BuildError Unit} (generates : pipeline.Generates descriptors before after outcome) :
    pipeline.Notes descriptors before.report after.report := by
  cases generates with
  | skips same told there report =>
    rw [report]
    exact .skipped _
  | breaks confined report =>
    rcases report with report | ⟨outcome, read, made, ran, report⟩
    · rw [report]
      exact .nothing
    · rw [report]
      exact .bindings ran
  | completes same ran saved report =>
    rw [report]
    exact .bindings ran

def withFiles (run : RunState) (tree : FileTree) : RunState :=
  { run with build := { run.build with workspace := { run.build.workspace with files := tree } } }

def noted (run : RunState) (outcome : BindingReport) (tree : FileTree) : RunState :=
  { withFiles run tree with report := noteBindings outcome run.report }

theorem onFiles_eq {α : Type} {action : BuildAction α} {run : RunState} {tree : FileTree}
    {outcome : Except BuildError α} (ran : action (files run) = (outcome, tree)) :
    RunAction.onFiles action run = (outcome, withFiles run tree) := by
  unfold RunAction.onFiles
  rw [show action run.build.workspace.files = (outcome, tree) from ran]
  rfl

theorem generate_generates (pipeline : Pipeline) (descriptors : List Descriptor) (run : RunState) :
    pipeline.Generates descriptors run (pipeline.generate descriptors run).2
      (pipeline.generate descriptors run).1 := by
  obtain ⟨stamp, read, loaded, same, told⟩ := Stamp.load_cases pipeline.stampPath (files run)
  have looked : RunAction.onFiles (Stamp.load pipeline.stampPath) run = (.ok stamp, withFiles run read) := by
    apply onFiles_eq
    rw [inBuild_apply, loaded]
  unfold generate
  dsimp only
  rw [bind_of_ok looked, bind_of_ok (get_apply _)]
  split
  · next fresh =>
    rw [Bool.and_eq_true, decide_eq_true_eq] at fresh
    exact .skips same (told _ fresh.1) (List.all_eq_true.1 fresh.2) rfl
  · cases ran : pipeline.bindingExport.generate descriptors read with
    | mk outcome made =>
      have went : RunAction.onFiles (pipeline.bindingExport.generate descriptors)
          (withFiles run read) = (outcome, withFiles run made) := onFiles_eq ran
      have confined : (files run).root.Tidy →
          Confined (pipeline.bindingExport.Changes descriptors (files run).workingDirectory)
            (files run) made := by
        intro tidy
        have tidyRead : read.root.Tidy := by
          rw [same.root]
          exact tidy
        have made := pipeline.bindingExport.generate_confined descriptors tidyRead
        rw [ran, same.workingDirectory] at made
        exact same.confined.trans made
      cases outcome with
      | error cause =>
        obtain ⟨failure, rfl⟩ := pipeline.bindingExport.fails_generate descriptors read cause (by rw [ran])
        rw [bind_of_error went]
        exact .breaks confined (.inl rfl)
      | ok outcome =>
        have reported : RunAction.report (noteBindings outcome) (withFiles run made) =
            (.ok (), noted run outcome made) := rfl
        rw [bind_of_ok went]
        show Generates _ _ _ ((RunAction.report (noteBindings outcome) >>= _ : RunAction Unit)
            (withFiles run made)).2 ((RunAction.report (noteBindings outcome) >>= _ : RunAction Unit)
            (withFiles run made)).1
        rw [bind_of_ok reported]
        show Generates _ _ _
          (RunAction.onFiles (liftM ((pipeline.stampFor descriptors outcome).save pipeline.stampPath))
            (noted run outcome made)).2
          (RunAction.onFiles (liftM ((pipeline.stampFor descriptors outcome).save pipeline.stampPath))
            (noted run outcome made)).1
        have saving := Stamp.save_apply (pipeline.stampFor descriptors outcome) pipeline.stampPath made
        cases written : writeIfChanged pipeline.stampPath
            (pipeline.stampFor descriptors outcome).toText made with
        | mk status last =>
          rw [written] at saving
          cases status with
          | error cause =>
            have failed : RunAction.onFiles (liftM ((pipeline.stampFor descriptors outcome).save
                pipeline.stampPath)) (noted run outcome made) =
                (.error (.file cause), noted run outcome last) := by
              apply onFiles_eq
              show (liftM (Stamp.save _ _) : BuildAction Unit) made = _
              rw [inBuild_apply, saving]
            rw [failed]
            refine .breaks (fun tidy => (confined tidy).trans ?_) (.inr ⟨outcome, read, made, ran, rfl⟩)
            exact (writeIfChanged_error written).mono fun _ => False.elim
          | ok status =>
            have saved : RunAction.onFiles (liftM ((pipeline.stampFor descriptors outcome).save
                pipeline.stampPath)) (noted run outcome made) =
                (.ok (), noted run outcome last) := by
              apply onFiles_eq
              show (liftM (Stamp.save _ _) : BuildAction Unit) made = _
              rw [inBuild_apply, saving]
            rw [saved]
            exact .completes same ran (writeIfChanged_ok written) rfl

def SameStore (before after : RunState) : Prop :=
  after.build.store = before.build.store

/-- Generating bindings leaves the store alone. -/
theorem store_generate (pipeline : Pipeline) (descriptors : List Descriptor) (run : RunState) :
    (pipeline.generate descriptors run).2.build.store = run.build.store := by
  have bind : ∀ {α β : Type} {action : RunAction α} {next : α → RunAction β}, Keeps SameStore action →
      (∀ value, Keeps SameStore (next value)) → Keeps SameStore (action >>= next) := by
    intro α β action next first second
    refine Keeps.bind ?_ first second
    exact fun earlier later => later.trans earlier
  have onFiles : ∀ {α : Type} (action : BuildAction α), Keeps SameStore (RunAction.onFiles action) :=
    fun _ _ => rfl
  have report : ∀ change : RunReport → RunReport, Keeps SameStore (RunAction.report change) := fun _ _ => rfl
  have got : Keeps SameStore (get : RunAction RunState) := fun _ => rfl
  have kept : Keeps SameStore (pipeline.generate descriptors) := by
    refine bind (onFiles _) fun stamp => bind got fun state => ?_
    dsimp only
    split
    · exact report _
    · exact bind (onFiles _) fun outcome => bind (report _) fun _ => onFiles _
  exact kept run

/-! The state behind a run -/

theorem files_run (pipeline : Pipeline) (mode : Mode) (state : BuildState) :
    (pipeline.run mode state).2.workspace.files = files (pipeline.stages mode ⟨.start, state⟩).2 := by
  unfold run
  rcases pipeline.stages mode ⟨.start, state⟩ with ⟨cause | ⟨⟩, last⟩ <;> rfl

theorem store_run (pipeline : Pipeline) (mode : Mode) (state : BuildState) :
    (pipeline.run mode state).2.store = (pipeline.stages mode ⟨.start, state⟩).2.build.store := by
  unfold run
  rcases pipeline.stages mode ⟨.start, state⟩ with ⟨cause | ⟨⟩, last⟩ <;> rfl

theorem generateSkipped_run (pipeline : Pipeline) (mode : Mode) (state : BuildState) :
    (pipeline.run mode state).1.generateSkipped =
      (pipeline.stages mode ⟨.start, state⟩).2.report.generateSkipped := by
  have finished : ∀ (report : RunReport) cancelled,
      (report.finish cancelled).generateSkipped = report.generateSkipped := by
    intro report cancelled
    unfold RunReport.finish
    cases cancelled <;> rfl
  unfold run
  rcases pipeline.stages mode ⟨.start, state⟩ with ⟨cause | ⟨⟩, last⟩
  all_goals exact finished _ _

end Pipeline
end ContractBuild
