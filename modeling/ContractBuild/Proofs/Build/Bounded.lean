import ContractBuild.Proofs.Build.Endings
import ContractBuild.Proofs.Build.Grounds

/-!
Runs that come to their end within so many pieces. The pieces of a pool are counted down by a
bound, so a bounded run can be evaluated; where the bound suffices it is the run itself.
-/
namespace ContractBuild
open FileTree ContractBuild.Action

namespace Pool

def runWithin : Nat → Nat → Pool → BuildState → Option (Pool × BuildState)
  | 0, position, pool, state =>
    match pool.next? state position with
    | none => some (pool, state)
    | some _ => none
  | bound + 1, position, pool, state =>
    match pool.next? state position with
    | none => some (pool, state)
    | some found => runWithin bound (found + 1) (pool.advance state found).1 (pool.advance state found).2

theorem runFrom_of_runWithin {bound position : Nat} {pool : Pool} {state : BuildState}
    {last : Pool × BuildState} (within : pool.runWithin bound position state = some last) :
    pool.runFrom position state = last := by
  induction bound generalizing position pool state with
  | zero =>
    rw [runFrom]
    cases next : pool.next? state position with
    | none =>
      rw [runWithin, next] at within
      cases within
      split
      · rfl
      · next enabled => cases enabled
    | some found =>
      rw [runWithin, next] at within
      cases within
  | succ bound ih =>
    rw [runFrom]
    rw [runWithin] at within
    split at within
    · next next =>
      cases within
      split
      · rfl
      · next enabled =>
        rw [next] at enabled
        cases enabled
    · next found next =>
      split
      · next rest =>
        rw [next] at rest
        cases rest
      · next other enabled =>
        rw [next] at enabled
        cases enabled
        exact ih within

end Pool

namespace Pipeline

def frontWithin (bound : Nat) (pipeline : Pipeline) (mode : Mode) (before : RunState) :
    Option (Except BuildError (Option (List Descriptor)) × RunState) :=
  match pipeline.lead before with
  | (.error cause, after) => some (.error cause, after)
  | (.ok units, checked) =>
    let limit := max pipeline.project.settings.build.concurrency 1
    match (Pool.ofWork limit ((units.map pipeline.jobFor).map Job.work)).runWithin bound 0 checked.build with
    | none => none
    | some (pool, build) =>
      let results := Job.results (units.map pipeline.jobFor) pool
      some (pipeline.behind mode (CompileSummary.ofResults results).blocked
        ⟨noteCompiled results checked.report, build⟩)

variable {bound : Nat} {pipeline : Pipeline} {mode : Mode}

/-- A run that comes to the end of its pieces within the bound compiles. -/
theorem compiles_of_runWithin {before checked : RunState} {units : List SourceUnit} {pool : Pool} {build : BuildState}
    (led : pipeline.lead before = (.ok units, checked))
    (ended : (Pool.ofWork (max pipeline.project.settings.build.concurrency 1)
      ((units.map pipeline.jobFor).map Job.work)).runWithin bound 0 checked.build = some (pool, build)) :
    pipeline.Compiles before units checked
      ⟨noteCompiled (Job.results (units.map pipeline.jobFor) pool) checked.report, build⟩
      (Job.results (units.map pipeline.jobFor) pool) := by
  refine ⟨?_, ?_, rfl⟩
  · rw [lead_apply] at led
    split at led
    · cases led
    · next found tree discovers =>
      split at led
      · cases led
      · next evicted retained retains =>
        by_cases sees : SeesCancelled { entered before .compiling with build := retained }
        · rw [if_pos (show (Workspace.isCancelled retained.workspace).1 = true from sees)] at led
          cases led
        · rw [if_neg (show ¬ (Workspace.isCancelled retained.workspace).1 = true from sees)] at led
          cases led
          exact ⟨tree, evicted, retained, discovers, retains, sees, rfl⟩
  · unfold Job.runAll Pool.run
    rw [Pool.runFrom_of_runWithin ended]
    rfl

theorem front_of_frontWithin {before : RunState} {last : Except BuildError (Option (List Descriptor)) × RunState}
    (within : pipeline.frontWithin bound mode before = some last) : pipeline.front mode before = last := by
  unfold frontWithin at within
  split at within
  · next cause after led =>
    cases within
    rw [front_eq, bind_of_error led]
  · next units checked led =>
    dsimp only at within
    split at within
    · cases within
    · next pool build ended =>
      cases within
      exact front_of_compiles (compiles_of_runWithin led ended)

def runWithin (bound : Nat) (pipeline : Pipeline) (mode : Mode) (state : BuildState) :
    Option (List Descriptor × RunReport × BuildState) :=
  match pipeline.frontWithin bound mode ⟨.start, state⟩ with
  | some (.ok (some descriptors), before) =>
    match pipeline.generate descriptors before with
    | (.ok (), after) =>
      let (cancelled, last) := RunAction.isCancelled after
      some (descriptors, last.report.finish cancelled, last.build)
    | (.error _, _) => none
  | _ => none

theorem run_of_runWithin {state : BuildState} {descriptors : List Descriptor}
    {last : RunReport × BuildState} (within : pipeline.runWithin bound mode state = some (descriptors, last)) :
    (pipeline.front mode ⟨.start, state⟩).1 = .ok (some descriptors) ∧
      (pipeline.stages mode ⟨.start, state⟩).1 = .ok () ∧ pipeline.run mode state = last := by
  unfold runWithin at within
  split at within
  · next reached before ran =>
    have fronted := front_of_frontWithin ran
    split at within
    · next after generated =>
      have ended : pipeline.stages mode ⟨.start, state⟩ = (.ok (), after) := by
        rw [stages_eq, bind_of_ok fronted]
        exact generated
      have told := Option.some.inj within
      rw [Prod.mk.injEq] at told
      refine ⟨by rw [fronted, told.1], by rw [ended], ?_⟩
      rw [Pipeline.run, ended]
      exact told.2
    · cases within
  · cases within

def concludesWithin (bound : Nat) (pipeline : Pipeline) (mode : Mode) (state : BuildState) :
    Option (RunReport × BuildState) :=
  (pipeline.frontWithin bound mode ⟨.start, state⟩).map fun
    | (.ok (some descriptors), before) => conclude (pipeline.generate descriptors before)
    | (.ok none, before) => conclude (.ok (), before)
    | (.error cause, before) => conclude (.error cause, before)

theorem run_of_concludesWithin {state : BuildState} {last : RunReport × BuildState}
    (within : pipeline.concludesWithin bound mode state = some last) : pipeline.run mode state = last := by
  obtain ⟨⟨outcome, before⟩, led, rfl⟩ := Option.map_eq_some_iff.1 within
  have fronted := front_of_frontWithin led
  rw [run_eq, stages_eq]
  cases outcome with
  | error cause => rw [bind_of_error fronted]
  | ok chosen =>
    rw [bind_of_ok fronted]
    cases chosen <;> rfl

def selectsA : Pipeline :=
  { vyperOnly with project.settings.interfaces.only := ["A"] }

def oneSource : BuildState :=
  ⟨.ofFiles ⟨.directory [(".kiln", .directory [("cache", .directory [("artifacts", .emptyDirectory)])]),
      ("contracts", .directory [("A.vy", .file "[]".toUTF8)])], [], none⟩,
    ⟨⟨".kiln/cache/artifacts"⟩, [], [], ⟨0, 0, 0, 0⟩⟩⟩

def unitA : SourceUnit :=
  ⟨⟨"contracts/A.vy"⟩, .vyper, "[]"⟩

def choosesA : List Descriptor → Bool
  | [⟨"A", []⟩] => true
  | _ => false

theorem eq_of_choosesA {descriptors : List Descriptor} (chooses : choosesA descriptors = true) :
    descriptors = [⟨"A", []⟩] := by
  unfold choosesA at chooses
  split at chooses
  · rfl
  · cases chooses

theorem discover_of_unitA {project : Project} {adapters : Adapters} {tree : FileTree}
    (found : ((Pipeline.mk project adapters).discover tree).1.toOption = some [unitA])
    (quiet : tree.faultAfter = none) : (Pipeline.mk project adapters).discover tree = (.ok [unitA], tree) := by
  have reads := reads_discover ⟨project, adapters⟩ tree
  revert found reads
  rcases (Pipeline.mk project adapters).discover tree with ⟨cause | units, after⟩
  · exact fun found => nomatch found
  · intro found reads
    obtain rfl : units = [unitA] := Option.some.inj found
    rw [show after = tree from reads.eq_of_quiet quiet]

end Pipeline

namespace Ground

def usual : Ground :=
  ⟨[], ⟨".kiln/cache"⟩, ⟨"abis"⟩, ⟨"bindings"⟩, fun _ => False⟩

theorem usual_sees : usual.Sees Pipeline.oneSource.workspace.files :=
  ⟨rfl, FileNode.tidy_of_isTidy (by decide +kernel)⟩

end Ground
end ContractBuild
