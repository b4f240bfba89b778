import ContractBuild.Store.Progress
/-!
Requests that run side by side. At any moment the requests up to a limit behind the answered ones
in front are at work, and any of them that is ready may run its next piece; the executed order
takes them by turns.
-/
namespace ContractBuild

/-- A request, or the reason why there can be none. `cacheHit` says that a fresh artifact was
there when the request began. -/
structure Strand where
  work : Except BuildError Request
  cacheHit : Bool
  phase : Phase

structure Pool where
  limit : Nat
  strands : List Strand

namespace Strand

def queued (work : Except BuildError Request) : Strand :=
  ⟨work, false, .pending⟩

def isReady (strand : Strand) (state : BuildState) : Bool :=
  strand.phase.isReady state

/-- Runs the next piece. -/
def advance (strand : Strand) (state : BuildState) : Strand × BuildState :=
  match strand.work, strand.phase with
  | .error cause, _ => ({ strand with phase := .answered (.error cause) }, state)
  | .ok request, .pending =>
    let cacheHit := state.store.isFresh request.name request.fingerprint
    let (phase, state) := request.begin state
    ({ strand with cacheHit, phase }, state)
  | .ok request, phase =>
    let (phase, state) := request.advance phase state
    ({ strand with phase }, state)

theorem phase_advance_after {strand : Strand} {state : BuildState}
    (ready : strand.isReady state = true) :
    Phase.After (strand.advance state).1.phase strand.phase := by
  obtain ⟨work, cacheHit, phase⟩ := strand
  cases work with
  | error cause =>
    cases phase with
    | pending => exact Phase.after_of_stage_lt (Nat.succ_pos 2)
    | waiting slot => exact Phase.after_of_stage_lt (Nat.succ_pos 1)
    | compiling slot call => exact Phase.after_of_stage_lt (Nat.succ_pos 0)
    | answered outcome => cases ready
  | ok request =>
    have after : Phase.After (request.advance phase state).1 phase := request.advance_after ready
    cases phase <;> exact after

end Strand

namespace Pool

def ofWork (limit : Nat) (work : List (Except BuildError Request)) : Pool :=
  ⟨limit, work.map Strand.queued⟩

/-- How many requests from the front on may be at work. -/
def frontier (pool : Pool) : Nat :=
  (pool.strands.takeWhile (·.phase.isAnswered)).length + pool.limit

/-- Whether the next piece of a request may run. -/
def isEnabled (pool : Pool) (state : BuildState) (position : Nat) : Bool :=
  position < pool.frontier && pool.strands[position]?.any (·.isReady state)

/-- Runs the next piece of one request. -/
def advance (pool : Pool) (state : BuildState) (position : Nat) : Pool × BuildState :=
  match pool.strands[position]? with
  | none => (pool, state)
  | some strand =>
    let (strand, state) := strand.advance state
    ({ pool with strands := pool.strands.set position strand }, state)

/-- Pools by what their requests still have to go through. -/
def After (later earlier : Pool) : Prop :=
  OneAfter (InvImage Phase.After Strand.phase) later.strands earlier.strands

theorem after_wf : WellFounded After :=
  InvImage.wf Pool.strands (OneAfter.wf (InvImage.wf Strand.phase Phase.after_wf))

theorem advance_after {pool : Pool} {state : BuildState} {position : Nat}
    (enabled : pool.isEnabled state position = true) :
    After (pool.advance state position).1 pool := by
  unfold isEnabled at enabled
  unfold advance
  cases found : pool.strands[position]? with
  | none => simp [found] at enabled
  | some strand =>
    simp only [found, Option.any_some, Bool.and_eq_true] at enabled
    exact OneAfter.set found (Strand.phase_advance_after enabled.2)

instance : WellFoundedRelation Pool := ⟨After, after_wf⟩

/-- The next request that may run, looking from a position on and then from the front. -/
def next? (pool : Pool) (state : BuildState) (position : Nat) : Option Nat :=
  let positions := List.range pool.strands.length
  (positions.drop position ++ positions.take position).find? (pool.isEnabled state)

theorem isEnabled_of_next? {pool : Pool} {state : BuildState} {position found : Nat}
    (next : pool.next? state position = some found) : pool.isEnabled state found = true :=
  List.find?_some next

/-- Runs the requests by turns until none can go on. -/
def runFrom (position : Nat) (pool : Pool) (state : BuildState) : Pool × BuildState :=
  match next : pool.next? state position with
  | none => (pool, state)
  | some found => runFrom (found + 1) (pool.advance state found).1 (pool.advance state found).2
termination_by pool
decreasing_by exact advance_after (isEnabled_of_next? next)

def run (pool : Pool) (state : BuildState) : Pool × BuildState :=
  runFrom 0 pool state

end Pool
end ContractBuild
