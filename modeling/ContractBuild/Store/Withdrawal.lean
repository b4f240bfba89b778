import ContractBuild.Store.Pool
/-!
Requests that are given up while they wait. Whoever leads a slot and is given up leaves it vacant,
and the next of those who wait for it leads it in turn.
-/
namespace ContractBuild

/-- What is left when a request in this phase is given up. The call of an adapter may tidy up the
workspace behind itself. -/
def Phase.abandon (tidyUp : Workspace → Workspace) (phase : Phase) (state : BuildState) : BuildState :=
  match phase with
  | .compiling slot _ => ⟨tidyUp state.workspace, state.store.setCell slot .vacant⟩
  | _ => state

/-- A strand without its request. -/
def Strand.withdrawn (strand : Strand) : Strand :=
  { strand with work := .error .cancelled, phase := .answered (.error .cancelled) }

/-- What happens next in a pool: the request at a position runs a piece, or is given up. -/
inductive Turn
  | piece (position : Nat)
  | drop (position : Nat) (tidyUp : Workspace → Workspace)

namespace Pool

def drop (pool : Pool) (state : BuildState) (position : Nat) (tidyUp : Workspace → Workspace) :
    Pool × BuildState :=
  match pool.strands[position]? with
  | none => (pool, state)
  | some strand =>
    ({ pool with strands := pool.strands.set position strand.withdrawn },
      strand.phase.abandon tidyUp state)

def take (pool : Pool) (state : BuildState) : Turn → Pool × BuildState
  | .piece position => pool.advance state position
  | .drop position tidyUp => pool.drop state position tidyUp

end Pool
end ContractBuild
