import ContractBuild.Store
/-!
Requests for the artifact of a source. A request runs in pieces: it is answered from the store,
waits for a compilation that another request leads, or leads one itself. Whatever a compilation
ends in, every request that waited for it is told the same.
-/
namespace ContractBuild

structure Request where
  unit : SourceUnit
  version : String
  adapter : Adapter

/-- How far a request has come. -/
inductive Phase
  | pending
  | waiting (slot : Nat)
  | compiling (slot : Nat) (call : Routine Workspace (Except BuildError Artifact))
  | answered (outcome : Except BuildError Artifact)

def Adapter.call (adapter : Adapter) (unit : SourceUnit) (version : String) :
    Routine Workspace (Except BuildError Artifact) :=
  .act (Workspace.noteCall adapter.language) fun _ => (adapter.compile unit version).run

namespace Request

def name (request : Request) : String :=
  request.unit.artifactName

/-- The fingerprint that an artifact must have to answer the request. -/
def fingerprint (request : Request) : Fingerprint :=
  Fingerprint.ofUnit request.unit request.version request.adapter.flags

/-- What a request is told of the outcome of a slot. -/
def retell (request : Request) (outcome : Except BuildError Artifact) : Phase :=
  .answered (outcome.mapError (·.duplicate request.unit.path))

/-- Ends the compilation of a slot with an outcome. -/
def settle (request : Request) (slot : Nat) (outcome : Except BuildError Artifact)
    (state : BuildState) : Phase × BuildState :=
  (request.retell outcome, state.onStore fun store => store.fill slot outcome)

/-- The complaint about an adapter that returned something else than was asked for. -/
def mismatch (request : Request) (artifact : Artifact) : BuildError :=
  .cache (request.adapter.language.tag ++ " adapter returned artifact '" ++ artifact.name ++ "' ("
    ++ artifact.fingerprint.short ++ ") for '" ++ request.name ++ "' (" ++ request.fingerprint.short
    ++ ")")

def isAnsweredBy (request : Request) (artifact : Artifact) : Bool :=
  artifact.fingerprint = request.fingerprint && artifact.name = request.name

/-- Takes in what the adapter returned. -/
def conclude (request : Request) (slot : Nat) (outcome : Except BuildError Artifact)
    (state : BuildState) : Phase × BuildState :=
  match outcome with
  | .error cause => request.settle slot (.error cause) (state.onStore Store.countFailure)
  | .ok artifact =>
    if request.isAnsweredBy artifact then
      let (published, state) := Store.publish artifact state
      request.settle slot published state
    else
      request.settle slot (.error (request.mismatch artifact)) (state.onStore Store.countFailure)

/-- Goes on with a call of the adapter that has run as far as it can. -/
def proceed (request : Request) (slot : Nat)
    (call : Routine Workspace (Except BuildError Artifact)) (state : BuildState) :
    Phase × BuildState :=
  match call with
  | .done outcome => request.conclude slot outcome state
  | call => (.compiling slot call, state)

/-- Calls the adapter. -/
def compile (request : Request) (slot : Nat) (state : BuildState) : Phase × BuildState :=
  let (call, workspace) := (request.adapter.call request.unit request.version).poll state.workspace
  request.proceed slot call { workspace, store := state.store.countCompile }

/-- Leads the compilation of a slot: drops what is stale and calls the adapter. -/
def lead (request : Request) (slot : Nat) (state : BuildState) : Phase × BuildState :=
  let state := state.onStore (·.setCell slot .busy)
  match state.store.fresh? request.name request.fingerprint with
  | some artifact => request.settle slot (.ok artifact) (state.onStore Store.countHit)
  | none =>
    if (state.store.lookup request.name).isSome then
      match Store.invalidate request.name state with
      | (.ok _, state) => request.compile slot state
      | (.error cause, state) => request.settle slot (.error cause) state
    else request.compile slot state

/-- Looks at a slot: takes its outcome, waits for whoever leads it, or leads it. -/
def enter (request : Request) (slot : Nat) (state : BuildState) : Phase × BuildState :=
  match state.store.cell slot with
  | .filled outcome => (request.retell outcome, state.onStore (·.release slot))
  | .busy => (.waiting slot, state)
  | .vacant => request.lead slot state

/-- Takes a fresh artifact from the store, or enters the slot for the fingerprint. -/
def begin (request : Request) (state : BuildState) : Phase × BuildState :=
  match state.store.fresh? request.name request.fingerprint with
  | some artifact => (.answered (.ok artifact), state.onStore Store.countHit)
  | none =>
    let (slot, store) := state.store.countMiss.join request.fingerprint
    request.enter slot { state with store }

/-- Runs the next piece of a request. -/
def advance (request : Request) (phase : Phase) (state : BuildState) : Phase × BuildState :=
  match phase with
  | .pending => request.begin state
  | .waiting slot => request.enter slot state
  | .compiling slot call =>
    let (call, workspace) := call.resume state.workspace
    request.proceed slot call { state with workspace }
  | .answered outcome => (.answered outcome, state)

end Request

namespace Phase

/-- Whether a further piece of the request can run. -/
def isReady (state : BuildState) : Phase → Bool
  | pending => true
  | waiting slot => !(state.store.cell slot).isBusy
  | compiling _ call => call.isReady state.workspace
  | answered _ => false

def outcome? : Phase → Option (Except BuildError Artifact)
  | answered outcome => some outcome
  | _ => none

def isAnswered (phase : Phase) : Bool :=
  phase.outcome?.isSome

end Phase
end ContractBuild
