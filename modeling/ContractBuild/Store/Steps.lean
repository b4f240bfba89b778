import ContractBuild.Store.Request
/-!
Requests on threads of their own. There a request goes step by step: between any two looks at the
store or at its files, and between any two acts of the adapter, the steps of other requests may come.
A piece of a request is such steps in a row.
-/
namespace ContractBuild

/-- What a request does next. Where it has found or made a slot for its fingerprint, the slot is told. -/
inductive Station
  | begins
  | joins
  | looks (slot : Nat)
  | leads (slot : Nat)
  | misses (slot : Nat)
  | drops (slot : Nat)
  | seeks (slot : Nat)
  | removes (slot : Nat)
  | calls (slot : Nat)
  | compiling (slot : Nat) (call : Routine Workspace (Except BuildError Artifact))
  | prepares (slot : Nat) (artifact : Artifact)
  | writes (slot : Nat) (artifact : Artifact)
  | inserts (slot : Nat) (artifact : Artifact)
  | fills (slot : Nat) (outcome : Except BuildError Artifact)
  | releases (slot : Nat) (outcome : Except BuildError Artifact)
  | answered (outcome : Except BuildError Artifact)
  | withdrawn

/-- The station in which a piece of a request begins. -/
def Phase.station : Phase → Station
  | .pending => .begins
  | .waiting slot => .looks slot
  | .compiling slot call => .compiling slot call
  | .answered outcome => .answered outcome

namespace Request

/-- Goes on by an operation on files if that went well, and else ends the compilation of a slot. -/
def goOn (slot : Nat) (next : Station) (action : FileAction Unit) (state : BuildState) : Station × BuildState :=
  match StoreAction.onFiles action state with
  | (.ok _, state) => (next, state)
  | (.error cause, state) => (.fills slot (.error cause), state)

/-- The next step of the adapter's call, or what its outcome comes to. -/
def follow (request : Request) (slot : Nat) (state : BuildState) :
    Routine Workspace (Except BuildError Artifact) → Station × BuildState
  | .act change next =>
    (.compiling slot (next state.workspace), { state with workspace := change state.workspace })
  | .await ready next => (.compiling slot (if ready state.workspace then next else .await ready next), state)
  | .done (.error cause) => (.fills slot (.error cause), state.onStore Store.countFailure)
  | .done (.ok artifact) =>
    if request.isAnsweredBy artifact then (.prepares slot artifact, state)
    else (.fills slot (.error (request.mismatch artifact)), state.onStore Store.countFailure)

/-- Takes the next step. A request that looks at a slot stays there while another one leads it. -/
def step (request : Request) (station : Station) (state : BuildState) : Station × BuildState :=
  match station with
  | .begins =>
    match state.store.fresh? request.name request.fingerprint with
    | some artifact => (.answered (.ok artifact), state.onStore Store.countHit)
    | none => (.joins, state)
  | .joins =>
    let (slot, store) := state.store.countMiss.join request.fingerprint
    (.looks slot, { state with store })
  | .looks slot =>
    match state.store.cell slot with
    | .filled outcome => (.releases slot outcome, state)
    | .busy => (.looks slot, state)
    | .vacant => (.leads slot, state.onStore (·.setCell slot .busy))
  | .leads slot =>
    match state.store.fresh? request.name request.fingerprint with
    | some artifact => (.fills slot (.ok artifact), state.onStore Store.countHit)
    | none => (.misses slot, state)
  | .misses slot => (if (state.store.lookup request.name).isSome then .drops slot else .calls slot, state)
  | .drops slot => (.seeks slot, state.onStore (·.erase request.name))
  | .seeks slot =>
    (if state.workspace.files.exists? (state.store.pathFor request.name) then .removes slot else .calls slot, state)
  | .removes slot =>
    goOn slot (.calls slot) (FileAction.removeFile (state.store.pathFor request.name)) state
  | .calls slot =>
    (.compiling slot (request.adapter.call request.unit request.version), state.onStore Store.countCompile)
  | .compiling slot call => request.follow slot state call
  | .prepares slot artifact =>
    goOn slot (.writes slot artifact) (FileAction.createDirectories state.store.directory) state
  | .writes slot artifact =>
    goOn slot (.inserts slot artifact) (FileAction.replaceFile state.store.directory
      (state.store.pathFor artifact.name) artifact.toJson.compact.toUTF8) state
  | .inserts slot artifact => (.fills slot (.ok artifact), state.onStore (·.insert artifact))
  | .fills slot outcome => (.releases slot outcome, state.onStore (·.setCell slot (.filled outcome)))
  | .releases slot outcome =>
    (.answered (outcome.mapError (·.duplicate request.unit.path)), state.onStore (·.release slot))
  | .answered outcome => (.answered outcome, state)
  | .withdrawn => (.withdrawn, state)

end Request

namespace Station

/-- Whether a request awaits something, so that it can be given up. -/
def awaits : Station → Bool
  | begins => true
  | looks _ => true
  | compiling _ (.await _ _) => true
  | _ => false

/-- What is left when a request is given up. The slot that it led is vacant, and the call of an adapter may tidy up
the workspace behind itself. -/
def abandon (tidyUp : Workspace → Workspace) (station : Station) (state : BuildState) : BuildState :=
  match station with
  | .compiling slot _ => ⟨tidyUp state.workspace, state.store.setCell slot .vacant⟩
  | _ => state

end Station

/-- A request on a thread. -/
structure Thread where
  request : Request
  station : Station

/-- What happens next among threads: a request takes a step, or is given up where it awaits something, or the
workspace changes elsewhere. -/
inductive Move
  | step (position : Nat)
  | drop (position : Nat) (tidyUp : Workspace → Workspace)
  | elsewhere (change : Workspace → Workspace)

/-- Threads and all that they share. -/
structure Crowd where
  threads : List Thread
  state : BuildState

namespace Crowd

def ofRequests (requests : List Request) (state : BuildState) : Crowd :=
  ⟨requests.map (Thread.mk · .begins), state⟩

def step (crowd : Crowd) (position : Nat) : Crowd :=
  match crowd.threads[position]? with
  | none => crowd
  | some thread =>
    let (station, state) := thread.request.step thread.station crowd.state
    ⟨crowd.threads.set position { thread with station }, state⟩

def drop (crowd : Crowd) (position : Nat) (tidyUp : Workspace → Workspace) : Crowd :=
  match crowd.threads[position]? with
  | none => crowd
  | some thread =>
    if thread.station.awaits then
      ⟨crowd.threads.set position { thread with station := .withdrawn }, thread.station.abandon tidyUp crowd.state⟩
    else crowd

def take (crowd : Crowd) : Move → Crowd
  | .step position => crowd.step position
  | .drop position tidyUp => crowd.drop position tidyUp
  | .elsewhere change => ⟨crowd.threads, ⟨change crowd.state.workspace, crowd.state.store⟩⟩

/-- The threads after some moves. -/
def takeAll (crowd : Crowd) (moves : List Move) : Crowd :=
  moves.foldl take crowd

end Crowd
end ContractBuild
