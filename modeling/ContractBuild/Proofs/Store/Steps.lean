import ContractBuild.Proofs.Store.Transitions
import ContractBuild.Store.Steps

/-!
A piece of a request is a number of its steps in a row, with no step of another request in between: so what
the executed order does is one of the ways in which threads can take their steps.
-/
namespace ContractBuild

namespace Request

def steps (request : Request) : Nat → Station × BuildState → Station × BuildState
  | 0, now => now
  | count + 1, now => request.steps count (request.step now.1 now.2)

def Walks (request : Request) (now later : Station × BuildState) : Prop :=
  ∃ count, request.steps count now = later

variable {request : Request} {now middle later : Station × BuildState} {slot : Nat} {state : BuildState}

theorem Walks.refl (now : Station × BuildState) : request.Walks now now :=
  ⟨0, rfl⟩

theorem steps_add (first second : Nat) (now : Station × BuildState) :
    request.steps (first + second) now = request.steps second (request.steps first now) := by
  induction first generalizing now with
  | zero => rw [Nat.zero_add, steps]
  | succ first ih => rw [Nat.succ_add, steps, steps, ih]

theorem Walks.trans (earlier : request.Walks now middle) (rest : request.Walks middle later) :
    request.Walks now later := by
  obtain ⟨first, rfl⟩ := earlier
  obtain ⟨second, rfl⟩ := rest
  exact ⟨first + second, steps_add first second now⟩

def paused (piece : Phase × BuildState) : Station × BuildState :=
  (piece.1.station, piece.2)

theorem walks_settle (slot : Nat) (outcome : Except BuildError Artifact) (state : BuildState) :
    request.Walks (.fills slot outcome, state) (paused (request.settle slot outcome state)) :=
  ⟨2, rfl⟩

theorem step_walks {station : Station} (rest : request.Walks (request.step station state) later) :
    request.Walks (station, state) later :=
  Walks.trans ⟨1, rfl⟩ rest

theorem goOn_of_ok {next : Station} {action : FileAction Unit} {files : FileTree}
    (ran : action state.workspace.files = (.ok (), files)) :
    goOn slot next action state = (next, { state with workspace := { state.workspace with files } }) := by
  rw [goOn, StoreAction.onFiles, ran]
  rfl

theorem goOn_of_error {next : Station} {action : FileAction Unit} {cause : FileError} {files : FileTree}
    (ran : action state.workspace.files = (.error cause, files)) :
    goOn slot next action state =
      (.fills slot (.error (.file cause)), { state with workspace := { state.workspace with files } }) := by
  rw [goOn, StoreAction.onFiles, ran]
  rfl

theorem walks_publish (slot : Nat) (artifact : Artifact) (state : BuildState) :
    request.Walks (.prepares slot artifact, state)
      (paused (request.settle slot (Store.publish artifact state).1 (Store.publish artifact state).2)) := by
  simp only [Store.publish, Action.bind_apply, Action.get_apply, StoreAction.onFiles]
  apply step_walks
  rcases made : FileAction.createDirectories state.store.directory state.workspace.files with ⟨cause | _, files⟩
  · rw [step, goOn_of_error made]
    exact walks_settle slot _ _
  · rw [step, goOn_of_ok made]
    apply step_walks
    rcases written : FileAction.replaceFile state.store.directory (state.store.pathFor artifact.name)
      artifact.toJson.compact.toUTF8 files with ⟨cause | _, last⟩
    · rw [step, goOn_of_error written]
      simp only [written]
      exact walks_settle slot _ _
    · rw [step, goOn_of_ok written]
      simp only [written]
      exact step_walks (walks_settle slot _ _)

theorem walks_conclude (slot : Nat) (outcome : Except BuildError Artifact) (state : BuildState) :
    request.Walks (.compiling slot (.done outcome), state) (paused (request.conclude slot outcome state)) := by
  apply step_walks
  cases outcome with
  | error cause => exact walks_settle slot (.error cause) _
  | ok artifact =>
    unfold conclude
    simp only [step, follow]
    split
    · exact walks_publish slot artifact state
    · exact walks_settle slot _ _

theorem walks_proceed (slot : Nat) (call : Routine Workspace (Except BuildError Artifact)) (state : BuildState) :
    request.Walks (.compiling slot call, state) (paused (request.proceed slot call state)) := by
  cases call with
  | done outcome => exact walks_conclude slot outcome state
  | act change next => exact .refl _
  | await ready next => exact .refl _

/-- A call that runs on as far as it can acts step by step. -/
theorem walks_poll (slot : Nat) (call : Routine Workspace (Except BuildError Artifact)) (state : BuildState) :
    request.Walks (.compiling slot call, state)
      (.compiling slot (call.poll state.workspace).1, { state with workspace := (call.poll state.workspace).2 }) := by
  induction call generalizing state with
  | done outcome => exact .refl _
  | act change next ih => exact step_walks (ih state.workspace { state with workspace := change state.workspace })
  | await ready next => exact .refl _

theorem walks_resume {call : Routine Workspace (Except BuildError Artifact)}
    (ready : call.isReady state.workspace = true) :
    request.Walks (.compiling slot call, state)
      (.compiling slot (call.resume state.workspace).1,
        { state with workspace := (call.resume state.workspace).2 }) := by
  cases call with
  | done outcome => exact .refl _
  | act change next => exact walks_poll slot (.act change next) state
  | await isReady next =>
    have readyNow : isReady state.workspace = true := ready
    apply step_walks
    simp only [step, follow, Routine.resume]
    rw [if_pos readyNow]
    exact walks_poll slot next state

theorem walks_compile (slot : Nat) (state : BuildState) :
    request.Walks (.calls slot, state) (paused (request.compile slot state)) :=
  step_walks ((walks_poll slot (request.adapter.call request.unit request.version)
    (state.onStore Store.countCompile)).trans (walks_proceed slot _ _))

theorem walks_invalidate (slot : Nat) (state : BuildState) :
    request.Walks (.drops slot, state)
      (paused (match Store.invalidate request.name state with
        | (.ok _, state) => request.compile slot state
        | (.error cause, state) => request.settle slot (.error cause) state)) := by
  rw [Store.invalidate_eq, Store.clearFile]
  apply step_walks
  apply step_walks
  by_cases there : state.workspace.files.exists? (state.store.pathFor request.name) = true
  · have seeks : request.step (.seeks slot) (state.onStore (·.erase request.name)) =
        (.removes slot, state.onStore (·.erase request.name)) := congrArg (·, _) (if_pos there)
    rw [seeks, if_pos there]
    apply step_walks
    rcases removed : FileAction.removeFile (state.store.pathFor request.name) state.workspace.files with
      ⟨cause | _, files⟩
    · have failed : request.step (.removes slot) (state.onStore (·.erase request.name)) = _ := goOn_of_error removed
      rw [failed]
      exact walks_settle slot _ _
    · have went : request.step (.removes slot) (state.onStore (·.erase request.name)) = _ := goOn_of_ok removed
      rw [went]
      exact walks_compile slot _
  · have seeks : request.step (.seeks slot) (state.onStore (·.erase request.name)) =
        (.calls slot, state.onStore (·.erase request.name)) := congrArg (·, _) (if_neg there)
    rw [seeks, if_neg there]
    exact walks_compile slot _

theorem walks_lead (slot : Nat) (state : BuildState) :
    request.Walks (.leads slot, state.onStore (·.setCell slot .busy)) (paused (request.lead slot state)) := by
  apply step_walks
  simp only [lead, step]
  generalize state.onStore (·.setCell slot .busy) = marked
  cases marked.store.fresh? request.name request.fingerprint with
  | some artifact => exact walks_settle slot _ _
  | none =>
    apply step_walks
    simp only [step]
    by_cases stale : (marked.store.lookup request.name).isSome = true
    · rw [if_pos stale, if_pos stale]
      exact walks_invalidate slot marked
    · rw [if_neg stale, if_neg stale]
      exact walks_compile slot marked

theorem walks_enter (slot : Nat) (state : BuildState) :
    request.Walks (.looks slot, state) (paused (request.enter slot state)) := by
  apply step_walks
  simp only [enter, step]
  cases state.store.cell slot with
  | filled outcome => exact ⟨1, rfl⟩
  | busy => exact .refl _
  | vacant => exact walks_lead slot state

/-- A piece of a request that is ready is a number of steps in a row. -/
theorem walks_advance (phase : Phase) (state : BuildState) (ready : phase.isReady state = true) :
    request.Walks (phase.station, state) (paused (request.advance phase state)) := by
  cases phase with
  | pending =>
    apply step_walks
    simp only [step, advance, begin]
    cases state.store.fresh? request.name request.fingerprint with
    | some artifact => exact .refl _
    | none => exact step_walks (walks_enter _ _)
  | waiting slot => exact walks_enter slot state
  | compiling slot call => exact (walks_resume ready).trans (walks_proceed slot _ _)
  | answered outcome => exact .refl _

end Request

namespace Crowd

variable {crowd : Crowd} {position : Nat} {request : Request}

/-- Moves that are all about one thread are steps of its request in a row. -/
theorem takeAll_replicate {station : Station} (there : crowd.threads[position]? = some ⟨request, station⟩)
    (count : Nat) :
    crowd.takeAll (List.replicate count (.step position)) =
      ⟨crowd.threads.set position ⟨request, (request.steps count (station, crowd.state)).1⟩,
        (request.steps count (station, crowd.state)).2⟩ := by
  induction count generalizing crowd station with
  | zero =>
    rw [Request.steps, List.replicate_zero, takeAll, List.foldl_nil]
    obtain ⟨inside, same⟩ := List.getElem?_eq_some_iff.1 there
    rw [← same, List.set_getElem_self]
  | succ count ih =>
    have next : (crowd.step position).threads[position]? =
        some ⟨request, (request.step station crowd.state).1⟩ := by
      simp only [step, there]
      exact List.getElem?_set_self (List.getElem?_eq_some_iff.1 there).1
    have moved := ih next
    simp only [step, there, List.set_set] at moved
    rw [List.replicate_succ, takeAll, List.foldl_cons, Request.steps, ← takeAll]
    simpa only [take, step, there] using moved

/-- A piece of a request that is ready is some moves in a row that are all about its thread. -/
theorem takeAll_advance {phase : Phase} (there : crowd.threads[position]? = some ⟨request, phase.station⟩)
    (ready : phase.isReady crowd.state = true) :
    ∃ count, crowd.takeAll (List.replicate count (.step position)) =
      ⟨crowd.threads.set position ⟨request, (request.advance phase crowd.state).1.station⟩,
        (request.advance phase crowd.state).2⟩ := by
  obtain ⟨count, walks⟩ := request.walks_advance phase crowd.state ready
  exact ⟨count, by rw [takeAll_replicate there count, walks]; rfl⟩

end Crowd
end ContractBuild
