/-!
Computations that run in pieces on a shared state. A piece ends where the computation awaits
something; what other computations do to the state comes between two pieces. Every computation
is a finite tree, so a sequence of pieces ends.
-/
namespace ContractBuild

/-- `act` changes the state and goes on by what it was before; `await` lets others go on until
the state is ready. -/
inductive Routine (σ α : Type)
  | done (value : α)
  | act (change : σ → σ) (next : σ → Routine σ α)
  | await (ready : σ → Bool) (next : Routine σ α)

namespace Routine

protected def bind (routine : Routine σ α) (continuation : α → Routine σ β) : Routine σ β :=
  match routine with
  | done value => continuation value
  | act change next => act change fun state => (next state).bind continuation
  | await ready next => await ready (next.bind continuation)

instance : Monad (Routine σ) where
  pure := done
  bind := Routine.bind

/-- A stateful step within a piece. -/
def step (action : StateM σ α) : Routine σ α :=
  act (fun state => (action.run state).2) fun state => done (action.run state).1

/-- Lets others go on once. -/
def pause : Routine σ Unit :=
  await (fun _ => true) (done ())

/-- Runs on to where the routine awaits something or is done. -/
def poll : Routine σ α → σ → Routine σ α × σ
  | done value, state => (done value, state)
  | act change next, state => poll (next state) (change state)
  | await ready next, state => (await ready next, state)

/-- Whether a further piece can run. -/
def isReady : Routine σ α → σ → Bool
  | await ready _, state => ready state
  | _, _ => true

/-- Runs the next piece of a routine that is ready. -/
def resume : Routine σ α → σ → Routine σ α × σ
  | await _ next, state => poll next state
  | routine, state => poll routine state

/-- Runs a routine by itself to its end. It has none if the routine awaits what only others could
bring about. -/
def finish : Routine σ α → σ → Option α × σ
  | done value, state => (some value, state)
  | act change next, state => finish (next state) (change state)
  | await ready next, state => if ready state then finish next state else (none, state)

/-- What is left of a routine when part of it has run. -/
inductive After : Routine σ α → Routine σ α → Prop
  | act (change : σ → σ) (next : σ → Routine σ α) (state : σ) : After (next state) (act change next)
  | withinAct {rest : Routine σ α} (change : σ → σ) (next : σ → Routine σ α) (state : σ)
      (after : After rest (next state)) : After rest (act change next)
  | await (ready : σ → Bool) (next : Routine σ α) : After next (await ready next)
  | withinAwait {rest : Routine σ α} (ready : σ → Bool) (next : Routine σ α)
      (after : After rest next) : After rest (await ready next)

theorem acc_after (routine : Routine σ α) : Acc After routine := by
  induction routine with
  | done value => exact ⟨_, fun _ after => nomatch after⟩
  | act change next ih =>
    refine ⟨_, fun rest after => ?_⟩
    cases after with
    | act _ _ state => exact ih state
    | withinAct _ _ state within => exact (ih state).inv within
  | await ready next ih =>
    refine ⟨_, fun rest after => ?_⟩
    cases after with
    | await => exact ih
    | withinAwait _ _ within => exact ih.inv within

theorem after_wf : WellFounded (After (σ := σ) (α := α)) :=
  ⟨acc_after⟩

theorem poll_eq_or_after (routine : Routine σ α) (state : σ) :
    (routine.poll state).1 = routine ∨ After (routine.poll state).1 routine := by
  induction routine generalizing state with
  | done value => exact .inl rfl
  | act change next ih =>
    refine .inr ?_
    rcases ih state (change state) with same | after
    · rw [poll, same]
      exact .act change next state
    · exact .withinAct change next state after
  | await ready next ih => exact .inl rfl

/-- A polled routine is done or awaits something. -/
theorem poll_done_or_await (routine : Routine σ α) (state : σ) :
    (∃ value, (routine.poll state).1 = done value) ∨
      ∃ ready next, (routine.poll state).1 = await ready next := by
  induction routine generalizing state with
  | done value => exact .inl ⟨value, rfl⟩
  | act change next ih => exact ih state (change state)
  | await ready next => exact .inr ⟨ready, next, rfl⟩

/-- The next piece of a routine finishes it or leaves less of it. -/
theorem resume_done_or_after (routine : Routine σ α) (state : σ) :
    (∃ value, (routine.resume state).1 = done value) ∨ After (routine.resume state).1 routine := by
  cases routine with
  | done value => exact .inl ⟨value, rfl⟩
  | act change next =>
    rcases poll_eq_or_after (act change next) state with same | after
    · rcases poll_done_or_await (act change next) state with ⟨value, done⟩ | ⟨ready, rest, await⟩
      · exact .inl ⟨value, done⟩
      · rw [await] at same; cases same
    · exact .inr after
  | await ready next =>
    refine .inr ?_
    rcases poll_eq_or_after next state with same | after
    · rw [resume, same]
      exact .await ready next
    · exact .withinAwait ready next after

end Routine
end ContractBuild
