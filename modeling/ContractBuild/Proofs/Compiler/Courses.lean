import ContractBuild.Compiler.Invocation

/-!
What a computation on a shared state can come to. Others may change the state wherever it awaits something;
what they can do there is a relation between states. A compiler's action is then read part by part, like an
action that nobody interrupts.
-/
namespace ContractBuild

namespace Routine

variable {σ α β : Type} {others : σ → σ → Prop}

inductive Reaches (others : σ → σ → Prop) : Routine σ α → σ → α → σ → Prop
  | done (value : α) (state : σ) : Reaches others (.done value) state value state
  | act {change : σ → σ} {next : σ → Routine σ α} {state last : σ} {value : α}
    (rest : Reaches others (next state) (change state) value last) :
    Reaches others (.act change next) state value last
  | await {ready : σ → Bool} {next : Routine σ α} {state later last : σ} {value : α}
    (meanwhile : others state later) (isReady : ready later = true)
    (rest : Reaches others next later value last) : Reaches others (.await ready next) state value last

theorem reaches_done_iff {value result : α} {before after : σ} :
    Reaches others (.done value) before result after ↔ result = value ∧ after = before := by
  refine ⟨fun reaches => ?_, fun ⟨same, still⟩ => same ▸ still ▸ .done _ _⟩
  cases reaches with
  | done => exact ⟨rfl, rfl⟩

theorem Reaches.bind {routine : Routine σ α} {next : α → Routine σ β} {before between after : σ} {value : α}
    {result : β} (first : Reaches others routine before value between)
    (second : Reaches others (next value) between result after) :
    Reaches others (routine >>= next) before result after := by
  induction first with
  | done value state => exact second
  | act _ ih => exact .act (ih second)
  | await meanwhile isReady _ ih => exact .await meanwhile isReady (ih second)

theorem exists_of_reaches_bind {routine : Routine σ α} {next : α → Routine σ β} {before after : σ} {result : β}
    (reaches : Reaches others (routine >>= next) before result after) :
    ∃ value between, Reaches others routine before value between ∧
      Reaches others (next value) between result after := by
  induction routine generalizing before with
  | done value => exact ⟨value, before, .done _ _, reaches⟩
  | act change rest ih =>
    cases reaches with
    | act later =>
      obtain ⟨value, between, first, second⟩ := ih before later
      exact ⟨value, between, .act first, second⟩
  | await ready rest ih =>
    cases reaches with
    | await meanwhile isReady later =>
      obtain ⟨value, between, first, second⟩ := ih later
      exact ⟨value, between, .await meanwhile isReady first, second⟩

/-- What a routine comes to by itself it can come to if others may leave the state alone. -/
theorem reaches_of_finish (idle : ∀ state, others state state) {routine : Routine σ α} {before after : σ} {value : α}
    (ends : routine.finish before = (some value, after)) : Reaches others routine before value after := by
  induction routine generalizing before with
  | done result =>
    cases ends
    exact .done _ _
  | act change next ih => exact .act (ih before ends)
  | await ready next ih =>
    rw [finish] at ends
    split at ends
    · next isReady => exact .await (idle before) isReady (ih ends)
    · cases ends

end Routine

namespace CompilerAction

variable {α β : Type} {others : Workspace → Workspace → Prop} {before after : Workspace}

def ComesTo (others : Workspace → Workspace → Prop) (action : CompilerAction α) (before : Workspace)
    (outcome : Except BuildError α) (after : Workspace) : Prop :=
  Routine.Reaches others action.run before outcome after

theorem comesTo_pure_iff {value : α} {outcome : Except BuildError α} :
    ComesTo others (pure value) before outcome after ↔ outcome = .ok value ∧ after = before :=
  Routine.reaches_done_iff

theorem comesTo_throw_iff {cause : BuildError} {outcome : Except BuildError α} :
    ComesTo others (throw cause) before outcome after ↔ outcome = .error cause ∧ after = before :=
  Routine.reaches_done_iff

/-- A result that is there already. -/
theorem comesTo_lift_iff {result outcome : Except BuildError α} :
    ComesTo others (liftM result) before outcome after ↔ outcome = result ∧ after = before := by
  cases result with
  | ok value => exact comesTo_pure_iff
  | error cause => exact comesTo_throw_iff

theorem comesTo_perform_iff {action : StateM Workspace α} {outcome : Except BuildError α} :
    ComesTo others (perform action) before outcome after ↔
      outcome = .ok (action before).1 ∧ after = (action before).2 := by
  refine ⟨fun comes => ?_, fun ⟨same, still⟩ => same ▸ still ▸ .act (.done _ _)⟩
  cases comes with
  | act rest => exact Routine.reaches_done_iff.1 rest

theorem comesTo_onFiles_iff {action : BuildAction α} {outcome : Except BuildError α} :
    ComesTo others (onFiles action) before outcome after ↔
      outcome = (action before.files).1 ∧ after = { before with files := (action before.files).2 } := by
  refine ⟨fun comes => ?_, fun ⟨same, still⟩ => same ▸ still ▸ .act (.done _ _)⟩
  cases comes with
  | act rest => exact Routine.reaches_done_iff.1 rest

theorem comesTo_await_iff {ready : Workspace → Bool} {outcome : Except BuildError Unit} :
    ComesTo others (await ready) before outcome after ↔
      outcome = .ok () ∧ others before after ∧ ready after = true := by
  refine ⟨fun comes => ?_, fun ⟨same, meanwhile, isReady⟩ => same ▸ .await meanwhile isReady (.done _ _)⟩
  cases comes with
  | await meanwhile isReady rest =>
    obtain ⟨same, rfl⟩ := Routine.reaches_done_iff.1 rest
    exact ⟨same, meanwhile, isReady⟩

/-- An action ends where its first part fails, or goes on with the value of that part. -/
theorem comesTo_bind_iff {action : CompilerAction α} {next : α → CompilerAction β} {outcome : Except BuildError β} :
    ComesTo others (action >>= next) before outcome after ↔
      (∃ cause, ComesTo others action before (.error cause) after ∧ outcome = .error cause) ∨
      ∃ value between, ComesTo others action before (.ok value) between ∧
        ComesTo others (next value) between outcome after := by
  constructor
  · intro comes
    obtain ⟨first | value, between, begun, rest⟩ := Routine.exists_of_reaches_bind comes
    · obtain ⟨same, rfl⟩ := Routine.reaches_done_iff.1 rest
      exact .inl ⟨first, begun, same⟩
    · exact .inr ⟨value, between, begun, rest⟩
  · rintro (⟨cause, begun, rfl⟩ | ⟨value, between, begun, rest⟩)
    · exact Routine.Reaches.bind begun (.done _ _)
    · exact Routine.Reaches.bind begun rest

/-- A step on the workspace cannot fail. -/
theorem comesTo_perform_bind_iff {action : StateM Workspace α} {next : α → CompilerAction β}
    {outcome : Except BuildError β} :
    ComesTo others (perform action >>= next) before outcome after ↔
      ComesTo others (next (action before).1) (action before).2 outcome after := by
  refine comesTo_bind_iff.trans ⟨?_, fun comes => .inr ⟨_, _, comesTo_perform_iff.2 ⟨rfl, rfl⟩, comes⟩⟩
  rintro (⟨cause, performs, -⟩ | ⟨value, between, performs, comes⟩)
  · cases (comesTo_perform_iff.1 performs).1
  · obtain ⟨same, rfl⟩ := comesTo_perform_iff.1 performs
    cases same
    exact comes

/-- An action whose outcome decides how to go on, a failure included. -/
theorem comesTo_attempt_bind_iff {action : CompilerAction α} {next : Except BuildError α → CompilerAction β}
    {outcome : Except BuildError β} :
    ComesTo others (ExceptT.lift action.run >>= next) before outcome after ↔
      ∃ result between, ComesTo others action before result between ∧
        ComesTo others (next result) between outcome after := by
  constructor
  · intro comes
    obtain ⟨lifted, between, begun, rest⟩ := Routine.exists_of_reaches_bind comes
    obtain ⟨result, middle, attempt, ends⟩ := Routine.exists_of_reaches_bind begun
    obtain ⟨rfl, rfl⟩ := Routine.reaches_done_iff.1 ends
    exact ⟨result, between, attempt, rest⟩
  · rintro ⟨result, between, attempt, rest⟩
    exact Routine.Reaches.bind (Routine.Reaches.bind attempt (.done _ _)) rest

theorem comesTo_checkpoint_iff {outcome : Except BuildError Unit} :
    ComesTo others checkpoint before outcome after ↔
      outcome = (if before.cancellation.check.1 then .error .cancelled else .ok ()) ∧
        after = { before with cancellation := before.cancellation.check.2 } := by
  have step (seen : Bool) (middle : Workspace) :
      ComesTo others (if seen then throw .cancelled else pure ()) middle outcome after ↔
        outcome = (if seen then .error .cancelled else .ok ()) ∧ after = middle := by
    cases seen
    · exact comesTo_pure_iff
    · exact comesTo_throw_iff
  exact comesTo_perform_bind_iff.trans (step _ _)

theorem cause_of_checkpoint {cause : BuildError} (looks : ComesTo others checkpoint before (.error cause) after) :
    cause = .cancelled := by
  have seen := (comesTo_checkpoint_iff.1 looks).1
  split at seen
  · exact Except.error.inj seen
  · cases seen

def anything : Workspace → Workspace → Prop :=
  fun _ _ => True

theorem anything_idle (state : Workspace) : anything state state :=
  trivial

theorem anything_active (state : Workspace) : ∃ later, anything state later :=
  ⟨state, trivial⟩

theorem comesTo_of_finish (idle : ∀ state, others state state) {action : CompilerAction α}
    {outcome : Except BuildError α} (ends : (action.run.finish before).1 = some outcome) :
    ComesTo others action before outcome (action.run.finish before).2 :=
  Routine.reaches_of_finish idle (Prod.ext ends rfl)

/-! Coming to an end -/

def Ends (others : Workspace → Workspace → Prop) (action : CompilerAction α) : Prop :=
  ∀ before, ∃ outcome after, ComesTo others action before outcome after

theorem Ends.bind {action : CompilerAction α} {next : α → CompilerAction β} (first : Ends others action)
    (second : ∀ value, Ends others (next value)) : Ends others (action >>= next) := by
  intro before
  obtain ⟨cause | value, between, begun⟩ := first before
  · exact ⟨_, _, comesTo_bind_iff.2 (.inl ⟨cause, begun, rfl⟩)⟩
  · obtain ⟨outcome, after, rest⟩ := second value between
    exact ⟨outcome, after, comesTo_bind_iff.2 (.inr ⟨value, between, begun, rest⟩)⟩

theorem ends_attempt {action : CompilerAction α} (ends : Ends others action) :
    Ends others (ExceptT.lift action.run) := by
  intro before
  obtain ⟨outcome, after, comes⟩ := ends before
  exact ⟨.ok outcome, after, Routine.Reaches.bind comes (.done _ _)⟩

theorem ends_pure (value : α) : Ends others (pure value) :=
  fun _ => ⟨_, _, comesTo_pure_iff.2 ⟨rfl, rfl⟩⟩

theorem ends_throw (cause : BuildError) : Ends others (throw cause : CompilerAction α) :=
  fun _ => ⟨_, _, comesTo_throw_iff.2 ⟨rfl, rfl⟩⟩

theorem ends_lift (result : Except BuildError α) : Ends others (liftM result) :=
  fun _ => ⟨_, _, comesTo_lift_iff.2 ⟨rfl, rfl⟩⟩

theorem ends_perform (action : StateM Workspace α) : Ends others (perform action) :=
  fun _ => ⟨_, _, comesTo_perform_iff.2 ⟨rfl, rfl⟩⟩

theorem ends_onFiles (action : BuildAction α) : Ends others (onFiles action) :=
  fun _ => ⟨_, _, comesTo_onFiles_iff.2 ⟨rfl, rfl⟩⟩

theorem ends_checkpoint : Ends others checkpoint :=
  fun _ => ⟨_, _, comesTo_checkpoint_iff.2 ⟨rfl, rfl⟩⟩

/-- An action that awaits nothing in particular goes on, whatever the others did. -/
theorem ends_pause (active : ∀ state, ∃ later, others state later) : Ends others (await fun _ => true) := by
  intro before
  obtain ⟨later, meanwhile⟩ := active before
  exact ⟨_, later, comesTo_await_iff.2 ⟨rfl, meanwhile, rfl⟩⟩

end CompilerAction

namespace Machine
open CompilerAction

variable {others : Workspace → Workspace → Prop} {before after : Workspace}

theorem ends_run (active : ∀ state, ∃ later, others state later) (machine : Machine) (invocation : Invocation) :
    Ends others (machine.run invocation) := by
  have waits (lasting : Duration) (ending : Except BuildError ProgramOutput) :
      Ends others (await invocation lasting ending) :=
    (ends_pause active).bind fun _ => ends_checkpoint.bind fun _ => ends_lift _
  refine ends_checkpoint.bind fun _ => (ends_perform _).bind fun launch => ?_
  cases launch with
  | refused reason => exact ends_throw _
  | started lasting output => exact waits lasting _
  | broken lasting cause => exact waits lasting _

/-- A program whose end is waited for is cut short, or comes to its own end. -/
theorem await_cases {invocation : Invocation} {lasting : Duration} {ending outcome : Except BuildError ProgramOutput}
    (comes : ComesTo others (await invocation lasting ending) before outcome after) :
    outcome = .error .cancelled ∨
      (∃ limit, invocation.limit = some limit ∧ outcome = .error (.timeout invocation.unit limit)) ∨
      outcome = ending := by
  rcases comesTo_bind_iff.1 comes with ⟨cause, waits, -⟩ | ⟨_, between, -, comes⟩
  · cases (comesTo_await_iff.1 waits).1
  rcases comesTo_bind_iff.1 comes with ⟨cause, looks, rfl⟩ | ⟨_, last, -, settles⟩
  · exact .inl (congrArg _ (cause_of_checkpoint looks))
  · obtain ⟨rfl, -⟩ := comesTo_lift_iff.1 settles
    rw [settle]
    split
    · next limit limited =>
      split
      · exact .inr (.inl ⟨limit, limited, rfl⟩)
      · exact .inr (.inr rfl)
    · exact .inr (.inr rfl)

/-- What comes of running a program. It has an output only if it was started and came to its end. -/
theorem run_cases {machine : Machine} {invocation : Invocation} {outcome : Except BuildError ProgramOutput}
    (comes : ComesTo others (machine.run invocation) before outcome after) :
    outcome = .error .cancelled ∨
      (∃ limit, invocation.limit = some limit ∧ outcome = .error (.timeout invocation.unit limit)) ∨
      match (machine.launch invocation before.files).1 with
      | .refused reason => outcome =
        .error (.toolchain invocation.language ("failed to run " ++ invocation.program ++ ": " ++ reason))
      | .started _ output => outcome = .ok output.decoded
      | .broken _ cause => outcome = .error (.file cause) := by
  rcases comesTo_bind_iff.1 comes with ⟨cause, looks, rfl⟩ | ⟨_, looked, looks, comes⟩
  · exact .inl (congrArg _ (cause_of_checkpoint looks))
  obtain ⟨-, rfl⟩ := comesTo_checkpoint_iff.1 looks
  have comes := comesTo_perform_bind_iff.1 comes
  simp only [start] at comes
  cases launched : (machine.launch invocation before.files).1 with
  | refused reason =>
    rw [launched] at comes
    exact .inr (.inr (comesTo_throw_iff.1 comes).1)
  | started lasting output =>
    rw [launched] at comes
    exact await_cases comes
  | broken lasting cause =>
    rw [launched] at comes
    exact await_cases comes

end Machine
end ContractBuild
