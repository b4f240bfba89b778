/-!
Actions that change a state and can fail, read as functions on the state: what a sequence of them
does, how one that went well splits into its parts, and relations between states that every part
of an action keeps.
-/
namespace ContractBuild.Action

section
variable {σ ε ε' α β : Type}

@[simp] theorem bind_apply (action : ExceptT ε (StateM σ) α) (next : α → ExceptT ε (StateM σ) β) (state : σ) :
    (action >>= next) state =
      match action state with
      | (.ok value, after) => next value after
      | (.error cause, after) => (.error cause, after) := by
  show (ExceptT.bindCont next (action state).1) (action state).2 = _
  rcases action state with ⟨cause | value, after⟩ <;> rfl

theorem bind_of_ok {action : ExceptT ε (StateM σ) α} {state after : σ} {value : α}
    (ran : action state = (.ok value, after)) (next : α → ExceptT ε (StateM σ) β) :
    (action >>= next) state = next value after := by
  rw [bind_apply, ran]

theorem bind_of_error {action : ExceptT ε (StateM σ) α} {state after : σ} {cause : ε}
    (ran : action state = (.error cause, after)) (next : α → ExceptT ε (StateM σ) β) :
    (action >>= next) state = (.error cause, after) := by
  rw [bind_apply, ran]

theorem bind_eq_ok {action : ExceptT ε (StateM σ) α} {next : α → ExceptT ε (StateM σ) β}
    {state last : σ} {result : β} (ran : (action >>= next) state = (.ok result, last)) :
    ∃ value after, action state = (.ok value, after) ∧ next value after = (.ok result, last) := by
  rw [bind_apply] at ran
  cases first : action state with
  | mk outcome after =>
    rw [first] at ran
    cases outcome with
    | ok value => exact ⟨value, after, rfl, ran⟩
    | error cause => cases ran

@[simp] theorem pure_apply (value : α) (state : σ) :
    (pure value : ExceptT ε (StateM σ) α) state = (.ok value, state) := rfl

@[simp] theorem get_apply (state : σ) :
    (get : ExceptT ε (StateM σ) σ) state = (.ok state, state) := rfl

@[simp] theorem modify_apply (change : σ → σ) (state : σ) :
    (modify change : ExceptT ε (StateM σ) Unit) state = (.ok (), change state) := rfl

def Keeps (related : σ → σ → Prop) (action : ExceptT ε (StateM σ) α) : Prop :=
  ∀ state, related state (action state).2

variable {related : σ → σ → Prop}

theorem Keeps.bind (trans : ∀ {a b c}, related a b → related b c → related a c)
    {action : ExceptT ε (StateM σ) α} {next : α → ExceptT ε (StateM σ) β}
    (first : Keeps related action) (second : ∀ value, Keeps related (next value)) :
    Keeps related (action >>= next) := by
  intro state
  have before := first state
  rw [bind_apply]
  cases ran : action state with
  | mk outcome after =>
    rw [ran] at before
    cases outcome with
    | ok value => exact trans before (second value after)
    | error cause => exact before

theorem Keeps.pure (refl : ∀ a, related a a) (value : α) :
    Keeps related (Pure.pure value : ExceptT ε (StateM σ) α) :=
  fun state => refl state

theorem Keeps.throw (refl : ∀ a, related a a) (cause : ε) :
    Keeps related (MonadExcept.throw cause : ExceptT ε (StateM σ) α) :=
  fun state => refl state

def Fails (causes : ε → Prop) (action : ExceptT ε (StateM σ) α) : Prop :=
  ∀ state cause, (action state).1 = .error cause → causes cause

variable {causes : ε → Prop}

theorem Fails.bind {action : ExceptT ε (StateM σ) α} {next : α → ExceptT ε (StateM σ) β}
    (first : Fails causes action) (second : ∀ value, Fails causes (next value)) :
    Fails causes (action >>= next) := by
  intro state cause failed
  rw [bind_apply] at failed
  cases ran : action state with
  | mk outcome after =>
    rw [ran] at failed
    cases outcome with
    | ok value => exact second value after cause failed
    | error other =>
      cases failed
      exact first state cause (by rw [ran])

theorem Fails.pure (value : α) : Fails causes (Pure.pure value : ExceptT ε (StateM σ) α) :=
  fun _ _ failed => nomatch failed

end

end ContractBuild.Action
