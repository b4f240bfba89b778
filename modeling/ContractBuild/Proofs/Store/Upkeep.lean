import ContractBuild.Proofs.Store.SharedCompile

/-!
What compilations keep. A relation that holds across everything a request does to the entries and
their files, and across every step of the adapter's call, holds across whole runs of a pool.
-/
namespace ContractBuild

namespace Routine

variable {σ α : Type} {related : σ → σ → Prop} {allowed : α → Prop}

inductive Within (related : σ → σ → Prop) (allowed : α → Prop) : Routine σ α → Prop
  | done {value : α} (fine : allowed value) : Within related allowed (.done value)
  | act {change : σ → σ} {next : σ → Routine σ α} (changes : ∀ state, related state (change state))
    (rest : ∀ state, Within related allowed (next state)) : Within related allowed (.act change next)
  | await {ready : σ → Bool} {next : Routine σ α} (rest : Within related allowed next) :
    Within related allowed (.await ready next)

theorem Within.mono {wider : σ → σ → Prop} {more : α → Prop} {routine : Routine σ α}
    (within : routine.Within related allowed)
    (changes : ∀ before after, related before after → wider before after)
    (values : ∀ value, allowed value → more value) : routine.Within wider more := by
  induction within with
  | done fine => exact .done (values _ fine)
  | act inside _ ih => exact .act (fun state => changes _ _ (inside state)) ih
  | await _ ih => exact .await ih

theorem Within.poll (refl : ∀ state, related state state)
    (trans : ∀ {first middle last}, related first middle → related middle last → related first last)
    {routine : Routine σ α} (within : routine.Within related allowed) (state : σ) :
    (routine.poll state).1.Within related allowed ∧ related state (routine.poll state).2 := by
  induction within generalizing state with
  | done fine => exact ⟨.done fine, refl state⟩
  | act changes _ ih =>
    obtain ⟨rest, later⟩ := ih state _
    exact ⟨rest, trans (changes state) later⟩
  | await rest _ => exact ⟨.await rest, refl state⟩

theorem Within.resume (refl : ∀ state, related state state)
    (trans : ∀ {first middle last}, related first middle → related middle last → related first last)
    {routine : Routine σ α} (within : routine.Within related allowed) (state : σ) :
    (routine.resume state).1.Within related allowed ∧ related state (routine.resume state).2 := by
  cases within with
  | done fine => exact ⟨.done fine, refl state⟩
  | act changes rest => exact Within.poll refl trans (.act changes rest) state
  | await rest => exact Within.poll refl trans rest state

end Routine

namespace Request

def Concludes (related : BuildState → BuildState → Prop) (request : Request)
    (outcome : Except BuildError Artifact) : Prop :=
  ∀ artifact, outcome = .ok artifact → request.isAnsweredBy artifact = true →
    ∀ state, related state (Store.publish artifact state).2

structure Upholds (related : BuildState → BuildState → Prop) (request : Request) : Prop where
  trans : ∀ {first middle last}, related first middle → related middle last → related first last
  entries : ∀ (state : BuildState) (store : Store), store.live = state.store.live →
    store.directory = state.store.directory → related state { state with store }
  drops : ∀ state, related state (Store.invalidate request.name state).2
  calls : (request.adapter.call request.unit request.version).Within
    (fun before after => ∀ store, related ⟨before, store⟩ ⟨after, store⟩) (request.Concludes related)

def Within (related : BuildState → BuildState → Prop) (request : Request) : Phase → Prop
  | .compiling _ call => call.Within (fun before after => ∀ store, related ⟨before, store⟩ ⟨after, store⟩)
    (request.Concludes related)
  | _ => True

variable {related : BuildState → BuildState → Prop} {request : Request}
  {slot : Nat} {state : BuildState}

theorem Upholds.refl (upholds : request.Upholds related) (state : BuildState) :
    related state state :=
  upholds.entries state state.store rfl rfl

theorem Upholds.settle (upholds : request.Upholds related)
    (outcome : Except BuildError Artifact) :
    request.Within related (request.settle slot outcome state).1 ∧
      related state (request.settle slot outcome state).2 :=
  ⟨trivial, upholds.entries state _ rfl rfl⟩

theorem Upholds.conclude (upholds : request.Upholds related)
    {outcome : Except BuildError Artifact}
    (allowed : request.Concludes related outcome) :
    request.Within related (request.conclude slot outcome state).1 ∧
      related state (request.conclude slot outcome state).2 := by
  cases outcome with
  | error cause => exact ⟨trivial, upholds.entries state _ rfl rfl⟩
  | ok artifact =>
    unfold Request.conclude
    dsimp only
    split
    · next answers =>
      exact ⟨trivial, upholds.trans (allowed artifact rfl answers state) (upholds.settle _).2⟩
    · exact ⟨trivial, upholds.entries state _ rfl rfl⟩

theorem Upholds.proceed (upholds : request.Upholds related)
    {call : Routine Workspace (Except BuildError Artifact)}
    (within : request.Within related (.compiling slot call)) (state : BuildState) :
    request.Within related (request.proceed slot call state).1 ∧
      related state (request.proceed slot call state).2 := by
  cases call with
  | done outcome =>
    cases within with
    | done allowed => exact upholds.conclude allowed
  | act change next => exact ⟨within, upholds.refl state⟩
  | await ready next => exact ⟨within, upholds.refl state⟩

theorem Upholds.compile (upholds : request.Upholds related) :
    request.Within related (request.compile slot state).1 ∧
      related state (request.compile slot state).2 := by
  obtain ⟨rest, called⟩ := upholds.calls.poll (fun workspace store => upholds.refl ⟨workspace, store⟩)
    (fun earlier later store => upholds.trans (earlier store) (later store)) state.workspace
  have counted := upholds.entries ⟨((request.adapter.call request.unit request.version).poll
    state.workspace).2, state.store⟩ state.store.countCompile rfl rfl
  obtain ⟨within, proceeds⟩ := upholds.proceed rest ⟨_, state.store.countCompile⟩
  exact ⟨within, upholds.trans (called state.store) (upholds.trans counted proceeds)⟩

theorem Upholds.lead (upholds : request.Upholds related) :
    request.Within related (request.lead slot state).1 ∧
      related state (request.lead slot state).2 := by
  have marked : related state (state.onStore (·.setCell slot .busy)) :=
    upholds.entries state _ rfl rfl
  unfold Request.lead
  dsimp only
  split
  · exact ⟨trivial, upholds.trans marked (upholds.entries _ _ rfl rfl)⟩
  · split
    · have dropped := upholds.drops (state.onStore (·.setCell slot .busy))
      split
      · next after ran =>
        rw [ran] at dropped
        exact ⟨upholds.compile.1, upholds.trans marked (upholds.trans dropped upholds.compile.2)⟩
      · next cause after ran =>
        rw [ran] at dropped
        exact ⟨trivial, upholds.trans marked (upholds.trans dropped (upholds.settle _).2)⟩
    · exact ⟨upholds.compile.1, upholds.trans marked upholds.compile.2⟩

theorem Upholds.enter (upholds : request.Upholds related) (slot : Nat)
    (state : BuildState) :
    request.Within related (request.enter slot state).1 ∧
      related state (request.enter slot state).2 := by
  unfold Request.enter
  split
  · exact ⟨trivial, upholds.entries state _ rfl rfl⟩
  · exact ⟨trivial, upholds.refl state⟩
  · exact upholds.lead

/-- A relation that a request upholds holds across each of its pieces. -/
theorem Upholds.advance (upholds : request.Upholds related) {phase : Phase}
    (within : request.Within related phase) (state : BuildState) :
    request.Within related (request.advance phase state).1 ∧
      related state (request.advance phase state).2 := by
  cases phase with
  | pending =>
    show request.Within related (request.begin state).1 ∧ related state (request.begin state).2
    unfold begin
    split
    · exact ⟨trivial, upholds.entries state _ rfl rfl⟩
    · have joined : related state { state with
          store := (state.store.countMiss.join request.fingerprint).2 } := by
        apply upholds.entries
        · unfold Store.join
          split <;> rfl
        · unfold Store.join
          split <;> rfl
      obtain ⟨rest, entered⟩ := upholds.enter (state.store.countMiss.join request.fingerprint).1
        { state with store := (state.store.countMiss.join request.fingerprint).2 }
      exact ⟨rest, upholds.trans joined entered⟩
  | waiting slot => exact upholds.enter slot state
  | compiling slot call =>
    obtain ⟨rest, called⟩ := Routine.Within.resume
      (fun workspace store => upholds.refl ⟨workspace, store⟩)
      (fun earlier later store => upholds.trans (earlier store) (later store)) within state.workspace
    have kept : request.Within related (.compiling slot (call.resume state.workspace).1) := rest
    obtain ⟨within, proceeds⟩ :=
      upholds.proceed kept { state with workspace := (call.resume state.workspace).2 }
    exact ⟨within, upholds.trans (called state.store) proceeds⟩
  | answered outcome => exact ⟨trivial, upholds.refl state⟩

end Request

namespace Pool

variable {related : BuildState → BuildState → Prop} {work : List (Except BuildError Request)}

structure Within (related : BuildState → BuildState → Prop) (work : List (Except BuildError Request))
    (pool : Pool) : Prop where
  asked : ∀ strand ∈ pool.strands, strand.work ∈ work
  phases : ∀ strand ∈ pool.strands, ∀ request, strand.work = .ok request → request.Within related strand.phase

theorem within_ofWork (limit : Nat) (work : List (Except BuildError Request)) :
    (ofWork limit work).Within related work := by
  constructor
  · intro strand member
    obtain ⟨asked, there, rfl⟩ := List.mem_map.1 member
    exact there
  · intro strand member request _
    obtain ⟨asked, _, rfl⟩ := List.mem_map.1 member
    trivial

theorem Within.advance (refl : ∀ state, related state state)
    (upholds : ∀ request, .ok request ∈ work → request.Upholds related) {pool : Pool}
    (within : pool.Within related work) (state : BuildState) (position : Nat) :
    (pool.advance state position).1.Within related work ∧
      related state (pool.advance state position).2 := by
  unfold Pool.advance
  cases found : pool.strands[position]? with
  | none => exact ⟨within, refl state⟩
  | some strand =>
    have member := List.mem_of_getElem? found
    have replaced : ∀ next : Strand, next.work = strand.work →
        (∀ request, strand.work = .ok request → request.Within related next.phase) →
        Within related work { pool with strands := pool.strands.set position next } := by
      intro next same fine
      constructor
      · intro other there
        rcases List.mem_or_eq_of_mem_set there with old | rfl
        · exact within.asked other old
        · exact same ▸ within.asked strand member
      · intro other there
        rcases List.mem_or_eq_of_mem_set there with old | rfl
        · exact within.phases other old
        · exact fun request asks => fine request (same ▸ asks)
    cases asks : strand.work with
    | error cause =>
      have step := Strand.advance_of_error asks state
      refine ⟨replaced _ (by rw [step]) ?_, ?_⟩
      · intro request asksToo
        rw [asks] at asksToo
        cases asksToo
      · show related state (strand.advance state).2
        rw [step]
        exact refl state
    | ok request =>
      obtain ⟨sameWork, phase, after⟩ := Strand.advance_of_ok asks state
      have asked : .ok request ∈ work := asks ▸ within.asked strand member
      obtain ⟨rest, kept⟩ := (upholds request asked).advance (within.phases strand member request asks) state
      refine ⟨replaced _ (sameWork.trans asks.symm) fun other asksToo => ?_, after ▸ kept⟩
      rw [asks] at asksToo
      cases asksToo
      exact phase ▸ rest

theorem Within.follow (refl : ∀ state, related state state)
    (trans : ∀ {first middle last}, related first middle → related middle last → related first last)
    (upholds : ∀ request, .ok request ∈ work → request.Upholds related) {pool : Pool}
    (within : pool.Within related work) (state : BuildState) (order : List Nat) :
    related state (pool.follow state order).2 := by
  induction order generalizing pool state with
  | nil => exact refl state
  | cons position order ih =>
    obtain ⟨rest, kept⟩ := within.advance refl upholds state position
    exact trans kept (ih rest _)

/-- A relation that all requests uphold holds across a run of them. -/
theorem run_upholds (refl : ∀ state, related state state)
    (trans : ∀ {first middle last}, related first middle → related middle last → related first last)
    (upholds : ∀ request, .ok request ∈ work → request.Upholds related) (limit : Nat)
    (state : BuildState) : related state ((ofWork limit work).run state).2 := by
  obtain ⟨order, ran⟩ := run_eq_follow (ofWork limit work) state
  rw [ran]
  exact (within_ofWork limit work).follow refl trans upholds state order

end Pool

namespace Store

section
variable {related : BuildState → BuildState → Prop} (refl : ∀ state, related state state)
  (trans : ∀ {first middle last}, related first middle → related middle last → related first last)
  (drops : ∀ name state, related state (invalidate name state).2)
include refl trans drops

/-- A relation across the dropping of single artifacts holds across the dropping of several. -/
theorem invalidateAll_upholds (names : List String) : Action.Keeps related (invalidateAll names) := by
  induction names with
  | nil => exact Action.Keeps.pure refl ()
  | cons name names ih =>
    refine Action.Keeps.bind ?_ (drops name) fun _ => ih
    exact trans

theorem retain_upholds (inUse : List String) : Action.Keeps related (retain inUse) := by
  refine Action.Keeps.bind ?_ (fun state => refl state) fun state => ?_
  · exact trans
  · refine Action.Keeps.bind ?_ (invalidateAll_upholds refl trans drops _) fun _ => Action.Keeps.pure refl _
    exact trans

theorem clear_upholds : Action.Keeps related clear := by
  refine Action.Keeps.bind ?_ (fun state => refl state) fun state => invalidateAll_upholds refl trans drops _
  exact trans

end

/-- Whoever waits for an artifact goes on waiting when others are dropped. -/
theorem slots_retain (inUse : List String) (state : BuildState) :
    (retain inUse state).2.store.slots = state.store.slots := by
  refine @retain_upholds (fun before after => after.store.slots = before.store.slots) (fun _ => rfl) ?_ ?_ inUse
    state
  · exact fun earlier later => later.trans earlier
  · intro name state
    rw [store_invalidate]
    rfl

end Store
end ContractBuild
