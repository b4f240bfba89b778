import ContractBuild.Proofs.Store.Distinct
import ContractBuild.Proofs.Store.Flights
import ContractBuild.Proofs.Store.Serving

/-!
A request that nobody else is at work beside. It takes the entry of its name if that has its
fingerprint. Otherwise it drops what is there and calls its adapter once, and it is told what this call
came to; no outcome of another request is left in a slot that it could take.
-/
namespace ContractBuild

namespace Routine

variable {σ α : Type}

theorem finish_poll (routine : Routine σ α) (state : σ) :
    (routine.poll state).1.finish (routine.poll state).2 = routine.finish state := by
  induction routine generalizing state with
  | done value => rfl
  | act change next ih => exact ih state (change state)
  | await ready next => rfl

theorem finish_resume {routine : Routine σ α} {state : σ} (ready : routine.isReady state = true) :
    (routine.resume state).1.finish (routine.resume state).2 = routine.finish state := by
  cases routine with
  | done value => rfl
  | act change next => exact finish_poll (.act change next) state
  | await awaited next =>
    have isReady : awaited state = true := ready
    rw [finish, if_pos isReady]
    exact finish_poll next state

theorem isReady_of_finish {routine : Routine σ α} {state : σ}
    (ends : (routine.finish state).1.isSome = true) : routine.isReady state = true := by
  cases routine with
  | await ready next =>
    cases isReady : ready state with
    | true => exact isReady
    | false =>
      rw [finish, isReady] at ends
      cases ends
  | _ => rfl

end Routine

def Workspace.SameCalls (before after : Workspace) : Prop :=
  after.calls = before.calls

namespace Workspace

theorem SameCalls.refl (workspace : Workspace) : workspace.SameCalls workspace :=
  rfl

theorem SameCalls.trans {first middle last : Workspace} (earlier : first.SameCalls middle)
    (later : middle.SameCalls last) : first.SameCalls last :=
  Eq.trans later earlier

end Workspace

namespace Store

def Rests (led : Option Nat) (store : Store) : Prop :=
  ∀ position entry, store.slots[position]? = some entry → entry.listed = true → some position ≠ led →
    entry.cell = .vacant

variable {store after : Store} {slot : Nat} {led : Option Nat}

theorem Rests.of_slots_eq (rests : store.Rests led) (same : after.slots = store.slots) : after.Rests led := by
  rwa [Rests, same]

theorem Rests.join (rests : store.Rests none) (fingerprint : Fingerprint) :
    (store.join fingerprint).2.Rests none ∧
      (store.join fingerprint).2.cell (store.join fingerprint).1 = .vacant := by
  -- a slot that is joined is listed and not led, so it is vacant; otherwise the slot is new
  rcases join_cases store fingerprint with ⟨position, entry, run, found, isListed, _⟩ | ⟨run, _⟩
  · rw [run]
    refine ⟨rests, ?_⟩
    rw [cell, found]
    exact rests position entry found isListed (Option.some_ne_none position)
  · rw [run]
    constructor
    · intro position entry found isListed apart
      rcases slot_of_append found with old | ⟨_, rfl⟩
      · exact rests position entry old isListed apart
      · rfl
    · rw [cell, List.getElem?_concat_length]
      rfl

theorem Rests.setCell (rests : store.Rests none) (slot : Nat) (cell : Cell (Except BuildError Artifact)) :
    (store.setCell slot cell).Rests (some slot) := by
  intro position entry found isListed apart
  rw [getElem?_setCell, Option.map_eq_some_iff] at found
  obtain ⟨old, there, rfl⟩ := found
  rw [if_neg fun same => apart (congrArg some same.symm)] at isListed ⊢
  exact rests position old there isListed (Option.some_ne_none position)

theorem Rests.vacate (rests : store.Rests (some slot)) : (store.setCell slot .vacant).Rests none := by
  intro position entry found isListed _
  rw [getElem?_setCell, Option.map_eq_some_iff] at found
  obtain ⟨old, there, rfl⟩ := found
  split
  · rfl
  · next apart =>
    rw [if_neg apart] at isListed
    exact rests position old there isListed fun same => apart (Option.some.inj same).symm

theorem Rests.fill (rests : store.Rests (some slot)) (outcome : Except BuildError Artifact) :
    (store.fill slot outcome).Rests none := by
  intro position entry found isListed _
  rw [getElem?_fill, Option.map_eq_some_iff] at found
  obtain ⟨old, there, rfl⟩ := found
  by_cases same : slot = position
  · rw [if_pos same] at isListed
    cases isListed
  · rw [if_neg same] at isListed ⊢
    exact rests position old there isListed fun equal => same (Option.some.inj equal).symm

end Store

namespace Request

inductive Attends (request : Request) (before : BuildState) : Phase → BuildState → Prop
  | comes : Attends request before .pending before
  | piece {phase : Phase} {state : BuildState} (earlier : Attends request before phase state)
    (ready : phase.isReady state = true) :
    Attends request before (request.advance phase state).1 (request.advance phase state).2

def cleared (request : Request) (before : BuildState) : BuildState :=
  if (before.store.lookup request.name).isSome then (Store.invalidate request.name before).2 else before

def ending (request : Request) (before : BuildState) : Option (Except BuildError Artifact) × Workspace :=
  (request.adapter.call request.unit request.version).finish (request.cleared before).workspace

def verdict (request : Request) : Except BuildError Artifact → Except BuildError Artifact
  | .error cause => .error cause
  | .ok artifact => if request.isAnsweredBy artifact then .ok artifact else .error (request.mismatch artifact)

/-- No operation on files goes wrong: the entry that is there can be dropped, and the artifact that the
call comes to can be put in its file. -/
structure Unhindered (request : Request) (before : BuildState) : Prop where
  drops : (before.store.lookup request.name).isSome = true → (Store.invalidate request.name before).1.isOk = true
  stores : ∀ artifact workspace, request.ending before = (some (.ok artifact), workspace) →
    request.isAnsweredBy artifact = true →
    (Store.publish artifact ⟨workspace, (request.cleared before).store⟩).1.isOk = true

def Discreet (request : Request) : Prop :=
  (request.adapter.compile request.unit request.version).run.Within Workspace.SameCalls fun _ => True

structure Called (request : Request) (before state : BuildState) (failures : Nat) : Prop where
  stale : before.store.fresh? request.name request.fingerprint = none
  directory : state.store.directory = before.store.directory
  counters : state.store.counters = ⟨before.store.counters.hits, before.store.counters.misses + 1,
    before.store.counters.compiles + 1, before.store.counters.failures + failures⟩
  calls : state.workspace.calls = before.workspace.calls ++ [request.adapter.language]

inductive Stage (request : Request) (before : BuildState) : Phase → BuildState → Prop
  | pending : Stage request before .pending before
  | reused {artifact : Artifact} (fresh : before.store.fresh? request.name request.fingerprint = some artifact) :
    Stage request before (.answered (.ok artifact)) (before.onStore Store.countHit)
  | compiling {slot : Nat} {call : Routine Workspace (Except BuildError Artifact)} {state : BuildState}
    (called : Called request before state 0) (rests : state.store.Rests (some slot))
    (gone : state.store.lookup request.name = none)
    (discreet : call.Within Workspace.SameCalls fun _ => True)
    (ends : call.finish state.workspace = request.ending before) :
    Stage request before (.compiling slot call) state
  | told {outcome : Except BuildError Artifact} {workspace : Workspace} {state : BuildState}
    (called : Called request before state (if (request.verdict outcome).isOk then 0 else 1))
    (rests : state.store.Rests none)
    (lives : state.store.lookup request.name = (request.verdict outcome).toOption)
    (ends : request.ending before = (some outcome, workspace)) :
    Stage request before (request.retell (request.verdict outcome)) state

variable {request : Request} {before state : BuildState} {slot : Nat} {phase : Phase}

theorem conclude_stage {outcome : Except BuildError Artifact} (unhindered : request.Unhindered before)
    (called : Called request before state 0) (rests : state.store.Rests (some slot))
    (gone : state.store.lookup request.name = none)
    (ends : request.ending before = (some outcome, state.workspace)) :
    Stage request before (request.conclude slot outcome state).1 (request.conclude slot outcome state).2 := by
  have failed : ∀ cause, request.verdict outcome = .error cause →
      Stage request before (request.retell (request.verdict outcome))
        (request.settle slot (.error cause) (state.onStore Store.countFailure)).2 := by
    intro cause isError
    refine .told ⟨called.stale, called.directory, ?_, called.calls⟩ (rests.fill (.error cause)) ?_ ends
    · rw [isError]
      show StoreCounters.mk _ _ _ (state.store.counters.failures + 1) = _
      rw [called.counters]
      rfl
    · rw [isError]
      exact gone
  cases outcome with
  | error cause => exact failed cause rfl
  | ok artifact =>
    unfold conclude
    dsimp only
    split
    · next answers =>
      have isOk : request.verdict (.ok artifact) = .ok artifact := if_pos answers
      have stores := unhindered.stores artifact state.workspace ends answers
      -- that publishing goes well is known of the cleared store, which writes to the same directory
      have directory : (request.cleared before).store.directory = state.store.directory := by
        rw [called.directory, cleared]
        split
        · rw [Store.store_invalidate]
          rfl
        · rfl
      have same : (Store.publish artifact ⟨state.workspace, (request.cleared before).store⟩).1.isOk =
          (Store.publish artifact state).1.isOk := Store.publish_isOk_congr artifact rfl directory
      have went := same.symm.trans stores
      obtain ⟨files, run⟩ | ⟨cause, files, run⟩ := Store.publish_cases artifact state
      · rw [run]
        have told : Stage request before (request.retell (request.verdict (.ok artifact)))
            (request.settle slot (.ok artifact)
              ⟨{ state.workspace with files }, state.store.insert artifact⟩).2 := by
          refine .told ⟨called.stale, called.directory, ?_, called.calls⟩ (rests.fill (.ok artifact)) ?_ ends
          · rw [isOk]
            exact called.counters
          · rw [isOk, ← (isAnsweredBy_iff.1 answers).2]
            exact Store.lookup_insert_self state.store artifact
        rw [isOk] at told
        exact told
      · rw [run] at went
        cases went
    · next differs =>
      have isError : request.verdict (.ok artifact) = .error (request.mismatch artifact) := if_neg differs
      have told := failed _ isError
      rw [isError] at told
      exact told

theorem proceed_stage {call : Routine Workspace (Except BuildError Artifact)}
    (unhindered : request.Unhindered before) (called : Called request before state 0)
    (rests : state.store.Rests (some slot)) (gone : state.store.lookup request.name = none)
    (discreet : call.Within Workspace.SameCalls fun _ => True)
    (ends : call.finish state.workspace = request.ending before) :
    Stage request before (request.proceed slot call state).1 (request.proceed slot call state).2 := by
  cases call with
  | done outcome => exact conclude_stage unhindered called rests gone ends.symm
  | act change next => exact .compiling called rests gone discreet ends
  | await ready next => exact .compiling called rests gone discreet ends

/-- A request that leads without a fresh entry calls its adapter in a cleared workspace. -/
theorem lead_stage {joined : Store} (unhindered : request.Unhindered before) (discreet : request.Discreet)
    (stale : before.store.fresh? request.name request.fingerprint = none)
    (live : joined.live = before.store.live) (directory : joined.directory = before.store.directory)
    (counters : joined.counters = before.store.countMiss.counters) (rests : joined.Rests none) :
    Stage request before (request.lead slot ⟨before.workspace, joined⟩).1
      (request.lead slot ⟨before.workspace, joined⟩).2 := by
  obtain ⟨marked, isMarked⟩ : ∃ marked,
      BuildState.onStore ⟨before.workspace, joined⟩ (·.setCell slot .busy) = marked := ⟨_, rfl⟩
  have workspace : marked.workspace = before.workspace := isMarked ▸ rfl
  have sameLive : marked.store.live = before.store.live := isMarked ▸ live
  have sameDirectory : marked.store.directory = before.store.directory := isMarked ▸ directory
  have sameLookup := Store.lookup_of_live_eq sameLive request.name
  have led : marked.store.Rests (some slot) := isMarked ▸ rests.setCell slot .busy
  have counted : marked.store.counters = before.store.countMiss.counters := isMarked ▸ counters
  have staleToo : marked.store.fresh? request.name request.fingerprint = none := by
    rw [Store.fresh?, sameLookup]
    exact stale
  -- the adapter is called in the same way whether or not an entry was dropped before
  have compiles : ∀ ready : BuildState, ready.workspace = (request.cleared before).workspace →
      ready.workspace.calls = before.workspace.calls → ready.store.directory = before.store.directory →
      ready.store.counters = before.store.countMiss.counters → ready.store.Rests (some slot) →
      ready.store.lookup request.name = none →
      Stage request before (request.compile slot ready).1 (request.compile slot ready).2 := by
    intro ready isCleared calls directory counters rests gone
    obtain ⟨rest, noted⟩ := Routine.Within.poll .refl .trans discreet (ready.workspace.noteCall request.adapter.language)
    refine proceed_stage unhindered ⟨stale, directory, ?_, ?_⟩ rests gone rest ?_
    · show StoreCounters.mk ready.store.counters.hits _ (ready.store.counters.compiles + 1) _ = _
      rw [counters]
      rfl
    · exact Eq.trans noted (congrArg (· ++ [request.adapter.language]) calls)
    · rw [ending, ← isCleared]
      exact Routine.finish_poll (request.adapter.call request.unit request.version) ready.workspace
  rw [lead_of_stale isMarked staleToo, sameLookup]
  by_cases isThere : (before.store.lookup request.name).isSome = true
  · rw [if_pos isThere]
    obtain ⟨sameOutcome, sameWorkspace⟩ := Store.invalidate_congr request.name workspace sameDirectory
    have went := sameOutcome.trans (unhindered.drops isThere)
    have erased := Store.store_invalidate request.name marked
    have calls : (Store.invalidate request.name marked).2.workspace.calls = before.workspace.calls := by
      rw [← workspace]
      rcases Store.workspace_invalidate request.name marked with same | same <;> rw [same]
    have cleared : (Store.invalidate request.name marked).2.workspace = (request.cleared before).workspace := by
      rw [sameWorkspace, Request.cleared, if_pos isThere]
    cases run : Store.invalidate request.name marked with
    | mk outcome after =>
      rw [run] at went erased calls cleared
      cases outcome with
      | error cause => cases went
      | ok value =>
        refine compiles after cleared calls ?_ ?_ ?_ ?_
        · rw [erased]
          exact sameDirectory
        · rw [erased]
          exact counted
        · rw [erased]
          exact led.of_slots_eq rfl
        · rw [erased]
          exact Store.lookup_erase_self marked.store request.name
  · rw [if_neg isThere]
    refine compiles marked ?_ (congrArg Workspace.calls workspace) sameDirectory counted led ?_
    · rw [workspace, Request.cleared, if_neg isThere]
    · rw [sameLookup]
      exact Option.not_isSome_iff_eq_none.1 isThere

theorem Stage.advance (stage : Stage request before phase state) (ready : phase.isReady state = true)
    (rests : before.store.Rests none) (discreet : request.Discreet)
    (unhindered : before.store.fresh? request.name request.fingerprint = none → request.Unhindered before) :
    Stage request before (request.advance phase state).1 (request.advance phase state).2 := by
  cases stage with
  | pending =>
    show Stage request before (request.begin before).1 (request.begin before).2
    unfold begin
    cases fresh : before.store.fresh? request.name request.fingerprint with
    | some artifact => exact .reused fresh
    | none =>
      -- nobody leads a slot before this request does, so it leads the slot that it joins
      have counted : before.store.countMiss.Rests none := rests.of_slots_eq rfl
      obtain ⟨joined, vacant⟩ := counted.join request.fingerprint
      dsimp only
      rw [enter_of_vacant vacant]
      have kept : (before.store.countMiss.join request.fingerprint).2.directory = before.store.directory ∧
          (before.store.countMiss.join request.fingerprint).2.counters = before.store.countMiss.counters := by
        rcases Store.join_cases before.store.countMiss request.fingerprint with ⟨_, _, run, _⟩ | ⟨run, _⟩ <;>
          rw [run] <;> exact ⟨rfl, rfl⟩
      exact lead_stage (unhindered fresh) discreet fresh (Store.live_join _ _) kept.1 kept.2 joined
  | reused fresh => cases ready
  | compiling called rests gone discreet ends =>
    next slot call =>
    obtain ⟨rest, calls⟩ := Routine.Within.resume .refl .trans discreet state.workspace
    refine proceed_stage (unhindered called.stale) ?_ rests gone rest ((Routine.finish_resume ready).trans ends)
    exact ⟨called.stale, called.directory, called.counters, Eq.trans calls called.calls⟩
  | told => cases ready

/-- A request that nobody else is at work beside goes through these stages. -/
theorem Attends.stage (attends : request.Attends before phase state) (rests : before.store.Rests none)
    (discreet : request.Discreet)
    (unhindered : before.store.fresh? request.name request.fingerprint = none → request.Unhindered before) :
    Stage request before phase state := by
  induction attends with
  | comes => exact .pending
  | piece earlier ready ih => exact ih.advance ready rests discreet unhindered

theorem Attends.upholds {related : BuildState → BuildState → Prop} (upholds : request.Upholds related)
    (attends : request.Attends before phase state) : request.Within related phase ∧ related before state := by
  induction attends with
  | comes => exact ⟨trivial, upholds.refl before⟩
  | piece earlier ready ih =>
    obtain ⟨within, after⟩ := upholds.advance ih.1 _
    exact ⟨within, upholds.trans ih.2 after⟩

theorem Attends.lookup_of_ne (attends : request.Attends before phase state) {name : String}
    (differs : name ≠ request.name) : state.store.lookup name = before.store.lookup name := by
  induction attends with
  | comes => rfl
  | piece earlier ready ih => exact ((request.advance_advances _ _).lookup_of_ne differs).trans ih

end Request

namespace Pool

variable {request : Request} {before : BuildState}

theorem attends_of_runFrom (position : Nat) (pool : Pool) (state : BuildState) {strand : Strand}
    (alone : pool.strands = [strand]) (asks : strand.work = .ok request)
    (attends : request.Attends before strand.phase state) :
    ∃ last, (pool.runFrom position state).1 = { pool with strands := [last] } ∧
      request.Attends before last.phase (pool.runFrom position state).2 := by
  fun_induction runFrom position pool state generalizing strand with
  | case1 position pool state next => exact ⟨strand, by rw [← alone], attends⟩
  | case2 position pool state found next ih =>
    have enabled := isEnabled_of_next? next
    rw [isEnabled, alone] at enabled
    -- only the front can be enabled
    cases found with
    | succ found => simp at enabled
    | zero =>
      have ready : strand.isReady state = true := by simpa using (Bool.and_eq_true_iff.1 enabled).2
      obtain ⟨same, phase, after⟩ := Strand.advance_of_ok asks state
      have went : pool.advance state 0 =
          ({ pool with strands := [(strand.advance state).1] }, (strand.advance state).2) := by
        simp only [advance, alone]
        rfl
      rw [went] at ih ⊢
      refine ih rfl same ?_
      rw [phase, after]
      exact attends.piece ready

/-- A request that is run by itself is answered if its adapter's call comes to an end by itself. -/
theorem answered_of_ending {limit : Nat} (works : 0 < limit) (rests : before.store.Rests none)
    (discreet : request.Discreet)
    (unhindered : before.store.fresh? request.name request.fingerprint = none → request.Unhindered before)
    (ends : before.store.fresh? request.name request.fingerprint = none → (request.ending before).1.isSome = true) :
    ∃ last answer, ((ofWork limit [.ok request]).run before).1.strands = [last] ∧ last.phase = .answered answer ∧
      request.Attends before (.answered answer) ((ofWork limit [.ok request]).run before).2 := by
  obtain ⟨position, done⟩ := run_rests (ofWork limit [.ok request]) before
  have first : request.Attends before (Strand.queued (.ok request)).phase before := .comes
  have alone : ∃ last, ((ofWork limit [.ok request]).run before).1 = { ofWork limit [.ok request] with strands := [last] } ∧
      request.Attends before last.phase ((ofWork limit [.ok request]).run before).2 :=
    attends_of_runFrom 0 (ofWork limit [.ok request]) before rfl rfl first
  revert done alone
  generalize (ofWork limit [.ok request]).run before = ran
  obtain ⟨pool, after⟩ := ran
  rintro done ⟨last, rfl, attends⟩
  have answered : last.phase.isAnswered = true := by
    refine answered_of_rests works done ?_ (List.mem_singleton_self last)
    intro strand member unanswered
    rw [List.mem_singleton.1 member] at unanswered ⊢
    rw [Strand.isReady]
    have stage := attends.stage rests discreet unhindered
    generalize last.phase = phase at stage unanswered
    cases stage with
    | pending => rfl
    | reused fresh => cases unanswered
    | told => cases unanswered
    | compiling called _ _ _ isEnd =>
      -- what is left of the call comes to the end of the whole call, so it does not wait
      exact Routine.isReady_of_finish (isEnd ▸ ends called.stale)
  cases phase : last.phase with
  | answered answer => exact ⟨last, answer, rfl, phase, phase ▸ attends⟩
  | _ =>
    rw [phase] at answered
    cases answered

end Pool
end ContractBuild
