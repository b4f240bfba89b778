import ContractBuild.Proofs.Store.Shelves

/-!
How a request is answered on its own: from its shelf, or by its adapter once the shelf is clear. A
request that leads its slot does the same piece by piece, whatever happens to other shelves between
its pieces.
-/
namespace ContractBuild

namespace Routine

/-- A routine that leaves files alone, waits for nothing that is not there, and ends in the value. -/
inductive Ends {α : Type} (value : α) : Routine Workspace α → Prop
  | done : Ends value (.done value)
  | act {change : Workspace → Workspace} {next : Workspace → Routine Workspace α}
    (files : ∀ workspace, (change workspace).files = workspace.files)
    (rest : ∀ workspace, Ends value (next workspace)) : Ends value (.act change next)
  | await {ready : Workspace → Bool} {next : Routine Workspace α}
    (isReady : ∀ workspace, ready workspace = true) (rest : Ends value next) : Ends value (.await ready next)

variable {α : Type} {value : α} {routine : Routine Workspace α}

theorem Ends.poll (ends : routine.Ends value) (workspace : Workspace) :
    (routine.poll workspace).1.Ends value ∧ (routine.poll workspace).2.files = workspace.files := by
  induction ends generalizing workspace with
  | done => exact ⟨.done, rfl⟩
  | act files _ ih =>
    obtain ⟨rest, same⟩ := ih workspace _
    exact ⟨rest, same.trans (files workspace)⟩
  | await isReady rest => exact ⟨.await isReady rest, rfl⟩

theorem Ends.resume (ends : routine.Ends value) (workspace : Workspace) :
    (routine.resume workspace).1.Ends value ∧ (routine.resume workspace).2.files = workspace.files := by
  cases ends with
  | done => exact ⟨.done, rfl⟩
  | act files rest => exact Ends.poll (.act files rest) workspace
  | await _ rest => exact rest.poll workspace

theorem Ends.isReady (ends : routine.Ends value) (workspace : Workspace) :
    routine.isReady workspace = true := by
  cases ends with
  | await isReady _ => exact isReady workspace
  | _ => rfl

end Routine

namespace Shelf

def fresh? (shelf : Shelf) (fingerprint : Fingerprint) : Option Artifact :=
  shelf.entry.filter (·.fingerprint = fingerprint)

def prepare (shelf : Shelf) : Except BuildError Unit × Shelf :=
  if shelf.entry.isSome then shelf.clear else (.ok (), shelf)

end Shelf

structure Served where
  cacheHit : Bool
  told : Except BuildError Artifact
  shelf : Shelf

namespace Request
open BuildState

def accept (request : Request) (outcome : Except BuildError Artifact) (shelf : Shelf) :
    Except BuildError Artifact × Shelf :=
  match outcome with
  | .error cause => (.error cause, shelf)
  | .ok artifact =>
    if request.isAnsweredBy artifact then shelf.put artifact
    else (.error (request.mismatch artifact), shelf)

def serve (request : Request) (outcome : Except BuildError Artifact) (shelf : Shelf) : Served :=
  match shelf.fresh? request.fingerprint with
  | some artifact => ⟨true, .ok artifact, shelf⟩
  | none =>
    match shelf.prepare with
    | (.error cause, cleared) => ⟨false, .error (cause.duplicate request.unit.path), cleared⟩
    | (.ok (), cleared) =>
      ⟨false, (request.accept outcome cleared).1.mapError (·.duplicate request.unit.path),
        (request.accept outcome cleared).2⟩

variable {request : Request} {outcome : Except BuildError Artifact} {slot : Nat} {state : BuildState}

theorem settle_shelf (slot : Nat) (result : Except BuildError Artifact) (state : BuildState) :
    state.SameShelves (request.settle slot result state).2 :=
  ⟨rfl, rfl, rfl⟩

theorem conclude_shelf (slot : Nat) (housed : state.IsHoused) (whole : '/' ∉ request.name.toList) :
    (request.conclude slot outcome state).1 =
        request.retell (request.accept outcome (state.shelf request.name)).1 ∧
      (request.conclude slot outcome state).2.shelf request.name =
        (request.accept outcome (state.shelf request.name)).2 ∧
      Touches (· = request.name) state (request.conclude slot outcome state).2 := by
  unfold conclude accept
  have failed : ∀ cause, state.SameShelves (request.settle slot (.error cause)
      (state.onStore Store.countFailure)).2 := fun _ => ⟨rfl, rfl, rfl⟩
  cases outcome with
  | error cause => exact ⟨rfl, (failed cause).shelf_eq _, (failed cause).touches⟩
  | ok artifact =>
    dsimp only
    split
    · next answers =>
      simp only [isAnsweredBy, Bool.and_eq_true, decide_eq_true_eq] at answers
      rw [← answers.2] at whole ⊢
      obtain ⟨result, shelf, touches⟩ := Store.publish_shelf housed whole
      have settled : BuildState.SameShelves _ (request.settle slot (Store.publish artifact state).1
        (Store.publish artifact state).2).2 := settle_shelf slot _ _
      refine ⟨?_, (settled.shelf_eq _).trans shelf, touches.trans settled.touches⟩
      rw [← result]
      rfl
    · exact ⟨rfl, (failed _).shelf_eq _, (failed _).touches⟩

inductive Stands (request : Request) (outcome : Except BuildError Artifact) (first : Shelf) :
    Bool → Phase → Shelf → Prop
  | pending : Stands request outcome first false .pending first
  | compiling {slot : Nat} {call : Routine Workspace (Except BuildError Artifact)} {cleared : Shelf}
    (stale : first.fresh? request.fingerprint = none) (prepared : first.prepare = (.ok (), cleared))
    (ends : call.Ends outcome) : Stands request outcome first false (.compiling slot call) cleared
  | answered : Stands request outcome first (request.serve outcome first).cacheHit
    (.answered (request.serve outcome first).told) (request.serve outcome first).shelf

variable {first cleared : Shelf} {call : Routine Workspace (Except BuildError Artifact)}

theorem not_stands_waiting {cacheHit : Bool} {shelf : Shelf} :
    ¬ Stands request outcome first cacheHit (.waiting slot) shelf :=
  nofun

theorem serve_of_fresh {artifact : Artifact} (fresh : first.fresh? request.fingerprint = some artifact) :
    request.serve outcome first = ⟨true, .ok artifact, first⟩ := by
  rw [serve, fresh]

theorem serve_of_error {cause : BuildError} (stale : first.fresh? request.fingerprint = none)
    (prepared : first.prepare = (.error cause, cleared)) :
    request.serve outcome first = ⟨false, .error (cause.duplicate request.unit.path), cleared⟩ := by
  rw [serve, stale, prepared]

theorem serve_of_ok (stale : first.fresh? request.fingerprint = none)
    (prepared : first.prepare = (.ok (), cleared)) :
    request.serve outcome first =
      ⟨false, (request.accept outcome cleared).1.mapError (·.duplicate request.unit.path),
        (request.accept outcome cleared).2⟩ := by
  rw [serve, stale, prepared]

theorem proceed_stands (slot : Nat) (stale : first.fresh? request.fingerprint = none)
    (prepared : first.prepare = (.ok (), state.shelf request.name)) (ends : call.Ends outcome)
    (housed : state.IsHoused) (whole : '/' ∉ request.name.toList) :
    Stands request outcome first false (request.proceed slot call state).1
        ((request.proceed slot call state).2.shelf request.name) ∧
      Touches (· = request.name) state (request.proceed slot call state).2 := by
  have goesOn : Touches (· = request.name) state state := (SameShelves.refl state).touches
  cases ends with
  | done =>
    obtain ⟨phase, shelf, touches⟩ := conclude_shelf slot housed whole
    refine ⟨?_, touches⟩
    have told : Stands request outcome first _ _ _ := .answered
    rw [serve_of_ok stale prepared, ← shelf] at told
    exact phase ▸ told
  | act files rest => exact ⟨.compiling stale prepared (.act files rest), goesOn⟩
  | await isReady rest => exact ⟨.compiling stale prepared (.await isReady rest), goesOn⟩

theorem compile_stands (slot : Nat) (stale : first.fresh? request.fingerprint = none)
    (prepared : first.prepare = (.ok (), state.shelf request.name))
    (ends : (request.adapter.call request.unit request.version).Ends outcome)
    (housed : state.IsHoused) (whole : '/' ∉ request.name.toList) :
    Stands request outcome first false (request.compile slot state).1
        ((request.compile slot state).2.shelf request.name) ∧
      Touches (· = request.name) state (request.compile slot state).2 := by
  obtain ⟨rest, files⟩ := ends.poll state.workspace
  have called : state.SameShelves ⟨((request.adapter.call request.unit request.version).poll
      state.workspace).2, state.store.countCompile⟩ := ⟨rfl, rfl, files⟩
  rw [← called.shelf_eq] at prepared
  obtain ⟨stands, touches⟩ := proceed_stands slot stale prepared rest
    (called.housed housed) whole
  exact ⟨stands, called.touches.trans touches⟩

/-- Without a fresh entry, a request that leads drops a stale one and calls the adapter. -/
theorem lead_of_stale {marked : BuildState} (isMarked : state.onStore (·.setCell slot .busy) = marked)
    (stale : marked.store.fresh? request.name request.fingerprint = none) :
    request.lead slot state =
      if (marked.store.lookup request.name).isSome then
        match Store.invalidate request.name marked with
        | (.ok _, after) => request.compile slot after
        | (.error cause, after) => request.settle slot (.error cause) after
      else request.compile slot marked := by
  subst isMarked
  unfold lead
  dsimp only
  split
  · next found =>
    rw [stale] at found
    cases found
  · rcases Store.invalidate request.name (state.onStore (·.setCell slot .busy)) with ⟨cause | value, after⟩ <;> rfl

/-- A request that leads a slot does what it would do on its own. -/
theorem lead_stands (slot : Nat) (stale : (state.shelf request.name).fresh? request.fingerprint = none)
    (ends : (request.adapter.call request.unit request.version).Ends outcome)
    (housed : state.IsHoused) (whole : '/' ∉ request.name.toList) :
    Stands request outcome (state.shelf request.name) false (request.lead slot state).1
        ((request.lead slot state).2.shelf request.name) ∧
      Touches (· = request.name) state (request.lead slot state).2 := by
  obtain ⟨marked, isMarked⟩ : ∃ marked, state.onStore (·.setCell slot .busy) = marked := ⟨_, rfl⟩
  have marks : state.SameShelves marked := isMarked ▸ ⟨rfl, rfl, rfl⟩
  have housedToo : marked.IsHoused := isMarked ▸ housed
  rw [← marks.shelf_eq] at stale
  rw [lead_of_stale isMarked stale, ← marks.shelf_eq]
  by_cases isThere : (marked.store.lookup request.name).isSome = true
  · rw [if_pos isThere]
    obtain ⟨result, shelf, touches⟩ := Store.invalidate_shelf housedToo whole
    have prepared : (marked.shelf request.name).prepare = (marked.shelf request.name).clear :=
      if_pos isThere
    cases run : Store.invalidate request.name marked with
    | mk dropped after =>
      rw [run] at result shelf touches
      cases dropped with
      | ok value =>
        have ready : (marked.shelf request.name).prepare = (.ok (), after.shelf request.name) := by
          rw [prepared]
          exact Prod.ext result.symm shelf.symm
        obtain ⟨stands, later⟩ := compile_stands slot stale ready ends (touches.housed housedToo) whole
        exact ⟨stands, marks.touches.trans (touches.trans later)⟩
      | error cause =>
        have refused : (marked.shelf request.name).prepare = (.error cause, after.shelf request.name) := by
          rw [prepared]
          exact Prod.ext result.symm shelf.symm
        have told : Stands request outcome (marked.shelf request.name) _ _ _ := .answered
        rw [serve_of_error stale refused] at told
        exact ⟨told, marks.touches.trans (touches.trans (settle_shelf slot _ after).touches)⟩
  · rw [if_neg isThere]
    have ready : (marked.shelf request.name).prepare = (.ok (), marked.shelf request.name) := if_neg isThere
    obtain ⟨stands, touches⟩ := compile_stands slot stale ready ends housedToo whole
    exact ⟨stands, marks.touches.trans touches⟩

theorem enter_of_vacant (free : state.store.cell slot = .vacant) :
    request.enter slot state = request.lead slot state := by
  rw [enter, free]

def noted (request : Request) (store : Store) (cacheHit : Bool) : Phase → Bool
  | .pending => store.isFresh request.name request.fingerprint
  | _ => cacheHit

/-- A piece of a request that finds its slot vacant does what the request would do on its own. -/
theorem advance_stands {phase : Phase} {cacheHit : Bool}
    (stands : Stands request outcome first cacheHit phase (state.shelf request.name))
    (vacant : phase = .pending → (state.store.countMiss.join request.fingerprint).2.cell
      (state.store.countMiss.join request.fingerprint).1 = .vacant)
    (ends : (request.adapter.call request.unit request.version).Ends outcome)
    (housed : state.IsHoused) (whole : '/' ∉ request.name.toList) :
    Stands request outcome first (request.noted state.store cacheHit phase)
        (request.advance phase state).1 ((request.advance phase state).2.shelf request.name) ∧
      Touches (· = request.name) state (request.advance phase state).2 := by
  generalize isNow : state.shelf request.name = now at stands
  cases stands with
  | pending =>
    subst isNow
    show Stands request outcome (state.shelf request.name) (state.store.isFresh request.name request.fingerprint)
      (request.begin state).1 ((request.begin state).2.shelf request.name) ∧
      Touches (· = request.name) state (request.begin state).2
    have same : state.store.fresh? request.name request.fingerprint =
        (state.shelf request.name).fresh? request.fingerprint := rfl
    unfold begin
    rw [Store.isFresh, same]
    cases fresh : (state.shelf request.name).fresh? request.fingerprint with
    | some artifact =>
      have counted : state.SameShelves (state.onStore Store.countHit) := ⟨rfl, rfl, rfl⟩
      have told : Stands request outcome (state.shelf request.name) _ _ _ := .answered
      rw [serve_of_fresh fresh] at told
      exact ⟨(counted.shelf_eq _).symm ▸ told, counted.touches⟩
    | none =>
      have joined : state.SameShelves { state with store := (state.store.countMiss.join request.fingerprint).2 } := by
        refine ⟨?_, Store.live_join _ _, rfl⟩
        unfold Store.join
        split <;> rfl
      have free : (state.store.countMiss.join request.fingerprint).2.cell
          (state.store.countMiss.join request.fingerprint).1 = .vacant := vacant rfl
      dsimp only
      rw [enter_of_vacant free]
      rw [← joined.shelf_eq] at fresh ⊢
      obtain ⟨stands, touches⟩ := lead_stands _ fresh ends (joined.housed housed) whole
      exact ⟨stands, joined.touches.trans touches⟩
  | compiling stale prepared rest =>
    next slot call =>
    obtain ⟨later, files⟩ := rest.resume state.workspace
    have resumed : state.SameShelves ⟨(call.resume state.workspace).2, state.store⟩ := ⟨rfl, rfl, files⟩
    rw [← isNow, ← resumed.shelf_eq] at prepared
    obtain ⟨stands, touches⟩ := proceed_stands slot stale prepared later (resumed.housed housed) whole
    exact ⟨stands, resumed.touches.trans touches⟩
  | answered => exact ⟨isNow ▸ .answered, (SameShelves.refl state).touches⟩

end Request
end ContractBuild
