import ContractBuild.Proofs.Store.Agreement
import ContractBuild.Proofs.Store.Alone
import ContractBuild.Proofs.Store.SingleFlight

/-!
Requests one after another. Whether a compiler is called lies with the fingerprint of the entry alone.
A request that fails leaves nothing that a later one could be answered with, and at every moment the
counters of the store are the sums of what happened.
-/
namespace ContractBuild
open FileTree FileAction ContractBuild.Action

def Shelf.HidesNothing (name : String) (shelf : Shelf) : Prop :=
  shelf.entry = none → shelf.kept? name = none

namespace Shelf

variable {name : String} {shelf : Shelf}

theorem HidesNothing.clear : HidesNothing name shelf.clear.2 := by
  obtain ⟨entry, file, refusal⟩ := shelf
  intro _
  cases refusal with
  | some cause => exact if_neg fun both => nomatch both.2
  | none => rcases file with _ | _ | content <;> exact kept?_eq_none rfl

theorem HidesNothing.lose : HidesNothing name { shelf with file := none } :=
  fun _ => kept?_eq_none rfl

theorem HidesNothing.put (hides : HidesNothing name shelf) (artifact : Artifact) :
    HidesNothing name (shelf.put artifact).2 := by
  unfold Shelf.put
  dsimp only
  split
  · exact fun bare => nomatch bare
  · exact hides

end Shelf

namespace BuildState

def Apart (directory : Path) (name : String) (before after : BuildState) : Prop :=
  before.store.directory = directory → before.IsHoused → after.store.directory = directory ∧ after.IsHoused ∧
    ∀ other, '/' ∉ other.toList → other ≠ name → after.shelf other = before.shelf other

variable {directory : Path} {name : String} {first middle last before after : BuildState}

theorem Apart.trans (earlier : Apart directory name first middle) (later : Apart directory name middle last) :
    Apart directory name first last := by
  intro isDirectory housed
  obtain ⟨stays, housedToo, same⟩ := earlier isDirectory housed
  obtain ⟨staysToo, housedLast, sameToo⟩ := later stays housedToo
  exact ⟨staysToo, housedLast, fun other whole differs =>
    (sameToo other whole differs).trans (same other whole differs)⟩

theorem SameShelves.apart (same : before.SameShelves after) : Apart directory name before after :=
  fun isDirectory housed => ⟨same.directory.trans isDirectory, same.housed housed,
    fun other _ _ => same.shelf_eq other⟩

theorem Apart.of_spares {workspace : Workspace} (spares : before.workspace.files.Spares directory workspace.files) :
    Apart directory name before ⟨workspace, before.store⟩ :=
  fun isDirectory housed => ⟨isDirectory, housed_of_spares isDirectory spares housed,
    fun _ whole _ => shelf_of_spares isDirectory spares whole⟩

theorem Apart.of_touches (touches : before.IsHoused → Touches (· = name) before after) (whole : '/' ∉ name.toList) :
    Apart directory name before after := by
  intro isDirectory housed
  refine ⟨(touches housed).directory.trans isDirectory, (touches housed).housed housed, ?_⟩
  intro other wholeToo differs
  refine (touches housed).shelf_eq wholeToo ?_
  rintro _ rfl
  exact ⟨whole, differs.symm⟩

end BuildState

namespace Request
open BuildState

def IsFair (directory : Path) (request : Request) : Prop :=
  (request.adapter.compile request.unit request.version).run.Within
    (fun before after => before.files.Spares directory after.files ∧ before.SameCalls after) fun _ => True

abbrev Closing :=
  Option (Except BuildError Artifact)

/-- How a request ends that nobody else is at work beside: it is told something, or it is given up while
its adapter is at work. -/
inductive Leaves (directory : Path) (request : Request) (before : BuildState) : Closing → BuildState → Prop
  | told {answer : Except BuildError Artifact} {after : BuildState}
    (attends : request.Attends before (.answered answer) after) : Leaves directory request before (some answer) after
  | givenUp {slot : Nat} {call : Routine Workspace (Except BuildError Artifact)} {state : BuildState}
    {tidyUp : Workspace → Workspace} (attends : request.Attends before (.compiling slot call) state)
    (spares : state.workspace.files.Spares directory (tidyUp state.workspace).files)
    (calls : state.workspace.SameCalls (tidyUp state.workspace)) :
    Leaves directory request before none ((Phase.compiling slot call).abandon tidyUp state)

def Closing.isFailure : Closing → Bool
  | some (.error _) => true
  | _ => false

inductive Closes (request : Request) (before : BuildState) : Closing → BuildState → Prop
  | reused {artifact : Artifact} (fresh : before.store.fresh? request.name request.fingerprint = some artifact) :
    Closes request before (some (.ok artifact)) (before.onStore Store.countHit)
  | called {closing : Closing} {after : BuildState}
    (called : Called request before after (if closing.isFailure then 1 else 0)) (rests : after.store.Rests none)
    (lives : after.store.lookup request.name = closing.bind Except.toOption)
    (own : ∀ answer, closing = some answer → ∃ outcome workspace, request.ending before = (some outcome, workspace) ∧
      answer = (request.verdict outcome).mapError (·.duplicate request.unit.path)) :
    Closes request before closing after

variable {directory : Path} {request : Request} {before after : BuildState} {closing : Closing}

theorem IsFair.discreet (fair : request.IsFair directory) : request.Discreet :=
  fair.mono (fun _ _ both => both.2) fun _ => id

theorem IsFair.minds (fair : request.IsFair directory) : request.Minds directory Shelf.HidesNothing :=
  fair.mono (fun _ _ both => both.1) fun _ _ artifact _ _ _ hides => hides.put artifact

theorem IsFair.upholds_apart (fair : request.IsFair directory) :
    request.Upholds (Apart directory request.name) where
  trans earlier later := earlier.trans later
  entries state store live isDirectory := SameShelves.apart ⟨isDirectory, live, rfl⟩
  drops state := .of_touches (fun housed => (Store.invalidate_shelf housed request.unit.artifactName_whole).2.2)
    request.unit.artifactName_whole
  calls := by
    refine .act (fun workspace store => SameShelves.apart ⟨rfl, rfl, rfl⟩) fun workspace => ?_
    refine Routine.Within.mono fair (fun _ _ both store => .of_spares both.1) ?_
    intro outcome _ artifact _ answers state
    have named := (isAnsweredBy_iff.1 answers).2
    have whole : '/' ∉ artifact.name.toList := named ▸ request.unit.artifactName_whole
    exact named ▸ .of_touches (fun housed => (Store.publish_shelf housed whole).2.2) whole

theorem Leaves.closes (leaves : request.Leaves directory before closing after) (rests : before.store.Rests none)
    (discreet : request.Discreet)
    (unhindered : before.store.fresh? request.name request.fingerprint = none → request.Unhindered before) :
    request.Closes before closing after := by
  cases leaves with
  | told attends =>
    next answer =>
    have stage := attends.stage rests discreet unhindered
    generalize isPhase : Phase.answered answer = phase at stage
    cases stage with
    | pending => cases isPhase
    | compiling => cases isPhase
    | reused fresh =>
      cases isPhase
      exact .reused fresh
    | told called rests lives ends =>
      next outcome workspace =>
      cases isPhase
      have counted : (if (request.verdict outcome).isOk then 0 else 1) = if Closing.isFailure
          (some ((request.verdict outcome).mapError (·.duplicate request.unit.path))) then 1 else 0 := by
        cases request.verdict outcome <;> rfl
      refine .called (counted ▸ called) rests (lives.trans ?_) fun answer isTold => ⟨outcome, workspace, ends, ?_⟩
      · cases request.verdict outcome <;> rfl
      · exact (Option.some.inj isTold).symm
  | givenUp attends spares calls =>
    cases attends.stage rests discreet unhindered with
    | compiling called rests gone _ _ =>
      refine .called ⟨called.stale, called.directory, called.counters, Eq.trans calls called.calls⟩ ?_ gone nofun
      -- the slot that the request has led can be led by the next one
      exact rests.vacate

theorem Leaves.upholds {related : BuildState → BuildState → Prop} (upholds : request.Upholds related)
    (tidies : ∀ state (tidyUp : Workspace → Workspace) slot call,
      state.workspace.files.Spares directory (tidyUp state.workspace).files →
      related state ((Phase.compiling slot call).abandon tidyUp state))
    (leaves : request.Leaves directory before closing after) : related before after := by
  cases leaves with
  | told attends => exact (attends.upholds upholds).2
  | givenUp attends spares _ => exact upholds.trans (attends.upholds upholds).2 (tidies _ _ _ _ spares)

theorem Leaves.lookup_of_ne (leaves : request.Leaves directory before closing after) {name : String}
    (differs : name ≠ request.name) : after.store.lookup name = before.store.lookup name := by
  cases leaves with
  | told attends => exact attends.lookup_of_ne differs
  | givenUp attends _ _ => exact attends.lookup_of_ne differs

theorem Leaves.stocks (leaves : request.Leaves directory before closing after) (fair : request.IsFair directory)
    (stocks : before.Stocks directory Shelf.HidesNothing) : after.Stocks directory Shelf.HidesNothing := by
  refine leaves.upholds (fair.minds.upholds fun _ _ _ => Shelf.HidesNothing.clear) ?_ stocks
  intro state tidyUp slot call spares stocks
  exact (stocks.of_spares spares).of_sameShelves ⟨rfl, rfl, rfl⟩

theorem Leaves.apart (leaves : request.Leaves directory before closing after) (fair : request.IsFair directory) :
    Apart directory request.name before after := by
  refine leaves.upholds fair.upholds_apart ?_
  intro state tidyUp slot call spares
  have tidied : Apart directory request.name state ⟨tidyUp state.workspace, state.store⟩ := .of_spares spares
  exact tidied.trans (SameShelves.apart ⟨rfl, rfl, rfl⟩)

end Request

open Request

/-- What became of the requests that came one after another since a store was opened, and the state behind
them. No operation on files goes wrong for them. Between them entries are dropped, and something happens
elsewhere. -/
inductive Ledger (directory : Path) (first : BuildState) : List Closing → BuildState → Prop
  | opened : Ledger directory first [] first
  | asked {log : List Closing} {before : BuildState} (earlier : Ledger directory first log before) {request : Request}
    {closing : Closing} {after : BuildState} (fair : request.IsFair directory)
    (unhindered : before.store.fresh? request.name request.fingerprint = none → request.Unhindered before)
    (leaves : request.Leaves directory before closing after) : Ledger directory first (log ++ [closing]) after
  | invalidated {log : List Closing} {before : BuildState} (earlier : Ledger directory first log before)
    (name : String) : Ledger directory first log (Store.invalidate name before).2
  | retained {log : List Closing} {before : BuildState} (earlier : Ledger directory first log before)
    (inUse : List String) : Ledger directory first log (Store.retain inUse before).2
  | cleared {log : List Closing} {before : BuildState} (earlier : Ledger directory first log before) :
    Ledger directory first log (Store.clear before).2
  | elsewhere {log : List Closing} {before : BuildState} (earlier : Ledger directory first log before)
    {workspace : Workspace} (spares : before.workspace.files.Spares directory workspace.files)
    (calls : before.workspace.SameCalls workspace) : Ledger directory first log ⟨workspace, before.store⟩

/-- The counters are the sums of what happened. -/
structure BuildState.Balances (state first : BuildState) (log : List Closing) : Prop where
  requests : state.store.counters.hits + state.store.counters.misses = log.length
  compiles : state.store.counters.misses = state.store.counters.compiles
  calls : state.workspace.calls.length = first.workspace.calls.length + state.store.counters.compiles
  failures : state.store.counters.failures = log.countP Closing.isFailure

/-- The fingerprint of the entry decides whether the adapter is called. A request is answered with the
entry or with what its own call comes to. Unless it is answered with an artifact, nothing is there under
its name, nor in a store that is opened on the files. The entries and files of other names stay. -/
structure Request.Decides (cache : Path) (request : Request) (before : BuildState) (closing : Closing)
    (after : BuildState) : Prop where
  calls : after.workspace.calls = before.workspace.calls ++
    if before.store.isFresh request.name request.fingerprint then [] else [request.adapter.language]
  reused : ∀ artifact, before.store.fresh? request.name request.fingerprint = some artifact →
    closing = some (.ok artifact)
  own : before.store.fresh? request.name request.fingerprint = none → ∀ answer, closing = some answer →
    ∃ outcome workspace, request.ending before = (some outcome, workspace) ∧
      answer = (request.verdict outcome).mapError (·.duplicate request.unit.path)
  lives : after.store.lookup request.name = closing.bind Except.toOption
  reopened : closing.bind Except.toOption = none → ∃ store,
    Store.load cache after.workspace.files = (.ok store, after.workspace.files) ∧ store.lookup request.name = none
  others : ∀ name, name ≠ request.name → after.store.lookup name = before.store.lookup name ∧
    ('/' ∉ name.toList → after.shelf name = before.shelf name)

namespace Ledger

variable {directory cache : Path} {first state before after : BuildState} {log : List Closing} {closing : Closing}
  {request : Request}

structure Rearranges (before after : BuildState) : Prop where
  slots : after.store.slots = before.store.slots
  counters : after.store.counters = before.store.counters
  calls : after.workspace.calls = before.workspace.calls

theorem Rearranges.refl (state : BuildState) : Rearranges state state :=
  ⟨rfl, rfl, rfl⟩

theorem Rearranges.trans {first middle last : BuildState} (earlier : Rearranges first middle)
    (later : Rearranges middle last) : Rearranges first last :=
  ⟨later.slots.trans earlier.slots, later.counters.trans earlier.counters, later.calls.trans earlier.calls⟩

theorem Rearranges.invalidate (name : String) (state : BuildState) :
    Rearranges state (Store.invalidate name state).2 := by
  rw [Store.invalidate_eq]
  exact ⟨rfl, rfl, rfl⟩

theorem Rearranges.balances (rearranges : Rearranges before after) (balances : before.Balances first log) :
    after.Balances first log := by
  obtain ⟨requests, compiles, calls, failures⟩ := balances
  rw [← rearranges.counters] at requests compiles calls failures
  rw [← rearranges.calls] at calls
  exact ⟨requests, compiles, calls, failures⟩

structure Sound (directory : Path) (first : BuildState) (log : List Closing) (state : BuildState) : Prop where
  stocks : state.Stocks directory Shelf.HidesNothing
  rests : state.store.Rests none
  balances : state.Balances first log

theorem Sound.of_rearranges (sound : Sound directory first log before) (rearranges : Rearranges before after)
    (stocks : after.Stocks directory Shelf.HidesNothing) : Sound directory first log after :=
  ⟨stocks, sound.rests.of_slots_eq rearranges.slots, rearranges.balances sound.balances⟩

theorem balances_of_closes (closes : request.Closes before closing after) (balances : before.Balances first log) :
    after.Balances first (log ++ [closing]) := by
  obtain ⟨requests, compiles, calls, failures⟩ := balances
  cases closes with
  | reused fresh =>
    refine ⟨?_, compiles, calls, ?_⟩
    · rw [List.length_append, ← requests]
      exact Nat.succ_add before.store.counters.hits before.store.counters.misses
    · rw [List.countP_append, ← failures]
      rfl
  | called called _ _ _ =>
    have counters := called.counters
    have noted := congrArg List.length called.calls
    rw [List.length_append, List.length_singleton] at noted
    -- whoever has called its adapter has counted a miss, a compilation and a failure if it is told of one
    refine ⟨?_, ?_, ?_, ?_⟩ <;> rw [counters]
    · rw [List.length_append, ← requests]
      rfl
    · exact congrArg (· + 1) compiles
    · rw [noted, calls]
      rfl
    · rw [List.countP_append, List.countP_singleton, failures]

theorem rests_of_closes (closes : request.Closes before closing after) (rests : before.store.Rests none) :
    after.store.Rests none := by
  cases closes with
  | reused fresh => exact rests.of_slots_eq rfl
  | called _ rests _ _ => exact rests

theorem sound_of_load {tree : FileTree} (quiet : tree.faultAfter = none) (tidy : tree.root.Tidy)
    (inside : tree.IsInside) (opened : Store.load cache tree = (.ok first.store, first.workspace.files)) :
    Sound (Store.artifactsDir cache) first [] first := by
  obtain ⟨live, isStore, _⟩ := Store.store_of_load quiet tidy inside opened
  refine ⟨BuildState.stocks_of_load quiet tidy inside opened fun name _ kept bare => kept ▸ bare, ?_, ?_⟩
  · rw [isStore]
    exact nofun
  · constructor <;> rw [isStore] <;> rfl

theorem sound (ledger : Ledger directory first log state) (opened : Sound directory first [] first) :
    Sound directory first log state := by
  -- the invariant lasts across each entry of the ledger; what is retained or cleared goes name by name
  induction ledger with
  | opened => exact opened
  | asked _ fair unhindered leaves ih =>
    have closes := leaves.closes ih.rests fair.discreet unhindered
    exact ⟨leaves.stocks fair ih.stocks, rests_of_closes closes ih.rests, balances_of_closes closes ih.balances⟩
  | invalidated _ name ih =>
    refine ih.of_rearranges (.invalidate name _) ?_
    exact ih.stocks.invalidate_of_loses (fun _ _ _ => Shelf.HidesNothing.clear) (fun _ _ _ => Shelf.HidesNothing.lose) name
  | retained _ inUse ih =>
    refine ih.of_rearranges (Store.retain_upholds .refl .trans .invalidate inUse _) ?_
    exact ih.stocks.retain (fun _ _ _ => Shelf.HidesNothing.clear) inUse
  | cleared _ ih =>
    refine ih.of_rearranges (Store.clear_upholds .refl .trans .invalidate _) ?_
    exact ih.stocks.clear fun _ _ _ => Shelf.HidesNothing.clear
  | elsewhere _ spares calls ih =>
    exact ⟨ih.stocks.of_spares spares, ih.rests, ih.balances.1, ih.balances.2,
      (congrArg List.length calls).trans ih.balances.3, ih.balances.4⟩

theorem Sound.reopened {name : String} (sound : Sound (Store.artifactsDir cache) first log state)
    (whole : '/' ∉ name.toList) (gone : state.store.lookup name = none) : ∃ store,
    Store.load cache state.workspace.files = (.ok store, state.workspace.files) ∧ store.lookup name = none := by
  have houses : state.workspace.files.Houses (Store.artifactsDir cache) :=
    sound.stocks.directory ▸ sound.stocks.housed
  obtain ⟨live, opened, _, finds⟩ := Store.load_of_houses houses
  refine ⟨_, opened, (finds name).trans ?_⟩
  rw [← sound.stocks.directory, BuildState.kept?_eq]
  exact sound.stocks.shelves name whole gone

theorem Sound.decides (sound : Sound (Store.artifactsDir cache) first log before)
    (fair : request.IsFair (Store.artifactsDir cache))
    (unhindered : before.store.fresh? request.name request.fingerprint = none → request.Unhindered before)
    (leaves : request.Leaves (Store.artifactsDir cache) before closing after) :
    request.Decides cache before closing after := by
  have closes := leaves.closes sound.rests fair.discreet unhindered
  have later : Sound (Store.artifactsDir cache) first (log ++ [closing]) after :=
    ⟨leaves.stocks fair sound.stocks, rests_of_closes closes sound.rests, balances_of_closes closes sound.balances⟩
  have lives : after.store.lookup request.name = closing.bind Except.toOption := by
    cases closes with
    | reused fresh => exact (Store.fresh?_eq_some.1 fresh).1
    | called _ _ lives _ => exact lives
  refine ⟨?_, ?_, ?_, lives, ?_, ?_⟩
  · rw [Store.isFresh]
    cases closes with
    | reused fresh =>
      rw [fresh]
      exact (List.append_nil _).symm
    | called called _ _ _ =>
      rw [called.stale]
      exact called.calls
  · intro artifact fresh
    cases closes with
    | reused found =>
      rw [found] at fresh
      exact congrArg _ (congrArg _ (Option.some.inj fresh))
    | called called _ _ _ => exact absurd (called.stale.symm.trans fresh).symm (Option.some_ne_none _)
  · intro stale
    cases closes with
    | reused found => exact absurd (stale.symm.trans found).symm (Option.some_ne_none _)
    | called _ _ _ own => exact own
  · exact fun bare => later.reopened request.unit.artifactName_whole (lives.trans bare)
  · intro name differs
    refine ⟨leaves.lookup_of_ne differs, fun whole => ?_⟩
    exact (leaves.apart fair sound.stocks.directory sound.stocks.housed).2.2 name whole differs

/-- At every moment since a store was opened the counters are the sums of what happened, and the next request
is decided by the fingerprint of its entry. It comes to its end if its adapter's call does. -/
theorem decided_by_fingerprint {tree : FileTree} (quiet : tree.faultAfter = none) (tidy : tree.root.Tidy)
    (inside : tree.IsInside) (opened : Store.load cache tree = (.ok first.store, first.workspace.files))
    (ledger : Ledger (Store.artifactsDir cache) first log state) :
    state.Balances first log ∧ ∀ request : Request, request.IsFair (Store.artifactsDir cache) →
      (state.store.fresh? request.name request.fingerprint = none → request.Unhindered state) →
      (∀ closing after, request.Leaves (Store.artifactsDir cache) state closing after →
        request.Decides cache state closing after) ∧
      ((state.store.fresh? request.name request.fingerprint = none → (request.ending state).1.isSome = true) →
        ∀ limit, 0 < limit → ∃ last answer,
          ((Pool.ofWork limit [.ok request]).run state).1.strands = [last] ∧ last.phase = .answered answer ∧
          request.Leaves (Store.artifactsDir cache) state (some answer)
            ((Pool.ofWork limit [.ok request]).run state).2) := by
  have sound := ledger.sound (sound_of_load quiet tidy inside opened)
  refine ⟨sound.balances, fun request fair unhindered => ⟨?_, ?_⟩⟩
  · exact fun closing after leaves => sound.decides fair unhindered leaves
  · intro ends limit works
    obtain ⟨last, answer, alone, phase, attends⟩ :=
      Pool.answered_of_ending works sound.rests fair.discreet unhindered ends
    exact ⟨last, answer, alone, phase, .told attends⟩

theorem unhindered_brokenRequest {path : String} (gone : state.store.lookup (Pool.brokenRequest path).name = none) :
    (Pool.brokenRequest path).Unhindered state := by
  constructor
  · rw [gone]
    exact fun there => nomatch there
  · intro artifact workspace ends
    cases (Prod.ext_iff.1 ends).1

theorem decided_after_failure : ∃ answer after again last,
    Closing.isFailure (some answer) = true ∧ after.Balances Pool.openedState [some answer] ∧
      (Pool.brokenRequest "A.vy").Leaves (Store.artifactsDir ⟨"cache"⟩) after (some again) last ∧
      (Pool.brokenRequest "A.vy").Decides ⟨"cache"⟩ after (some again) last := by
  have tidy : (FileTree.within []).root.Tidy := FileNode.tidy_of_isTidy (by decide +kernel)
  have fair : (Pool.brokenRequest "A.vy").IsFair (Store.artifactsDir ⟨"cache"⟩) := .await (.done trivial)
  have gone : (Pool.openedState.store.lookup (Pool.brokenRequest "A.vy").name).isNone = true := by decide +kernel
  have unhindered := unhindered_brokenRequest (Option.isNone_iff_eq_none.1 gone)
  have opened := decided_by_fingerprint rfl tidy rfl Pool.load_openedState .opened
  obtain ⟨_, answer, _, _, leaves⟩ := (opened.2 _ fair fun _ => unhindered).2 (fun _ => rfl) 1 Nat.one_pos
  have decides := (opened.2 _ fair fun _ => unhindered).1 _ _ leaves
  have stale : Pool.openedState.store.fresh? (Pool.brokenRequest "A.vy").name (Pool.brokenRequest "A.vy").fingerprint = none := by
    rw [Store.fresh?, Option.isNone_iff_eq_none.1 gone]
    rfl
  -- the first request fails, so nothing is live for the second, which calls its adapter again
  obtain ⟨outcome, workspace, ends, rfl⟩ := decides.own stale answer rfl
  cases (Prod.ext_iff.1 ends).1
  have later := decided_by_fingerprint rfl tidy rfl Pool.load_openedState (.asked .opened fair (fun _ => unhindered) leaves)
  have unhinderedToo := unhindered_brokenRequest decides.lives
  obtain ⟨_, again, _, _, leavesToo⟩ := (later.2 _ fair fun _ => unhinderedToo).2 (fun _ => rfl) 1 Nat.one_pos
  exact ⟨_, _, again, _, rfl, later.1, leavesToo, (later.2 _ fair fun _ => unhinderedToo).1 _ _ leavesToo⟩

end Ledger

end ContractBuild
