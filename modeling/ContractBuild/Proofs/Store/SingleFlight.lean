import ContractBuild.Proofs.Store.SharedCompile
import ContractBuild.Proofs.Store.Threads

/-!
One compilation for each fingerprint at a time, and one outcome for all who share it, however the steps of
requests come one after another and whoever is given up on the way. An outcome that has been left in a slot
stays there, so whoever holds the slot is told it in the end.
-/
namespace ContractBuild

def Store.Unlisted (store : Store) (slot : Nat) : Prop :=
  ∃ entry, store.slots[slot]? = some entry ∧ entry.listed = false

namespace Request
open Store

/-- A request calls an adapter in one of its steps only. -/
theorem calls_of_compiles_ne {request : Request} {station : Station} {state : BuildState}
    (counts : (request.step station state).2.store.counters.compiles ≠ state.store.counters.compiles) :
    ∃ slot, station = .calls slot := by
  have idle {slot : Nat} {next : Station} {action : FileAction Unit} :
      (goOn slot next action state).2.store.counters.compiles = state.store.counters.compiles := by
    rw [(goOn_cases slot next action state).1]
  cases station with
  | calls slot => exact ⟨slot, rfl⟩
  | joins =>
    have joined : (state.store.countMiss.join request.fingerprint).2.counters = state.store.countMiss.counters := by
      rcases join_cases state.store.countMiss request.fingerprint with ⟨_, _, run, _⟩ | ⟨run, _⟩ <;> rw [run]
    exact absurd (congrArg StoreCounters.compiles joined) counts
  | removes slot => exact absurd idle counts
  | prepares slot artifact => exact absurd idle counts
  | writes slot artifact => exact absurd idle counts
  | compiling slot call =>
    cases call with
    | act change next => exact absurd rfl counts
    | await ready next => exact absurd rfl counts
    | done outcome =>
      cases outcome with
      | error cause => exact absurd rfl counts
      | ok artifact =>
        simp only [step, follow] at counts
        split at counts <;> exact absurd rfl counts
  | begins | looks slot | leads slot =>
    simp only [step] at counts
    split at counts <;> exact absurd rfl counts
  | _ => exact absurd rfl counts

namespace Does

variable {request : Request} {before after : Store} {station later : Station} {slot : Nat}

/-- A request that is done goes on being so, or is given up. -/
theorem rests_of_ended (does : request.Does before station later after)
    (ended : (∃ outcome, station = request.told outcome) ∨ station = .withdrawn) :
    later = station ∨ later = .withdrawn := by
  cases does with
  | rests slots live => exact .inl rfl
  | leaves unled slots live => exact .inr rfl
  | vacates led slots live => exact .inr rfl
  | goesOn led still slots live stale fits => rcases ended with ⟨_, rfl⟩ | rfl <;> cases led
  | _ => rcases ended with ⟨_, told⟩ | told <;> cases told

/-- A slot that is not listed is not found, and is not listed again. -/
theorem idle (does : request.Does before station later after) (unlisted : before.Unlisted slot)
    (free : station.slot? ≠ some slot) : after.Unlisted slot ∧ later.slot? ≠ some slot := by
  have same (slots : after.slots = before.slots) : after.Unlisted slot := by rwa [Unlisted, slots]
  have marked {led : Nat} {cell : Cell (Except BuildError Artifact)}
      (slots : after.slots = (before.setCell led cell).slots) : after.Unlisted slot := by
    obtain ⟨entry, found, out⟩ := unlisted
    refine ⟨if led = slot then { entry with cell } else entry, ?_, ?_⟩
    · rw [slots, getElem?_setCell, found]
      rfl
    · split <;> exact out
  cases does with
  | joins slots live =>
    obtain ⟨entry, found, out⟩ := unlisted
    rcases join_cases before.countMiss request.fingerprint with
      ⟨place, there, run, listed, isListed, _⟩ | ⟨run, _⟩
    · rw [run] at slots ⊢
      refine ⟨⟨entry, slots ▸ found, out⟩, ?_⟩
      rintro ⟨⟩
      rw [Option.some.inj (found.symm.trans listed), isListed] at out
      cases out
    · rw [run] at slots ⊢
      have inside := (List.getElem?_eq_some_iff.1 found).1
      refine ⟨⟨entry, ?_, out⟩, ?_⟩
      · rw [slots]
        exact (List.getElem?_append_left inside).trans found
      · rintro ⟨⟩
        exact absurd inside (Nat.lt_irrefl _)
  | begins slots live none fine calm =>
    refine ⟨same slots, ?_⟩
    rw [none]
    exact nofun
  | goesOn led still slots live stale fits =>
    rw [Station.slot?_of_led? led] at free
    exact ⟨same slots, by rwa [Station.slot?_of_led? still]⟩
  | leads vacant slots live => exact ⟨marked slots, free⟩
  | fills slots live => exact ⟨marked slots, free⟩
  | vacates led slots live => exact ⟨marked slots, nofun⟩
  | releases slots live =>
    obtain ⟨entry, found, out⟩ := unlisted
    refine ⟨⟨entry, ?_, out⟩, nofun⟩
    rw [slots, getElem?_release, found, Option.map_some]
    split
    · rw [← out]
    · rfl
  | rests slots live => exact ⟨same slots, free⟩
  | takes full slots live => exact ⟨same slots, free⟩
  | drops slots live => exact ⟨same slots, free⟩
  | inserts slots live => exact ⟨same slots, free⟩
  | leaves unled slots live => exact ⟨same slots, nofun⟩

end Does
end Request

namespace Steady
open Store

variable {threads : List Thread} {before after : Store} {position slot : Nat} {thread : Thread} {later : Station}
  {outcome : Except BuildError Artifact}

/-- An outcome comes into a slot by whoever fills it. -/
theorem fills_of_filled (does : thread.request.Does before thread.station later after)
    (filled : after.cell slot = .filled outcome) :
    before.cell slot = .filled outcome ∨
      (thread.station = .fills slot outcome ∧ later = .releases slot outcome) := by
  generalize thread.station = earlier at does
  cases does with
  | joins slots live =>
    rw [cell_of_slots_eq slots, (before.countMiss.hasSlot_join thread.request.fingerprint).2.2] at filled
    exact .inl filled
  | leads vacant slots live =>
    rw [cell_of_slots_eq slots] at filled
    exact .inl ((cell_of_setCell filled).resolve_right fun both => nomatch both.2)
  | fills slots live =>
    rw [cell_of_slots_eq slots] at filled
    refine (cell_of_setCell filled).imp_right ?_
    rintro ⟨rfl, ⟨⟩⟩
    exact ⟨rfl, rfl⟩
  | releases slots live =>
    rw [cell_of_slots_eq slots, cell_release] at filled
    exact .inl filled
  | vacates led slots live =>
    rw [cell_of_slots_eq slots] at filled
    exact .inl ((cell_of_setCell filled).resolve_right fun both => nomatch both.2)
  | rests slots live => exact .inl ((cell_of_slots_eq slots slot).symm.trans filled)
  | begins slots live free fine calm => exact .inl ((cell_of_slots_eq slots slot).symm.trans filled)
  | takes full slots live => exact .inl ((cell_of_slots_eq slots slot).symm.trans filled)
  | goesOn led still slots live stale fits => exact .inl ((cell_of_slots_eq slots slot).symm.trans filled)
  | drops slots live => exact .inl ((cell_of_slots_eq slots slot).symm.trans filled)
  | inserts slots live => exact .inl ((cell_of_slots_eq slots slot).symm.trans filled)
  | leaves unled slots live => exact .inl ((cell_of_slots_eq slots slot).symm.trans filled)

/-- Who holds a slot goes on holding it, is given up, or is told its outcome. -/
theorem holds_or_told (steady : Steady threads before) (found : threads[position]? = some thread)
    (does : thread.request.Does before thread.station later after) (holds : thread.station.slot? = some slot) :
    later = .withdrawn ∨ later.slot? = some slot ∨
      ∃ outcome, later = thread.request.told outcome ∧ before.cell slot = .filled outcome := by
  generalize was : thread.station = earlier at does
  rw [was] at holds
  cases does with
  | begins slots live free fine calm => cases holds
  | joins slots live => cases holds
  | goesOn led still slots live stale fits =>
    rw [Station.slot?_of_led? led] at holds
    exact .inr (.inl ((Station.slot?_of_led? still).trans holds))
  | releases slots live =>
    cases holds
    exact .inr (.inr ⟨_, rfl, steady.told found was⟩)
  | leaves unled slots live => exact .inl rfl
  | vacates led slots live => exact .inl rfl
  | rests slots live => exact .inr (.inl holds)
  | takes full slots live => exact .inr (.inl holds)
  | leads vacant slots live => exact .inr (.inl holds)
  | drops slots live => exact .inr (.inl holds)
  | inserts slots live => exact .inr (.inl holds)
  | fills slots live => exact .inr (.inl holds)

end Steady

namespace Pool

def brokenAdapter : Adapter :=
  { language := .vyper
    flags := []
    compile := fun _ _ => do
      (Routine.pause : Routine Workspace Unit)
      throw (.toolchain .vyper "no compiler") }

def brokenRequest (path : String) : Request :=
  ⟨⟨⟨path⟩, .vyper, "[]"⟩, "0.3.1", brokenAdapter⟩

def brokenTwins : List Request :=
  [brokenRequest "A.vy", brokenRequest "B.vy"]

end Pool

namespace Crowd
open Store

/-- A request of a crowd is in some station. -/
def IsAt (now : Crowd) (position : Nat) (request : Request) (station : Station) : Prop :=
  now.threads[position]? = some ⟨request, station⟩

def Compiles (now : Crowd) (position : Nat) (request : Request) : Prop :=
  ∃ slot call, now.IsAt position request (.compiling slot call)

def Calls (now : Crowd) (position : Nat) (request : Request) : Prop :=
  ∃ slot, now.IsAt position request (.calls slot)

def Shares (now : Crowd) (position : Nat) (request : Request) (slot : Nat) : Prop :=
  ∃ station, now.IsAt position request station ∧ station.slot? = some slot

def Leads (now : Crowd) (position : Nat) (request : Request) (slot : Nat) : Prop :=
  ∃ station, now.IsAt position request station ∧ station.led? = some slot

/-- The next step drops the entry of a name, or replaces it, for a request with another fingerprint. -/
def Ousts (now : Crowd) (position : Nat) (name : String) (fingerprint : Fingerprint) : Prop :=
  ∃ request slot, request.name = name ∧ request.fingerprint ≠ fingerprint ∧
    (now.IsAt position request (.drops slot) ∨ ∃ artifact, now.IsAt position request (.inserts slot artifact))

/-- What holds whenever requests take their steps side by side. -/
structure SingleFlight (now : Crowd) : Prop where
  /-- Of the calls that are running no two are for one fingerprint. -/
  alone : ∀ {first second : Nat} {one other : Request}, now.Compiles first one → now.Compiles second other →
    one.fingerprint = other.fingerprint → first = second
  /-- An adapter is called by the one step that calls it. -/
  counts : ∀ {position : Nat},
    (now.step position).state.store.counters.compiles ≠ now.state.store.counters.compiles →
    ∃ request, now.Calls position request
  /-- No adapter is called for what a live entry was compiled from, nor while such a call is running. -/
  calls : ∀ {position : Nat} {request : Request}, now.Calls position request →
    ¬ now.state.store.Holds request.name request.fingerprint ∧
      ∀ {place : Nat} {other : Request}, now.Compiles place other → other.fingerprint ≠ request.fingerprint
  /-- What a request publishes is the live entry for it. -/
  publishes : ∀ {position slot : Nat} {request : Request} {artifact : Artifact},
    now.IsAt position request (.inserts slot artifact) →
    (now.step position).state.store.Holds request.name request.fingerprint
  /-- An entry lasts until a request with another fingerprint drops or replaces it. -/
  lasts : ∀ {move : Move} {name : String} {fingerprint : Fingerprint}, now.state.store.Holds name fingerprint →
    (now.take move).state.store.Holds name fingerprint ∨
      ∃ position, move = .step position ∧ now.Ousts position name fingerprint
  /-- The outcome of a slot is what everyone who holds the slot is told. -/
  tells : ∀ {position slot : Nat} {request : Request} {outcome : Except BuildError Artifact},
    now.Shares position request slot → now.state.store.cell slot = .filled outcome →
    ((now.step position).step position).IsAt position request (request.told outcome)
  /-- Whoever waits for a slot without an outcome waits for a request that leads it, or leads it next. -/
  waits : ∀ {position slot : Nat} {request : Request}, now.IsAt position request (.looks slot) →
    (∀ outcome, now.state.store.cell slot ≠ .filled outcome) →
    (∃ place other, now.Leads place other slot) ∨ (now.step position).Leads position request slot

variable {now : Crowd} {position slot : Nat} {request : Request} {station : Station}

theorem step_of_isAt (there : now.IsAt position request station) :
    (now.step position).IsAt position request (request.step station now.state).1 ∧
      (now.step position).state = (request.step station now.state).2 := by
  rw [IsAt] at there
  simp only [IsAt, step, there, and_true]
  exact List.getElem?_set_self (List.getElem?_eq_some_iff.1 there).1

theorem Sound.tells (sound : now.Sound) {outcome : Except BuildError Artifact}
    (shares : now.Shares position request slot) (filled : now.state.store.cell slot = .filled outcome) :
    ((now.step position).step position).IsAt position request (request.told outcome) := by
  obtain ⟨station, there, holds⟩ := shares
  have unled : station.led? ≠ some slot := fun led =>
    absurd (filled.symm.trans (sound.steady.leads there led)) nofun
  obtain ⟨next, moved⟩ := step_of_isAt there
  have last := (step_of_isAt next).1
  cases station with
  | looks held =>
    cases holds
    simp only [Request.step, filled] at last
    exact last
  | releases held left =>
    cases holds
    have same := (sound.steady.told there rfl).symm.trans filled
    rw [← Cell.filled.inj same]
    exact last
  | begins => cases holds
  | joins => cases holds
  | answered told => cases holds
  | withdrawn => cases holds
  | _ => exact absurd holds unled

theorem Sound.waits (sound : now.Sound) (there : now.IsAt position request (.looks slot))
    (unfilled : ∀ outcome, now.state.store.cell slot ≠ .filled outcome) :
    (∃ place other, now.Leads place other slot) ∨ (now.step position).Leads position request slot := by
  cases seen : now.state.store.cell slot with
  | filled outcome => exact absurd seen (unfilled outcome)
  | vacant =>
    have next := (step_of_isAt there).1
    simp only [Request.step, seen] at next
    exact .inr ⟨_, next, rfl⟩
  | busy =>
    obtain ⟨entry, found, _, joinable⟩ := sound.steady.holds there rfl
    rw [cell_eq found] at seen unfilled
    obtain ⟨place, leader, leads, led⟩ := sound.steady.manned found (joinable unfilled) seen
    exact .inl ⟨place, leader.request, leader.station, leads, led⟩

theorem Sound.lasts (sound : now.Sound) (move : Move) {name : String} {fingerprint : Fingerprint}
    (holds : now.state.store.Holds name fingerprint) :
    (now.take move).state.store.Holds name fingerprint ∨
      ∃ position, move = .step position ∧ now.Ousts position name fingerprint := by
  rcases now.take_cases move with ⟨_, store⟩ | ⟨position, ⟨request, station⟩, later, found, _, does, moved⟩
  · rw [store]
    exact .inl holds
  have steps (goes : later ≠ .withdrawn) : move = .step position :=
    (moved.resolve_right fun gone => goes gone.1).1
  generalize (now.take move).state.store = after at does
  generalize was : station = earlier at does
  cases does with
  | drops slots live =>
    subst was
    by_cases sameName : name = request.name
    · refine .inr ⟨position, steps nofun, request, _, sameName.symm, ?_, .inl found⟩
      rintro rfl
      exact sound.informed.stale found rfl (sameName ▸ holds)
    · exact .inl (holds_erase live holds sameName)
  | inserts slots live =>
    subst was
    obtain ⟨sameFingerprint, named⟩ := Request.isAnsweredBy_iff.1 (sound.informed.fits found rfl)
    by_cases sameName : name = request.name
    · by_cases same : request.fingerprint = fingerprint
      · rw [sameName, ← named, ← same, ← sameFingerprint]
        exact .inl (holds_inserted live)
      · exact .inr ⟨position, steps nofun, request, _, sameName.symm, same, .inr ⟨_, found⟩⟩
    · rw [← named] at sameName
      exact .inl ((holds_insert_of_ne live sameName).2 holds)
  | _ => exact .inl (holds_of_live_eq (by assumption) holds)

theorem Sound.singleFlight (sound : now.Sound) : SingleFlight now := by
  refine ⟨?_, ?_, ?_, ?_, sound.lasts _, sound.tells, sound.waits⟩
  · rintro first second one other ⟨slot, call, there⟩ ⟨slotToo, callToo, thereToo⟩ equal
    exact sound.steady.eq_of_leads there thereToo rfl rfl equal
  · intro position counts
    cases found : now.threads[position]? with
    | none =>
      have still : now.step position = now := by simp only [step, found]
      rw [still] at counts
      exact absurd rfl counts
    | some thread =>
      obtain ⟨request, station⟩ := thread
      rw [(step_of_isAt found).2] at counts
      obtain ⟨slot, rfl⟩ := Request.calls_of_compiles_ne counts
      exact ⟨request, slot, found⟩
  · rintro position request ⟨slot, there⟩
    have missing := sound.informed.stale there rfl
    refine ⟨missing, ?_⟩
    rintro place other ⟨led, call, running⟩ equal
    have same := sound.steady.eq_of_leads running there rfl rfl equal
    subst same
    cases running.symm.trans there
  · intro position slot request artifact there
    obtain ⟨sameFingerprint, named⟩ := Request.isAnsweredBy_iff.1 (sound.informed.fits there rfl)
    rw [(step_of_isAt there).2, ← named, ← sameFingerprint]
    exact holds_inserted rfl

def FilledBy (start : Crowd) (moves : List Move) (slot : Nat) (outcome : Except BuildError Artifact) : Prop :=
  ∃ earlier leader later request, moves = earlier ++ .step leader :: later ∧
    (start.takeAll earlier).IsAt leader request (.fills slot outcome)

def OustedBy (start : Crowd) (moves : List Move) (name : String) (fingerprint : Fingerprint) : Prop :=
  ∃ earlier position later, moves = earlier ++ .step position :: later ∧
    (start.takeAll earlier).Ousts position name fingerprint

inductive Fares (start : Crowd) (moves : List Move) (position : Nat) (request : Request) (slot : Nat) : Prop
  | withdrawn (there : (start.takeAll moves).IsAt position request .withdrawn)
    (dropped : ∃ tidyUp, Move.drop position tidyUp ∈ moves)
  | shares (there : (start.takeAll moves).Shares position request slot)
  | told (outcome : Except BuildError Artifact)
    (there : (start.takeAll moves).IsAt position request (request.told outcome))
    (filled : (start.takeAll moves).state.store.cell slot = .filled outcome)

variable {start : Crowd} {moves : List Move} {outcome : Except BuildError Artifact}

theorem FilledBy.snoc (filled : start.FilledBy moves slot outcome) (move : Move) :
    start.FilledBy (moves ++ [move]) slot outcome := by
  obtain ⟨earlier, leader, later, request, rfl, there⟩ := filled
  exact ⟨earlier, leader, later ++ [move], request, by rw [List.append_assoc, List.cons_append], there⟩

theorem OustedBy.snoc {name : String} {fingerprint : Fingerprint} (ousted : start.OustedBy moves name fingerprint)
    (move : Move) : start.OustedBy (moves ++ [move]) name fingerprint := by
  obtain ⟨earlier, position, later, rfl, there⟩ := ousted
  exact ⟨earlier, position, later ++ [move], by rw [List.append_assoc, List.cons_append], there⟩

theorem Sound.cell_take (sound : now.Sound) (move : Move) (filled : now.state.store.cell slot = .filled outcome) :
    (now.take move).state.store.cell slot = .filled outcome := by
  rcases now.take_cases move with ⟨_, store⟩ | ⟨position, thread, later, found, _, does, _⟩
  · rwa [store]
  · exact sound.steady.keeps found does filled

/-- An outcome that is in a slot after some moves came there in one of them, or was there before. -/
theorem filledBy_of_cell (filled : (start.takeAll moves).state.store.cell slot = .filled outcome)
    (unfilled : start.state.store.cell slot ≠ .filled outcome) : start.FilledBy moves slot outcome := by
  induction moves using List.reverseRecOn with
  | nil => exact absurd filled unfilled
  | append_singleton moves move ih =>
    rw [takeAll_snoc] at filled
    rcases (start.takeAll moves).take_cases move with
      ⟨_, store⟩ | ⟨position, thread, later, found, _, does, moved⟩
    · rw [store] at filled
      exact (ih filled).snoc move
    · rcases Steady.fills_of_filled does filled with already | ⟨fills, rfl⟩
      · exact (ih already).snoc move
      · obtain ⟨rfl, _⟩ := moved.resolve_right fun gone => nomatch gone.1
        refine ⟨moves, position, [], thread.request, rfl, ?_⟩
        rw [IsAt, found, ← fills]

theorem lasts_or_ousted (sound : start.Sound) (moves : List Move) {name : String} {fingerprint : Fingerprint}
    (holds : start.state.store.Holds name fingerprint) :
    (start.takeAll moves).state.store.Holds name fingerprint ∨ start.OustedBy moves name fingerprint := by
  induction moves using List.reverseRecOn with
  | nil => exact .inl holds
  | append_singleton moves move ih =>
    rw [takeAll_snoc]
    rcases ih with held | ousted
    · rcases (sound.takeAll moves).lasts move held with still | ⟨position, rfl, ousts⟩
      · exact .inl still
      · exact .inr ⟨moves, position, [], rfl, ousts⟩
    · exact .inr (ousted.snoc move)

/-- A move leaves a request where it is, or it is about this request. -/
theorem isAt_take (there : now.IsAt position request station) (move : Move) :
    (now.take move).IsAt position request station ∨
      ∃ later, (now.take move).IsAt position request later ∧
        request.Does now.state.store station later (now.take move).state.store ∧
        (later = .withdrawn → station = .withdrawn ∨ ∃ tidyUp, move = .drop position tidyUp) := by
  rcases now.take_cases move with ⟨threads, _⟩ | ⟨place, thread, later, found, threads, does, moved⟩
  · rw [IsAt, threads]
    exact .inl there
  by_cases here : place = position
  · subst here
    rw [IsAt, found, Option.some.injEq] at there
    subst there
    refine .inr ⟨later, ?_, does, ?_⟩
    · rw [IsAt, threads, List.getElem?_set_self (List.getElem?_eq_some_iff.1 found).1]
    · intro gone
      rcases moved with ⟨_, stepped⟩ | ⟨_, tidyUp, dropped⟩
      · by_contra neither
        exact Request.step_ne_withdrawn (fun was => neither (.inl was)) (stepped.symm.trans gone)
      · exact .inr ⟨tidyUp, dropped⟩
  · left
    rwa [IsAt, threads, List.getElem?_set_ne here]

theorem Fares.take (sound : (start.takeAll moves).Sound) (fares : start.Fares moves position request slot)
    (move : Move) : start.Fares (moves ++ [move]) position request slot := by
  have earlier {tidyUp : Workspace → Workspace} (dropped : Move.drop position tidyUp ∈ moves) :
      Move.drop position tidyUp ∈ moves ++ [move] := List.mem_append_left _ dropped
  have last {tidyUp : Workspace → Workspace} (dropped : move = .drop position tidyUp) :
      Move.drop position tidyUp ∈ moves ++ [move] := List.mem_append_right _ (List.mem_singleton.2 dropped.symm)
  cases fares with
  | withdrawn there dropped =>
    obtain ⟨tidyUp, dropped⟩ := dropped
    rcases isAt_take there move with still | ⟨later, next, does, _⟩
    · exact .withdrawn (by rwa [takeAll_snoc]) ⟨tidyUp, earlier dropped⟩
    · obtain rfl : later = .withdrawn := (does.rests_of_ended (.inr rfl)).elim id id
      exact .withdrawn (by rwa [takeAll_snoc]) ⟨tidyUp, earlier dropped⟩
  | shares shares =>
    obtain ⟨station, there, holds⟩ := shares
    rcases isAt_take there move with still | ⟨later, next, does, gone⟩
    · exact .shares ⟨station, by rwa [takeAll_snoc], holds⟩
    · rcases sound.steady.holds_or_told there does holds with rfl | held | ⟨outcome, rfl, filled⟩
      · rcases gone rfl with rfl | ⟨tidyUp, dropped⟩
        · cases holds
        · exact .withdrawn (by rwa [takeAll_snoc]) ⟨tidyUp, last dropped⟩
      · exact .shares ⟨later, by rwa [takeAll_snoc], held⟩
      · exact .told outcome (by rwa [takeAll_snoc]) (by rw [takeAll_snoc]; exact sound.cell_take move filled)
  | told outcome there filled =>
    have stays := sound.cell_take move filled
    rw [← takeAll_snoc] at stays
    rcases isAt_take there move with still | ⟨later, next, does, gone⟩
    · exact .told outcome (by rwa [takeAll_snoc]) stays
    · rcases does.rests_of_ended (.inl ⟨outcome, rfl⟩) with rfl | rfl
      · exact .told outcome (by rwa [takeAll_snoc]) stays
      · rcases gone rfl with already | ⟨tidyUp, dropped⟩
        · cases already
        · exact .withdrawn (by rwa [takeAll_snoc]) ⟨tidyUp, last dropped⟩

/-- Whatever moves come, a request that shares a slot goes on doing so, is given up, or is told its outcome. -/
theorem Shares.fares (sound : start.Sound) (shares : start.Shares position request slot) (moves : List Move) :
    start.Fares moves position request slot := by
  induction moves using List.reverseRecOn with
  | nil => exact .shares shares
  | append_singleton moves move ih => exact ih.take (sound.takeAll moves) move

structure Idle (now : Crowd) (slot : Nat) : Prop where
  unlisted : now.state.store.Unlisted slot
  free : ∀ {position : Nat} {request : Request} {station : Station}, now.IsAt position request station →
    station.slot? ≠ some slot

theorem Idle.take (idle : now.Idle slot) (move : Move) : (now.take move).Idle slot := by
  rcases now.take_cases move with ⟨threads, store⟩ | ⟨place, thread, later, found, threads, does, _⟩
  · refine ⟨?_, ?_⟩
    · rw [store]
      exact idle.unlisted
    · intro position request station there
      rw [IsAt, threads] at there
      exact idle.free there
  obtain ⟨unlisted, free⟩ := does.idle idle.unlisted (idle.free found)
  refine ⟨unlisted, ?_⟩
  intro position request station there
  rw [IsAt, threads] at there
  rcases getElem?_set_cases there with ⟨_, same⟩ | ⟨_, old⟩
  · rw [Thread.mk.injEq] at same
    rwa [same.2]
  · exact idle.free old

theorem Idle.takeAll (idle : now.Idle slot) (moves : List Move) : (now.takeAll moves).Idle slot := by
  induction moves using List.reverseRecOn with
  | nil => exact idle
  | append_singleton moves move ih =>
    rw [takeAll_snoc]
    exact ih.take move

theorem idle_of_filled (requests : List Request) {state : BuildState} (rest : state.store.AtRest)
    (filled : state.store.cell slot = .filled outcome) : (ofRequests requests state).Idle slot := by
  constructor
  · cases found : state.store.slots[slot]? with
    | none =>
      rw [cell, found] at filled
      cases filled
    | some entry =>
      refine ⟨entry, found, ?_⟩
      by_contra isListed
      rw [cell_eq found, rest.vacant found (by simpa using isListed)] at filled
      cases filled
  · intro position request station there
    rw [IsAt, ofRequests, List.getElem?_map] at there
    obtain ⟨_, _, same⟩ := Option.map_eq_some_iff.1 there
    rw [← (Thread.mk.inj same).2]
    intro held
    cases held

def after (requests : List Request) (state : BuildState) (moves : List Move) : Crowd :=
  (ofRequests requests state).takeAll moves

/-- A request stays on its thread. -/
theorem exists_isAt_after (requests : List Request) (state : BuildState) (moves : List Move)
    (asked : requests[position]? = some request) :
    ∃ station, (after requests state moves).IsAt position request station := by
  induction moves using List.reverseRecOn with
  | nil => exact ⟨.begins, by rw [IsAt, after, takeAll, List.foldl_nil, ofRequests, List.getElem?_map, asked]; rfl⟩
  | append_singleton moves move ih =>
    obtain ⟨station, there⟩ := ih
    rw [after, takeAll_snoc]
    rcases isAt_take there move with still | ⟨later, next, _⟩
    · exact ⟨station, still⟩
    · exact ⟨later, next⟩

/-- However the steps of requests come one after another and whoever is given up: at every moment one call at
most is running for a fingerprint. A request that shares a slot is told the outcome that the leader of the slot
came to, unless it is given up. What has been published is not compiled again before a request for another
fingerprint has dropped or replaced it. -/
theorem single_flight (requests : List Request) (state : BuildState) (rest : state.store.AtRest)
    (moves : List Move) :
    SingleFlight (after requests state moves) ∧
    (∀ {position slot : Nat} {request : Request} (more : List Move),
      (after requests state moves).Shares position request slot →
      ((after requests state (moves ++ more)).IsAt position request .withdrawn ∧
        ∃ tidyUp, Move.drop position tidyUp ∈ more) ∨
      (after requests state (moves ++ more)).Shares position request slot ∨
      ∃ outcome, (after requests state (moves ++ more)).IsAt position request (request.told outcome) ∧
        (after requests state (moves ++ more)).state.store.cell slot = .filled outcome ∧
        (ofRequests requests state).FilledBy (moves ++ more) slot outcome) ∧
    ∀ {position : Nat} {request : Request} (more : List Move),
      (after requests state moves).state.store.Holds request.name request.fingerprint →
      (after requests state (moves ++ more)).Calls position request →
      (after requests state moves).OustedBy more request.name request.fingerprint := by
  have sound := sound_ofRequests requests rest
  have apart (more : List Move) : after requests state (moves ++ more) = (after requests state moves).takeAll more :=
    takeAll_append _ moves more
  refine ⟨(sound.takeAll moves).singleFlight, ?_, ?_⟩
  · intro position slot request more shares
    have open' (outcome : Except BuildError Artifact) : state.store.cell slot ≠ .filled outcome := by
      intro already
      obtain ⟨station, there, holds⟩ := shares
      exact ((idle_of_filled requests rest already).takeAll moves).free there holds
    have fares := shares.fares (sound.takeAll moves) more
    rw [apart]
    cases fares with
    | withdrawn there dropped => exact .inl ⟨there, dropped⟩
    | shares still => exact .inr (.inl still)
    | told outcome there filled =>
      refine .inr (.inr ⟨outcome, there, filled, filledBy_of_cell ?_ (open' outcome)⟩)
      rwa [takeAll_append]
  · intro position request more holds calls
    refine (lasts_or_ousted (sound.takeAll moves) more holds).resolve_left ?_
    rw [apart] at calls
    exact (((sound.takeAll moves).takeAll more).singleFlight.calls calls).1

def twinsShare : List Move :=
  List.replicate 7 (.step 0) ++ List.replicate 2 (.step 1)

def firstGivenUp : List Move :=
  .drop 0 id :: List.replicate 9 (.step 1)

/-- The second of two requests has found the slot of the first. When the first is given up the second takes over
and is told that its compiler cannot be run. -/
theorem told_after_takeover :
    Pool.emptyState.store.AtRest ∧
    (after Pool.brokenTwins Pool.emptyState twinsShare).Shares 1 (Pool.brokenRequest "B.vy") 0 ∧
    ∃ outcome, (after Pool.brokenTwins Pool.emptyState (twinsShare ++ firstGivenUp)).IsAt 1
        (Pool.brokenRequest "B.vy") ((Pool.brokenRequest "B.vy").told outcome) ∧
      (ofRequests Pool.brokenTwins Pool.emptyState).FilledBy (twinsShare ++ firstGivenUp) 0 outcome := by
  have rest : Pool.emptyState.store.AtRest :=
    ⟨⟨nofun, fun _ _ _ _ found => nomatch found⟩, nofun⟩
  have shares : (after Pool.brokenTwins Pool.emptyState twinsShare).Shares 1 (Pool.brokenRequest "B.vy") 0 := by
    have asked : Pool.brokenTwins[1]? = some (Pool.brokenRequest "B.vy") := rfl
    have seen : (after Pool.brokenTwins Pool.emptyState twinsShare).threads[1]?.map (·.station.slot?) =
        some (some 0) := by
      decide +kernel
    obtain ⟨station, there⟩ := exists_isAt_after Pool.brokenTwins Pool.emptyState twinsShare asked
    have holds := there
    rw [IsAt] at holds
    rw [holds, Option.map_some, Option.some.injEq] at seen
    exact ⟨station, there, seen⟩
  refine ⟨rest, shares, ?_⟩
  have done : (after Pool.brokenTwins Pool.emptyState (twinsShare ++ firstGivenUp)).threads[1]?.map
      (·.station.slot?) = some none := by
    decide +kernel
  rcases (single_flight Pool.brokenTwins Pool.emptyState rest twinsShare).2.1 firstGivenUp shares with
    ⟨_, tidyUp, dropped⟩ | ⟨station, there, holds⟩ | ⟨outcome, told, _, filled⟩
  · simp [firstGivenUp] at dropped
  · rw [IsAt] at there
    rw [there, Option.map_some, Option.some.injEq, holds] at done
    cases done
  · exact ⟨outcome, told, filled⟩

end Crowd
end ContractBuild
