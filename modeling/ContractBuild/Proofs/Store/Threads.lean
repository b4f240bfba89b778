import ContractBuild.Proofs.Store.Flights
import ContractBuild.Store.Steps

/-!
What holds of threads and slots at every moment. A slot without an outcome that a thread has found or made is
the listed one of its fingerprint, and one thread leads it if it is busy. From the moment at which that thread
has seen that there is no fresh entry until it calls its adapter, there is none.
-/
namespace ContractBuild

namespace Station

def slot? : Station → Option Nat
  | looks slot | leads slot | misses slot | drops slot | seeks slot | removes slot | calls slot => some slot
  | compiling slot _ => some slot
  | prepares slot _ | writes slot _ | inserts slot _ => some slot
  | fills slot _ | releases slot _ => some slot
  | _ => none

def led? : Station → Option Nat
  | leads slot | misses slot | drops slot | seeks slot | removes slot | calls slot => some slot
  | compiling slot _ => some slot
  | prepares slot _ | writes slot _ | inserts slot _ => some slot
  | fills slot _ => some slot
  | _ => none

def isStale : Station → Bool
  | misses _ | drops _ | seeks _ | removes _ | calls _ => true
  | _ => false

def artifact? : Station → Option Artifact
  | prepares _ artifact | writes _ artifact | inserts _ artifact => some artifact
  | _ => none

theorem slot?_of_led? {station : Station} {slot : Nat} (led : station.led? = some slot) :
    station.slot? = some slot := by
  cases station <;> first | exact led | cases led

theorem led?_of_isStale {station : Station} (stale : station.isStale = true) : ∃ slot, station.led? = some slot := by
  cases station <;> first | exact ⟨_, rfl⟩ | cases stale

end Station

namespace Request

def told (request : Request) (outcome : Except BuildError Artifact) : Station :=
  .answered (outcome.mapError (·.duplicate request.unit.path))

inductive Does (request : Request) (before : Store) : Station → Station → Store → Prop
  | rests {station : Station} {after : Store} (slots : after.slots = before.slots) (live : after.live = before.live) :
    Does request before station station after
  | begins {later : Station} {after : Store} (slots : after.slots = before.slots) (live : after.live = before.live)
    (free : later.slot? = none) (fine : later.artifact? = none) (calm : later.isStale = false) :
    Does request before .begins later after
  | joins {after : Store} (slots : after.slots = (before.countMiss.join request.fingerprint).2.slots)
    (live : after.live = before.live) :
    Does request before .joins (.looks (before.countMiss.join request.fingerprint).1) after
  | takes {slot : Nat} {outcome : Except BuildError Artifact} {after : Store}
    (filled : before.cell slot = .filled outcome) (slots : after.slots = before.slots)
    (live : after.live = before.live) :
    Does request before (.looks slot) (.releases slot outcome) after
  | leads {slot : Nat} {after : Store} (vacant : before.cell slot = .vacant)
    (slots : after.slots = (before.setCell slot .busy).slots) (live : after.live = before.live) :
    Does request before (.looks slot) (.leads slot) after
  | goesOn {slot : Nat} {earlier later : Station} {after : Store} (led : earlier.led? = some slot)
    (still : later.led? = some slot) (slots : after.slots = before.slots) (live : after.live = before.live)
    (stale : later.isStale = true → earlier.isStale = true ∨ ¬ before.Holds request.name request.fingerprint)
    (fits : ∀ artifact, later.artifact? = some artifact →
      earlier.artifact? = some artifact ∨ request.isAnsweredBy artifact = true) :
    Does request before earlier later after
  | drops {slot : Nat} {after : Store} (slots : after.slots = before.slots)
    (live : after.live = (before.erase request.name).live) :
    Does request before (.drops slot) (.seeks slot) after
  | inserts {slot : Nat} {artifact : Artifact} {after : Store} (slots : after.slots = before.slots)
    (live : after.live = (before.insert artifact).live) :
    Does request before (.inserts slot artifact) (.fills slot (.ok artifact)) after
  | fills {slot : Nat} {outcome : Except BuildError Artifact} {after : Store}
    (slots : after.slots = (before.setCell slot (.filled outcome)).slots) (live : after.live = before.live) :
    Does request before (.fills slot outcome) (.releases slot outcome) after
  | releases {slot : Nat} {outcome : Except BuildError Artifact} {after : Store}
    (slots : after.slots = (before.release slot).slots) (live : after.live = before.live) :
    Does request before (.releases slot outcome) (request.told outcome) after
  | leaves {station : Station} {after : Store} (unled : station.led? = none) (slots : after.slots = before.slots)
    (live : after.live = before.live) :
    Does request before station .withdrawn after
  | vacates {slot : Nat} {station : Station} {after : Store} (led : station.led? = some slot)
    (slots : after.slots = (before.setCell slot .vacant).slots) (live : after.live = before.live) :
    Does request before station .withdrawn after

theorem goOn_cases (slot : Nat) (next : Station) (action : FileAction Unit) (state : BuildState) :
    (goOn slot next action state).2.store = state.store ∧
      ((goOn slot next action state).1 = next ∨
        ∃ cause, (goOn slot next action state).1 = .fills slot (.error cause)) := by
  unfold goOn StoreAction.onFiles
  rcases action state.workspace.files with ⟨cause | _, files⟩
  · exact ⟨rfl, .inr ⟨_, rfl⟩⟩
  · exact ⟨rfl, .inl rfl⟩

theorem goOn_does {request : Request} {slot : Nat} {earlier next : Station} {action : FileAction Unit}
    {state : BuildState} (led : earlier.led? = some slot) (still : next.led? = some slot)
    (stale : next.isStale = true → earlier.isStale = true)
    (fits : ∀ artifact, next.artifact? = some artifact → earlier.artifact? = some artifact) :
    request.Does state.store earlier (goOn slot next action state).1 (goOn slot next action state).2.store := by
  obtain ⟨same, went | ⟨cause, failed⟩⟩ := goOn_cases slot next action state
  · rw [same, went]
    exact .goesOn led still rfl rfl (fun later => .inl (stale later)) fun artifact there => .inl (fits artifact there)
  · rw [same, failed]
    exact .goesOn led rfl rfl rfl nofun nofun

theorem step_does (request : Request) (station : Station) (state : BuildState) :
    request.Does state.store station (request.step station state).1 (request.step station state).2.store := by
  cases station with
  | begins =>
    simp only [step]
    split
    · exact .begins rfl rfl rfl rfl rfl
    · exact .begins rfl rfl rfl rfl rfl
  | joins => exact .joins rfl (Store.live_join _ _)
  | looks slot =>
    simp only [step]
    split
    · next outcome filled => exact .takes filled rfl rfl
    · exact .rests rfl rfl
    · next vacant => exact .leads vacant rfl rfl
  | leads slot =>
    simp only [step]
    split
    · exact .goesOn rfl rfl rfl rfl nofun nofun
    · next missing =>
      refine .goesOn rfl rfl rfl rfl (fun _ => .inr ?_) nofun
      rintro ⟨artifact, found, same⟩
      rw [Store.fresh?_eq_some.2 ⟨found, same⟩] at missing
      cases missing
  | misses slot =>
    simp only [step]
    split <;> exact .goesOn rfl rfl rfl rfl (fun _ => .inl rfl) nofun
  | drops slot => exact .drops rfl rfl
  | seeks slot =>
    simp only [step]
    split <;> exact .goesOn rfl rfl rfl rfl (fun _ => .inl rfl) nofun
  | removes slot => exact goOn_does rfl rfl (fun _ => rfl) nofun
  | calls slot => exact .goesOn rfl rfl rfl rfl nofun nofun
  | compiling slot call =>
    cases call with
    | act change next => exact .goesOn rfl rfl rfl rfl nofun nofun
    | await ready next => exact .goesOn rfl rfl rfl rfl nofun nofun
    | done outcome =>
      cases outcome with
      | error cause => exact .goesOn rfl rfl rfl rfl nofun nofun
      | ok artifact =>
        simp only [step, follow]
        split
        · next answers =>
          refine .goesOn rfl rfl rfl rfl nofun fun other same => .inr ?_
          cases same
          exact answers
        · exact .goesOn rfl rfl rfl rfl nofun nofun
  | prepares slot artifact => exact goOn_does rfl rfl nofun fun _ same => same
  | writes slot artifact => exact goOn_does rfl rfl nofun fun _ same => same
  | inserts slot artifact => exact .inserts rfl rfl
  | fills slot outcome => exact .fills rfl rfl
  | releases slot outcome => exact .releases rfl rfl
  | answered outcome => exact .rests rfl rfl
  | withdrawn => exact .rests rfl rfl

/-- A request is not given up in a step of its own. -/
theorem step_ne_withdrawn {request : Request} {station : Station} {state : BuildState}
    (there : station ≠ .withdrawn) : (request.step station state).1 ≠ .withdrawn := by
  have goesOn (slot : Nat) {next : Station} (action : FileAction Unit) (differs : next ≠ .withdrawn) :
      (goOn slot next action state).1 ≠ .withdrawn := by
    rcases (goOn_cases slot next action state).2 with went | ⟨cause, failed⟩
    · rwa [went]
    · rw [failed]
      exact nofun
  cases station with
  | withdrawn => exact absurd rfl there
  | removes slot => exact goesOn slot _ nofun
  | prepares slot artifact => exact goesOn slot _ nofun
  | writes slot artifact => exact goesOn slot _ nofun
  | compiling slot call =>
    cases call with
    | act change next => exact nofun
    | await ready next => exact nofun
    | done outcome =>
      cases outcome with
      | error cause => exact nofun
      | ok artifact =>
        simp only [step, follow]
        split <;> exact nofun
  | begins | looks slot | leads slot | misses slot | seeks slot =>
    simp only [step]
    split <;> exact nofun
  | _ => exact nofun

theorem abandon_does (request : Request) {station : Station} (awaits : station.awaits = true)
    (tidyUp : Workspace → Workspace) (state : BuildState) :
    request.Does state.store station .withdrawn (station.abandon tidyUp state).store := by
  cases station with
  | begins => exact .leaves rfl rfl rfl
  | looks slot => exact .leaves rfl rfl rfl
  | compiling slot call => exact .vacates rfl rfl rfl
  | _ => cases awaits

end Request

namespace Store

structure Spares (own : Option Nat) (before after : Store) : Prop where
  once : before.ListsOnce → after.ListsOnce
  has : ∀ {slot : Nat} {fingerprint : Fingerprint}, before.HasSlot slot fingerprint →
    after.HasSlot slot fingerprint
  cell : ∀ {slot : Nat}, own ≠ some slot → after.cell slot = before.cell slot
  listed : ∀ {slot : Nat} {entry : Slot}, after.slots[slot]? = some entry → entry.listed = true →
    entry.cell = .busy → own ≠ some slot →
    ∃ old, before.slots[slot]? = some old ∧ old.listed = true ∧ old.cell = .busy

variable {before middle after : Store} {slot : Nat}

theorem Spares.trans (first : Spares none before middle) (second : Spares none middle after) :
    Spares none before after := by
  refine ⟨fun once => second.once (first.once once), fun has => second.has (first.has has),
    fun foreign => (second.cell foreign).trans (first.cell foreign), ?_⟩
  intro slot entry found isListed busy foreign
  obtain ⟨old, there, listedThen, busyThen⟩ := second.listed found isListed busy foreign
  exact first.listed there listedThen busyThen foreign

theorem Spares.cell_eq (spares : Spares none before after) (slot : Nat) : after.cell slot = before.cell slot :=
  spares.cell nofun

theorem spares_of_slots_eq (same : after.slots = before.slots) : Spares none before after := by
  refine ⟨fun once => once.of_slots_eq same, ?_, fun _ => cell_of_slots_eq same _, ?_⟩
  · intro slot fingerprint has
    rwa [HasSlot, same]
  · intro slot entry found isListed busy _
    exact ⟨entry, same ▸ found, isListed, busy⟩

theorem Touches.spares {change : Slot → Slot} (touches : Touches slot before after change) :
    Spares (some slot) before after := by
  have ne_of_own {place : Nat} (foreign : some slot ≠ some place) : slot ≠ place :=
    fun same => foreign (congrArg some same)
  refine ⟨touches.once, touches.hasSlot, fun foreign => touches.cell_of_ne (ne_of_own foreign), ?_⟩
  intro place entry found isListed busy foreign
  obtain ⟨old, there, rfl⟩ := touches.before? found
  rw [if_neg (ne_of_own foreign)] at isListed busy
  exact ⟨old, there, isListed, busy⟩

theorem spares_join (before : Store) (fingerprint : Fingerprint) :
    Spares none before (before.join fingerprint).2 := by
  obtain ⟨_, keeps, cells⟩ := before.hasSlot_join fingerprint
  refine ⟨fun once => once.join fingerprint, keeps, fun _ => cells _, ?_⟩
  intro slot entry found isListed busy _
  rcases join_cases before fingerprint with ⟨position, old, run, _⟩ | ⟨run, _⟩
  · rw [run] at found
    exact ⟨entry, found, isListed, busy⟩
  · rw [run] at found
    rcases slot_of_append found with there | ⟨_, rfl⟩
    · exact ⟨entry, there, isListed, busy⟩
    · cases busy

/-- A slot that a request holds is there. -/
theorem HasSlot.cell_setCell {fingerprint : Fingerprint} {cell : Cell (Except BuildError Artifact)}
    (has : before.HasSlot slot fingerprint) (same : after.slots = (before.setCell slot cell).slots) :
    after.cell slot = cell := by
  obtain ⟨entry, found, _⟩ := has
  rw [Store.cell, same, getElem?_setCell, found]
  simp

theorem slot_eq_of_hasSlot {first second : Nat} {fingerprint : Fingerprint} (once : before.ListsOnce)
    (has : before.HasSlot first fingerprint) (hasToo : before.HasSlot second fingerprint)
    (unfilled : ∀ outcome, before.cell first ≠ .filled outcome)
    (unfilledToo : ∀ outcome, before.cell second ≠ .filled outcome) : first = second := by
  obtain ⟨entry, found, same, joinable⟩ := has
  obtain ⟨entryToo, foundToo, sameToo, joinableToo⟩ := hasToo
  rw [cell_eq found] at unfilled
  rw [cell_eq foundToo] at unfilledToo
  exact once found foundToo (joinable unfilled) (joinableToo unfilledToo) (same.trans sameToo.symm)

end Store

structure Steady (threads : List Thread) (store : Store) : Prop where
  once : store.ListsOnce
  holds : ∀ {position slot : Nat} {thread : Thread}, threads[position]? = some thread →
    thread.station.slot? = some slot → store.HasSlot slot thread.request.fingerprint
  leads : ∀ {position slot : Nat} {thread : Thread}, threads[position]? = some thread →
    thread.station.led? = some slot → store.cell slot = .busy
  alone : ∀ {first second slot : Nat} {one other : Thread}, threads[first]? = some one →
    threads[second]? = some other → one.station.led? = some slot → other.station.led? = some slot → first = second
  manned : ∀ {slot : Nat} {entry : Slot}, store.slots[slot]? = some entry → entry.listed = true →
    entry.cell = .busy → ∃ (position : Nat) (thread : Thread),
      threads[position]? = some thread ∧ thread.station.led? = some slot
  told : ∀ {position slot : Nat} {thread : Thread} {outcome : Except BuildError Artifact},
    threads[position]? = some thread → thread.station = .releases slot outcome → store.cell slot = .filled outcome

namespace Steady
open Store

variable {threads : List Thread} {before after : Store} {position slot : Nat} {thread : Thread} {own : Option Nat}
  {later : Station}

/-- An outcome that is in a slot stays there. -/
theorem keeps (steady : Steady threads before) (found : threads[position]? = some thread)
    (does : thread.request.Does before thread.station later after) {outcome : Except BuildError Artifact}
    (filled : before.cell slot = .filled outcome) : after.cell slot = .filled outcome := by
  have kept {led : Nat} {cell : Cell (Except BuildError Artifact)}
      (open' : before.cell led = .busy ∨ before.cell led = .vacant)
      (same : after.slots = (before.setCell led cell).slots) : after.cell slot = .filled outcome := by
    have unfilled : ∀ outcome, before.cell led ≠ .filled outcome := by
      rintro outcome full
      rw [full] at open'
      exact open'.elim nofun nofun
    refine ((touches_setCell same fun _ => unfilled).cell_of_ne ?_).trans filled
    rintro rfl
    exact unfilled outcome filled
  generalize was : thread.station = earlier at does
  cases does with
  | joins slots live =>
    have joined := (before.countMiss.hasSlot_join thread.request.fingerprint).2.2 slot
    exact (cell_of_slots_eq slots slot).trans (joined.trans filled)
  | leads vacant slots live => exact kept (.inr vacant) slots
  | fills slots live => exact kept (.inl (steady.leads found (by rw [was]; rfl))) slots
  | releases slots live => exact (cell_of_slots_eq slots slot).trans ((cell_release before _ slot).trans filled)
  | vacates led slots live => exact kept (.inl (steady.leads found (was ▸ led))) slots
  | rests slots live => exact (cell_of_slots_eq slots slot).trans filled
  | begins slots live free fine calm => exact (cell_of_slots_eq slots slot).trans filled
  | takes full slots live => exact (cell_of_slots_eq slots slot).trans filled
  | goesOn led still slots live stale fits => exact (cell_of_slots_eq slots slot).trans filled
  | drops slots live => exact (cell_of_slots_eq slots slot).trans filled
  | inserts slots live => exact (cell_of_slots_eq slots slot).trans filled
  | leaves unled slots live => exact (cell_of_slots_eq slots slot).trans filled

/-- A thread goes on to another station and changes one slot at most, which no other thread leads. -/
theorem put (steady : Steady threads before) (found : threads[position]? = some thread)
    (spares : Spares own before after)
    (free : ∀ {place slot : Nat} {other : Thread}, own = some slot → threads[place]? = some other →
      other.station.led? = some slot → place = position)
    (keeps : ∀ {slot : Nat} {outcome : Except BuildError Artifact}, before.cell slot = .filled outcome →
      after.cell slot = .filled outcome)
    (holds : ∀ {slot : Nat}, later.slot? = some slot → after.HasSlot slot thread.request.fingerprint)
    (leads : ∀ {slot : Nat}, later.led? = some slot →
      after.cell slot = .busy ∧ (own = some slot ∨ thread.station.led? = some slot))
    (mans : ∀ {slot : Nat}, own = some slot ∨ thread.station.led? = some slot → after.cell slot = .busy →
      later.led? = some slot)
    (told : ∀ {slot : Nat} {outcome : Except BuildError Artifact}, later = .releases slot outcome →
      after.cell slot = .filled outcome) :
    Steady (threads.set position { thread with station := later }) after := by
  have here : (threads.set position { thread with station := later })[position]? =
      some { thread with station := later } := List.getElem?_set_self (List.getElem?_eq_some_iff.1 found).1
  have foreign {place slot : Nat} {other : Thread} (away : place ≠ position) (old : threads[place]? = some other)
      (led : other.station.led? = some slot) : own ≠ some slot := fun same => away (free same old led)
  have aloneToo {place slot : Nat} {other : Thread} (old : threads[place]? = some other)
      (led : other.station.led? = some slot) (ledToo : later.led? = some slot) : place = position := by
    rcases (leads ledToo).2 with mine | already
    · exact free mine old led
    · exact steady.alone old found led already
  refine ⟨spares.once steady.once, ?_, ?_, ?_, ?_, ?_⟩
  · intro place slot other there held
    rcases getElem?_set_cases there with ⟨_, rfl⟩ | ⟨_, old⟩
    · exact holds held
    · exact spares.has (steady.holds old held)
  · intro place slot other there led
    rcases getElem?_set_cases there with ⟨_, rfl⟩ | ⟨away, old⟩
    · exact (leads led).1
    · exact (spares.cell (foreign away old led)).trans (steady.leads old led)
  · intro first second slot one other there thereToo led ledToo
    rcases getElem?_set_cases there with ⟨rfl, rfl⟩ | ⟨away, old⟩ <;>
      rcases getElem?_set_cases thereToo with ⟨rfl, rfl⟩ | ⟨awayToo, oldToo⟩
    · rfl
    · exact (aloneToo oldToo ledToo led).symm
    · exact aloneToo old led ledToo
    · exact steady.alone old oldToo led ledToo
  · intro slot entry there isListed busy
    have busyCell : after.cell slot = .busy := (cell_eq there).trans busy
    by_cases mine : own = some slot
    · exact ⟨position, _, here, mans (.inl mine) busyCell⟩
    obtain ⟨old, thereThen, listedThen, busyThen⟩ := spares.listed there isListed busy mine
    obtain ⟨place, leader, leads, led⟩ := steady.manned thereThen listedThen busyThen
    by_cases same : place = position
    · subst same
      rw [found, Option.some.injEq] at leads
      subst leads
      exact ⟨place, _, here, mans (.inr led) busyCell⟩
    · exact ⟨place, leader, by rwa [List.getElem?_set_ne (Ne.symm same)], led⟩
  · intro place slot other outcome there releases
    rcases getElem?_set_cases there with ⟨_, rfl⟩ | ⟨_, old⟩
    · exact told releases
    · exact keeps (steady.told old releases)

/-- A thread that changes no slot leads afterwards what it led before. -/
theorem put_same (steady : Steady threads before) (found : threads[position]? = some thread)
    (same : after.slots = before.slots)
    (holds : ∀ {slot : Nat}, later.slot? = some slot → thread.station.slot? = some slot)
    (leads : later.led? = thread.station.led?)
    (told : ∀ {slot : Nat} {outcome : Except BuildError Artifact}, later = .releases slot outcome →
      before.cell slot = .filled outcome) :
    Steady (threads.set position { thread with station := later }) after := by
  have spares := spares_of_slots_eq same
  refine steady.put found spares nofun ?_ ?_ ?_ ?_ ?_
  · exact fun filled => (spares.cell_eq _).trans filled
  · exact fun held => spares.has (steady.holds found (holds held))
  · intro slot led
    rw [leads] at led
    exact ⟨(spares.cell_eq slot).trans (steady.leads found led), .inr led⟩
  · intro slot which _
    rw [leads]
    exact which.resolve_left nofun
  · exact fun releases => (spares.cell_eq _).trans (told releases)

/-- A thread that leads a slot ends that, and leaves something else than the mark of a leader there. -/
theorem put_end (steady : Steady threads before) (found : threads[position]? = some thread)
    (led : thread.station.led? = some slot) {cell : Cell (Except BuildError Artifact)}
    (keeps : ∀ {slot : Nat} {outcome : Except BuildError Artifact}, before.cell slot = .filled outcome →
      after.cell slot = .filled outcome)
    (same : after.slots = (before.setCell slot cell).slots) (idle : cell ≠ .busy) (leads : later.led? = none)
    (holds : ∀ {place : Nat}, later.slot? = some place → place = slot)
    (told : ∀ {place : Nat} {outcome : Except BuildError Artifact}, later = .releases place outcome →
      place = slot ∧ cell = .filled outcome) :
    Steady (threads.set position { thread with station := later }) after := by
  have busy := steady.leads found led
  have has := steady.holds found (Station.slot?_of_led? led)
  have unfilled : ∀ outcome, before.cell slot ≠ .filled outcome := by
    rw [busy]
    exact fun _ => nofun
  have spares := (touches_setCell same fun _ => unfilled).spares
  refine steady.put found spares ?_ keeps ?_ ?_ ?_ ?_
  · intro place slot other mine old ledToo
    cases mine
    exact steady.alone old found ledToo led
  · intro place held
    rw [holds held]
    exact spares.has has
  · intro place ledLater
    rw [leads] at ledLater
    cases ledLater
  · intro place which busyLater
    have isSlot : slot = place := which.elim Option.some.inj fun ledToo => Option.some.inj (led.symm.trans ledToo)
    subst isSlot
    rw [has.cell_setCell same] at busyLater
    exact absurd busyLater idle
  · intro place outcome releases
    obtain ⟨rfl, rfl⟩ := told releases
    exact has.cell_setCell same

/-- A thread that finds its slot vacant leads it. -/
theorem put_lead (steady : Steady threads before) (found : threads[position]? = some thread)
    (looks : thread.station = .looks slot) (vacant : before.cell slot = .vacant)
    (keeps : ∀ {slot : Nat} {outcome : Except BuildError Artifact}, before.cell slot = .filled outcome →
      after.cell slot = .filled outcome)
    (same : after.slots = (before.setCell slot .busy).slots) :
    Steady (threads.set position { thread with station := .leads slot }) after := by
  have has : before.HasSlot slot thread.request.fingerprint := steady.holds found (by rw [looks]; rfl)
  have unfilled : ∀ outcome, before.cell slot ≠ .filled outcome := by
    rw [vacant]
    exact fun _ => nofun
  have spares := (touches_setCell same fun _ => unfilled).spares
  refine steady.put found spares ?_ keeps ?_ ?_ ?_ nofun
  · intro place slot other mine old led
    cases mine
    exact absurd (vacant.symm.trans (steady.leads old led)) nofun
  · rintro place ⟨⟩
    exact spares.has has
  · rintro place ⟨⟩
    exact ⟨has.cell_setCell same, .inl rfl⟩
  · rintro place (mine | led) _
    · exact mine
    · rw [looks] at led
      cases led

/-- A thread takes its slot off the list, which has an outcome by then. -/
theorem put_release (steady : Steady threads before) (found : threads[position]? = some thread)
    {outcome : Except BuildError Artifact} (releases : thread.station = .releases slot outcome)
    (keeps : ∀ {slot : Nat} {outcome : Except BuildError Artifact}, before.cell slot = .filled outcome →
      after.cell slot = .filled outcome)
    (same : after.slots = (before.release slot).slots) :
    Steady (threads.set position { thread with station := thread.request.told outcome }) after := by
  have filled := steady.told found releases
  refine steady.put found (touches_release filled same).spares ?_ keeps nofun nofun ?_ nofun
  · intro place slot other mine old led
    cases mine
    exact absurd (filled.symm.trans (steady.leads old led)) nofun
  · rintro place (mine | led) busy
    · cases mine
      exact absurd ((keeps filled).symm.trans busy) nofun
    · rw [releases] at led
      cases led

/-- A step of a thread, or giving it up, keeps all this. -/
theorem does (steady : Steady threads before) (found : threads[position]? = some thread)
    (does : thread.request.Does before thread.station later after) :
    Steady (threads.set position { thread with station := later }) after := by
  have keeps {slot : Nat} {outcome : Except BuildError Artifact} (filled : before.cell slot = .filled outcome) :
      after.cell slot = .filled outcome := steady.keeps found does filled
  generalize was : thread.station = earlier at does
  cases does with
  | rests slots live =>
    refine steady.put_same found slots (fun held => was ▸ held) (by rw [was]) ?_
    rintro slot outcome rfl
    exact steady.told found was
  | begins slots live free fine calm =>
    have unled : later.led? = none := by
      cases leads : later.led? with
      | none => rfl
      | some slot => exact absurd (free.symm.trans (Station.slot?_of_led? leads)) nofun
    refine steady.put_same found slots ?_ (by rw [was, unled]; rfl) ?_
    · intro slot held
      rw [free] at held
      cases held
    · rintro slot outcome rfl
      cases free
  | joins slots live =>
    have same : Spares none (before.countMiss.join thread.request.fingerprint).2 after := spares_of_slots_eq slots
    have counted : Spares none before before.countMiss := spares_of_slots_eq rfl
    have spares := (counted.trans (spares_join before.countMiss thread.request.fingerprint)).trans same
    refine steady.put found spares nofun keeps ?_ nofun ?_ nofun
    · rintro slot ⟨⟩
      exact same.has (before.countMiss.hasSlot_join thread.request.fingerprint).1
    · rintro slot (⟨⟨⟩⟩ | led) _
      rw [was] at led
      cases led
  | takes filled slots live =>
    refine steady.put_same found slots (fun held => was ▸ held) (by rw [was]; rfl) ?_
    rintro slot outcome ⟨⟩
    exact filled
  | leads vacant slots live =>
    exact steady.put_lead found was vacant keeps slots
  | goesOn led still slots live stale fits =>
    rw [← was] at led
    refine steady.put_same found slots ?_ (still.trans led.symm) ?_
    · intro slot held
      rw [Station.slot?_of_led? led, ← Station.slot?_of_led? still, held]
    · rintro slot outcome rfl
      cases still
  | drops slots live =>
    refine steady.put_same found slots (fun held => was ▸ held) (by rw [was]; rfl) nofun
  | inserts slots live =>
    refine steady.put_same found slots (fun held => was ▸ held) (by rw [was]; rfl) nofun
  | fills slots live =>
    refine steady.put_end found (by rw [was]; rfl) keeps slots nofun rfl ?_ ?_
    · rintro place ⟨⟩
      rfl
    · rintro place outcome ⟨⟩
      exact ⟨rfl, rfl⟩
  | releases slots live =>
    exact steady.put_release found was keeps slots
  | leaves unled slots live =>
    exact steady.put_same found slots nofun (by rw [was, unled]; rfl) nofun
  | vacates led slots live =>
    exact steady.put_end found (was ▸ led) keeps slots nofun rfl nofun nofun

end Steady

structure Informed (threads : List Thread) (store : Store) : Prop where
  stale : ∀ {position : Nat} {thread : Thread}, threads[position]? = some thread → thread.station.isStale = true →
    ¬ store.Holds thread.request.name thread.request.fingerprint
  fits : ∀ {position : Nat} {thread : Thread} {artifact : Artifact}, threads[position]? = some thread →
    thread.station.artifact? = some artifact → thread.request.isAnsweredBy artifact = true

namespace Store

variable {before after : Store} {name : String} {fingerprint : Fingerprint}

theorem holds_of_erase {erased : String} (live : after.live = (before.erase erased).live)
    (holds : after.Holds name fingerprint) : name ≠ erased ∧ before.Holds name fingerprint := by
  have lookup := lookup_of_live_eq live name
  rw [holds_of_lookup_eq lookup] at holds
  by_cases same : name = erased
  · subst same
    obtain ⟨artifact, found, _⟩ := holds
    rw [lookup_erase_self] at found
    cases found
  · exact ⟨same, (holds_of_lookup_eq (lookup_erase_of_ne before same)).1 holds⟩

theorem holds_erase {erased : String} (live : after.live = (before.erase erased).live)
    (holds : before.Holds name fingerprint) (differs : name ≠ erased) : after.Holds name fingerprint := by
  rw [holds_of_lookup_eq (lookup_of_live_eq live name)]
  exact (holds_of_lookup_eq (lookup_erase_of_ne before differs)).2 holds

theorem holds_inserted {artifact : Artifact} (live : after.live = (before.insert artifact).live) :
    after.Holds artifact.name artifact.fingerprint := by
  rw [holds_of_lookup_eq (lookup_of_live_eq live artifact.name)]
  exact ⟨artifact, lookup_insert_self before artifact, rfl⟩

theorem holds_insert_of_ne {artifact : Artifact} (live : after.live = (before.insert artifact).live)
    (differs : name ≠ artifact.name) : after.Holds name fingerprint ↔ before.Holds name fingerprint := by
  rw [holds_of_lookup_eq (lookup_of_live_eq live name)]
  exact holds_of_lookup_eq (lookup_insert_of_ne before differs)

theorem holds_of_insert {artifact : Artifact} (live : after.live = (before.insert artifact).live)
    (holds : after.Holds name fingerprint) :
    before.Holds name fingerprint ∨ (name = artifact.name ∧ fingerprint = artifact.fingerprint) := by
  by_cases same : name = artifact.name
  · subst same
    rw [holds_of_lookup_eq (lookup_of_live_eq live artifact.name)] at holds
    obtain ⟨found, there, rfl⟩ := holds
    rw [lookup_insert_self, Option.some.injEq] at there
    subst there
    exact .inr ⟨rfl, rfl⟩
  · exact .inl ((holds_insert_of_ne live same).1 holds)

end Store

namespace Steady

variable {threads : List Thread} {store : Store}

/-- No two threads lead slots of one fingerprint. -/
theorem eq_of_leads (steady : Steady threads store) {first second slot slotToo : Nat} {one other : Thread}
    (found : threads[first]? = some one) (foundToo : threads[second]? = some other)
    (led : one.station.led? = some slot) (ledToo : other.station.led? = some slotToo)
    (same : one.request.fingerprint = other.request.fingerprint) : first = second := by
  have unfilled {position place : Nat} {thread : Thread} (there : threads[position]? = some thread)
      (leads : thread.station.led? = some place) (outcome : Except BuildError Artifact) :
      store.cell place ≠ .filled outcome := by
    rw [steady.leads there leads]
    exact nofun
  have hasToo := steady.holds foundToo (Station.slot?_of_led? ledToo)
  rw [← same] at hasToo
  have oneSlot := Store.slot_eq_of_hasSlot steady.once (steady.holds found (Station.slot?_of_led? led)) hasToo
    (unfilled found led) (unfilled foundToo ledToo)
  exact steady.alone found foundToo led (oneSlot ▸ ledToo)

end Steady

namespace Informed
open Store

variable {threads : List Thread} {before after : Store} {position : Nat} {thread : Thread} {later : Station}

theorem put (informed : Informed threads before)
    (spares : ∀ {place : Nat} {other : Thread}, place ≠ position → threads[place]? = some other →
      other.station.isStale = true → after.Holds other.request.name other.request.fingerprint →
      before.Holds other.request.name other.request.fingerprint)
    (stale : later.isStale = true → ¬ after.Holds thread.request.name thread.request.fingerprint)
    (fits : ∀ {artifact : Artifact}, later.artifact? = some artifact →
      thread.request.isAnsweredBy artifact = true) :
    Informed (threads.set position { thread with station := later }) after := by
  constructor
  · intro place other there isStale
    rcases getElem?_set_cases there with ⟨_, rfl⟩ | ⟨away, old⟩
    · exact stale isStale
    · exact fun holds => informed.stale old isStale (spares away old isStale holds)
  · intro place other artifact there about
    rcases getElem?_set_cases there with ⟨_, rfl⟩ | ⟨_, old⟩
    · exact fits about
    · exact informed.fits old about

/-- A thread that changes no entry may go on to a station in which it knows no more. -/
theorem put_same (informed : Informed threads before) (found : threads[position]? = some thread)
    (same : after.live = before.live)
    (stale : later.isStale = true → thread.station.isStale = true ∨
      ¬ before.Holds thread.request.name thread.request.fingerprint)
    (fits : ∀ artifact, later.artifact? = some artifact →
      thread.station.artifact? = some artifact ∨ thread.request.isAnsweredBy artifact = true) :
    Informed (threads.set position { thread with station := later }) after := by
  refine informed.put ?_ ?_ ?_
  · exact fun _ _ _ => holds_of_live_eq same.symm
  · intro isStale holds
    have held := holds_of_live_eq same.symm holds
    exact (stale isStale).elim (fun already => informed.stale found already held) fun missing => missing held
  · exact fun about => (fits _ about).elim (informed.fits found) id

theorem does (informed : Informed threads before) (steady : Steady threads before)
    (found : threads[position]? = some thread) (does : thread.request.Does before thread.station later after) :
    Informed (threads.set position { thread with station := later }) after := by
  generalize was : thread.station = earlier at does
  cases does with
  | rests slots live =>
    exact informed.put_same found live (fun stale => .inl (was ▸ stale)) fun _ about => .inl (was ▸ about)
  | begins slots live free fine calm =>
    refine informed.put_same found live ?_ ?_
    · rw [calm]
      exact nofun
    · rw [fine]
      exact nofun
  | goesOn led still slots live stale fits =>
    rw [← was] at stale fits
    exact informed.put_same found live stale fits
  | drops slots live =>
    have missing := informed.stale found (by rw [was]; rfl)
    refine informed.put (fun _ _ _ holds => (holds_of_erase live holds).2) ?_ nofun
    exact fun _ holds => missing (holds_of_erase live holds).2
  | @inserts slot artifact _ slots live =>
    have answers := Request.isAnsweredBy_iff.1 (informed.fits found (by rw [was]; rfl))
    refine informed.put ?_ nofun nofun
    intro place other away old stale holds
    rcases holds_of_insert live holds with held | ⟨_, same⟩
    · exact held
    · -- Another thread that is about to call its adapter for this fingerprint would lead its slot as well.
      obtain ⟨led, leads⟩ := Station.led?_of_isStale stale
      have leadsToo : thread.station.led? = some slot := by rw [was]; rfl
      exact absurd (steady.eq_of_leads old found leads leadsToo (same.trans answers.1)) away
  | joins slots live => exact informed.put_same found live nofun nofun
  | takes filled slots live => exact informed.put_same found live nofun nofun
  | leads vacant slots live => exact informed.put_same found live nofun nofun
  | fills slots live => exact informed.put_same found live nofun nofun
  | releases slots live => exact informed.put_same found live nofun nofun
  | leaves unled slots live => exact informed.put_same found live nofun nofun
  | vacates led slots live => exact informed.put_same found live nofun nofun

end Informed

namespace Crowd

structure Sound (crowd : Crowd) : Prop where
  steady : Steady crowd.threads crowd.state.store
  informed : Informed crowd.threads crowd.state.store

/-- A move changes the workspace at most, or it is a step of a thread, or a thread is given up. -/
theorem take_cases (crowd : Crowd) (move : Move) :
    ((crowd.take move).threads = crowd.threads ∧ (crowd.take move).state.store = crowd.state.store) ∨ ∃ position thread later, crowd.threads[position]? = some thread ∧
      (crowd.take move).threads = crowd.threads.set position { thread with station := later } ∧
      thread.request.Does crowd.state.store thread.station later (crowd.take move).state.store ∧
      (move = .step position ∧ later = (thread.request.step thread.station crowd.state).1 ∨
        later = .withdrawn ∧ ∃ tidyUp, move = .drop position tidyUp) := by
  cases move with
  | step position =>
    simp only [take, step]
    split
    · exact .inl ⟨rfl, rfl⟩
    · next thread found =>
      exact .inr ⟨position, thread, _, found, rfl, thread.request.step_does thread.station crowd.state,
        .inl ⟨rfl, rfl⟩⟩
  | drop position tidyUp =>
    simp only [take, drop]
    split
    · exact .inl ⟨rfl, rfl⟩
    · next thread found =>
      split
      · next awaits =>
        exact .inr ⟨position, thread, .withdrawn, found, rfl,
          thread.request.abandon_does awaits tidyUp crowd.state, .inr ⟨rfl, tidyUp, rfl⟩⟩
      · exact .inl ⟨rfl, rfl⟩
  | elsewhere change => exact .inl ⟨rfl, rfl⟩

theorem takeAll_snoc (crowd : Crowd) (moves : List Move) (move : Move) :
    crowd.takeAll (moves ++ [move]) = (crowd.takeAll moves).take move := by
  rw [takeAll, List.foldl_append]
  rfl

theorem takeAll_append (crowd : Crowd) (moves more : List Move) :
    crowd.takeAll (moves ++ more) = (crowd.takeAll moves).takeAll more :=
  List.foldl_append ..

theorem sound_ofRequests (requests : List Request) {state : BuildState} (rest : state.store.AtRest) :
    (ofRequests requests state).Sound := by
  have begins {position : Nat} {thread : Thread}
      (found : (ofRequests requests state).threads[position]? = some thread) : thread.station = .begins := by
    rw [ofRequests, List.getElem?_map] at found
    obtain ⟨request, _, rfl⟩ := Option.map_eq_some_iff.1 found
    rfl
  refine ⟨⟨rest.lists.once, ?_, ?_, ?_, ?_, ?_⟩, ?_, ?_⟩
  · intro position slot thread found held
    rw [begins found] at held
    cases held
  · intro position slot thread found led
    rw [begins found] at led
    cases led
  · intro first second slot one other found _ led _
    rw [begins found] at led
    cases led
  · intro slot entry found isListed busy
    exact absurd ((rest.vacant found isListed).symm.trans busy) nofun
  · intro position slot thread outcome found releases
    rw [begins found] at releases
    cases releases
  · intro position thread found stale
    rw [begins found] at stale
    cases stale
  · intro position thread artifact found about
    rw [begins found] at about
    cases about

theorem Sound.take {crowd : Crowd} (sound : crowd.Sound) (move : Move) : (crowd.take move).Sound := by
  rcases crowd.take_cases move with ⟨threads, store⟩ | ⟨position, thread, later, found, threads, does, _⟩
  · constructor
    · rw [threads, store]
      exact sound.steady
    · rw [threads, store]
      exact sound.informed
  · constructor
    · rw [threads]
      exact sound.steady.does found does
    · rw [threads]
      exact sound.informed.does sound.steady found does

/-- Whatever moves come, all this holds after them. -/
theorem Sound.takeAll {crowd : Crowd} (sound : crowd.Sound) (moves : List Move) : (crowd.takeAll moves).Sound := by
  induction moves using List.reverseRecOn with
  | nil => exact sound
  | append_singleton moves move ih =>
    rw [takeAll_snoc]
    exact ih.take move

end Crowd
end ContractBuild
