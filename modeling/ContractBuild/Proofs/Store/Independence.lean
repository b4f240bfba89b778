import ContractBuild.Proofs.Store.Distinct
import ContractBuild.Proofs.Store.Flights
import ContractBuild.Proofs.Store.Serving

/-!
Requests that differ in name and fingerprint do not meet: no two share a slot or a shelf. So each is
answered as it would be on its own, in whatever order their pieces run.
-/
namespace ContractBuild
open BuildState

def Strand.Stands (assigned : Request → Except BuildError Artifact) (first now : BuildState)
    (strand : Strand) : Prop :=
  match strand.work with
  | .error cause => strand.cacheHit = false ∧
      (strand.phase = .pending ∨ strand.phase = .answered (.error cause))
  | .ok request => request.Stands (assigned request) (first.shelf request.name) strand.cacheHit strand.phase
      (now.shelf request.name)

section
variable {assigned : Request → Except BuildError Artifact} {first now : BuildState} {strand : Strand}

theorem Strand.stands_of_error {cause : BuildError} (lacks : strand.work = .error cause) :
    strand.Stands assigned first now ↔ strand.cacheHit = false ∧
      (strand.phase = .pending ∨ strand.phase = .answered (.error cause)) := by
  rw [Strand.Stands, lacks]

theorem Strand.stands_of_ok {request : Request} (asks : strand.work = .ok request) :
    strand.Stands assigned first now ↔ request.Stands (assigned request) (first.shelf request.name)
      strand.cacheHit strand.phase (now.shelf request.name) := by
  rw [Strand.Stands, asks]

end

namespace Pool

def Led (strands : List Strand) (slot : Nat) (fingerprint : Fingerprint) : Prop :=
  ∃ (position : Nat) (strand : Strand) (request : Request)
    (call : Routine Workspace (Except BuildError Artifact)), strands[position]? = some strand ∧
      strand.work = .ok request ∧ strand.phase = .compiling slot call ∧ request.fingerprint = fingerprint

def Asked (work : List (Except BuildError Request)) (name : String) : Prop :=
  ∃ request, .ok request ∈ work ∧ request.name = name

/-- What holds at every moment of requests that do not meet. -/
structure Apart (limit : Nat) (work : List (Except BuildError Request))
    (assigned : Request → Except BuildError Artifact) (first : BuildState) (now : Pool × BuildState) : Prop where
  limit : now.1.limit = limit
  works : now.1.strands.map Strand.work = work
  listed : ∀ {slot : Nat} {entry : Slot}, now.2.store.slots[slot]? = some entry → entry.listed = true →
    Led now.1.strands slot entry.fingerprint
  stands : ∀ {position : Nat} {strand : Strand}, now.1.strands[position]? = some strand →
    strand.Stands assigned first now.2
  touches : Touches (Asked work) first now.2

/-- Requests that can be told apart by the places of their files as well, and adapters that end. -/
structure Separate (work : List (Except BuildError Request))
    (assigned : Request → Except BuildError Artifact) : Prop where
  distinct : Distinct work
  whole : ∀ {request : Request}, .ok request ∈ work → '/' ∉ request.name.toList
  ends : ∀ {request : Request}, .ok request ∈ work →
    (request.adapter.call request.unit request.version).Ends (assigned request)

variable {limit : Nat} {work : List (Except BuildError Request)}
  {assigned : Request → Except BuildError Artifact} {first : BuildState} {now : Pool × BuildState}

theorem Apart.start (idle : ∀ slot ∈ first.store.slots, slot.listed = false)
    (limit : Nat) (work : List (Except BuildError Request)) :
    Apart limit work assigned first (ofWork limit work, first) := by
  refine ⟨rfl, ?_, ?_, ?_, (SameShelves.refl first).touches⟩
  · simp only [ofWork, List.map_map]
    exact List.map_id'' (fun _ => rfl) work
  · intro slot entry found isListed
    rw [idle entry (List.mem_of_getElem? found)] at isListed
    cases isListed
  · intro position strand found
    obtain ⟨asked, _, rfl⟩ := List.mem_map.1 (List.mem_of_getElem? found)
    cases asked with
    | error cause => exact ⟨rfl, .inl rfl⟩
    | ok request => exact .pending

theorem Apart.work_at (apart : Apart limit work assigned first now) {position : Nat} {strand : Strand}
    (found : now.1.strands[position]? = some strand) : work[position]? = some strand.work := by
  rw [← apart.works, List.getElem?_map, found]
  rfl

/-- Requests with one fingerprint stand in one place. -/
theorem Separate.position_eq (separate : Separate work assigned) {one other : Nat} {request asked : Request}
    (there : work[one]? = some (.ok request)) (thereToo : work[other]? = some (.ok asked))
    (same : request.fingerprint = asked.fingerprint) : one = other :=
  separate.distinct.names there thereToo
    (separate.distinct.fingerprints (List.mem_of_getElem? there) (List.mem_of_getElem? thereToo) same)

/-- A request that begins finds its slot vacant. -/
theorem Apart.vacant (apart : Apart limit work assigned first now) (separate : Separate work assigned)
    {position : Nat} {strand : Strand} {request : Request} (found : now.1.strands[position]? = some strand)
    (asks : strand.work = .ok request) (begins : strand.phase = .pending) :
    (now.2.store.countMiss.join request.fingerprint) = (now.2.store.slots.length,
      { now.2.store.countMiss with slots := now.2.store.slots ++ [⟨request.fingerprint, .vacant, true⟩] }) := by
  rcases Store.join_cases now.2.store.countMiss request.fingerprint with
    ⟨slot, entry, _, there, isListed, same⟩ | ⟨run, _⟩
  · obtain ⟨place, leader, asked, call, foundToo, asksToo, leads, sameToo⟩ := apart.listed there isListed
    have here : place = position := separate.position_eq (asksToo ▸ apart.work_at foundToo)
      (asks ▸ apart.work_at found) (sameToo.trans same)
    subst here
    rw [foundToo, Option.some.injEq] at found
    rw [← found, leads] at begins
    cases begins
  · exact run

/-- Another strand in the place of one that did not lead the slot. -/
theorem Led.set {strands : List Strand} {slot : Nat} {fingerprint : Fingerprint}
    (led : Led strands slot fingerprint) {position : Nat} {strand next : Strand}
    (found : strands[position]? = some strand) (free : ∀ call, strand.phase ≠ .compiling slot call) :
    Led (strands.set position next) slot fingerprint := by
  obtain ⟨place, leader, request, call, there, asks, leads, same⟩ := led
  have apart : position ≠ place := by
    rintro rfl
    rw [found, Option.some.injEq] at there
    exact free call (there ▸ leads)
  exact ⟨place, leader, request, call, by rwa [List.getElem?_set_ne apart], asks, leads, same⟩

theorem listed_of_fill {store : Store} {filled slot : Nat} {outcome : Except BuildError Artifact} {entry : Slot}
    (there : (store.fill filled outcome).slots[slot]? = some entry) (isListed : entry.listed = true) :
    slot ≠ filled ∧ store.slots[slot]? = some entry := by
  rw [Store.getElem?_fill] at there
  obtain ⟨old, found, rfl⟩ := Option.map_eq_some_iff.1 there
  by_cases here : filled = slot
  · rw [if_pos here] at isListed
    cases isListed
  · rw [if_neg here] at isListed ⊢
    exact ⟨Ne.symm here, found⟩

theorem listed_of_setCell {store : Store} {marked slot : Nat} {cell : Cell (Except BuildError Artifact)}
    {entry : Slot} (there : (store.setCell marked cell).slots[slot]? = some entry)
    (isListed : entry.listed = true) :
    ∃ old, store.slots[slot]? = some old ∧ old.listed = true ∧ old.fingerprint = entry.fingerprint := by
  rw [Store.getElem?_setCell] at there
  obtain ⟨old, found, rfl⟩ := Option.map_eq_some_iff.1 there
  split at isListed <;> exact ⟨old, found, isListed, by split <;> rfl⟩

/-- Slots that are listed after a piece of a request are led by somebody. -/
theorem Apart.listed_of_moves (apart : Apart limit work assigned first now) (separate : Separate work assigned)
    {position : Nat} {strand next : Strand} {request : Request} {after : Store}
    (found : now.1.strands[position]? = some strand) (asks : strand.work = .ok request)
    (same : next.work = .ok request) (unwaiting : ∀ slot, strand.phase ≠ .waiting slot)
    (moves : request.Moves now.2.store strand.phase next.phase after) {slot : Nat} {entry : Slot}
    (there : after.slots[slot]? = some entry) (isListed : entry.listed = true) :
    Led (now.1.strands.set position next) slot entry.fingerprint := by
  have inside : position < now.1.strands.length := (List.getElem?_eq_some_iff.1 found).1
  have leads : ∀ call, next.phase = .compiling slot call → request.fingerprint = entry.fingerprint →
      Led (now.1.strands.set position next) slot entry.fingerprint := fun call phase suits =>
    ⟨position, next, request, call, List.getElem?_set_self inside, same, phase, suits⟩
  generalize was : strand.phase = earlier at moves
  generalize became : next.phase = later at moves
  cases moves with
  | hits artifact slots =>
    rw [slots] at there
    exact (apart.listed there isListed).set found fun _ phase => by
      rw [was] at phase
      cases phase
  | joins looks =>
    have stays : ∀ {entry : Slot}, now.2.store.slots[slot]? = some entry → entry.listed = true →
        Led (now.1.strands.set position next) slot entry.fingerprint := fun old isListed =>
      (apart.listed old isListed).set found fun _ phase => by
        rw [was] at phase
        cases phase
    rw [apart.vacant separate found asks was] at looks
    have free : Store.cell { now.2.store.countMiss with
        slots := now.2.store.slots ++ [⟨request.fingerprint, .vacant, true⟩] } now.2.store.slots.length =
        .vacant := by
      rw [Store.cell, List.getElem?_concat_length]
      rfl
    cases looks with
    | takes outcome filled slots =>
      rw [free] at filled
      cases filled
    | waits busy slots =>
      rw [free] at busy
      cases busy
    | ends vacant outcome slots =>
      rw [slots] at there
      obtain ⟨apart, old⟩ := listed_of_fill there isListed
      rcases Store.slot_of_append old with earlier | ⟨here, _⟩
      · exact stays earlier isListed
      · exact absurd here apart
    | leads vacant call slots =>
      rw [slots] at there
      obtain ⟨entry, old, isListed, fingerprint⟩ := listed_of_setCell there isListed
      rw [← fingerprint]
      rcases Store.slot_of_append old with earlier | ⟨here, new⟩
      · exact stays earlier isListed
      · exact fingerprint ▸ leads call (here ▸ became) (by rw [← fingerprint, new])
  | wakes looks => exact absurd was (unwaiting _)
  | ends outcome slots =>
    rw [slots] at there
    obtain ⟨differs, old⟩ := listed_of_fill there isListed
    refine (apart.listed old isListed).set found fun call leads => differs ?_
    rw [was] at leads
    cases leads
    rfl
  | goesOn slots =>
    next led call rest =>
    obtain ⟨entry, old, isListed, fingerprint⟩ : ∃ old, now.2.store.slots[slot]? = some old ∧
        old.listed = true ∧ old.fingerprint = entry.fingerprint := by
      rcases slots with same | marked
      · exact ⟨entry, same ▸ there, isListed, rfl⟩
      · exact listed_of_setCell (marked ▸ there) isListed
    obtain ⟨place, leader, asked, running, foundToo, asksToo, leadsToo, suits⟩ := apart.listed old isListed
    by_cases here : position = place
    · subst here
      rw [found, Option.some.injEq] at foundToo
      subst foundToo
      rw [asks, Except.ok.injEq] at asksToo
      rw [was, Phase.compiling.injEq] at leadsToo
      subst asksToo
      exact leads rest (leadsToo.1 ▸ became) (suits.trans fingerprint)
    · rw [← fingerprint]
      exact ⟨place, leader, asked, running, by rwa [List.getElem?_set_ne here], asksToo, leadsToo, suits⟩
  | rests outcome slots =>
    rw [slots] at there
    exact (apart.listed there isListed).set found fun _ phase => by
      rw [was] at phase
      cases phase

theorem cacheHit_advance {strand : Strand} {request : Request} (asks : strand.work = .ok request)
    (state : BuildState) :
    (strand.advance state).1.cacheHit = request.noted state.store strand.cacheHit strand.phase := by
  obtain ⟨work, cacheHit, phase⟩ := strand
  subst asks
  cases phase <;> rfl

/-- A piece of one request keeps all apart. -/
theorem Apart.advance (apart : Apart limit work assigned first now) (separate : Separate work assigned)
    (housed : first.IsHoused) (position : Nat) :
    Apart limit work assigned first (now.1.advance now.2 position) := by
  unfold Pool.advance
  cases found : now.1.strands[position]? with
  | none => exact apart
  | some strand =>
    have works : ∀ next : Strand, next.work = strand.work →
        (now.1.strands.set position next).map Strand.work = work := by
      intro next same
      have there : (now.1.strands.map Strand.work)[position]? = some strand.work := by simp [found]
      rw [List.map_set, same, ← apart.works]
      obtain ⟨inside, equal⟩ := List.getElem?_eq_some_iff.1 there
      rw [← equal, List.set_getElem_self]
    have stood := apart.stands found
    show Apart limit work assigned first
      (⟨now.1.limit, now.1.strands.set position (strand.advance now.2).1⟩, (strand.advance now.2).2)
    cases asks : strand.work with
    | error cause =>
      rw [Strand.advance_of_error asks]
      rw [Strand.stands_of_error asks] at stood
      refine ⟨apart.limit, works _ rfl, ?_, ?_, apart.touches⟩
      · intro slot entry there isListed
        refine (apart.listed there isListed).set found fun call leads => ?_
        rcases stood.2 with pending | answered
        · rw [leads] at pending
          cases pending
        · rw [leads] at answered
          cases answered
      · intro place other there
        rcases getElem?_set_cases there with ⟨_, rfl⟩ | ⟨_, old⟩
        · have still : Strand.work { strand with phase := .answered (.error cause) } = .error cause := asks
          exact (Strand.stands_of_error still).2 ⟨stood.1, .inr rfl⟩
        · exact apart.stands old
    | ok request =>
      have asked : work[position]? = some (.ok request) := asks ▸ apart.work_at found
      have member : .ok request ∈ work := List.mem_of_getElem? asked
      obtain ⟨same, phase, after⟩ := Strand.advance_of_ok asks now.2
      rw [Strand.stands_of_ok asks] at stood
      have unwaiting : ∀ slot, strand.phase ≠ .waiting slot := by
        intro slot waits
        rw [waits] at stood
        exact Request.not_stands_waiting stood
      have vacant : strand.phase = .pending → (now.2.store.countMiss.join request.fingerprint).2.cell
          (now.2.store.countMiss.join request.fingerprint).1 = .vacant := by
        intro begins
        rw [apart.vacant separate found asks begins, Store.cell, List.getElem?_concat_length]
        rfl
      have moves := request.advance_moves strand.phase now.2
      obtain ⟨stands, touches⟩ := Request.advance_stands stood vacant (separate.ends member)
        (apart.touches.housed housed) (separate.whole member)
      rw [← phase, ← after] at stands moves
      rw [← after] at touches
      refine ⟨apart.limit, works _ (same.trans asks.symm), ?_, ?_, ?_⟩
      · exact fun there isListed => apart.listed_of_moves separate found asks same unwaiting moves there isListed
      · intro place other there
        rcases getElem?_set_cases there with ⟨_, rfl⟩ | ⟨away, old⟩
        · rw [Strand.stands_of_ok same, cacheHit_advance asks]
          exact stands
        · have stoodToo := apart.stands old
          cases asksToo : other.work with
          | error cause =>
            rw [Strand.stands_of_error asksToo] at stoodToo ⊢
            exact stoodToo
          | ok another =>
            have askedToo : work[place]? = some (.ok another) := asksToo ▸ apart.work_at old
            have differs : another.name ≠ request.name := fun equal =>
              away (separate.distinct.names askedToo asked equal)
            rw [Strand.stands_of_ok asksToo] at stoodToo ⊢
            rwa [touches.shelf_eq (separate.whole (List.mem_of_getElem? askedToo)) fun name isName =>
              isName ▸ ⟨separate.whole member, differs.symm⟩]
      · exact apart.touches.trans (touches.mono fun name isName => ⟨request, member, isName.symm⟩)

theorem Apart.follow {pool : Pool} {state : BuildState} (apart : Apart limit work assigned first (pool, state))
    (separate : Separate work assigned) (housed : first.IsHoused) (order : List Nat) :
    Apart limit work assigned first (pool.follow state order) := by
  induction order generalizing pool state with
  | nil => exact apart
  | cons position order ih => exact ih (apart.advance separate housed position)

def answer (assigned : Request → Except BuildError Artifact) (first : BuildState) :
    Except BuildError Request → Bool × Except BuildError Artifact
  | .error cause => (false, .error cause)
  | .ok request =>
    let served := request.serve (assigned request) (first.shelf request.name)
    (served.cacheHit, served.told)

structure Settled (work : List (Except BuildError Request))
    (assigned : Request → Except BuildError Artifact) (first last : BuildState) : Prop where
  touches : Touches (Asked work) first last
  shelves : ∀ {request : Request}, .ok request ∈ work → last.shelf request.name =
    (request.serve (assigned request) (first.shelf request.name)).shelf
  idle : ∀ slot ∈ last.store.slots, slot.listed = false

def Complete (pool : Pool) : Prop :=
  ∀ strand ∈ pool.strands, strand.phase.isAnswered = true

theorem Apart.answered (apart : Apart limit work assigned first now) (complete : now.1.Complete)
    {position : Nat} {strand : Strand} (found : now.1.strands[position]? = some strand) :
    (strand.cacheHit, strand.phase.outcome?) =
        ((answer assigned first strand.work).1, some (answer assigned first strand.work).2) ∧
      ∀ request, strand.work = .ok request → now.2.shelf request.name =
        (request.serve (assigned request) (first.shelf request.name)).shelf := by
  have stood := apart.stands found
  have isAnswered := complete strand (List.mem_of_getElem? found)
  cases asks : strand.work with
  | error cause =>
    rw [Strand.stands_of_error asks] at stood
    rcases stood.2 with pending | told
    · rw [pending] at isAnswered
      cases isAnswered
    · rw [stood.1, told]
      exact ⟨rfl, nofun⟩
  | ok request =>
    rw [Strand.stands_of_ok asks] at stood
    generalize strand.phase = phase, strand.cacheHit = cacheHit, isShelf : now.2.shelf request.name = shelf
      at stood isAnswered
    cases stood with
    | pending => cases isAnswered
    | compiling => cases isAnswered
    | answered =>
      refine ⟨rfl, ?_⟩
      rintro _ ⟨rfl⟩
      exact isShelf

theorem Apart.settled (apart : Apart limit work assigned first now) (complete : now.1.Complete) :
    Settled work assigned first now.2 := by
  refine ⟨apart.touches, ?_, ?_⟩
  · intro request member
    rw [← apart.works] at member
    obtain ⟨strand, inside, asks⟩ := List.mem_map.1 member
    obtain ⟨position, found⟩ := List.mem_iff_getElem?.1 inside
    exact (apart.answered complete found).2 request asks
  · intro entry member
    obtain ⟨slot, found⟩ := List.mem_iff_getElem?.1 member
    cases isListed : entry.listed with
    | false => rfl
    | true =>
      obtain ⟨position, strand, request, call, there, _, leads, _⟩ := apart.listed found isListed
      have isAnswered := complete strand (List.mem_of_getElem? there)
      rw [leads] at isAnswered
      cases isAnswered

/-- A run with room for a request at a time comes to its end. -/
theorem run_apart (separate : Separate work assigned) (housed : first.IsHoused)
    (idle : ∀ slot ∈ first.store.slots, slot.listed = false) (works : 0 < limit) :
    Apart limit work assigned first ((ofWork limit work).run first) ∧
      ((ofWork limit work).run first).1.Complete := by
  obtain ⟨order, ran⟩ := run_eq_follow (ofWork limit work) first
  obtain ⟨position, rests⟩ := run_rests (ofWork limit work) first
  have start : Apart limit work assigned first (ofWork limit work, first) := .start idle limit work
  have apart := start.follow separate housed order
  rw [← ran] at apart
  refine ⟨apart, fun strand member => ?_⟩
  refine answered_of_rests (by rw [apart.limit]; exact works) rests ?_ member
  intro strand member unanswered
  obtain ⟨place, found⟩ := List.mem_iff_getElem?.1 member
  have stood := apart.stands found
  unfold Strand.isReady
  cases asks : strand.work with
  | error cause =>
    rw [Strand.stands_of_error asks] at stood
    rcases stood.2 with pending | told
    · rw [pending]
      rfl
    · rw [told] at unanswered
      cases unanswered
  | ok request =>
    rw [Strand.stands_of_ok asks] at stood
    generalize strand.phase = phase, strand.cacheHit = cacheHit, ((ofWork limit work).run first).2.shelf
      request.name = shelf at stood unanswered
    cases stood with
    | pending => rfl
    | compiling stale prepared ends => exact ends.isReady _
    | answered => cases unanswered

/-! One after another -/

theorem Settled.nil (idle : ∀ slot ∈ first.store.slots, slot.listed = false) :
    Settled [] assigned first first :=
  ⟨(SameShelves.refl first).touches, nofun, idle⟩

theorem Separate.tail {asked : Except BuildError Request} (separate : Separate (asked :: work) assigned) :
    Separate work assigned := by
  refine ⟨⟨?_, ?_⟩, fun member => separate.whole (List.mem_cons_of_mem _ member),
    fun member => separate.ends (List.mem_cons_of_mem _ member)⟩
  · intro one other request another there thereToo same
    have shifted := separate.distinct.names (List.getElem?_cons_succ.trans there)
      (List.getElem?_cons_succ.trans thereToo) same
    exact Nat.succ.inj shifted
  · exact fun member memberToo => separate.distinct.fingerprints (List.mem_cons_of_mem _ member)
      (List.mem_cons_of_mem _ memberToo)

theorem Separate.head {asked : Except BuildError Request} (separate : Separate (asked :: work) assigned) :
    Separate [asked] assigned := by
  have inside : ∀ {request : Request}, .ok request ∈ [asked] → .ok request ∈ asked :: work := by
    intro request member
    rw [List.mem_singleton.1 member]
    exact List.mem_cons_self
  refine ⟨⟨?_, ?_⟩, fun member => separate.whole (inside member), fun member => separate.ends (inside member)⟩
  · intro one other request another there thereToo _
    have single : ∀ {place : Nat} {request : Request}, [asked][place]? = some (.ok request) → place = 0 := by
      intro place request found
      cases place with
      | zero => rfl
      | succ place => cases found
    rw [single there, single thereToo]
  · exact fun member memberToo => separate.distinct.fingerprints (inside member) (inside memberToo)

/-- Requests behind another have other names. -/
theorem Separate.name_ne {request another : Request} (separate : Separate (.ok request :: work) assigned)
    (member : .ok another ∈ work) : another.name ≠ request.name := by
  intro same
  obtain ⟨place, found⟩ := List.mem_iff_getElem?.1 member
  have shifted := separate.distinct.names (List.getElem?_cons_zero)
    (List.getElem?_cons_succ.trans found) same.symm
  cases shifted

/-- A request before others leaves their shelves. -/
theorem Settled.shelf_eq {asked : Except BuildError Request} {middle : BuildState}
    (separate : Separate (asked :: work) assigned) (settled : Settled [asked] assigned first middle)
    {request : Request} (member : .ok request ∈ work) :
    middle.shelf request.name = first.shelf request.name := by
  refine settled.touches.shelf_eq (separate.tail.whole member) ?_
  rintro _ ⟨other, inside, rfl⟩
  rw [List.mem_singleton] at inside
  subst inside
  exact ⟨separate.whole List.mem_cons_self, (separate.name_ne member).symm⟩

/-- Serving requests one after another settles them all. -/
theorem Settled.cons {asked : Except BuildError Request} {middle last : BuildState}
    (separate : Separate (asked :: work) assigned) (earlier : Settled [asked] assigned first middle)
    (later : Settled work assigned middle last) : Settled (asked :: work) assigned first last := by
  have within : ∀ name, Asked [asked] name → Asked (asked :: work) name := by
    rintro _ ⟨request, inside, rfl⟩
    rw [List.mem_singleton] at inside
    exact ⟨request, inside ▸ List.mem_cons_self, rfl⟩
  have behind : ∀ name, Asked work name → Asked (asked :: work) name :=
    fun _ ⟨request, inside, same⟩ => ⟨request, List.mem_cons_of_mem _ inside, same⟩
  refine ⟨(earlier.touches.mono within).trans (later.touches.mono behind), ?_, later.idle⟩
  intro request member
  rcases List.mem_cons.1 member with rfl | inside
  · rw [later.touches.shelf_eq (separate.whole member) ?_]
    · exact earlier.shelves (List.mem_singleton.2 rfl)
    · rintro _ ⟨other, there, rfl⟩
      exact ⟨separate.tail.whole there, separate.name_ne there⟩
  · rw [later.shelves inside, earlier.shelf_eq separate inside]

theorem Settled.answer_eq {asked : Except BuildError Request} {middle : BuildState}
    (separate : Separate (asked :: work) assigned) (settled : Settled [asked] assigned first middle) :
    ∀ other ∈ work, answer assigned middle other = answer assigned first other := by
  intro other member
  cases other with
  | error cause => rfl
  | ok request => simp only [answer, settled.shelf_eq separate member]

end Pool

/-- Entries and files of two states are the same, apart from slots and counters. -/
structure BuildState.SameStore (first second : BuildState) : Prop where
  entries : ∀ name, second.store.lookup name = first.store.lookup name
  files : ∀ place, second.workspace.files.root.sight place = first.workspace.files.root.sight place

/-- However the same requests are served, the store is the same behind them. -/
theorem Pool.Settled.sameStore {work : List (Except BuildError Request)}
    {assigned : Request → Except BuildError Artifact} {first one other : BuildState}
    (settled : Settled work assigned first one) (settledToo : Settled work assigned first other) :
    one.SameStore other := by
  have shelves : ∀ name, Asked work name → other.shelf name = one.shelf name := by
    rintro _ ⟨request, member, rfl⟩
    rw [settled.shelves member, settledToo.shelves member]
  constructor
  · intro name
    by_cases asked : Asked work name
    · exact congrArg Shelf.entry (shelves name asked)
    · rw [settled.touches.entries name asked, settledToo.touches.entries name asked]
  · intro place
    by_cases asked : ∃ name, Asked work name ∧ place = first.spot name
    · obtain ⟨name, isAsked, rfl⟩ := asked
      have same := congrArg Shelf.file (shelves name isAsked)
      rwa [shelf, shelf, settled.touches.spot_eq, settledToo.touches.spot_eq] at same
    · have apart : ∀ name, Asked work name → place ≠ first.spot name :=
        fun name isAsked here => asked ⟨name, isAsked, here⟩
      rw [settled.touches.files place apart, settledToo.touches.files place apart]

end ContractBuild
