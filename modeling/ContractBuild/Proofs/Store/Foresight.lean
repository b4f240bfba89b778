import ContractBuild.Proofs.Store.Independence
import ContractBuild.Proofs.Store.Outcomes

/-!
What the store says beforehand of requests that differ in name. Until a request begins nobody touches the
entry of its name, so it finds what was there before all of them: an artifact with its fingerprint answers it
at once, and anything else counts as a miss. Requests may share a fingerprint, and calls may do what they like.
-/
namespace ContractBuild

namespace Store

variable (store : Store)

def asked : Nat × Nat :=
  (store.counters.hits, store.counters.misses)

theorem asked_erase (name : String) : (store.erase name).asked = store.asked := rfl

theorem asked_join (fingerprint : Fingerprint) : (store.join fingerprint).2.asked = store.asked := by
  unfold join
  split <;> rfl

theorem asked_publish (artifact : Artifact) (state : BuildState) :
    (publish artifact state).2.store.asked = state.store.asked := by
  rcases publish_cases artifact state with ⟨files, ran⟩ | ⟨cause, files, ran⟩ <;>
    exact congrArg (fun ended => ended.2.store.asked) ran

theorem asked_invalidate (name : String) (state : BuildState) :
    (invalidate name state).2.store.asked = state.store.asked := by
  rw [store_invalidate, asked_erase]

end Store

def Phase.isBegun : Phase → Bool
  | pending => false
  | _ => true

theorem Phase.isBegun_iff {phase : Phase} : phase.isBegun = true ↔ phase ≠ .pending := by
  cases phase <;> simp [isBegun]

namespace Request

variable {request : Request} {slot : Nat} {state : BuildState}

theorem asked_conclude (outcome : Except BuildError Artifact) :
    (request.conclude slot outcome state).2.store.asked = state.store.asked := by
  cases outcome with
  | error cause => rfl
  | ok artifact =>
    unfold conclude
    dsimp only
    split
    · exact Store.asked_publish artifact state
    · rfl

theorem asked_proceed (call : Routine Workspace (Except BuildError Artifact)) :
    (request.proceed slot call state).2.store.asked = state.store.asked := by
  cases call with
  | done outcome => exact asked_conclude outcome
  | act | await => rfl

theorem asked_compile : (request.compile slot state).2.store.asked = state.store.asked :=
  asked_proceed _

/-- Whoever leads a slot without a fresh entry is no further hit. -/
theorem asked_lead (stale : state.store.fresh? request.name request.fingerprint = none) :
    (request.lead slot state).2.store.asked = state.store.asked := by
  have staleToo : (state.onStore (·.setCell slot .busy)).store.fresh? request.name request.fingerprint = none := stale
  unfold lead
  dsimp only
  rw [staleToo]
  dsimp only
  split
  · have dropped := Store.asked_invalidate request.name (state.onStore (·.setCell slot .busy))
    split
    · next ran =>
      rw [ran] at dropped
      exact asked_compile.trans dropped
    · next ran =>
      rw [ran] at dropped
      exact dropped
  · exact asked_compile

theorem asked_enter (stale : state.store.fresh? request.name request.fingerprint = none) :
    (request.enter slot state).2.store.asked = state.store.asked := by
  unfold enter
  split
  · rfl
  · rfl
  · exact asked_lead stale

theorem begin_of_fresh {artifact : Artifact}
    (fresh : state.store.fresh? request.name request.fingerprint = some artifact) :
    request.begin state = (.answered (.ok artifact), state.onStore Store.countHit) := by
  rw [begin, fresh]

theorem asked_begin_of_stale (stale : state.store.fresh? request.name request.fingerprint = none) :
    (request.begin state).2.store.asked = (state.store.counters.hits, state.store.counters.misses + 1) := by
  rw [begin, stale]
  have staleToo : (state.store.countMiss.join request.fingerprint).2.fresh? request.name request.fingerprint = none := by
    rw [Store.fresh?, Store.lookup_of_live_eq (Store.live_join _ _)]
    exact stale
  exact (asked_enter staleToo).trans (Store.asked_join _ _)

theorem Leads.ne_waiting {before after : Store} {place : Nat}
    (leading : Leads request slot before (.waiting place) after) : False := by
  generalize waits : Phase.waiting place = next at leading
  cases leading <;> cases waits

/-- Who waits behind a piece that it ran has left the entries alone. -/
theorem Enters.live_of_waiting {before after : Store} {place : Nat}
    (entering : Enters request slot before (.waiting place) after) : after.live = before.live := by
  generalize waits : Phase.waiting place = next at entering
  cases entering with
  | takes outcome filled => rfl
  | waits busy => rfl
  | leads vacant leading => exact (waits ▸ leading).ne_waiting.elim

theorem Advances.lookup_of_waiting {before after : Store} {phase : Phase} {place : Nat}
    (advancing : Advances request before phase (.waiting place) after) (name : String) :
    after.lookup name = before.lookup name ∧ ∀ slot call, phase ≠ .compiling slot call := by
  generalize waits : Phase.waiting place = next at advancing
  cases advancing with
  | hits | rests => cases waits
  | resumes leading => exact (waits ▸ leading).ne_waiting.elim
  | joins entering =>
    refine ⟨?_, nofun⟩
    rw [Store.lookup_of_live_eq (waits ▸ entering).live_of_waiting, Store.lookup_of_live_eq (Store.live_join _ _)]
    rfl
  | wakes entering => exact ⟨Store.lookup_of_live_eq (waits ▸ entering).live_of_waiting name, nofun⟩

theorem Leads.ne_pending {before after : Store} (leading : Leads request slot before .pending after) : False := by
  generalize begun : Phase.pending = next at leading
  cases leading <;> cases begun

theorem Enters.ne_pending {before after : Store} (entering : Enters request slot before .pending after) : False := by
  generalize begun : Phase.pending = next at entering
  cases entering with
  | takes | waits => cases begun
  | leads vacant leading => exact (begun ▸ leading).ne_pending

theorem Advances.ne_pending {before after : Store} {phase : Phase} (advancing : Advances request before phase .pending after) :
    False := by
  generalize begun : Phase.pending = next at advancing
  cases advancing with
  | hits | rests => cases begun
  | joins entering | wakes entering => exact (begun ▸ entering).ne_pending
  | resumes leading => exact (begun ▸ leading).ne_pending

end Request

namespace Store

def counting (store : Store) : Option Artifact → Nat × Nat
  | some _ => (store.counters.hits + 1, store.counters.misses)
  | none => (store.counters.hits, store.counters.misses + 1)

theorem counting_ne_asked (store : Store) (answer : Option Artifact) : store.counting answer ≠ store.asked := by
  cases answer <;> simp [counting, asked]

theorem fresh?_of_lookup_eq {before after : Store} {name : String} (same : after.lookup name = before.lookup name)
    (fingerprint : Fingerprint) : after.fresh? name fingerprint = before.fresh? name fingerprint := by
  rw [fresh?, fresh?, same]

end Store

theorem Request.asked_begin (request : Request) (state : BuildState) :
    (request.begin state).2.store.asked = state.store.counting (state.store.fresh? request.name request.fingerprint) := by
  cases found : state.store.fresh? request.name request.fingerprint with
  | some artifact =>
    rw [begin_of_fresh found]
    rfl
  | none => exact asked_begin_of_stale found

namespace Strand

inductive Foretold (first now : Store) (strand : Strand) : Prop
  | barred {cause : BuildError} (lacks : strand.work = .error cause)
    (phase : strand.phase = .pending ∨ strand.phase = .answered (.error cause)) (unnoted : strand.cacheHit = false)
  | queued {request : Request} (asks : strand.work = .ok request) (waits : strand.phase = .pending)
    (unnoted : strand.cacheHit = false) (entry : now.lookup request.name = first.lookup request.name)
  | hits {request : Request} {artifact : Artifact} (asks : strand.work = .ok request)
    (fresh : first.fresh? request.name request.fingerprint = some artifact)
    (answered : strand.phase = .answered (.ok artifact)) (noted : strand.cacheHit = true)
  | misses {request : Request} (asks : strand.work = .ok request)
    (stale : first.fresh? request.name request.fingerprint = none) (begun : strand.phase ≠ .pending)
    (unnoted : strand.cacheHit = false)
    (entry : ∀ slot, strand.phase = .waiting slot → now.lookup request.name = first.lookup request.name)

def isMiss (strand : Strand) : Bool :=
  strand.work.isOk && strand.phase.isBegun && !strand.cacheHit

def Counts (strand next : Strand) (before after : Store) : Prop :=
  after.asked.1 + strand.cacheHit.toNat = before.asked.1 + next.cacheHit.toNat ∧
    after.asked.2 + strand.isMiss.toNat = before.asked.2 + next.isMiss.toNat

variable {first : Store} {now : BuildState} {strand : Strand} {request : Request}

theorem counts_of_asked {next : Strand} {before after : Store} (asked : after.asked = before.asked)
    (noted : next.cacheHit = strand.cacheHit) (missed : next.isMiss = strand.isMiss) : strand.Counts next before after := by
  rw [Counts, asked, noted, missed]
  exact ⟨rfl, rfl⟩

theorem isMiss_of_error {cause : BuildError} (lacks : strand.work = .error cause) : strand.isMiss = false := by
  rw [isMiss, lacks]
  rfl

theorem isMiss_of_pending (waits : strand.phase = .pending) : strand.isMiss = false := by
  rw [isMiss, waits]
  exact Bool.and_assoc .. ▸ Bool.and_false _

theorem isMiss_of_noted (noted : strand.cacheHit = true) : strand.isMiss = false := by
  rw [isMiss, noted]
  exact Bool.and_false _

theorem isMiss_of_begun (asks : strand.work = .ok request) (begun : strand.phase ≠ .pending)
    (unnoted : strand.cacheHit = false) : strand.isMiss = true := by
  rw [isMiss, asks, unnoted, Phase.isBegun_iff.2 begun]
  rfl

/-- A request that begins finds what was there before all requests, and counts as a hit or as a miss. -/
theorem foretold_begin (asks : strand.work = .ok request) (waits : strand.phase = .pending)
    (unnoted : strand.cacheHit = false) (entry : now.store.lookup request.name = first.lookup request.name) :
    (strand.advance now).1.Foretold first (strand.advance now).2.store ∧
      strand.Counts (strand.advance now).1 now.store (strand.advance now).2.store := by
  obtain ⟨same, phase, after⟩ := advance_of_ok asks now
  have noted := Pool.cacheHit_advance asks now
  have advancing := request.advance_advances strand.phase now
  have asked := request.asked_begin now
  have entryThen := Store.fresh?_of_lookup_eq entry request.fingerprint
  rw [waits] at phase after noted advancing
  rw [← show (strand.advance now).2 = (request.begin now).2 from after] at asked
  rw [← phase, ← after] at advancing
  have begun : (strand.advance now).1.phase ≠ .pending := fun still => (still ▸ advancing).ne_pending
  cases found : first.fresh? request.name request.fingerprint with
  | some artifact =>
    have hit : (strand.advance now).1.cacheHit = true := by
      rw [noted, Request.noted, Store.isFresh, entryThen, found]
      rfl
    have answered : (strand.advance now).1.phase = .answered (.ok artifact) :=
      phase.trans (congrArg Prod.fst (Request.begin_of_fresh (entryThen.trans found)))
    refine ⟨.hits same found answered hit, ?_⟩
    rw [Counts, asked, entryThen, found, hit, unnoted, isMiss_of_pending waits, isMiss_of_noted hit]
    exact ⟨rfl, rfl⟩
  | none =>
    have missed : (strand.advance now).1.cacheHit = false := by
      rw [noted, Request.noted, Store.isFresh, entryThen, found]
      rfl
    refine ⟨.misses same found begun missed fun slot waiting => ?_, ?_⟩
    · rw [waiting] at advancing
      exact (advancing.lookup_of_waiting request.name).1.trans entry
    · rw [Counts, asked, entryThen, found, missed, unnoted, isMiss_of_pending waits, isMiss_of_begun same begun missed]
      exact ⟨rfl, rfl⟩

/-- A request that went on after a miss counts nothing more. -/
theorem foretold_missed (asks : strand.work = .ok request)
    (stale : first.fresh? request.name request.fingerprint = none) (begun : strand.phase ≠ .pending)
    (unnoted : strand.cacheHit = false)
    (entry : ∀ slot, strand.phase = .waiting slot → now.store.lookup request.name = first.lookup request.name) :
    (strand.advance now).1.Foretold first (strand.advance now).2.store ∧
      strand.Counts (strand.advance now).1 now.store (strand.advance now).2.store := by
  obtain ⟨same, phase, after⟩ := advance_of_ok asks now
  have noted := Pool.cacheHit_advance asks now
  have advancing := request.advance_advances strand.phase now
  have asked : (strand.advance now).2.store.asked = now.store.asked := by
    rw [after]
    cases was : strand.phase with
    | pending => exact absurd was begun
    | waiting slot => exact Request.asked_enter ((Store.fresh?_of_lookup_eq (entry slot was) _).trans stale)
    | compiling slot call => exact Request.asked_proceed _
    | answered => rfl
  rw [← phase, ← after] at advancing
  have begunToo : (strand.advance now).1.phase ≠ .pending := fun still => (still ▸ advancing).ne_pending
  have missed : (strand.advance now).1.cacheHit = false := by
    rw [noted]
    cases was : strand.phase with
    | pending => exact absurd was begun
    | waiting | compiling | answered => exact unnoted
  refine ⟨.misses same stale begunToo missed fun slot waiting => ?_, ?_⟩
  · rw [waiting] at advancing
    obtain ⟨kept, idle⟩ := advancing.lookup_of_waiting request.name
    cases was : strand.phase with
    | pending => exact absurd was begun
    | waiting place => exact kept.trans (entry place was)
    | compiling place call => exact absurd was (idle place call)
    | answered outcome =>
      rw [was] at advancing
      cases advancing.rests_of_answered.2
  · refine counts_of_asked asked (missed.trans unnoted.symm) ?_
    rw [isMiss_of_begun same begunToo missed, isMiss_of_begun asks begun unnoted]

theorem work_advance (strand : Strand) (state : BuildState) : (strand.advance state).1.work = strand.work := by
  cases asks : strand.work with
  | error cause =>
    rw [advance_of_error asks]
    exact asks
  | ok request => exact (advance_of_ok asks state).1

/-- A piece of a strand leads to what was foretold of it, and counts what it asks for. -/
theorem Foretold.advance (foretold : strand.Foretold first now.store) :
    (strand.advance now).1.Foretold first (strand.advance now).2.store ∧
      strand.Counts (strand.advance now).1 now.store (strand.advance now).2.store := by
  cases foretold with
  | @barred cause lacks phase unnoted =>
    rw [advance_of_error lacks]
    have lacksToo : Strand.work { strand with phase := .answered (.error cause) } = .error cause := lacks
    exact ⟨.barred lacks (.inr rfl) unnoted,
      counts_of_asked rfl rfl ((isMiss_of_error lacksToo).trans (isMiss_of_error lacks).symm)⟩
  | queued asks waits unnoted entry => exact foretold_begin asks waits unnoted entry
  | hits asks fresh answered noted =>
    have rests : strand.advance now = (strand, now) := by
      obtain ⟨work, cacheHit, phase⟩ := strand
      subst asks answered
      rfl
    rw [rests]
    exact ⟨.hits asks fresh answered noted, counts_of_asked rfl rfl rfl⟩
  | misses asks stale begun unnoted entry => exact foretold_missed asks stale begun unnoted entry

theorem Foretold.answered_of_error {now : Store} (foretold : strand.Foretold first now) {cause : BuildError}
    (lacks : strand.work = .error cause) (begun : strand.phase ≠ .pending) :
    strand.phase = .answered (.error cause) ∧ strand.cacheHit = false := by
  cases foretold with
  | @barred other lacksToo phase unnoted =>
    obtain rfl : cause = other := Except.error.inj (lacks.symm.trans lacksToo)
    exact ⟨phase.resolve_left begun, unnoted⟩
  | queued asks | hits asks | misses asks => rw [lacks] at asks; cases asks

theorem Foretold.answered_of_noted {now : Store} (foretold : strand.Foretold first now) (noted : strand.cacheHit = true) :
    ∃ artifact, strand.phase = .answered (.ok artifact) := by
  cases foretold with
  | barred _ _ unnoted | queued _ _ unnoted | misses _ _ _ unnoted => rw [noted] at unnoted; cases unnoted
  | @hits _ artifact _ _ answered => exact ⟨artifact, answered⟩

/-- A request that has begun has hit exactly if its artifact was there before all requests, and else it has
missed. -/
theorem Foretold.counts_iff {now : Store} (foretold : strand.Foretold first now) (asks : strand.work = .ok request)
    (begun : strand.phase ≠ .pending) :
    (strand.cacheHit = true ↔ first.Holds request.name request.fingerprint) ∧
      (strand.isMiss = true ↔ ¬ first.Holds request.name request.fingerprint) := by
  cases foretold with
  | barred lacks => rw [asks] at lacks; cases lacks
  | queued _ waits => exact absurd waits begun
  | @hits other artifact asksOther fresh answered noted =>
    obtain rfl : request = other := Except.ok.inj (asks.symm.trans asksOther)
    have holds : first.Holds request.name request.fingerprint := ⟨artifact, Store.fresh?_eq_some.1 fresh⟩
    simp [noted, isMiss_of_noted noted, holds]
  | @misses other asksOther stale _ unnoted =>
    obtain rfl : request = other := Except.ok.inj (asks.symm.trans asksOther)
    have lacks : ¬ first.Holds request.name request.fingerprint := by
      rw [Store.holds_iff_isFresh, Store.isFresh, stale]
      exact Bool.false_ne_true
    simp [unnoted, isMiss_of_begun asks begun unnoted, lacks]

/-- What was foretold of a strand stays so while the entry of its name is left alone. -/
theorem Foretold.of_lookup_eq {before after : Store} (foretold : strand.Foretold first before)
    (same : ∀ request, strand.work = .ok request → after.lookup request.name = before.lookup request.name) :
    strand.Foretold first after := by
  cases foretold with
  | barred lacks phase unnoted => exact .barred lacks phase unnoted
  | queued asks waits unnoted entry => exact .queued asks waits unnoted ((same _ asks).trans entry)
  | hits asks fresh answered noted => exact .hits asks fresh answered noted
  | misses asks stale begun unnoted entry =>
    exact .misses asks stale begun unnoted fun slot waits => (same _ asks).trans (entry slot waits)

end Strand

namespace Pool

structure Named (work : List (Except BuildError Request)) : Prop where
  position_eq : ∀ {first second : Nat} {one other : Request}, work[first]? = some (.ok one) →
    work[second]? = some (.ok other) → one.name = other.name → first = second

structure Foresees (first : Store) (now : Pool × BuildState) : Prop where
  strands : ∀ {position : Nat} {strand : Strand}, now.1.strands[position]? = some strand →
    strand.Foretold first now.2.store
  hits : now.2.store.asked.1 = first.asked.1 + now.1.strands.countP Strand.cacheHit
  misses : now.2.store.asked.2 = first.asked.2 + now.1.strands.countP Strand.isMiss

variable {limit : Nat} {work : List (Except BuildError Request)} {first : Store} {now : Pool × BuildState}

theorem countP_queued {p : Strand → Bool} (fails : ∀ asked, p (.queued asked) = false)
    (work : List (Except BuildError Request)) : (work.map Strand.queued).countP p = 0 := by
  rw [List.countP_eq_zero]
  intro strand member
  obtain ⟨asked, _, rfl⟩ := List.mem_map.1 member
  rw [fails]
  exact Bool.false_ne_true

theorem getElem?_work {strands : List Strand} {position : Nat} {strand : Strand}
    (found : strands[position]? = some strand) : (strands.map Strand.work)[position]? = some strand.work := by
  rw [List.getElem?_map, found]
  rfl

theorem Foresees.start (state : BuildState) (limit : Nat) (work : List (Except BuildError Request)) :
    Foresees state.store (ofWork limit work, state) := by
  refine ⟨?_, ?_, ?_⟩
  · intro position strand found
    obtain ⟨asked, _, rfl⟩ := List.mem_map.1 (List.mem_of_getElem? found)
    cases asked with
    | error cause => exact .barred rfl (.inl rfl) rfl
    | ok request => exact .queued rfl rfl rfl rfl
  · rw [ofWork, countP_queued fun _ => rfl, Nat.add_zero]
  · rw [ofWork, countP_queued fun _ => Strand.isMiss_of_pending rfl, Nat.add_zero]

/-- A piece of one request leaves the entries of all other names. -/
theorem lookup_advance_of_ne {strand : Strand} {name : String} (state : BuildState)
    (differs : ∀ request, strand.work = .ok request → name ≠ request.name) :
    (strand.advance state).2.store.lookup name = state.store.lookup name := by
  cases asks : strand.work with
  | error cause => rw [Strand.advance_of_error asks]
  | ok request =>
    rw [(Strand.advance_of_ok asks state).2.2]
    exact (request.advance_advances strand.phase state).lookup_of_ne (differs request asks)

/-- The next piece of any request keeps to what was foretold of all. -/
theorem Foresees.advance (foresees : Foresees first now) (named : Named (now.1.strands.map Strand.work))
    (position : Nat) : Foresees first (now.1.advance now.2 position) := by
  unfold Pool.advance
  cases found : now.1.strands[position]? with
  | none => exact foresees
  | some strand =>
    obtain ⟨foretold, hits, misses⟩ := (foresees.strands found).advance
    refine ⟨?_, ?_, ?_⟩
    · intro place other there
      rcases getElem?_set_cases there with ⟨_, rfl⟩ | ⟨away, old⟩
      · exact foretold
      · -- a strand elsewhere asks under another name, and the piece touches no entry but its own
        refine (foresees.strands old).of_lookup_eq fun request asks => ?_
        refine lookup_advance_of_ne now.2 fun another asksToo equal => away ?_
        exact named.position_eq (asks ▸ getElem?_work old) (asksToo ▸ getElem?_work found) equal
    · have counted := countP_set_add (p := Strand.cacheHit) found (strand.advance now.2).1
      have earlier := foresees.hits
      show (strand.advance now.2).2.store.asked.1 = first.asked.1 +
        (now.1.strands.set position (strand.advance now.2).1).countP Strand.cacheHit
      omega
    · have counted := countP_set_add (p := Strand.isMiss) found (strand.advance now.2).1
      have earlier := foresees.misses
      show (strand.advance now.2).2.store.asked.2 = first.asked.2 +
        (now.1.strands.set position (strand.advance now.2).1).countP Strand.isMiss
      omega

/-- At every moment of an order all is as it was foretold. -/
theorem foresees_follow (named : Named work) (limit : Nat) (state : BuildState) (order : List Nat) :
    Foresees state.store ((ofWork limit work).follow state order) := by
  induction order using List.reverseRecOn with
  | nil => exact .start state limit work
  | append_singleton order position ih =>
    rw [follow_snoc]
    have namedNow : Named (((ofWork limit work).follow state order).1.strands.map Strand.work) := by
      rw [works_follow]
      exact named
    exact ih.advance namedNow position

theorem work_follow_at {state : BuildState} {order : List Nat} {position : Nat} {strand : Strand}
    (found : ((ofWork limit work).follow state order).1.strands[position]? = some strand) :
    work[position]? = some strand.work := by
  rw [← works_follow limit work state order]
  exact getElem?_work found

/-! The moment at which a request turns to the store -/

def Turns (pool : Pool) (state : BuildState) (order : List Nat) (position : Nat) (request : Request)
    (entry : Option Artifact) : Prop :=
  ∃ earlier later strand, order = earlier ++ position :: later ∧
    (pool.follow state earlier).1.strands[position]? = some strand ∧ strand.work = .ok request ∧
    strand.phase = .pending ∧ (pool.follow state earlier).2.store.lookup request.name = entry ∧
    (pool.follow state (earlier ++ [position])).2.store.asked =
      (pool.follow state earlier).2.store.counting (entry.filter (·.fingerprint = request.fingerprint))

def Abstains (pool : Pool) (state : BuildState) (order : List Nat) (position : Nat) : Prop :=
  ∀ earlier later, order = earlier ++ position :: later →
    (pool.follow state (earlier ++ [position])).2 = (pool.follow state earlier).2

variable {pool : Pool} {state : BuildState} {order : List Nat} {position : Nat} {request : Request}
  {entry : Option Artifact}

theorem Turns.snoc (turns : pool.Turns state order position request entry) (last : Nat) :
    pool.Turns state (order ++ [last]) position request entry := by
  obtain ⟨earlier, later, strand, rfl, rest⟩ := turns
  exact ⟨earlier, later ++ [last], strand, by simp, rest⟩

/-- Whoever turns to the store does not abstain. -/
theorem Turns.not_abstains (turns : pool.Turns state order position request entry) :
    ¬ pool.Abstains state order position := by
  obtain ⟨earlier, later, strand, isOrder, _, _, _, _, counted⟩ := turns
  intro abstains
  rw [abstains earlier later isOrder] at counted
  exact Store.counting_ne_asked _ _ counted.symm

/-- The piece that begins a request is one at which it turns to the store. -/
theorem turns_of_pending {strand : Strand} (found : (pool.follow state order).1.strands[position]? = some strand)
    (asks : strand.work = .ok request) (waits : strand.phase = .pending) :
    pool.Turns state (order ++ [position]) position request
      ((pool.follow state order).2.store.lookup request.name) := by
  refine ⟨order, [], strand, rfl, found, asks, waits, rfl, ?_⟩
  rw [follow_snoc, Pool.advance, found]
  show (strand.advance _).2.store.asked = _
  rw [(Strand.advance_of_ok asks _).2.2, waits]
  exact request.asked_begin _

/-- A strand behind a piece of its pool is as before, or has done the piece. -/
theorem getElem?_advance {last : Nat} {strand : Strand}
    (found : (pool.advance state last).1.strands[position]? = some strand) :
    pool.strands[position]? = some strand ∨
      position = last ∧ ∃ old, pool.strands[position]? = some old ∧ strand = (old.advance state).1 := by
  unfold Pool.advance at found
  cases there : pool.strands[last]? with
  | none =>
    rw [there] at found
    exact .inl found
  | some old =>
    rw [there] at found
    rcases getElem?_set_cases found with ⟨rfl, rfl⟩ | ⟨_, same⟩
    · exact .inr ⟨rfl, old, there, rfl⟩
    · exact .inl same

/-- A request that has begun has turned to the store at some moment. -/
theorem exists_turns {strand : Strand}
    (found : ((ofWork limit work).follow state order).1.strands[position]? = some strand)
    (asks : strand.work = .ok request) (begun : strand.phase ≠ .pending) :
    ∃ entry, (ofWork limit work).Turns state order position request entry := by
  induction order using List.reverseRecOn generalizing strand with
  | nil =>
    obtain ⟨asked, _, rfl⟩ := List.mem_map.1 (List.mem_of_getElem? found)
    exact absurd rfl begun
  | append_singleton order last ih =>
    rw [follow_snoc] at found
    rcases getElem?_advance found with same | ⟨rfl, old, there, rfl⟩
    · obtain ⟨answer, turns⟩ := ih same asks begun
      exact ⟨answer, turns.snoc last⟩
    · have asksToo : old.work = .ok request := (old.work_advance _).symm.trans asks
      cases was : old.phase with
      | pending => exact ⟨_, turns_of_pending there asksToo was⟩
      | waiting | compiling | answered =>
        obtain ⟨answer, turns⟩ := ih there asksToo (by rw [was]; exact nofun)
        exact ⟨answer, turns.snoc _⟩

/-- A request that turns to the store is the one that its place was made for. -/
theorem work_of_turns (turns : (ofWork limit work).Turns state order position request entry)
    {asked : Except BuildError Request} (there : work[position]? = some asked) : asked = .ok request := by
  obtain ⟨_, _, strand, _, found, asks, _⟩ := turns
  rw [work_follow_at found, asks, Option.some.injEq] at there
  exact there.symm

/-- What a request finds is what was there before all requests. -/
theorem Turns.eq_first (named : Named work) (turns : (ofWork limit work).Turns state order position request entry) :
    entry = state.store.lookup request.name := by
  obtain ⟨earlier, _, strand, _, there, asks, waits, rfl, _⟩ := turns
  have foretold := (foresees_follow named limit state earlier).strands there
  cases foretold with
  | barred lacks => rw [asks] at lacks; cases lacks
  | @queued other asksToo _ _ entry =>
    obtain rfl : request = other := Except.ok.inj (asks.symm.trans asksToo)
    exact entry
  | hits _ _ answered => rw [waits] at answered; cases answered
  | misses _ _ begun => exact absurd waits begun

/-- A request that has begun has turned to the store, and has found what was there before all requests. -/
theorem turns_iff (named : Named work) {strand : Strand}
    (found : ((ofWork limit work).follow state order).1.strands[position]? = some strand)
    (asks : strand.work = .ok request) (begun : strand.phase ≠ .pending) :
    (ofWork limit work).Turns state order position request entry ↔ entry = state.store.lookup request.name := by
  refine ⟨fun turns => turns.eq_first named, ?_⟩
  rintro rfl
  obtain ⟨other, turns⟩ := exists_turns found asks begun
  exact turns.eq_first named ▸ turns

/-- Where there is no request, nobody turns to the store. -/
theorem abstains_of_error {cause : BuildError} (lacks : work[position]? = some (.error cause)) :
    (ofWork limit work).Abstains state order position := by
  rintro earlier later rfl
  rw [follow_snoc, Pool.advance]
  cases found : ((ofWork limit work).follow state earlier).1.strands[position]? with
  | none => rfl
  | some strand =>
    have lacksToo : strand.work = .error cause :=
      Option.some.inj ((work_follow_at found).symm.trans lacks)
    exact congrArg (fun ended : Strand × BuildState => ended.2) (Strand.advance_of_error lacksToo _)

end Pool
end ContractBuild
