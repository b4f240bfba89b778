import Mathlib.Data.List.Basic
import ContractBuild.Compiler.Version
import ContractBuild.Proofs.Compiler.Courses

/-!
What a version check remembers. A check that was cut short leaves nothing behind. The first one that was not
decides for good, whatever it found: no later check asks the compiler again, and each is judged by what was
found then.
-/
namespace ContractBuild.VersionCheck
open CompilerAction

variable {others : Workspace → Workspace → Prop} {machine : Machine} {language : Language}
  {program requested : String} {limit : Option Duration} {before after : Workspace}

@[simp] theorem versions_setVersion (workspace : Workspace) (language : Language) (cell : Cell VersionFinding) :
    (workspace.setVersion language cell).versions language = cell := by
  simp [Workspace.setVersion]

def IsCut : BuildError → Prop
  | .cancelled | .timeout .. => True
  | _ => False

theorem finding_eq_error_iff {ending : Except BuildError String} {cause : BuildError} :
    finding program ending = .error cause ↔ ending = .error cause ∧ IsCut cause := by
  cases ending with
  | ok answer =>
    rw [finding]
    split <;> simp
  | error other =>
    constructor
    · intro found
      cases other <;> cases found <;> exact ⟨rfl, trivial⟩
    · rintro ⟨same, cut⟩
      cases same
      cases cause <;> first | rfl | exact cut.elim

theorem judge_eq_ok_iff {found : VersionFinding} :
    judge language program requested found = .ok () ↔ found = .ok requested := by
  cases found with
  | ok version =>
    rw [judge]
    split
    · next same => simp [same]
    · next different => simp [different]
  | error problem => simp [judge]

theorem judge_eq_error {found : VersionFinding} {cause : BuildError}
    (judged : judge language program requested found = .error cause) :
    ∃ problem, cause = .toolchain language problem := by
  cases found with
  | ok version =>
    rw [judge] at judged
    split at judged
    · cases judged
    · exact ⟨_, (Except.error.inj judged).symm⟩
  | error problem => exact ⟨_, (Except.error.inj judged).symm⟩

/-! One check -/

/-- The compiler is asked, and what it says is kept if the question was not cut short. -/
theorem lead_cases {outcome : Except BuildError VersionFinding}
    (comes : ComesTo others (lead machine language program limit) before outcome after) :
    ∃ ending between, ComesTo others (askVersion machine language program limit)
        (before.setVersion language .busy) ending between ∧
      match finding program ending with
      | .ok found => outcome = .ok found ∧ after = between.setVersion language (.filled found)
      | .error cause => outcome = .error cause ∧ after = between.setVersion language .vacant := by
  have comes := comesTo_perform_bind_iff.1 comes
  obtain ⟨ending, between, asks, comes⟩ := comesTo_attempt_bind_iff.1 comes
  refine ⟨ending, between, asks, ?_⟩
  split <;> next kind =>
    rw [kind] at comes
    exact Routine.reaches_done_iff.1 (comesTo_perform_bind_iff.1 comes)

theorem remembered_of_filled {found : VersionFinding} (filled : before.versions language = .filled found)
    {outcome : Except BuildError VersionFinding} :
    ComesTo others (remembered machine language program limit) before outcome after ↔
      outcome = .ok found ∧ after = before := by
  refine comesTo_perform_bind_iff.trans ?_
  simp only [cellOf, filled]
  exact comesTo_pure_iff

theorem remembered_of_vacant (vacant : before.versions language = .vacant)
    {outcome : Except BuildError VersionFinding} :
    ComesTo others (remembered machine language program limit) before outcome after ↔
      ComesTo others (lead machine language program limit) before outcome after := by
  refine comesTo_perform_bind_iff.trans ?_
  simp only [cellOf, vacant]

/-- Whatever was remembered, an error of a check tells that it was cut short. -/
theorem isCut_of_remembered {cause : BuildError}
    (comes : ComesTo others (remembered machine language program limit) before (.error cause) after) :
    IsCut cause := by
  have leads {before : Workspace}
      (comes : ComesTo others (lead machine language program limit) before (.error cause) after) : IsCut cause := by
    obtain ⟨ending, between, -, ends⟩ := lead_cases comes
    split at ends
    · cases ends.1
    · next kind =>
      cases ends.1
      exact (finding_eq_error_iff.1 kind).2
  have comes := comesTo_perform_bind_iff.1 comes
  split at comes
  · cases (comesTo_pure_iff.1 comes).1
  · exact leads comes
  · rcases comesTo_bind_iff.1 comes with ⟨other, waits, -⟩ | ⟨_, between, waits, comes⟩
    · cases (comesTo_await_iff.1 waits).1
    have comes := comesTo_perform_bind_iff.1 comes
    split at comes
    · cases (comesTo_pure_iff.1 comes).1
    · exact leads comes

theorem ensure_cases {outcome : Except BuildError Unit}
    (comes : ComesTo others (ensure machine language program requested limit) before outcome after) :
    (∃ cause, ComesTo others (remembered machine language program limit) before (.error cause) after ∧
      outcome = .error cause) ∨
    ∃ found, ComesTo others (remembered machine language program limit) before (.ok found) after ∧
      outcome = judge language program requested found := by
  rcases comesTo_bind_iff.1 comes with failed | ⟨found, between, finds, judges⟩
  · exact .inl failed
  · obtain ⟨same, rfl⟩ := comesTo_lift_iff.1 judges
    exact .inr ⟨found, finds, same⟩

/-- A check fails because it was cut short, or because of what is installed. -/
theorem cause_of_ensure {cause : BuildError}
    (comes : ComesTo others (ensure machine language program requested limit) before (.error cause) after) :
    IsCut cause ∨ ∃ problem, cause = .toolchain language problem := by
  rcases ensure_cases comes with ⟨other, cut, same⟩ | ⟨found, -, judged⟩
  · cases same
    exact .inl (isCut_of_remembered cut)
  · exact .inr (judge_eq_error judged.symm)

theorem ensure_of_filled {found : VersionFinding} (filled : before.versions language = .filled found)
    {outcome : Except BuildError Unit} :
    ComesTo others (ensure machine language program requested limit) before outcome after ↔
      outcome = judge language program requested found ∧ after = before := by
  constructor
  · intro comes
    rcases ensure_cases comes with ⟨cause, finds, -⟩ | ⟨other, finds, judged⟩
    · cases ((remembered_of_filled filled).1 finds).1
    · obtain ⟨same, still⟩ := (remembered_of_filled filled).1 finds
      cases same
      exact ⟨judged, still⟩
  · rintro ⟨judged, rfl⟩
    exact comesTo_bind_iff.2 (.inr ⟨found, _, (remembered_of_filled filled).2 ⟨rfl, rfl⟩,
      comesTo_lift_iff.2 ⟨judged, rfl⟩⟩)

theorem ensure_of_vacant (vacant : before.versions language = .vacant) {outcome : Except BuildError Unit}
    (comes : ComesTo others (ensure machine language program requested limit) before outcome after) :
    ∃ ending between, ComesTo others (askVersion machine language program limit)
        (before.setVersion language .busy) ending between ∧
      match finding program ending with
      | .ok found => outcome = judge language program requested found ∧ after.versions language = .filled found
      | .error cause => outcome = .error cause ∧ after.versions language = .vacant := by
  rcases ensure_cases comes with ⟨cause, finds, rfl⟩ | ⟨found, finds, rfl⟩
  · obtain ⟨ending, between, asks, ends⟩ := lead_cases ((remembered_of_vacant vacant).1 finds)
    refine ⟨ending, between, asks, ?_⟩
    split at ends
    · cases ends.1
    · obtain ⟨same, rfl⟩ := ends
      exact ⟨congrArg _ (Except.error.inj same), versions_setVersion _ _ _⟩
  · obtain ⟨ending, between, asks, ends⟩ := lead_cases ((remembered_of_vacant vacant).1 finds)
    refine ⟨ending, between, asks, ?_⟩
    split at ends
    · obtain ⟨same, rfl⟩ := ends
      exact ⟨congrArg _ (Except.ok.inj same), versions_setVersion _ _ _⟩
    · cases ends.1

/-- A check that finds nobody else asking comes to an end. -/
theorem exists_comesTo_ensure (active : ∀ state, ∃ later, others state later)
    (free : before.versions language ≠ .busy) :
    ∃ outcome after, ComesTo others (ensure machine language program requested limit) before outcome after := by
  have asks : Ends others (askVersion machine language program limit) := by
    refine (Machine.ends_run active _ _).bind fun answer => ?_
    split
    · exact ends_pure _
    · exact ends_throw _
  have leads : Ends others (lead machine language program limit) := by
    refine (ends_perform _).bind fun _ => (ends_attempt asks).bind fun ending => ?_
    split
    · exact (ends_perform _).bind fun _ => ends_pure _
    · exact (ends_perform _).bind fun _ => ends_throw _
  cases cell : before.versions language with
  | filled found => exact ⟨_, _, (ensure_of_filled cell).2 ⟨rfl, rfl⟩⟩
  | busy => exact (free cell).elim
  | vacant =>
    obtain ⟨cause | found, between, finds⟩ := leads before
    · exact ⟨_, _, comesTo_bind_iff.2 (.inl ⟨cause, (remembered_of_vacant cell).2 finds, rfl⟩)⟩
    · exact ⟨_, _, comesTo_bind_iff.2 (.inr ⟨found, between, (remembered_of_vacant cell).2 finds,
        comesTo_lift_iff.2 ⟨rfl, rfl⟩⟩)⟩

/-! Checks one after the other -/

/-- One check: the machine it was made on, what it asked for, and what came of it. -/
structure Call where
  machine : Machine
  requested : String
  limit : Option Duration
  before : Workspace
  outcome : Except BuildError Unit
  after : Workspace

/-- Checks of one compiler, each of which finds what the one before it left in memory. Anything else may be
changed between two of them, the request to cancel included. -/
inductive History (others : Workspace → Workspace → Prop) (language : Language) (program : String) :
    Cell VersionFinding → List Call → Cell VersionFinding → Prop
  | nil (cell : Cell VersionFinding) : History others language program cell [] cell
  | cons {call : Call} {calls : List Call} {cell last : Cell VersionFinding}
    (carried : call.before.versions language = cell)
    (comes : ComesTo others (ensure call.machine language program call.requested call.limit) call.before
      call.outcome call.after)
    (rest : History others language program (call.after.versions language) calls last) :
    History others language program cell (call :: calls) last

namespace Call

/-- The compiler was asked, but the question was cut short: that is the outcome, and nothing is remembered. -/
structure IsLost (others : Workspace → Workspace → Prop) (language : Language) (program : String) (call : Call) :
    Prop where
  asks : ∃ cause between, ComesTo others (askVersion call.machine language program call.limit)
    (call.before.setVersion language .busy) (.error cause) between ∧ IsCut cause ∧ call.outcome = .error cause
  forgets : call.after.versions language = .vacant

/-- The compiler was asked, and what was found is remembered, were it only what is wrong. -/
structure Finds (others : Workspace → Workspace → Prop) (language : Language) (program : String)
    (found : VersionFinding) (call : Call) : Prop where
  asks : ∃ ending between, ComesTo others (askVersion call.machine language program call.limit)
    (call.before.setVersion language .busy) ending between ∧ (∀ cause, ending = .error cause → ¬IsCut cause) ∧
      finding program ending = .ok found
  keeps : call.after.versions language = .filled found

def IsJudgedBy (language : Language) (found : VersionFinding) (call : Call) : Prop :=
  (call.outcome = .ok () ↔ found = .ok call.requested) ∧
    ∀ cause, call.outcome = .error cause → ∃ problem, cause = .toolchain language problem

end Call

theorem isJudgedBy_of_eq {found : VersionFinding} {call : Call}
    (judged : call.outcome = judge language program call.requested found) : call.IsJudgedBy language found :=
  ⟨by rw [judged, judge_eq_ok_iff], fun _ failed => judge_eq_error (judged.symm.trans failed)⟩

/-- What one check leaves in memory where nothing was. -/
theorem call_of_vacant {call : Call} (vacant : call.before.versions language = .vacant)
    (comes : ComesTo others (ensure call.machine language program call.requested call.limit) call.before
      call.outcome call.after) :
    call.IsLost others language program ∨
      ∃ found, call.Finds others language program found ∧ call.IsJudgedBy language found := by
  obtain ⟨ending, between, asks, ends⟩ := ensure_of_vacant vacant comes
  split at ends
  · next found kind =>
    refine .inr ⟨found, ⟨⟨ending, between, asks, fun cause failed cut => ?_, kind⟩, ends.2⟩, isJudgedBy_of_eq ends.1⟩
    rw [finding_eq_error_iff.2 ⟨failed, cut⟩] at kind
    cases kind
  · next cause kind =>
    obtain ⟨rfl, cut⟩ := finding_eq_error_iff.1 kind
    exact .inl ⟨⟨cause, between, asks, cut, ends.1⟩, ends.2⟩

/-- Once something is remembered, no check does anything but look at it. -/
theorem history_of_filled {found : VersionFinding} {first last : Cell VersionFinding} {calls : List Call}
    (history : History others language program first calls last) (filled : first = .filled found) :
    last = .filled found ∧ ∀ call ∈ calls, call.after = call.before ∧ call.IsJudgedBy language found := by
  induction history with
  | nil => exact ⟨filled, fun _ member => absurd member List.not_mem_nil⟩
  | cons carried comes rest ih =>
    obtain ⟨judged, still⟩ := (ensure_of_filled (carried.trans filled)).1 comes
    obtain ⟨stays, later⟩ := ih (still ▸ carried.trans filled)
    exact ⟨stays, List.forall_mem_cons.2 ⟨⟨still, isJudgedBy_of_eq judged⟩, later⟩⟩

theorem ne_busy_of_history {first last : Cell VersionFinding} {calls : List Call}
    (history : History others language program first calls last) (free : first ≠ .busy) : last ≠ .busy := by
  induction history with
  | nil => exact free
  | @cons call calls first last carried comes rest ih =>
    refine ih ?_
    rw [← carried] at free
    cases cell : call.before.versions language with
    | busy => exact (free cell).elim
    | filled found => simp [((ensure_of_filled cell).1 comes).2, cell]
    | vacant =>
      rcases call_of_vacant cell comes with lost | ⟨found, finds, -⟩
      · simp [lost.forgets]
      · simp [finds.keeps]

/-- Checks that begin with nothing in memory are cut short until the first one that is not. What that one finds
is remembered for good: on no machine does a later check ask the compiler or change anything, and each is judged
by that finding. Any further check comes to an end as well. -/
theorem history_remembers {calls : List Call} {last : Cell VersionFinding}
    (history : History others language program .vacant calls last) :
    ((∀ call ∈ calls, call.IsLost others language program) ∧ last = .vacant ∨
      ∃ earlier call later found, calls = earlier ++ call :: later ∧
        (∀ lost ∈ earlier, lost.IsLost others language program) ∧
        call.Finds others language program found ∧ call.IsJudgedBy language found ∧
        (∀ other ∈ later, other.after = other.before ∧ other.IsJudgedBy language found) ∧
        last = .filled found) ∧
    ∀ machine requested limit (before : Workspace), before.versions language = last →
      (∀ state, ∃ later, others state later) →
      ∃ outcome after, ComesTo others (ensure machine language program requested limit) before outcome after := by
  refine ⟨?_, fun machine requested limit before carried active => exists_comesTo_ensure active ?_⟩
  · generalize vacant : (Cell.vacant : Cell VersionFinding) = first at history
    induction history with
    | nil => exact .inl ⟨fun _ member => absurd member List.not_mem_nil, rfl⟩
    | @cons call calls first last carried comes rest ih =>
      rcases call_of_vacant (carried.trans vacant.symm) comes with lost | ⟨found, finds, judged⟩
      · rcases ih lost.forgets.symm with ⟨all, empty⟩ | ⟨earlier, decisive, later, found, rfl, lostToo, decides⟩
        · exact .inl ⟨List.forall_mem_cons.2 ⟨lost, all⟩, by rw [empty, lost.forgets, ← vacant]⟩
        · exact .inr ⟨call :: earlier, decisive, later, found, rfl, List.forall_mem_cons.2 ⟨lost, lostToo⟩, decides⟩
      · obtain ⟨filled, later⟩ := history_of_filled rest finds.keeps
        exact .inr ⟨[], call, calls, found, rfl, fun _ member => absurd member List.not_mem_nil, finds, judged, later,
          filled⟩
  · exact carried ▸ ne_busy_of_history history (by simp)

def Call.alone (machine : Machine) (language : Language) (program requested : String) (before : Workspace) : Call :=
  let ran := (ensure machine language program requested none).run.finish before
  ⟨machine, requested, none, before, ran.1.getD (.error .json), ran.2⟩

/-- After a check that was cancelled the next one asks, and the one after that is held to the answer. -/
theorem history_remembers_installed :
    let installed : Machine := ⟨fun _ files => (.started ⟨0⟩ ⟨some 0, "0.3.1".toUTF8, "".toUTF8⟩, files)⟩
    let workspace := Workspace.ofFiles (.within [])
    let cancelled := Call.alone installed .vyper "vyper" "0.3.1" { workspace with cancellation := .raised }
    let asked := Call.alone installed .vyper "vyper" "0.3.1" { cancelled.after with cancellation := .quiet }
    let late := Call.alone (.bare "gone") .vyper "vyper" "0.3.2" asked.after
    [cancelled, asked, late].map (·.outcome) = [.error .cancelled, .ok (),
      .error (.toolchain .vyper "vyper is version 0.3.1, but 0.3.2 is required")] ∧
    ∃ call ∈ [cancelled, asked, late], ∃ found,
      call.Finds anything .vyper "vyper" found ∧ late.after.versions .vyper = .filled found := by
  intro installed workspace cancelled asked late
  have outcomes : [cancelled, asked, late].map (·.outcome) = [.error .cancelled, .ok (),
      .error (.toolchain .vyper "vyper is version 0.3.1, but 0.3.2 is required")] := by decide +kernel
  have comes (machine : Machine) (requested : String) (before : Workspace)
      (ends : ((ensure machine .vyper "vyper" requested none).run.finish before).1.isSome) :
      ComesTo anything (ensure machine .vyper "vyper" requested none) before
        (Call.alone machine .vyper "vyper" requested before).outcome
        (Call.alone machine .vyper "vyper" requested before).after := by
    obtain ⟨outcome, ended⟩ := Option.isSome_iff_exists.1 ends
    refine comesTo_of_finish anything_idle ?_
    rw [ended, Call.alone, ended]
    rfl
  have history : History anything .vyper "vyper" .vacant [cancelled, asked, late]
      (late.after.versions .vyper) :=
    .cons rfl (comes _ _ _ (by decide +kernel)) (.cons rfl (comes _ _ _ (by decide +kernel))
      (.cons rfl (comes _ _ _ (by decide +kernel)) (.nil _)))
  refine ⟨outcomes, ?_⟩
  rcases (history_remembers history).1 with ⟨lost, -⟩ | ⟨earlier, call, later, found, same, -, finds, -, -, kept⟩
  · obtain ⟨cause, between, -, -, failed⟩ := (lost asked (by simp)).asks
    simp only [List.map_cons, List.cons.injEq, failed] at outcomes
    cases outcomes.2.1
  · exact ⟨call, by simp [same], found, finds, kept⟩

end ContractBuild.VersionCheck
