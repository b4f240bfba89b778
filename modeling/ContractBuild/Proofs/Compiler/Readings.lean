import Mathlib.Data.List.Nodup
import ContractBuild.Compiler.Solc
import ContractBuild.Compiler.Vyper
import ContractBuild.Proofs.Build.Outputs
import ContractBuild.Proofs.Compiler.VersionMemory
import ContractBuild.Proofs.Json.Limits

/-!
What a compilation comes to, whatever the compiler leaves behind. A text that says nothing is a failure of
the source that was compiled, and so is an answer that reports an error, whatever contracts it holds.
-/
namespace ContractBuild
open Text CompilerAction

namespace Json

/-- No value begins with a blank. -/
theorem scanValue?_of_blank {c : Char} (blank : isBlank c = true) (fuel room : Nat) (rest : List Char) :
    scanValue? fuel room (c :: rest) = none := by
  have apart (letter : Char) (shown : isBlank letter = false) : letter ≠ c := by
    rintro rfl
    exact Bool.false_ne_true (shown.symm.trans blank)
  have unsigned : Numeral.isDigit c = false := by
    simp only [isBlank, Numeral.isDigit, Bool.or_eq_true, Bool.and_eq_true, decide_eq_true_eq, Bool.and_eq_false_iff,
      decide_eq_false_iff_not] at blank ⊢
    omega
  cases fuel with
  | zero => rw [scanValue?]
  | succ fuel =>
    unfold scanValue?
    split
    · next same => exact (apart '"' (by decide) (List.cons.inj same).1.symm).elim
    · next same => exact (apart '[' (by decide) (List.cons.inj same).1.symm).elim
    · next same => exact (apart '\x7b' (by decide) (List.cons.inj same).1.symm).elim
    · next other others _ _ _ same =>
      cases same
      rw [if_neg (by simp [unsigned, (apart '-' (by decide)).symm])]
      simp [keyword?, stripLead?, apart 'n' (by decide), apart 't' (by decide), apart 'f' (by decide)]
    · next same => cases same

/-- A blank text holds no value. -/
theorem scan?_of_blank {text : String} (blank : isBlankText text = true) : scan? text = none := by
  have inside : ∀ c ∈ skipSpace text.toList, isBlank c = true := fun c member =>
    List.all_eq_true.1 blank c ((List.dropWhile_sublist _).subset member)
  cases shown : skipSpace text.toList with
  | nil => simp [scan?, shown, scanValue?]
  | cons c rest =>
    have first := inside c (by simp [shown])
    simp [scan?, shown, scanValue?_of_blank first]

theorem nodup_lastOfEach {α : Type} (members : List (String × α)) : ((lastOfEach members).map (·.1)).Nodup := by
  induction members with
  | nil => exact List.nodup_nil
  | cons member rest ih =>
    rw [lastOfEach]
    split
    · exact ih
    · next once =>
      refine List.nodup_cons.2 ⟨fun repeated => once ?_, ih⟩
      obtain ⟨other, member, same⟩ := List.mem_map.1 repeated
      exact List.any_eq_true.2 ⟨other, (lastOfEach_sublist rest).subset member, decide_eq_true same⟩

theorem find?_key_eq_some_iff {α : Type} {entries : List (String × α)} (distinct : (entries.map (·.1)).Nodup)
    {key : String} {entry : String × α} : entries.find? (·.1 = key) = some entry ↔ entry ∈ entries ∧ entry.1 = key := by
  refine ⟨fun found => ⟨List.mem_of_find?_eq_some found, by simpa using List.find?_some found⟩, ?_⟩
  rintro ⟨member, rfl⟩
  cases found : entries.find? (·.1 = entry.1) with
  | none => exact (by simpa using List.find?_eq_none.1 found entry member : False).elim
  | some other =>
    have same : other.1 = entry.1 := by simpa using List.find?_some found
    rw [List.inj_on_of_nodup_map distinct (List.mem_of_find?_eq_some found) member same]

end Json

namespace Solc
open Json

def Answer.Offers (answer : Answer) (key name : String) (contract : Contract) : Prop :=
  ∃ contracts, (key, contracts) ∈ answer.contracts ∧
    ((name, contract) ∈ contracts ∨ ∃ other, contracts = [(other, contract)])

structure Answer.Distinct (answer : Answer) : Prop where
  sources : (answer.contracts.map (·.1)).Nodup
  contracts : ∀ entry ∈ answer.contracts, (entry.2.map (·.1)).Nodup

theorem exists_of_mapM_eq_some {α β : Type} {decode : α → Option β} {values : List α} {results : List β}
    (read : values.mapM decode = some results) : ∀ result ∈ results, ∃ value ∈ values, decode value = some result := by
  induction values generalizing results with
  | nil =>
    cases read
    exact fun _ member => absurd member List.not_mem_nil
  | cons value values ih =>
    rw [List.mapM_cons] at read
    obtain ⟨first, isFirst, read⟩ := Option.bind_eq_some_iff.1 read
    obtain ⟨rest, isRest, read⟩ := Option.bind_eq_some_iff.1 read
    cases read
    refine List.forall_mem_cons.2 ⟨⟨value, List.mem_cons_self, isFirst⟩, fun result member => ?_⟩
    obtain ⟨other, inside, isResult⟩ := ih isRest result member
    exact ⟨other, List.mem_cons_of_mem _ inside, isResult⟩

theorem entriesOf?_eq_some {α : Type} {decode : Json → Option α} {value : Json} {entries : List (String × α)}
    (read : entriesOf? decode value = some entries) :
    (entries.map (·.1)).Nodup ∧ ∀ entry ∈ entries, ∃ json, decode json = some entry.2 := by
  unfold entriesOf? at read
  split at read
  · next members =>
    obtain ⟨decoded, each, same⟩ := Option.bind_eq_some_iff.1 read
    cases same
    refine ⟨nodup_lastOfEach decoded, fun entry member => ?_⟩
    obtain ⟨⟨key, json⟩, -, isEntry⟩ := exists_of_mapM_eq_some each entry ((lastOfEach_sublist decoded).subset member)
    obtain ⟨result, isResult, rfl⟩ := Option.map_eq_some_iff.1 isEntry
    exact ⟨json, isResult⟩
  · cases read

theorem Answer.distinct_of_ofText? {text : String} {answer : Answer} (read : Answer.ofText? text = some answer) :
    answer.Distinct := by
  obtain ⟨value, -, read⟩ := Option.bind_eq_some_iff.1 read
  obtain ⟨fields, -, read⟩ := Option.bind_eq_some_iff.1 read
  split at read
  · next errors contracts =>
    obtain ⟨diagnostics, -, read⟩ := Option.bind_eq_some_iff.1 read
    obtain ⟨entries, isEntries, same⟩ := Option.bind_eq_some_iff.1 read
    cases same
    cases contracts with
    | none =>
      cases isEntries
      exact ⟨List.nodup_nil, fun _ member => absurd member List.not_mem_nil⟩
    | some contracts =>
      obtain ⟨sources, each⟩ := entriesOf?_eq_some isEntries
      refine ⟨sources, fun entry member => ?_⟩
      obtain ⟨json, isEntry⟩ := each entry member
      exact (entriesOf?_eq_some isEntry).1
  · cases read

theorem pickContract_eq_ok_iff {key name : String} {contracts : List (String × Contract)} {contract : Contract}
    (distinct : (contracts.map (·.1)).Nodup) :
    pickContract key name contracts = .ok contract ↔
      (name, contract) ∈ contracts ∨ ∃ other, contracts = [(other, contract)] := by
  have named : (name, contract) ∈ contracts ↔ contracts.find? (·.1 = name) = some (name, contract) := by
    simp [find?_key_eq_some_iff distinct]
  rw [named]
  unfold pickContract
  cases found : contracts.find? (·.1 = name) with
  | some entry =>
    obtain ⟨member, rfl⟩ := (find?_key_eq_some_iff distinct).1 found
    refine ⟨fun picked => .inl (by rw [← Except.ok.inj picked]), ?_⟩
    rintro (same | ⟨other, rfl⟩)
    · rw [Option.some.inj same]
    · rw [List.mem_singleton.1 member]
  | none =>
    match contracts with
    | [] => simp
    | [(other, only)] => simp
    | first :: second :: rest => simp

theorem Answer.contract_eq_ok_iff {answer : Answer} (distinct : answer.Distinct) {key name : String}
    {contract : Contract} : answer.contract key name = .ok contract ↔ answer.Offers key name contract := by
  rw [Answer.contract]
  split
  · next missing =>
    refine ⟨fun picked => (nomatch picked), fun ⟨contracts, member, _⟩ => ?_⟩
    simpa using List.find?_eq_none.1 missing _ member
  · next source contracts found =>
    obtain ⟨member, same⟩ := (find?_key_eq_some_iff distinct.sources).1 found
    rw [pickContract_eq_ok_iff (distinct.contracts _ member)]
    refine ⟨fun picked => ⟨contracts, same ▸ member, picked⟩, fun ⟨others, memberToo, picked⟩ => ?_⟩
    have again := (find?_key_eq_some_iff distinct.sources).2 ⟨memberToo, rfl⟩
    rw [found] at again
    cases again
    exact picked

end Solc

namespace Compiler

/-! The course of a compilation -/

section
variable (others : Workspace → Workspace → Prop) (check : CompilerAction Unit) (run : CompilerAction ProgramOutput)
  (keep : ProgramOutput → CompilerAction Unit) (judges : ProgramOutput → Except BuildError Artifact → Prop)
  (before : Workspace)

/-- How a compilation can go. It ends where the version check fails, where the compiler leaves no output, and
where its output is to be kept and cannot be; otherwise what the compiler left behind decides. -/
inductive Course : Except BuildError Artifact → Workspace → Prop
  | unchecked {cause : BuildError} {after : Workspace} (failed : ComesTo others check before (.error cause) after) :
    Course (.error cause) after
  | silent {cause : BuildError} {checked after : Workspace} (passed : ComesTo others check before (.ok ()) checked)
    (failed : ComesTo others run checked (.error cause) after) : Course (.error cause) after
  | unkept {cause : FileError} {checked ended after : Workspace} {output : ProgramOutput}
    (passed : ComesTo others check before (.ok ()) checked) (ran : ComesTo others run checked (.ok output) ended)
    (failed : ComesTo others (keep output) ended (.error (.file cause)) after) : Course (.error (.file cause)) after
  | judged {outcome : Except BuildError Artifact} {checked ended after : Workspace} {output : ProgramOutput}
    (passed : ComesTo others check before (.ok ()) checked) (ran : ComesTo others run checked (.ok output) ended)
    (kept : ComesTo others (keep output) ended (.ok ()) after) (decides : judges output outcome) :
    Course outcome after

end

variable {others : Workspace → Workspace → Prop} {machine : Machine} {options : CompilerOptions} {unit : SourceUnit}
  {version : String} {flags : List String} {invocation : Invocation}
  {read : ProgramOutput → Except (List String) CompilerOutput} {before after : Workspace}

def verdict (unit : SourceUnit) (version : String) (flags : List String) :
    Except (List String) CompilerOutput → Except BuildError Artifact
  | .ok result => .ok (Artifact.ofOutput unit version flags result)
  | .error diagnostics => .error (.compile unit.path diagnostics)

theorem cause_of_keepIfWanted {language : Language} {output : ProgramOutput} {cause : BuildError}
    (keeps : ComesTo others (keepIfWanted options unit language output) before (.error cause) after) :
    ∃ problem, cause = .file problem := by
  rw [keepIfWanted] at keeps
  cases wanted : options.scratch with
  | none =>
    rw [wanted] at keeps
    cases (comesTo_pure_iff.1 keeps).1
  | some directory =>
    rw [wanted] at keeps
    have fails : Action.Fails (fun cause => ∃ problem, cause = BuildError.file problem)
        (do let _ ← keepOutput directory unit.artifactName language output.output
            return () : BuildAction Unit) :=
      (FileAction.fails_telling BuildError.file _).bind fun _ => .pure _
    exact fails before.files cause (comesTo_onFiles_iff.1 keeps).1.symm

theorem course_of_compileUnit {outcome : Except BuildError Artifact}
    (comes : ComesTo others (compileUnit machine options unit version flags invocation read) before outcome after) :
    Course others (VersionCheck.ensure machine invocation.language invocation.program version options.limit)
      (machine.run invocation) (keepIfWanted options unit invocation.language)
      (fun output outcome => outcome = verdict unit version flags (read output)) before outcome after := by
  rcases comesTo_bind_iff.1 comes with ⟨cause, failed, rfl⟩ | ⟨_, checked, passed, comes⟩
  · exact .unchecked failed
  rcases comesTo_bind_iff.1 comes with ⟨cause, failed, rfl⟩ | ⟨output, ended, ran, comes⟩
  · exact .silent passed failed
  rcases comesTo_bind_iff.1 comes with ⟨cause, failed, rfl⟩ | ⟨_, kept, keeps, comes⟩
  · obtain ⟨problem, rfl⟩ := cause_of_keepIfWanted failed
    exact .unkept passed ran failed
  have ends : outcome = verdict unit version flags (read output) ∧ after = kept := by
    split at comes
    · next result isRead => exact isRead ▸ comesTo_pure_iff.1 comes
    · next diagnostics isRead => exact isRead ▸ comesTo_throw_iff.1 comes
  obtain ⟨decides, rfl⟩ := ends
  exact .judged passed ran keeps decides

/-- What holds of every compilation by an adapter. Once the version check has passed it comes to something: an
artifact that is the one asked for, or an error that tells more than nothing. -/
structure Accounts (others : Workspace → Workspace → Prop) (check : CompilerAction Unit) (unit : SourceUnit)
    (version : String) (flags : List String) (compile : CompilerAction Artifact) : Prop where
  goesOn : ∃ rest : CompilerAction Artifact, compile = (do check; rest) ∧ Ends others rest
  artifact : ∀ before artifact after, ComesTo others compile before (.ok artifact) after →
    artifact.name = unit.artifactName ∧ artifact.language = unit.language ∧ artifact.version = version ∧
      artifact.fingerprint = Fingerprint.ofUnit unit version flags
  diagnostics : ∀ before path diagnostics after, ComesTo others compile before (.error (.compile path diagnostics)) after →
    path = unit.path ∧ diagnostics ≠ []

theorem ends_keepIfWanted (language : Language) (output : ProgramOutput) :
    Ends others (keepIfWanted options unit language output) := by
  rw [keepIfWanted]
  split
  · exact ends_pure _
  · exact ends_onFiles _

theorem ne_compile_of_run {cause : BuildError}
    (failed : ComesTo others (machine.run invocation) before (.error cause) after) (path : Path)
    (diagnostics : List String) : cause ≠ .compile path diagnostics := by
  rintro rfl
  rcases Machine.run_cases failed with same | ⟨limit, -, same⟩ | ends
  · cases same
  · cases same
  · split at ends <;> cases ends

theorem ne_compile_of_ensure {language : Language} {program : String} {limit : Option Duration} {cause : BuildError}
    (failed : ComesTo others (VersionCheck.ensure machine language program version limit) before (.error cause) after)
    (path : Path) (diagnostics : List String) : cause ≠ .compile path diagnostics := by
  rintro rfl
  rcases VersionCheck.cause_of_ensure failed with cut | ⟨problem, same⟩
  · exact cut
  · cases same

theorem accounts_of_compileUnit (invocation : Invocation) (active : ∀ state, ∃ later, others state later)
    (tells : ∀ output diagnostics, read output = .error diagnostics → diagnostics ≠ []) :
    Accounts others (VersionCheck.ensure machine invocation.language invocation.program version options.limit) unit
      version flags (compileUnit machine options unit version flags invocation read) where
  goesOn := by
    refine ⟨_, rfl, ?_⟩
    refine (Machine.ends_run active _ _).bind fun output => (ends_keepIfWanted _ _).bind fun _ => ?_
    split
    · exact ends_pure _
    · exact ends_throw _
  artifact before artifact after comes := by
    cases course_of_compileUnit comes with
    | judged _ _ _ decides =>
      unfold verdict at decides
      split at decides
      · cases decides
        exact ⟨rfl, rfl, rfl, rfl⟩
      · cases decides
  diagnostics before path diagnostics after comes := by
    cases course_of_compileUnit comes with
    | unchecked failed => exact (ne_compile_of_ensure failed path diagnostics rfl).elim
    | silent _ failed => exact (ne_compile_of_run failed path diagnostics rfl).elim
    | judged _ _ _ decides =>
      unfold verdict at decides
      split at decides
      · cases decides
      · next isRead =>
        cases decides
        exact ⟨rfl, tells _ _ isRead⟩

theorem Course.mono {check : CompilerAction Unit} {run : CompilerAction ProgramOutput}
    {keep : ProgramOutput → CompilerAction Unit} {judges other : ProgramOutput → Except BuildError Artifact → Prop}
    {outcome : Except BuildError Artifact} (course : Course others check run keep judges before outcome after)
    (follows : ∀ output outcome, judges output outcome → other output outcome) :
    Course others check run keep other before outcome after := by
  cases course with
  | unchecked failed => exact .unchecked failed
  | silent passed failed => exact .silent passed failed
  | unkept passed ran failed => exact .unkept passed ran failed
  | judged passed ran kept decides => exact .judged passed ran kept (follows _ _ decides)

end Compiler

/-! What each compiler's output says -/

namespace Solc

/-- The outcome that the output of the compiler leads to. An answer that reports errors is refused with just
these; otherwise the contract counts that the answer offers for the source. -/
structure Judges (settings : CompilerSettings) (options : CompilerOptions) (unit : SourceUnit) (version : String)
    (output : ProgramOutput) (outcome : Except BuildError Artifact) : Prop where
  refused : ∀ answer, Answer.ofText? output.output = some answer → answer.errors ≠ [] →
    outcome = .error (.compile unit.path answer.errors)
  compiled : ∀ answer contract, Answer.ofText? output.output = some answer → answer.errors = [] →
    answer.Offers (sourceKey unit.path options.base) unit.artifactName contract →
    outcome = .ok (Artifact.ofOutput unit version (flags settings)
      ⟨contract.interface, Compiler.markedHex contract.bytecode⟩)
  missing : ∀ answer, Answer.ofText? output.output = some answer → answer.errors = [] →
    (∀ contract, ¬answer.Offers (sourceKey unit.path options.base) unit.artifactName contract) →
    ∃ problem, outcome = .error (.compile unit.path [problem])
  unread : Answer.ofText? output.output = none → ∃ diagnostics, outcome = .error (.compile unit.path diagnostics)

theorem not_blank_of_ofText? {text : String} {answer : Answer} (decodes : Answer.ofText? text = some answer) :
    isBlankText text = false := by
  by_contra blank
  obtain ⟨value, scanned, -⟩ := Option.bind_eq_some_iff.1 decodes
  rw [Json.scan?_of_blank (by simpa using blank)] at scanned
  cases scanned

section

variable {text key name : String} {answer : Answer}

theorem readOutput_of_errors (decodes : Answer.ofText? text = some answer) (errors : answer.errors ≠ []) :
    readOutput text key name = .error answer.errors := by
  simp [readOutput, decodes, errors]

theorem readOutput_of_contract {contract : Contract} (decodes : Answer.ofText? text = some answer)
    (clean : answer.errors = []) (picked : answer.contract key name = .ok contract) :
    readOutput text key name = .ok ⟨contract.interface, Compiler.markedHex contract.bytecode⟩ := by
  simp [readOutput, decodes, clean, picked]

theorem readOutput_of_problem {problem : String} (decodes : Answer.ofText? text = some answer)
    (clean : answer.errors = []) (picked : answer.contract key name = .error problem) :
    readOutput text key name = .error [problem] := by
  simp [readOutput, decodes, clean, picked]

end

theorem judges_readAnswer (settings : CompilerSettings) (options : CompilerOptions) (unit : SourceUnit)
    (version : String) (output : ProgramOutput) : Judges settings options unit version output
      (Compiler.verdict unit version (flags settings) (readAnswer settings options unit output)) := by
  have shown {answer : Answer} (decodes : Answer.ofText? output.output = some answer) :
      readAnswer settings options unit output =
        readOutput output.output (sourceKey unit.path options.base) unit.artifactName := by
    rw [readAnswer, not_blank_of_ofText? decodes, if_neg Bool.false_ne_true]
  refine ⟨fun answer decodes errors => ?_, fun answer contract decodes clean offers => ?_,
    fun answer decodes clean lacks => ?_, fun unread => ?_⟩
  · rw [shown decodes, readOutput_of_errors decodes errors, Compiler.verdict]
  · have picked := (Answer.contract_eq_ok_iff (Answer.distinct_of_ofText? decodes)).2 offers
    rw [shown decodes, readOutput_of_contract decodes clean picked, Compiler.verdict]
  · cases picked : answer.contract (sourceKey unit.path options.base) unit.artifactName with
    | ok contract =>
      exact (lacks contract ((Answer.contract_eq_ok_iff (Answer.distinct_of_ofText? decodes)).1 picked)).elim
    | error problem =>
      rw [shown decodes, readOutput_of_problem decodes clean picked]
      exact ⟨problem, rfl⟩
  · rw [readAnswer]
    split
    · exact ⟨_, rfl⟩
    · rw [readOutput, unread]
      exact ⟨_, rfl⟩

theorem readAnswer_tells {settings : CompilerSettings} {options : CompilerOptions} {unit : SourceUnit}
    {output : ProgramOutput} {diagnostics : List String}
    (failed : readAnswer settings options unit output = .error diagnostics) : diagnostics ≠ [] := by
  rw [readAnswer] at failed
  split at failed
  · cases failed
    exact Compiler.diagnostics_ne_nil _ _ _
  unfold readOutput at failed
  split at failed
  · cases failed
    exact List.cons_ne_nil _ _
  split at failed
  · split at failed
    · cases failed
    · cases failed
      exact List.cons_ne_nil _ _
  · next errors =>
    cases failed
    simpa using errors

def check (machine : Machine) (settings : CompilerSettings) (options : CompilerOptions) (version : String) :
    CompilerAction Unit :=
  VersionCheck.ensure machine .solidity (settings.commandOr usualCommand) version options.limit

theorem accounts_compile {others : Workspace → Workspace → Prop} (active : ∀ state, ∃ later, others state later)
    (machine : Machine) (settings : CompilerSettings) (options : CompilerOptions) (unit : SourceUnit)
    (version : String) :
    Compiler.Accounts others (check machine settings options version) unit version (flags settings)
      (compile machine settings options unit version) := by
  have tells : ∀ output diagnostics, readAnswer settings options unit output = .error diagnostics →
      diagnostics ≠ [] := fun _ _ => readAnswer_tells
  exact Compiler.accounts_of_compileUnit (invocation settings options unit) active tells

theorem course_of_compile {others : Workspace → Workspace → Prop} {machine : Machine} {settings : CompilerSettings}
    {options : CompilerOptions} {unit : SourceUnit} {version : String} {before after : Workspace}
    {outcome : Except BuildError Artifact}
    (comes : ComesTo others (compile machine settings options unit version) before outcome after) :
    Compiler.Course others (check machine settings options version) (machine.run (invocation settings options unit))
      (Compiler.keepIfWanted options unit .solidity) (Judges settings options unit version) before outcome after :=
  (Compiler.course_of_compileUnit comes).mono fun output _ same =>
    same ▸ judges_readAnswer settings options unit version output

end Solc

namespace Vyper

/-- The outcome that the output of the compiler leads to. Its code alone tells of a failure; otherwise its first
two lines hold the interface and the bytecode. -/
structure Judges (settings : CompilerSettings) (unit : SourceUnit) (version : String) (output : ProgramOutput)
    (outcome : Except BuildError Artifact) : Prop where
  refused : output.success = false → outcome = .error (.compile unit.path
    (Compiler.diagnostics (settings.commandOr usualCommand) output.errors output.code))
  compiled : ∀ line bytecode rest interface, output.success = true →
    Compiler.filledLines output.output = line :: bytecode :: rest → interfaceOf? line = some interface →
    outcome = .ok (Artifact.ofOutput unit version (flags settings) ⟨interface, Compiler.markedHex bytecode⟩)
  missing : output.success = true →
    (∀ line bytecode rest, Compiler.filledLines output.output = line :: bytecode :: rest → interfaceOf? line = none) →
    ∃ problem, outcome = .error (.compile unit.path [problem])

theorem judges_readAnswer (settings : CompilerSettings) (unit : SourceUnit) (version : String)
    (output : ProgramOutput) : Judges settings unit version output
      (Compiler.verdict unit version (flags settings) (readAnswer settings output)) where
  refused failed := by rw [readAnswer, failed]; rfl
  compiled line bytecode rest interface success lines isInterface := by
    rw [readAnswer, success, if_pos rfl, readOutput, lines]
    simp only [isInterface]
    rfl
  missing success lacks := by
    rw [readAnswer, success, if_pos rfl]
    unfold readOutput
    split
    · exact ⟨_, rfl⟩
    · next line rest lines =>
      split
      · exact ⟨_, rfl⟩
      · exact ⟨_, rfl⟩
      · next interface bytecode others isInterface =>
        rw [lacks line bytecode others lines] at isInterface
        cases isInterface

theorem readAnswer_tells {settings : CompilerSettings} {output : ProgramOutput} {diagnostics : List String}
    (failed : readAnswer settings output = .error diagnostics) : diagnostics ≠ [] := by
  rw [readAnswer] at failed
  split at failed
  · unfold readOutput at failed
    split at failed
    · cases failed
      exact List.cons_ne_nil _ _
    · split at failed <;> cases failed <;> exact List.cons_ne_nil _ _
  · cases failed
    exact Compiler.diagnostics_ne_nil _ _ _

def check (machine : Machine) (settings : CompilerSettings) (options : CompilerOptions) (version : String) :
    CompilerAction Unit :=
  VersionCheck.ensure machine .vyper (settings.commandOr usualCommand) version options.limit

theorem accounts_compile {others : Workspace → Workspace → Prop} (active : ∀ state, ∃ later, others state later)
    (machine : Machine) (settings : CompilerSettings) (options : CompilerOptions) (unit : SourceUnit)
    (version : String) :
    Compiler.Accounts others (check machine settings options version) unit version (flags settings)
      (compile machine settings options unit version) := by
  have tells : ∀ output diagnostics, readAnswer settings output = .error diagnostics → diagnostics ≠ [] :=
    fun _ _ => readAnswer_tells
  exact Compiler.accounts_of_compileUnit (invocation settings options unit version) active tells

theorem course_of_compile {others : Workspace → Workspace → Prop} {machine : Machine} {settings : CompilerSettings}
    {options : CompilerOptions} {unit : SourceUnit} {version : String} {before after : Workspace}
    {outcome : Except BuildError Artifact}
    (comes : ComesTo others (compile machine settings options unit version) before outcome after) :
    Compiler.Course others (check machine settings options version)
      (machine.run (invocation settings options unit version))
      (Compiler.keepIfWanted options unit .vyper) (Judges settings unit version) before outcome after :=
  (Compiler.course_of_compileUnit comes).mono fun output _ same =>
    same ▸ judges_readAnswer settings unit version output

end Vyper

namespace Compiler

variable {others : Workspace → Workspace → Prop}

/-- Once the version check has passed, a compilation comes to an artifact that is the one asked for or to an
error, and an error of the source has its path and says something. The compiler may leave no output, and output
that is to be kept may not be; otherwise the output decides as its compiler's rules say. -/
theorem compilations_tell (active : ∀ state, ∃ later, others state later) (machine : Machine)
    (settings : CompilerSettings) (options : CompilerOptions) (unit : SourceUnit) (version : String) :
    (Accounts others (Solc.check machine settings options version) unit version (Solc.flags settings)
        (Solc.compile machine settings options unit version) ∧
      ∀ before outcome after, ComesTo others (Solc.compile machine settings options unit version) before outcome after →
        Course others (Solc.check machine settings options version) (machine.run (Solc.invocation settings options unit))
          (keepIfWanted options unit .solidity) (Solc.Judges settings options unit version) before outcome after) ∧
    (Accounts others (Vyper.check machine settings options version) unit version (Vyper.flags settings)
        (Vyper.compile machine settings options unit version) ∧
      ∀ before outcome after, ComesTo others (Vyper.compile machine settings options unit version) before outcome after →
        Course others (Vyper.check machine settings options version)
          (machine.run (Vyper.invocation settings options unit version))
          (keepIfWanted options unit .vyper) (Vyper.Judges settings unit version) before outcome after) ∧
    ∀ language output before cause after,
      ComesTo others (keepIfWanted options unit language output) before (.error cause) after →
        options.scratch ≠ none ∧ ∃ problem, cause = .file problem := by
  refine ⟨⟨Solc.accounts_compile active machine settings options unit version,
      fun before outcome after comes => Solc.course_of_compile comes⟩,
    ⟨Vyper.accounts_compile active machine settings options unit version,
      fun before outcome after comes => Vyper.course_of_compile comes⟩,
    fun language output before cause after failed => ⟨fun unwanted => ?_, cause_of_keepIfWanted failed⟩⟩
  rw [keepIfWanted, unwanted] at failed
  cases (comesTo_pure_iff.1 failed).1

def failing : Machine where
  launch invocation files :=
    (.started ⟨0⟩ (if invocation.arguments = ["--version"] then ⟨some 0, "0.3.1".toUTF8, "".toUTF8⟩
      else ⟨some 1, "".toUTF8, "broken".toUTF8⟩), files)

def plainSettings : CompilerSettings := ⟨"0.3.1", none, true, 200, none, []⟩

def emptySource : SourceUnit := ⟨⟨"contracts/A.vy"⟩, .vyper, ""⟩

/-- What this compiler writes is the error of the source. -/
theorem compilations_tell_broken :
    ∃ path diagnostics after, ComesTo anything
        (Vyper.compile failing plainSettings ⟨⟨"contracts"⟩, none, none⟩ emptySource "0.3.1")
        (.ofFiles (.within [])) (.error (.compile path diagnostics)) after ∧
      path = emptySource.path ∧ diagnostics ≠ [] := by
  have ends : ((Vyper.compile failing plainSettings ⟨⟨"contracts"⟩, none, none⟩ emptySource "0.3.1").run.finish
      (.ofFiles (.within []))).1.any (· matches .error (.compile ..)) = true := by decide +kernel
  obtain ⟨outcome, ended, fails⟩ := (Option.any_eq_true ..).1 ends
  have comes := comesTo_of_finish anything_idle ended
  have accounts := (compilations_tell anything_active failing plainSettings ⟨⟨"contracts"⟩, none, none⟩ emptySource
    "0.3.1").2.1.1
  match outcome, fails with
  | .error (.compile _ _), _ => exact ⟨_, _, _, comes, accounts.diagnostics _ _ _ _ comes⟩

def occupied : Workspace :=
  (Workspace.ofFiles ⟨.directory [("scratch", .file "".toUTF8)], [], none⟩).setVersion .vyper (.filled (.ok "0.3.1"))

/-- Where the output is to be kept and cannot be, a compiler that fails is not what the outcome is about. -/
theorem exists_unkept_failure :
    ¬∀ machine settings options unit version before checked output ended outcome after,
      ComesTo anything (Vyper.check machine settings options version) before (.ok ()) checked →
      ComesTo anything (machine.run (Vyper.invocation settings options unit version)) checked (.ok output) ended →
      output.success = false →
      ComesTo anything (Vyper.compile machine settings options unit version) before outcome after →
      ∃ path diagnostics, outcome = .error (.compile path diagnostics) := by
  intro claimed
  have passes : ComesTo anything (Vyper.check failing plainSettings ⟨⟨"contracts"⟩, some ⟨"scratch"⟩, none⟩ "0.3.1")
      occupied (.ok ()) occupied :=
    (VersionCheck.ensure_of_filled rfl).2 ⟨rfl, rfl⟩
  have runs : ((failing.run (Vyper.invocation plainSettings ⟨⟨"contracts"⟩, some ⟨"scratch"⟩, none⟩ emptySource
      "0.3.1")).run.finish occupied).1 = some (.ok ⟨some 1, "", "broken"⟩) := by decide +kernel
  have ends : ((Vyper.compile failing plainSettings ⟨⟨"contracts"⟩, some ⟨"scratch"⟩, none⟩ emptySource
      "0.3.1").run.finish occupied).1 = some (.error (.file .alreadyExists)) := rfl
  have fails : (⟨some 1, "", "broken"⟩ : ProgramOutput).success = false := rfl
  obtain ⟨path, diagnostics, same⟩ := claimed _ _ _ _ _ _ _ _ _ _ _ passes (comesTo_of_finish anything_idle runs) fails
    (comesTo_of_finish anything_idle ends)
  cases same

end Compiler
end ContractBuild
