import ContractBuild.Compiler.Solc
import ContractBuild.Compiler.Vyper
import ContractBuild.Proofs.Binding.StemNames
import ContractBuild.Proofs.Json.Interfaces

/-!
What the flags of an adapter tell about what it sends to its compiler. Flags are written from the settings,
and so are the arguments and the document: where the flags of two settings agree, what they send can differ
only by an EVM version that the one leaves out and the other spells as the word for a missing one.
-/
namespace ContractBuild
open Text

def CompilerSettings.Confused (first second : CompilerSettings) : Prop :=
  first.evmVersion = none ∧ second.evmVersion = some "default" ∨
    first.evmVersion = some "default" ∧ second.evmVersion = none

open CompilerSettings (Confused)

theorem CompilerSettings.commandOr_congr {first second : CompilerSettings} (command : first.command = second.command)
    (usual : String) : first.commandOr usual = second.commandOr usual := by
  rw [commandOr, commandOr, command]

namespace Json

/-- Two values that are written alike are read back as one. -/
theorem clip_eq_of_compact_eq {value other : Json} (data : isData value = true) (dataToo : isData other = true)
    (same : value.compact = other.compact) : clip depthLimit value = clip depthLimit other := by
  have read := scan?_write 0 data "" rfl
  have readToo := scan?_write 0 dataToo "" rfl
  rw [show value.write 0 = other.write 0 from same, readToo] at read
  exact (Option.some.inj read).symm

end Json

namespace Compiler

theorem flagText_eq_iff {name : String} {value other : Bool} :
    flagText name value = flagText name other ↔ value = other := by
  rw [flagText, flagText, String.append_right_inj]
  cases value <;> cases other <;> decide

theorem evmFlag_eq_iff {first second : CompilerSettings} :
    evmFlag first = evmFlag second ↔ first.evmVersion = second.evmVersion ∨ Confused first second := by
  rw [evmFlag, evmFlag, String.append_right_inj, Confused]
  cases first.evmVersion <;> cases second.evmVersion <;> simp [eq_comm]

end Compiler

namespace Solc

theorem flags_eq_iff {first second : CompilerSettings} :
    flags first = flags second ↔
      first.optimize = second.optimize ∧ first.optimizerRuns = second.optimizerRuns ∧
        (first.evmVersion = second.evmVersion ∨ Confused first second) ∧
        first.extraArgs = second.extraArgs := by
  simp only [flags, List.cons_append, List.nil_append, List.cons.injEq, Compiler.flagText_eq_iff,
    String.append_right_inj, Name.render_inj, Compiler.evmFlag_eq_iff]

theorem request_congr {first second : CompilerSettings} (optimize : first.optimize = second.optimize)
    (runs : first.optimizerRuns = second.optimizerRuns) (evm : first.evmVersion = second.evmVersion)
    (key content : String) : request key content first = request key content second := by
  rw [request, request, optimize, runs, evm]

theorem isData_request (key content : String) (settings : CompilerSettings) :
    (request key content settings).isData = true := by
  cases evm : settings.evmVersion <;>
    simp [request, evm, Json.isData, Json.areData, Json.memberData, Json.ofStrings]

/-- The text of a document still shows whether its settings name an EVM version. -/
theorem isSome_evmVersion_of_compact_eq {first second : CompilerSettings} {key content : String}
    (same : (request key content first).compact = (request key content second).compact) :
    first.evmVersion.isSome = second.evmVersion.isSome := by
  have read := Json.clip_eq_of_compact_eq (isData_request key content first) (isData_request key content second) same
  cases firstEvm : first.evmVersion <;> cases secondEvm : second.evmVersion <;>
    simp [request, firstEvm, secondEvm, Json.clip_object, Json.depthLimit, Json.clipMembers] at read ⊢

theorem compact_ne_of_confused {first second : CompilerSettings} (confused : Confused first second)
    (key content : String) : (request key content first).compact ≠ (request key content second).compact := by
  intro same
  have shown := isSome_evmVersion_of_compact_eq same
  rcases confused with ⟨left, right⟩ | ⟨left, right⟩ <;> simp [left, right] at shown

theorem invocation_congr {first second : CompilerSettings} (command : first.command = second.command)
    (agree : flags first = flags second) (evm : first.evmVersion = second.evmVersion)
    (options : CompilerOptions) (unit : SourceUnit) :
    invocation first options unit = invocation second options unit := by
  obtain ⟨optimize, runs, -, extra⟩ := flags_eq_iff.1 agree
  rw [invocation, invocation, CompilerSettings.commandOr_congr command, arguments, arguments, extra,
    request_congr optimize runs evm]

theorem compile_congr {first second : CompilerSettings} (command : first.command = second.command)
    (agree : flags first = flags second) (evm : first.evmVersion = second.evmVersion) (machine : Machine)
    (options : CompilerOptions) (unit : SourceUnit) (version : String) :
    compile machine first options unit version = compile machine second options unit version := by
  have read : readAnswer first options unit = readAnswer second options unit := by
    funext output
    rw [readAnswer, readAnswer, CompilerSettings.commandOr_congr command]
  rw [compile, compile, agree, invocation_congr command agree evm, read]

end Solc

namespace Vyper

theorem flags_eq_iff {first second : CompilerSettings} :
    flags first = flags second ↔
      first.optimize = second.optimize ∧ (first.evmVersion = second.evmVersion ∨ Confused first second) ∧
        first.extraArgs = second.extraArgs := by
  simp only [flags, List.cons_append, List.nil_append, List.cons.injEq, Compiler.flagText_eq_iff,
    Compiler.evmFlag_eq_iff]

theorem arguments_ne_of_confused {first second : CompilerSettings} (agree : flags first = flags second)
    (confused : Confused first second) (base unit : Path) (version : String) :
    arguments base unit first version ≠ arguments base unit second version := by
  intro same
  obtain ⟨optimize, -, extra⟩ := flags_eq_iff.1 agree
  have lengths := congrArg List.length same
  rcases confused with ⟨left, right⟩ | ⟨left, right⟩ <;>
    · simp only [arguments, left, right, optimize, extra, List.length_append, List.length_cons, List.length_nil]
        at lengths
      omega

theorem invocation_congr {first second : CompilerSettings} (command : first.command = second.command)
    (agree : flags first = flags second) (evm : first.evmVersion = second.evmVersion)
    (options : CompilerOptions) (unit : SourceUnit) (version : String) :
    invocation first options unit version = invocation second options unit version := by
  obtain ⟨optimize, -, extra⟩ := flags_eq_iff.1 agree
  rw [invocation, invocation, CompilerSettings.commandOr_congr command, arguments, arguments, optimize, evm, extra]

theorem compile_congr {first second : CompilerSettings} (command : first.command = second.command)
    (agree : flags first = flags second) (evm : first.evmVersion = second.evmVersion) (machine : Machine)
    (options : CompilerOptions) (unit : SourceUnit) (version : String) :
    compile machine first options unit version = compile machine second options unit version := by
  have read : readAnswer first = readAnswer second := by
    funext output
    rw [readAnswer, readAnswer, CompilerSettings.commandOr_congr command]
  rw [compile, compile, agree, invocation_congr command agree evm, read]

end Vyper

namespace Compiler

/-- Settings with one command whose flags agree send the same to their compiler and compile alike, unless the
EVM version that one of them names is the word that the flags have for none. For those two the flags and the
fingerprints agree and what is sent does not. -/
theorem invocations_of_flags {first second : CompilerSettings} (command : first.command = second.command)
    (machine : Machine) (options : CompilerOptions) (unit : SourceUnit) (version : String) :
    (Solc.flags first = Solc.flags second →
      (Solc.invocation first options unit).arguments = (Solc.invocation second options unit).arguments ∧
      ((Solc.invocation first options unit).input = (Solc.invocation second options unit).input ↔
        ¬Confused first second) ∧
      (¬Confused first second →
        Solc.invocation first options unit = Solc.invocation second options unit ∧
        Solc.compile machine first options unit version = Solc.compile machine second options unit version)) ∧
    (Vyper.flags first = Vyper.flags second →
      ((Vyper.invocation first options unit version).arguments =
          (Vyper.invocation second options unit version).arguments ↔ ¬Confused first second) ∧
      (¬Confused first second →
        Vyper.invocation first options unit version = Vyper.invocation second options unit version ∧
        Vyper.compile machine first options unit version = Vyper.compile machine second options unit version)) := by
  refine ⟨fun agree => ?_, fun agree => ?_⟩
  · obtain ⟨-, -, evm, extra⟩ := Solc.flags_eq_iff.1 agree
    have invocations (apart : ¬Confused first second) :=
      Solc.invocation_congr command agree (evm.resolve_right apart) options unit
    refine ⟨by rw [Solc.invocation, Solc.invocation, Solc.arguments, Solc.arguments, extra], ?_, fun apart =>
      ⟨invocations apart, Solc.compile_congr command agree (evm.resolve_right apart) machine options unit version⟩⟩
    refine ⟨fun same confused => ?_, fun apart => by rw [invocations apart]⟩
    exact Solc.compact_ne_of_confused confused _ _ (Option.some.inj same)
  · obtain ⟨-, evm, -⟩ := Vyper.flags_eq_iff.1 agree
    have invocations (apart : ¬Confused first second) :=
      Vyper.invocation_congr command agree (evm.resolve_right apart) options unit version
    refine ⟨?_, fun apart =>
      ⟨invocations apart, Vyper.compile_congr command agree (evm.resolve_right apart) machine options unit version⟩⟩
    refine ⟨fun same confused => ?_, fun apart => by rw [invocations apart]⟩
    exact Vyper.arguments_ne_of_confused agree confused _ _ _ same

/-- Another number of runs is no matter to the one compiler. The word for a missing EVM version is to both. -/
theorem invocations_of_flags_default :
    let plain : CompilerSettings := ⟨"0.3.1", none, true, 200, none, []⟩
    let options : CompilerOptions := ⟨⟨"contracts"⟩, none, none⟩
    let unit : SourceUnit := ⟨⟨"contracts/A.vy"⟩, .vyper, "[]"⟩
    let busier := { plain with optimizerRuns := 300 }
    let named := { plain with evmVersion := some "default" }
    (Vyper.flags plain = Vyper.flags busier ∧
      Vyper.invocation plain options unit "0.3.1" = Vyper.invocation busier options unit "0.3.1") ∧
    (Vyper.flags plain = Vyper.flags named ∧ (Vyper.invocation plain options unit "0.3.1").arguments ≠
      (Vyper.invocation named options unit "0.3.1").arguments) ∧
    Solc.flags plain = Solc.flags named ∧
      (Solc.invocation plain options unit).input ≠ (Solc.invocation named options unit).input := by
  intro plain options unit busier named
  have apart : ¬Confused plain busier := by simp [Confused, plain, busier]
  have confused : Confused plain named := .inl ⟨rfl, rfl⟩
  have sameCommand : plain.command = busier.command := rfl
  have sameCommandToo : plain.command = named.command := rfl
  have vyper := ((invocations_of_flags sameCommand (.bare "") options unit "0.3.1").2 rfl).2
  have ⟨solc, vyperToo⟩ := invocations_of_flags sameCommandToo (.bare "") options unit "0.3.1"
  exact ⟨⟨rfl, (vyper apart).1⟩, ⟨rfl, fun same => (vyperToo rfl).1.1 same confused⟩, rfl,
    fun same => (solc rfl).2.1.1 same confused⟩

end Compiler
end ContractBuild
