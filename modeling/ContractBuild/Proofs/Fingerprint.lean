import ContractBuild.Artifact

/-!
What a fingerprint tells of a compilation. Its bytes are those of a text in which a zero character
closes each field but the last. The text always tells the language. If no version and no flag holds
a zero character it tells the version too, and leaves open only where the flags end and the source
begins: a source can begin with what reads like further flags.
-/
namespace ContractBuild.CompileInput

def closedChars (field : String) : List Char :=
  field.toList ++ ['\x00']

def chars (input : CompileInput) : List Char :=
  closedChars input.language.tag ++ (closedChars input.version ++
    (input.flags.flatMap closedChars ++ input.content.toList))

/-- No zero character in the version or in a flag. -/
structure Plain (input : CompileInput) : Prop where
  version : '\x00' ∉ input.version.toList
  flags : ∀ flag ∈ input.flags, '\x00' ∉ flag.toList

def Sheds (input other : CompileInput) : Prop :=
  ∃ moved, input.flags = other.flags ++ moved ∧
    other.content.toList = moved.flatMap closedChars ++ input.content.toList

theorem closed_eq (field : String) : closed field = (closedChars field).utf8Encode := by
  have zero : ['\x00'].utf8Encode = ⟨#[0]⟩ := rfl
  rw [closed, closedChars, List.utf8Encode_append, zero, String.toUTF8_eq_toByteArray,
    String.utf8Encode_toList]
  apply ByteArray.ext
  simp

private theorem foldr_closed (flags : List String) (content : String) :
    flags.foldr (fun flag rest => closed flag ++ rest) content.toUTF8 =
      (flags.flatMap closedChars ++ content.toList).utf8Encode := by
  induction flags with
  | nil => exact String.utf8Encode_toList.symm
  | cons flag flags ih =>
    rw [List.foldr_cons, ih, closed_eq, List.flatMap_cons, List.append_assoc,
      ← List.utf8Encode_append]

theorem bytes_eq (input : CompileInput) : input.bytes = (String.ofList input.chars).toUTF8 := by
  rw [bytes, foldr_closed, closed_eq, closed_eq, String.toUTF8_eq_toByteArray,
    String.toByteArray_ofList, chars]
  simp only [List.utf8Encode_append, ByteArray.append_assoc]

theorem bytes_eq_iff_chars_eq {first second : CompileInput} :
    first.bytes = second.bytes ↔ first.chars = second.chars := by
  rw [bytes_eq, bytes_eq, String.toUTF8_eq_toByteArray, String.toUTF8_eq_toByteArray,
    String.toByteArray_inj, String.ofList_inj]

/-- The first zero character of a text ends the field in front of it. -/
theorem closedChars_append_inj {field other : String} {rest last : List Char}
    (plain : '\x00' ∉ field.toList) (plainToo : '\x00' ∉ other.toList)
    (same : closedChars field ++ rest = closedChars other ++ last) : field = other ∧ rest = last := by
  simp only [closedChars, List.append_assoc, List.singleton_append] at same
  rw [String.ext_iff]
  generalize field.toList = chars at plain same ⊢
  generalize other.toList = others at plainToo same ⊢
  induction chars generalizing others with
  | nil =>
    cases others with
    | nil => exact ⟨rfl, (List.cons.inj same).2⟩
    | cons c others =>
      obtain ⟨rfl, _⟩ := List.cons.inj same
      exact absurd List.mem_cons_self plainToo
  | cons c chars ih =>
    cases others with
    | nil =>
      obtain ⟨rfl, _⟩ := List.cons.inj same
      exact absurd List.mem_cons_self plain
    | cons d others =>
      obtain ⟨rfl, tails⟩ := List.cons.inj same
      obtain ⟨rfl, rests⟩ := ih (fun inside => plain (List.mem_cons_of_mem _ inside)) others
        (fun inside => plainToo (List.mem_cons_of_mem _ inside)) tails
      exact ⟨rfl, rests⟩

theorem tag_plain (language : Language) : '\x00' ∉ language.tag.toList := by
  cases language <;> decide

theorem tag_inj {first second : Language} (same : first.tag = second.tag) : first = second := by
  cases first <;> cases second <;> first | rfl | exact absurd same (by decide)

/-- The text begins with the language, whatever the other fields hold. -/
theorem language_eq_of_chars_eq {first second : CompileInput} (same : first.chars = second.chars) :
    first.language = second.language :=
  tag_inj (closedChars_append_inj (tag_plain _) (tag_plain _) same).1

/-- Of two lists of flags, each with a source behind it, that read the same, one goes on where the
other's source begins. -/
theorem shed_of_append_eq {flags others : List String} {content last : List Char}
    (plain : ∀ flag ∈ flags, '\x00' ∉ flag.toList) (plainToo : ∀ flag ∈ others, '\x00' ∉ flag.toList)
    (same : flags.flatMap closedChars ++ content = others.flatMap closedChars ++ last) :
    (∃ moved, flags = others ++ moved ∧ last = moved.flatMap closedChars ++ content) ∨
      ∃ moved, others = flags ++ moved ∧ content = moved.flatMap closedChars ++ last := by
  induction flags generalizing others with
  | nil => exact .inr ⟨others, rfl, same⟩
  | cons flag flags ih =>
    cases others with
    | nil => exact .inl ⟨flag :: flags, rfl, same.symm⟩
    | cons other others =>
      rw [List.flatMap_cons, List.flatMap_cons, List.append_assoc, List.append_assoc] at same
      obtain ⟨rfl, rests⟩ := closedChars_append_inj (plain _ List.mem_cons_self)
        (plainToo _ List.mem_cons_self) same
      rcases ih (fun flag inside => plain flag (List.mem_cons_of_mem _ inside))
          (fun flag inside => plainToo flag (List.mem_cons_of_mem _ inside)) rests with
        ⟨moved, rfl, read⟩ | ⟨moved, rfl, read⟩
      · exact .inl ⟨moved, rfl, read⟩
      · exact .inr ⟨moved, rfl, read⟩

theorem chars_eq_of_sheds {first second : CompileInput} (language : first.language = second.language)
    (version : first.version = second.version) (sheds : first.Sheds second) :
    first.chars = second.chars := by
  obtain ⟨moved, flags, content⟩ := sheds
  rw [chars, chars, language, version, flags, content, List.flatMap_append, List.append_assoc]

theorem chars_eq_iff {first second : CompileInput} (plain : first.Plain) (plainToo : second.Plain) :
    first.chars = second.chars ↔ first.language = second.language ∧
      first.version = second.version ∧ (first.Sheds second ∨ second.Sheds first) := by
  constructor
  · intro same
    obtain ⟨_, rest⟩ := closedChars_append_inj (tag_plain _) (tag_plain _) same
    obtain ⟨version, rest⟩ := closedChars_append_inj plain.version plainToo.version rest
    exact ⟨language_eq_of_chars_eq same, version, shed_of_append_eq plain.flags plainToo.flags rest⟩
  · rintro ⟨language, version, sheds | sheds⟩
    · exact chars_eq_of_sheds language version sheds
    · exact (chars_eq_of_sheds language.symm version.symm sheds).symm

/-- Nothing is shed between lists of one length, or into a source without a zero character. -/
theorem Sheds.eq {first second : CompileInput} (sheds : first.Sheds second)
    (firm : first.flags.length = second.flags.length ∨ '\x00' ∉ second.content.toList) :
    first.flags = second.flags ∧ first.content = second.content := by
  obtain ⟨moved, flags, content⟩ := sheds
  cases moved with
  | nil =>
    rw [String.ext_iff, content]
    exact ⟨by rw [flags, List.append_nil], rfl⟩
  | cons flag moved =>
    rcases firm with lengths | plain
    · simp [flags] at lengths
    · refine absurd ?_ plain
      simp [content, closedChars]

/-- If no version and no flag holds a zero character, two compilations have the same bytes exactly
if they agree in language and version and the last flags of one stand at the beginning of the
source of the other. They are the same if they have as many flags as each other, or no source holds
a zero character. -/
theorem bytes_eq_iff_sheds {first second : CompileInput} (plain : first.Plain)
    (plainToo : second.Plain) :
    (first.bytes = second.bytes ↔ first.language = second.language ∧
      first.version = second.version ∧ (first.Sheds second ∨ second.Sheds first)) ∧
    (first.bytes = second.bytes → (first.flags.length = second.flags.length ∨
      '\x00' ∉ first.content.toList ∧ '\x00' ∉ second.content.toList) → first = second) := by
  rw [bytes_eq_iff_chars_eq, chars_eq_iff plain plainToo]
  refine ⟨Iff.rfl, ?_⟩
  rintro ⟨language, version, sheds⟩ firm
  have rest : first.flags = second.flags ∧ first.content = second.content := by
    rcases sheds with sheds | sheds
    · exact sheds.eq (firm.imp_right And.right)
    · obtain ⟨flags, content⟩ := sheds.eq (firm.imp Eq.symm And.left)
      exact ⟨flags.symm, content.symm⟩
  obtain ⟨_, _, _, _⟩ := first
  obtain ⟨_, _, _, _⟩ := second
  simp_all

/-- A source that begins with a flag and a zero character, and one that is compiled with that
flag. -/
theorem bytes_eq_of_flag_in_source :
    let flagged : CompileInput := ⟨.vyper, "0.3.1", ["!x"], "\n[]"⟩
    let bare : CompileInput := ⟨.vyper, "0.3.1", [], "!x\x00\n[]"⟩
    flagged.Plain ∧ bare.Plain ∧ flagged.bytes = bare.bytes ∧ flagged ≠ bare := by
  have plain : CompileInput.Plain ⟨.vyper, "0.3.1", ["!x"], "\n[]"⟩ := ⟨by decide, by decide⟩
  have plainToo : CompileInput.Plain ⟨.vyper, "0.3.1", [], "!x\x00\n[]"⟩ := ⟨by decide, by decide⟩
  refine ⟨plain, plainToo, ?_, by decide⟩
  exact (bytes_eq_iff_sheds plain plainToo).1.2 ⟨rfl, rfl, .inl ⟨["!x"], rfl, by decide⟩⟩

end ContractBuild.CompileInput
