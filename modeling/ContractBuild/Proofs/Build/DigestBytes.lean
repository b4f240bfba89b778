import ContractBuild.Proofs.Fingerprint
import ContractBuild.Proofs.Interface.RoundTrip
import ContractBuild.Proofs.Json.Injective
import ContractBuild.Proofs.Text.Lossy

/-!
What the digest of a generation covers. Its bytes are those of a text in which a zero character closes each field,
two flags apart; the number of descriptors is open, but a record begins wherever the text goes on. Of the directory
they tell the text that its bytes are read as.
-/
namespace ContractBuild.BindingOptions
open CompileInput (closedChars closedChars_append_inj)

variable {options other : BindingOptions} {descriptors others : List Descriptor}

/-! The text of the bytes -/

def flagChar (flag : Bool) : Char :=
  if flag then '\x01' else '\x00'

def descriptorChars (descriptor : Descriptor) : List Char :=
  closedChars descriptor.name ++ closedChars (descriptor.toText 0)

def digestChars (options : BindingOptions) (descriptors : List Descriptor) : List Char :=
  closedChars release ++ (closedChars options.dialect.text ++
    ([flagChar options.everyOverload, flagChar options.clear, '\x00'] ++
      (closedChars (Text.Lossy.decode options.directory) ++ descriptors.flatMap descriptorChars)))

theorem closed_eq_utf8Encode (field : String) : closed field = (closedChars field).utf8Encode :=
  CompileInput.closed_eq field

theorem flagBytes_eq (first second : Bool) :
    (⟨#[flagByte first, flagByte second, 0]⟩ : ByteArray) = [flagChar first, flagChar second, '\x00'].utf8Encode := by
  cases first <;> cases second <;> rfl

theorem descriptorBytes_eq (descriptors : List Descriptor) :
    descriptorBytes descriptors = (descriptors.flatMap descriptorChars).utf8Encode := by
  induction descriptors with
  | nil => rfl
  | cons descriptor descriptors ih =>
    rw [descriptorBytes, ih, closed_eq_utf8Encode, closed_eq_utf8Encode, List.flatMap_cons, descriptorChars,
      List.utf8Encode_append, List.utf8Encode_append]

theorem digestBytes_eq (options : BindingOptions) (descriptors : List Descriptor) :
    options.digestBytes descriptors = (options.digestChars descriptors).utf8Encode := by
  rw [digestBytes, digestChars, flagBytes_eq, descriptorBytes_eq]
  simp only [closed_eq_utf8Encode, List.utf8Encode_append, ByteArray.append_assoc]

theorem digestBytes_eq_iff_chars_eq : options.digestBytes descriptors = other.digestBytes others ↔
    options.digestChars descriptors = other.digestChars others := by
  rw [digestBytes_eq, digestBytes_eq, ← String.toByteArray_ofList, ← String.toByteArray_ofList, String.toByteArray_inj,
    String.ofList_inj]

/-! What the text tells -/

theorem dialect_text_inj {first second : Dialect} (same : first.text = second.text) : first = second := by
  cases first <;> cases second <;> first | rfl | exact absurd same (by decide)

theorem zero_not_mem_dialect (dialect : Dialect) : '\x00' ∉ dialect.text.toList := by
  cases dialect <;> decide

theorem flagChar_inj {first second : Bool} (same : flagChar first = flagChar second) : first = second := by
  cases first <;> cases second <;> first | rfl | exact absurd same (by decide)

theorem zero_not_mem_decode {directory : ByteArray} (plain : 0 ∉ directory.data.toList) :
    '\x00' ∉ (Text.Lossy.decode directory).toList := by
  rw [Text.Lossy.decode, String.toList_ofList]
  exact Text.Lossy.zero_not_mem_decodeBytes plain

theorem zero_not_mem_toText (descriptor : Descriptor) (spacing : Nat) :
    '\x00' ∉ (descriptor.toText spacing).toList := by
  rw [Descriptor.toText, Json.write, String.toList_append, String.toList_ofList, List.mem_append, not_or]
  exact ⟨Json.zero_not_mem_chars spacing 0 (Item.isData_listToJson descriptor.items), by decide⟩

/-- A descriptor is told by its name and its text. -/
theorem toText_inj {one two : Descriptor} {spacing : Nat} (name : one.name = two.name)
    (text : one.toText spacing = two.toText spacing) : one = two := by
  obtain ⟨name, items⟩ := one
  obtain ⟨_, itemsToo⟩ := two
  subst name
  rw [Descriptor.toText, Descriptor.toText, String.append_left_inj,
    Json.write_inj (Item.isData_listToJson items) (Item.isData_listToJson itemsToo)] at text
  have read := Item.manyOfJson?_listToJson items
  rw [text, Item.manyOfJson?_listToJson itemsToo] at read
  rw [Option.some.inj read]

theorem descriptorChars_ne_nil (descriptor : Descriptor) (rest : List Char) : descriptorChars descriptor ++ rest ≠ [] := by
  simp [descriptorChars, closedChars]

/-- Records are read one after the other: the name and the text of the first end at the first two zero characters. -/
theorem descriptors_inj (plain : ∀ descriptor ∈ descriptors, '\x00' ∉ descriptor.name.toList)
    (plainToo : ∀ descriptor ∈ others, '\x00' ∉ descriptor.name.toList)
    (same : descriptors.flatMap descriptorChars = others.flatMap descriptorChars) : descriptors = others := by
  induction descriptors generalizing others with
  | nil =>
    cases others with
    | nil => rfl
    | cons two others => exact absurd same.symm (descriptorChars_ne_nil two _)
  | cons one descriptors ih =>
    cases others with
    | nil => exact absurd same (descriptorChars_ne_nil one _)
    | cons two others =>
      obtain ⟨first, rest⟩ := List.forall_mem_cons.1 plain
      obtain ⟨firstToo, restToo⟩ := List.forall_mem_cons.1 plainToo
      rw [List.flatMap_cons, List.flatMap_cons, descriptorChars, descriptorChars, List.append_assoc,
        List.append_assoc] at same
      obtain ⟨name, same⟩ := closedChars_append_inj first firstToo same
      obtain ⟨text, behind⟩ := closedChars_append_inj (zero_not_mem_toText one 0) (zero_not_mem_toText two 0) same
      rw [toText_inj name text, ih rest restToo behind]

/-- Equal but for what reading it as text loses of the directory. -/
structure ReadsAs (options other : BindingOptions) : Prop where
  directory : Text.Lossy.decode options.directory = Text.Lossy.decode other.directory
  dialect : options.dialect = other.dialect
  everyOverload : options.everyOverload = other.everyOverload
  clear : options.clear = other.clear

/-- Nothing is lost of directories in UTF-8. -/
theorem ReadsAs.eq (reads : options.ReadsAs other) (valid : options.directory.IsValidUTF8)
    (validToo : other.directory.IsValidUTF8) : options = other := by
  obtain ⟨directory, dialect, overloads, clear⟩ := options
  obtain ⟨directoryToo, dialectToo, overloadsToo, clearToo⟩ := other
  obtain ⟨directories, rfl, rfl, rfl⟩ := reads
  have text := Text.Lossy.decode_toUTF8 (String.ofByteArray directory valid)
  have textToo := Text.Lossy.decode_toUTF8 (String.ofByteArray directoryToo validToo)
  have same : String.ofByteArray directory valid = String.ofByteArray directoryToo validToo :=
    text.symm.trans (directories.trans textToo)
  cases String.ofByteArray.inj same
  rfl

/-- If no directory and no name holds a zero, the bytes that are digested tell the dialect, both settings, the
descriptors in their order with their names and entries, and the text of the directory; so two generations with
directories in UTF-8 have one digest only if they read the same. -/
theorem digestBytes_inj (place : 0 ∉ options.directory.data.toList) (placeToo : 0 ∉ other.directory.data.toList)
    (names : ∀ descriptor ∈ descriptors, '\x00' ∉ descriptor.name.toList)
    (namesToo : ∀ descriptor ∈ others, '\x00' ∉ descriptor.name.toList) :
    (options.digestBytes descriptors = other.digestBytes others ↔ options.ReadsAs other ∧ descriptors = others) ∧
    (options.directory.IsValidUTF8 → other.directory.IsValidUTF8 →
      options.digestBytes descriptors = other.digestBytes others → options = other ∧ descriptors = others) := by
  have told : options.digestBytes descriptors = other.digestBytes others →
      options.ReadsAs other ∧ descriptors = others := by
    intro same
    have behind := List.append_cancel_left (digestBytes_eq_iff_chars_eq.1 same)
    obtain ⟨dialect, behind⟩ :=
      closedChars_append_inj (zero_not_mem_dialect options.dialect) (zero_not_mem_dialect other.dialect) behind
    simp only [List.cons_append, List.nil_append, List.cons.injEq, true_and] at behind
    obtain ⟨overloads, clear, behind⟩ := behind
    obtain ⟨directory, behind⟩ :=
      closedChars_append_inj (zero_not_mem_decode place) (zero_not_mem_decode placeToo) behind
    exact ⟨⟨directory, dialect_text_inj dialect, flagChar_inj overloads, flagChar_inj clear⟩,
      descriptors_inj names namesToo behind⟩
  refine ⟨⟨told, ?_⟩, fun valid validToo same => ?_⟩
  · rintro ⟨⟨directory, dialect, overloads, clear⟩, rfl⟩
    rw [digestBytes, digestBytes, directory, dialect, overloads, clear]
  · obtain ⟨reads, descriptors⟩ := told same
    exact ⟨reads.eq valid validToo, descriptors⟩

/-- The order of two descriptors is told. -/
theorem digestBytes_of_swap :
    let options : BindingOptions := ⟨"bindings".toUTF8, .rust, true, false⟩
    let pool : Descriptor := ⟨"Pool", [.event "Swap" [Param.tuple "order" "[]" [Param.plain "id" "uint256"]] false]⟩
    let vault : Descriptor := ⟨"Vault", []⟩
    (0 ∉ options.directory.data.toList ∧ (∀ descriptor ∈ [pool, vault], '\x00' ∉ descriptor.name.toList) ∧
      ∀ descriptor ∈ [vault, pool], '\x00' ∉ descriptor.name.toList) ∧
    options.digestBytes [pool, vault] ≠ options.digestBytes [vault, pool] := by
  intro options pool vault
  have place : 0 ∉ options.directory.data.toList := by decide +kernel
  have first : '\x00' ∉ pool.name.toList := by decide
  have second : '\x00' ∉ vault.name.toList := by decide
  have names : ∀ descriptor ∈ [pool, vault], '\x00' ∉ descriptor.name.toList := by simp [first, second]
  have namesToo : ∀ descriptor ∈ [vault, pool], '\x00' ∉ descriptor.name.toList := by simp [first, second]
  refine ⟨⟨place, names, namesToo⟩, fun same => ?_⟩
  have swapped := ((digestBytes_inj place place names namesToo).1.1 same).2
  have name : pool.name = vault.name := congrArg Descriptor.name (List.cons.inj swapped).1
  exact absurd name (by decide)

/-- Two directories that are not in UTF-8 can read as one text. -/
theorem digestBytes_of_lost_byte :
    let one : BindingOptions := ⟨⟨#[0x6F, 0xE9]⟩, .rust, true, false⟩
    let other : BindingOptions := ⟨⟨#[0x6F, 0xEA]⟩, .rust, true, false⟩
    0 ∉ one.directory.data.toList ∧ 0 ∉ other.directory.data.toList ∧
      one.digestBytes [] = other.digestBytes [] ∧ one.directory ≠ other.directory := by
  have lost : ∀ byte : UInt8, byte = 0xE9 ∨ byte = 0xEA →
      Text.Lossy.decodeBytes [0x6F, byte] = ['o', Text.Lossy.replacement] := by
    rintro byte (rfl | rfl)
    all_goals
      exact (Text.Lossy.decodeBytes_utf8EncodeChar 'o' _).trans
        (congrArg _ (Text.Lossy.decodeBytes_cut ⟨2, 0x80, 0xBF, _⟩ rfl (by decide)))
  have first := congrArg String.ofList (lost 0xE9 (.inl rfl))
  have second := congrArg String.ofList (lost 0xEA (.inr rfl))
  refine ⟨by decide, by decide, ?_, by decide⟩
  rw [digestBytes, digestBytes, Text.Lossy.decode, Text.Lossy.decode, first, second]

/-- A name with a zero character can read like the end of one record and the beginning of the next. -/
example (options : BindingOptions) :
    options.digestBytes [⟨"Pool\x00[]\n\x00Vault", []⟩] = options.digestBytes [⟨"Pool", []⟩, ⟨"Vault", []⟩] := by
  rw [digestBytes_eq_iff_chars_eq]
  rfl

end ContractBuild.BindingOptions
