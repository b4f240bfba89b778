import ContractBuild.Text.Lossy
import Mathlib.Data.List.Basic

/-!
Reading bytes that need not be UTF-8: bytes of a text are read as that text, and no zero character is read that is
no zero byte.
-/
namespace ContractBuild.Text.Lossy

/-! What the first byte of a character says -/

theorem lead?_one {value : Nat} (bound : value < 0x80) :
    lead? (UInt8.ofNat value) = some ⟨0, 0x80, 0xBF, value⟩ := by
  revert value
  decide

theorem lead?_two (value : Nat) (low : 2 ≤ value) (bound : value < 0x20) :
    lead? (UInt8.ofNat (value + 192)) = some ⟨1, 0x80, 0xBF, value⟩ := by
  revert low
  revert value
  decide

theorem lead?_three (value : Nat) (bound : value < 0x10) :
    lead? (UInt8.ofNat (value + 224)) =
      some ⟨2, if value = 0 then 0xA0 else 0x80, if value = 0xD then 0x9F else 0xBF, value⟩ := by
  revert value
  decide

theorem lead?_four (value : Nat) (bound : value < 5) :
    lead? (UInt8.ofNat (value + 240)) =
      some ⟨3, if value = 0 then 0x90 else 0x80, if value = 4 then 0x8F else 0xBF, value⟩ := by
  revert value
  decide

theorem lead?_cases {byte : UInt8} {lead : Lead} (found : lead? byte = some lead) :
    (byte.toNat < 0x80 ∧ lead = ⟨0, 0x80, 0xBF, byte.toNat⟩) ∨
    (∃ value, 2 ≤ value ∧ value < 0x20 ∧ lead = ⟨1, 0x80, 0xBF, value⟩) ∨
    (∃ value, value < 0x10 ∧
      lead = ⟨2, if value = 0 then 0xA0 else 0x80, if value = 0xD then 0x9F else 0xBF, value⟩) ∨
    (∃ value, value < 5 ∧
      lead = ⟨3, if value = 0 then 0x90 else 0x80, if value = 4 then 0x8F else 0xBF, value⟩) := by
  have none_between : ∀ number < 256, 0x80 ≤ number → number < 0xC2 ∨ 0xF5 ≤ number →
      lead? (UInt8.ofNat number) = none := by decide +kernel
  obtain ⟨number, bound, rfl⟩ : ∃ number < 256, byte = UInt8.ofNat number :=
    ⟨byte.toNat, byte.toNat_lt, UInt8.ofNat_toNat.symm⟩
  have beyond : 0x80 ≤ number → ¬ (number < 0xC2 ∨ 0xF5 ≤ number) := by
    intro low outside
    rw [none_between number bound low outside] at found
    cases found
  by_cases one : number < 0x80
  · rw [lead?_one one] at found
    rw [UInt8.toNat_ofNat_of_lt' bound]
    exact .inl ⟨one, (Option.some.inj found).symm⟩
  by_cases two : number < 0xE0
  · obtain ⟨value, rfl⟩ : ∃ value, number = value + 192 := ⟨number - 192, by omega⟩
    rw [lead?_two _ (by omega) (by omega)] at found
    exact .inr (.inl ⟨value, by omega, by omega, (Option.some.inj found).symm⟩)
  by_cases three : number < 0xF0
  · obtain ⟨value, rfl⟩ : ∃ value, number = value + 224 := ⟨number - 224, by omega⟩
    rw [lead?_three _ (by omega)] at found
    exact .inr (.inr (.inl ⟨value, by omega, (Option.some.inj found).symm⟩))
  · obtain ⟨value, rfl⟩ : ∃ value, number = value + 240 := ⟨number - 240, by omega⟩
    rw [lead?_four _ (by omega)] at found
    exact .inr (.inr (.inr ⟨value, by omega, (Option.some.inj found).symm⟩))

/-! What the bytes behind it add -/

variable {low high byte : UInt8} {following : Nat} {bytes : List UInt8}

theorem continuation_cons (lower : low ≤ byte) (upper : byte ≤ high) :
    continuation low high (following + 1) (byte :: bytes) = byte :: continuation 0x80 0xBF following bytes :=
  if_pos ⟨lower, upper⟩

theorem exists_of_continuation (whole : (continuation low high (following + 1) bytes).length = following + 1) :
    ∃ byte rest, low ≤ byte ∧ byte ≤ high ∧ bytes = byte :: rest ∧
      continuation low high (following + 1) bytes = byte :: continuation 0x80 0xBF following rest ∧
      (continuation 0x80 0xBF following rest).length = following := by
  cases bytes with
  | nil => cases whole
  | cons byte rest =>
    rw [continuation] at whole ⊢
    split at whole
    · next inside =>
      rw [if_pos inside]
      exact ⟨byte, rest, inside.1, inside.2, rfl, rfl, Nat.succ.inj whole⟩
    · cases whole

theorem toNat_part (byte : UInt8) : (byte &&& 0x3F).toNat = byte.toNat % 64 := by
  rw [UInt8.toNat_and]
  exact Nat.and_two_pow_sub_one_eq_mod byte.toNat 6

theorem toNat_following {value : Nat} (bound : value < 64) : (UInt8.ofNat (value + 128)).toNat = value + 128 :=
  UInt8.toNat_ofNat_of_lt' (show value + 128 < 256 by omega)

theorem le_following {value : Nat} (bound : value < 64) (lower : low.toNat ≤ value + 128) :
    low ≤ UInt8.ofNat (value + 128) := by
  rwa [UInt8.le_iff_toNat_le, toNat_following bound]

theorem following_le {value : Nat} (bound : value < 64) (upper : value + 128 ≤ high.toNat) :
    UInt8.ofNat (value + 128) ≤ high := by
  rwa [UInt8.le_iff_toNat_le, toNat_following bound]

theorem following_bounds (value : Nat) (bound : value < 64) :
    0x80 ≤ UInt8.ofNat (value + 128) ∧ UInt8.ofNat (value + 128) ≤ 0xBF :=
  ⟨le_following bound (show 128 ≤ _ by omega), following_le bound (show _ ≤ 191 by omega)⟩

/-! A text is read as it was -/

theorem decodeBytes_of_lead {lead : Lead} (found : List UInt8) (begins : lead? byte = some lead)
    (whole : continuation lead.low lead.high lead.following (found ++ bytes) = found) :
    decodeBytes (byte :: (found ++ bytes)) = character lead found :: decodeBytes bytes := by
  rw [decodeBytes, begins]
  dsimp only
  rw [whole, List.drop_left]

theorem decodeBytes_utf8EncodeChar (char : Char) (bytes : List UInt8) :
    decodeBytes (String.utf8EncodeChar char ++ bytes) = char :: decodeBytes bytes := by
  obtain ⟨number, isNumber⟩ : ∃ number, char.val.toNat = number := ⟨_, rfl⟩
  have valid : number < 0xD800 ∨ 0xDFFF < number ∧ number < 0x110000 := isNumber ▸ char.valid
  have same : Char.ofNat number = char := isNumber ▸ Char.ofNat_toNat char
  have part (value : Nat) : (UInt8.ofNat (value % 64 + 128)).toNat % 64 = value % 64 := by
    rw [toNat_following (by omega)]
    omega
  have inside (value : Nat) := following_bounds (value % 64) (by omega)
  rw [String.utf8EncodeChar, isNumber, ← same]
  split_ifs with one two three
  · exact decodeBytes_of_lead [] (lead?_one (by omega)) rfl
  · rw [List.cons_append, decodeBytes_of_lead _ (lead?_two (number / 64 % 32) (by omega) (by omega))
      (continuation_cons (inside _).1 (inside _).2)]
    simp only [character, List.length_singleton, if_true, List.foldl_cons, List.foldl_nil, toNat_part, part]
    congr 2
    omega
  · rw [List.cons_append, decodeBytes_of_lead _ (lead?_three (number / 4096 % 16) (by omega))]
    · simp only [character, List.length_cons, List.length_nil, if_true, List.foldl_cons, List.foldl_nil, toNat_part,
        part]
      congr 2
      omega
    · refine (continuation_cons ?_ ?_).trans (congrArg _ (continuation_cons (inside _).1 (inside _).2))
      · dsimp only
        split_ifs
        · exact le_following (by omega) (show 160 ≤ _ by omega)
        · exact (inside _).1
      · dsimp only
        split_ifs
        · exact following_le (by omega) (show _ ≤ 159 by omega)
        · exact (inside _).2
  · rw [List.cons_append, decodeBytes_of_lead _ (lead?_four (number / 262144 % 8) (by omega))]
    · simp only [character, List.length_cons, List.length_nil, if_true, List.foldl_cons, List.foldl_nil, toNat_part,
        part]
      congr 2
      omega
    · refine (continuation_cons ?_ ?_).trans (congrArg _ ((continuation_cons (inside _).1 (inside _).2).trans
        (congrArg _ (continuation_cons (inside _).1 (inside _).2))))
      · dsimp only
        split_ifs
        · exact le_following (by omega) (show 144 ≤ _ by omega)
        · exact (inside _).1
      · dsimp only
        split_ifs
        · exact following_le (by omega) (show _ ≤ 143 by omega)
        · exact (inside _).2

theorem decodeBytes_utf8Encode (chars : List Char) : decodeBytes chars.utf8Encode.data.toList = chars := by
  induction chars with
  | nil => rw [List.utf8Encode_nil]; exact decodeBytes.eq_1
  | cons char chars ih =>
    rw [List.utf8Encode_cons, ByteArray.data_append, Array.toList_append, List.utf8Encode_singleton,
      List.data_toByteArray, decodeBytes_utf8EncodeChar, ih]

theorem decode_toUTF8 (text : String) : decode text.toUTF8 = text := by
  have chars := decodeBytes_utf8Encode text.toList
  rw [← String.toByteArray_ofList, String.ofList_toList] at chars
  exact (congrArg String.ofList chars).trans String.ofList_toList

/-- A character that is cut short at the end. -/
theorem decodeBytes_cut (lead : Lead) (begins : lead? byte = some lead) (cut : lead.following ≠ 0) :
    decodeBytes [byte] = [replacement] := by
  have nothing : continuation lead.low lead.high lead.following [] = [] := by
    cases lead.following <;> rfl
  rw [decodeBytes, begins]
  dsimp only
  rw [nothing, character, List.length_nil, if_neg (Ne.symm cut)]
  exact congrArg _ decodeBytes.eq_1

/-! Zero characters -/

theorem ofNat_ne_zero {number : Nat} (positive : number ≠ 0)
    (valid : number < 0xD800 ∨ 0xDFFF < number ∧ number < 0x110000) : Char.ofNat number ≠ '\x00' := by
  intro same
  have isNumber : (Char.ofNat number).toNat = number := by
    rw [Char.ofNat, dif_pos valid]
    rfl
  rw [same] at isNumber
  exact positive isNumber.symm

/-- Only a zero byte is read as a zero character. -/
theorem character_ne_zero {lead : Lead} (filled : byte ≠ 0) (begins : lead? byte = some lead) (bytes : List UInt8) :
    character lead (continuation lead.low lead.high lead.following bytes) ≠ '\x00' := by
  rw [character]
  split_ifs with whole
  swap
  · decide
  rcases lead?_cases begins with ⟨small, rfl⟩ | ⟨value, low, bound, rfl⟩ | ⟨value, bound, rfl⟩ | ⟨value, bound, rfl⟩
  · exact ofNat_ne_zero (fun zero => filled (UInt8.toNat_inj.1 zero)) (.inl (Nat.lt_trans small (by decide)))
  · obtain ⟨first, rest, lower, upper, -, same, -⟩ := exists_of_continuation whole
    dsimp only at same ⊢
    rw [same]
    simp only [continuation, List.foldl_cons, List.foldl_nil, toNat_part]
    exact ofNat_ne_zero (by omega) (by omega)
  · obtain ⟨first, rest, lower, upper, -, same, more⟩ := exists_of_continuation whole
    obtain ⟨second, rest, -, -, -, sameToo, -⟩ := exists_of_continuation more
    dsimp only at same sameToo ⊢
    rw [same, sameToo]
    simp only [continuation, List.foldl_cons, List.foldl_nil, toNat_part]
    rw [UInt8.le_iff_toNat_le, apply_ite UInt8.toNat] at lower upper
    change (if value = 0 then 160 else 128) ≤ _ at lower
    change _ ≤ (if value = 0xD then 159 else 191) at upper
    apply ofNat_ne_zero <;> split_ifs at lower upper <;> omega
  · obtain ⟨first, rest, lower, upper, -, same, more⟩ := exists_of_continuation whole
    obtain ⟨second, rest, -, -, -, sameToo, more⟩ := exists_of_continuation more
    obtain ⟨third, rest, -, -, -, sameThree, -⟩ := exists_of_continuation more
    dsimp only at same sameToo sameThree ⊢
    rw [same, sameToo, sameThree]
    simp only [continuation, List.foldl_cons, List.foldl_nil, toNat_part]
    rw [UInt8.le_iff_toNat_le, apply_ite UInt8.toNat] at lower upper
    change (if value = 0 then 144 else 128) ≤ _ at lower
    change _ ≤ (if value = 4 then 143 else 191) at upper
    apply ofNat_ne_zero <;> split_ifs at lower upper <;> omega

theorem zero_not_mem_decodeBytes (filled : 0 ∉ bytes) : '\x00' ∉ decodeBytes bytes := by
  induction bytes using decodeBytes.induct with
  | case1 => simp [decodeBytes]
  | case2 byte bytes begins ih =>
    obtain ⟨-, rest⟩ := not_or.1 (List.mem_cons.not.1 filled)
    rw [decodeBytes, begins, List.mem_cons, not_or]
    exact ⟨by decide, ih rest⟩
  | case3 byte bytes lead begins found ih =>
    obtain ⟨first, rest⟩ := not_or.1 (List.mem_cons.not.1 filled)
    rw [decodeBytes, begins, List.mem_cons, not_or]
    exact ⟨(character_ne_zero (Ne.symm first) begins bytes).symm, ih (mt List.mem_of_mem_drop rest)⟩

end ContractBuild.Text.Lossy
