import ContractBuild.Proofs.Json.RoundTrip

/-!
What a written value tells of itself, however deep it is nested and however large its numbers are, so that no
reader with its limits is asked: the value, and where its text ends in a longer one. No text holds a zero character.
-/
namespace ContractBuild.Json
open Text

/-! No zero character -/

theorem zero_not_mem_escaped (c : Char) : '\x00' ∉ escaped c := by
  have digits : ∀ n, n < 32 → '\x00' ≠ hexDigitOf (n / 16) ∧ '\x00' ≠ hexDigitOf (n % 16) := by decide
  unfold escaped
  split
  case h_8 =>
    split
    · next control =>
      obtain ⟨high, low⟩ := digits c.toNat control
      simp [high, low]
    · next shown =>
      rw [List.mem_singleton]
      rintro rfl
      exact shown (by decide)
  all_goals decide

theorem zero_not_mem_quoted (text : String) : '\x00' ∉ quoted text := by
  simp only [quoted, List.cons_append, List.mem_cons, List.mem_append, List.mem_flatMap, List.not_mem_nil, or_false]
  rintro (open_ | ⟨c, -, inside⟩ | close)
  · exact absurd open_ (by decide)
  · exact zero_not_mem_escaped c inside
  · exact absurd close (by decide)

theorem zero_not_mem_lineBreak (spacing level : Nat) : '\x00' ∉ lineBreak spacing level := by
  unfold lineBreak
  split <;> simp

theorem zero_not_mem_digits (n : Nat) : '\x00' ∉ Numeral.digits n :=
  fun member => absurd (List.all_eq_true.1 (Numeral.all_isDigit_digits n) _ member) (by decide)

theorem zero_not_mem_colon (spacing : Nat) : '\x00' ∉ colon spacing := by
  unfold colon
  split <;> decide

mutual

theorem zero_not_mem_chars (spacing : Nat) : ∀ {value : Json} (level : Nat), isData value = true →
    '\x00' ∉ chars spacing level value
  | .decimal _, _, data | .unreadable, _, data => by cases data
  | .null, _, _ | .bool true, _, _ | .bool false, _, _ | .array [], _, _ | .object [], _, _ => by
    simp only [chars]
    decide
  | .natural n, _, _ => by
    rw [chars]
    exact zero_not_mem_digits n
  | .string text, _, _ => by
    rw [chars]
    exact zero_not_mem_quoted text
  | .array (item :: items), level, data => by
    rw [isData, areData, Bool.and_eq_true] at data
    simp [chars, zero_not_mem_lineBreak, zero_not_mem_chars spacing (level + 1) data.1,
      zero_not_mem_itemChars spacing level data.2]
  | .object ((key, value) :: members), level, data => by
    rw [isData, memberData, Bool.and_eq_true] at data
    simp [chars, zero_not_mem_lineBreak, zero_not_mem_quoted, zero_not_mem_colon,
      zero_not_mem_chars spacing (level + 1) data.1, zero_not_mem_memberChars spacing level data.2]

theorem zero_not_mem_itemChars (spacing : Nat) : ∀ {items : List Json} (level : Nat), areData items = true →
    '\x00' ∉ itemChars spacing level items
  | [], level, _ => by simp [itemChars, zero_not_mem_lineBreak]
  | item :: items, level, data => by
    rw [areData, Bool.and_eq_true] at data
    simp [itemChars, zero_not_mem_lineBreak, zero_not_mem_chars spacing (level + 1) data.1,
      zero_not_mem_itemChars spacing level data.2]

theorem zero_not_mem_memberChars (spacing : Nat) : ∀ {members : List (String × Json)} (level : Nat),
    memberData members = true → '\x00' ∉ memberChars spacing level members
  | [], level, _ => by simp [memberChars, zero_not_mem_lineBreak]
  | (key, value) :: members, level, data => by
    rw [memberData, Bool.and_eq_true] at data
    simp [memberChars, zero_not_mem_lineBreak, zero_not_mem_quoted, zero_not_mem_colon,
      zero_not_mem_chars spacing (level + 1) data.1, zero_not_mem_memberChars spacing level data.2]

end

/-! What the first character tells -/

def mark : Json → Char
  | null => 'n'
  | bool _ => 't'
  | natural _ => '0'
  | string _ => '"'
  | array _ => '['
  | object _ => '\x7b'
  | decimal _ | unreadable => ' '

def markOf (c : Char) : Char :=
  if Numeral.isDigit c then '0' else if c = 'f' then 't' else c

theorem markOf_chars (spacing level : Nat) {value : Json} (data : isData value = true) (rest : List Char) :
    (chars spacing level value ++ rest).head?.map markOf = some value.mark := by
  cases value with
  | null => rfl
  | bool flag => cases flag <;> rfl
  | natural n =>
    obtain ⟨c, others, same, isDigit⟩ := isDigit_head_digits n
    rw [chars, same]
    exact congrArg some (if_pos isDigit)
  | decimal literal => cases data
  | string text => rfl
  | array items => cases items <;> rfl
  | object members => cases members <;> rfl
  | unreadable => cases data

theorem mark_eq {spacing level : Nat} {value other : Json} {rest last : List Char} (data : isData value = true)
    (dataToo : isData other = true) (same : chars spacing level value ++ rest = chars spacing level other ++ last) :
    value.mark = other.mark :=
  Option.some.inj (by rw [← markOf_chars spacing level data rest, same, markOf_chars spacing level dataToo last])

/-! What a value ends with -/

theorem quoted_append_inj {text other : String} {rest last : List Char}
    (same : quoted text ++ rest = quoted other ++ last) : text = other ∧ rest = last := by
  simp only [quoted, List.cons_append, List.append_assoc, List.nil_append, List.cons.injEq, true_and] at same
  have read := scanString?_quoted text rest
  rw [same, scanString?_quoted other last, Option.some.injEq, Prod.mk.injEq, Option.some.injEq,
    String.toList_inj] at read
  exact ⟨read.1.symm, read.2.symm⟩

theorem digits_append_inj {m n : Nat} {rest last : List Char} (ends : EndsNumber rest) (endsToo : EndsNumber last)
    (same : Numeral.digits m ++ rest = Numeral.digits n ++ last) : m = n ∧ rest = last := by
  have split := takeDigits_append (Numeral.all_isDigit_digits m) ends
  rw [same, takeDigits_append (Numeral.all_isDigit_digits n) endsToo, Prod.mk.injEq] at split
  have read := congrArg Numeral.readDigits? split.1
  rw [Numeral.readDigits?_digits, Numeral.readDigits?_digits] at read
  exact ⟨(Option.some.inj read).symm, split.2.symm⟩

/-- A list that goes on does not begin where an empty one is closed. -/
theorem close_ne_lineBreak {c close : Char} {front behind : List Char} (spacing level : Nat) (shown : isSpace c = false)
    (other : c ≠ close) (closes : isSpace close = false) : close :: front ≠ lineBreak spacing level ++ c :: behind := by
  intro same
  have skipped := congrArg skipSpace same
  rw [skipSpace_of_shown closes, skipSpace_lineBreak spacing level shown] at skipped
  exact other (List.cons.inj skipped).1.symm

theorem array_nil_ne {spacing level : Nat} {item : Json} {items : List Json} {rest last : List Char}
    (data : isData item = true) :
    chars spacing level (array []) ++ rest ≠ chars spacing level (array (item :: items)) ++ last := by
  obtain ⟨c, others, written, shown, other, -⟩ := chars_head spacing (level + 1) data
  simp only [chars, written, List.cons_append, List.append_assoc, List.nil_append, ne_eq, List.cons.injEq, true_and]
  exact close_ne_lineBreak spacing (level + 1) shown other (by decide)

theorem object_nil_ne {spacing level : Nat} {member : String × Json} {members : List (String × Json)}
    {rest last : List Char} :
    chars spacing level (object []) ++ rest ≠ chars spacing level (object (member :: members)) ++ last := by
  obtain ⟨key, value⟩ := member
  simp only [chars, quoted, List.cons_append, List.append_assoc, List.nil_append, ne_eq, List.cons.injEq, true_and]
  exact close_ne_lineBreak spacing (level + 1) (by decide) (by decide) (by decide)

theorem itemChars_nil_ne {spacing level : Nat} {item : Json} {items : List Json} {rest last : List Char} :
    itemChars spacing level [] ++ rest ≠ itemChars spacing level (item :: items) ++ last := by
  intro same
  have skipped := congrArg skipSpace same
  rw [skipSpace_itemChars, skipSpace_itemChars] at skipped
  simp at skipped

theorem memberChars_nil_ne {spacing level : Nat} {member : String × Json} {members : List (String × Json)}
    {rest last : List Char} :
    memberChars spacing level [] ++ rest ≠ memberChars spacing level (member :: members) ++ last := by
  intro same
  have skipped := congrArg skipSpace same
  rw [skipSpace_memberChars, skipSpace_memberChars] at skipped
  simp at skipped

mutual

/-- Of two texts that begin with a written value and read the same, the values are the same and so is what is left
behind them. -/
theorem chars_append_inj (spacing : Nat) : ∀ (value : Json) {other : Json} {level : Nat} {rest last : List Char},
    isData value = true → isData other = true → EndsNumber rest → EndsNumber last →
    chars spacing level value ++ rest = chars spacing level other ++ last → value = other ∧ rest = last
  | .decimal _, _, _, _, _, data, _, _, _, _ | .unreadable, _, _, _, _, data, _, _, _, _ => by cases data
  | .null, other, level, rest, last, data, dataToo, _, _, same => by
    have marks := mark_eq data dataToo same
    cases other with
    | null => exact ⟨rfl, List.append_cancel_left same⟩
    | _ => simp [mark] at marks
  | .bool flag, other, level, rest, last, data, dataToo, _, _, same => by
    have marks := mark_eq data dataToo same
    cases other with
    | bool flagToo =>
      cases flag <;> cases flagToo
      · exact ⟨rfl, List.append_cancel_left same⟩
      · exact absurd (List.cons.inj same).1 (by decide)
      · exact absurd (List.cons.inj same).1 (by decide)
      · exact ⟨rfl, List.append_cancel_left same⟩
    | _ => simp [mark] at marks
  | .natural n, other, level, rest, last, data, dataToo, ends, endsToo, same => by
    have marks := mark_eq data dataToo same
    cases other with
    | natural m =>
      obtain ⟨rfl, behind⟩ := digits_append_inj ends endsToo (by simpa [chars] using same)
      exact ⟨rfl, behind⟩
    | _ => simp [mark] at marks
  | .string text, other, level, rest, last, data, dataToo, _, _, same => by
    have marks := mark_eq data dataToo same
    cases other with
    | string textToo =>
      obtain ⟨rfl, behind⟩ := quoted_append_inj (by simpa [chars] using same)
      exact ⟨rfl, behind⟩
    | _ => simp [mark] at marks
  | .array [], other, level, rest, last, data, dataToo, _, _, same => by
    have marks := mark_eq data dataToo same
    cases other with
    | array others =>
      cases others with
      | nil => exact ⟨rfl, List.append_cancel_left same⟩
      | cons item others =>
        rw [isData, areData, Bool.and_eq_true] at dataToo
        exact absurd same (array_nil_ne dataToo.1)
    | _ => simp [mark] at marks
  | .array (item :: items), other, level, rest, last, data, dataToo, _, _, same => by
    have marks := mark_eq data dataToo same
    rw [isData, areData, Bool.and_eq_true] at data
    cases other with
    | array others =>
      cases others with
      | nil => exact absurd same.symm (array_nil_ne data.1)
      | cons itemToo others =>
        rw [isData, areData, Bool.and_eq_true] at dataToo
        simp only [chars, List.cons_append, List.append_assoc, List.cons.injEq, true_and,
          List.append_cancel_left_eq] at same
        obtain ⟨rfl, behind⟩ := chars_append_inj spacing item data.1 dataToo.1
          (endsNumber_itemChars spacing level items rest) (endsNumber_itemChars spacing level others last) same
        obtain ⟨rfl, rests⟩ := itemChars_append_inj spacing items data.2 dataToo.2 behind
        exact ⟨rfl, rests⟩
    | _ => simp [mark] at marks
  | .object [], other, level, rest, last, data, dataToo, _, _, same => by
    have marks := mark_eq data dataToo same
    cases other with
    | object others =>
      cases others with
      | nil => exact ⟨rfl, List.append_cancel_left same⟩
      | cons member others => exact absurd same object_nil_ne
    | _ => simp [mark] at marks
  | .object ((key, value) :: members), other, level, rest, last, data, dataToo, _, _, same => by
    have marks := mark_eq data dataToo same
    rw [isData, memberData, Bool.and_eq_true] at data
    cases other with
    | object others =>
      cases others with
      | nil => exact absurd same.symm object_nil_ne
      | cons member others =>
        obtain ⟨keyToo, valueToo⟩ := member
        rw [isData, memberData, Bool.and_eq_true] at dataToo
        simp only [chars, List.cons_append, List.append_assoc, List.cons.injEq, true_and,
          List.append_cancel_left_eq] at same
        obtain ⟨rfl, behindKey⟩ := quoted_append_inj same
        obtain ⟨rfl, behind⟩ := chars_append_inj spacing value data.1 dataToo.1
          (endsNumber_memberChars spacing level members rest) (endsNumber_memberChars spacing level others last)
          (List.append_cancel_left behindKey)
        obtain ⟨rfl, rests⟩ := memberChars_append_inj spacing members data.2 dataToo.2 behind
        exact ⟨rfl, rests⟩
    | _ => simp [mark] at marks

theorem itemChars_append_inj (spacing : Nat) : ∀ (items : List Json) {others : List Json} {level : Nat}
    {rest last : List Char}, areData items = true → areData others = true →
    itemChars spacing level items ++ rest = itemChars spacing level others ++ last → items = others ∧ rest = last
  | [], [], level, rest, last, _, _, same => ⟨rfl, List.append_cancel_left same⟩
  | [], _ :: _, _, _, _, _, _, same => absurd same itemChars_nil_ne
  | _ :: _, [], _, _, _, _, _, same => absurd same.symm itemChars_nil_ne
  | item :: items, itemToo :: others, level, rest, last, data, dataToo, same => by
    rw [areData, Bool.and_eq_true] at data dataToo
    simp only [itemChars, List.cons_append, List.append_assoc, List.cons.injEq, true_and,
      List.append_cancel_left_eq] at same
    obtain ⟨rfl, behind⟩ := chars_append_inj spacing item data.1 dataToo.1
      (endsNumber_itemChars spacing level items rest) (endsNumber_itemChars spacing level others last) same
    obtain ⟨rfl, rests⟩ := itemChars_append_inj spacing items data.2 dataToo.2 behind
    exact ⟨rfl, rests⟩

theorem memberChars_append_inj (spacing : Nat) : ∀ (members : List (String × Json)) {others : List (String × Json)}
    {level : Nat} {rest last : List Char}, memberData members = true → memberData others = true →
    memberChars spacing level members ++ rest = memberChars spacing level others ++ last →
      members = others ∧ rest = last
  | [], [], level, rest, last, _, _, same => ⟨rfl, List.append_cancel_left same⟩
  | [], _ :: _, _, _, _, _, _, same => absurd same memberChars_nil_ne
  | _ :: _, [], _, _, _, _, _, same => absurd same.symm memberChars_nil_ne
  | (key, value) :: members, (keyToo, valueToo) :: others, level, rest, last, data, dataToo, same => by
    rw [memberData, Bool.and_eq_true] at data dataToo
    simp only [memberChars, List.cons_append, List.append_assoc, List.cons.injEq, true_and,
      List.append_cancel_left_eq] at same
    obtain ⟨rfl, behindKey⟩ := quoted_append_inj same
    obtain ⟨rfl, behind⟩ := chars_append_inj spacing value data.1 dataToo.1
      (endsNumber_memberChars spacing level members rest) (endsNumber_memberChars spacing level others last)
      (List.append_cancel_left behindKey)
    obtain ⟨rfl, rests⟩ := memberChars_append_inj spacing members data.2 dataToo.2 behind
    exact ⟨rfl, rests⟩

end

/-- A written value is told by its text, in every layout. -/
theorem write_inj {spacing : Nat} {value other : Json} (data : isData value = true) (dataToo : isData other = true) :
    value.write spacing = other.write spacing ↔ value = other := by
  refine ⟨fun same => ?_, fun same => by rw [same]⟩
  have ends : EndsNumber [] := fun c first => by simp at first
  rw [write, write, String.ofList_inj, ← List.append_nil (chars spacing 0 value),
    ← List.append_nil (chars spacing 0 other)] at same
  exact (chars_append_inj spacing value data dataToo ends ends same).1

end ContractBuild.Json
