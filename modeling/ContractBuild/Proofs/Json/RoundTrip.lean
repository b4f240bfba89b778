import ContractBuild.Json.Reader
import Mathlib.Data.List.TakeWhile

/-!
Reading what was written. Whatever the layout, a written value is read back as it was, apart from
what lies deeper than the limit of nesting and from numbers beyond a machine word.
-/
namespace ContractBuild.Json
open Text

/-! Strings -/

theorem hexValue?_hexDigitOf {n : Nat} (small : n < 16) : hexValue? (hexDigitOf n) = some n := by
  have all : ∀ m : Fin 16, hexValue? (hexDigitOf m) = some m.val := by decide
  exact all ⟨n, small⟩

theorem escaped_ne_nil (c : Char) : escaped c ≠ [] := by
  unfold escaped
  split
  all_goals first | (exact List.cons_ne_nil _ _) | (split <;> exact List.cons_ne_nil _ _)

private theorem unicodeEscape?_control {c : Char} (control : c.toNat < 0x20) (rest : List Char) :
    unicodeEscape? ('0' :: '0' :: hexDigitOf (c.toNat / 16) :: hexDigitOf (c.toNat % 16) :: rest) =
      some (.whole c, rest) := by
  have zero : hexValue? '0' = some 0 := by decide
  have unit : hexUnit? ('0' :: '0' :: hexDigitOf (c.toNat / 16) :: hexDigitOf (c.toNat % 16) :: rest) =
      some (c.toNat, rest) := by
    rw [hexUnit?, zero, hexValue?_hexDigitOf (by omega), hexValue?_hexDigitOf (by omega)]
    simp only [bind, Option.bind]
    congr 2
    omega
  rw [unicodeEscape?, unit]
  have notLow : ¬ 0xDC00 ≤ c.toNat := by omega
  have notHigh : ¬ 0xD800 ≤ c.toNat := by omega
  simp [notLow, notHigh]

theorem scanString?_escaped (c : Char) (fuel : Nat) (rest : List Char) :
    scanString? (fuel + 1) (escaped c ++ rest) =
      (scanString? fuel rest).map fun (tail, rest) => (tail.map (c :: ·), rest) := by
  unfold escaped
  split
  case h_8 notQuote notSlash _ _ _ _ _ =>
    split
    · next control =>
      simp only [List.cons_append, List.nil_append]
      rw [scanString?, unicodeEscape?_control control]
      simp only [bind, Option.bind]
      cases scanString? fuel rest <;> rfl
    · next shown =>
      rw [List.singleton_append, scanString?.eq_def]
      dsimp only
      split
      · next same => cases same
      · next same => exact absurd (List.cons.inj same).1 notQuote
      · next same => exact absurd (List.cons.inj same).1 notSlash
      · next same => exact absurd (List.cons.inj same).1 notSlash
      · next same =>
        cases same
        rw [if_neg shown]
        cases scanString? fuel rest <;> rfl
  all_goals
    simp only [List.cons_append, List.nil_append]
    rw [scanString?]
    · simp only [plainEscape?, bind, Option.bind]
      cases scanString? fuel rest <;> rfl
    · decide

theorem scanString?_chars {text : List Char} {fuel : Nat} (enough : text.length < fuel)
    (rest : List Char) :
    scanString? fuel (text.flatMap escaped ++ '"' :: rest) = some (some text, rest) := by
  induction text generalizing fuel with
  | nil =>
    obtain ⟨fuel, rfl⟩ := Nat.exists_eq_succ_of_ne_zero (Nat.ne_of_gt enough)
    rfl
  | cons c text ih =>
    obtain ⟨fuel, rfl⟩ := Nat.exists_eq_succ_of_ne_zero (Nat.ne_of_gt (Nat.zero_lt_of_lt enough))
    rw [List.flatMap_cons, List.append_assoc, scanString?_escaped,
      ih (by simpa using enough)]
    rfl

theorem length_le_flatMap_escaped (text : List Char) :
    text.length ≤ (text.flatMap escaped).length := by
  induction text with
  | nil => exact Nat.le_refl 0
  | cons c text ih =>
    have some : 0 < (escaped c).length := List.length_pos_iff.2 (escaped_ne_nil c)
    rw [List.flatMap_cons, List.length_append, List.length_cons]
    omega

/-- A quoted text after its opening quote. -/
theorem scanString?_quoted (text : String) (rest : List Char) :
    scanString? ((text.toList.flatMap escaped ++ '"' :: rest).length + 1)
      (text.toList.flatMap escaped ++ '"' :: rest) = some (some text.toList, rest) := by
  refine scanString?_chars ?_ rest
  have shorter := length_le_flatMap_escaped text.toList
  rw [List.length_append]
  omega

/-! Numbers -/

def EndsNumber (rest : List Char) : Prop :=
  ∀ c ∈ rest.head?, Numeral.isDigit c = false ∧ c ≠ '.' ∧ c ≠ 'e' ∧ c ≠ 'E'

theorem endsNumber_cons {c : Char} (ends : Numeral.isDigit c = false ∧ c ≠ '.' ∧ c ≠ 'e' ∧ c ≠ 'E')
    (rest : List Char) : EndsNumber (c :: rest) := by
  intro other same
  cases Option.some.inj same
  exact ends

theorem takeDigits_append {digits rest : List Char} (all : digits.all Numeral.isDigit = true)
    (ends : EndsNumber rest) : takeDigits (digits ++ rest) = (digits, rest) := by
  have stops : rest.takeWhile Numeral.isDigit = [] ∧ rest.dropWhile Numeral.isDigit = rest := by
    cases rest with
    | nil => exact ⟨rfl, rfl⟩
    | cons c rest =>
      have notDigit := (ends c rfl).1
      simp [List.takeWhile, List.dropWhile, notDigit]
  have inside : ∀ c ∈ digits, Numeral.isDigit c = true := List.all_eq_true.1 all
  rw [takeDigits, List.takeWhile_append_of_pos inside, List.dropWhile_append_of_pos inside, stops.1,
    stops.2, List.append_nil]

theorem scanFraction?_of_endsNumber {rest : List Char} (ends : EndsNumber rest) :
    scanFraction? rest = some (none, rest) := by
  cases rest with
  | nil => rfl
  | cons c rest =>
    have notPoint := (ends c rfl).2.1
    rw [scanFraction?.eq_def]
    split
    · next same => exact absurd (List.cons.inj same).1 notPoint
    · rfl

theorem scanExponent?_of_endsNumber {rest : List Char} (ends : EndsNumber rest) :
    scanExponent? rest = some (none, rest) := by
  cases rest with
  | nil => rfl
  | cons c rest =>
    obtain ⟨_, _, notLower, notUpper⟩ := ends c rfl
    simp [scanExponent?, notLower, notUpper]

/-- A numeral does not begin with a zero unless it is one. -/
theorem digits_of_head_zero {n : Nat} {rest : List Char} (digits : Numeral.digits n = '0' :: rest) :
    rest = [] := by
  have value := Numeral.accumulate_digits n
  induction n using Nat.strongRecOn generalizing rest with
  | ind n ih =>
    rw [Numeral.digits] at digits
    split at digits
    · exact (List.cons.inj digits).2.symm
    · next large =>
      cases front : Numeral.digits (n / 10) with
      | nil => exact absurd front (Numeral.digits_ne_nil _)
      | cons c others =>
        rw [front, List.cons_append] at digits
        obtain ⟨rfl, _⟩ := List.cons.inj digits
        have none := ih (n / 10) (by omega) front (Numeral.accumulate_digits _)
        subst none
        have zero := Numeral.accumulate_digits (n / 10)
        rw [front] at zero
        have : n / 10 = 0 := zero.symm
        omega

def naturalLiteral (n : Nat) : Literal :=
  ⟨false, Numeral.digits n, [], 0, true⟩

theorem isDigit_head_digits (n : Nat) :
    ∃ c rest, Numeral.digits n = c :: rest ∧ Numeral.isDigit c = true := by
  obtain ⟨c, rest, same⟩ := List.exists_cons_of_ne_nil (Numeral.digits_ne_nil n)
  have all := Numeral.all_isDigit_digits n
  rw [same, List.all_cons, Bool.and_eq_true] at all
  exact ⟨c, rest, same, all.1⟩

theorem scanLiteral?_digits (n : Nat) {rest : List Char} (ends : EndsNumber rest) :
    scanLiteral? (Numeral.digits n ++ rest) = some (naturalLiteral n, rest) := by
  obtain ⟨c, others, same, isDigit⟩ := isDigit_head_digits n
  have notMinus : c ≠ '-' := by
    rintro rfl
    cases isDigit
  have split := takeDigits_append (Numeral.all_isDigit_digits n) ends
  rw [same, List.cons_append] at split ⊢
  unfold scanLiteral?
  split
  next negative text sign =>
  split at sign
  · next minus => exact absurd (List.cons.inj minus).1 notMinus
  cases sign
  rw [split]
  dsimp only
  split
  · next none => cases none
  · next zero =>
    rw [← same] at zero
    cases digits_of_head_zero zero
  · rw [scanFraction?_of_endsNumber ends]
    simp only [bind, Option.bind, scanExponent?_of_endsNumber ends]
    rw [naturalLiteral, same]
    rfl

/-! Values -/

mutual

def isData : Json → Bool
  | decimal _ | unreadable => false
  | array items => areData items
  | object members => memberData members
  | _ => true

def areData : List Json → Bool
  | [] => true
  | item :: items => isData item && areData items

def memberData : List (String × Json) → Bool
  | [] => true
  | (_, value) :: members => isData value && memberData members

end

mutual

def clip (room : Nat) : Json → Json
  | natural n => (naturalLiteral n).toJson (Numeral.digits n)
  | array items => arrayIn room (clipItems (room - 1) items)
  | object members =>
    objectIn room ((clipMembers (room - 1) members).map fun (key, value) => (some key, value))
  | value => value

def clipItems (room : Nat) : List Json → List Json
  | [] => []
  | item :: items => clip room item :: clipItems room items

def clipMembers (room : Nat) : List (String × Json) → List (String × Json)
  | [] => []
  | (key, value) :: members => (key, clip room value) :: clipMembers room members

end

mutual

def weight : Json → Nat
  | array items => 1 + itemWeight items
  | object members => 1 + memberWeight members
  | _ => 1

def itemWeight : List Json → Nat
  | [] => 0
  | item :: items => 1 + weight item + itemWeight items

def memberWeight : List (String × Json) → Nat
  | [] => 0
  | (_, value) :: members => 1 + weight value + memberWeight members

end

theorem skipSpace_lineBreak (spacing level : Nat) {c : Char} (shown : isSpace c = false)
    (rest : List Char) : skipSpace (lineBreak spacing level ++ c :: rest) = c :: rest := by
  have here : skipSpace (c :: rest) = c :: rest := by
    simp [skipSpace, shown]
  unfold lineBreak
  split
  · exact here
  · have blanks : ∀ count, skipSpace (List.replicate count ' ' ++ c :: rest) = c :: rest := by
      intro count
      induction count with
      | zero => exact here
      | succ count ih => exact ih
    exact blanks _

theorem skipSpace_of_shown {c : Char} (shown : isSpace c = false) (rest : List Char) :
    skipSpace (c :: rest) = c :: rest :=
  skipSpace_lineBreak 0 0 shown rest

/-- A written value begins with a character that neither is blank nor closes an array or an
object. -/
theorem chars_head (spacing level : Nat) {value : Json} (data : isData value = true) :
    ∃ c rest, chars spacing level value = c :: rest ∧ isSpace c = false ∧ c ≠ ']' ∧ c ≠ '\x7d' := by
  cases value with
  | null => exact ⟨'n', _, rfl, by decide⟩
  | bool flag => cases flag <;> exact ⟨_, _, rfl, by decide⟩
  | natural n =>
    obtain ⟨c, rest, same, isDigit⟩ := isDigit_head_digits n
    refine ⟨c, rest, same, ?_, ?_, ?_⟩
    · cases space : isSpace c with
      | false => rfl
      | true =>
        simp only [isSpace, Bool.or_eq_true, decide_eq_true_eq] at space
        rcases space with ((rfl | rfl) | rfl) | rfl <;> cases isDigit
    · rintro rfl
      cases isDigit
    · rintro rfl
      cases isDigit
  | decimal literal => cases data
  | string text => exact ⟨'"', _, rfl, by decide⟩
  | array items => cases items <;> exact ⟨'[', _, rfl, by decide⟩
  | object members => cases members <;> exact ⟨'\x7b', _, rfl, by decide⟩
  | unreadable => cases data

def itemRun (spacing level : Nat) : List Json → List Char
  | [] => []
  | item :: items => chars spacing (level + 1) item ++ itemChars spacing level items

def memberRun (spacing level : Nat) : List (String × Json) → List Char
  | [] => []
  | (key, value) :: members =>
    quoted key ++ colon spacing ++ chars spacing (level + 1) value ++ memberChars spacing level members

theorem skipSpace_itemChars (spacing level : Nat) (items : List Json) (rest : List Char) :
    skipSpace (itemChars spacing level items ++ rest) =
      match items with
      | [] => ']' :: rest
      | item :: items =>
        ',' :: lineBreak spacing (level + 1) ++ itemRun spacing level (item :: items) ++ rest := by
  cases items with
  | nil =>
    rw [itemChars, List.append_assoc]
    exact skipSpace_lineBreak spacing level (by decide) rest
  | cons item items =>
    simp only [itemChars, itemRun, List.cons_append, List.append_assoc]
    exact skipSpace_of_shown (by decide) _

theorem skipSpace_memberChars (spacing level : Nat) (members : List (String × Json))
    (rest : List Char) :
    skipSpace (memberChars spacing level members ++ rest) =
      match members with
      | [] => '\x7d' :: rest
      | member :: members =>
        ',' :: lineBreak spacing (level + 1) ++ memberRun spacing level (member :: members) ++ rest := by
  cases members with
  | nil =>
    rw [memberChars, List.append_assoc]
    exact skipSpace_lineBreak spacing level (by decide) rest
  | cons member members =>
    obtain ⟨key, value⟩ := member
    simp only [memberChars, memberRun, List.cons_append, List.append_assoc]
    exact skipSpace_of_shown (by decide) _

theorem endsNumber_lineBreak (spacing level : Nat) {c : Char}
    (ends : Numeral.isDigit c = false ∧ c ≠ '.' ∧ c ≠ 'e' ∧ c ≠ 'E') (rest : List Char) :
    EndsNumber (lineBreak spacing level ++ c :: rest) := by
  unfold lineBreak
  split
  · exact endsNumber_cons ends rest
  · exact endsNumber_cons (by decide) _

theorem endsNumber_itemChars (spacing level : Nat) (items : List Json) (rest : List Char) :
    EndsNumber (itemChars spacing level items ++ rest) := by
  cases items with
  | nil =>
    rw [itemChars, List.append_assoc]
    exact endsNumber_lineBreak spacing level (by decide) rest
  | cons item items =>
    rw [itemChars]
    simp only [List.cons_append]
    exact endsNumber_cons (by decide) _

theorem endsNumber_memberChars (spacing level : Nat) (members : List (String × Json))
    (rest : List Char) : EndsNumber (memberChars spacing level members ++ rest) := by
  cases members with
  | nil =>
    rw [memberChars, List.append_assoc]
    exact endsNumber_lineBreak spacing level (by decide) rest
  | cons member members =>
    obtain ⟨key, value⟩ := member
    rw [memberChars]
    simp only [List.cons_append]
    exact endsNumber_cons (by decide) _

theorem scanValue?_natural (n fuel room : Nat) {rest : List Char} (ends : EndsNumber rest) :
    scanValue? (fuel + 1) room (Numeral.digits n ++ rest) =
      some ((naturalLiteral n).toJson (Numeral.digits n), rest) := by
  obtain ⟨c, others, same, isDigit⟩ := isDigit_head_digits n
  have scanned := scanLiteral?_digits n ends
  rw [same, List.cons_append] at scanned ⊢
  rw [scanValue?.eq_def]
  dsimp only
  split
  · next quote =>
    cases (List.cons.inj quote).1
    cases isDigit
  · next bracket =>
    cases (List.cons.inj bracket).1
    cases isDigit
  · next brace =>
    cases (List.cons.inj brace).1
    cases isDigit
  · next first tail shape =>
    obtain ⟨rfl, rfl⟩ := List.cons.inj shape
    rw [isDigit, Bool.or_true, if_pos rfl, scanned]
    have written : (c :: (others ++ rest)).take ((others ++ rest).length + 1 - rest.length) =
        c :: others := by
      have size : (others ++ rest).length + 1 - rest.length = (c :: others).length := by
        rw [List.length_append, List.length_cons]
        omega
      rw [size, ← List.cons_append]
      exact List.take_left
    simp only [bind, Option.bind, written]
  · next none => cases none

theorem scanString?_key (key : String) (rest : List Char) :
    scanString? ((key.toList.flatMap escaped ++ ['"'] ++ rest).length + 1)
      (key.toList.flatMap escaped ++ ['"'] ++ rest) = some (some key.toList, rest) := by
  rw [List.append_assoc]
  exact scanString?_quoted key rest

theorem objectIn_keys (room : Nat) (members : List (String × Json)) :
    objectIn room (members.map fun (key, value) => (some key, value)) =
      if room = 0 then unreadable else object members := by
  unfold objectIn
  generalize taken : List.mapM (m := Option) _ (members.map _) = read
  have keys : read = some members := by
    induction members generalizing read with
    | nil => exact taken.symm
    | cons member members ih =>
      rw [List.map_cons, List.mapM_cons, ih _ rfl] at taken
      exact taken.symm
  rw [keys]

mutual

/-- A written value is read back, and what follows it is left. -/
theorem scanValue?_chars (spacing level : Nat) : ∀ (value : Json) {fuel room : Nat}
    {rest : List Char}, isData value = true → weight value ≤ fuel → EndsNumber rest →
    scanValue? fuel room (chars spacing level value ++ rest) = some (clip room value, rest)
  | .decimal _, _, _, _, data, _, _ | .unreadable, _, _, _, data, _, _ => by cases data
  | .null, 0, _, _, _, enough, _ | .bool _, 0, _, _, _, enough, _ | .natural _, 0, _, _, _, enough, _
  | .string _, 0, _, _, _, enough, _ | .array _, 0, _, _, _, enough, _
  | .object _, 0, _, _, _, enough, _ => by
    simp only [weight] at enough
    omega
  | .null, _ + 1, _, _, _, _, _ | .bool true, _ + 1, _, _, _, _, _
  | .bool false, _ + 1, _, _, _, _, _ => by
    simp only [chars, clip]
    rfl
  | .natural n, fuel + 1, room, rest, _, _, ends => by
    simp only [chars, clip]
    exact scanValue?_natural n fuel room ends
  | .string text, fuel + 1, room, rest, _, _, _ => by
    simp only [chars, clip, quoted, List.cons_append, scanValue?]
    rw [scanString?_key]
    simp only [bind, Option.bind, String.ofList_toList]
  | .array [], fuel + 1, room, rest, _, _, _ => by
    simp only [chars, clip, clipItems]
    rfl
  | .array (item :: items), fuel + 1, room, rest, data, enough, _ => by
    simp only [isData] at data
    simp only [weight] at enough
    have inside : itemWeight (item :: items) ≤ fuel := by omega
    have run := scanItems?_run spacing level (item :: items) (room - 1) rest
      (List.cons_ne_nil _ _) data inside
    have first : isData item = true := by
      simp only [areData, Bool.and_eq_true] at data
      exact data.1
    obtain ⟨c, others, same, shown, notBracket, _⟩ := chars_head spacing (level + 1) first
    rw [itemRun, same] at run
    simp only [chars, clip, same]
    simp only [List.cons_append, List.append_assoc] at run ⊢
    rw [scanValue?, skipSpace_lineBreak _ _ shown]
    split
    · next bracket => exact absurd (List.cons.inj bracket).1 notBracket
    · rw [run]
      rfl
  | .object [], fuel + 1, room, rest, _, _, _ => by
    simp only [chars, clip, clipMembers]
    rfl
  | .object ((key, value) :: members), fuel + 1, room, rest, data, enough, _ => by
    simp only [isData] at data
    simp only [weight] at enough
    have inside : memberWeight ((key, value) :: members) ≤ fuel := by omega
    have run := scanMembers?_run spacing level ((key, value) :: members) (room - 1) rest
      (List.cons_ne_nil _ _) data inside
    rw [memberRun, quoted] at run
    simp only [chars, clip, quoted]
    simp only [List.cons_append, List.append_assoc] at run ⊢
    rw [scanValue?, skipSpace_lineBreak _ _ (by decide)]
    split
    · next brace => exact absurd (List.cons.inj brace).1 (by decide)
    · rw [run]
      rfl

theorem scanItems?_run (spacing level : Nat) : ∀ (items : List Json) {fuel : Nat} (room : Nat)
    (rest : List Char), items ≠ [] → areData items = true → itemWeight items ≤ fuel →
    scanItems? fuel room (itemRun spacing level items ++ rest) = some (clipItems room items, rest)
  | [], _, _, _, nonempty, _, _ => absurd rfl nonempty
  | item :: items, 0, _, _, _, _, enough => by
    simp only [itemWeight] at enough
    omega
  | item :: items, fuel + 1, room, rest, _, data, enough => by
    simp only [areData, Bool.and_eq_true] at data
    simp only [itemWeight] at enough
    have inside : weight item ≤ fuel := by omega
    have behind : itemWeight items ≤ fuel := by omega
    have value : scanValue? fuel room _ = _ := scanValue?_chars spacing (level + 1) item data.1 inside
      (endsNumber_itemChars spacing level items rest)
    rw [itemRun, List.append_assoc, scanItems?, value]
    simp only [bind, Option.bind]
    rw [skipSpace_itemChars]
    cases items with
    | nil => rfl
    | cons next others =>
      have run := scanItems?_run spacing level (next :: others) room rest
        (List.cons_ne_nil _ _) data.2 behind
      have first : isData next = true := by
        have both := data.2
        simp only [areData, Bool.and_eq_true] at both
        exact both.1
      obtain ⟨c, tail, same, shown, _⟩ := chars_head spacing (level + 1) first
      rw [itemRun, same] at run
      simp only [itemRun, same]
      simp only [List.cons_append, List.append_assoc] at run ⊢
      rw [skipSpace_lineBreak _ _ shown, run]
      rfl

theorem scanMembers?_run (spacing level : Nat) : ∀ (members : List (String × Json)) {fuel : Nat}
    (room : Nat) (rest : List Char), members ≠ [] → memberData members = true →
    memberWeight members ≤ fuel →
    scanMembers? fuel room (memberRun spacing level members ++ rest) =
      some ((clipMembers room members).map fun (key, value) => (some key, value), rest)
  | [], _, _, _, nonempty, _, _ => absurd rfl nonempty
  | (key, value) :: members, 0, _, _, _, _, enough => by
    simp only [memberWeight] at enough
    omega
  | (key, value) :: members, fuel + 1, room, rest, _, data, enough => by
    simp only [memberData, Bool.and_eq_true] at data
    simp only [memberWeight] at enough
    have inside : weight value ≤ fuel := by omega
    have behind : memberWeight members ≤ fuel := by omega
    have read : scanValue? fuel room _ = _ := scanValue?_chars spacing (level + 1) value data.1 inside
      (endsNumber_memberChars spacing level members rest)
    obtain ⟨c, tail, same, shown, _⟩ := chars_head spacing (level + 1) data.1
    rw [same] at read
    have named := scanString?_quoted key
      (colon spacing ++ (c :: (tail ++ (memberChars spacing level members ++ rest))))
    have colons : skipSpace (colon spacing ++ (c :: (tail ++ (memberChars spacing level members ++ rest)))) =
        colon spacing ++ (c :: (tail ++ (memberChars spacing level members ++ rest))) := by
      unfold colon
      split <;> exact skipSpace_of_shown (by decide) _
    have behindColon : ∃ blanks, colon spacing = ':' :: blanks ∧
        skipSpace (blanks ++ c :: (tail ++ (memberChars spacing level members ++ rest))) =
          c :: (tail ++ (memberChars spacing level members ++ rest)) := by
      unfold colon
      split
      · exact ⟨[], rfl, skipSpace_of_shown shown _⟩
      · exact ⟨[' '], rfl, skipSpace_of_shown shown _⟩
    obtain ⟨blanks, colonText, gap⟩ := behindColon
    rw [colonText] at named colons
    simp only [memberRun, quoted, colonText, same]
    simp only [List.cons_append, List.nil_append, List.append_assoc] at named colons gap read ⊢
    rw [scanMembers?, named]
    simp only [bind, Option.bind]
    rw [colons]
    simp only
    rw [gap, read]
    simp only
    rw [skipSpace_memberChars]
    cases members with
    | nil => simp [clipMembers]
    | cons member others =>
      obtain ⟨nextKey, nextValue⟩ := member
      have run := scanMembers?_run spacing level ((nextKey, nextValue) :: others) room rest
        (List.cons_ne_nil _ _) data.2 behind
      simp only [memberRun, quoted] at run ⊢
      simp only [List.cons_append, List.append_assoc] at run ⊢
      rw [skipSpace_lineBreak _ _ (by decide), run]
      simp [clipMembers]

end

mutual

/-- A text has room for the fuel that reading it takes. -/
theorem weight_le_length (spacing level : Nat) : ∀ {value : Json}, isData value = true →
    weight value ≤ 2 * (chars spacing level value).length
  | .decimal _, data | .unreadable, data => by cases data
  | .null, _ | .bool true, _ | .bool false, _ => by
    simp only [weight, chars]
    decide
  | .natural n, _ => by
    have some : 0 < (Numeral.digits n).length := List.length_pos_iff.2 (Numeral.digits_ne_nil n)
    simp only [weight, chars]
    omega
  | .string text, _ => by
    simp only [weight, chars, quoted, List.length_cons, List.length_append]
    omega
  | .array [], _ => by
    simp only [weight, itemWeight, chars]
    decide
  | .array (item :: items), data => by
    simp only [isData, areData, Bool.and_eq_true] at data
    have first := weight_le_length spacing (level + 1) data.1
    have others := itemWeight_lt_length spacing level data.2
    simp only [weight, itemWeight, chars, List.length_cons, List.length_append]
    omega
  | .object [], _ => by
    simp only [weight, memberWeight, chars]
    decide
  | .object ((key, value) :: members), data => by
    simp only [isData, memberData, Bool.and_eq_true] at data
    have first := weight_le_length spacing (level + 1) data.1
    have others := memberWeight_lt_length spacing level data.2
    simp only [weight, memberWeight, chars, List.length_cons, List.length_append]
    omega

theorem itemWeight_lt_length (spacing level : Nat) : ∀ {items : List Json}, areData items = true →
    itemWeight items + 2 ≤ 2 * (itemChars spacing level items).length
  | [], _ => by
    simp only [itemWeight, itemChars, List.length_append, List.length_cons]
    omega
  | item :: items, data => by
    simp only [areData, Bool.and_eq_true] at data
    have first := weight_le_length spacing (level + 1) data.1
    have others := itemWeight_lt_length spacing level data.2
    simp only [itemWeight, itemChars, List.length_cons, List.length_append]
    omega

theorem memberWeight_lt_length (spacing level : Nat) : ∀ {members : List (String × Json)},
    memberData members = true →
    memberWeight members + 2 ≤ 2 * (memberChars spacing level members).length
  | [], _ => by
    simp only [memberWeight, memberChars, List.length_append, List.length_cons]
    omega
  | (key, value) :: members, data => by
    simp only [memberData, Bool.and_eq_true] at data
    have first := weight_le_length spacing (level + 1) data.1
    have others := memberWeight_lt_length spacing level data.2
    simp only [memberWeight, memberChars, List.length_cons, List.length_append]
    omega

end

/-- Reading a written value, with blanks behind it. -/
theorem scan?_write (spacing : Nat) {value : Json} (data : isData value = true) (blanks : String)
    (blank : blanks.toList.all isSpace = true) :
    scan? (value.write spacing ++ blanks) = some (clip depthLimit value) := by
  obtain ⟨c, others, same, shown, _⟩ := chars_head spacing 0 data
  have behind : skipSpace blanks.toList = [] := List.dropWhile_eq_nil_iff.2 (List.all_eq_true.1 blank)
  have ends : EndsNumber blanks.toList := by
    intro c first
    have space := List.all_eq_true.1 blank c (List.mem_of_mem_head? first)
    simp only [isSpace, Bool.or_eq_true, decide_eq_true_eq] at space
    rcases space with ((rfl | rfl) | rfl) | rfl <;> decide
  have front : skipSpace (value.write spacing ++ blanks).toList =
      chars spacing 0 value ++ blanks.toList := by
    rw [write, String.toList_append, String.toList_ofList, same]
    exact skipSpace_of_shown shown _
  have enough : weight value ≤ 2 * (chars spacing 0 value ++ blanks.toList).length + 2 := by
    have less := weight_le_length spacing 0 data
    rw [List.length_append]
    omega
  rw [scan?, front]
  simp only [scanValue?_chars spacing 0 value data enough ends, bind, Option.bind, behind]
  rfl

/-- Reading a text by its characters. The kernel takes characters out of a text in as many steps as the square of its
length, so a text that is known is read this way. -/
theorem read?_ofList (chars : List Char) : read? (String.ofList chars) =
    (((scanValue? (2 * (skipSpace chars).length + 2) depthLimit (skipSpace chars)).bind fun (value, rest) =>
      if (skipSpace rest).isEmpty then some value else none).filter isReadable).map lastWins := by
  rw [read?, scan?, String.toList_ofList]
  rfl

end ContractBuild.Json
