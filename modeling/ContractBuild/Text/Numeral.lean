/-!
Natural numbers in decimal. `read?` accepts an optional plus sign and leading zeros and gives
the value; `digits` writes the shortest form, which reads back.
-/
namespace ContractBuild.Text.Numeral

def digitOf (n : Nat) : Char :=
  Char.ofNat (n + 48)

def isDigit (c : Char) : Bool :=
  48 ≤ c.toNat && c.toNat ≤ 57

def digitValue (c : Char) : Nat :=
  c.toNat - 48

/-- The decimal digits of a number, most significant first. -/
def digits (n : Nat) : List Char :=
  if n < 10 then [digitOf n] else digits (n / 10) ++ [digitOf (n % 10)]
termination_by n

def render (n : Nat) : String :=
  String.ofList (digits n)

/-- The value of a run of digits read after `start`. -/
def accumulate (start : Nat) (text : List Char) : Nat :=
  text.foldl (fun value c => value * 10 + digitValue c) start

/-- The value of a nonempty run of digits. -/
def readDigits? (text : List Char) : Option Nat :=
  if text.isEmpty || !text.all isDigit then none else some (accumulate 0 text)

/-- Reads a numeral with an optional plus sign. -/
def read? : List Char → Option Nat
  | '+' :: text => readDigits? text
  | text => readDigits? text

/-- Reads a numeral whose value is at most `limit`. -/
def readUpTo? (limit : Nat) (text : List Char) : Option Nat :=
  (read? text).filter (· ≤ limit)

/-- The largest value of a machine word. -/
def wordMax : Nat := UInt64.size - 1

theorem isDigit_digitOf {n : Nat} (small : n < 10) : isDigit (digitOf n) = true := by
  have : ∀ m : Fin 10, isDigit (digitOf m) = true := by decide
  exact this ⟨n, small⟩

theorem digitValue_digitOf {n : Nat} (small : n < 10) : digitValue (digitOf n) = n := by
  have : ∀ m : Fin 10, digitValue (digitOf m) = m := by decide
  exact this ⟨n, small⟩

theorem digits_ne_nil (n : Nat) : digits n ≠ [] := by
  rw [digits]; split <;> simp

theorem all_isDigit_digits (n : Nat) : (digits n).all isDigit = true := by
  induction n using Nat.strongRecOn with
  | ind n ih =>
    rw [digits]
    split
    · next small => simp [isDigit_digitOf small]
    · next large =>
      simp [ih (n / 10) (by omega), isDigit_digitOf (Nat.mod_lt n (by decide : 0 < 10))]

theorem accumulate_append (start : Nat) (left right : List Char) :
    accumulate start (left ++ right) = accumulate (accumulate start left) right :=
  List.foldl_append

theorem accumulate_digits (n : Nat) : accumulate 0 (digits n) = n := by
  induction n using Nat.strongRecOn with
  | ind n ih =>
    rw [digits]
    split
    · next small =>
      simp only [accumulate, List.foldl_cons, List.foldl_nil, digitValue_digitOf small]
      omega
    · next large =>
      rw [accumulate_append, ih (n / 10) (by omega)]
      simp only [accumulate, List.foldl_cons, List.foldl_nil,
        digitValue_digitOf (Nat.mod_lt n (by decide : 0 < 10))]
      omega

theorem readDigits?_digits (n : Nat) : readDigits? (digits n) = some n := by
  simp [readDigits?, digits_ne_nil, all_isDigit_digits, accumulate_digits]

end ContractBuild.Text.Numeral
