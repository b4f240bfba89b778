/-!
Reading bytes as UTF-8 where they need not be. Every longest beginning of a character that goes
wrong, and every byte that begins none, is read as one replacement character.
-/
namespace ContractBuild.Text.Lossy

/-- What the first byte of a character of several bytes says: how many bytes follow, between
which bounds the first of them lies, and its own part of the character. -/
structure Lead where
  following : Nat
  low : UInt8
  high : UInt8
  value : Nat
  deriving DecidableEq

def lead? (byte : UInt8) : Option Lead :=
  let part (mask : UInt8) : Nat := (byte &&& mask).toNat
  if byte < 0x80 then some ⟨0, 0x80, 0xBF, byte.toNat⟩
  else if byte < 0xC2 then none
  else if byte < 0xE0 then some ⟨1, 0x80, 0xBF, part 0x1F⟩
  else if byte = 0xE0 then some ⟨2, 0xA0, 0xBF, 0⟩
  else if byte = 0xED then some ⟨2, 0x80, 0x9F, 0xD⟩
  else if byte < 0xF0 then some ⟨2, 0x80, 0xBF, part 0x0F⟩
  else if byte = 0xF0 then some ⟨3, 0x90, 0xBF, 0⟩
  else if byte < 0xF4 then some ⟨3, 0x80, 0xBF, part 0x07⟩
  else if byte = 0xF4 then some ⟨3, 0x80, 0x8F, 4⟩
  else none

/-- The bytes at the front that can go on with a character, `following` of them at most. -/
def continuation (low high : UInt8) : (following : Nat) → List UInt8 → List UInt8
  | following + 1, byte :: bytes =>
    if low ≤ byte ∧ byte ≤ high then byte :: continuation 0x80 0xBF following bytes else []
  | _, _ => []

def replacement : Char := '\uFFFD'

def character (lead : Lead) (bytes : List UInt8) : Char :=
  if bytes.length = lead.following then
    Char.ofNat (bytes.foldl (fun value byte => value * 64 + (byte &&& 0x3F).toNat) lead.value)
  else replacement

def decodeBytes : List UInt8 → List Char
  | [] => []
  | byte :: bytes =>
    match lead? byte with
    | none => replacement :: decodeBytes bytes
    | some lead =>
      let found := continuation lead.low lead.high lead.following bytes
      character lead found :: decodeBytes (bytes.drop found.length)
termination_by bytes => bytes.length
decreasing_by all_goals simp; try omega

/-- The text that bytes stand for. -/
def decode (content : ByteArray) : String :=
  String.ofList (decodeBytes content.data.toList)

end ContractBuild.Text.Lossy
