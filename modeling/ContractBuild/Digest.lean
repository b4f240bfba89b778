/-!
SHA-256 of a list of bytes, written in hexadecimal. The message is padded to whole blocks of
64 bytes and each block is folded into the eight chaining words. A word is the number that its 32
bits stand for.
-/
namespace ContractBuild.Digest

def roundConstants : List Nat := [
  0x428a2f98, 0x71374491, 0xb5c0fbcf, 0xe9b5dba5, 0x3956c25b, 0x59f111f1, 0x923f82a4, 0xab1c5ed5,
  0xd807aa98, 0x12835b01, 0x243185be, 0x550c7dc3, 0x72be5d74, 0x80deb1fe, 0x9bdc06a7, 0xc19bf174,
  0xe49b69c1, 0xefbe4786, 0x0fc19dc6, 0x240ca1cc, 0x2de92c6f, 0x4a7484aa, 0x5cb0a9dc, 0x76f988da,
  0x983e5152, 0xa831c66d, 0xb00327c8, 0xbf597fc7, 0xc6e00bf3, 0xd5a79147, 0x06ca6351, 0x14292967,
  0x27b70a85, 0x2e1b2138, 0x4d2c6dfc, 0x53380d13, 0x650a7354, 0x766a0abb, 0x81c2c92e, 0x92722c85,
  0xa2bfe8a1, 0xa81a664b, 0xc24b8b70, 0xc76c51a3, 0xd192e819, 0xd6990624, 0xf40e3585, 0x106aa070,
  0x19a4c116, 0x1e376c08, 0x2748774c, 0x34b0bcb5, 0x391c0cb3, 0x4ed8aa4a, 0x5b9cca4f, 0x682e6ff3,
  0x748f82ee, 0x78a5636f, 0x84c87814, 0x8cc70208, 0x90befffa, 0xa4506ceb, 0xbef9a3f7, 0xc67178f2]

/-- The eight chaining words. -/
structure Chain where
  a : Nat
  b : Nat
  c : Nat
  d : Nat
  e : Nat
  f : Nat
  g : Nat
  h : Nat

def Chain.start : Chain :=
  ⟨0x6a09e667, 0xbb67ae85, 0x3c6ef372, 0xa54ff53a, 0x510e527f, 0x9b05688c, 0x1f83d9ab, 0x5be0cd19⟩

def Chain.words (chain : Chain) : List Nat :=
  [chain.a, chain.b, chain.c, chain.d, chain.e, chain.f, chain.g, chain.h]

/-- The last 32 bits of a number. -/
def wrapped (n : Nat) : Nat :=
  n % 0x100000000

def rotated (word amount : Nat) : Nat :=
  (word >>> amount) ||| wrapped (word <<< (32 - amount))

def inverted (word : Nat) : Nat :=
  word ^^^ 0xffffffff

def round (chain : Chain) (input : Nat) : Chain :=
  let sum := rotated chain.e 6 ^^^ rotated chain.e 11 ^^^ rotated chain.e 25
  let choice := (chain.e &&& chain.f) ^^^ (inverted chain.e &&& chain.g)
  let first := chain.h + sum + choice + input
  let mixed := rotated chain.a 2 ^^^ rotated chain.a 13 ^^^ rotated chain.a 22
  let majority := (chain.a &&& chain.b) ^^^ (chain.a &&& chain.c) ^^^ (chain.b &&& chain.c)
  ⟨wrapped (first + mixed + majority), chain.a, chain.b, chain.c, wrapped (chain.d + first), chain.e,
    chain.f, chain.g⟩

/-- Adds the next word to a schedule, which has the last word in front. -/
def extend (schedule : List Nat) : List Nat :=
  let word (back : Nat) : Nat := schedule.getD (back - 1) 0
  let near := word 2
  let far := word 15
  let nearMix := rotated near 17 ^^^ rotated near 19 ^^^ (near >>> 10)
  let farMix := rotated far 7 ^^^ rotated far 18 ^^^ (far >>> 3)
  wrapped (word 16 + farMix + word 7 + nearMix) :: schedule

/-- The words that the bytes stand for, four bytes each. -/
def wordsOf : List UInt8 → List Nat
  | a :: b :: c :: d :: bytes =>
    ((a.toNat <<< 24) ||| (b.toNat <<< 16) ||| (c.toNat <<< 8) ||| d.toNat) :: wordsOf bytes
  | _ => []

def compress (chain : Chain) (block : List Nat) : Chain :=
  let schedule := ((List.range 48).foldl (fun words _ => extend words) block.reverse).reverse
  let after := (roundConstants.zip schedule).foldl
    (fun chain (constant, word) => round chain (constant + word)) chain
  ⟨wrapped (chain.a + after.a), wrapped (chain.b + after.b), wrapped (chain.c + after.c),
    wrapped (chain.d + after.d), wrapped (chain.e + after.e), wrapped (chain.f + after.f),
    wrapped (chain.g + after.g), wrapped (chain.h + after.h)⟩

def lengthBytes (size : Nat) : List UInt8 :=
  (List.range 8).map fun i => UInt8.ofNat ((8 * size) >>> (8 * (7 - i)))

/-- The message, a delimiter, the fewest zero bytes and the length in bits. -/
def padded (message : List UInt8) : List UInt8 :=
  let zeros := (119 - message.length % 64) % 64
  message ++ 0x80 :: (List.replicate zeros 0 ++ lengthBytes message.length)

def hexDigit (n : Nat) : Char :=
  if n < 10 then Char.ofNat (n + 48) else Char.ofNat (n + 87)

def hexWord (word : Nat) : List Char :=
  (List.range 8).map fun i => hexDigit ((word >>> (4 * (7 - i))) % 16)

/-- The digest as 64 lowercase hexadecimal digits. -/
def hexDigest (message : ByteArray) : String :=
  let words := wordsOf (padded message.data.toList)
  let chain := (List.range (words.length / 16)).foldl
    (fun chain i => compress chain ((words.drop (16 * i)).take 16)) Chain.start
  String.ofList (chain.words.flatMap hexWord)

end ContractBuild.Digest
