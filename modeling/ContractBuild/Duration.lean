import ContractBuild.Text
import ContractBuild.Text.Numeral
/-!
Spans of time and their short text: the largest unit that leaves a whole part, with as many
decimals as the value needs.
-/
namespace ContractBuild
open Text

structure Duration where
  nanoseconds : Nat
  deriving DecidableEq

namespace Duration

def ofSeconds (seconds : Nat) : Duration :=
  ⟨seconds * 1000000000⟩

def ofMilliseconds (milliseconds : Nat) : Duration :=
  ⟨milliseconds * 1000000⟩

/-- A remainder below `10 ^ places` behind a point, without zeros at the end. -/
def decimals (places remainder : Nat) : List Char :=
  let digits := Numeral.digits remainder
  let padded := List.replicate (places - digits.length) '0' ++ digits
  match (padded.reverse.dropWhile (· = '0')).reverse with
  | [] => []
  | kept => '.' :: kept

def inUnit (places : Nat) (unit : String) (amount : Nat) : String :=
  let whole := Nat.pow 10 places
  String.ofList (Numeral.digits (amount / whole) ++ decimals places (amount % whole)) ++ unit

def text (duration : Duration) : String :=
  let amount := duration.nanoseconds
  if amount ≥ 1000000000 then inUnit 9 "s" amount
  else if amount ≥ 1000000 then inUnit 6 "ms" amount
  else if amount ≥ 1000 then inUnit 3 "µs" amount
  else inUnit 0 "ns" amount

end Duration
end ContractBuild
