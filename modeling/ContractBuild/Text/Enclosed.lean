import ContractBuild.Text.Printable
import ContractBuild.Text
/-!
String literals that show what they hold: controls and characters that cannot be shown are
written as escapes, all else as it is.
-/
namespace ContractBuild.Text.Enclosed

def hexDigits (n : Nat) : List Char :=
  Nat.toDigits 16 n

/-- One character of a literal in double quotes. A zero character takes the short escape unless
an octal digit follows. -/
def escaped (c : Char) (next : Option Char) : List Char :=
  match c with
  | '\x00' =>
    match next with
    | some d => if '0' ≤ d && d ≤ '7' then ['\\', 'x', '0', '0'] else ['\\', '0']
    | none => ['\\', '0']
  | '\t' => ['\\', 't']
  | '\r' => ['\\', 'r']
  | '\n' => ['\\', 'n']
  | '"' => ['\\', '"']
  | '\\' => ['\\', '\\']
  | c => if isPrintable c then [c] else '\\' :: 'u' :: '\x7b' :: hexDigits c.toNat ++ ['\x7d']

def inside : List Char → List Char
  | [] => []
  | c :: rest => escaped c rest.head? ++ inside rest

def literal (text : String) : String :=
  String.ofList ('"' :: inside text.toList ++ ['"'])

end ContractBuild.Text.Enclosed
