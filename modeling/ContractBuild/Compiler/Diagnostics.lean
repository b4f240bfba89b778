import ContractBuild.Text
import ContractBuild.Text.Numeral
/-!
What the output of a failed compiler says, and the form in which bytecode is kept.
-/
namespace ContractBuild.Compiler
open Text

/-- An integer in decimal. -/
def codeText : Int → String
  | .ofNat n => Numeral.render n
  | .negSucc n => "-" ++ Numeral.render (n + 1)

/-- The lines of a text without surrounding blanks, as far as anything is left of them. -/
def filledLines (text : String) : List String :=
  ((lines text.toList).map trim).filter (!·.isEmpty) |>.map String.ofList

/-- The lines that a compiler wrote to its error stream, or else how it ended. -/
def diagnostics (program errors : String) (code : Option Int) : List String :=
  match filledLines errors with
  | [] =>
    match code with
    | some code => [program ++ " exited with status " ++ codeText code]
    | none => [program ++ " was terminated by a signal"]
  | line :: rest => line :: rest

/-- Bytecode with the mark of hexadecimal digits in front. -/
def markedHex (digits : String) : String :=
  if digits.isEmpty || (stripLead? ['0', 'x'] digits.toList).isSome then digits else "0x" ++ digits

theorem diagnostics_ne_nil (program errors : String) (code : Option Int) :
    diagnostics program errors code ≠ [] := by
  unfold diagnostics
  split
  · split <;> exact List.cons_ne_nil _ _
  · exact List.cons_ne_nil _ _

end ContractBuild.Compiler
