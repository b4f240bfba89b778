/-!
Cancellation on request. Whoever holds a token sees the same flag, and a flag once raised stays
so.
-/
namespace ContractBuild

/-- The flag as one run sees it. `quietChecks` counts the checks that still go by before a
request from outside is seen; without it no such request comes. -/
structure Cancellation where
  requested : Bool
  quietChecks : Option Nat
  deriving DecidableEq

namespace Cancellation

def quiet : Cancellation := ⟨false, none⟩

def raised : Cancellation := ⟨true, none⟩

/-- Looks at the flag once. -/
def check (cancellation : Cancellation) : Bool × Cancellation :=
  if cancellation.requested then (true, cancellation)
  else match cancellation.quietChecks with
    | none => (false, cancellation)
    | some 0 => (true, raised)
    | some (left + 1) => (false, ⟨false, some left⟩)

end Cancellation

/-- Tokens by number. A token stands for the flag it was made with; a copy stands for the flag
of its model. -/
structure TokenTable where
  flags : List Bool
  tokens : List Nat
  deriving DecidableEq

namespace TokenTable

def empty : TokenTable := ⟨[], []⟩

/-- The number of the next token. -/
def next (table : TokenTable) : Nat :=
  table.tokens.length

/-- A token with a flag of its own. -/
def create (table : TokenTable) : TokenTable :=
  ⟨table.flags ++ [false], table.tokens ++ [table.flags.length]⟩

/-- A further token for the flag of a token. -/
def copy? (table : TokenTable) (token : Nat) : Option TokenTable :=
  table.tokens[token]?.map fun flag => ⟨table.flags, table.tokens ++ [flag]⟩

def cancel? (table : TokenTable) (token : Nat) : Option TokenTable :=
  table.tokens[token]?.map fun flag => ⟨table.flags.set flag true, table.tokens⟩

def isCancelled (table : TokenTable) (token : Nat) : Bool :=
  table.tokens[token]?.any fun flag => table.flags[flag]?.getD false

/-- Whether each token is cancelled. -/
def states (table : TokenTable) : List Bool :=
  (List.range table.tokens.length).map table.isCancelled

end TokenTable
end ContractBuild
