import ContractBuild.Path
/-!
Patterns for paths: `*` stands for any characters of one name, `?` for one such character, `**`
for any characters on one line, and `**` before a slash for any leading directories.
-/
namespace ContractBuild

namespace Glob

inductive Piece
  | directories
  | anything
  | name
  | character
  | literal (c : Char)
  deriving DecidableEq

/-- The pieces of a pattern from left to right. -/
def pieces : List Char → List Piece
  | '*' :: '*' :: '/' :: rest => .directories :: pieces rest
  | '*' :: '*' :: rest => .anything :: pieces rest
  | '*' :: rest => .name :: pieces rest
  | '?' :: rest => .character :: pieces rest
  | c :: rest => .literal c :: pieces rest
  | [] => []

/-- What can remain of a text after any number of characters that satisfy `p`. -/
def rests (p : Char → Bool) : List Char → List (List Char)
  | [] => [[]]
  | c :: text => (c :: text) :: (if p c then rests p text else [])

def inName (c : Char) : Bool := c ≠ '/'

def inLine (c : Char) : Bool := c ≠ '\n'

/-- What can remain after leading directories, each closed by a slash. -/
def restsAfterSlash (text : List Char) : List (List Char) :=
  (rests inLine text).filterMap fun
    | '/' :: rest => some rest
    | _ => none

def accepts : List Piece → List Char → Bool
  | [], text => text.isEmpty
  | .directories :: pieces, text =>
    accepts pieces text || (restsAfterSlash text).any (accepts pieces)
  | .anything :: pieces, text => (rests inLine text).any (accepts pieces)
  | .name :: pieces, text => (rests inName text).any (accepts pieces)
  | .character :: pieces, c :: text => inName c && accepts pieces text
  | .literal l :: pieces, c :: text => l = c && accepts pieces text
  | .character :: _, [] | .literal _ :: _, [] => false

end Glob

structure Glob where
  pattern : Path
  deriving DecidableEq

namespace Glob

/-- Whether the pattern accepts a path, name by name. -/
def acceptsPath (glob : Glob) (components : List Path.Component) : Bool :=
  accepts (pieces (Path.slashText glob.pattern.components).toList)
    (Path.slashText components).toList

def isLiteral : Path.Component → Bool
  | .normal name => !name.toList.any fun c => c = '*' || c = '?' || c = '['
  | _ => true

/-- The leading components without a wildcard. -/
def literalLead (glob : Glob) : Path :=
  Path.ofComponents (glob.pattern.components.takeWhile isLiteral)

end Glob
end ContractBuild
