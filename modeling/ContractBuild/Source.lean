import ContractBuild.Digest
import ContractBuild.Path
/-!
Contract sources. The language of a source is decided by the extension of its file, and the
artifact it produces is named by the stem.
-/
namespace ContractBuild

inductive Language
  | solidity
  | vyper
  deriving DecidableEq

namespace Language

/-- In the order in which settings and adapters are listed. -/
def all : List Language := [solidity, vyper]

/-- The name used in fingerprints, settings and messages. -/
def tag : Language → String
  | solidity => "solidity"
  | vyper => "vyper"

def ofTag? : String → Option Language
  | "solidity" => some solidity
  | "vyper" => some vyper
  | _ => none

def ofExtension? : String → Option Language
  | "sol" => some solidity
  | "vy" => some vyper
  | _ => none

def ofPath? (path : Path) : Option Language :=
  path.extension?.bind ofExtension?

end Language

/-- One contract file as it was read. -/
structure SourceUnit where
  path : Path
  language : Language
  content : String
  deriving DecidableEq

namespace SourceUnit

def contentHash (unit : SourceUnit) : String :=
  Digest.hexDigest unit.content.toUTF8

/-- The stem of the file. -/
def artifactName (unit : SourceUnit) : String :=
  unit.path.fileStem?.getD ""

end SourceUnit
end ContractBuild
