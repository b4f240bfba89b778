/-!
YAML documents as trees. Aliases are already replaced by what they stand for.
-/
namespace ContractBuild

/-- How a scalar was written: without any mark, behind the indicator that keeps line breaks, or
in another way. -/
inductive ScalarStyle
  | plain
  | literal
  | marked
  deriving DecidableEq

/-- `enclosing` is an alias for a node that it lies in; it can only be passed over. -/
inductive Yaml
  | scalar (tag : Option String) (style : ScalarStyle) (text : String)
  | sequence (tag : Option String) (items : List Yaml)
  | mapping (tag : Option String) (pairs : List (Yaml × Yaml))
  | enclosing

namespace Yaml

/-- What stands where nothing is written. -/
def absent : Yaml := scalar none .plain ""

def tag? : Yaml → Option String
  | scalar tag .. | sequence tag .. | mapping tag .. => tag
  | enclosing => none

end Yaml
end ContractBuild
