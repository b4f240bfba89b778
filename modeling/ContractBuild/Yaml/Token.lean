import ContractBuild.Yaml
/-!
The tokens of a YAML stream, and why a text is none.
-/
namespace ContractBuild.Yaml

inductive Token
  | versionDirective (major minor : Nat)
  | tagDirective (handle lead : String)
  | documentStart
  | documentEnd
  | blockSequenceStart
  | blockMappingStart
  | blockEnd
  | flowSequenceStart
  | flowSequenceEnd
  | flowMappingStart
  | flowMappingEnd
  | blockEntry
  | flowEntry
  | key
  | value
  | alias (name : String)
  | anchor (name : String)
  | tag (handle suffix : String)
  | scalar (style : ScalarStyle) (text : String)
  | streamEnd
  deriving DecidableEq

/-- Why a text is no stream of tokens. -/
inductive ScanError
  | controlCharacter
  | missingColon
  | misplacedEntry
  | misplacedKey
  | misplacedValue
  | unexpectedCharacter
  | badDirective
  | badAnchor
  | badTag
  | badEscape
  | unterminatedScalar
  | documentInScalar
  | badBlockHeader
  | tabIndentation
  | unexpectedColon
  deriving DecidableEq

abbrev ScanResult := Except ScanError

end ContractBuild.Yaml
