import ContractBuild.FileTree
import ContractBuild.Interface.Codec
import ContractBuild.Settings
/-!
Why a project, one of its sources or a descriptor cannot be read.
-/
namespace ContractBuild

inductive ProjectError
  | missing (path : Path)
  | malformed
  | refused (reason : String)
  | file (cause : FileError)
  | json
  deriving DecidableEq

namespace ProjectError

def message : ProjectError → String
  | missing path => "configuration file not found: " ++ path.text
  | malformed => "failed to parse configuration: malformed YAML"
  | refused reason => "invalid configuration: " ++ reason
  | file cause => "IO error: " ++ cause.message
  | json => "JSON error: malformed JSON"

def ofDescriptor : DescriptorError → ProjectError
  | .malformed => json
  | .noInterface => refused "descriptor object has no `abi` field"
  | .notContainer => refused "descriptor must be an array or an object"

/-- No section of the settings says how to compile a language. -/
def noCompiler (language : Language) : ProjectError :=
  refused ("no compiler configured for " ++ language.tag ++ " (add compilers." ++ language.tag
    ++ ".version)")

def unsupportedSource (path : Path) : ProjectError :=
  refused ("unsupported source file: " ++ path.text)

end ProjectError
end ContractBuild
