import ContractBuild.CommandLine.Commands
/-!
The program as a whole: arguments and files in, an exit code, things said and files out.
-/
namespace ContractBuild

/-- What the environment says to the program. -/
structure Environment where
  config : Option String
  logFilter : Option String
  deriving DecidableEq

structure ProgramResult where
  code : Nat
  said : List Utterance
  files : FileTree

namespace Program

/-- The name and release that the program gives for itself. -/
def versionText : String := "kiln 0.1.0\n"

/-- Up to which level messages are logged. -/
def logRank (verbose : Bool) (filter : Option String) : Nat :=
  if verbose then LogLevel.debug.rank
  else (filter.bind LogLevel.filterRank?).getD LogLevel.info.rank

/-- Whether something is said aloud under a filter. -/
def isAudible (rank : Nat) : Utterance → Bool
  | .log level _ => level.rank ≤ rank
  | _ => true

def run (surroundings : Surroundings) (environment : Environment) (arguments : List String)
    (files : FileTree) : ProgramResult :=
  match CommandOptions.read arguments environment.config with
  | .error .help => ⟨0, [], files⟩
  | .error .version => ⟨0, [.output versionText], files⟩
  | .error .misuse => ⟨2, [], files⟩
  | .ok options =>
    let (outcome, console) := Command.run surroundings options ⟨files, []⟩
    let said := console.said.filter (isAudible (logRank options.verbose environment.logFilter))
    match outcome with
    | .ok () => ⟨0, said, console.files⟩
    | .error trouble => ⟨1, said ++ trouble.lines.map .complaint, console.files⟩

end Program
end ContractBuild
