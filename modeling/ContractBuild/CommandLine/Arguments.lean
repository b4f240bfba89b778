import ContractBuild.Text
/-!
The arguments of the command line. Options of the program stand before the name of a command and
options of a command behind it. No option may be given twice, a value may not look like an option,
and behind a double dash nothing is an option.
-/
namespace ContractBuild

inductive Command
  | init (path : String) (name : Option String)
  | compile (force json : Bool)
  | build (force json : Bool)
  | clean
  | validate
  | status
  deriving DecidableEq

structure CommandOptions where
  config : String
  verbose : Bool
  command : Command
  deriving DecidableEq

/-- What is asked for instead of a command, or that the arguments make no sense. -/
inductive ArgumentStop
  | help
  | version
  | misuse
  deriving DecidableEq

/-- An option that is understood. -/
structure OptionShape where
  letter : Option Char
  name : String
  hasValue : Bool
  deriving DecidableEq

/-- The options with their values and the words among arguments. A flag has the empty value. -/
structure GivenArguments where
  options : List (String × String)
  words : List String
  deriving DecidableEq

namespace GivenArguments
open Text

def none : GivenArguments := ⟨[], []⟩

def value? (given : GivenArguments) (name : String) : Option String :=
  (given.options.find? (·.1 = name)).map (·.2)

def has (given : GivenArguments) (name : String) : Bool :=
  (given.value? name).isSome

/-- Notes an option. Asking for help or for the version ends the reading. -/
def addOption (given : GivenArguments) (name value : String) :
    Except ArgumentStop GivenArguments :=
  if name = "help" then .error .help
  else if name = "version" then .error .version
  else if given.has name then .error .misuse
  else .ok { given with options := given.options ++ [(name, value)] }

/-- Notes a word, as long as there is room for one. -/
def addWord (given : GivenArguments) (room : Nat) (word : String) :
    Except ArgumentStop GivenArguments :=
  if given.words.length < room then .ok { given with words := given.words ++ [word] }
  else .error .misuse

/-- Whether an argument is read as an option. -/
def isOption (argument : String) : Bool :=
  match argument.toList with
  | '-' :: _ :: _ => true
  | _ => false

/-- An option by name with the value attached to it. -/
def splitValue (option : List Char) : String × Option String :=
  match cutFirst? '=' option with
  | some (name, value) => (String.ofList name, some (String.ofList value))
  | _ => (String.ofList option, Option.none)

/-- What is attached to an option in a cluster, with or without an equals sign. -/
def attachedValue : List Char → Option String
  | [] => Option.none
  | '=' :: value => some (String.ofList value)
  | value => some (String.ofList value)

/-- What an argument gives: options, and the name of an option whose value is still to come. -/
structure Reading where
  given : GivenArguments
  wanting : Option String

/-- Reads an option that is written out. -/
def readLong (shapes : List OptionShape) (given : GivenArguments) (option : List Char) :
    Except ArgumentStop Reading :=
  let (name, attached) := splitValue option
  match shapes.find? (·.name = name), attached with
  | Option.none, _ => .error .misuse
  | some shape, some value =>
    if shape.hasValue then return ⟨← given.addOption name value, Option.none⟩ else .error .misuse
  | some shape, Option.none =>
    if shape.hasValue then .ok ⟨given, some name⟩
    else return ⟨← given.addOption name "", Option.none⟩

/-- Reads options by letter. Behind an option with a value the rest is that value. -/
def readCluster (shapes : List OptionShape) (given : GivenArguments) :
    List Char → Except ArgumentStop Reading
  | [] => .ok ⟨given, Option.none⟩
  | c :: rest =>
    match shapes.find? (·.letter = some c) with
    | Option.none => .error .misuse
    | some shape =>
      if shape.hasValue then
        match attachedValue rest with
        | some value => return ⟨← given.addOption shape.name value, Option.none⟩
        | Option.none => .ok ⟨given, some shape.name⟩
      else do readCluster shapes (← given.addOption shape.name "") rest

/-- Reads the options in one argument; a word gives nothing. -/
def readOption? (shapes : List OptionShape) (given : GivenArguments) (argument : String) :
    Option (Except ArgumentStop Reading) :=
  match argument.toList with
  | '-' :: '-' :: option => some (readLong shapes given option)
  | '-' :: c :: cluster => some (readCluster shapes given (c :: cluster))
  | _ => Option.none

/-- Words only, up to the room for them. -/
def readWords (room : Nat) (given : GivenArguments) : List String → Except ArgumentStop GivenArguments
  | [] => .ok given
  | word :: rest => do readWords room (← given.addWord room word) rest

/-- Reads arguments up to the first word for which there is no room, and gives what is left. -/
def read (shapes : List OptionShape) (room : Nat) (given : GivenArguments) :
    List String → Except ArgumentStop (GivenArguments × List String)
  | [] => .ok (given, [])
  | "--" :: rest => return (← readWords room given rest, [])
  | [argument] =>
    match readOption? shapes given argument with
    | some (.ok ⟨given, Option.none⟩) => .ok (given, [])
    | some (.ok ⟨_, some _⟩) => .error .misuse
    | some (.error stop) => .error stop
    | Option.none =>
      match given.addWord room argument with
      | .ok given => .ok (given, [])
      | .error _ => .ok (given, [argument])
  | argument :: next :: rest =>
    match readOption? shapes given argument with
    | some (.ok ⟨given, Option.none⟩) => read shapes room given (next :: rest)
    | some (.ok ⟨given, some name⟩) =>
      if isOption next then .error .misuse
      else do read shapes room (← given.addOption name next) rest
    | some (.error stop) => .error stop
    | Option.none =>
      match given.addWord room argument with
      | .ok given => read shapes room given (next :: rest)
      | .error _ => .ok (given, argument :: next :: rest)

end GivenArguments

namespace CommandOptions

def helpShape : OptionShape := ⟨some 'h', "help", false⟩

/-- The options that stand in front of a command. -/
def programShapes : List OptionShape :=
  [⟨some 'c', "config", true⟩, ⟨some 'v', "verbose", false⟩, helpShape,
    ⟨some 'V', "version", false⟩]

/-- The options behind a command. -/
def commandShapes : String → List OptionShape
  | "init" => [⟨some 'n', "name", true⟩, helpShape]
  | "compile" | "build" => [⟨none, "force", false⟩, ⟨none, "json", false⟩, helpShape]
  | _ => [helpShape]

/-- How many words a command takes. -/
def wordRoom : String → Nat
  | "init" => 1
  | _ => 0

/-- The command of a name with what was given behind it. -/
def commandOf? (name : String) (given : GivenArguments) : Option Command :=
  let force := given.has "force"
  let json := given.has "json"
  match name with
  | "init" => some (.init (given.words.head?.getD ".") (given.value? "name"))
  | "compile" => some (.compile force json)
  | "build" => some (.build force json)
  | "clean" => some .clean
  | "validate" => some .validate
  | "status" => some .status
  | _ => none

def isCommandName (name : String) : Bool :=
  (commandOf? name .none).isSome

/-- Reads a request for help on a command. -/
def readHelp : List String → ArgumentStop
  | [] => .help
  | [name] => if isCommandName name || name = "help" then .help else .misuse
  | _ => .misuse

/-- Reads the name of a command and what stands behind it. -/
def readCommand : List String → Except ArgumentStop Command
  | [] => .error .misuse
  | "help" :: rest => .error (readHelp rest)
  | name :: rest => do
    if !isCommandName name then throw .misuse
    match ← GivenArguments.read (commandShapes name) (wordRoom name) .none rest with
    | (given, []) =>
      match commandOf? name given with
      | some command => return command
      | none => throw .misuse
    | _ => throw .misuse

/-- The path of the settings where nothing else is said. -/
def defaultConfig : String := "kiln.yaml"

/-- The options in a list of arguments. `preset` is what the environment says about the
configuration. -/
def read (arguments : List String) (preset : Option String) :
    Except ArgumentStop CommandOptions := do
  let (given, rest) ← GivenArguments.read programShapes 0 .none arguments
  let command ← readCommand rest
  return ⟨(given.value? "config").getD (preset.getD defaultConfig), given.has "verbose", command⟩

end CommandOptions
end ContractBuild
