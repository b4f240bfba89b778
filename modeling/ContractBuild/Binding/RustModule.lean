import ContractBuild.Binding.Name
import ContractBuild.Binding.Plan
import ContractBuild.Text.Enclosed
/-!
Bindings as a Rust module: a constant with the interface, a struct, a return alias and constants
for each call, a struct for each event, and an enum over all calls. The module is first laid out
as declarations with their final names and then written token by token.
-/
namespace ContractBuild.RustModule
open Text

/-- Words that stand for themselves only as raw identifiers. -/
def keywords : List String := [
  "as", "async", "await", "break", "const", "continue", "dyn", "else", "enum", "extern", "false",
  "fn", "for", "if", "impl", "in", "let", "loop", "match", "mod", "move", "mut", "pub", "ref",
  "return", "static", "struct", "trait", "true", "type", "unsafe", "use", "where", "while",
  "abstract", "become", "box", "do", "final", "gen", "macro", "override", "priv", "try",
  "typeof", "unsized", "virtual", "yield"]

/-- Words that cannot be raw identifiers either. -/
def reserved : List String := ["crate", "self", "super", "Self", "_"]

def identifierText (name : String) : String :=
  if name ∈ reserved then name ++ "_"
  else if name ∈ keywords then "r#" ++ name
  else name

def indexStem : String := "mod"

/-- The module of a descriptor; never the index. -/
def moduleName (name : String) : String :=
  let candidate := Name.identifier "binding" (Name.snakeCase name)
  if candidate = indexStem || candidate ∈ reserved then candidate ++ "_" else candidate

/-- The stem of the type names of an entry. -/
def typeStem (name : String) : String :=
  let candidate := Name.identifier "Unnamed" name
  if candidate = "Self" then "Self_" else candidate

def fieldNames (params : List TypedParam) : List String :=
  (Name.freshAll [] (params.zipIdx.map fun (param, position) =>
    Name.identifier ("arg" ++ Numeral.render position) (Name.snakeCase param.name))).map
    identifierText

/-- A call with the stem of its names. -/
structure Call where
  stem : String
  entry : FunctionEntry

structure EventStruct where
  stem : String
  entry : EventEntry

/-- The declarations of a module. -/
structure Layout where
  name : String
  interfaceText : String
  calls : List Call
  events : List EventStruct
  enumName : String

/-- Signature aliases of unique functions repeat their entry and have no struct of their own. -/
def hasStruct (entry : FunctionEntry) : Bool :=
  entry.overloaded || !entry.isSignatureKey

def callWish (entry : FunctionEntry) : String :=
  let base := Name.pascalCase entry.name
  typeStem (if entry.overloaded && entry.isSignatureKey then base ++ Numeral.render entry.ordinal
    else base)

def layout (plan : BindingPlan) : Layout :=
  let functions := plan.functions.filter hasStruct
  let callStems := Name.freshAll [] (functions.map callWish)
  let eventStems := Name.freshAll [] (plan.events.map fun event =>
    typeStem (Name.pascalCase event.name))
  { name := plan.name
    interfaceText := plan.interfaceText
    calls := (callStems.zip functions).map fun (stem, entry) => ⟨stem, entry⟩
    events := (eventStems.zip plan.events).map fun (stem, entry) => ⟨stem, entry⟩
    enumName := typeStem (Name.pascalCase plan.name) ++ "Calls" }

/-- Tokens stand apart by one blank. -/
def tokens (list : List String) : String :=
  join " " list

def inParens (list : List String) : String :=
  "(" ++ tokens list ++ ")"

def inBrackets (list : List String) : String :=
  "[" ++ tokens list ++ "]"

def inBraces (list : List String) : String :=
  tokens ("\x7b" :: list ++ ["\x7d"])

def annotated (name : String) (arguments : List String) : List String :=
  ["#", inBrackets [name, inParens arguments]]

def documented (text : String) : List String :=
  ["#", inBrackets ["doc", "=", Enclosed.literal text]]

def derived : List String :=
  annotated "derive" ["Debug", ",", "Clone", ",", "PartialEq", ",", "Eq"]

/-- The machine integer that holds a width, or the wide integer type. -/
def integerType (sign wide : String) (bits : Nat) : List String :=
  if bits ≤ 8 then [sign ++ "8"]
  else if bits ≤ 16 then [sign ++ "16"]
  else if bits ≤ 32 then [sign ++ "32"]
  else if bits ≤ 64 then [sign ++ "64"]
  else if bits ≤ 128 then [sign ++ "128"]
  else [wide]

mutual

def typeTokens : AbiType → List String
  | .address => ["Address"]
  | .bool => ["bool"]
  | .string => ["String"]
  | .bytes => ["Vec", "<", "u8", ">"]
  | .fixedBytes size => [inBrackets ["u8", ";", Numeral.render size]]
  | .uint bits => integerType "u" "U256" bits
  | .int bits => integerType "i" "I256" bits
  | .array item => ["Vec", "<"] ++ typeTokens item ++ [">"]
  | .fixedArray item length => [inBrackets (typeTokens item ++ [";", Numeral.render length])]
  | .tuple members => [inParens (memberTokens members)]

def memberTokens : List TypedParam → List String
  | [] => []
  | ⟨_, type, _⟩ :: members => typeTokens type ++ "," :: memberTokens members

end

def returnTokens (outputs : List TypedParam) : List String :=
  match outputs with
  | [output] => typeTokens output.type
  | outputs => [inParens (memberTokens outputs)]

def textConstant (doc name value : String) : List String :=
  documented doc ++
    ["pub", "const", name, ":", "&", "'static", "str", "=", Enclosed.literal value, ";"]

def callTokens (call : Call) : List String :=
  let entry := call.entry
  let callName := call.stem ++ "Call"
  let fields := ((fieldNames entry.inputs).zip entry.inputs).flatMap fun (name, param) =>
    ["pub", name, ":"] ++ typeTokens param.type ++ [","]
  documented ("Call `" ++ entry.signature ++ "`") ++ derived
    ++ ["pub", "struct", callName, inBraces fields, "impl", callName,
      inBraces (textConstant "Canonical signature" "SIGNATURE" entry.signature
        ++ textConstant "State mutability" "MUTABILITY" entry.mutability.text)]
    ++ documented "Decoded outputs of the call"
    ++ ["pub", "type", call.stem ++ "Return", "="] ++ returnTokens entry.outputs ++ [";"]

def eventTokens (event : EventStruct) : List String :=
  let entry := event.entry
  let name := event.stem ++ "Event"
  let fields := ((fieldNames entry.inputs).zip entry.inputs).flatMap fun (name, param) =>
    documented (if param.indexed then "indexed" else "data") ++ ["pub", name, ":"]
      ++ typeTokens param.type ++ [","]
  documented ("Event `" ++ entry.signature ++ "`") ++ derived
    ++ ["pub", "struct", name, inBraces fields, "impl", name,
      inBraces (textConstant "Canonical signature" "SIGNATURE" entry.signature
        ++ documented "Whether the event omits its signature topic"
        ++ ["pub", "const", "ANONYMOUS", ":", "bool", "=",
          if entry.anonymous then "true" else "false", ";"])]

def enumTokens (layout : Layout) : List String :=
  let variants := layout.calls.flatMap fun call =>
    [call.stem, inParens [call.stem ++ "Call"], ","]
  let arms := layout.calls.flatMap fun call =>
    ["Self", "::", call.stem, inParens ["_"], "=>", call.stem ++ "Call", "::", "SIGNATURE", ","]
  documented "Every call of the contract" ++ derived
    ++ ["pub", "enum", layout.enumName, inBraces variants, "impl", layout.enumName,
      inBraces (documented "Signature of the wrapped call"
        ++ ["pub", "fn", "signature", inParens ["&", "self"], "->", "&", "'static", "str",
          inBraces ["match", "*", "self", inBraces arms]])]

def interfaceTokens (layout : Layout) : List String :=
  documented "JSON ABI of the contract"
    ++ ["pub", "const", "ABI", ":", "&", "str", "=", Enclosed.literal layout.interfaceText, ";"]

def importTokens : List String :=
  annotated "allow" ["unused_imports"]
    ++ ["use", "alloy_primitives", "::", inBraces ["Address", ",", "I256", ",", "U256"], ";"]

/-- The sections behind the imports. -/
def sections (layout : Layout) : List (List String) :=
  interfaceTokens layout :: layout.calls.map callTokens ++ layout.events.map eventTokens
    ++ [enumTokens layout]

def render (header : String) (plan : BindingPlan) : String :=
  let layout := layout plan
  "// " ++ header ++ "\n// Bindings for `" ++ layout.name ++ "`.\n\n" ++ tokens importTokens ++ "\n"
    ++ String.join ((sections layout).map fun list => "\n" ++ tokens list ++ "\n")

def renderIndex (header : String) (names : List String) : String :=
  "// " ++ header ++ "\n\n" ++ String.join (names.map fun name =>
    tokens ["pub", "mod", identifierText (moduleName name), ";"] ++ "\n")

end ContractBuild.RustModule
