import ContractBuild.Binding.Name
import ContractBuild.Binding.Plan
/-!
Bindings as a TypeScript module for ethers version 5: an interface of fragments, a contract
interface with its functions and event filters, the interface text, and a function that
connects.
-/
namespace ContractBuild.TypeScript
open Text

/-- Words that cannot name a parameter. -/
def reserved : List String := [
  "break", "case", "catch", "class", "const", "continue", "debugger", "default", "delete", "do",
  "else", "enum", "export", "extends", "false", "finally", "for", "function", "if", "import",
  "in", "instanceof", "new", "null", "return", "super", "switch", "this", "throw", "true", "try",
  "typeof", "var", "void", "while", "with", "overrides"]

/-- Output integers up to this width are plain numbers. -/
def numberBits : Nat := 48

def indexStem : String := "index"

/-- The type of a descriptor; its file keeps the name as it is. -/
def typeName (name : String) : String :=
  Name.identifier "Contract" name

def propertyKey (key : String) : String :=
  if '(' ∈ key.toList then "\"" ++ key ++ "\"" else key

def paramName (name : String) (position : Nat) : String :=
  let candidate := Name.identifier ("arg" ++ Numeral.render position) name
  if candidate ∈ reserved then candidate ++ "_" else candidate

def record (fields : List String) : String :=
  "\x7b " ++ join "; " fields ++ " \x7d"

mutual

def inputType : AbiType → String
  | .address | .string => "string"
  | .bool => "boolean"
  | .bytes | .fixedBytes _ => "BytesLike"
  | .uint _ | .int _ => "BigNumberish"
  | .array item | .fixedArray item _ => "(" ++ inputType item ++ ")[]"
  | .tuple members => record (inputFields 0 members)

def inputFields (position : Nat) : List TypedParam → List String
  | [] => []
  | ⟨name, type, _⟩ :: members =>
    (paramName name position ++ ": " ++ inputType type) :: inputFields (position + 1) members

end

mutual

def outputType : AbiType → String
  | .address | .string | .bytes | .fixedBytes _ => "string"
  | .bool => "boolean"
  | .uint bits | .int bits => if bits ≤ numberBits then "number" else "BigNumber"
  | .array item | .fixedArray item _ => "(" ++ outputType item ++ ")[]"
  | .tuple members =>
    "[" ++ join ", " (outputTypes members) ++ "] & " ++ record (outputFields 0 members)

def outputTypes : List TypedParam → List String
  | [] => []
  | ⟨_, type, _⟩ :: members => outputType type :: outputTypes members

def outputFields (position : Nat) : List TypedParam → List String
  | [] => []
  | ⟨name, type, _⟩ :: members =>
    (paramName name position ++ ": " ++ outputType type) :: outputFields (position + 1) members

end

/-- A callable entry as it is written: its key, its parameters, and what it resolves to with
and without a wrapping tuple. -/
structure FunctionView where
  key : String
  params : String
  wrapped : String
  direct : String

structure EventView where
  key : String
  params : String

def overrides : Mutability → String
  | .pure | .view => "CallOverrides"
  | .payable => "PayableOverrides & \x7b from?: string \x7d"
  | .nonpayable => "Overrides & \x7b from?: string \x7d"

def functionView (entry : FunctionEntry) : FunctionView :=
  let outputs := outputTypes entry.outputs
  let readOnly := entry.mutability.isReadOnly
  { key := propertyKey entry.key
    params := join ", "
      (inputFields 0 entry.inputs ++ ["overrides?: " ++ overrides entry.mutability])
    wrapped := if readOnly then "[" ++ join ", " outputs ++ "]" else "ContractTransaction"
    direct :=
      if !readOnly then "ContractTransaction"
      else match outputs with
        | [] => "void"
        | [output] => output
        | outputs => "[" ++ join ", " outputs ++ "]" }

/-- Only indexed parameters can be filtered by. -/
def eventView (entry : EventEntry) : EventView :=
  { key := propertyKey entry.key
    params := join ", " (entry.inputs.zipIdx.filterMap fun (param, position) =>
      if param.indexed then
        some (paramName param.name position ++ "?: " ++ inputType param.type ++ " | null")
      else none) }

/-- The signatures of the functions, each once. -/
def fragments (plan : BindingPlan) : List String :=
  plan.functions.foldl (fun seen entry =>
    if entry.signature ∈ seen then seen else seen ++ [entry.signature]) []

def linesText (lines : List String) : String :=
  String.join (lines.map (· ++ "\n"))

theorem linesText_append (first second : List String) :
    linesText (first ++ second) = linesText first ++ linesText second := by
  rw [linesText, List.map_append, String.join_append]
  rfl

def banner (header : String) : List String :=
  ["/* " ++ header ++ " */", "/* eslint-disable */"]

def importLines : List String := [
  "import type \x7b",
  "  BaseContract,",
  "  BigNumber,",
  "  BigNumberish,",
  "  BytesLike,",
  "  CallOverrides,",
  "  ContractTransaction,",
  "  EventFilter,",
  "  Overrides,",
  "  PayableOverrides,",
  "  Signer,",
  "  providers,",
  "  utils,",
  "\x7d from \"ethers\";",
  "import \x7b Contract \x7d from \"ethers\";"]

def interfaceLines (name : String) (plan : BindingPlan) : List String :=
  ["export interface " ++ name ++ "Interface extends utils.Interface \x7b", "  functions: \x7b"]
    ++ (fragments plan).map (fun fragment => "    \"" ++ fragment ++ "\": utils.FunctionFragment;")
    ++ ["  \x7d;", "\x7d"]

def contractLines (name : String) (plan : BindingPlan) : List String :=
  let functions := plan.functions.map functionView
  ["export interface " ++ name ++ " extends BaseContract \x7b",
    "  interface: " ++ name ++ "Interface;",
    "",
    "  connect(signerOrProvider: Signer | providers.Provider | string): this;",
    "  attach(addressOrName: string): this;",
    "  deployed(): Promise<this>;",
    "",
    "  functions: \x7b"]
    ++ functions.map (fun f => "    " ++ f.key ++ "(" ++ f.params ++ "): Promise<" ++ f.wrapped ++ ">;")
    ++ ["  \x7d;", ""]
    ++ functions.map (fun f => "  " ++ f.key ++ "(" ++ f.params ++ "): Promise<" ++ f.direct ++ ">;")
    ++ ["", "  filters: \x7b"]
    ++ (plan.events.map eventView).map (fun e => "    " ++ e.key ++ "(" ++ e.params ++ "): EventFilter;")
    ++ ["  \x7d;", "\x7d"]

def connectLines (name : String) : List String := [
  "export function connect" ++ name ++ "(",
  "  address: string,",
  "  signerOrProvider: Signer | providers.Provider",
  "): " ++ name ++ " \x7b",
  "  return new Contract(address, " ++ name ++ "__abi, signerOrProvider) as unknown as " ++ name ++ ";",
  "\x7d"]

def render (header : String) (plan : BindingPlan) : String :=
  let name := typeName plan.name
  linesText (banner header ++ importLines ++ [""] ++ interfaceLines name plan ++ [""]
    ++ contractLines name plan ++ [""]
    ++ ["export const " ++ name ++ "__abi = " ++ plan.interfaceText ++ " as const;", ""]
    ++ connectLines name)

def renderIndex (header : String) (names : List String) : String :=
  linesText (banner header ++ names.flatMap fun name =>
    let type := typeName name
    ["export type \x7b " ++ type ++ " \x7d from \"./" ++ name ++ "\";",
      "export \x7b connect" ++ type ++ ", " ++ type ++ "__abi \x7d from \"./" ++ name ++ "\";"])

end ContractBuild.TypeScript
