import ContractBuild.Yaml
import ContractBuild.Yaml.Scanner
/-!
Documents from tokens. `Yaml.read` accepts a stream with exactly one document. A node's anchor
is known from its beginning on, but inside the node it stands for nothing that could be read.
-/
namespace ContractBuild.Yaml

inductive ReadError
  | scan (cause : ScanError)
  | noDocument
  | manyDocuments
  | directive
  | undefinedTag
  | unknownAnchor
  | unexpectedToken
  | tooDeep
  deriving DecidableEq

/-- What is left to read and what is known so far. -/
structure ReadState where
  tokens : List Token
  anchors : List (String × Yaml)
  handles : List (String × String)

abbrev NodeReader := StateT ReadState (Except ReadError)

namespace NodeReader

def peek : NodeReader Token := do
  return (← get).tokens.headD .streamEnd

def advance : NodeReader Unit :=
  modify fun state => { state with tokens := state.tokens.tail }

def refuse (error : ReadError) : NodeReader α :=
  throw error

/-- The full name of a tag. -/
def tagName (handle suffix : String) : NodeReader String := do
  if handle.isEmpty then return suffix
  match (← get).handles.find? (·.1 = handle) with
  | some (_, lead) => return lead ++ suffix
  | none => refuse .undefinedTag

/-- Reads the anchor and the tag in front of a node, in either order. -/
def properties : NodeReader (Option String × Option String) := do
  match ← peek with
  | .anchor name =>
    advance
    match ← peek with
    | .tag handle suffix =>
      advance
      return (some name, some (← tagName handle suffix))
    | _ => return (some name, none)
  | .tag handle suffix =>
    advance
    match ← peek with
    | .anchor name =>
      advance
      return (some name, some (← tagName handle suffix))
    | _ => return (none, some (← tagName handle suffix))
  | _ => return (none, none)

def remember (anchor : Option String) (node : Yaml) : NodeReader Yaml := do
  match anchor with
  | some name => modify fun state => { state with anchors := (name, node) :: state.anchors }
  | none => pure ()
  return node

def endsEntry : Token → Bool
  | .blockEntry | .blockEnd => true
  | _ => false

def endsIndentless : Token → Bool
  | .blockEntry | .key | .value | .blockEnd => true
  | _ => false

def endsPart : Token → Bool
  | .key | .value | .blockEnd => true
  | _ => false

def endsFlowKey (close : Token) (token : Token) : Bool :=
  token = .value || token = .flowEntry || token = close

def endsFlowValue (close : Token) (token : Token) : Bool :=
  token = .flowEntry || token = close

mutual

/-- Reads a node. `block` admits block collections, `indentless` a sequence whose dashes stand
in the column of its key. -/
def node : (fuel : Nat) → (block indentless : Bool) → NodeReader Yaml
  | 0, _, _ => refuse .tooDeep
  | fuel + 1, block, indentless => do
    match ← peek with
    | .alias name =>
      advance
      match (← get).anchors.find? (·.1 = name) with
      | some (_, node) => return node
      | none => refuse .unknownAnchor
    | _ =>
      let (anchor, tag) ← properties
      let _ ← remember anchor .enclosing
      match ← peek with
      | .scalar style text =>
        advance
        remember anchor (.scalar tag style text)
      | .flowSequenceStart =>
        advance
        remember anchor (.sequence tag (← flowItems fuel true))
      | .flowMappingStart =>
        advance
        remember anchor (.mapping tag (← flowPairs fuel true))
      | .blockEntry =>
        if indentless then remember anchor (.sequence tag (← indentlessItems fuel))
        else if anchor.isSome || tag.isSome then remember anchor (.scalar tag .plain "")
        else refuse .unexpectedToken
      | .blockSequenceStart =>
        if block then
          advance
          remember anchor (.sequence tag (← blockItems fuel))
        else if anchor.isSome || tag.isSome then remember anchor (.scalar tag .plain "")
        else refuse .unexpectedToken
      | .blockMappingStart =>
        if block then
          advance
          remember anchor (.mapping tag (← blockPairs fuel))
        else if anchor.isSome || tag.isSome then remember anchor (.scalar tag .plain "")
        else refuse .unexpectedToken
      | _ =>
        if anchor.isSome || tag.isSome then remember anchor (.scalar tag .plain "")
        else refuse .unexpectedToken

/-- A node, or nothing where the next token ends its place. -/
def nodeUnless : (fuel : Nat) → (ends : Token → Bool) → (block indentless : Bool) →
    NodeReader Yaml
  | 0, _, _, _ => refuse .tooDeep
  | fuel + 1, ends, block, indentless => do
    if ends (← peek) then return absent else node fuel block indentless

def blockItems : (fuel : Nat) → NodeReader (List Yaml)
  | 0 => refuse .tooDeep
  | fuel + 1 => do
    match ← peek with
    | .blockEntry =>
      advance
      let item ← nodeUnless fuel endsEntry true false
      return item :: (← blockItems fuel)
    | .blockEnd =>
      advance
      return []
    | _ => refuse .unexpectedToken

def indentlessItems : (fuel : Nat) → NodeReader (List Yaml)
  | 0 => refuse .tooDeep
  | fuel + 1 => do
    match ← peek with
    | .blockEntry =>
      advance
      let item ← nodeUnless fuel endsIndentless true false
      return item :: (← indentlessItems fuel)
    | _ => return []

def blockPairs : (fuel : Nat) → NodeReader (List (Yaml × Yaml))
  | 0 => refuse .tooDeep
  | fuel + 1 => do
    match ← peek with
    | .key =>
      advance
      let key ← nodeUnless fuel endsPart true true
      let value ← blockValue fuel
      return (key, value) :: (← blockPairs fuel)
    | .blockEnd =>
      advance
      return []
    | _ => refuse .unexpectedToken

def blockValue : (fuel : Nat) → NodeReader Yaml
  | 0 => refuse .tooDeep
  | fuel + 1 => do
    if (← peek) = .value then
      advance
      nodeUnless fuel endsPart true true
    else return absent

def flowItems : (fuel : Nat) → (first : Bool) → NodeReader (List Yaml)
  | 0, _ => refuse .tooDeep
  | fuel + 1, first => do
    if (← peek) = .flowSequenceEnd then
      advance
      return []
    if !first then
      if (← peek) = .flowEntry then advance else refuse .unexpectedToken
    match ← peek with
    | .flowSequenceEnd =>
      advance
      return []
    | .key =>
      advance
      let pair ← flowPair fuel .flowSequenceEnd
      return .mapping none [pair] :: (← flowItems fuel false)
    | _ =>
      let item ← node fuel false false
      return item :: (← flowItems fuel false)

/-- A key and its value inside a sequence. -/
def flowPair : (fuel : Nat) → (close : Token) → NodeReader (Yaml × Yaml)
  | 0, _ => refuse .tooDeep
  | fuel + 1, close => do
    let key ←
      if endsFlowKey close (← peek) then do
        advance
        pure absent
      else node fuel false false
    let value ← flowValue fuel close
    return (key, value)

def flowValue : (fuel : Nat) → (close : Token) → NodeReader Yaml
  | 0, _ => refuse .tooDeep
  | fuel + 1, close => do
    if (← peek) = .value then
      advance
      nodeUnless fuel (endsFlowValue close) false false
    else return absent

def flowPairs : (fuel : Nat) → (first : Bool) → NodeReader (List (Yaml × Yaml))
  | 0, _ => refuse .tooDeep
  | fuel + 1, first => do
    if (← peek) = .flowMappingEnd then
      advance
      return []
    if !first then
      if (← peek) = .flowEntry then advance else refuse .unexpectedToken
    match ← peek with
    | .flowMappingEnd =>
      advance
      return []
    | .key =>
      advance
      let key ← nodeUnless fuel (endsFlowKey .flowMappingEnd) false false
      let value ← flowValue fuel .flowMappingEnd
      return (key, value) :: (← flowPairs fuel false)
    | _ =>
      let key ← node fuel false false
      return (key, absent) :: (← flowPairs fuel false)

end

def defaultHandles : List (String × String) :=
  [("!", "!"), ("!!", "tag:yaml.org,2002:")]

/-- Reads the directives of a document; whether there was a version among them. -/
def directives : (fuel : Nat) → (versioned : Bool) → (handles : List (String × String)) →
    NodeReader (List (String × String))
  | 0, _, _ => refuse .tooDeep
  | fuel + 1, versioned, handles => do
    match ← peek with
    | .versionDirective major minor =>
      if versioned || major ≠ 1 || (minor ≠ 1 && minor ≠ 2) then refuse .directive
      advance
      directives fuel true handles
    | .tagDirective handle lead =>
      if handles.any (·.1 = handle) then refuse .directive
      advance
      directives fuel versioned ((handle, lead) :: handles)
    | _ => return handles

def isDirective : Token → Bool
  | .versionDirective .. | .tagDirective .. => true
  | _ => false

def endsDocument : Token → Bool
  | .versionDirective .. | .tagDirective .. | .documentStart | .documentEnd | .streamEnd => true
  | _ => false

def skipEnds : (fuel : Nat) → NodeReader Unit
  | 0 => refuse .tooDeep
  | fuel + 1 => do
    if (← peek) = .documentEnd then
      advance
      skipEnds fuel

/-- Reads the one document of a stream. -/
def document (fuel : Nat) : NodeReader Yaml := do
  if (← peek) = .streamEnd then refuse .noDocument
  let root ←
    if isDirective (← peek) || (← peek) = .documentStart then do
      let handles ← directives fuel false []
      modify fun state =>
        { state with handles := handles ++ defaultHandles }
      if (← peek) = .documentStart then advance else refuse .directive
      nodeUnless fuel endsDocument true false
    else node fuel true false
  skipEnds fuel
  if (← peek) = .streamEnd then return root else refuse .manyDocuments

end NodeReader

def read (text : String) : Except ReadError Yaml := do
  match tokens text with
  | .error cause => throw (.scan cause)
  | .ok list =>
    let (root, _) ← (NodeReader.document (4 * list.length + 8)).run
      ⟨list, [], NodeReader.defaultHandles⟩
    return root

end ContractBuild.Yaml
