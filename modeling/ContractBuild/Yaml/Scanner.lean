import ContractBuild.Yaml.BlockScalar
import ContractBuild.Yaml.Tag
/-!
Scanning a YAML stream for its tokens. Block structure is found from indentation: a deeper column
opens a block and a shallower one closes it. A key without its own indicator is recognised only
when its colon is met, so its tokens are put in front of it afterwards.
-/
namespace ContractBuild.Yaml
open Text Cursor

/-- A place that turns out to be a key if a colon follows in time. -/
structure PendingKey where
  required : Bool
  position : Nat
  index : Nat
  line : Nat
  column : Nat

/-- `keys` has one entry for the block level and one for each open flow collection, innermost
first. -/
structure Scanner where
  cursor : Cursor
  indent : Int
  outer : List Int
  keys : List (Option PendingKey)
  keyAllowed : Bool
  tokens : Array Token

namespace Scanner

def inFlow (scanner : Scanner) : Bool :=
  scanner.keys.length > 1

def emit (scanner : Scanner) (token : Token) : Scanner :=
  { scanner with tokens := scanner.tokens.push token }

/-- Puts a token in front of those from a position on. -/
def insert (scanner : Scanner) (position : Nat) (token : Token) : Scanner :=
  let tokens := scanner.tokens.toList
  { scanner with tokens := (tokens.take position ++ token :: tokens.drop position).toArray }

/-- Takes one character that is a token of its own. -/
def take (scanner : Scanner) (token : Token) : Scanner :=
  { scanner.emit token with cursor := scanner.cursor.next }

def expired (cursor : Cursor) (key : PendingKey) : Bool :=
  key.line < cursor.line || key.index + 1024 < cursor.index

def expireKeys (cursor : Cursor) : List (Option PendingKey) →
    ScanResult (List (Option PendingKey))
  | [] => return []
  | none :: keys => return none :: (← expireKeys cursor keys)
  | some key :: keys =>
    if expired cursor key then
      if key.required then throw .missingColon
      else return none :: (← expireKeys cursor keys)
    else return some key :: (← expireKeys cursor keys)

def dropStale (scanner : Scanner) : ScanResult Scanner := do
  return { scanner with keys := ← expireKeys scanner.cursor scanner.keys }

/-- Gives up the innermost possible key. -/
def dropKey (scanner : Scanner) : ScanResult Scanner :=
  match scanner.keys with
  | some key :: keys =>
    if key.required then throw .missingColon else return { scanner with keys := none :: keys }
  | _ => return scanner

/-- Remembers that a key may start here. -/
def noteKey (scanner : Scanner) : ScanResult Scanner := do
  if scanner.keyAllowed then
    let scanner ← scanner.dropKey
    let cursor := scanner.cursor
    let required := !scanner.inFlow && scanner.indent = cursor.column
    let key : PendingKey :=
      ⟨required, scanner.tokens.size, cursor.index, cursor.line, cursor.column⟩
    return { scanner with keys := some key :: scanner.keys.tail }
  else return scanner

/-- Opens a block at a deeper column, at a position among the tokens or at their end. -/
def openBlock (scanner : Scanner) (column : Nat) (position : Option Nat) (token : Token) :
    Scanner :=
  if scanner.inFlow || !(scanner.indent < column) then scanner
  else
    let scanner := { scanner with indent := column, outer := scanner.indent :: scanner.outer }
    match position with
    | none => scanner.emit token
    | some position => scanner.insert position token

def closeLoop (column : Int) : List Int → Scanner → Scanner
  | [], scanner => scanner
  | indent :: outer, scanner =>
    if column < scanner.indent then
      closeLoop column outer { scanner.emit .blockEnd with indent, outer }
    else scanner

/-- Closes the blocks that are deeper than a column. -/
def closeBlocks (scanner : Scanner) (column : Int) : Scanner :=
  if scanner.inFlow then scanner else closeLoop column scanner.outer scanner

def skipToTokenLoop : (fuel : Nat) → Scanner → Scanner
  | 0, scanner => scanner
  | fuel + 1, scanner =>
    let tabs := scanner.inFlow || !scanner.keyAllowed
    let cursor := (scanner.cursor.skipMark.skip fun c => c = ' ' || (tabs && c = '\t')).skipComment
    match cursor.rest with
    | c :: _ =>
      if isBreak c then
        skipToTokenLoop fuel { scanner with
          cursor := cursor.nextLine.2
          keyAllowed := scanner.keyAllowed || !scanner.inFlow }
      else { scanner with cursor }
    | [] => { scanner with cursor }

/-- Skips blanks, comments and line ends. A tab may stand only where no block can begin, and a
byte order mark only where a line begins. -/
def skipToToken (scanner : Scanner) : Scanner :=
  skipToTokenLoop (scanner.cursor.rest.length + 1) scanner

def onColumnZero (scanner : Scanner) (scan : Cursor → ScanResult (Token × Cursor)) :
    ScanResult Scanner := do
  let scanner ← (scanner.closeBlocks (-1)).dropKey
  let (token, cursor) ← scan scanner.cursor
  return { scanner.emit token with cursor, keyAllowed := false }

def flowStart (scanner : Scanner) (token : Token) : ScanResult Scanner := do
  let scanner ← scanner.noteKey
  return { scanner.take token with keys := none :: scanner.keys, keyAllowed := true }

def flowEnd (scanner : Scanner) (token : Token) : ScanResult Scanner := do
  let scanner ← scanner.dropKey
  let keys := if scanner.inFlow then scanner.keys.tail else scanner.keys
  return { scanner.take token with keys, keyAllowed := false }

def blockMark (scanner : Scanner) (refusal : ScanError) (start token : Token)
    (keyAllowed : Bool) : ScanResult Scanner := do
  if !scanner.inFlow && !scanner.keyAllowed then throw refusal
  let scanner ← (scanner.openBlock scanner.cursor.column none start).dropKey
  return { scanner.take token with keyAllowed }

def valueMark (scanner : Scanner) : ScanResult Scanner := do
  match scanner.keys with
  | some key :: keys =>
    let scanner := (scanner.insert key.position .key).openBlock key.column (some key.position)
      .blockMappingStart
    return { scanner.take .value with keys := none :: keys, keyAllowed := false }
  | _ =>
    if !scanner.inFlow && !scanner.keyAllowed then throw .misplacedValue
    let scanner := scanner.openBlock scanner.cursor.column none .blockMappingStart
    return { scanner.take .value with keyAllowed := !scanner.inFlow }

/-- A token that may begin a key. -/
def keyed (scanner : Scanner) (scan : Cursor → ScanResult (Token × Cursor)) :
    ScanResult Scanner := do
  let scanner ← scanner.noteKey
  let (token, cursor) ← scan scanner.cursor
  return { scanner.emit token with cursor, keyAllowed := false }

def startsPlain (inFlow : Bool) : List Char → Bool
  | [] => false
  | c :: rest =>
    if c = '-' then !(rest.head?.any isGap)
    else if c = '?' || c = ':' then !inFlow && !endsWord rest
    else c ∉ [',', '[', ']', '\x7b', '\x7d', '#', '&', '*', '!', '|', '>', '\'', '"', '%', '@', '\x60']
      && !isGap c && !isBreak c

def plainToken (scanner : Scanner) : ScanResult Scanner := do
  let scanner ← scanner.noteKey
  let cursor := scanner.cursor
  let (text, broken, behind) ← scanPlain scanner.inFlow (scanner.indent + 1)
    (cursor.rest.length + 1) [] emptyGap cursor
  return { scanner.emit (.scalar .plain (String.ofList text)) with
    cursor := behind, keyAllowed := broken }

def quotedToken (single : Bool) (cursor : Cursor) : ScanResult (Token × Cursor) := do
  let (text, behind) ← scanQuoted single (cursor.rest.length + 1) [] cursor.next
  return (.scalar .marked (String.ofList text), behind)

def blockToken (scanner : Scanner) (literal : Bool) : ScanResult Scanner := do
  let scanner ← scanner.dropKey
  let (text, cursor) ← scanBlock literal scanner.indent scanner.cursor.next
  let style : ScalarStyle := if literal then .literal else .marked
  return { scanner.emit (.scalar style (String.ofList text)) with cursor, keyAllowed := true }

/-- Scans the token at the cursor, behind blanks and comments; at the end there is none. -/
def scanToken (scanner : Scanner) : ScanResult Scanner := do
  let cursor := scanner.cursor
  let inFlow := scanner.inFlow
  match cursor.rest with
  | [] =>
    let scanner ← (scanner.closeBlocks (-1)).dropKey
    return scanner.emit .streamEnd
  | c :: rest =>
    if cursor.column = 0 && c = '%' then scanner.onColumnZero scanDirective
    else if cursor.atDocumentMark then
      scanner.onColumnZero fun cursor =>
        return (if c = '-' then .documentStart else .documentEnd, moved cursor 3)
    else if c = '[' then scanner.flowStart .flowSequenceStart
    else if c = '\x7b' then scanner.flowStart .flowMappingStart
    else if c = ']' then scanner.flowEnd .flowSequenceEnd
    else if c = '\x7d' then scanner.flowEnd .flowMappingEnd
    else if c = ',' then do
      let scanner ← scanner.dropKey
      return { scanner.take .flowEntry with keyAllowed := true }
    else if c = '-' && endsWord rest then
      scanner.blockMark .misplacedEntry .blockSequenceStart .blockEntry true
    else if c = '?' && (inFlow || endsWord rest) then
      scanner.blockMark .misplacedKey .blockMappingStart .key (!inFlow)
    else if c = ':' && (inFlow || endsWord rest) then scanner.valueMark
    else if c = '*' then
      scanner.keyed fun cursor => do
        let (name, behind) ← scanName cursor.next
        return (.alias name, behind)
    else if c = '&' then
      scanner.keyed fun cursor => do
        let (name, behind) ← scanName cursor.next
        return (.anchor name, behind)
    else if c = '!' then scanner.keyed (scanTag inFlow)
    else if c = '|' && !inFlow then scanner.blockToken true
    else if c = '>' && !inFlow then scanner.blockToken false
    else if c = '\'' then scanner.keyed (quotedToken true)
    else if c = '"' then scanner.keyed (quotedToken false)
    else if startsPlain inFlow cursor.rest then scanner.plainToken
    else throw .unexpectedCharacter

def scanLoop : (fuel : Nat) → Scanner → ScanResult Scanner
  | 0, scanner => return scanner
  | fuel + 1, scanner => do
    let scanner ← scanner.skipToToken.dropStale
    let scanner := scanner.closeBlocks scanner.cursor.column
    let ended := scanner.cursor.rest.isEmpty
    let scanner ← scanToken scanner
    if ended then return scanner else scanLoop fuel scanner

end Scanner

/-- Characters that may occur in a stream at all. -/
def isStreamChar (c : Char) : Bool :=
  let n := c.toNat
  n = 0x09 || n = 0x0A || n = 0x0D || (0x20 ≤ n && n ≤ 0x7E) || n = 0x85
    || (0xA0 ≤ n && n ≤ 0xD7FF) || (0xE000 ≤ n && n ≤ 0xFFFD) || 0x10000 ≤ n

/-- The tokens of a text, ended by the end of the stream. -/
def tokens (text : String) : ScanResult (List Token) := do
  let chars := text.toList
  if !chars.all isStreamChar then throw .controlCharacter
  let scanner ← Scanner.scanLoop (chars.length + 1)
    ⟨⟨chars, 0, 0, 0⟩, -1, [], [none], true, #[]⟩
  return scanner.tokens.toList

end ContractBuild.Yaml
