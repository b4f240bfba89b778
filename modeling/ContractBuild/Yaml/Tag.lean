import ContractBuild.Yaml.FlowScalar
/-!
Tags, anchors, and the directives in front of a document.
-/
namespace ContractBuild.Yaml
open Text Cursor

def isUriChar (c : Char) : Bool :=
  isWordChar c || c ∈ [';', '/', '?', ':', '@', '&', '=', '+', '$', '.', '!', '~', '*', '\'', '(', ')']

/-- Characters of a tag; escapes with a percent sign have to stand for ASCII. -/
def scanUri (extra : Bool) : (fuel : Nat) → Cursor → ScanResult (List Char × Cursor)
  | 0, cursor => return ([], cursor)
  | fuel + 1, cursor =>
    match cursor.rest with
    | '%' :: rest =>
      match hexNumber? 2 0 rest with
      | some code =>
        if code < 0x80 then do
          let (text, behind) ← scanUri extra fuel (moved cursor 3)
          return (Char.ofNat code :: text, behind)
        else throw .badTag
      | none => throw .badTag
    | c :: _ =>
      if isUriChar c || (extra && (c = ',' || c = '[' || c = ']')) then do
        let (text, behind) ← scanUri extra fuel cursor.next
        return (c :: text, behind)
      else return ([], cursor)
    | [] => return ([], cursor)

def uri (extra : Bool) (cursor : Cursor) : ScanResult (List Char × Cursor) :=
  scanUri extra (cursor.rest.length + 1) cursor

/-- Scans a tag at its exclamation mark: its handle and suffix. -/
def scanTag (inFlow : Bool) (cursor : Cursor) : ScanResult (Token × Cursor) := do
  let (handle, suffix, behind) ← match cursor.rest with
    | '!' :: '<' :: _ => do
      let (suffix, behind) ← uri true (moved cursor 2)
      if suffix.isEmpty || behind.rest.head? ≠ some '>' then throw .badTag
      pure (([] : List Char), suffix, behind.next)
    | _ => do
      let (word, behind) := cursor.next.span isWordChar
      if behind.rest.head? = some '!' then
        let (suffix, behind) ← uri false behind.next
        if suffix.isEmpty then throw .badTag
        pure ('!' :: word ++ ['!'], suffix, behind)
      else
        let (more, behind) ← uri false behind
        let suffix := word ++ more
        pure (if suffix.isEmpty then ([], ['!'], behind) else (['!'], suffix, behind))
  if endsWord behind.rest || (inFlow && behind.rest.head? = some ',') then
    return (.tag (String.ofList handle) (String.ofList suffix), behind)
  else throw .badTag

def scanName (cursor : Cursor) : ScanResult (String × Cursor) := do
  let (name, behind) := cursor.span isWordChar
  let closed := endsWord behind.rest
    || (behind.rest.head?.any (· ∈ ['?', ':', ',', ']', '\x7d', '%', '@', '\x60']))
  if name.isEmpty || !closed then throw .badAnchor
  return (String.ofList name, behind)

def scanVersionPart (cursor : Cursor) : ScanResult (Nat × Cursor) := do
  let (digits, behind) := cursor.span Numeral.isDigit
  if digits.isEmpty || digits.length > 9 then throw .badDirective
  return (Numeral.accumulate 0 digits, behind)

/-- Scans a directive at its percent sign, to the end of its line. -/
def scanDirective (cursor : Cursor) : ScanResult (Token × Cursor) := do
  let (name, cursor) := cursor.next.span isWordChar
  if name.isEmpty || !endsWord cursor.rest then throw .badDirective
  let cursor := cursor.skip isGap
  let (token, cursor) ←
    if name = "YAML".toList then do
      let (major, cursor) ← scanVersionPart cursor
      if cursor.rest.head? ≠ some '.' then throw .badDirective
      let (minor, cursor) ← scanVersionPart cursor.next
      pure (Token.versionDirective major minor, cursor)
    else if name = "TAG".toList then do
      if cursor.rest.head? ≠ some '!' then throw .badDirective
      let (word, behind) := cursor.next.span isWordChar
      let (handle, cursor) ←
        if behind.rest.head? = some '!' then pure ('!' :: word ++ ['!'], behind.next)
        else if word.isEmpty then pure (['!'], behind)
        else throw .badDirective
      if !(cursor.rest.head?.any isGap) then throw .badDirective
      let (lead, cursor) ← uri true (cursor.skip isGap)
      if lead.isEmpty || !endsWord cursor.rest then throw .badDirective
      pure (Token.tagDirective (String.ofList handle) (String.ofList lead), cursor)
    else throw .badDirective
  let cursor := (cursor.skip isGap).skipComment
  if !endsLine cursor.rest then throw .badDirective
  return (token, cursor.nextLine.2)

end ContractBuild.Yaml
