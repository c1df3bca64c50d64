import MappingMetadata.Codec.Tree
import MappingMetadata.Yaml.ScalarText

/-!
# Tokens of YAML

A text is cut into tokens in one pass. Block structure shows in indentation, so the pass keeps the
columns of the open block collections; and as a key is recognised only by the colon after it, the
pass remembers where a key may have begun and puts the token for it in later.

A remembered key is good on its own line and for 1024 characters. It is required where the block
mapping it belongs to could not go on otherwise.
-/

namespace MappingMetadata.Yaml

/-- A token. -/
inductive Token where
  /-- A directive that names the version of the language. -/
  | version (major minor : Nat)
  /-- A directive that gives a handle to the beginning of tags. -/
  | tagHandle (handle start : String)
  | documentStart | documentEnd
  | blockListStart | blockMapStart | blockEnd
  | flowListStart | flowListEnd | flowMapStart | flowMapEnd
  | blockEntry | flowEntry | key | value
  | alias (name : String)
  | anchor (name : String)
  | tag (handle suffix : String)
  | scalar (text : String) (style : ScalarStyle)
  deriving DecidableEq, Repr

/-- The place where a key may have begun. -/
structure KeyPlace where
  /-- Must a key have begun here? -/
  required : Bool
  /-- How many tokens there were before it. -/
  number : Nat
  line : Nat
  column : Nat

/-- The state of the pass. -/
structure Scanner where
  cursor : Cursor
  /-- The columns of the open block collections, the innermost first. -/
  indents : List Nat := []
  /-- A possible key for the block context and each open flow collection, the innermost first. -/
  keys : List (Option KeyPlace) := [none]
  /-- May a key begin here? -/
  keyAllowed : Bool := true
  /-- The tokens, the latest first. -/
  tokens : List Token := []

namespace Scanner

/-- Are there open flow collections? -/
def inFlow (s : Scanner) : Bool := 1 < s.keys.length

/-- The column of the innermost block collection; -1 outside of all. -/
def indent (s : Scanner) : Int := (s.indents.head?.map Int.ofNat).getD (-1)

/-- Add a token. -/
def emit (s : Scanner) (t : Token) : Scanner := { s with tokens := t :: s.tokens }

/-- Put a token in after the first `number` ones. -/
def insert (s : Scanner) (number : Nat) (t : Token) : Scanner :=
  let after := s.tokens.length - number
  { s with tokens := s.tokens.take after ++ t :: s.tokens.drop after }

/-- Forget the keys that would be too long or span lines; none if one of them is required. -/
def dropStaleKeys (s : Scanner) : Option Scanner := do
  let keys ← s.keys.mapM fun key =>
    match key with
    | some k =>
      if k.line < s.cursor.line || k.column + 1024 < s.cursor.column then
        if k.required then none else some none
      else some (some k)
    | none => some none
  return { s with keys := keys }

/-- Forget the innermost possible key; none if it is required. -/
def dropKey (s : Scanner) : Option Scanner :=
  match s.keys with
  | some k :: rest => if k.required then none else some { s with keys := none :: rest }
  | _ => some s

/-- Remember that a key may begin here. -/
def saveKey (s : Scanner) : Option Scanner :=
  if s.keyAllowed then do
    let required := !s.inFlow && s.indent == Int.ofNat s.cursor.column
    let place : KeyPlace := ⟨required, s.tokens.length, s.cursor.line, s.cursor.column⟩
    let s ← s.dropKey
    return { s with keys := some place :: s.keys.drop 1 }
  else some s

/-- Open a block collection at a column that is deeper than the innermost one. -/
def openBlock (s : Scanner) (column number : Nat) (t : Token) : Scanner :=
  if !s.inFlow && s.indent < Int.ofNat column then
    { s.insert number t with indents := column :: s.indents }
  else s

/-- Close the block collections that are deeper than a column. -/
def closeBlocks (s : Scanner) (column : Int) : Scanner :=
  if s.inFlow then s
  else
    let closed := s.indents.takeWhile fun i => column < Int.ofNat i
    { s with
      indents := s.indents.drop closed.length
      tokens := closed.map (fun _ => Token.blockEnd) ++ s.tokens }

/-- Go on from another cursor. -/
def moveTo (s : Scanner) (c : Cursor) : Scanner := { s with cursor := c }

/-- Allow or forbid that a key begins here. -/
def allowKey (s : Scanner) (allowed : Bool) : Scanner := { s with keyAllowed := allowed }

/-! ## Between tokens -/

/-- Go past blanks, comments and line breaks. A tab counts as blank only where no key can begin. -/
def skipToToken (s : Scanner) : Scanner :=
  go s.inFlow s.keyAllowed s.cursor.line s.cursor.column false s.cursor.rest
where
  go (inFlow allowed : Bool) (line column : Nat) (comment : Bool) : List Char → Scanner
    | [] => { s with cursor := ⟨[], line, column⟩, keyAllowed := allowed }
    | c :: cs =>
      if isBreak c then go inFlow (allowed || !inFlow) (line + 1) 0 false cs
      else if comment then go inFlow allowed line (column + 1) true cs
      else if c == ' ' || (c == '\t' && (inFlow || !allowed)) then
        go inFlow allowed line (column + 1) false cs
      else if c == '#' then go inFlow allowed line (column + 1) true cs
      else { s with cursor := ⟨c :: cs, line, column⟩, keyAllowed := allowed }

/-! ## Directives -/

/-- A number of one to nine digits. -/
def versionNumber? (c : Cursor) : Option (Nat × Cursor) :=
  let (digits, c) := c.takeRun Text.isDigit
  if digits.isEmpty || 9 < digits.length then none else some (Text.ofDigits digits, c)

/-- The characters of tags and of what tags begin with; some only where no bracket or comma can
be meant. -/
def isTagChar (brackets : Bool) (c : Char) : Bool :=
  isNameChar c || ";/?:@&=+$.!~*'()".toList.contains c ||
    (brackets && (c == ',' || c == '[' || c == ']'))

/-- The number of further bytes that a leading byte announces. -/
def continuationBytes? (b : Nat) : Option Nat :=
  if b < 0x80 then some 0
  else if 0xC0 ≤ b ∧ b < 0xE0 then some 1
  else if 0xE0 ≤ b ∧ b < 0xF0 then some 2
  else if 0xF0 ≤ b ∧ b < 0xF8 then some 3
  else none

/-- A byte that is escaped by a percent sign and two digits. -/
def escapedByte? : List Char → Option (Nat × List Char)
  | '%' :: a :: b :: cs => (Text.natural? 16 [a, b]).map fun n => (n, cs)
  | _ => none

/-- Further bytes of an escaped character. -/
def escapedTail? : Nat → List UInt8 → List Char → Option (List UInt8 × List Char)
  | 0, bytes, cs => some (bytes, cs)
  | n + 1, bytes, cs =>
    match escapedByte? cs with
    | some (b, cs) =>
      if 0x80 ≤ b ∧ b < 0xC0 then escapedTail? n (bytes ++ [b.toUInt8]) cs else none
    | none => none

/-- A character whose bytes are escaped. -/
def escapedChar? (cs : List Char) : Option (List Char × List Char) := do
  let (b, cs) ← escapedByte? cs
  let n ← continuationBytes? b
  let (bytes, cs) ← escapedTail? n [b.toUInt8] cs
  let s ← String.fromUTF8? ⟨bytes.toArray⟩
  return (s.toList, cs)

/-- The characters of a tag, the escaped ones decoded. -/
def tagChars (brackets : Bool) : Nat → List Char → List Char → Option (List Char × List Char)
  | 0, _, _ => none
  | steps + 1, text, cs =>
    match cs with
    | [] => some (text, [])
    | c :: rest =>
      if c == '%' then
        (escapedChar? cs).bind fun p => tagChars brackets steps (text ++ p.1) p.2
      else if isTagChar brackets c then tagChars brackets steps (text ++ [c]) rest
      else some (text, cs)

/-- The characters of a tag at a cursor. -/
def takeTagChars (brackets : Bool) (c : Cursor) : Option (List Char × Cursor) :=
  (tagChars brackets (c.rest.length + 1) [] c.rest).map fun p =>
    (p.1, c.skip (c.rest.length - p.2.length))

/-- A handle: an exclamation mark, and perhaps a name and a second mark. -/
def takeHandle (c : Cursor) : Option (List Char × Cursor) :=
  if c.at? '!' then
    let (name, c) := (c.skip 1).takeRun isNameChar
    if c.at? '!' then some ('!' :: name ++ ['!'], c.skip 1) else some ('!' :: name, c)
  else none

/-- A directive after its percent sign, up to the end of the line. -/
def directive? (c : Cursor) : Option (Token × Cursor) := do
  let (name, c) := c.takeRun isNameChar
  if !c.atGap then none
  let c := c.skipRun isBlank
  if name == "YAML".toList then
    let (major, c) ← versionNumber? c
    if !c.at? '.' then none
    let (minor, c) ← versionNumber? (c.skip 1)
    return (.version major minor, ← c.endLine?)
  else if name == "TAG".toList then
    let (handle, c) ← takeHandle c
    if handle.getLast? != some '!' then none
    if !c.next?.any isBlank then none
    let (start, c) ← takeTagChars true (c.skipRun isBlank)
    if start.isEmpty || !c.atGap then none
    return (.tagHandle (String.ofList handle) (String.ofList start), ← c.endLine?)
  else none

/-! ## Anchors and tags -/

/-- A name after `&` or `*`. -/
def name? (c : Cursor) : Option (String × Cursor) :=
  let (name, c) := c.takeRun isNameChar
  let ends := c.atGap || (c.next?.any fun ch => "?:,]\x7d%@\x60".toList.contains ch)
  if name.isEmpty || !ends then none else some (String.ofList name, c)

/-- A tag: in angle brackets, after a handle, or after a single exclamation mark. -/
def tag? (c : Cursor) (inFlow : Bool) : Option (Token × Cursor) := do
  let (t, c) ←
    if c.second? == some '<' then do
      let (text, c) ← takeTagChars true (c.skip 2)
      if text.isEmpty || !c.at? '>' then none
      pure (Token.tag "" (String.ofList text), c.skip 1)
    else do
      let (handle, c) ← takeHandle c
      let (text, c) ← takeTagChars false c
      if 1 < handle.length && handle.getLast? == some '!' then
        if text.isEmpty then none
        pure (Token.tag (String.ofList handle) (String.ofList text), c)
      else
        let suffix := handle.drop 1 ++ text
        if suffix.isEmpty then pure (Token.tag "" "!", c)
        else pure (Token.tag "!" (String.ofList suffix), c)
  if c.atGap || (inFlow && c.at? ',') then return (t, c) else none

/-! ## One token -/

/-- A bracket that opens a flow collection. -/
def openFlow (s : Scanner) (t : Token) : Option Scanner := do
  let s ← s.saveKey
  let s := { s with keys := none :: s.keys }
  return ((s.allowKey true).moveTo (s.cursor.skip 1)).emit t

/-- A bracket that closes a flow collection. -/
def closeFlow (s : Scanner) (t : Token) : Option Scanner := do
  let s ← s.dropKey
  let s := if s.inFlow then { s with keys := s.keys.drop 1 } else s
  return ((s.allowKey false).moveTo (s.cursor.skip 1)).emit t

/-- The comma of a flow collection. -/
def flowEntry (s : Scanner) : Option Scanner := do
  let s ← s.dropKey
  return ((s.allowKey true).moveTo (s.cursor.skip 1)).emit .flowEntry

/-- The hyphen of a block list. -/
def blockEntry (s : Scanner) : Option Scanner := do
  if !s.inFlow && !s.keyAllowed then none
  let s := s.openBlock s.cursor.column s.tokens.length .blockListStart
  let s ← s.dropKey
  return ((s.allowKey true).moveTo (s.cursor.skip 1)).emit .blockEntry

/-- The question mark in front of a key. -/
def explicitKey (s : Scanner) : Option Scanner := do
  if !s.inFlow && !s.keyAllowed then none
  let s := s.openBlock s.cursor.column s.tokens.length .blockMapStart
  let s ← s.dropKey
  return ((s.allowKey !s.inFlow).moveTo (s.cursor.skip 1)).emit .key

/-- The colon in front of a value. It turns what was remembered into a key. -/
def valueMark (s : Scanner) : Option Scanner :=
  match s.keys with
  | some k :: rest =>
    let s := { s with keys := none :: rest }
    let s := (s.insert k.number .key).openBlock k.column k.number .blockMapStart
    some (((s.allowKey false).moveTo (s.cursor.skip 1)).emit .value)
  | _ =>
    if !s.inFlow && !s.keyAllowed then none
    else
      let s := s.openBlock s.cursor.column s.tokens.length .blockMapStart
      some (((s.allowKey !s.inFlow).moveTo (s.cursor.skip 1)).emit .value)

/-- An anchor or an alias. -/
def named (s : Scanner) (t : String → Token) : Option Scanner := do
  let s ← s.saveKey
  let (name, c) ← name? (s.cursor.skip 1)
  return ((s.allowKey false).moveTo c).emit (t name)

/-- A tag in front of a node. -/
def tag (s : Scanner) : Option Scanner := do
  let s ← s.saveKey
  let (t, c) ← tag? s.cursor s.inFlow
  return ((s.allowKey false).moveTo c).emit t

/-- A scalar in quotes. -/
def quotedScalar (s : Scanner) (double : Bool) : Option Scanner := do
  let s ← s.saveKey
  let (text, c) ← s.cursor.quoted double
  return ((s.allowKey false).moveTo c).emit (.scalar text .other)

/-- A block scalar. -/
def blockScalar (s : Scanner) (literal : Bool) : Option Scanner := do
  let s ← s.dropKey
  let (text, c) ← s.cursor.block literal s.indent
  return ((s.allowKey true).moveTo c).emit (.scalar text (if literal then .literal else .other))

/-- A plain scalar. -/
def plainScalar (s : Scanner) : Option Scanner := do
  let s ← s.saveKey
  let (text, newLine, c) ← s.cursor.plain s.inFlow (s.indent + 1).toNat
  return ((s.allowKey newLine).moveTo c).emit (.scalar text .plain)

/-- The mark at the beginning or the end of a document. -/
def documentMark (s : Scanner) (t : Token) : Option Scanner := do
  let s ← (s.closeBlocks (-1)).dropKey
  return ((s.allowKey false).moveTo (s.cursor.skip 3)).emit t

/-- A directive. -/
def directive (s : Scanner) : Option Scanner := do
  let s ← (s.closeBlocks (-1)).dropKey
  let (t, c) ← directive? (s.cursor.skip 1)
  return ((s.allowKey false).moveTo c).emit t

/-- May a plain scalar begin with this character, given the rest of the text after it? -/
def beginsPlain (inFlow : Bool) (ch : Char) (cs : List Char) : Bool :=
  !("-?:,[]\x7b\x7d#&*!|>'\"%@\x60".toList.contains ch || isBlank ch || isBreak ch) ||
    (ch == '-' && !cs.head?.any isBlank) ||
    (!inFlow && (ch == '?' || ch == ':') && !Cursor.gapAt cs)

/-- Take the token at the cursor, which is neither at a blank nor at the end of the text. -/
def token (s : Scanner) : Option Scanner :=
  let c := s.cursor
  match c.rest with
  | [] => none
  | ch :: cs =>
    let gapFollows := Cursor.gapAt cs
    if c.column == 0 && ch == '%' then s.directive
    else if c.atMarker '-' then s.documentMark .documentStart
    else if c.atMarker '.' then s.documentMark .documentEnd
    else if ch == '[' then s.openFlow .flowListStart
    else if ch == '\x7b' then s.openFlow .flowMapStart
    else if ch == ']' then s.closeFlow .flowListEnd
    else if ch == '\x7d' then s.closeFlow .flowMapEnd
    else if ch == ',' then s.flowEntry
    else if ch == '-' && gapFollows then s.blockEntry
    else if ch == '?' && (s.inFlow || gapFollows) then s.explicitKey
    else if ch == ':' && (s.inFlow || gapFollows) then s.valueMark
    else if ch == '*' then s.named .alias
    else if ch == '&' then s.named .anchor
    else if ch == '!' then s.tag
    else if ch == '|' && !s.inFlow then s.blockScalar true
    else if ch == '>' && !s.inFlow then s.blockScalar false
    else if ch == '\'' then s.quotedScalar false
    else if ch == '"' then s.quotedScalar true
    else if beginsPlain s.inFlow ch cs then s.plainScalar
    else none

/-- Take the tokens up to the end of the text. Every token takes at least one character. -/
def scan : Nat → Scanner → Option Scanner
  | 0, _ => none
  | steps + 1, s => do
    let s ← s.skipToToken.dropStaleKeys
    let s := s.closeBlocks s.cursor.column
    if s.cursor.rest.isEmpty then (s.closeBlocks (-1)).dropKey
    else scan steps (← s.token)

end Scanner

/-- The tokens of a text. A mark for the order of bytes may stand in front. -/
def tokens? (text : String) : Option (List Token) := do
  let cs := text.toList
  if !cs.all isAllowed then none
  let cs := normalizeBreaks cs
  let start : Cursor := match cs with
    | '\uFEFF' :: cs => { rest := cs, column := 1 }
    | cs => { rest := cs }
  let s ← Scanner.scan (cs.length + 2) { cursor := start }
  return s.tokens.reverse

end MappingMetadata.Yaml
