import MappingMetadata.Text.Numeral

/-!
# Places in a YAML text

Character classes, and cursors that know their line and column. Line breaks are brought to one
form first: a carriage return, alone or before a line feed, and a next-line character each become
a line feed; the line and paragraph separators stay as they are.
-/

namespace MappingMetadata.Yaml

/-! ## Characters -/

/-- May the character occur in a text at all? -/
def isAllowed (c : Char) : Bool :=
  let n := c.toNat
  n == 0x09 || n == 0x0A || n == 0x0D || (0x20 ≤ n && n ≤ 0x7E) || n == 0x85 ||
    (0xA0 ≤ n && n ≤ 0xD7FF) || (0xE000 ≤ n && n ≤ 0xFFFD) || 0x10000 ≤ n

/-- Bring line breaks to one form. -/
def normalizeBreaks : List Char → List Char
  | '\r' :: '\n' :: cs => '\n' :: normalizeBreaks cs
  | c :: cs => (if c = '\r' ∨ c = '\x85' then '\n' else c) :: normalizeBreaks cs
  | [] => []

/-- A space or a tab. -/
def isBlank (c : Char) : Bool := c == ' ' || c == '\t'

/-- A line break in normal form. -/
def isBreak (c : Char) : Bool := c == '\n' || c == '\u2028' || c == '\u2029'

/-- A line break in any form. -/
def isAnyBreak (c : Char) : Bool := isBreak c || c == '\r' || c == '\x85'

/-- A letter or digit, a hyphen or an underscore: what names are made of. -/
def isNameChar (c : Char) : Bool :=
  Text.isDigit c || ('a' ≤ c && c ≤ 'z') || ('A' ≤ c && c ≤ 'Z') || c == '-' || c == '_'

/-- The brackets and the comma of flow collections. -/
def isFlowSign (c : Char) : Bool := c == ',' || c == '[' || c == ']' || c == '\x7b' || c == '\x7d'

/-! ## Cursors -/

/-- A place in a text: what follows, and the line and column. -/
structure Cursor where
  rest : List Char
  line : Nat := 0
  column : Nat := 0

namespace Cursor

/-- The next character. -/
def next? (c : Cursor) : Option Char := c.rest.head?

/-- The character after the next. -/
def second? (c : Cursor) : Option Char := c.rest[1]?

/-- Go past characters of the same line. -/
def skip (c : Cursor) (n : Nat) : Cursor :=
  { c with rest := c.rest.drop n, column := c.column + n }

/-- Go past a line break. -/
def skipBreak (c : Cursor) : Cursor := { rest := c.rest.drop 1, line := c.line + 1 }

/-- Is the next character this one? -/
def at? (c : Cursor) (ch : Char) : Bool := c.next? == some ch

/-- Does a blank, a break or the end come at this place of the text? -/
def gapAt (cs : List Char) : Bool :=
  match cs with
  | [] => true
  | c :: _ => isBlank c || isBreak c

/-- Does a blank, a break or the end come next? -/
def atGap (c : Cursor) : Bool := gapAt c.rest

/-- Three signs of a kind at the beginning of a line, and a gap after them. -/
def atMarker (c : Cursor) (sign : Char) : Bool :=
  c.column == 0 && c.rest.take 3 == [sign, sign, sign] && gapAt (c.rest.drop 3)

/-- The beginning or the end of a document is marked here. -/
def atDocumentMarker (c : Cursor) : Bool := c.atMarker '-' || c.atMarker '.'

/-- The longest run of characters with a property, which holds of no line break. -/
def takeRun (c : Cursor) (p : Char → Bool) : List Char × Cursor :=
  let run := c.rest.takeWhile p
  (run, c.skip run.length)

/-- Go past characters with a property, which holds of no line break. -/
def skipRun (c : Cursor) (p : Char → Bool) : Cursor := (c.takeRun p).2

/-- Go to the end of the line if a comment begins here. -/
def skipComment (c : Cursor) : Cursor :=
  if c.at? '#' then c.skipRun fun ch => !isBreak ch else c

/-- Go past blanks and a comment to the end of the line, and past its break. -/
def endLine? (c : Cursor) : Option Cursor :=
  let c := (c.skipRun isBlank).skipComment
  match c.rest with
  | [] => some c
  | ch :: _ => if isBreak ch then some c.skipBreak else none

end Cursor

end MappingMetadata.Yaml
