import MappingMetadata.Yaml.Cursor
import MappingMetadata.Yaml.Schema

/-!
# How a text is written as a scalar

A text with line feeds is best written as a literal block, one that would mean something else
when plain in single quotes, any other one plain. Where the characters do not allow that style,
the next more powerful one is taken: single quotes, then double quotes, in which everything can
be written.
-/

namespace MappingMetadata.Yaml

/-- A style in which a text is written. -/
inductive Style where
  | plain | single | double | literal
  deriving DecidableEq, Repr

/-- May the character stand for itself? -/
def isPrintable (c : Char) : Bool :=
  let n := c.toNat
  n == 0x0A || (0x20 ≤ n && n ≤ 0x7E) ||
    (0xA0 ≤ n && n != 0xFEFF && n != 0xFFFE && n != 0xFFFF)

namespace Style

/-- Would the text mean something else than a text if it were plain? -/
def isAmbiguous (s : String) : Bool :=
  Schema.meaning s != .text || Schema.hasLeadingZero s

/-- The style that suits a text best. -/
def preferred (s : String) : Style :=
  if s.toList.contains '\n' then .literal else if isAmbiguous s then .single else .plain

/-- Does the text have a character with the property, followed by one with another? -/
def hasPair (p q : Char → Bool) : List Char → Bool
  | a :: b :: cs => (p a && q b) || hasPair p q (b :: cs)
  | _ => false

/-- A colon before a gap, or a number sign after one. -/
def hasIndicator : List Char → Bool
  | [] => false
  | a :: cs =>
    (a == ':' && Cursor.gapAt cs) ||
      ((isBlank a || isBreak a) && cs.head? == some '#') || hasIndicator cs

/-- Does the beginning of the text read as something else than a plain scalar? -/
def beginsOther (cs : List Char) : Bool :=
  cs.take 3 == ['-', '-', '-'] || cs.take 3 == ['.', '.', '.'] ||
    match cs with
    | [] => false
    | c :: rest =>
      "#,[]\x7b\x7d&*!|>'\"%@\x60".toList.contains c ||
        ((c == '?' || c == ':' || c == '-') && Cursor.gapAt rest)

/-- Does the text have line breaks of any form? -/
def isMultiline (cs : List Char) : Bool := cs.any isAnyBreak

def isSpace (c : Char) : Bool := c == ' '

/-- Nothing but double quotes can hold the text. -/
def needsEscapes (cs : List Char) : Bool := !cs.all isPrintable || hasPair isSpace isBreak cs

/-- May the text be written plain? -/
def allowsPlain (cs : List Char) : Bool :=
  !(needsEscapes cs || isMultiline cs || cs.head?.any isSpace || cs.getLast?.any isSpace ||
    beginsOther cs || hasIndicator cs)

/-- May the text be written in single quotes? -/
def allowsSingle (cs : List Char) : Bool := !(needsEscapes cs || hasPair isBreak isSpace cs)

/-- May the text be written as a literal block? -/
def allowsLiteral (cs : List Char) : Bool :=
  !(needsEscapes cs || cs.isEmpty || cs.getLast?.any isSpace)

/-- The style in which a text is written. -/
def choose (s : String) : Style :=
  let cs := s.toList
  let quoted : Style := if allowsSingle cs then .single else .double
  match preferred s with
  | .literal => if allowsLiteral cs then .literal else .double
  | .plain => if allowsPlain cs then .plain else quoted
  | _ => quoted

/-- May the text be a key in front of its colon on one line? -/
def isSimpleKey (s : String) : Bool := !isMultiline s.toList && s.utf8ByteSize ≤ 128

end Style

end MappingMetadata.Yaml
