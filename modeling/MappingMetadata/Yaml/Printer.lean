import MappingMetadata.Codec.Tree
import MappingMetadata.Yaml.Style

/-!
# Printing YAML

Lists and records are written in block style, empty ones as `[]` and `{}`. A list in a record is
not indented further than the record; lists and records in a list begin on the line of their
hyphen. A key that does not fit on its line stands after a question mark.
-/

namespace MappingMetadata.Yaml

/-- The indentation of a line. -/
def indentation (n : Nat) : List Char := List.replicate n ' '

/-- A digit to base sixteen, in upper case. -/
def hexDigit (n : Nat) : Char := (Nat.digitChar n).toUpper

/-- The last digits of a number to base sixteen. -/
def hexDigits : Nat → Nat → List Char
  | 0, _ => []
  | k + 1, n => hexDigits k (n / 16) ++ [hexDigit (n % 16)]

/-- A character in double quotes. -/
def escape (c : Char) : List Char :=
  if isPrintable c && !isBreak c && c != '"' && c != '\\' then [c]
  else
    '\\' ::
      match c with
      | '\x00' => ['0']
      | '\x07' => ['a']
      | '\x08' => ['b']
      | '\t' => ['t']
      | '\n' => ['n']
      | '\x0B' => ['v']
      | '\x0C' => ['f']
      | '\r' => ['r']
      | '\x1B' => ['e']
      | '"' => ['"']
      | '\\' => ['\\']
      | '\x85' => ['N']
      | '\u2028' => ['L']
      | '\u2029' => ['P']
      | c =>
        let n := c.toNat
        if n ≤ 0xFF then 'x' :: hexDigits 2 n
        else if n ≤ 0xFFFF then 'u' :: hexDigits 4 n
        else 'U' :: hexDigits 8 n

/-- A text whose lines after the first are indented; empty lines stay empty. -/
def indentLines (indent : Nat) (atBreak : Bool) : List Char → List Char
  | [] => []
  | c :: cs =>
    if isBreak c then c :: indentLines indent true cs
    else (if atBreak then indentation indent else []) ++ c :: indentLines indent false cs

/-- A text in single quotes; a single quote is doubled. -/
def singleQuoted (indent : Nat) (cs : List Char) : List Char :=
  let doubled := cs.flatMap fun c => if c = '\'' then ['\'', '\''] else [c]
  let close := if cs.getLast?.any isBreak then indentation indent ++ ['\''] else ['\'']
  '\'' :: indentLines indent false doubled ++ close

/-- What follows the sign of a literal block: that its first line is indented, and what becomes of
the breaks at its end. -/
def literalHeader (cs : List Char) : List Char :=
  let hint := if cs.head?.any fun c => c == ' ' || isBreak c then ['2'] else []
  let chomping := match cs.reverse with
    | a :: rest =>
      if !isBreak a then ['-'] else if rest.head?.all isBreak then ['+'] else []
    | [] => ['-']
  hint ++ chomping

/-- A text as the rest of a line, with the lines that follow indented. -/
def printText (indent : Nat) (s : String) : List Char :=
  let cs := s.toList
  match Style.choose s with
  | .plain => cs ++ ['\n']
  | .single => singleQuoted indent cs ++ ['\n']
  | .double => '"' :: cs.flatMap escape ++ ['"', '\n']
  | .literal =>
    '|' :: literalHeader cs ++ '\n' :: indentLines indent true cs ++
      (if cs.getLast?.any isBreak then [] else ['\n'])

/-- A key that stands in front of its colon. -/
def printKey (s : String) : List Char :=
  let cs := s.toList
  match Style.choose s with
  | .plain => cs
  | .single => singleQuoted 0 cs
  | _ => '"' :: cs.flatMap escape ++ ['"']

/-- A member from its key on, given how its value is printed after a colon that stands on the
line of the key (`false`) or on a line of its own (`true`). -/
def printMember (indent : Nat) (k : String) (value : Bool → List Char) : List Char :=
  if Style.isSimpleKey k then printKey k ++ ':' :: value false
  else '?' :: ' ' :: printText (indent + 2) k ++ indentation indent ++ ':' :: value true

mutual

/-- A value after the sign that introduces it. The line of the sign is indented by `indent`; after
a hyphen, a question mark or the colon of a long key a collection begins on the same line. -/
def printValue (indent : Nat) (sameLine : Bool) : Data → List Char
  | .null => " null\n".toList
  | .bool b => ' ' :: (toString b).toList ++ ['\n']
  | .int n => ' ' :: (toString n.toInt).toList ++ ['\n']
  | .text s => ' ' :: printText (indent + 2) s
  | .list [] => " []\n".toList
  | .list (d :: ds) =>
    if sameLine then
      ' ' :: '-' :: printValue (indent + 2) true d ++ printItems (indent + 2) ds
    else '\n' :: indentation indent ++ '-' :: printValue indent true d ++ printItems indent ds
  | .record [] => " \x7b\x7d\n".toList
  | .record ((k, d) :: ms) =>
    (if sameLine then [' '] else '\n' :: indentation (indent + 2)) ++
      printMember (indent + 2) k (fun sameLine => printValue (indent + 2) sameLine d) ++
        printMembers (indent + 2) ms

/-- Items on lines of their own. -/
def printItems (indent : Nat) : List Data → List Char
  | [] => []
  | d :: ds => indentation indent ++ '-' :: printValue indent true d ++ printItems indent ds

/-- Members on lines of their own. -/
def printMembers (indent : Nat) : List (String × Data) → List Char
  | [] => []
  | (k, d) :: ms =>
    indentation indent ++ printMember indent k (fun sameLine => printValue indent sameLine d) ++
      printMembers indent ms

end

/-- The text of a value. -/
def render (d : Data) : String :=
  String.ofList <|
    match d with
    | .list (d :: ds) => printItems 0 (d :: ds)
    | .record (m :: ms) => printMembers 0 (m :: ms)
    | d => (printValue 0 true d).drop 1

end MappingMetadata.Yaml
