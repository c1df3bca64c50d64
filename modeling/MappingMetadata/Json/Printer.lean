import MappingMetadata.Codec.Tree

/-!
# Printing JSON

Every item and every member stands on a line of its own, two blanks further in than what holds
it; an empty list or record stays on one line. Only quotes, backslashes and control characters
are escaped.
-/

namespace MappingMetadata.Json

/-- The digits of a control character as a code unit. -/
def hexUnit (n : Nat) : List Char :=
  ['0', '0', (Nat.digitChar (n / 16)), (Nat.digitChar (n % 16))]

/-- A character in a string. -/
def escape (c : Char) : List Char :=
  if c = '"' then ['\\', '"']
  else if c = '\\' then ['\\', '\\']
  else if c = '\n' then ['\\', 'n']
  else if c = '\r' then ['\\', 'r']
  else if c = '\t' then ['\\', 't']
  else if c = '\x08' then ['\\', 'b']
  else if c = '\x0C' then ['\\', 'f']
  else if c.toNat < 0x20 then '\\' :: 'u' :: hexUnit c.toNat
  else [c]

/-- A string in quotes. -/
def quote (s : String) : List Char := '"' :: s.toList.flatMap escape ++ ['"']

/-- The line break in front of a line of the given level. -/
def newline (level : Nat) : List Char := '\n' :: List.replicate (2 * level) ' '

mutual

/-- A value that begins on a line of the given level. -/
def print (level : Nat) : Data → List Char
  | .null => ['n', 'u', 'l', 'l']
  | .bool true => ['t', 'r', 'u', 'e']
  | .bool false => ['f', 'a', 'l', 's', 'e']
  | .int n => (toString n.toInt).toList
  | .text s => quote s
  | .list [] => ['[', ']']
  | .list (d :: ds) =>
    '[' :: newline (level + 1) ++ print (level + 1) d ++ printItems (level + 1) ds ++
      newline level ++ [']']
  | .record [] => ['\x7b', '\x7d']
  | .record ((k, d) :: ms) =>
    '\x7b' :: newline (level + 1) ++ quote k ++ [':', ' '] ++ print (level + 1) d ++
      printMembers (level + 1) ms ++ newline level ++ ['\x7d']

/-- The items after the first. -/
def printItems (level : Nat) : List Data → List Char
  | [] => []
  | d :: ds => ',' :: newline level ++ print level d ++ printItems level ds

/-- The members after the first. -/
def printMembers (level : Nat) : List (String × Data) → List Char
  | [] => []
  | (k, d) :: ms =>
    ',' :: newline level ++ quote k ++ [':', ' '] ++ print level d ++ printMembers level ms

end

/-- The text of a value. -/
def render (d : Data) : String := String.ofList (print 0 d)

end MappingMetadata.Json
