import MappingMetadata.Json.Number

/-!
# Tokens of JSON

A text is cut into tokens by an automaton that takes one character at a time. A string with half
of a surrogate pair is a token, but no string can be read from it.
-/

namespace MappingMetadata.Json

/-- A token. Strings are told from other leaves, as only they may be keys. -/
inductive Token where
  | openList | closeList | openMap | closeMap | colon | comma
  | string (t : Tree)
  | leaf (t : Tree)
  deriving Repr

/-- A string of which a part has been read, the latest character first. -/
structure OpenString where
  chars : List Char := []
  /-- The first half of a surrogate pair whose second half is still to come. -/
  half : Option Nat := none
  /-- Was there half of a pair by itself? -/
  broken : Bool := false
  deriving Repr

namespace OpenString

/-- Add a character. -/
def push (p : OpenString) (c : Char) : OpenString :=
  { chars := c :: p.chars, broken := p.broken || p.half.isSome }

/-- Add a character by its UTF-16 code unit. -/
def pushUnit (p : OpenString) (u : Nat) : OpenString :=
  if 0xD800 ≤ u ∧ u < 0xDC00 then { p with half := some u, broken := p.broken || p.half.isSome }
  else if 0xDC00 ≤ u ∧ u < 0xE000 then
    match p.half with
    | some h =>
      { p with
        chars := Char.ofNat (0x10000 + (h - 0xD800) * 0x400 + (u - 0xDC00)) :: p.chars
        half := none }
    | none => { p with broken := true }
  else p.push (Char.ofNat u)

/-- The whole string. -/
def finish (p : OpenString) : Tree :=
  if p.broken || p.half.isSome then .unreadable else .text (String.ofList p.chars.reverse)

end OpenString

/-- Where the automaton stands. -/
inductive LexState where
  /-- Between tokens. -/
  | between
  /-- In a number, the latest character first. -/
  | number (chars : List Char)
  /-- In a word, the latest character first. -/
  | word (chars : List Char)
  | string (p : OpenString)
  /-- After the backslash in a string. -/
  | escape (p : OpenString)
  /-- In the digits of an escaped code unit. -/
  | unit (p : OpenString) (digits : List Char)
  deriving Repr

/-- The tokens so far, the latest first, and the state. -/
abbrev Lexer := List Token × LexState

namespace Lexer

/-- The word `null`, `true` or `false`. -/
def word? (s : String) : Option Tree :=
  if s == "null" then some .null
  else if s == "true" then some (.bool true)
  else if s == "false" then some (.bool false)
  else none

/-- May the character stand in a number? -/
def isNumberChar (c : Char) : Bool :=
  Text.isDigit c || c == '-' || c == '+' || c == '.' || c == 'e' || c == 'E'

/-- May the character stand in a word? -/
def isWordChar (c : Char) : Bool := 'a' ≤ c && c ≤ 'z'

/-- The character of an escape that is one letter or sign long. -/
def escaped? : Char → Option Char
  | '"' => some '"'
  | '\\' => some '\\'
  | '/' => some '/'
  | 'b' => some '\x08'
  | 'f' => some '\x0C'
  | 'n' => some '\n'
  | 'r' => some '\r'
  | 't' => some '\t'
  | _ => none

/-- The token that is a sign. -/
def sign? : Char → Option Token
  | '[' => some .openList
  | ']' => some .closeList
  | '\x7b' => some .openMap
  | '\x7d' => some .closeMap
  | ':' => some .colon
  | ',' => some .comma
  | _ => none

/-- Take a character between tokens. -/
def start (ts : List Token) (c : Char) : Option Lexer :=
  if c = ' ' ∨ c = '\t' ∨ c = '\n' ∨ c = '\r' then some (ts, .between)
  else if c = '"' then some (ts, .string {})
  else if Text.isDigit c || c = '-' then some (ts, .number [c])
  else if isWordChar c then some (ts, .word [c])
  else (sign? c).map fun t => (t :: ts, .between)

/-- End the number or word that the automaton is in. -/
def close : Lexer → Option Lexer
  | (ts, .between) => some (ts, .between)
  | (ts, .number chars) => (number? chars.reverse).map fun t => (.leaf t :: ts, .between)
  | (ts, .word chars) =>
    (word? (String.ofList chars.reverse)).map fun t => (.leaf t :: ts, .between)
  | _ => none

/-- Take a character. -/
def step (l : Lexer) (c : Char) : Option Lexer :=
  match l with
  | (ts, .string p) =>
    if c = '"' then some (.string p.finish :: ts, .between)
    else if c = '\\' then some (ts, .escape p)
    else if c.toNat < 0x20 then none
    else some (ts, .string (p.push c))
  | (ts, .escape p) =>
    if c = 'u' then some (ts, .unit p [])
    else (escaped? c).map fun c => (ts, .string (p.push c))
  | (ts, .unit p digits) =>
    if (Text.digit? c).isNone then none
    else if digits.length < 3 then some (ts, .unit p (digits ++ [c]))
    else (Text.natural? 16 (digits ++ [c])).map fun u => (ts, .string (p.pushUnit u))
  | (ts, .number chars) =>
    if isNumberChar c then some (ts, .number (c :: chars))
    else (close l).bind fun l => start l.1 c
  | (ts, .word chars) =>
    if isWordChar c then some (ts, .word (c :: chars))
    else (close l).bind fun l => start l.1 c
  | (ts, .between) => start ts c

end Lexer

/-- The tokens of a text. -/
def tokens? (cs : List Char) : Option (List Token) := do
  let l ← cs.foldlM Lexer.step ([], .between)
  let l ← Lexer.close l
  return l.1.reverse

end MappingMetadata.Json
