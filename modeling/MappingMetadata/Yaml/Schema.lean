import MappingMetadata.Text.Numeral

/-!
# What plain scalars mean

The core schema: which texts stand for null, for truth values, integers and floating-point
numbers. Integers may be written in base 2, 8, 10 or 16 and may carry a sign in front; digits
that start with a zero are not a number.
-/

namespace MappingMetadata.Yaml.Schema

/-- The words for null; the empty text is treated apart. -/
def isNull (s : String) : Bool := s == "null" || s == "Null" || s == "NULL" || s == "~"

/-- The words for truth values. -/
def bool? (s : String) : Option Bool :=
  if s == "true" || s == "True" || s == "TRUE" then some true
  else if s == "false" || s == "False" || s == "FALSE" then some false
  else none

/-- The text without one sign in front. -/
def unsigned : List Char → List Char
  | '+' :: cs | '-' :: cs => cs
  | cs => cs

/-- Two or more digits of which the first is a zero, with an optional sign. -/
def hasLeadingZero (s : String) : Bool :=
  match unsigned s.toList with
  | '0' :: c :: cs => (c :: cs).all Text.isDigit
  | _ => false

/-- The natural number of a text without a sign, in the base that its first characters name. -/
def natural? : List Char → Option Nat
  | '0' :: 'x' :: cs => Text.natural? 16 cs
  | '0' :: 'o' :: cs => Text.natural? 8 cs
  | '0' :: 'b' :: cs => Text.natural? 2 cs
  | cs => Text.natural? 10 cs

/-- The integer that a text denotes. -/
def int? (s : String) : Option Int :=
  if hasLeadingZero s then none
  else
    match s.toList with
    | '-' :: cs => (natural? cs).map fun n => -(n : Int)
    | '+' :: cs | cs => (natural? cs).map fun n => (n : Int)

/-- The words for infinity and for the undefined number. -/
def isSpecialFloat (s : String) : Bool :=
  [".inf", ".Inf", ".INF", "+.inf", "+.Inf", "+.INF", "-.inf", "-.Inf", "-.INF",
   ".nan", ".NaN", ".NAN"].contains s

/-- A decimal number that fits into a double, or one of the special words. -/
def isFloat (s : String) : Bool :=
  isSpecialFloat s ||
    match Text.decimal? (unsigned s.toList) with
    | some d => d.fitsDouble
    | none => false

/-- What a plain scalar stands for. -/
inductive Meaning where
  | null
  | bool (b : Bool)
  | int (n : Int)
  /-- An integer of more than 64 bits, which no reader takes. -/
  | hugeInt
  | float
  | text
  deriving DecidableEq, Repr

/-- Integers of 64 bits, with a sign or without. -/
def isWord (n : Int) : Bool := -Nat.pow 2 63 ≤ n && n < Nat.pow 2 64

/-- Integers of 128 bits, with a sign or without. -/
def isDoubleWord (n : Int) : Bool := -Nat.pow 2 127 ≤ n && n < Nat.pow 2 128

/-- The meaning of a plain scalar without a tag. -/
def meaning (s : String) : Meaning :=
  if s.isEmpty || isNull s then .null
  else
    match bool? s with
    | some b => .bool b
    | none =>
      match int? s with
      | some n =>
        if isWord n then .int n
        else if isDoubleWord n then .hugeInt
        else if isFloat s then .float
        else .text
      | none => if !hasLeadingZero s && isFloat s then .float else .text

end MappingMetadata.Yaml.Schema
