/-!
# Numerals

Integers in a base, and decimal numbers with a point and an exponent. `Decimal.fitsDouble` says
whether a decimal number is below the point where doubles round to infinity.
-/

namespace MappingMetadata.Text

/-- The value of a digit in bases up to sixteen. -/
def digit? (c : Char) : Option Nat :=
  if '0' ≤ c ∧ c ≤ '9' then some (c.toNat - '0'.toNat)
  else if 'a' ≤ c ∧ c ≤ 'f' then some (c.toNat - 'a'.toNat + 10)
  else if 'A' ≤ c ∧ c ≤ 'F' then some (c.toNat - 'A'.toNat + 10)
  else none

/-- One of the ten decimal digits. -/
def isDigit (c : Char) : Bool := '0' ≤ c && c ≤ '9'

/-- The number that one or more digits denote in a base. -/
def natural? (base : Nat) (cs : List Char) : Option Nat :=
  if cs.isEmpty then none
  else
    cs.foldlM (fun n c => do
      let k ← digit? c
      if k < base then some (n * base + k) else none) 0

/-- The number that decimal digits denote; other characters count as zero. -/
def ofDigits (cs : List Char) : Nat := cs.foldl (fun n c => n * 10 + (digit? c).getD 0) 0

/-- A number `mantissa · 10 ^ exponent`, without its sign. -/
structure Decimal where
  mantissa : Nat
  exponent : Int
  deriving DecidableEq, Repr

namespace Decimal

/-- Halfway between the greatest double and the next power of two: from here on, rounding to the
nearest double gives infinity. -/
def doubleLimit : Nat := Nat.pow 2 1024 - Nat.pow 2 970

/-- Does the number round to a finite double? -/
def fitsDouble (d : Decimal) : Bool :=
  let digits : Int := (Nat.log2 d.mantissa : Int) * 30103 / 100000 + 1
  if d.mantissa = 0 then true
  else if digits + d.exponent > 330 then false
  else if digits + d.exponent < 290 then true
  else if 0 ≤ d.exponent then d.mantissa * Nat.pow 10 d.exponent.toNat < doubleLimit
  else d.mantissa < doubleLimit * Nat.pow 10 (-d.exponent).toNat

end Decimal

/-- The longest run of digits in front, and what follows it. -/
def spanDigits (cs : List Char) : List Char × List Char := cs.span isDigit

/-- An exponent after its `e`: an optional sign and one or more digits. -/
def exponent? (cs : List Char) : Option (Int × List Char) :=
  let (negative, cs) := match cs with
    | '-' :: cs => (true, cs)
    | '+' :: cs => (false, cs)
    | cs => (false, cs)
  match spanDigits cs with
  | ([], _) => none
  | (ds, rest) => some (if negative then -(ofDigits ds : Int) else ofDigits ds, rest)

/-- A whole text that is a decimal number without a sign: digits, a point, or both, and perhaps an
exponent. At least one digit stands before the exponent. -/
def decimal? (cs : List Char) : Option Decimal :=
  let (whole, rest) := spanDigits cs
  let (fraction, rest) := match rest with
    | '.' :: rest => spanDigits rest
    | rest => ([], rest)
  if whole.isEmpty && fraction.isEmpty then none
  else
    let mantissa := ofDigits (whole ++ fraction)
    let shift : Int := -(fraction.length : Int)
    match rest with
    | [] => some ⟨mantissa, shift⟩
    | c :: rest =>
      if c = 'e' || c = 'E' then
        match exponent? rest with
        | some (e, []) => some ⟨mantissa, shift + e⟩
        | _ => none
      else none

end MappingMetadata.Text
