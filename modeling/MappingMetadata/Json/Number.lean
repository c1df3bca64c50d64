import MappingMetadata.Codec.Tree

/-!
# Numbers in JSON

An integer of 64 bits is read as such; any other number is read as a double, of which only
matters whether it is finite. A number is computed from as many leading digits as fit into 64
bits and a power of ten, both rounded to doubles before they are multiplied.
-/

namespace MappingMetadata.Json

open Text

/-- The natural number rounded to 53 significant bits, a tie to the even neighbour. -/
def roundToDouble (n : Nat) : Nat :=
  if n < Nat.pow 2 53 then n
  else
    let unit := Nat.pow 2 (Nat.log2 n - 52)
    let q := n / unit
    let r := n % unit
    if unit < 2 * r ∨ (unit = 2 * r ∧ q % 2 = 1) then (q + 1) * unit else q * unit

/-- The leading digits of a number as far as they fit into 64 bits. -/
structure Significand where
  value : Nat := 0
  /-- Has a digit been left out? -/
  full : Bool := false
  /-- The power of ten to multiply by. -/
  shift : Int := 0

namespace Significand

/-- Take a digit in; digits before the point that are left out count for the power of ten. -/
def push (afterPoint : Bool) (s : Significand) (c : Char) : Significand :=
  let next := s.value * 10 + (digit? c).getD 0
  if s.full || Nat.pow 2 64 ≤ next then
    { s with full := true, shift := if afterPoint then s.shift else s.shift + 1 }
  else { s with value := next, shift := if afterPoint then s.shift - 1 else s.shift }

def ofDigits (whole fraction : List Char) : Significand :=
  let s := whole.foldl (push false) {}
  fraction.foldl (push true) { s with full := false }

/-- Is the number with this exponent finite as a double? -/
def isFinite (s : Significand) (exponent : Int) : Bool :=
  let e := s.shift + exponent
  s.value = 0 || e < 0 ||
    (e ≤ 308 &&
      roundToDouble s.value * roundToDouble (Nat.pow 10 e.toNat) < Decimal.doubleLimit)

end Significand

/-- A double, if it is finite. -/
def float (finite : Bool) : Tree := if finite then .float else .unreadable

/-- A whole number literal: 64 bits with a sign or without, else a double; `-0` is a double. -/
def integer (negative : Bool) (digits : List Char) : Tree :=
  let n := Text.ofDigits digits
  if negative then
    if 0 < n ∧ n ≤ Nat.pow 2 63 then .int (-n)
    else float ((Significand.ofDigits digits []).isFinite 0)
  else
    if n < Nat.pow 2 64 then .int n else float ((Significand.ofDigits digits []).isFinite 0)

/-- Digits without a superfluous zero in front. -/
def isWhole : List Char → Bool
  | [] => false
  | '0' :: rest => rest.isEmpty
  | _ => true

/-- The number of a text: digits, then perhaps a fraction, then perhaps an exponent. -/
def number? (cs : List Char) : Option Tree :=
  let (negative, cs) := match cs with
    | '-' :: cs => (true, cs)
    | cs => (false, cs)
  let (whole, rest) := spanDigits cs
  if !isWhole whole then none
  else
    let (fraction?, rest) := match rest with
      | '.' :: rest => let (fraction, rest) := spanDigits rest; (some fraction, rest)
      | rest => (none, rest)
    if fraction? = some [] then none
    else
      let fraction := fraction?.getD []
      match rest with
      | [] =>
        if fraction.isEmpty then some (integer negative whole)
        else some (float ((Significand.ofDigits whole fraction).isFinite 0))
      | c :: rest =>
        if c = 'e' || c = 'E' then
          match exponent? rest with
          | some (e, []) => some (float ((Significand.ofDigits whole fraction).isFinite e))
          | _ => none
        else none

end MappingMetadata.Json
