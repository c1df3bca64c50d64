import Mathlib.Data.List.Basic
import Mathlib.Data.List.TakeDrop
import Mathlib.Data.List.TakeWhile
import MappingMetadata.Json.Number

/-!
# Written integers

An integer is written with the decimal digits of its amount, without a superfluous zero in front,
after a hyphen when it is negative.

**Theorem (`number?_toString`).** An integer that fits into 64 bits with a sign is read back from
what is written of it.
-/

namespace MappingMetadata

/-! ## Digits -/

namespace Text

theorem digit?_of_isDigit {c : Char} (h : c.isDigit) : digit? c = some (c.toNat - '0'.toNat) := by
  have hrange : '0' ≤ c ∧ c ≤ '9' := by
    rw [Char.isDigit, Bool.and_eq_true, decide_eq_true_eq, decide_eq_true_eq] at h
    exact h
  rw [digit?, if_pos hrange]

theorem ofDigits_eq {cs : List Char} (h : ∀ c ∈ cs, c.isDigit) :
    ofDigits cs = Nat.ofDigitChars 10 cs 0 := by
  rw [ofDigits, Nat.ofDigitChars_eq_foldl]
  refine List.foldl_ext _ _ _ fun n c hc => ?_
  rw [digit?_of_isDigit (h c hc), Option.getD_some, Nat.mul_comm]

theorem isDigit_of_mem_toDigits {n : Nat} : ∀ c ∈ Nat.toDigits 10 n, c.isDigit :=
  fun _ hc => Nat.isDigit_of_mem_toDigits (by decide) (by decide) hc

@[simp] theorem ofDigits_toDigits (n : Nat) : ofDigits (Nat.toDigits 10 n) = n := by
  rw [ofDigits_eq isDigit_of_mem_toDigits, Nat.ofDigitChars_ten_toDigits]

theorem spanDigits_of_isDigit {cs : List Char} (h : ∀ c ∈ cs, c.isDigit) :
    spanDigits cs = (cs, []) := by
  have hall : ∀ c ∈ cs, isDigit c = true := h
  rw [spanDigits, List.span_eq_takeWhile_dropWhile, List.takeWhile_eq_self_iff.2 hall,
    List.dropWhile_eq_nil_iff.2 hall]

end Text

namespace Json

/-! ## Natural numbers -/

/-- No number but zero is written with a zero in front. -/
theorem exists_toDigits {n : Nat} (h : n ≠ 0) :
    ∃ c cs, Nat.toDigits 10 n = c :: cs ∧ c ≠ '0' := by
  induction n using Nat.strongRecOn with
  | ind n ih =>
    by_cases hn : n < 10
    · refine ⟨n.digitChar, [], Nat.toDigits_of_lt_base hn, fun hzero => h ?_⟩
      have hcode : n.digitChar.toNat = 48 + n := Nat.toNat_digitChar_of_lt_ten hn
      rw [hzero] at hcode
      have hcode' : 48 = 48 + n := hcode
      omega
    · obtain ⟨c, cs, hcs, hc⟩ := ih (n / 10) (by omega) (by omega)
      refine ⟨c, cs ++ [(n % 10).digitChar], ?_, hc⟩
      rw [Nat.toDigits_of_base_le (by decide) (by omega), hcs, List.cons_append]

theorem isWhole_toDigits (n : Nat) : isWhole (Nat.toDigits 10 n) := by
  by_cases h : n = 0
  · rw [h, Nat.toDigits_zero]
    rfl
  · obtain ⟨c, cs, hcs, hc⟩ := exists_toDigits h
    rw [hcs]
    unfold isWhole
    split
    · contradiction
    · next heq => exact absurd (List.cons.inj heq).1 hc
    · rfl

/-! ## Integers -/

/-- The sign in front of the digits of an integer. -/
def signChars (negative : Bool) : List Char := if negative then ['-'] else []

theorem toList_toString (n : Int) :
    (toString n).toList = signChars (n < 0) ++ Nat.toDigits 10 n.natAbs := by
  rw [Int.toString_eq_repr, Int.repr_eq_if]
  by_cases hn : 0 ≤ n
  · have habs : n.toNat = n.natAbs := by omega
    rw [if_pos hn, Nat.toList_repr, habs]
    simp [signChars, Int.not_lt.2 hn]
  · have habs : (-n).toNat = n.natAbs := by omega
    rw [if_neg hn, String.toList_append, Nat.toList_repr, habs]
    simp [signChars, Int.not_le.1 hn]

/-- A whole number without fraction and exponent. -/
theorem number?_of_digits {cs : List Char} (negative : Bool) (hdigits : ∀ c ∈ cs, c.isDigit)
    (hwhole : isWhole cs) : number? (signChars negative ++ cs) = some (integer negative cs) := by
  have hspan := Text.spanDigits_of_isDigit hdigits
  cases negative with
  | true => simp [number?, signChars, hspan, hwhole]
  | false =>
    cases cs with
    | nil => cases hwhole
    | cons c cs =>
      have hc : c ≠ '-' := by
        rintro rfl
        exact absurd (hdigits '-' List.mem_cons_self) (by decide)
      simp [number?, signChars, hc, hspan, hwhole]

theorem integer_toDigits_neg {n : Nat} (h : 0 < n ∧ n ≤ Nat.pow 2 63) :
    integer true (Nat.toDigits 10 n) = .int (-n) := by
  unfold integer
  rw [Text.ofDigits_toDigits]
  exact if_pos h

theorem integer_toDigits {n : Nat} (h : n < Nat.pow 2 64) :
    integer false (Nat.toDigits 10 n) = .int n := by
  unfold integer
  rw [Text.ofDigits_toDigits]
  exact if_pos h

theorem number?_toString {n : Int} (h : -Nat.pow 2 63 ≤ n ∧ n < Nat.pow 2 63) :
    number? (toString n).toList = some (.int n) := by
  rw [toList_toString, number?_of_digits _ Text.isDigit_of_mem_toDigits (isWhole_toDigits _)]
  have hbound : (Nat.pow 2 63 : Int) = 9223372036854775808 := rfl
  by_cases hn : n < 0
  · have hfits : 0 < n.natAbs ∧ n.natAbs ≤ Nat.pow 2 63 := by
      have hpow : Nat.pow 2 63 = 9223372036854775808 := rfl
      omega
    have habs : -(n.natAbs : Int) = n := by omega
    rw [decide_eq_true hn, integer_toDigits_neg hfits, habs]
  · have hfits : n.natAbs < Nat.pow 2 64 := by
      have hpow : Nat.pow 2 64 = 18446744073709551616 := rfl
      omega
    have habs : (n.natAbs : Int) = n := by omega
    rw [decide_eq_false hn, integer_toDigits hfits, habs]

end Json

end MappingMetadata
