import Mathlib.Data.Int.Log
import Mathlib.Data.Rat.Floor
import Mathlib.Tactic.Linarith
import Mathlib.Tactic.NormNum

/-!
# Numbers of type `double`

`toDouble q` is the number with 53 bits that is nearest to `q`, for numbers that are neither
too large nor too small for the exponent of a `double`.  The result of an operation is
`toDouble` of the exact result.  Whole numbers below `2 ^ 53` and their products with powers
of two are exact (`toDouble_natCast_mul`).

`doubleToInt` is the conversion to an `int`, which is undefined when the result does not fit.
-/

namespace DpuTest.Lib

/-- The nearest integer, and of two of them the even one. -/
def roundHalfEven (q : ℚ) : ℤ :=
  if q - ⌊q⌋ < 1 / 2 then ⌊q⌋
  else if 1 / 2 < q - ⌊q⌋ then ⌊q⌋ + 1
  else if ⌊q⌋ % 2 = 0 then ⌊q⌋
  else ⌊q⌋ + 1

/-- The value of the last of the 53 bits of a number of this size. -/
def lastBit (q : ℚ) : ℚ := 2 ^ (Int.log 2 |q| - 52)

/-- The nearest `double`. -/
def toDouble (q : ℚ) : ℚ := roundHalfEven (q / lastBit q) * lastBit q

/-- `(int) q` -/
def doubleToInt (q : ℚ) : Option ℤ :=
  let whole := if 0 ≤ q then ⌊q⌋ else ⌈q⌉
  if -2 ^ 31 ≤ whole ∧ whole < 2 ^ 31 then some whole else none

section

variable {q : ℚ} {n k : ℕ}

theorem roundHalfEven_intCast (z : ℤ) : roundHalfEven z = z := by
  have hfrac : (z : ℚ) - ⌊(z : ℚ)⌋ = 0 := by rw [Int.floor_intCast, sub_self]
  rw [roundHalfEven, hfrac, if_pos (by norm_num), Int.floor_intCast]

theorem lastBit_pos (q : ℚ) : 0 < lastBit q := zpow_pos (by norm_num) _

/-- A number that is made of its 53 bits is exact. -/
theorem toDouble_of_eq_mul {z : ℤ} (h : q = z * lastBit q) : toDouble q = q := by
  have hdiv : q / lastBit q = z := by
    rw [div_eq_iff (lastBit_pos q).ne']
    exact h
  rw [toDouble, hdiv, roundHalfEven_intCast, ← h]

theorem toDouble_natCast_mul (h : n < 2 ^ 53) : toDouble (n * 2 ^ k) = n * 2 ^ k := by
  rcases Nat.eq_zero_or_pos n with rfl | hpos
  · apply toDouble_of_eq_mul (z := 0)
    simp
  have hq : (0 : ℚ) < n * 2 ^ k := by positivity
  -- The last bit is no larger than `2 ^ k`.
  have hlog : Int.log 2 |(n : ℚ) * 2 ^ k| < 53 + k := by
    rw [abs_of_pos hq]
    have hle := Int.zpow_log_le_self (b := 2) (by decide) hq
    have hlt : (n : ℚ) * 2 ^ k < 2 ^ (53 + k : ℤ) := by
      rw [zpow_add₀ (by norm_num), zpow_natCast]
      have hcast : (n : ℚ) < 2 ^ 53 := by exact_mod_cast h
      have := mul_lt_mul_of_pos_right hcast (show (0 : ℚ) < 2 ^ k by positivity)
      exact_mod_cast this
    rw [Nat.cast_ofNat] at hle
    exact (zpow_lt_zpow_iff_right₀ one_lt_two).mp (lt_of_le_of_lt hle hlt)
  obtain ⟨d, hd⟩ := Int.eq_ofNat_of_zero_le
    (show 0 ≤ (k : ℤ) - (Int.log 2 |(n : ℚ) * 2 ^ k| - 52) by omega)
  apply toDouble_of_eq_mul (z := n * 2 ^ d)
  have hexp : (k : ℤ) = d + (Int.log 2 |(n : ℚ) * 2 ^ k| - 52) := by omega
  have hsplit : (2 : ℚ) ^ k = 2 ^ d * lastBit (n * 2 ^ k) := by
    calc (2 : ℚ) ^ k = 2 ^ (k : ℤ) := (zpow_natCast 2 k).symm
      _ = 2 ^ ((d : ℤ) + (Int.log 2 |(n : ℚ) * 2 ^ k| - 52)) := by rw [← hexp]
      _ = 2 ^ d * lastBit (n * 2 ^ k) := by
        rw [zpow_add₀ (by norm_num), zpow_natCast, lastBit]
  push_cast
  rw [mul_assoc, ← hsplit]

theorem doubleToInt_natCast (h : n < 2 ^ 31) : doubleToInt n = some (n : ℤ) := by
  have hnonneg : (0 : ℚ) ≤ n := by positivity
  rw [doubleToInt, if_pos hnonneg, Int.floor_natCast, if_pos (by omega)]

theorem doubleToInt_natCast_of_le (h : 2 ^ 31 ≤ n) : doubleToInt n = none := by
  have hnonneg : (0 : ℚ) ≤ n := by positivity
  rw [doubleToInt, if_pos hnonneg, Int.floor_natCast, if_neg (by omega)]

end

end DpuTest.Lib
