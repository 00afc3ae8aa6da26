import Mathlib.Algebra.BigOperators.Ring.Finset
import Mathlib.Algebra.Order.Ring.Nat
import Mathlib.Tactic.Ring

/-!
# Rolling fingerprints

A rolling fingerprint is doubled before the next weight is added, so a weight that is `j`
steps old counts `2 ^ j` times (`rolling_add`).  Modulo `2 ^ k` the weights that are `k` steps
old or older are gone: `rolling_mod` is the window that is left.  A mask below `2 ^ k` sees
nothing else (`and_eq_of_mod_eq`).
-/

namespace DpuTest.Lib

/-- The fingerprint of the first `count` weights. -/
def rolling (weight : Nat → Nat) : Nat → Nat
  | 0 => 0
  | count + 1 => 2 * rolling weight count + weight count

/-- The last `count` of `total` weights, each with its power of two. -/
def windowSum (weight : Nat → Nat) (total count : Nat) : Nat :=
  ∑ j ∈ Finset.range count, weight (total - 1 - j) * 2 ^ j

section

variable {weight : Nat → Nat} {total k a b mask : Nat}

/-- What is old has been doubled once for each new weight. -/
theorem rolling_add (weight : Nat → Nat) (old count : Nat) :
    rolling weight (old + count) =
      2 ^ count * rolling weight old + windowSum weight (old + count) count := by
  induction count with
  | zero => simp [windowSum]
  | succ count ih =>
    have hshift : windowSum weight (old + (count + 1)) (count + 1) =
        2 * windowSum weight (old + count) count + weight (old + count) := by
      rw [windowSum, Finset.sum_range_succ', windowSum, Finset.mul_sum]
      congr 1
      · refine Finset.sum_congr rfl fun j _ => ?_
        rw [show old + (count + 1) - 1 - (j + 1) = old + count - 1 - j by omega, Nat.pow_succ]
        ring
      · simp
    rw [← Nat.add_assoc, rolling, ih, Nat.add_assoc, hshift]
    ring

/-- The window of the last `k` weights. -/
theorem rolling_mod :
    rolling weight total % 2 ^ k = windowSum weight total (min total k) % 2 ^ k := by
  by_cases hle : total ≤ k
  · have h := rolling_add weight 0 total
    rw [Nat.zero_add, rolling, Nat.mul_zero, Nat.zero_add] at h
    rw [Nat.min_eq_left hle, ← h]
  · have h := rolling_add weight (total - k) k
    rw [Nat.sub_add_cancel (by omega)] at h
    rw [Nat.min_eq_right (by omega), h, Nat.mul_add_mod]

/-- A mask of low bits sees the low bits. -/
theorem and_eq_of_mod_eq (h : a % 2 ^ k = b % 2 ^ k) (hmask : mask < 2 ^ k) :
    a &&& mask = b &&& mask := by
  have hlow : ∀ c, c &&& mask = c % 2 ^ k &&& mask := by
    intro c
    have hlt : c &&& mask < 2 ^ k := Nat.lt_of_le_of_lt Nat.and_le_right hmask
    rw [← Nat.mod_eq_of_lt hlt, Nat.and_mod_two_pow, Nat.mod_eq_of_lt hmask]
  rw [hlow a, hlow b, h]

end

end DpuTest.Lib
