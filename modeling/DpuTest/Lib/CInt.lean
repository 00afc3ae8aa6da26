import Mathlib.Algebra.Order.Ring.Nat
import Mathlib.Tactic.Common

/-!
# Values of a 32-bit `int` and a 64-bit `long`

`int32 x` is what an `int` holds after an operation with the exact result `x`,
when overflow wraps, and `int64 x` is what a `long` holds.  Small results are exact
(`int32_of_lt`, `int64_of_lt`), and of the others none is (`int32_natCast_iff`).  A
multiple that grows in steps below `2 ^ 31` cannot jump over the negative values:
`exists_int32_neg` finds where it becomes negative.

Where an overflow is left undefined, `mulInt` has no product for it.
-/

namespace DpuTest.Lib

/-- The `int` with the same remainder modulo `2 ^ 32`. -/
def int32 (x : Int) : Int := (x + 2 ^ 31) % 2 ^ 32 - 2 ^ 31

theorem int32_of_lt {x : Int} (hlo : -2 ^ 31 ≤ x) (hhi : x < 2 ^ 31) : int32 x = x := by
  unfold int32
  omega

theorem int32_natCast {n : Nat} (h : n < 2 ^ 31) : int32 (n : Int) = n :=
  int32_of_lt (by omega) (by omega)

/-- A value that is not negative is exact if and only if it fits. -/
theorem int32_natCast_iff {n : Nat} : int32 (n : Int) = n ↔ n < 2 ^ 31 := by
  constructor
  · intro h
    unfold int32 at h
    omega
  · exact int32_natCast

/-- The product of two values of an `int`, unless it overflows. -/
def mulInt (x y : Int) : Option Int := if int32 (x * y) = x * y then some (x * y) else none

theorem mulInt_natCast (m n : Nat) :
    mulInt m n = if m * n < 2 ^ 31 then some ((m * n : Nat) : Int) else none := by
  unfold mulInt
  rw [← Int.natCast_mul]
  simp only [int32_natCast_iff]

/-- What follows a product is computed if it does not overflow. -/
theorem isSome_mulInt_bind {α : Type} (m n : Nat) {f : Int → Option α} :
    (mulInt m n >>= f).isSome = true ↔
      m * n < 2 ^ 31 ∧ (f ((m * n : Nat) : Int)).isSome = true := by
  rw [mulInt_natCast]
  split_ifs with h
  · exact (and_iff_right h).symm
  · exact iff_of_false Bool.false_ne_true (fun hboth => h hboth.1)

theorem int32_lt (x : Int) : int32 x < 2 ^ 31 := by
  unfold int32
  omega

/-- A positive value is no larger than the exact result. -/
theorem int32_le_of_nonneg {x : Int} (h : 0 ≤ x) : int32 x ≤ x := by
  unfold int32
  omega

theorem toNat_int32_le (n : Nat) : (int32 (n : Int)).toNat ≤ n := by
  have hle := int32_le_of_nonneg (Int.natCast_nonneg n)
  omega

/-- The `long` with the same remainder modulo `2 ^ 64`. -/
def int64 (x : Int) : Int := (x + 2 ^ 63) % 2 ^ 64 - 2 ^ 63

theorem int64_of_lt {x : Int} (hlo : -2 ^ 63 ≤ x) (hhi : x < 2 ^ 63) : int64 x = x := by
  unfold int64
  omega

theorem int64_natCast {n : Nat} (h : n < 2 ^ 63) : int64 (n : Int) = n :=
  int64_of_lt (by omega) (by omega)

/-- A count that is added to an `unsigned long`. -/
theorem uint64_ofInt_natCast (n : Nat) : UInt64.ofInt (n : Int) = UInt64.ofNat n := by
  have hmod : ((n : Int) % 2 ^ 64).toNat = n % 2 ^ 64 := by omega
  rw [UInt64.ofInt, hmod]
  apply UInt64.toNat_inj.mp
  simp

theorem exists_int32_neg {p n : Nat} (hpos : 0 < p) (hlt : p < 2 ^ 31) (h : 2 ^ 31 ≤ p * n) :
    ∃ k ≤ n, int32 ((p * k : Nat) : Int) < 0 := by
  -- The first multiple that does not fit.
  induction n with
  | zero => omega
  | succ n ih =>
    by_cases hfit : 2 ^ 31 ≤ p * n
    · obtain ⟨k, hk, hneg⟩ := ih hfit
      exact ⟨k, by omega, hneg⟩
    · refine ⟨n + 1, Nat.le_refl _, ?_⟩
      rw [Nat.mul_add, Nat.mul_one] at h ⊢
      unfold int32
      omega

end DpuTest.Lib
