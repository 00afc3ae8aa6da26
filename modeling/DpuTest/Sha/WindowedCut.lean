import DpuTest.Lib.RollingSum
import DpuTest.Sha.FastCdc

/-!
# The window of the cut test

`fastcdc` rolls one fingerprint over all bytes from the minimum on.  No bit of a mask is above
bit 49, so a byte that is fifty or more positions old has been shifted past every bit that
the test looks at.

`isCutPoint_iff` replaces the rolling fingerprint by the sum over the last fifty bytes.
`fastcdc_windowed` says what `fastcdc` returns in terms of that sum.
-/

namespace DpuTest.Sha

open Lib

/-- How many bytes reach a bit of a mask. -/
def maskWidth : Nat := 50

/-- The table entries of the last fifty bytes from `start` to `i`, the last one once and
each one before it twice as often as the next. -/
def gearWindow (p : List UInt8) (start i : Nat) : Nat :=
  ∑ j ∈ Finset.range (min (maskWidth - 1) (i - start) + 1), (gear p (i - j)).toNat * 2 ^ j

/-- Position `i` ends a chunk by the last fifty bytes. -/
def IsWindowCut (s : CdcSizes) (p : List UInt8) (i : Nat) : Prop :=
  UInt64.ofNat (gearWindow p s.minChunkSize i) &&& maskAt s i = 0

/-- The weight of the byte `t` positions after `start`. -/
def gearWeight (p : List UInt8) (start t : Nat) : Nat := (gear p (start + t)).toNat

section

variable {s : CdcSizes} {p q : List UInt8} {start count i : Nat}

/-- The fingerprint of the source is a rolling one, modulo `2 ^ 64`. -/
theorem toNat_fingerprintOf :
    (fingerprintOf p start count).toNat = rolling (gearWeight p start) count % 2 ^ 64 := by
  induction count with
  | zero => rfl
  | succ count ih =>
    have hshift : (fingerprintOf p start count <<< 1).toNat =
        2 * rolling (gearWeight p start) count % 2 ^ 64 := by
      rw [UInt64.toNat_shiftLeft, show (1 : UInt64).toNat % 64 = 1 from rfl, Nat.shiftLeft_eq, ih,
        Nat.mod_mul_mod, Nat.mul_comm]
    rw [fingerprintOf, UInt64.toNat_add, hshift, Nat.mod_add_mod]
    rfl

theorem gearWindow_eq (h : start ≤ i) :
    gearWindow p start i =
      windowSum (gearWeight p start) (i + 1 - start) (min (i + 1 - start) maskWidth) := by
  have hcount : min (i + 1 - start) maskWidth = min (maskWidth - 1) (i - start) + 1 := by
    rw [maskWidth]
    omega
  rw [gearWindow, windowSum, hcount]
  refine Finset.sum_congr rfl fun j hj => ?_
  have hle : j ≤ i - start := by
    have := Finset.mem_range.mp hj
    omega
  rw [gearWeight, show start + (i + 1 - start - 1 - j) = i - j by omega]

theorem maskAt_lt (s : CdcSizes) (i : Nat) : (maskAt s i).toNat < 2 ^ maskWidth := by
  rw [maskAt]
  split <;> decide

/-- The test on the rolling fingerprint is the test on the last fifty bytes. -/
theorem isCutPoint_iff (h : s.minChunkSize ≤ i) : IsCutPoint s p i ↔ IsWindowCut s p i := by
  have hmod : (fingerprintOf p s.minChunkSize (i + 1 - s.minChunkSize)).toNat % 2 ^ maskWidth =
      (UInt64.ofNat (gearWindow p s.minChunkSize i)).toNat % 2 ^ maskWidth := by
    have hdvd : 2 ^ maskWidth ∣ 2 ^ 64 := Nat.pow_dvd_pow 2 (by decide)
    rw [toNat_fingerprintOf, UInt64.toNat_ofNat', Nat.mod_mod_of_dvd _ hdvd,
      Nat.mod_mod_of_dvd _ hdvd, rolling_mod, gearWindow_eq h]
  rw [IsCutPoint, IsWindowCut, ← UInt64.toNat_inj, ← UInt64.toNat_inj, UInt64.toNat_and,
    UInt64.toNat_and, and_eq_of_mod_eq hmod (maskAt_lt s i)]

/-- The test at `i` reads the fifty bytes that end at `i`, and none before the minimum. -/
theorem isCutPoint_congr
    (h : ∀ j < maskWidth, j ≤ i - s.minChunkSize → p.getD (i - j) 0 = q.getD (i - j) 0)
    (hi : s.minChunkSize ≤ i) : IsCutPoint s p i ↔ IsCutPoint s q i := by
  have hwindow : gearWindow p s.minChunkSize i = gearWindow q s.minChunkSize i := by
    refine Finset.sum_congr rfl fun j hj => ?_
    have hlt := Finset.mem_range.mp hj
    rw [gear, gear, h j (by rw [maskWidth] at *; omega) (by omega)]
  rw [isCutPoint_iff hi, isCutPoint_iff hi, IsWindowCut, IsWindowCut, hwindow]

/-- A rest of at most the minimum is one chunk.  Of a longer one `fastcdc` returns the least
position from the minimum on whose last fifty bytes pass the test, and the end of the search
when there is none.  Whether a position passes the test of the source depends on these bytes
only. -/
theorem fastcdc_windowed (s : CdcSizes) (p : List UInt8)
    (hmin : s.minChunkSize ≤ s.avgChunkSize) (hmax : s.avgChunkSize ≤ s.maxChunkSize) :
    (p.length ≤ s.minChunkSize → fastcdc s p p.length = p.length) ∧
    (s.minChunkSize < p.length → ∃ c : Nat, fastcdc s p p.length = c ∧
      FirstHit (IsWindowCut s p) s.minChunkSize (min p.length s.maxChunkSize) c) ∧
    ∀ (q : List UInt8) (i : Nat), s.minChunkSize ≤ i →
      (∀ j < maskWidth, j ≤ i - s.minChunkSize → p.getD (i - j) 0 = q.getD (i - j) 0) →
      (IsCutPoint s p i ↔ IsCutPoint s q i) := by
  refine ⟨fastcdc_of_le s p, fun hlen => ?_, fun q i hi h => isCutPoint_congr h hi⟩
  obtain ⟨c, hcut, hfirst⟩ := fastcdc_firstHit s p hmin hmax hlen
  exact ⟨c, hcut, hfirst.congr (fun j hj _ => (isCutPoint_iff hj).symm) hfirst.le id⟩

theorem fastcdc_windowed_five :
    ∃ c : Nat, fastcdc (cdcSizes 4) [3, 1, 4, 1, 5] 5 = c ∧
      FirstHit (IsWindowCut (cdcSizes 4) [3, 1, 4, 1, 5]) 1 5 c :=
  (fastcdc_windowed (cdcSizes 4) [3, 1, 4, 1, 5] (cdcSizes_min_le 4) (cdcSizes_le_max 4)).2.1
    (by decide)

end

end DpuTest.Sha
