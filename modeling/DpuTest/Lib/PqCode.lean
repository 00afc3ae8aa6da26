import DpuTest.Lib.ShiftXor
import Mathlib.Tactic.IntervalCases

/-!
# Two parities of four bytes

`P` is the exclusive or of the data bytes, and `Q` is the exclusive or of the data bytes
times 1, 2, 4 and 8 in the field of 256 elements.  A `PqWord` is a word of six bytes that
are data and parities of each other.

Any four bytes of a word determine it (`PqWord.eq_of_four`), so this is a code that
survives the loss of any two bytes.
-/

namespace DpuTest.Lib

/-- Twice a byte, modulo the polynomial `x ^ 8 + x ^ 4 + x ^ 3 + x ^ 2 + 1`. -/
def gfDouble (x : BitVec 8) : BitVec 8 :=
  x <<< 1 ^^^ (x >>> 7 ^^^ (x >>> 7) <<< 2 ^^^ (x >>> 7) <<< 3 ^^^ (x >>> 7) <<< 4)

theorem xorLinear_gfDouble : XorLinear gfDouble := by
  have hhigh : XorLinear fun x : BitVec 8 => x >>> 7 := XorLinear.id.shiftRight 7
  exact (XorLinear.id.shiftLeft 1).xor
    (((hhigh.xor (hhigh.shiftLeft 2)).xor (hhigh.shiftLeft 3)).xor (hhigh.shiftLeft 4))

/-- The second parity of four bytes. -/
def pqSecond (x₀ x₁ x₂ x₃ : BitVec 8) : BitVec 8 :=
  x₀ ^^^ gfDouble (x₁ ^^^ gfDouble (x₂ ^^^ gfDouble x₃))

theorem pqSecond_xor (x₀ x₁ x₂ x₃ y₀ y₁ y₂ y₃ : BitVec 8) :
    pqSecond (x₀ ^^^ y₀) (x₁ ^^^ y₁) (x₂ ^^^ y₂) (x₃ ^^^ y₃) =
      pqSecond x₀ x₁ x₂ x₃ ^^^ pqSecond y₀ y₁ y₂ y₃ := by
  have hinner : ∀ a b c d : BitVec 8, a ^^^ b ^^^ (c ^^^ d) = a ^^^ c ^^^ (b ^^^ d) := by
    intro a b c d
    ac_rfl
  simp only [pqSecond, xorLinear_gfDouble.map_xor, hinner]

/-- Four bytes and their two parities. -/
structure PqWord (f : Nat → BitVec 8) : Prop where
  first : f 4 = f 0 ^^^ f 1 ^^^ f 2 ^^^ f 3
  second : f 5 = pqSecond (f 0) (f 1) (f 2) (f 3)

namespace PqWord

variable {f g : Nat → BitVec 8}

theorem xor (hf : PqWord f) (hg : PqWord g) : PqWord fun i => f i ^^^ g i := by
  constructor
  · rw [hf.first, hg.first]
    ac_rfl
  · rw [hf.second, hg.second, pqSecond_xor]

/-- Zeros but for two places. -/
def twoBytes (i j : Nat) (x y : BitVec 8) (k : Nat) : BitVec 8 :=
  if k = i then x else if k = j then y else 0#8

/-- The first parity makes two bytes equal, or one of them zero. -/
theorem twoBytes_first {i j : Nat} {x y : BitVec 8} (hij : i < j) (hj : j < 6)
    (h : PqWord (twoBytes i j x y)) : (j < 5 → x = y) ∧ (j = 5 → x = 0#8) := by
  have hfirst := h.first.symm
  interval_cases j <;> interval_cases i <;> simp_all [twoBytes, BitVec.xor_eq_zero_iff]

/-- The second parity tells two equal bytes apart, wherever they are. -/
theorem twoBytes_second : ∀ i j : Fin 6, i < j → j < 5 → ∀ x : BitVec 8,
    twoBytes i j x x 5 = pqSecond (twoBytes i j x x 0) (twoBytes i j x x 1)
      (twoBytes i j x x 2) (twoBytes i j x x 3) → x = 0#8 := by
  decide +kernel

/-- A word with four zeros is zero. -/
theorem eq_zero (h : PqWord f) {i j : Nat} (hij : i < j) (hj : j < 6)
    (hzero : ∀ k, k < 6 → k ≠ i → k ≠ j → f k = 0#8) : ∀ k, k < 6 → f k = 0#8 := by
  have hplace : ∀ k, k < 6 → f k = twoBytes i j (f i) (f j) k := by
    intro k hk
    unfold twoBytes
    by_cases hi : k = i
    · rw [if_pos hi, hi]
    · by_cases hkj : k = j
      · rw [if_neg hi, if_pos hkj, hkj]
      · rw [if_neg hi, if_neg hkj]
        exact hzero k hk hi hkj
  have hword : PqWord (twoBytes i j (f i) (f j)) := by
    constructor
    · simp only [← hplace, Nat.reduceLT]
      exact h.first
    · simp only [← hplace, Nat.reduceLT]
      exact h.second
  obtain ⟨hequal, hlast⟩ := twoBytes_first hij hj hword
  have hx : f i = 0#8 := by
    by_cases hj5 : j < 5
    · have hsecond := hword.second
      rw [← hequal hj5] at hsecond
      exact twoBytes_second ⟨i, by omega⟩ ⟨j, hj⟩ hij hj5 (f i) hsecond
    · exact hlast (by omega)
  -- the other byte is the first one again, or the second parity of zeros
  have hothers : ∀ k, k < 6 → k ≠ j → f k = 0#8 := by
    intro k hk hkj
    by_cases hi : k = i
    · rw [hi]
      exact hx
    · exact hzero k hk hi hkj
  have hy : f j = 0#8 := by
    by_cases hj5 : j < 5
    · rw [← hequal hj5]
      exact hx
    · have h5 : j = 5 := by omega
      rw [h5, h.second, hothers 0 (by omega) (by omega), hothers 1 (by omega) (by omega),
        hothers 2 (by omega) (by omega), hothers 3 (by omega) (by omega)]
      rfl
  intro k hk
  by_cases hkj : k = j
  · rw [hkj]
    exact hy
  · exact hothers k hk hkj

/-- Words that agree in four places are the same. -/
theorem eq_of_four (hf : PqWord f) (hg : PqWord g) {i j : Nat} (hij : i < j) (hj : j < 6)
    (hsame : ∀ k, k < 6 → k ≠ i → k ≠ j → f k = g k) {k : Nat} (hk : k < 6) : f k = g k := by
  have hzero : f k ^^^ g k = 0#8 := by
    refine (hf.xor hg).eq_zero hij hj (fun l hl hli hlj => ?_) k hk
    rw [hsame l hl hli hlj]
    exact BitVec.xor_self
  exact BitVec.xor_eq_zero_iff.mp hzero

end PqWord

end DpuTest.Lib
