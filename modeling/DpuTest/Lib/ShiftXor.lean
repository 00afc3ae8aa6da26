import Mathlib.Data.UInt
import Mathlib.Dynamics.PeriodicPts.Lemmas

/-!
# Generators of shifts and exclusive ors

`x ^^^ x <<< n` keeps the `n` lowest bits of `x`, and every other bit comes out mixed with a
lower one.  So the word can be read back from below (`xorShiftLeft_injective`), and
`x ^^^ x >>> n` from above (`xorShiftRight_injective`).

A generator whose step is injective never comes to a word that it does not leave from
anywhere else (`iterate_ne_of_fixed`).  On finitely many words it comes back to where it
started (`exists_period`), so its sequence of words has no part that is not repeated.

Shifts and exclusive ors are linear over the bits: `XorLinear` functions that agree on the
powers of two are the same (`XorLinear.eq_of_twoPow`).  So what `combine` recovers of a word
is the word if that holds of each power of two.
-/

namespace DpuTest.Lib

section

variable {w n : Nat}

theorem xorShiftLeft_injective (hn : 0 < n) :
    Function.Injective fun x : BitVec w => x ^^^ x <<< n := by
  intro x y hxy
  apply BitVec.eq_of_getLsbD_eq
  intro i
  -- From below: the bit that is mixed in is known.
  induction i using Nat.strongRecOn with
  | ind i ih =>
    intro hi
    have hbit : (x ^^^ x <<< n).getLsbD i = (y ^^^ y <<< n).getLsbD i :=
      congrArg (fun z => BitVec.getLsbD z i) hxy
    rw [BitVec.getLsbD_xor, BitVec.getLsbD_xor, BitVec.getLsbD_shiftLeft,
      BitVec.getLsbD_shiftLeft] at hbit
    by_cases hlow : i < n
    · simpa [hlow] using hbit
    · rw [ih (i - n) (by omega) (by omega)] at hbit
      exact Bool.xor_left_inj.mp hbit

theorem xorShiftRight_injective (hn : 0 < n) :
    Function.Injective fun x : BitVec w => x ^^^ x >>> n := by
  intro x y hxy
  apply BitVec.eq_of_getLsbD_eq
  intro i
  -- From above: the induction is on the distance to the highest bit.
  generalize hd : w - i = d
  induction d using Nat.strongRecOn generalizing i with
  | ind d ih =>
    intro hi
    have hbit : (x ^^^ x >>> n).getLsbD i = (y ^^^ y >>> n).getLsbD i :=
      congrArg (fun z => BitVec.getLsbD z i) hxy
    rw [BitVec.getLsbD_xor, BitVec.getLsbD_xor, BitVec.getLsbD_ushiftRight,
      BitVec.getLsbD_ushiftRight] at hbit
    have habove : x.getLsbD (n + i) = y.getLsbD (n + i) := by
      by_cases hin : n + i < w
      · exact ih (w - (n + i)) (by omega) (n + i) rfl hin
      · rw [BitVec.getLsbD_of_ge x _ (by omega), BitVec.getLsbD_of_ge y _ (by omega)]
    rw [habove] at hbit
    exact Bool.xor_left_inj.mp hbit

end

section

variable {α : Type} {f : α → α}

/-- What an injective step sends to itself is reached from itself only. -/
theorem iterate_ne_of_fixed {z x : α} (hf : Function.Injective f) (hz : f z = z) (hx : x ≠ z)
    (i : Nat) : f^[i] x ≠ z := by
  induction i with
  | zero => exact hx
  | succ i ih =>
    rw [Function.iterate_succ_apply']
    intro hzero
    exact ih (hf (hzero.trans hz.symm))

/-- The words come round again, and all of them do. -/
theorem exists_period [Finite α] (hf : Function.Injective f) (x : α) :
    ∃ period, 0 < period ∧ ∀ i, f^[i + period] x = f^[i] x := by
  obtain ⟨period, hpos, hperiod⟩ := Function.mem_periodicPts.mp (hf.mem_periodicPts x)
  refine ⟨period, hpos, fun i => ?_⟩
  rw [Function.iterate_add_apply]
  exact congrArg f^[i] hperiod

end

/-! ## Linear functions -/

/-- A function that respects exclusive ors. -/
structure XorLinear {w v : Nat} (f : BitVec w → BitVec v) : Prop where
  map_xor : ∀ x y, f (x ^^^ y) = f x ^^^ f y

/-- The exclusive or of the columns that `y` selects, its lowest bit the first one. -/
def combine {w v : Nat} : List (BitVec v) → BitVec w → BitVec v
  | [], _ => 0#v
  | column :: columns, y => (bif y.getLsbD 0 then column else 0#v) ^^^ combine columns (y >>> 1)

namespace XorLinear

variable {u w v : Nat} {f g : BitVec w → BitVec v}

theorem id : XorLinear fun x : BitVec w => x := ⟨fun _ _ => rfl⟩

theorem xor (hf : XorLinear f) (hg : XorLinear g) : XorLinear fun x => f x ^^^ g x := by
  constructor
  intro x y
  simp only [hf.map_xor, hg.map_xor]
  ac_rfl

theorem shiftLeft (hf : XorLinear f) (n : Nat) : XorLinear fun x => f x <<< n := by
  constructor
  intro x y
  simp only [hf.map_xor, BitVec.shiftLeft_xor_distrib]

theorem shiftRight (hf : XorLinear f) (n : Nat) : XorLinear fun x => f x >>> n := by
  constructor
  intro x y
  simp only [hf.map_xor, BitVec.ushiftRight_xor_distrib]

theorem comp {h : BitVec v → BitVec u} (hh : XorLinear h) (hf : XorLinear f) :
    XorLinear fun x => h (f x) := by
  constructor
  intro x y
  simp only [hf.map_xor, hh.map_xor]

theorem combine (columns : List (BitVec v)) : XorLinear (combine (w := w) columns) := by
  constructor
  intro x y
  induction columns generalizing x y with
  | nil => simp [Lib.combine]
  | cons column columns ih =>
    have hselect : ∀ a b : Bool, (bif a ^^ b then column else 0#v) =
        (bif a then column else 0#v) ^^^ (bif b then column else 0#v) := by
      intro a b
      cases a <;> cases b <;> simp
    simp only [Lib.combine, BitVec.getLsbD_xor, BitVec.ushiftRight_xor_distrib, ih, hselect]
    ac_rfl

theorem map_zero (hf : XorLinear f) : f 0#w = 0#v := by
  have h := hf.map_xor 0#w 0#w
  rw [BitVec.xor_self, BitVec.xor_self] at h
  exact h

/-- A linear function is known by its values on the powers of two. -/
theorem eq_of_twoPow (hf : XorLinear f) (hg : XorLinear g)
    (hpow : ∀ i < w, f (BitVec.twoPow w i) = g (BitVec.twoPow w i)) (x : BitVec w) :
    f x = g x := by
  -- The induction is on how many of the low bits may be set.
  have hlow : ∀ k (x : BitVec w), (∀ j, k ≤ j → x.getLsbD j = false) → f x = g x := by
    intro k
    induction k with
    | zero =>
      intro x hx
      have hzero : x = 0#w := BitVec.eq_of_getLsbD_eq fun j _ => by
        rw [hx j (Nat.zero_le j)]
        exact BitVec.getLsbD_zero.symm
      rw [hzero, hf.map_zero, hg.map_zero]
    | succ k ih =>
      intro x hx
      cases hbit : x.getLsbD k with
      | false =>
        refine ih x fun j hj => ?_
        by_cases heq : j = k
        · rw [heq, hbit]
        · exact hx j (by omega)
      | true =>
        have hk : k < w := BitVec.lt_of_getLsbD hbit
        have hrest : f (x ^^^ BitVec.twoPow w k) = g (x ^^^ BitVec.twoPow w k) := by
          refine ih _ fun j hj => ?_
          rw [BitVec.getLsbD_xor, BitVec.getLsbD_twoPow]
          by_cases heq : k = j
          · simp [← heq, hbit, hk]
          · simp [heq, hx j (by omega)]
        have hsplit : x ^^^ BitVec.twoPow w k ^^^ BitVec.twoPow w k = x := by
          rw [BitVec.xor_assoc, BitVec.xor_self, BitVec.xor_zero]
        rw [← hsplit, hf.map_xor, hg.map_xor, hrest, hpow k hk]
  exact hlow w x fun j hj => BitVec.getLsbD_of_ge x j hj

end XorLinear

end DpuTest.Lib
