import DpuTest.Lib.Buffer
import DpuTest.Lib.Loop
import DpuTest.Lib.ShiftXor

/-!
# The deterministic test pattern

`ec_compare` fills its data blocks with the pattern of `fill_deterministic`: a 32-bit word
goes through three shifts and exclusive ors for each byte, and its highest byte is stored.

`nextState_injective` says that no two words have the same successor.  The words of the
pattern are never zero (`fillState_ne_zero`) and come round again from the first one on
(`fillState_periodic`).  `fillDeterministic_eq` is what a call leaves in the buffer.

Five highest bytes in a row determine the word (`recoverWord_highByteColumns`), so no five
bytes of the pattern in a row are zeros, and no data block is the zero block
(`exists_mem_slice_fillPattern`).
-/

namespace DpuTest.EcDecode

open Lib

/-- The word that `fill_deterministic` starts with. -/
def fillSeed : UInt32 := 0x4d595df4

/-- The three assignments to `state` in an iteration. -/
def nextState (state : UInt32) : UInt32 :=
  let state := state ^^^ (state <<< 13)
  let state := state ^^^ (state >>> 17)
  state ^^^ (state <<< 5)

/-- `(uint8_t)(state >> 24)` -/
def highByte (state : UInt32) : UInt8 := (state >>> 24).toUInt8

/-- What an iteration leaves: the word and the buffer. -/
structure Fill (n : Nat) where
  state : UInt32
  buf : Buffer UInt8 n

/-- Iteration `i` of the loop, when the byte is stored inside the buffer. -/
def fillIteration {n : Nat} (s : Fill n) (i : Nat) : Option (Fill n) :=
  let state := nextState s.state
  (s.buf.store i [highByte state]).map fun buf => { state := state, buf := buf }

/-- `fill_deterministic(buf, len)` -/
def fillDeterministic {n : Nat} (buf : Buffer UInt8 n) (len : Nat) : Option (Fill n) :=
  (List.range len).foldlM fillIteration { state := fillSeed, buf := buf }

/-- The word after `i` iterations. -/
def fillState (i : Nat) : UInt32 := nextState^[i] fillSeed

/-- The first `len` bytes of the pattern. -/
def fillPattern (len : Nat) : List UInt8 :=
  (List.range len).map fun i => highByte (fillState (i + 1))

/-! ## One step -/

theorem nextState_injective : Function.Injective nextState := by
  intro x y hxy
  have hbits : (nextState x).toBitVec = (nextState y).toBitVec := congrArg UInt32.toBitVec hxy
  apply UInt32.toBitVec_inj.mp
  apply xorShiftLeft_injective (w := 32) (n := 13) (by decide)
  apply xorShiftRight_injective (w := 32) (n := 17) (by decide)
  exact xorShiftLeft_injective (w := 32) (n := 5) (by decide) hbits

theorem nextState_zero : nextState 0 = 0 := rfl

/-! ## The words -/

theorem fillState_succ (i : Nat) : fillState (i + 1) = nextState (fillState i) :=
  Function.iterate_succ_apply' nextState i fillSeed

theorem fillState_ne_zero (i : Nat) : fillState i ≠ 0 :=
  iterate_ne_of_fixed nextState_injective nextState_zero (by decide) i

theorem fillState_periodic :
    ∃ period, 0 < period ∧ ∀ i, fillState (i + period) = fillState i := by
  have : Finite UInt32 := Finite.of_injective UInt32.toFin fun _ _ => UInt32.toFin_inj.mp
  exact exists_period nextState_injective fillSeed

/-! ## The bytes -/

theorem length_fillPattern (len : Nat) : (fillPattern len).length = len := by
  rw [fillPattern, List.length_map, List.length_range]

theorem fillPattern_succ (len : Nat) :
    fillPattern (len + 1) = fillPattern len ++ [highByte (fillState (len + 1))] := by
  rw [fillPattern, List.range_succ, List.map_append]
  rfl

/-- What an iteration stores continues the pattern. -/
theorem fillIteration_spec {n i : Nat} {s : Fill n} {old : List UInt8} (hi : i < n)
    (hstate : s.state = fillState i) (hdata : s.buf.data = fillPattern i ++ old.drop i) :
    ∃ t, fillIteration s i = some t ∧ t.state = fillState (i + 1) ∧
      t.buf.data = fillPattern (i + 1) ++ old.drop (i + 1) := by
  have hnext : nextState s.state = fillState (i + 1) := by rw [hstate, fillState_succ]
  have hin : i + [highByte (fillState (i + 1))].length ≤ n := hi
  refine ⟨{ state := fillState (i + 1), buf := s.buf.put i _ hin }, ?_, rfl, ?_⟩
  · rw [fillIteration, hnext, s.buf.store_eq_some hin]
    rfl
  · rw [Buffer.put_data, hdata, writeAt, List.take_left' (length_fillPattern i),
      List.length_singleton, List.drop_append, length_fillPattern,
      List.drop_of_length_le (by rw [length_fillPattern]; omega), List.nil_append, List.drop_drop,
      fillPattern_succ, Nat.add_sub_cancel_left]

/-- What a call leaves. -/
theorem fillDeterministic_eq {n len : Nat} (buf : Buffer UInt8 n) (h : len ≤ n) :
    ∃ t, fillDeterministic buf len = some t ∧ t.state = fillState len ∧
      t.buf.data = fillPattern len ++ buf.data.drop len := by
  refine exists_foldlM_range (P := fun i (s : Fill n) => s.state = fillState i ∧
    s.buf.data = fillPattern i ++ buf.data.drop i) (fun i s hi hs => ?_) ⟨rfl, rfl⟩
  exact fillIteration_spec (by omega) hs.1 hs.2

/-! ## Five bytes in a row -/

/-- An iteration on the bits of the word. -/
def nextBits (x : BitVec 32) : BitVec 32 := (nextState (UInt32.ofBitVec x)).toBitVec

/-- How the bits of the highest bytes of a word and its four successors make the word. -/
def highByteColumns : List (List (BitVec 32)) :=
  [[0x19e3d7e, 0x2619f79, 0x43b390a, 0x8604322, 0x1032571a, 0x204350af, 0x40624136, 0x80ce54ca],
    [0xb9cf3, 0xf14d64, 0xb56fe3, 0xd90c8d, 0x1f7f23, 0xf7f01b, 0x430a52, 0x606026],
    [0x242024, 0x95ebc9, 0x68416d, 0x1800da, 0x2f389b, 0xbb1d03, 0xc52f45, 0xdd6da9],
    [0xee36ce, 0xb94fad, 0xd52fc5, 0xfd6ca9, 0xae34ce, 0xd77d63, 0xa52ee],
    [0xdc27dc]]

/-- What the highest bytes of `x` and its successors make. -/
def recoverWord : List (List (BitVec 32)) → BitVec 32 → BitVec 32
  | [], _ => 0#32
  | columns :: rest, x => combine columns (x >>> 24) ^^^ recoverWord rest (nextBits x)

theorem xorLinear_nextBits : XorLinear nextBits := by
  have h₁ : XorLinear fun x : BitVec 32 => x ^^^ x <<< 13 :=
    XorLinear.id.xor (XorLinear.id.shiftLeft 13)
  have h₂ : XorLinear fun x : BitVec 32 => x ^^^ x >>> 17 :=
    XorLinear.id.xor (XorLinear.id.shiftRight 17)
  have h₃ : XorLinear fun x : BitVec 32 => x ^^^ x <<< 5 :=
    XorLinear.id.xor (XorLinear.id.shiftLeft 5)
  exact h₃.comp (h₂.comp h₁)

theorem xorLinear_recoverWord (rest : List (List (BitVec 32))) : XorLinear (recoverWord rest) := by
  induction rest with
  | nil => exact ⟨fun _ _ => BitVec.xor_self.symm⟩
  | cons columns rest ih =>
    exact ((XorLinear.combine columns).comp (XorLinear.id.shiftRight 24)).xor
      (ih.comp xorLinear_nextBits)

/-- Five highest bytes in a row determine the word. -/
theorem recoverWord_highByteColumns (x : BitVec 32) : recoverWord highByteColumns x = x :=
  (xorLinear_recoverWord highByteColumns).eq_of_twoPow XorLinear.id (by decide +kernel) x

theorem shiftRight_eq_zero {state : UInt32} (h : highByte state = 0) :
    state.toBitVec >>> 24 = 0#32 := by
  have hbyte : state.toNat >>> 24 % 256 = 0 := by
    have hnat : (highByte state).toNat = 0 := congrArg UInt8.toNat h
    rwa [highByte, UInt32.toNat_toUInt8, UInt32.toNat_shiftRight] at hnat
  have hlt : state.toNat < 2 ^ 32 := state.toNat_lt
  apply BitVec.eq_of_toNat_eq
  rw [BitVec.toNat_ushiftRight]
  rw [Nat.shiftRight_eq_div_pow] at hbyte
  show state.toNat >>> 24 = 0
  rw [Nat.shiftRight_eq_div_pow]
  omega

theorem recoverWord_eq_zero {rest : List (List (BitVec 32))} {state : UInt32}
    (h : ∀ j < rest.length, highByte (nextState^[j] state) = 0) :
    recoverWord rest state.toBitVec = 0#32 := by
  induction rest generalizing state with
  | nil => rfl
  | cons columns rest ih =>
    have hhead : highByte state = 0 := h 0 (Nat.zero_lt_succ _)
    have htail : recoverWord rest (nextState state).toBitVec = 0#32 :=
      ih fun j hj => h (j + 1) (Nat.succ_lt_succ hj)
    show combine columns (state.toBitVec >>> 24) ^^^ recoverWord rest (nextState state).toBitVec
      = 0#32
    rw [htail, shiftRight_eq_zero hhead, (XorLinear.combine columns).map_zero, BitVec.xor_zero]

/-- A word that is not zero shows in the highest bytes of itself and its four successors. -/
theorem exists_highByte_ne_zero {state : UInt32} (h : state ≠ 0) :
    ∃ j < 5, highByte (nextState^[j] state) ≠ 0 := by
  by_contra hnone
  have hall : ∀ j < 5, highByte (nextState^[j] state) = 0 := by
    intro j hj
    by_contra hne
    exact hnone ⟨j, hj, hne⟩
  have hzero : recoverWord highByteColumns state.toBitVec = 0#32 := recoverWord_eq_zero hall
  rw [recoverWord_highByteColumns] at hzero
  exact h (UInt32.toBitVec_inj.mp hzero)

/-- No five bytes of the pattern in a row are all zeros. -/
theorem exists_fillState_highByte_ne_zero (i : Nat) :
    ∃ j, i ≤ j ∧ j < i + 5 ∧ highByte (fillState (j + 1)) ≠ 0 := by
  obtain ⟨j, hj, hne⟩ := exists_highByte_ne_zero (fillState_ne_zero (i + 1))
  refine ⟨i + j, by omega, by omega, ?_⟩
  rw [fillState, show i + j + 1 = j + (i + 1) by omega, Function.iterate_add_apply]
  exact hne

theorem getElem?_fillPattern {i total : Nat} (h : i < total) :
    (fillPattern total)[i]? = some (highByte (fillState (i + 1))) := by
  rw [fillPattern, List.getElem?_map, List.getElem?_range h, Option.map_some]

/-- A data block of five or more bytes of the pattern is not the zero block. -/
theorem exists_mem_slice_fillPattern {off len total : Nat} (hlen : 5 ≤ len)
    (h : off + len ≤ total) : ∃ b ∈ slice (fillPattern total) off len, b ≠ 0 := by
  obtain ⟨j, hle, hlt, hne⟩ := exists_fillState_highByte_ne_zero off
  refine ⟨_, List.mem_of_getElem? (i := j - off) ?_, hne⟩
  rw [slice, List.getElem?_take_of_lt (by omega), List.getElem?_drop,
    show off + (j - off) = j by omega]
  exact getElem?_fillPattern (by omega)

/-- The word is not zero after any iteration, no two words have the same successor, and
the words are periodic from the first one on.  The bytes in the buffer are those of the
words, and no five of them in a row are all zeros. -/
theorem fillDeterministic_nondegenerate {n len : Nat} (buf : Buffer UInt8 n) (h : len ≤ n) :
    Function.Injective nextState ∧
      (∃ period, 0 < period ∧ ∀ i, fillState (i + period) = fillState i) ∧
      (∀ i ≤ len, ∃ t, fillDeterministic buf i = some t ∧ t.state = fillState i ∧
        t.state ≠ 0 ∧ t.buf.data = fillPattern i ++ buf.data.drop i) ∧
      ∀ i, ∃ j, i ≤ j ∧ j < i + 5 ∧ highByte (fillState (j + 1)) ≠ 0 := by
  refine ⟨nextState_injective, fillState_periodic, fun i hi => ?_,
    exists_fillState_highByte_ne_zero⟩
  obtain ⟨t, hrun, hstate, hdata⟩ := fillDeterministic_eq buf (Nat.le_trans hi h)
  refine ⟨t, hrun, hstate, ?_, hdata⟩
  rw [hstate]
  exact fillState_ne_zero i

theorem fillDeterministic_nondegenerate_four :
    ∃ t, fillDeterministic (Buffer.zeroed 4 : Buffer UInt8 4) 4 = some t ∧
      t.state = fillState 4 ∧ t.state ≠ 0 := by
  obtain ⟨t, hrun, hstate, hne, -⟩ :=
    (fillDeterministic_nondegenerate (Buffer.zeroed 4) (Nat.le_refl 4)).2.2.1 4 (Nat.le_refl 4)
  exact ⟨t, hrun, hstate, hne⟩

end DpuTest.EcDecode
