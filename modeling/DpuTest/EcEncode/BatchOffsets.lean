import DpuTest.EcEncode.Batch
import DpuTest.Lib.CInt

/-!
# The offsets of a batch in `int`

`initECBatch` computes the sizes of `ec_src` and `ec_dst` in `long`.  The offsets
into them are products of `int`: `k*block_size*i` for the source of a task,
`data_stripe_size*i` for the copy of a stripe, and `block_size*m*task_index` for the
parity of a task.

`ecSrcSize_eq` and `ecDstSize_eq` say that the sizes are exact for every batch of
stripes that fit.  The offsets are exact, and their segments lie in the buffers, if
and only if the offset of the last stripe fits as well (`offsetsExact_iff`).  The
batches of `EcBatch` are of this kind (`EcBatch.offsetsExact`).
-/

namespace DpuTest.EcEncode

open Lib

/-- The arguments of `initECBatch`, with stripes whose sizes fit in `int`. -/
structure BatchParams extends EcShape where
  batchSize : Nat
  batchSize_pos : 0 < batchSize
  batchSize_lt : batchSize < 2 ^ 31
  src_stripe_fits : k * blockSize < 2 ^ 31
  dst_stripe_fits : m * blockSize < 2 ^ 31

section

variable (b : BatchParams)

/-! ## The values in the code -/

/-- `this->ec_src_size` -/
def ecSrcSize : Int := int64 (int64 (b.k * b.blockSize) * b.batchSize)

/-- `this->ec_dst_size` -/
def ecDstSize : Int := int64 (int64 (b.m * b.blockSize) * b.batchSize)

/-- `k*block_size*i` in `initECBatch`. -/
def initOffset (i : Nat) : Int := int32 (int32 (b.k * b.blockSize) * i)

/-- `data_stripe_size*i` in `prepareECBatch`. -/
def prepareOffset (i : Nat) : Int := int32 (int32 (b.blockSize * b.k) * i)

/-- `coding_off` in turn `j` of the loop of `getECTaskResultBatch`. -/
def codingOff : Nat → Int
  | 0 => 0
  | j + 1 => int32 (codingOff j + b.blockSize)

/-- `(coding_off) + (block_size*m*task_index)`.  Each of the two is added to the
pointer. -/
def codingOffset (taskIndex j : Nat) : Int :=
  codingOff b j + int32 (int32 (b.blockSize * b.m) * taskIndex)

/-- A segment of `len` bytes at the offset that it should have, in a buffer of
`size` bytes. -/
structure SegmentAt (off exact len size : Int) : Prop where
  off_eq : off = exact
  nonneg : 0 ≤ off
  le_size : off + len ≤ size

/-- All offsets of the batch are exact, and the segments lie in the buffers. -/
structure OffsetsExact : Prop where
  init : ∀ i, i < b.batchSize →
    SegmentAt (initOffset b i) (b.k * b.blockSize * i) (b.k * b.blockSize) (ecSrcSize b)
  prepare : ∀ i, i < b.batchSize →
    SegmentAt (prepareOffset b i) (b.blockSize * b.k * i) (b.blockSize * b.k) (ecSrcSize b)
  coding : ∀ i, i < b.batchSize → ∀ j, j < b.m →
    SegmentAt (codingOffset b i j) (b.blockSize * j + b.blockSize * b.m * i) b.blockSize
      (ecDstSize b)

end

/-! ## The sizes -/

section

variable {b : BatchParams}

/-- A `long` holds the size of a batch of stripes of `stripe` bytes. -/
theorem int64_stripes {stripe count : Nat} (hstripe : stripe < 2 ^ 31) (hcount : count < 2 ^ 31) :
    int64 (int64 (stripe : Int) * count) = (stripe * count : Nat) := by
  have hle : stripe * count ≤ 2 ^ 31 * 2 ^ 31 :=
    Nat.mul_le_mul (Nat.le_of_lt hstripe) (Nat.le_of_lt hcount)
  have hlt : stripe * count < 2 ^ 63 := Nat.lt_of_le_of_lt hle (by decide)
  rw [int64_natCast (by omega), ← Int.natCast_mul, int64_natCast hlt]

theorem ecSrcSize_eq : ecSrcSize b = (b.k * b.blockSize * b.batchSize : Nat) := by
  rw [ecSrcSize, ← Int.natCast_mul]
  exact int64_stripes b.src_stripe_fits b.batchSize_lt

theorem ecDstSize_eq : ecDstSize b = (b.m * b.blockSize * b.batchSize : Nat) := by
  rw [ecDstSize, ← Int.natCast_mul]
  exact int64_stripes b.dst_stripe_fits b.batchSize_lt

/-! ## The offsets -/

/-- An `int` holds the offset of stripe `i` if and only if it fits. -/
theorem int32_stripes {stripe i : Nat} (hstripe : stripe < 2 ^ 31) :
    int32 (int32 (stripe : Int) * i) = (stripe * i : Nat) ↔ stripe * i < 2 ^ 31 := by
  rw [int32_natCast hstripe, ← Int.natCast_mul, int32_natCast_iff]

theorem initOffset_eq_iff {i : Nat} :
    initOffset b i = b.k * b.blockSize * i ↔ b.k * b.blockSize * i < 2 ^ 31 := by
  rw [initOffset, ← Int.natCast_mul, ← Int.natCast_mul]
  exact int32_stripes b.src_stripe_fits

/-- The two sides compute the same source offset. -/
theorem prepareOffset_eq (i : Nat) : prepareOffset b i = initOffset b i := by
  rw [prepareOffset, initOffset, Int.mul_comm (b.blockSize : Int)]

/-- The offset of block `j` in its stripe fits with the stripe. -/
theorem codingOff_eq {j : Nat} (h : j ≤ b.m) : codingOff b j = (b.blockSize * j : Nat) := by
  induction j with
  | zero => rfl
  | succ j ih =>
    have hle : b.blockSize * (j + 1) ≤ b.m * b.blockSize := by
      rw [Nat.mul_comm]
      exact Nat.mul_le_mul_right _ h
    have hfits : b.blockSize * (j + 1) < 2 ^ 31 := Nat.lt_of_le_of_lt hle b.dst_stripe_fits
    rw [codingOff, ih (by omega), ← Int.natCast_add, ← Nat.mul_succ]
    exact int32_natCast hfits

theorem codingOffset_eq_iff {i j : Nat} (hj : j < b.m) :
    codingOffset b i j = b.blockSize * j + b.blockSize * b.m * i ↔
      b.m * b.blockSize * i < 2 ^ 31 := by
  have hiff := int32_stripes (i := i) b.dst_stripe_fits
  have hstripe : (b.blockSize : Int) * b.m = (b.m * b.blockSize : Nat) := by
    rw [Int.mul_comm, ← Int.natCast_mul]
  rw [codingOffset, codingOff_eq (by omega), hstripe, Int.natCast_mul, Int.natCast_mul,
    Int.add_right_inj, ← Int.natCast_mul, ← Int.natCast_mul]
  exact hiff

/-- Stripe `i` lies before the end of the batch. -/
theorem stripe_add_le {stripe i count : Nat} (hi : i < count) :
    stripe * i + stripe ≤ stripe * count := by
  rw [← Nat.mul_succ]
  exact Nat.mul_le_mul_left _ hi

/-- The offset of stripe `i` is at most that of the last one. -/
theorem stripe_lt_of_last {stripe i count : Nat} (hi : i < count)
    (hlast : stripe * (count - 1) < 2 ^ 31) : stripe * i < 2 ^ 31 :=
  Nat.lt_of_le_of_lt (Nat.mul_le_mul_left _ (by omega)) hlast

/-- A source offset that fits is that of its stripe. -/
theorem segmentAt_init {i : Nat} (hi : i < b.batchSize) (hfits : b.k * b.blockSize * i < 2 ^ 31) :
    SegmentAt (initOffset b i) (b.k * b.blockSize * i) (b.k * b.blockSize) (ecSrcSize b) := by
  have hoff := initOffset_eq_iff.mpr hfits
  refine ⟨hoff, ?_, ?_⟩
  · rw [hoff]
    exact_mod_cast Nat.zero_le _
  · rw [hoff, ecSrcSize_eq]
    exact_mod_cast stripe_add_le hi

/-- A parity offset that fits is that of its block. -/
theorem segmentAt_coding {i j : Nat} (hi : i < b.batchSize) (hj : j < b.m)
    (hfits : b.m * b.blockSize * i < 2 ^ 31) :
    SegmentAt (codingOffset b i j) (b.blockSize * j + b.blockSize * b.m * i) b.blockSize
      (ecDstSize b) := by
  have hoff := (codingOffset_eq_iff hj).mpr hfits
  refine ⟨hoff, ?_, ?_⟩
  · rw [hoff]
    exact_mod_cast Nat.zero_le _
  · rw [hoff, ecDstSize_eq]
    have hblock : b.blockSize * j + b.blockSize ≤ b.m * b.blockSize := by
      rw [Nat.mul_comm b.m]
      exact stripe_add_le hj
    have hstripe : b.m * b.blockSize * i + b.m * b.blockSize ≤ b.m * b.blockSize * b.batchSize :=
      stripe_add_le hi
    have hle : b.blockSize * j + b.blockSize * b.m * i + b.blockSize ≤
        b.m * b.blockSize * b.batchSize := by
      rw [Nat.mul_comm b.blockSize b.m]
      omega
    exact_mod_cast hle

end

/-- The offsets are exact and in bounds if and only if those of the last stripe fit
in `int`. -/
theorem offsetsExact_iff (b : BatchParams) :
    OffsetsExact b ↔ b.k * b.blockSize * (b.batchSize - 1) < 2 ^ 31 ∧
      b.m * b.blockSize * (b.batchSize - 1) < 2 ^ 31 := by
  have hlast : b.batchSize - 1 < b.batchSize := by
    have hpos := b.batchSize_pos
    omega
  constructor
  · intro h
    exact ⟨initOffset_eq_iff.mp (h.init _ hlast).off_eq,
      (codingOffset_eq_iff b.m_pos).mp (h.coding _ hlast 0 b.m_pos).off_eq⟩
  · rintro ⟨hsrc, hdst⟩
    refine ⟨fun i hi => segmentAt_init hi (stripe_lt_of_last hi hsrc), fun i hi => ?_,
      fun i hi j hj => segmentAt_coding hi hj (stripe_lt_of_last hi hdst)⟩
    rw [prepareOffset_eq, Int.mul_comm (b.blockSize : Int)]
    exact segmentAt_init hi (stripe_lt_of_last hi hsrc)

/-- Three stripes of 1 GiB. -/
def threeGiB : BatchParams where
  k := 1
  m := 1
  blockSize := 2 ^ 30
  k_pos := Nat.one_pos
  m_pos := Nat.one_pos
  blockSize_pos := Nat.two_pow_pos 30
  batchSize := 3
  batchSize_pos := Nat.succ_pos 2
  batchSize_lt := by decide
  src_stripe_fits := by decide
  dst_stripe_fits := by decide

/-- The offset of the last stripe is negative. -/
theorem not_offsetsExact_threeGiB : ¬ OffsetsExact threeGiB := by
  intro h
  have hneg : ¬ 0 ≤ initOffset threeGiB 2 := by decide
  exact hneg (h.init 2 (Nat.lt_succ_self 2)).nonneg

/-- The parameters of an `EcBatch`. -/
def EcBatch.params (b : EcBatch) : BatchParams where
  toEcShape := b.toEcShape
  batchSize := b.batchSize
  batchSize_pos := b.batchSize_pos
  batchSize_lt := Nat.lt_of_le_of_lt
    (Nat.le_mul_of_pos_left _ (Nat.mul_pos b.k_pos b.blockSize_pos)) b.src_fits
  src_stripe_fits := Nat.lt_of_le_of_lt (Nat.le_mul_of_pos_right _ b.batchSize_pos) b.src_fits
  dst_stripe_fits := Nat.lt_of_le_of_lt (Nat.le_mul_of_pos_right _ b.batchSize_pos) b.dst_fits

/-- The source descriptors of `initECBatch` are those that the code computes. -/
theorem EcBatch.srcBufs_eq (b : EcBatch) (ecSrc : BatchInput b) (ecDst : BatchCoding b) :
    (initECBatch b ecSrc ecDst).srcBufs =
      (List.range b.batchSize).map fun i =>
        ((initOffset b.params i).toNat, b.k * b.blockSize) := by
  apply List.map_congr_left
  intro i hi
  have hle : b.k * b.blockSize * i ≤ b.k * b.blockSize * b.batchSize :=
    Nat.mul_le_mul_left _ (Nat.le_of_lt (List.mem_range.mp hi))
  have hoff : initOffset b.params i = (b.k * b.blockSize * i : Nat) := by
    rw [Int.natCast_mul, Int.natCast_mul]
    exact initOffset_eq_iff.mpr (Nat.lt_of_le_of_lt hle b.src_fits)
  rw [hoff, Int.toNat_natCast]

end DpuTest.EcEncode
