import DpuTest.EcEncode.Batch

/-!
# The reads of the batched encode test

`dpuEncodeBatch` fills `input_data` with one batch of stripes and hands it to
`encode_chunks` in a loop, one batch a turn.  `encode_chunks` copies the stripes of
its argument to `ec_src` in `prepareECBatch`.

`prepareCopies` are the copies of one call.  At the start of the input they are the
loop of `prepareECBatch` (`copyStripes_eq_prepareCopies`).  But the argument of the
call is `input_data + batch_size*stripe_size`, which is the end of the input: there is
one call (`batchCallArgs_eq`), it copies no stripe of the input, and every byte that it
reads lies behind the input (`le_src_of_mem`).
-/

namespace DpuTest.EcEncode

open Lib

/-- The arguments of `dpuEncodeBatch`, with an input whose size fits in `int`. -/
structure EncodeParams extends EcShape where
  batchSize : Nat
  batchSize_pos : 0 < batchSize
  src_fits : k * blockSize * batchSize < 2 ^ 31

/-- A `memcpy` of `len` bytes from `input_data + src` to `ec_src + dst`. -/
structure StripeCopy where
  src : Nat
  dst : Nat
  len : Nat
  deriving DecidableEq

section

variable (b : EncodeParams)

/-- `data_size` -/
def dataSize : Nat := b.k * b.blockSize * b.batchSize

/-- `stripe_size` -/
def stripeSize : Nat := b.blockSize * b.k

/-- The loop of `prepareECBatch(input_data + base, block_size, k, batch_size)`. -/
def prepareCopies (base : Nat) : List StripeCopy :=
  (List.range b.batchSize).map fun i =>
    { src := base + b.blockSize * b.k * i
      dst := b.blockSize * b.k * i
      len := b.blockSize * b.k }

/-- The loop of `dpuEncodeBatch`: where in `input_data` the argument of each call of
`encode_chunks` points to. -/
def batchCallArgs : List Nat :=
  (List.range (dataSize b / stripeSize b / b.batchSize)).map fun _ => b.batchSize * stripeSize b

/-- All copies of `dpuEncodeBatch`. -/
def dpuEncodeBatchCopies : List StripeCopy := (batchCallArgs b).flatMap (prepareCopies b)

/-- The copy is of stripe `i` of the input. -/
def StripeCopy.IsStripe (i : Nat) (c : StripeCopy) : Prop :=
  c.src = stripeSize b * i ∧ c.len = stripeSize b

instance (i : Nat) (c : StripeCopy) : Decidable (c.IsStripe b i) :=
  inferInstanceAs (Decidable (_ ∧ _))

/-- Every stripe of the input is copied once, and nothing else is read. -/
structure EncodesInput : Prop where
  once : ∀ i, i < b.batchSize →
    (dpuEncodeBatchCopies b).countP (fun c => decide (c.IsStripe b i)) = 1
  inBounds : ∀ c ∈ dpuEncodeBatchCopies b, c.src + c.len ≤ dataSize b

end

/-! ## The copies in memory -/

/-- `memcpy`, when it stays in the input and in `ec_src`. -/
def StripeCopy.run {n m : Nat} (input : Buffer UInt8 n) (ecSrc : Buffer UInt8 m) (c : StripeCopy) :
    Option (Buffer UInt8 m) :=
  ecSrc.copy c.dst input c.src c.len

/-- The parameters of an `EcBatch`. -/
def EcBatch.encodeParams (b : EcBatch) : EncodeParams where
  toEcShape := b.toEcShape
  batchSize := b.batchSize
  batchSize_pos := b.batchSize_pos
  src_fits := b.src_fits

/-- The copies from stripe `i` on are those of `prepareECBatch`. -/
theorem copyStripes_eq_foldlM {b : EcBatch} (input : BatchInput b) (count i : Nat)
    (ecSrc : BatchInput b) :
    copyStripes input count i ecSrc =
      ((List.range' i count).map fun i =>
        ({ src := 0 + b.blockSize * b.k * i
           dst := b.blockSize * b.k * i
           len := b.blockSize * b.k } : StripeCopy)).foldlM (StripeCopy.run input) ecSrc := by
  induction count generalizing i ecSrc with
  | zero => rfl
  | succ count ih =>
    rw [List.range'_succ, List.map_cons, List.foldlM_cons, copyStripes, StripeCopy.run,
      Buffer.copy, Nat.zero_add, Nat.mul_comm b.blockSize]
    cases hfetch : fetch input.data (b.k * b.blockSize * i) (b.k * b.blockSize) with
    | none => rfl
    | some stripe =>
      simp only [Option.bind_some]
      cases hstore : ecSrc.store (b.k * b.blockSize * i) stripe with
      | none => rfl
      | some ecSrc' =>
        simp only [Option.bind_eq_bind, Option.bind_some]
        rw [ih, Nat.mul_comm b.blockSize]

/-- At the start of the input, the copies are the loop of `prepareECBatch`. -/
theorem copyStripes_eq_prepareCopies {b : EcBatch} (input ecSrc : BatchInput b) :
    copyStripes input b.batchSize 0 ecSrc =
      (prepareCopies b.encodeParams 0).foldlM (StripeCopy.run input) ecSrc := by
  rw [copyStripes_eq_foldlM, ← List.range_eq_range']
  rfl

/-! ## The call -/

section

variable {b : EncodeParams}

theorem stripeSize_pos : 0 < stripeSize b := Nat.mul_pos b.blockSize_pos b.k_pos

theorem dataSize_eq : dataSize b = b.batchSize * stripeSize b := by
  rw [dataSize, stripeSize, Nat.mul_comm b.k, Nat.mul_comm]

/-- There is one call, with the end of the input. -/
theorem batchCallArgs_eq : batchCallArgs b = [dataSize b] := by
  have hturns : dataSize b / stripeSize b / b.batchSize = 1 := by
    rw [dataSize_eq, Nat.mul_div_cancel _ stripeSize_pos, Nat.div_self b.batchSize_pos]
  rw [batchCallArgs, hturns, ← dataSize_eq]
  rfl

/-- The first copy of the call. -/
theorem mem_dpuEncodeBatchCopies :
    ({ src := dataSize b, dst := 0, len := stripeSize b } : StripeCopy) ∈
      dpuEncodeBatchCopies b := by
  rw [dpuEncodeBatchCopies, batchCallArgs_eq, List.flatMap_singleton, prepareCopies]
  exact List.mem_map.mpr ⟨0, List.mem_range.mpr b.batchSize_pos, rfl⟩

/-- Everything is read behind the input. -/
theorem le_src_of_mem {c : StripeCopy} (h : c ∈ dpuEncodeBatchCopies b) : dataSize b ≤ c.src := by
  rw [dpuEncodeBatchCopies, batchCallArgs_eq, List.flatMap_singleton, prepareCopies,
    List.mem_map] at h
  obtain ⟨i, -, rfl⟩ := h
  exact Nat.le_add_right _ _

/-- No stripe of the input is copied. -/
theorem countP_isStripe {i : Nat} (hi : i < b.batchSize) :
    (dpuEncodeBatchCopies b).countP (fun c => decide (c.IsStripe b i)) = 0 := by
  apply List.countP_eq_zero.mpr
  intro c hc
  rw [decide_eq_true_eq]
  rintro ⟨hsrc, -⟩
  have hle := le_src_of_mem hc
  have hlt : stripeSize b * i < dataSize b := by
    rw [dataSize_eq, Nat.mul_comm]
    exact Nat.mul_lt_mul_of_pos_right hi stripeSize_pos
  omega

/-- The first copy leaves the input, whatever is in the memory. -/
theorem run_dpuEncodeBatchCopies {n : Nat} (input : Buffer UInt8 (dataSize b))
    (ecSrc : Buffer UInt8 n) :
    (dpuEncodeBatchCopies b).foldlM (StripeCopy.run input) ecSrc = none := by
  have hpos := stripeSize_pos (b := b)
  have hout : ¬ dataSize b + stripeSize b ≤ input.data.length := by
    rw [input.length_data]
    omega
  obtain ⟨n, hn⟩ : ∃ n, b.batchSize = n + 1 := Nat.exists_eq_add_one.mpr b.batchSize_pos
  rw [dpuEncodeBatchCopies, batchCallArgs_eq, List.flatMap_singleton, prepareCopies, hn,
    List.range_succ_eq_map, List.map_cons, List.foldlM_cons, StripeCopy.run, Buffer.copy, fetch,
    Nat.mul_zero, Nat.add_zero]
  show (if dataSize b + stripeSize b ≤ input.data.length then _ else none).bind _ >>= _ = none
  rw [if_neg hout]
  rfl

end

/-- The input is never encoded. -/
theorem not_encodesInput (b : EncodeParams) : ¬ EncodesInput b := by
  intro h
  have hin := h.inBounds _ mem_dpuEncodeBatchCopies
  have hpos := stripeSize_pos (b := b)
  have hout : dataSize b + stripeSize b ≤ dataSize b := hin
  omega

/-- Two stripes of one byte. -/
def twoByteInput : EncodeParams := twoStripes.encodeParams

/-- Bytes 2 and 3 of an input of two bytes are read, and bytes 0 and 1 are not. -/
theorem not_encodesInput_twoByteInput :
    (dpuEncodeBatchCopies twoByteInput = [⟨2, 0, 1⟩, ⟨3, 1, 1⟩]) ∧
      ¬ EncodesInput twoByteInput := by
  have hcopies : dpuEncodeBatchCopies twoByteInput = [⟨2, 0, 1⟩, ⟨3, 1, 1⟩] := by decide
  refine ⟨hcopies, fun h => ?_⟩
  have honce := h.once 0 Nat.two_pos
  rw [hcopies] at honce
  exact absurd honce (by decide)

end DpuTest.EcEncode
