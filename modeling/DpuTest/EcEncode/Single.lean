import DpuTest.EcEncode.DpuProxy

/-!
# One stripe at a time

`initEC` and `encode_chunks(data, coding, block_size)`.  Two of its pieces do
not fit together.

* `initEC` clears `num_remaining_tasks`, and nothing sets it before a task is
  submitted.  The callback counts it down from zero, it wraps, and the flag that
  `waitingECTasks` polls stays up.  So no call returns
  (`encodeCalls_never_return`).
* `initEC` sets the data of the source buffer to the whole of `ec_src`, which
  has room for two stripes.  The device then takes two blocks for one
  (`input_submitOneECTask`).
-/

namespace DpuTest.EcEncode

open Lib

/-- `thread_num` -/
def THREAD_NUM : Nat := 2

/-- The proxy after `initEC`. -/
abbrev EcProxy (shape : EcShape) : Type :=
  Engine UInt8 (shape.k * shape.blockSize * THREAD_NUM) (shape.m * shape.blockSize * THREAD_NUM)

section

variable (shape : EcShape)

/-- `initEC`, with what `malloc` left in `ec_src` and `ec_dst`. -/
def initEC (ecSrc : Buffer UInt8 (shape.k * shape.blockSize * THREAD_NUM))
    (ecDst : Buffer UInt8 (shape.m * shape.blockSize * THREAD_NUM)) : EcProxy shape where
  src := ecSrc
  dst := ecDst
  srcBufs := [(0, shape.k * shape.blockSize * THREAD_NUM)]
  dstBufs := [(0, 0)]
  -- `memset(&ec_resources, 0, sizeof(ec_resources))`, and then the flag
  latch := { remaining := 0, running := true }

variable {shape}

/-- The loop of `submitOneECTask` that copies the data blocks. -/
def copyBlocks {srcSize : Nat} :
    List (List UInt8) → Nat → Buffer UInt8 srcSize → Option (Buffer UInt8 srcSize)
  | [], _, ecSrc => some ecSrc
  | block :: blocks, off, ecSrc =>
    match ecSrc.store off block with
    | none => none
    | some ecSrc => copyBlocks blocks (off + block.length) ecSrc

def submitOneECTask (data : Stripe shape) (e : EcProxy shape) : Option (EcProxy shape) :=
  match copyBlocks data.blocks 0 e.src with
  | none => none
  | some ecSrc => some { e with src := ecSrc, latch := { e.latch with running := true } }

def resetECDestBuf (e : EcProxy shape) : EcProxy shape :=
  { e with dstBufs := resetFirst 1 e.dstBufs }

variable (code : ErasureCode shape.k shape.m)

/-- `encode_chunks(data, coding, block_size)`: what it leaves in `coding`, and
the proxy.  The one task that was submitted completes; `none` is no return. -/
def encodeChunks (data : Stripe shape) (e : EcProxy shape) :
    Option (List (List UInt8) × EcProxy shape) :=
  match submitOneECTask data e with
  | none => none
  | some e =>
    match e.wait (ecCreate code) [0] with
    | none => none
    | some e =>
      match fetchCoding shape e.dst 0 with
      | none => none
      | some coding => some (coding, resetECDestBuf e)

/-- A sequence of calls. -/
def encodeCalls : List (Stripe shape) → EcProxy shape → Option (List (List (List UInt8)))
  | [], _ => some []
  | data :: calls, e =>
    match encodeChunks code data e with
    | none => none
    | some (coding, e) =>
      match encodeCalls calls e with
      | none => none
      | some codings => some (coding :: codings)

/-- Every call returns, with the parity of its data. -/
def EncodesCalls (calls : List (Stripe shape)) (e : EcProxy shape) : Prop :=
  encodeCalls code calls e = some (calls.map (fun data => data.parity code))

variable {code}

/-- A submitted task changes the source memory only, and raises the flag. -/
theorem submitOneECTask_inv {data : Stripe shape} {e e' : EcProxy shape}
    (h : submitOneECTask data e = some e') :
    e'.latch = { e.latch with running := true } ∧ e'.srcBufs = e.srcBufs := by
  unfold submitOneECTask at h
  split at h
  · cases h
  · cases h
    exact ⟨rfl, rfl⟩

/-- With no task counted, a call does not return. -/
theorem encodeChunks_of_zero {data : Stripe shape} {e : EcProxy shape}
    (h : e.latch.remaining = 0) : encodeChunks code data e = none := by
  unfold encodeChunks
  split
  · rfl
  · rename_i e' hsubmit
    obtain ⟨hlatch, -⟩ := submitOneECTask_inv hsubmit
    have hrem : e'.latch.remaining = 0 := by
      rw [hlatch]
      exact h
    have hwait := Engine.wait_of_zero (f := ecCreate code) (e := e') hrem
      (by decide : [0].length < 2 ^ 64) (by rw [hlatch])
    rw [hwait]

/-- The first call does not return. -/
theorem encodeCalls_initEC_cons (code : ErasureCode shape.k shape.m)
    (ecSrc : Buffer UInt8 (shape.k * shape.blockSize * THREAD_NUM))
    (ecDst : Buffer UInt8 (shape.m * shape.blockSize * THREAD_NUM)) (data : Stripe shape)
    (calls : List (Stripe shape)) :
    encodeCalls code (data :: calls) (initEC shape ecSrc ecDst) = none := by
  have hzero : (initEC shape ecSrc ecDst).latch.remaining = 0 := rfl
  rw [encodeCalls, encodeChunks_of_zero hzero]

/-- So no sequence of calls is encoded, whatever the data and the code. -/
theorem encodeCalls_never_return (code : ErasureCode shape.k shape.m)
    (ecSrc : Buffer UInt8 (shape.k * shape.blockSize * THREAD_NUM))
    (ecDst : Buffer UInt8 (shape.m * shape.blockSize * THREAD_NUM))
    {calls : List (Stripe shape)} (hne : calls ≠ []) :
    encodeCalls code calls (initEC shape ecSrc ecDst) = none ∧
      ¬ EncodesCalls code calls (initEC shape ecSrc ecDst) := by
  cases calls with
  | nil => exact absurd rfl hne
  | cons data calls =>
    have hnone := encodeCalls_initEC_cons code ecSrc ecDst data calls
    refine ⟨hnone, ?_⟩
    intro hcalls
    unfold EncodesCalls at hcalls
    rw [hnone] at hcalls
    cases hcalls

/-- The blocks that the device sees are twice as long as the data blocks. -/
theorem input_submitOneECTask {data : Stripe shape}
    {ecSrc : Buffer UInt8 (shape.k * shape.blockSize * THREAD_NUM)}
    {ecDst : Buffer UInt8 (shape.m * shape.blockSize * THREAD_NUM)} {e : EcProxy shape}
    (h : submitOneECTask data (initEC shape ecSrc ecDst) = some e) :
    (e.input 0).length / shape.k = shape.blockSize * THREAD_NUM := by
  obtain ⟨-, hbufs⟩ := submitOneECTask_inv h
  have hlen : (e.input 0).length = shape.k * shape.blockSize * THREAD_NUM := by
    rw [Engine.input, hbufs]
    apply length_slice
    rw [e.src.length_data]
    exact Nat.le_of_eq (Nat.zero_add _)
  rw [hlen, Nat.mul_assoc, Nat.mul_div_cancel_left _ shape.k_pos]

end

/-! ## One block of one byte -/

/-- One data block, one parity block, one byte each. -/
def oneByteShape : EcShape where
  k := 1
  m := 1
  blockSize := 1
  k_pos := by decide
  m_pos := by decide
  blockSize_pos := by decide

/-- The parity of one block is the block. -/
def copyCode : ErasureCode oneByteShape.k oneByteShape.m where
  encode := id
  length_encode hlen _ := hlen
  length_of_mem_encode _ hsize := hsize

def oneByteStripe (b : UInt8) : Stripe oneByteShape where
  blocks := [[b]]
  length_blocks := rfl
  length_of_mem c hc := by
    rw [List.mem_singleton.mp hc]
    rfl

def twoZeros : Buffer UInt8 (oneByteShape.k * oneByteShape.blockSize * THREAD_NUM) := .zeroed _

/-- The byte 1 is never encoded. -/
theorem encodeCalls_one :
    ¬ EncodesCalls copyCode [oneByteStripe 1] (initEC oneByteShape twoZeros twoZeros) := by
  intro hcalls
  have hnone := encodeCalls_initEC_cons copyCode twoZeros twoZeros (oneByteStripe 1) []
  unfold EncodesCalls at hcalls
  rw [hnone] at hcalls
  cases hcalls

theorem encodeCalls_never_return_one :
    encodeCalls copyCode [oneByteStripe 1] (initEC oneByteShape twoZeros twoZeros) = none ∧
      ¬ EncodesCalls copyCode [oneByteStripe 1] (initEC oneByteShape twoZeros twoZeros) :=
  encodeCalls_never_return copyCode twoZeros twoZeros (List.cons_ne_nil _ _)

end DpuTest.EcEncode
