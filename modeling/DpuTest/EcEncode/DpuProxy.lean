import DpuTest.Lib.Engine

/-!
# The erasure-coding proxy

`DPUProxy` hands stripes of `k` data blocks to the erasure-coding device and
fetches `m` parity blocks for each.  It has two ways to do so: `initEC` prepares
one task, whose source and destination are the start of `ec_src` and `ec_dst`,
and `initECBatch` prepares a task for each stripe of a batch.

The device is a task engine over `ec_src` and `ec_dst`.  `ErasureCode` is the
encoding matrix, a parameter of the model, and `ecCreate` is what a create task
makes of its source segment.
-/

namespace DpuTest.EcEncode

open Lib

/-- `data_count`, `rdnc_count` and `block_size`. -/
structure EcShape where
  k : Nat
  m : Nat
  blockSize : Nat
  k_pos : 0 < k
  m_pos : 0 < m
  blockSize_pos : 0 < blockSize

/-- The encoding matrix of `doca_ec_matrix_create`: the parity blocks of `k`
equal data blocks. -/
structure ErasureCode (k m : Nat) where
  encode : List (List UInt8) → List (List UInt8)
  length_encode : ∀ {blocks : List (List UInt8)} {size : Nat}, blocks.length = k →
    (∀ b ∈ blocks, b.length = size) → (encode blocks).length = m
  length_of_mem_encode : ∀ {blocks : List (List UInt8)} {size : Nat}, blocks.length = k →
    (∀ b ∈ blocks, b.length = size) → ∀ c ∈ encode blocks, c.length = size

/-- A create task splits its source segment into `k` equal blocks, and writes
the parity blocks one behind the other. -/
def ecCreate {k m : Nat} (code : ErasureCode k m) (segment : List UInt8) : List UInt8 :=
  (code.encode (blocksAt segment 0 (segment.length / k) k)).flatten

/-- The loop of `getECTaskResult` and of `getECTaskResultBatch`: `m` blocks of
`ec_dst` from an offset on.  `none` is a read past the end of it. -/
def fetchCoding (shape : EcShape) {dstSize : Nat} (ecDst : Buffer UInt8 dstSize) (off : Nat) :
    Option (List (List UInt8)) :=
  (List.range shape.m).mapM
    (fun i => fetch ecDst.data (off + i * shape.blockSize) shape.blockSize)

/-! ## Stripes -/

/-- `k` data blocks of `block_size` bytes. -/
structure Stripe (shape : EcShape) where
  blocks : List (List UInt8)
  length_blocks : blocks.length = shape.k
  length_of_mem : ∀ b ∈ blocks, b.length = shape.blockSize

/-- A stripe that lies in memory. -/
def stripeAt (shape : EcShape) (buf : List UInt8) (off : Nat)
    (h : off + shape.k * shape.blockSize ≤ buf.length) : Stripe shape where
  blocks := blocksAt buf off shape.blockSize shape.k
  length_blocks := length_blocksAt
  length_of_mem _ hb := length_of_mem_blocksAt h hb

namespace Stripe

variable {shape : EcShape} (stripe : Stripe shape) (code : ErasureCode shape.k shape.m)

/-- The parity blocks that belong to a stripe. -/
def parity : List (List UInt8) := code.encode stripe.blocks

theorem length_parity : (stripe.parity code).length = shape.m :=
  code.length_encode stripe.length_blocks stripe.length_of_mem

theorem length_of_mem_parity : ∀ c ∈ stripe.parity code, c.length = shape.blockSize :=
  code.length_of_mem_encode stripe.length_blocks stripe.length_of_mem

theorem length_flatten_parity :
    (stripe.parity code).flatten.length = shape.m * shape.blockSize := by
  rw [length_flatten_of_forall (stripe.length_of_mem_parity code), stripe.length_parity]

end Stripe

section

variable {shape : EcShape} {code : ErasureCode shape.k shape.m} {dstSize : Nat}
  {ecDst : Buffer UInt8 dstSize} {off : Nat}

/-- A create task whose source segment is a stripe writes the parity of it. -/
theorem ecCreate_stripeAt {buf : List UInt8}
    (h : off + shape.k * shape.blockSize ≤ buf.length) :
    ecCreate code (slice buf off (shape.k * shape.blockSize)) =
      ((stripeAt shape buf off h).parity code).flatten := by
  rw [ecCreate, length_slice h, Nat.mul_div_cancel_left _ shape.k_pos, blocksAt_slice]
  rfl

/-- What `fetchCoding` fetches from inside `ec_dst`. -/
theorem fetchCoding_eq (h : off + shape.m * shape.blockSize ≤ dstSize) :
    fetchCoding shape ecDst off = some (blocksAt ecDst.data off shape.blockSize shape.m) := by
  apply mapM_fetch
  rw [ecDst.length_data]
  exact h

/-- It is the parity of a stripe if and only if `ec_dst` holds it there. -/
theorem fetchCoding_eq_parity_iff (h : off + shape.m * shape.blockSize ≤ dstSize)
    (stripe : Stripe shape) :
    fetchCoding shape ecDst off = some (stripe.parity code) ↔
      slice ecDst.data off (shape.m * shape.blockSize) = (stripe.parity code).flatten := by
  rw [fetchCoding_eq h, Option.some.injEq]
  constructor
  · intro heq
    rw [← heq, flatten_blocksAt]
  · intro hdst
    have hblocks := blocksAt_flatten (stripe.length_of_mem_parity code)
    rw [stripe.length_parity] at hblocks
    rw [← blocksAt_slice, hdst, hblocks]

end

end DpuTest.EcEncode
