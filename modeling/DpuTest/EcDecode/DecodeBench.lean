import DpuTest.Lib.Buffer
import DpuTest.Lib.Latch
import DpuTest.Lib.Loop

/-!
# The decode benchmark, one stripe at a time

`decode_Bench` recovers the lost blocks of `batch_size` stripes in several ways.
All of them use the same memory: `src_buffer` and `dst_buffer`, which the device
sees, and `dst_segs`, where the results of the stripes end up one behind the
other.  This module has the memory, the recover task and the callbacks, and the
`Naive` branch, which finishes one stripe before it starts the next.

`naiveDecode_spec` says that this branch ends and leaves the recovered blocks of
every stripe.  The pipelined branch is compared with it.
-/

namespace DpuTest.EcDecode

open Lib

/-- The arguments of `decode_Bench`. -/
structure DecodeShape where
  k : Nat
  m : Nat
  erasuresCount : Nat
  blockSize : Nat
  batchSize : Nat
  erasures_le : erasuresCount ≤ k + m
  batchSize_pos : 1 ≤ batchSize

namespace DecodeShape

variable (b : DecodeShape)

def srcSizeSeg : Nat := (b.k + b.m - b.erasuresCount) * b.blockSize
def dstSizeSeg : Nat := b.erasuresCount * b.blockSize
def srcSize : Nat := b.srcSizeSeg * b.batchSize
def dstSize : Nat := b.dstSizeSeg * b.batchSize

variable {b} {j : Nat}

theorem segment_le {size : Nat} (h : j < b.batchSize) : j * size + size ≤ size * b.batchSize := by
  rw [Nat.mul_comm size]
  exact Buffer.segment_bound size h

theorem src_le (h : j < b.batchSize) : j * b.srcSizeSeg + b.srcSizeSeg ≤ b.srcSize :=
  segment_le h

theorem dst_le (h : j < b.batchSize) : j * b.dstSizeSeg + b.dstSizeSeg ≤ b.dstSize :=
  segment_le h

end DecodeShape

/-- The blocks that the device recovers from the source segment of a stripe. -/
structure EcRecover (b : DecodeShape) where
  recover : List UInt8 → List UInt8
  length_recover : ∀ seg, (recover seg).length = b.dstSizeSeg

/-- `struct ec_sample_objects`.  `dst_segs` is its `app_dst_buffer`. -/
structure EcSampleObjects (b : DecodeShape) where
  srcBuffer : Buffer UInt8 b.srcSize
  dstBuffer : Buffer UInt8 b.dstSize
  dstSegs : Buffer UInt8 b.dstSize
  runPeProgress : Bool
  numRemainingTasks : Int

section

variable {b : DecodeShape}

/-- `memcpy` of stripe `j` to the source memory of the device. -/
def copySrcSeg (srcSegs : Buffer UInt8 b.srcSize) (j : Nat) (s : EcSampleObjects b) :
    Option (EcSampleObjects b) :=
  (s.srcBuffer.copy (j * b.srcSizeSeg) srcSegs (j * b.srcSizeSeg) b.srcSizeSeg).map
    fun srcBuffer => { s with srcBuffer := srcBuffer }

/-- What the device does for the recover task of stripe `j`. -/
def recoverTask (r : EcRecover b) (j : Nat) (s : EcSampleObjects b) :
    Option (EcSampleObjects b) :=
  (fetch s.srcBuffer.data (j * b.srcSizeSeg) b.srcSizeSeg).bind fun seg =>
    (s.dstBuffer.store (j * b.dstSizeSeg) (r.recover seg)).map
      fun dstBuffer => { s with dstBuffer := dstBuffer }

/-- `memcpy` of the result of stripe `j` to `dst_segs`. -/
def copyDstSeg (j : Nat) (s : EcSampleObjects b) : Option (EcSampleObjects b) :=
  (s.dstSegs.copy (j * b.dstSizeSeg) s.dstBuffer (j * b.dstSizeSeg) b.dstSizeSeg).map
    fun dstSegs => { s with dstSegs := dstSegs }

/-- `++num_remaining_tasks`, by the branch that submits. -/
def addRemaining (s : EcSampleObjects b) : EcSampleObjects b :=
  { s with numRemainingTasks := s.numRemainingTasks + 1 }

/-- `run_pe_progress = true` -/
def raiseFlag (s : EcSampleObjects b) : EcSampleObjects b :=
  { s with runPeProgress := true }

/-- `ec_recover_completed_callback`. -/
def ecRecoverCompletedCallback (s : EcSampleObjects b) : EcSampleObjects b :=
  { s with
    numRemainingTasks := s.numRemainingTasks - 1
    runPeProgress := if s.numRemainingTasks - 1 = 0 then false else s.runPeProgress }

/-- `ec_recover_completed_callback_memcpy` for the task of stripe `j`. -/
def ecRecoverCompletedCallbackMemcpy (j : Nat) (s : EcSampleObjects b) :
    Option (EcSampleObjects b) :=
  (copyDstSeg j s).map ecRecoverCompletedCallback

/-! ## What the copies and the task do -/

variable {r : EcRecover b} {srcSegs : Buffer UInt8 b.srcSize} {j : Nat}
  {s s' : EcSampleObjects b}

theorem copySrcSeg_inv (h : copySrcSeg srcSegs j s = some s') :
    ∃ srcBuffer, s' = { s with srcBuffer := srcBuffer } ∧
      srcBuffer.segment b.srcSizeSeg j = srcSegs.segment b.srcSizeSeg j ∧
      ∀ j', j' ≠ j → srcBuffer.segment b.srcSizeSeg j' = s.srcBuffer.segment b.srcSizeSeg j' := by
  obtain ⟨srcBuffer, hcopy, rfl⟩ := Option.map_eq_some_iff.mp h
  exact ⟨srcBuffer, rfl, Buffer.segment_copy hcopy⟩

theorem recoverTask_inv (h : recoverTask r j s = some s') :
    ∃ dstBuffer, s' = { s with dstBuffer := dstBuffer } ∧
      dstBuffer.segment b.dstSizeSeg j = r.recover (s.srcBuffer.segment b.srcSizeSeg j) ∧
      ∀ j', j' ≠ j → dstBuffer.segment b.dstSizeSeg j' = s.dstBuffer.segment b.dstSizeSeg j' := by
  obtain ⟨seg, hfetch, hmap⟩ := Option.bind_eq_some_iff.mp h
  obtain ⟨dstBuffer, hstore, rfl⟩ := Option.map_eq_some_iff.mp hmap
  unfold fetch at hfetch
  split at hfetch
  · cases hfetch
    obtain ⟨hle, rfl⟩ := Buffer.store_inv hstore
    have hlen := r.length_recover (slice s.srcBuffer.data (j * b.srcSizeSeg) b.srcSizeSeg)
    exact ⟨_, rfl, Buffer.segment_put_self hlen hle,
      fun j' hne => Buffer.segment_put_of_ne hlen hle hne⟩
  · cases hfetch

theorem copyDstSeg_inv (h : copyDstSeg j s = some s') :
    ∃ dstSegs, s' = { s with dstSegs := dstSegs } ∧
      dstSegs.segment b.dstSizeSeg j = s.dstBuffer.segment b.dstSizeSeg j ∧
      ∀ j', j' ≠ j → dstSegs.segment b.dstSizeSeg j' = s.dstSegs.segment b.dstSizeSeg j' := by
  obtain ⟨dstSegs, hcopy, rfl⟩ := Option.map_eq_some_iff.mp h
  exact ⟨dstSegs, rfl, Buffer.segment_copy hcopy⟩

/-- A stripe of the batch is inside every buffer. -/
theorem exists_copySrcSeg (srcSegs : Buffer UInt8 b.srcSize) (s : EcSampleObjects b)
    (hj : j < b.batchSize) : ∃ s', copySrcSeg srcSegs j s = some s' := by
  obtain ⟨srcBuffer, hcopy⟩ :=
    Buffer.copy_eq_some s.srcBuffer srcSegs (DecodeShape.src_le hj) (DecodeShape.src_le hj)
  exact ⟨_, by rw [copySrcSeg, hcopy, Option.map_some]⟩

theorem exists_recoverTask (r : EcRecover b) (s : EcSampleObjects b) (hj : j < b.batchSize) :
    ∃ s', recoverTask r j s = some s' := by
  have hsrc : j * b.srcSizeSeg + b.srcSizeSeg ≤ s.srcBuffer.data.length := by
    rw [s.srcBuffer.length_data]
    exact DecodeShape.src_le hj
  have hdst : j * b.dstSizeSeg +
      (r.recover (slice s.srcBuffer.data (j * b.srcSizeSeg) b.srcSizeSeg)).length ≤ b.dstSize := by
    rw [r.length_recover]
    exact DecodeShape.dst_le hj
  exact ⟨_, by rw [recoverTask, fetch_eq_some hsrc, Option.bind_some, Buffer.store_eq_some _ hdst,
    Option.map_some]⟩

theorem exists_copyDstSeg (s : EcSampleObjects b) (hj : j < b.batchSize) :
    ∃ s', copyDstSeg j s = some s' := by
  obtain ⟨dstSegs, hcopy⟩ :=
    Buffer.copy_eq_some s.dstSegs s.dstBuffer (DecodeShape.dst_le hj) (DecodeShape.dst_le hj)
  exact ⟨_, by rw [copyDstSeg, hcopy, Option.map_some]⟩

/-! ## The `Naive` branch -/

/-- One pass of the loop.  Nothing but the device touches the buffers while the
task is in flight, so its output is there before the poll loop starts; the loop
then runs the one callback. -/
def naiveTask (r : EcRecover b) (srcSegs : Buffer UInt8 b.srcSize) (s : EcSampleObjects b)
    (j : Nat) : Option (EcSampleObjects b) :=
  (copySrcSeg srcSegs j s).bind fun s =>
    (recoverTask r j s).bind fun s =>
      (pollLoop EcSampleObjects.runPeProgress (fun (_ : Unit) => ecRecoverCompletedCallback) [()]
        (addRemaining (raiseFlag s))).bind fun s =>
        copyDstSeg j s

/-- The `Naive` branch of `decode_Bench`. -/
def naiveDecode (r : EcRecover b) (srcSegs : Buffer UInt8 b.srcSize) (s : EcSampleObjects b) :
    Option (EcSampleObjects b) :=
  (List.range b.batchSize).foldlM (naiveTask r srcSegs) { s with numRemainingTasks := 0 }

/-- The first `count` stripes are recovered. -/
def Recovered (r : EcRecover b) (srcSegs : Buffer UInt8 b.srcSize) (count : Nat)
    (s : EcSampleObjects b) : Prop :=
  ∀ j, j < count → s.dstSegs.segment b.dstSizeSeg j = r.recover (srcSegs.segment b.srcSizeSeg j)

/-- One stripe more is recovered. -/
theorem naiveTask_recovered (hj : j < b.batchSize) (hrem : s.numRemainingTasks = 0)
    (hs : Recovered r srcSegs j s) :
    ∃ s', naiveTask r srcSegs s j = some s' ∧ s'.numRemainingTasks = 0 ∧
      Recovered r srcSegs (j + 1) s' := by
  obtain ⟨s₁, hcopy⟩ := exists_copySrcSeg srcSegs s hj
  obtain ⟨srcBuffer, rfl, hsrc, -⟩ := copySrcSeg_inv hcopy
  obtain ⟨s₂, htask⟩ := exists_recoverTask r { s with srcBuffer := srcBuffer } hj
  obtain ⟨dstBuffer, rfl, hdst, -⟩ := recoverTask_inv htask
  have hpoll : pollLoop EcSampleObjects.runPeProgress
      (fun (_ : Unit) => ecRecoverCompletedCallback) [()]
      (addRemaining (raiseFlag { s with srcBuffer := srcBuffer, dstBuffer := dstBuffer })) =
        some { s with
          srcBuffer := srcBuffer, dstBuffer := dstBuffer, runPeProgress := false } := by
    rw [pollLoop_cons rfl]
    simp only [ecRecoverCompletedCallback, addRemaining, raiseFlag, hrem]
    apply pollLoop_of_stopped
    rfl
  obtain ⟨s₃, hout⟩ := exists_copyDstSeg
    { s with srcBuffer := srcBuffer, dstBuffer := dstBuffer, runPeProgress := false } hj
  obtain ⟨dstSegs, rfl, hself, hother⟩ := copyDstSeg_inv hout
  refine ⟨{ s with
    srcBuffer := srcBuffer, dstBuffer := dstBuffer, dstSegs := dstSegs,
    runPeProgress := false }, ?_, hrem, ?_⟩
  · rw [naiveTask, hcopy, Option.bind_some, htask, Option.bind_some, hpoll, Option.bind_some, hout]
  · intro i hi
    show dstSegs.segment b.dstSizeSeg i = _
    by_cases hij : i = j
    · rw [hij, hself, ← hsrc]
      exact hdst
    · rw [hother i hij]
      exact hs i (by omega)

/-- The branch ends, and every stripe of the batch is recovered. -/
theorem naiveDecode_spec (r : EcRecover b) (srcSegs : Buffer UInt8 b.srcSize)
    (s : EcSampleObjects b) :
    ∃ s', naiveDecode r srcSegs s = some s' ∧ Recovered r srcSegs b.batchSize s' := by
  have hloop : ∃ s', naiveDecode r srcSegs s = some s' ∧ s'.numRemainingTasks = 0 ∧
      Recovered r srcSegs b.batchSize s' := by
    refine exists_foldlM_range (P := fun count (u : EcSampleObjects b) =>
      u.numRemainingTasks = 0 ∧ Recovered r srcSegs count u) ?_ ?_
    · rintro j u hj ⟨hrem, hu⟩
      exact naiveTask_recovered hj hrem hu
    · exact ⟨rfl, fun j hj => absurd hj (Nat.not_lt_zero j)⟩
  obtain ⟨s', hrun, -, hs'⟩ := hloop
  exact ⟨s', hrun, hs'⟩

end

end DpuTest.EcDecode
