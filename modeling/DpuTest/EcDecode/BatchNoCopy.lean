import DpuTest.EcDecode.BatchCopy

/-!
# The batched branch that stands for no copy

In the branch `Batch_NoCopy` of `decode_Bench` the sources are meant to be in
device memory already.  The branch gets there by copying the first source segment
to every slot, and then it goes on as `Batch_Copy` does.

So it is `Batch_Copy` over the first stripe repeated (`batchNoCopyDecode_eq`), and
it leaves the blocks of the first stripe in every segment of `dst_segs`.
-/

namespace DpuTest.EcDecode

open Lib

section

variable {b : DecodeShape}

/-! ## The branch -/

/-- `memcpy` of the first stripe to slot `j` of the source memory. -/
def copyFirstSeg (srcSegs : Buffer UInt8 b.srcSize) (j : Nat) (s : EcSampleObjects b) :
    Option (EcSampleObjects b) :=
  (s.srcBuffer.copy (j * b.srcSizeSeg) srcSegs 0 b.srcSizeSeg).map
    fun srcBuffer => { s with srcBuffer := srcBuffer }

/-- The first two loops of the branch. -/
def batchNoCopySubmit (r : EcRecover b) (srcSegs : Buffer UInt8 b.srcSize)
    (early : Nat → List Nat) (s : EcSampleObjects b) : Option (BatchState b) :=
  ((List.range b.batchSize).foldlM (fun s j => copyFirstSeg srcSegs j s)
    { s with numRemainingTasks := 0 }).bind fun s =>
      (List.range b.batchSize).foldlM (submitPass r early)
        { objects := s, inFlight := [], completed := [] }

/-- The `Batch_NoCopy` branch of `decode_Bench`. -/
def batchNoCopyDecode (r : EcRecover b) (srcSegs : Buffer UInt8 b.srcSize)
    (schedule : BatchSchedule) (s : EcSampleObjects b) : Option (EcSampleObjects b) :=
  (batchNoCopySubmit r srcSegs schedule.early s).bind fun s =>
    (progressLoop (fun s => s.objects.runPeProgress) (batchEvent r) schedule.calls s).bind
      fun s => (List.range b.batchSize).foldlM (fun s j => copyDstSeg j s) s.objects

/-- The schedule can happen, and brings every task to its callback. -/
def CompletesNoCopy (r : EcRecover b) (srcSegs : Buffer UInt8 b.srcSize)
    (schedule : BatchSchedule) (s : EcSampleObjects b) : Prop :=
  ∃ u t, batchNoCopySubmit r srcSegs schedule.early s = some u ∧
    run (batchEvent r) schedule.calls.flatten u = some t ∧ t.inFlight = [] ∧ t.completed = []

/-! ## The first stripe repeated -/

theorem length_firstSeg (srcSegs : Buffer UInt8 b.srcSize) :
    (srcSegs.segment b.srcSizeSeg 0).length = b.srcSizeSeg :=
  Buffer.length_segment (DecodeShape.src_le b.batchSize_pos)

/-- Source segments that are all the first one. -/
def repeatFirst (srcSegs : Buffer UInt8 b.srcSize) : Buffer UInt8 b.srcSize where
  data := (List.replicate b.batchSize (srcSegs.segment b.srcSizeSeg 0)).flatten
  length_data := by
    have hblocks : ∀ c ∈ List.replicate b.batchSize (srcSegs.segment b.srcSizeSeg 0),
        c.length = b.srcSizeSeg := by
      intro c hc
      rw [List.eq_of_mem_replicate hc]
      exact length_firstSeg srcSegs
    rw [length_flatten_of_forall hblocks, List.length_replicate, Nat.mul_comm]
    rfl

variable {r : EcRecover b} {srcSegs : Buffer UInt8 b.srcSize} {schedule : BatchSchedule}
  {j : Nat}

theorem segment_repeatFirst (hj : j < b.batchSize) :
    (repeatFirst srcSegs).segment b.srcSizeSeg j = srcSegs.segment b.srcSizeSeg 0 :=
  Buffer.segment_replicate rfl (length_firstSeg srcSegs) hj

/-- The copy of the branch is the copy of `Batch_Copy` over the repeated stripe. -/
theorem copyFirstSeg_eq (hj : j < b.batchSize) (s : EcSampleObjects b) :
    copyFirstSeg srcSegs j s = copySrcSeg (repeatFirst srcSegs) j s := by
  have hfirst := DecodeShape.src_le b.batchSize_pos
  rw [Nat.zero_mul] at hfirst
  have hwindow : slice srcSegs.data 0 b.srcSizeSeg =
      slice (repeatFirst srcSegs).data (j * b.srcSizeSeg) b.srcSizeSeg := by
    have hseg : (repeatFirst srcSegs).segment b.srcSizeSeg j =
        srcSegs.segment b.srcSizeSeg 0 := segment_repeatFirst hj
    rw [Buffer.segment, Buffer.segment, Nat.zero_mul] at hseg
    exact hseg.symm
  rw [copyFirstSeg, copySrcSeg,
    Buffer.copy_congr s.srcBuffer _ hfirst (DecodeShape.src_le hj) hwindow]

theorem batchNoCopySubmit_eq (early : Nat → List Nat) (s : EcSampleObjects b) :
    batchNoCopySubmit r srcSegs early s = batchCopySubmit r (repeatFirst srcSegs) early s := by
  rw [batchNoCopySubmit, batchCopySubmit,
    foldlM_range_congr fun _ s hi => copyFirstSeg_eq hi s]

/-- The branch is `Batch_Copy` over the first stripe repeated. -/
theorem batchNoCopyDecode_eq (s : EcSampleObjects b) :
    batchNoCopyDecode r srcSegs schedule s =
      batchCopyDecode r (repeatFirst srcSegs) schedule s := by
  rw [batchNoCopyDecode, batchCopyDecode, batchNoCopySubmit_eq]

theorem CompletesNoCopy.completesBatch {s : EcSampleObjects b}
    (h : CompletesNoCopy r srcSegs schedule s) :
    CompletesBatch r (repeatFirst srcSegs) schedule s := by
  obtain ⟨u, t, hsubmit, hrest⟩ := h
  rw [batchNoCopySubmit_eq] at hsubmit
  exact ⟨u, t, hsubmit, hrest⟩

end

end DpuTest.EcDecode
