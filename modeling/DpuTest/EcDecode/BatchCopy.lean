import DpuTest.EcDecode.DecodeBench
import DpuTest.Lib.Engine
import DpuTest.Lib.StopLatch

/-!
# The batched branch of the decode benchmark

In the branch `Batch_Copy` all source segments are copied, then all tasks are
submitted and counted, then one loop polls for the whole batch, and then all
results are copied.

The tasks are laid out before: task `i` reads the list of buffers that is
chained to `ec_src_doca_buf_batch[i][0]` and writes to the memory of
`ec_dst_doca_buf_batch[i]`.  `recoverBufs` is the task over these descriptors.
With as many erasures as parity blocks it is the `recoverTask` of the other
branches (`recoverBufs_eq`).

`Delivering` is the invariant of the wait.  A task that the device does not have
any more has left its result, and the counter stands for the tasks whose
callback has not run.  `batchCopyDecode_eq_naive` compares the branch with the
serial one.
-/

namespace DpuTest.EcDecode

open Lib

/-! ## Descriptors -/

namespace DecodeShape

variable (b : DecodeShape)

def remainingDataBlockNum : Nat := b.k - b.erasuresCount
def remainingCodeBlockNum : Nat := b.m

/-- The data of `ec_src_doca_buf_batch[i][j]`, after `doca_buf_set_data`. -/
def srcBufData (i j : Nat) : Segment := (b.srcSizeSeg * i + b.blockSize * j, b.blockSize)

/-- The list behind `ec_src_doca_buf_batch[i][0]`, after `doca_buf_chain_list`. -/
def srcBufChain (i : Nat) : List Segment :=
  (List.range (b.remainingCodeBlockNum + b.remainingDataBlockNum)).map (b.srcBufData i)

/-- The memory of `ec_dst_doca_buf_batch[i]`. -/
def dstBufMemory (i : Nat) : Segment := (i * b.dstSizeSeg, b.dstSizeSeg)

end DecodeShape

/-- The data of a list of buffers. -/
def gather (buf : List UInt8) (chain : List Segment) : Option (List UInt8) :=
  (chain.mapM fun seg => fetch buf seg.1 seg.2).map List.flatten

section

variable {b : DecodeShape}

/-- What the device does for task `i`. -/
def recoverBufs (r : EcRecover b) (i : Nat) (s : EcSampleObjects b) :
    Option (EcSampleObjects b) :=
  (gather s.srcBuffer.data (b.srcBufChain i)).bind fun seg =>
    (s.dstBuffer.store (b.dstBufMemory i).1 (r.recover seg)).map
      fun dstBuffer => { s with dstBuffer := dstBuffer }

/-! ## The branch -/

/-- The objects, the tasks that the device has, and those that it has completed
and whose callback has not run. -/
structure BatchState (b : DecodeShape) where
  objects : EcSampleObjects b
  inFlight : List Nat
  completed : List Nat

inductive BatchEvent where
  /-- The device completes a task. -/
  | complete (j : Nat)
  /-- `doca_pe_progress` runs the callback of a completed task. -/
  | deliver (j : Nat)
  deriving DecidableEq

def batchEvent (r : EcRecover b) (s : BatchState b) : BatchEvent → Option (BatchState b)
  | .complete j =>
    if j ∈ s.inFlight then
      (recoverBufs r j s.objects).map fun objects =>
        { objects := objects, inFlight := s.inFlight.erase j, completed := j :: s.completed }
    else none
  | .deliver j =>
    if j ∈ s.completed then
      some { s with
        objects := ecRecoverCompletedCallback s.objects
        completed := s.completed.erase j }
    else none

/-- What the device does: the tasks that it completes between the submission of
`j` and the next one, and what happens up to the end of each turn of the polling
loop. -/
structure BatchSchedule where
  early : Nat → List Nat
  calls : List (List BatchEvent)

/-- One pass of the loop that submits. -/
def submitPass (r : EcRecover b) (early : Nat → List Nat) (s : BatchState b) (j : Nat) :
    Option (BatchState b) :=
  run (batchEvent r) ((early j).map BatchEvent.complete)
    { s with objects := addRemaining (raiseFlag s.objects), inFlight := s.inFlight ++ [j] }

/-- The first two loops of the branch. -/
def batchCopySubmit (r : EcRecover b) (srcSegs : Buffer UInt8 b.srcSize)
    (early : Nat → List Nat) (s : EcSampleObjects b) : Option (BatchState b) :=
  ((List.range b.batchSize).foldlM (fun s j => copySrcSeg srcSegs j s)
    { s with numRemainingTasks := 0 }).bind fun s =>
      (List.range b.batchSize).foldlM (submitPass r early)
        { objects := s, inFlight := [], completed := [] }

/-- The `Batch_Copy` branch of `decode_Bench`. -/
def batchCopyDecode (r : EcRecover b) (srcSegs : Buffer UInt8 b.srcSize)
    (schedule : BatchSchedule) (s : EcSampleObjects b) : Option (EcSampleObjects b) :=
  (batchCopySubmit r srcSegs schedule.early s).bind fun s =>
    (progressLoop (fun s => s.objects.runPeProgress) (batchEvent r) schedule.calls s).bind
      fun s => (List.range b.batchSize).foldlM (fun s j => copyDstSeg j s) s.objects

/-- The schedule can happen, and brings every task to its callback. -/
def CompletesBatch (r : EcRecover b) (srcSegs : Buffer UInt8 b.srcSize)
    (schedule : BatchSchedule) (s : EcSampleObjects b) : Prop :=
  ∃ u t, batchCopySubmit r srcSegs schedule.early s = some u ∧
    run (batchEvent r) schedule.calls.flatten u = some t ∧ t.inFlight = [] ∧ t.completed = []

/-! ## The task over its descriptors -/

variable {r : EcRecover b} {srcSegs : Buffer UInt8 b.srcSize} {j : Nat}

theorem srcSizeSeg_eq (hm : b.erasuresCount = b.m) : b.srcSizeSeg = b.k * b.blockSize := by
  rw [DecodeShape.srcSizeSeg, hm, Nat.add_sub_cancel]

/-- The chained buffers of a task are its source segment. -/
theorem gather_srcBufChain (hm : b.erasuresCount = b.m) (hk : b.m ≤ b.k)
    {buf : Buffer UInt8 b.srcSize} (hj : j < b.batchSize) :
    gather buf.data (b.srcBufChain j) = some (buf.segment b.srcSizeSeg j) := by
  have hcount : b.remainingCodeBlockNum + b.remainingDataBlockNum = b.k := by
    rw [DecodeShape.remainingCodeBlockNum, DecodeShape.remainingDataBlockNum, hm]
    omega
  have hin : j * b.srcSizeSeg + b.k * b.blockSize ≤ buf.data.length := by
    rw [buf.length_data, ← srcSizeSeg_eq hm]
    exact DecodeShape.src_le hj
  have hfetch : (fun seg : Segment => fetch buf.data seg.1 seg.2) ∘ b.srcBufData j =
      fun i => fetch buf.data (j * b.srcSizeSeg + i * b.blockSize) b.blockSize := by
    funext i
    show fetch buf.data (b.srcSizeSeg * j + b.blockSize * i) b.blockSize = _
    rw [Nat.mul_comm b.srcSizeSeg, Nat.mul_comm b.blockSize]
  have hmap : (b.srcBufChain j).mapM (fun seg => fetch buf.data seg.1 seg.2) =
      some (blocksAt buf.data (j * b.srcSizeSeg) b.blockSize b.k) := by
    rw [DecodeShape.srcBufChain, hcount, List.mapM_map, hfetch]
    exact mapM_fetch hin
  rw [gather, hmap, Option.map_some, flatten_blocksAt, ← srcSizeSeg_eq hm]
  rfl

/-- With as many erasures as parity blocks, the task reads its whole source
segment and writes its destination segment. -/
theorem recoverBufs_eq (hm : b.erasuresCount = b.m) (hk : b.m ≤ b.k) (hj : j < b.batchSize)
    (s : EcSampleObjects b) : recoverBufs r j s = recoverTask r j s := by
  have hin : j * b.srcSizeSeg + b.srcSizeSeg ≤ s.srcBuffer.data.length := by
    rw [s.srcBuffer.length_data]
    exact DecodeShape.src_le hj
  rw [recoverBufs, recoverTask, gather_srcBufChain hm hk hj, fetch_eq_some hin]
  rfl

/-! ## The wait -/

/-- `n` tasks have been submitted. -/
structure Delivering (r : EcRecover b) (srcSegs : Buffer UInt8 b.srcSize) (n : Nat)
    (s : BatchState b) : Prop where
  src : ∀ j, j < b.batchSize →
    s.objects.srcBuffer.segment b.srcSizeSeg j = srcSegs.segment b.srcSizeSeg j
  inFlight_lt : ∀ j ∈ s.inFlight, j < n
  recovered : ∀ j, j < n → j ∉ s.inFlight →
    s.objects.dstBuffer.segment b.dstSizeSeg j = r.recover (srcSegs.segment b.srcSizeSeg j)
  counted : s.objects.numRemainingTasks = (s.inFlight.length + s.completed.length : Nat)
  running_iff : 0 < n → (s.objects.runPeProgress = false ↔ s.inFlight = [] ∧ s.completed = [])

section

variable {n : Nat} {s t : BatchState b}

/-- The device completes a task. -/
theorem Delivering.complete (hm : b.erasuresCount = b.m) (hk : b.m ≤ b.k)
    (hn : n ≤ b.batchSize) (hs : Delivering r srcSegs n s)
    (h : batchEvent r s (.complete j) = some t) : Delivering r srcSegs n t := by
  simp only [batchEvent] at h
  split at h
  · rename_i hmem
    obtain ⟨objects, htask, rfl⟩ := Option.map_eq_some_iff.mp h
    have hj : j < b.batchSize := Nat.lt_of_lt_of_le (hs.inFlight_lt j hmem) hn
    rw [recoverBufs_eq hm hk hj] at htask
    obtain ⟨dstBuffer, rfl, hself, hother⟩ := recoverTask_inv htask
    have hlen := StopLatch.length_erase_add_one hmem
    refine ⟨hs.src, fun i hi => hs.inFlight_lt i (List.mem_of_mem_erase hi), ?_, ?_, ?_⟩
    · intro i hi hnot
      show dstBuffer.segment b.dstSizeSeg i = _
      by_cases hij : i = j
      · rw [hij, hself, hs.src j hj]
      · rw [hother i hij]
        exact hs.recovered i hi fun hin => hnot ((List.mem_erase_of_ne hij).mpr hin)
    · show s.objects.numRemainingTasks =
        ((s.inFlight.erase j).length + (j :: s.completed).length : Nat)
      rw [hs.counted, List.length_cons]
      omega
    · intro hpos
      show s.objects.runPeProgress = false ↔ s.inFlight.erase j = [] ∧ j :: s.completed = []
      rw [hs.running_iff hpos]
      constructor
      · intro hnil
        rw [hnil.1] at hmem
        cases hmem
      · intro hnil
        cases hnil.2
  · cases h

/-- A callback runs. -/
theorem Delivering.deliver (hs : Delivering r srcSegs n s)
    (h : batchEvent r s (.deliver j) = some t) : Delivering r srcSegs n t := by
  simp only [batchEvent] at h
  split at h
  · rename_i hmem
    cases h
    have hlen := StopLatch.length_erase_add_one hmem
    have hcount := hs.counted
    refine ⟨hs.src, hs.inFlight_lt, hs.recovered, ?_, ?_⟩
    · show s.objects.numRemainingTasks - 1 =
        (s.inFlight.length + (s.completed.erase j).length : Nat)
      rw [hcount]
      omega
    · intro hpos
      show (if s.objects.numRemainingTasks - 1 = 0 then false else s.objects.runPeProgress) =
        false ↔ s.inFlight = [] ∧ s.completed.erase j = []
      have hzero : s.objects.numRemainingTasks - 1 = 0 ↔
          s.inFlight = [] ∧ s.completed.erase j = [] := by
        rw [hcount, ← List.length_eq_zero_iff, ← List.length_eq_zero_iff]
        omega
      rw [← hzero]
      by_cases hlast : s.objects.numRemainingTasks - 1 = 0
      · simp [hlast]
      · rw [if_neg hlast, hs.running_iff hpos]
        constructor
        · intro hnil
          rw [hnil.2] at hmem
          cases hmem
        · intro hz
          exact absurd hz hlast
  · cases h

theorem batchEvent_delivering (hm : b.erasuresCount = b.m) (hk : b.m ≤ b.k)
    (hn : n ≤ b.batchSize) (e : BatchEvent) (hs : Delivering r srcSegs n s)
    (h : batchEvent r s e = some t) : Delivering r srcSegs n t := by
  cases e with
  | complete j => exact hs.complete hm hk hn h
  | deliver j => exact hs.deliver h

/-- The next task is submitted, and the device goes on. -/
theorem submitPass_delivering (hm : b.erasuresCount = b.m) (hk : b.m ≤ b.k)
    (hn : n < b.batchSize) {early : Nat → List Nat} (hs : Delivering r srcSegs n s)
    (h : submitPass r early s n = some t) : Delivering r srcSegs (n + 1) t := by
  refine run_inv (Delivering r srcSegs (n + 1))
    (fun _ e _ hu hone => batchEvent_delivering hm hk hn e hu hone) h ⟨hs.src, ?_, ?_, ?_, ?_⟩
  · intro i hi
    rcases List.mem_append.mp hi with hold | hnew
    · exact Nat.lt_succ_of_lt (hs.inFlight_lt i hold)
    · rw [List.mem_singleton.mp hnew]
      exact Nat.lt_succ_self n
  · intro i hi hnot
    have hne : i ≠ n := fun heq => hnot (List.mem_append_right _ (List.mem_singleton.mpr heq))
    exact hs.recovered i (by omega) fun hin => hnot (List.mem_append_left _ hin)
  · show s.objects.numRemainingTasks + 1 = ((s.inFlight ++ [n]).length + s.completed.length : Nat)
    rw [hs.counted, List.length_append, List.length_singleton]
    omega
  · intro _
    show true = false ↔ s.inFlight ++ [n] = [] ∧ s.completed = []
    simp

/-- The source segments are copied, and the rest is as before. -/
theorem copySrc_loop {srcSegs : Buffer UInt8 b.srcSize} {s t : EcSampleObjects b}
    (h : (List.range b.batchSize).foldlM (fun s j => copySrcSeg srcSegs j s) s = some t) :
    t.numRemainingTasks = s.numRemainingTasks ∧ ∀ j, j < b.batchSize →
      t.srcBuffer.segment b.srcSizeSeg j = srcSegs.segment b.srcSizeSeg j := by
  refine foldlM_range_inv (P := fun n (u : EcSampleObjects b) =>
    u.numRemainingTasks = s.numRemainingTasks ∧ ∀ j, j < n →
      u.srcBuffer.segment b.srcSizeSeg j = srcSegs.segment b.srcSizeSeg j) ?_ ?_ h
  · intro i u v _ hu hone
    obtain ⟨srcBuffer, rfl, hself, hother⟩ := copySrcSeg_inv hone
    refine ⟨hu.1, ?_⟩
    intro j hj
    show srcBuffer.segment b.srcSizeSeg j = _
    by_cases hij : j = i
    · rw [hij, hself]
    · rw [hother j hij]
      exact hu.2 j (by omega)
  · exact ⟨rfl, fun j hj => absurd hj (Nat.not_lt_zero j)⟩

/-- The results are copied. -/
theorem copyDst_loop (s : EcSampleObjects b) :
    ∃ t, (List.range b.batchSize).foldlM (fun s j => copyDstSeg j s) s = some t ∧
      ∀ j, j < b.batchSize →
        t.dstSegs.segment b.dstSizeSeg j = s.dstBuffer.segment b.dstSizeSeg j := by
  have hloop : ∃ t, (List.range b.batchSize).foldlM (fun s j => copyDstSeg j s) s = some t ∧
      t.dstBuffer = s.dstBuffer ∧ ∀ j, j < b.batchSize →
        t.dstSegs.segment b.dstSizeSeg j = s.dstBuffer.segment b.dstSizeSeg j := by
    refine exists_foldlM_range (P := fun n (u : EcSampleObjects b) =>
      u.dstBuffer = s.dstBuffer ∧ ∀ j, j < n →
        u.dstSegs.segment b.dstSizeSeg j = s.dstBuffer.segment b.dstSizeSeg j) ?_ ?_
    · intro i u hi hu
      obtain ⟨v, hone⟩ := exists_copyDstSeg u hi
      refine ⟨v, hone, ?_⟩
      obtain ⟨dstSegs, rfl, hself, hother⟩ := copyDstSeg_inv hone
      refine ⟨hu.1, ?_⟩
      intro j hj
      show dstSegs.segment b.dstSizeSeg j = _
      by_cases hij : j = i
      · rw [hij, hself, hu.1]
      · rw [hother j hij]
        exact hu.2 j (by omega)
    · exact ⟨rfl, fun j hj => absurd hj (Nat.not_lt_zero j)⟩
  obtain ⟨t, hrun, -, ht⟩ := hloop
  exact ⟨t, hrun, ht⟩

/-- All tasks are submitted, and the device may have completed some of them. -/
theorem batchCopySubmit_delivering (hm : b.erasuresCount = b.m) (hk : b.m ≤ b.k)
    {early : Nat → List Nat} {objects : EcSampleObjects b}
    (h : batchCopySubmit r srcSegs early objects = some s) :
    Delivering r srcSegs b.batchSize s := by
  obtain ⟨u, hcopy, hsubmit⟩ := Option.bind_eq_some_iff.mp h
  obtain ⟨hrem, hsrc⟩ := copySrc_loop hcopy
  refine foldlM_range_inv (P := Delivering r srcSegs) ?_ ?_ hsubmit
  · intro i v w hi hv hone
    exact submitPass_delivering hm hk hi hv hone
  · refine ⟨hsrc, fun j hj => absurd hj List.not_mem_nil, ?_, hrem, ?_⟩
    · intro j hj
      exact absurd hj (Nat.not_lt_zero j)
    · intro hpos
      exact absurd hpos (Nat.lt_irrefl 0)

/-- No callback raises the flag. -/
theorem batchEvent_running (e : BatchEvent) (hs : s.objects.runPeProgress = false)
    (h : batchEvent r s e = some t) : t.objects.runPeProgress = false := by
  cases e with
  | complete j =>
    simp only [batchEvent] at h
    split at h
    · obtain ⟨objects, htask, rfl⟩ := Option.map_eq_some_iff.mp h
      obtain ⟨seg, -, hmap⟩ := Option.bind_eq_some_iff.mp htask
      obtain ⟨dstBuffer, -, rfl⟩ := Option.map_eq_some_iff.mp hmap
      exact hs
    · cases h
  | deliver j =>
    simp only [batchEvent] at h
    split at h
    · cases h
      show (if s.objects.numRemainingTasks - 1 = 0 then false else s.objects.runPeProgress) = false
      rw [hs, ite_self]
    · cases h

/-- The branch ends, and every stripe of the batch is recovered. -/
theorem batchCopyDecode_spec (hm : b.erasuresCount = b.m) (hk : b.m ≤ b.k)
    {schedule : BatchSchedule} {objects : EcSampleObjects b}
    (h : CompletesBatch r srcSegs schedule objects) :
    ∃ t, batchCopyDecode r srcSegs schedule objects = some t ∧
      Recovered r srcSegs b.batchSize t := by
  obtain ⟨u, v, hsubmit, hrun, hflight, hcompleted⟩ := h
  have hu := batchCopySubmit_delivering hm hk hsubmit
  have hkeep : ∀ s e t, Delivering r srcSegs b.batchSize s → batchEvent r s e = some t →
      Delivering r srcSegs b.batchSize t :=
    fun _ e _ hs hone => batchEvent_delivering hm hk (Nat.le_refl _) e hs hone
  have hv := run_inv (Delivering r srcSegs b.batchSize) hkeep hrun hu
  have hdown : v.objects.runPeProgress = false :=
    (hv.running_iff b.batchSize_pos).mpr ⟨hflight, hcompleted⟩
  obtain ⟨w, hloop⟩ := (progressLoop_ends_iff
    (fun _ e _ hs hone => batchEvent_running e hs hone) hrun).mpr hdown
  -- the loop may have ended before the last turns, so its own end is looked at
  obtain ⟨hwdown, k, hwrun⟩ := run_of_progressLoop hloop
  have hw := run_inv (Delivering r srcSegs b.batchSize) hkeep hwrun hu
  have hwnil := (hw.running_iff b.batchSize_pos).mp hwdown
  obtain ⟨t, hcopy, ht⟩ := copyDst_loop w.objects
  refine ⟨t, ?_, ?_⟩
  · rw [batchCopyDecode, hsubmit, Option.bind_some, hloop, Option.bind_some, hcopy]
  · intro j hj
    rw [ht j hj]
    refine hw.recovered j hj ?_
    rw [hwnil.1]
    exact List.not_mem_nil

end

/-- Both branches leave their loops and leave the same `dst_segs`, whatever order
the tasks complete in: segment `j` is what the device recovers from stripe `j`.
The task that the serial branch runs is the one over the descriptors. -/
theorem batchCopyDecode_eq_naive (r : EcRecover b) (srcSegs : Buffer UInt8 b.srcSize)
    (hm : b.erasuresCount = b.m) (hk : 2 * b.m ≤ b.k) {schedule : BatchSchedule}
    {objects : EcSampleObjects b} (h : CompletesBatch r srcSegs schedule objects) :
    (∃ s t, naiveDecode r srcSegs objects = some s ∧
      batchCopyDecode r srcSegs schedule objects = some t ∧ t.dstSegs = s.dstSegs ∧
        Recovered r srcSegs b.batchSize t) ∧
      ∀ j, j < b.batchSize → ∀ s : EcSampleObjects b, recoverTask r j s = recoverBufs r j s := by
  obtain ⟨s, hnaive, hs⟩ := naiveDecode_spec r srcSegs objects
  have hle : b.m ≤ b.k := by omega
  obtain ⟨t, hbatch, ht⟩ := batchCopyDecode_spec hm hle h
  refine ⟨⟨s, t, hnaive, hbatch, ?_, ht⟩, fun j hj s => (recoverBufs_eq hm hle hj s).symm⟩
  have hsize : b.dstSize = b.batchSize * b.dstSizeSeg := Nat.mul_comm _ _
  exact Buffer.ext_segment_of_eq hsize fun j hj => (ht j hj).trans (hs j hj).symm

end

/-- Two stripes of two data blocks and one parity block. -/
def twoStripeShape : DecodeShape where
  k := 2
  m := 1
  erasuresCount := 1
  blockSize := 1
  batchSize := 2
  erasures_le := by decide
  batchSize_pos := Nat.two_pos

/-- One lost block of a stripe with one parity block. -/
def xorRecover : EcRecover twoStripeShape where
  recover seg := [seg.foldl (fun x y => x ^^^ y) 0]
  length_recover _ := rfl

def twoStripeObjects : EcSampleObjects twoStripeShape where
  srcBuffer := Buffer.zeroed _
  dstBuffer := Buffer.zeroed _
  dstSegs := Buffer.zeroed _
  runPeProgress := false
  numRemainingTasks := 0

/-- The device has completed the first task before the second is submitted, and
the callbacks run in the other order. -/
def otherOrder : BatchSchedule where
  early j := if j = 0 then [0] else []
  calls := [[], [.complete 1, .deliver 1], [.deliver 0]]

theorem batchCopyDecode_twoStripes :
    (∃ s t, naiveDecode xorRecover ⟨[5, 6, 7, 8], rfl⟩ twoStripeObjects = some s ∧
      batchCopyDecode xorRecover ⟨[5, 6, 7, 8], rfl⟩ otherOrder twoStripeObjects = some t ∧
        t.dstSegs = s.dstSegs ∧ Recovered xorRecover ⟨[5, 6, 7, 8], rfl⟩ 2 t) ∧
      ∀ j, j < 2 → ∀ s : EcSampleObjects twoStripeShape,
        recoverTask xorRecover j s = recoverBufs xorRecover j s :=
  batchCopyDecode_eq_naive xorRecover ⟨[5, 6, 7, 8], rfl⟩ rfl (by decide)
    ⟨_, _, rfl, rfl, rfl, rfl⟩

end DpuTest.EcDecode
