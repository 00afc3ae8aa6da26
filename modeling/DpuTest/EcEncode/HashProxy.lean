import DpuTest.Lib.Run
import DpuTest.Sha.Batching

/-!
# The hash side of the proxy

A caller of `DPUProxy` writes a segment into the source buffer, submits the chunks of a
batch, waits, reads the digests task by task, and resets the destination descriptors.
`hashStep` is one of these calls, on the buffers and descriptors that `initHash` makes.
What the SDK answers to the calls of a batch, and which of its tasks the device completes,
comes with the call.

`DigestTable` is what the proxy is for: a table with a digest for each task.  A batch
replaces the digests of its own tasks, and it needs them to be free; a reset frees tasks
and keeps their digests.  `hashSession_eq` says that a proxy behaves like its table, in
every session and whatever the order in which the tasks of a batch complete.
-/

namespace DpuTest.EcEncode

open Lib
open Sha (ShaDevice dstSlots)

def SHA_DIGEST_LENGTH : Nat := 20

/-- A device that computes SHA-1. -/
structure Sha1Device extends ShaDevice where
  minDstSize_eq : minDstSize = SHA_DIGEST_LENGTH
  length_digest : ∀ x, (digest x).length = SHA_DIGEST_LENGTH

/-- `batch_chunk_num` and `src_buffer_len`. -/
structure HashShape where
  batchChunkNum : Nat
  srcBufferLen : Nat
  batchChunkNum_lt : batchChunkNum < 2 ^ 31

/-- `batch_src_buffer`, `batch_dst_buffer`, the descriptors and `resources`. -/
abbrev HashEngine (device : Sha1Device) (shape : HashShape) :=
  Engine UInt8 shape.srcBufferLen (device.minDstSize * shape.batchChunkNum)

/-- The proxy, and the strings that it has returned. -/
structure HashProxy (device : Sha1Device) (shape : HashShape) where
  engine : HashEngine device shape
  returned : List (List UInt8)

/-- The arguments of `submitBatchHashTask`, and what is answered for its tasks. -/
structure HashBatch (shape : HashShape) where
  /-- Where the segment begins, counted from the source buffer. -/
  segment : Int
  segmentChunks : List (Int × Int)
  nowBatchSize : Nat
  /-- `doca_buf_set_data(src_doca_buf[i], ...)` succeeds. -/
  setData : Nat → Bool
  /-- `doca_task_submit(task[i])` succeeds. -/
  submit : Nat → Bool
  /-- The device completes task `i`, whose destination holds so many bytes. -/
  completes : Nat → Nat → Bool
  /-- Data outside of the memory of the descriptor is refused. -/
  inBuffer : ∀ i chunk, segmentChunks[i]? = some chunk → setData i = true →
    0 ≤ segment + chunk.1 ∧ 0 ≤ chunk.2 ∧ segment + chunk.1 + chunk.2 ≤ shape.srcBufferLen
  /-- A destination has the size of one digest, which goes behind the data. -/
  full : ∀ i len, 0 < len → completes i len = false

/-- A call, or the caller writes to the source buffer. -/
inductive HashCall (shape : HashShape) where
  | write (src : Buffer UInt8 shape.srcBufferLen)
  /-- `submitBatchHashTask` and `waitingHashTasks` -/
  | hashBatch (batch : HashBatch shape) (order : CompletionOrder batch.nowBatchSize)
  /-- with the answer of `doca_buf_get_data` -/
  | getHashTaskResult (taskNumber : Nat) (getData : Bool)
  | resetHashDestBuf (batchSize : Nat)

section

variable (device : Sha1Device) {shape : HashShape}

/-- `initHash`, when no call of it fails. -/
def initHash (src : Buffer UInt8 shape.srcBufferLen) : HashProxy device shape where
  engine :=
    { src := src
      dst := .zeroed _
      srcBufs := List.replicate shape.batchChunkNum (0, 0)
      dstBufs := dstSlots device.toShaDevice shape.batchChunkNum
      latch := Latch.arm (UInt64.ofNat shape.batchChunkNum) }
  returned := []

/-- The segment that the descriptor of a task gets.  `none` is an entry that the vector
does not have, or a call that fails. -/
def chunkSegment (batch : HashBatch shape) (i : Nat) : Option Segment :=
  (batch.segmentChunks[i]?).bind fun chunk =>
    if batch.setData i then some ((batch.segment + chunk.1).toNat, chunk.2.toNat) else none

variable {device}

/-- The loop body of `submitBatchHashTask`. -/
def submitChunk (batch : HashBatch shape) (e : HashEngine device shape) (i : Nat) :
    Option (HashEngine device shape) :=
  if i < shape.batchChunkNum then
    (chunkSegment batch i).bind fun s =>
      if batch.submit i then some { e with srcBufs := e.srcBufs.set i s } else none
  else none

def submitBatchHashTask (batch : HashBatch shape) (e : HashEngine device shape) :
    Option (HashEngine device shape) :=
  (List.range batch.nowBatchSize).foldlM (submitChunk batch)
    { e with latch := Latch.arm (UInt64.ofNat batch.nowBatchSize) }

/-- The device completes a task of a batch. -/
def Completes (batch : HashBatch shape) (e : HashEngine device shape) (task : Nat) : Prop :=
  batch.completes task (segmentAt e.dstBufs task).2 = true

instance (batch : HashBatch shape) (e : HashEngine device shape) (task : Nat) :
    Decidable (Completes batch e task) :=
  inferInstanceAs (Decidable (_ = _))

/-- The callback of a task that fails counts nothing, and the wait does not end. -/
def waitingHashTasks (batch : HashBatch shape) (order : CompletionOrder batch.nowBatchSize)
    (e : HashEngine device shape) : Option (HashEngine device shape) :=
  if ∀ task < batch.nowBatchSize, Completes batch e task then e.wait device.digest order.tasks
  else none

def getHashTaskResult (taskNumber : Nat) (getData : Bool) (e : HashEngine device shape) :
    Option (List UInt8) :=
  if taskNumber < shape.batchChunkNum ∧ getData = true then
    fetch e.dst.data (segmentAt e.dstBufs taskNumber).1 SHA_DIGEST_LENGTH
  else none

def resetHashDestBuf (batchSize : Nat) (e : HashEngine device shape) :
    Option (HashEngine device shape) :=
  if batchSize ≤ shape.batchChunkNum then
    some { e with dstBufs := resetFirst batchSize e.dstBufs }
  else none

/-- One call.  `none` is a program that exits, that does not come back, or that leaves its
arrays. -/
def hashStep (p : HashProxy device shape) : HashCall shape → Option (HashProxy device shape)
  | .write src => some { p with engine := { p.engine with src := src } }
  | .hashBatch batch order =>
    ((submitBatchHashTask batch p.engine).bind (waitingHashTasks batch order)).map fun engine =>
      { p with engine := engine }
  | .getHashTaskResult taskNumber getData =>
    (getHashTaskResult taskNumber getData p.engine).map fun digest =>
      { p with returned := p.returned ++ [digest] }
  | .resetHashDestBuf batchSize =>
    (resetHashDestBuf batchSize p.engine).map fun engine => { p with engine := engine }

end

/-! ## The table -/

/-- A digest for each task, and which tasks are not free. -/
structure DigestTable where
  source : List UInt8
  digests : Nat → List UInt8
  used : Nat → Bool
  returned : List (List UInt8)

/-- A call without the order in which the tasks complete. -/
inductive TableCall (shape : HashShape) where
  | write (source : List UInt8)
  | hashBatch (batch : HashBatch shape)
  | result (task : Nat) (getData : Bool)
  | reset (batchSize : Nat)

def HashCall.onTable {shape : HashShape} : HashCall shape → TableCall shape
  | .write src => .write src.data
  | .hashBatch batch _ => .hashBatch batch
  | .getHashTaskResult taskNumber getData => .result taskNumber getData
  | .resetHashDestBuf batchSize => .reset batchSize

section

variable (device : Sha1Device) {shape : HashShape}

/-- A new table has digests of zeros. -/
def DigestTable.init (source : List UInt8) : DigestTable where
  source := source
  digests _ := List.replicate SHA_DIGEST_LENGTH 0
  used _ := false
  returned := []

/-- The digest of a chunk. -/
def chunkDigest (source : List UInt8) (batch : HashBatch shape) (task : Nat) : List UInt8 :=
  let s := (chunkSegment batch task).getD (0, 0)
  device.digest (slice source s.1 s.2)

/-- A batch of free tasks, each of which gets its chunk, is submitted, and completes. -/
def Hashable (t : DigestTable) (batch : HashBatch shape) : Prop :=
  0 < batch.nowBatchSize ∧ batch.nowBatchSize ≤ shape.batchChunkNum ∧
    ∀ task < batch.nowBatchSize, t.used task = false ∧ (chunkSegment batch task).isSome ∧
      batch.submit task = true ∧ batch.completes task 0 = true

instance (t : DigestTable) (batch : HashBatch shape) : Decidable (Hashable t batch) :=
  inferInstanceAs (Decidable (_ ∧ _ ∧ _))

/-- The table after a batch. -/
def DigestTable.hashed (t : DigestTable) (batch : HashBatch shape) : DigestTable :=
  { t with
    digests := fun task =>
      if task < batch.nowBatchSize then chunkDigest device t.source batch task else t.digests task
    used := fun task => if task < batch.nowBatchSize then true else t.used task }

def tableStep (t : DigestTable) : TableCall shape → Option DigestTable
  | .write source => some { t with source := source }
  | .hashBatch batch => if Hashable t batch then some (t.hashed device batch) else none
  | .result task getData =>
    if task < shape.batchChunkNum ∧ getData = true then
      some { t with returned := t.returned ++ [t.digests task] }
    else none
  | .reset batchSize =>
    if batchSize ≤ shape.batchChunkNum then
      some { t with used := fun task => if task < batchSize then false else t.used task }
    else none

end

/-- The proxy holds the table. -/
structure HoldsTable {device : Sha1Device} {shape : HashShape} (p : HashProxy device shape)
    (t : DigestTable) : Prop where
  source_eq : p.engine.src.data = t.source
  length_srcBufs : p.engine.srcBufs.length = shape.batchChunkNum
  length_dstBufs : p.engine.dstBufs.length = shape.batchChunkNum
  dstBufs_eq : ∀ task < shape.batchChunkNum, segmentAt p.engine.dstBufs task =
    (device.minDstSize * task, if t.used task then SHA_DIGEST_LENGTH else 0)
  digests_eq : ∀ task < shape.batchChunkNum,
    slice p.engine.dst.data (device.minDstSize * task) SHA_DIGEST_LENGTH = t.digests task
  returned_eq : p.returned = t.returned

/-! ## A batch -/

section

variable {device : Sha1Device} {shape : HashShape} {e : HashEngine device shape}
  {batch : HashBatch shape} {n task : Nat}

/-- The chunks of the first `k` tasks are in their descriptors, and nothing else has
changed but the latch. -/
structure ChunksSet (batch : HashBatch shape) (k : Nat) (e e' : HashEngine device shape) :
    Prop where
  src_eq : e'.src = e.src
  dst_eq : e'.dst = e.dst
  dstBufs_eq : e'.dstBufs = e.dstBufs
  latch_eq : e'.latch = Latch.arm (UInt64.ofNat batch.nowBatchSize)
  length_srcBufs : e'.srcBufs.length = shape.batchChunkNum
  chunks_eq : ∀ task < k, some (segmentAt e'.srcBufs task) = chunkSegment batch task

/-- Every chunk of a batch goes to its descriptor. -/
theorem submitBatchHashTask_eq_some (hlen : e.srcBufs.length = shape.batchChunkNum)
    (hn : batch.nowBatchSize ≤ shape.batchChunkNum)
    (h : ∀ task < batch.nowBatchSize,
      (chunkSegment batch task).isSome ∧ batch.submit task = true) :
    ∃ e', submitBatchHashTask batch e = some e' ∧ ChunksSet batch batch.nowBatchSize e e' := by
  apply exists_foldlM_range (P := fun k e' => ChunksSet batch k e e')
  · intro i e' hi he'
    obtain ⟨hsegment, hsubmit⟩ := h i hi
    obtain ⟨s, hs⟩ := Option.isSome_iff_exists.mp hsegment
    refine ⟨{ e' with srcBufs := e'.srcBufs.set i s }, ?_, he'.src_eq, he'.dst_eq,
      he'.dstBufs_eq, he'.latch_eq, ?_, ?_⟩
    · rw [submitChunk, if_pos (by omega), hs, Option.bind_some, if_pos hsubmit]
    · exact List.length_set.trans he'.length_srcBufs
    · intro task htask
      by_cases heq : task = i
      · have hlt : i < e'.srcBufs.length := by
          rw [he'.length_srcBufs]
          omega
        rw [heq, hs]
        simp [segmentAt, hlt]
      · rw [← he'.chunks_eq task (by omega)]
        simp [segmentAt, List.getD, List.getElem?_set_ne (Ne.symm heq)]
  · exact ⟨rfl, rfl, rfl, rfl, hlen, fun task htask => absurd htask (Nat.not_lt_zero task)⟩

theorem of_submitBatchHashTask {e' : HashEngine device shape}
    (h : submitBatchHashTask batch e = some e') :
    ∀ task < batch.nowBatchSize, task < shape.batchChunkNum ∧
      (chunkSegment batch task).isSome ∧ batch.submit task = true := by
  refine foldlM_range_inv (P := fun k _ => ∀ task < k, task < shape.batchChunkNum ∧
    (chunkSegment batch task).isSome ∧ batch.submit task = true) ?_ ?_ h
  · intro i _ _ _ hbefore hpass task htask
    by_cases heq : task = i
    · subst heq
      rw [submitChunk] at hpass
      split at hpass
      · rename_i hlt
        obtain ⟨s, hs, hsubmit⟩ := Option.bind_eq_some_iff.mp hpass
        split at hsubmit
        · rename_i hanswer
          exact ⟨hlt, by rw [hs]; rfl, hanswer⟩
        · cases hsubmit
      · cases hpass
    · exact hbefore task (by omega)
  · intro task htask
    exact absurd htask (Nat.not_lt_zero task)

/-- The slots of the digests do not meet. -/
theorem slots_disjoint {i j : Nat} (h : i ≠ j) :
    Segment.Disjoint (device.minDstSize * i, SHA_DIGEST_LENGTH)
      (device.minDstSize * j, SHA_DIGEST_LENGTH) := by
  have hslot : ∀ {a c : Nat}, a < c →
      device.minDstSize * a + SHA_DIGEST_LENGTH ≤ device.minDstSize * c := by
    intro a c hac
    have hmul := Nat.mul_le_mul_left device.minDstSize (Nat.succ_le_of_lt hac)
    rw [Nat.mul_succ] at hmul
    rw [← device.minDstSize_eq]
    exact hmul
  rcases Nat.lt_or_gt_of_ne h with hlt | hgt
  · exact Or.inl (hslot hlt)
  · exact Or.inr (hslot hgt)

theorem slot_le_dst (h : task < shape.batchChunkNum) :
    device.minDstSize * task + SHA_DIGEST_LENGTH ≤ device.minDstSize * shape.batchChunkNum := by
  have hmul := Nat.mul_le_mul_left device.minDstSize (Nat.succ_le_of_lt h)
  rw [Nat.mul_succ] at hmul
  rw [← device.minDstSize_eq]
  exact hmul

/-- A free task writes its slot. -/
theorem window_of_free (hdst : segmentAt e.dstBufs task = (device.minDstSize * task, 0)) :
    e.window device.digest task = (device.minDstSize * task, SHA_DIGEST_LENGTH) := by
  rw [Engine.window, Engine.target, hdst, Engine.output, device.length_digest]
  rfl

/-- What a batch of free tasks leaves in the slots. -/
theorem slot_completeAll (hn : n ≤ shape.batchChunkNum)
    (hdst : ∀ task < n, segmentAt e.dstBufs task = (device.minDstSize * task, 0))
    (order : CompletionOrder n) :
    slice (e.completeAll device.digest order.tasks).dst.data (device.minDstSize * task)
        SHA_DIGEST_LENGTH =
      if task < n then e.output device.digest task
      else slice e.dst.data (device.minDstSize * task) SHA_DIGEST_LENGTH := by
  have hwindow : ∀ other ∈ order.tasks, e.window device.digest other =
      (device.minDstSize * other, SHA_DIGEST_LENGTH) :=
    fun other hother => window_of_free (hdst other (order.mem_iff.mp hother))
  split
  · rename_i htask
    have hmem := order.mem_iff.mpr htask
    have hfit : e.target task + (e.output device.digest task).length ≤
        device.minDstSize * shape.batchChunkNum := by
      have hself := hwindow task hmem
      rw [Engine.window, Prod.mk.injEq] at hself
      rw [hself.1, hself.2]
      exact slot_le_dst (by omega)
    have hslice := Engine.slice_completeAll_of_mem order.nodup hmem hfit fun other hother hne => by
      rw [hwindow task hmem, hwindow other hother]
      exact slots_disjoint hne.symm
    rwa [hwindow task hmem] at hslice
  · rename_i htask
    refine Engine.slice_completeAll_of_disjoint (device.minDstSize * task, SHA_DIGEST_LENGTH)
      order.nodup fun other hother => ?_
    rw [hwindow other hother]
    have hlt := order.mem_iff.mp hother
    exact slots_disjoint (by omega)

theorem segmentAt_completeAll_order (hlen : n ≤ e.dstBufs.length)
    (hdst : ∀ task < n, segmentAt e.dstBufs task = (device.minDstSize * task, 0))
    (order : CompletionOrder n) :
    segmentAt (e.completeAll device.digest order.tasks).dstBufs task =
      if task < n then (device.minDstSize * task, SHA_DIGEST_LENGTH)
      else segmentAt e.dstBufs task := by
  split
  · rename_i htask
    rw [Engine.segmentAt_completeAll order.nodup (order.mem_iff.mpr htask) (by omega),
      hdst task htask, Engine.output, device.length_digest, Nat.zero_add]
  · rename_i htask
    exact Engine.segmentAt_completeAll_of_notMem fun hmem => htask (order.mem_iff.mp hmem)

end

/-! ## Each call -/

section

variable {device : Sha1Device} {shape : HashShape} {p : HashProxy device shape} {t : DigestTable}
  {batch : HashBatch shape}

/-- The destination of a free task has no data. -/
theorem HoldsTable.segmentAt_of_free (hp : HoldsTable p t) {task : Nat}
    (htask : task < shape.batchChunkNum) (hfree : t.used task = false) :
    segmentAt p.engine.dstBufs task = (device.minDstSize * task, 0) := by
  rw [hp.dstBufs_eq task htask, hfree, if_neg Bool.false_ne_true]

theorem hashBatch_holds (hp : HoldsTable p t) (h : Hashable t batch)
    (order : CompletionOrder batch.nowBatchSize) :
    ∃ p', hashStep p (.hashBatch batch order) = some p' ∧
      HoldsTable p' (t.hashed device batch) := by
  obtain ⟨hpos, hn, htasks⟩ := h
  obtain ⟨e, hsubmit, he⟩ := submitBatchHashTask_eq_some (e := p.engine) hp.length_srcBufs hn
    fun task htask => ⟨(htasks task htask).2.1, (htasks task htask).2.2.1⟩
  have hfree : ∀ task < batch.nowBatchSize,
      segmentAt e.dstBufs task = (device.minDstSize * task, 0) := by
    intro task htask
    rw [he.dstBufs_eq]
    exact hp.segmentAt_of_free (by omega) (htasks task htask).1
  have hcompletes : ∀ task < batch.nowBatchSize, Completes batch e task := by
    intro task htask
    rw [Completes, hfree task htask]
    exact (htasks task htask).2.2.2
  have hne : order.tasks ≠ [] := by
    rw [← List.length_pos_iff, order.length_eq]
    exact hpos
  have hrem : e.latch.remaining.toNat = order.tasks.length := by
    rw [he.latch_eq, order.length_eq]
    have hlt := shape.batchChunkNum_lt
    have hsize : batch.nowBatchSize < 2 ^ 64 := by omega
    exact UInt64.toNat_ofNat_of_lt' hsize
  have hrun : e.latch.running = true := by
    rw [he.latch_eq]
    rfl
  have hlen : e.dstBufs.length = shape.batchChunkNum := by
    rw [he.dstBufs_eq]
    exact hp.length_dstBufs
  have hstep : hashStep p (.hashBatch batch order) =
      some { p with engine := e.completeAll device.digest order.tasks } := by
    rw [hashStep, hsubmit, Option.bind_some, waitingHashTasks, if_pos hcompletes,
      Engine.wait_of_armed hne hrem hrun, Option.map_some]
  refine ⟨_, hstep, ?_, ?_, ?_, ?_, ?_, hp.returned_eq⟩
  · show (e.completeAll _ _).src.data = t.source
    rw [Engine.completeAll_src, he.src_eq]
    exact hp.source_eq
  · show (e.completeAll _ _).srcBufs.length = _
    rw [Engine.completeAll_srcBufs]
    exact he.length_srcBufs
  · show (e.completeAll _ _).dstBufs.length = _
    rw [Engine.length_dstBufs_completeAll]
    exact hlen
  · intro task htask
    show segmentAt (e.completeAll _ _).dstBufs task =
      (_, if (if task < batch.nowBatchSize then true else t.used task) = true then _ else _)
    rw [segmentAt_completeAll_order (by omega) hfree]
    by_cases hbatch : task < batch.nowBatchSize
    · rw [if_pos hbatch, if_pos hbatch, if_pos rfl]
    · rw [if_neg hbatch, if_neg hbatch, he.dstBufs_eq]
      exact hp.dstBufs_eq task htask
  · intro task htask
    show slice (e.completeAll _ _).dst.data _ _ = if task < batch.nowBatchSize then _ else _
    rw [slot_completeAll hn hfree]
    by_cases hbatch : task < batch.nowBatchSize
    · rw [if_pos hbatch, if_pos hbatch, chunkDigest, ← he.chunks_eq task hbatch,
        Option.getD_some, ← hp.source_eq, ← he.src_eq]
      rfl
    · rw [if_neg hbatch, if_neg hbatch, he.dst_eq]
      exact hp.digests_eq task htask

/-- A batch that comes back was free, and each of its tasks had a chunk. -/
theorem hashable_of_hashStep {order : CompletionOrder batch.nowBatchSize}
    {p' : HashProxy device shape} (hp : HoldsTable p t)
    (h : hashStep p (.hashBatch batch order) = some p') : Hashable t batch := by
  obtain ⟨e', hbatch, -⟩ := Option.map_eq_some_iff.mp h
  obtain ⟨e, hsubmit, hwait⟩ := Option.bind_eq_some_iff.mp hbatch
  have htasks := of_submitBatchHashTask hsubmit
  have hn : batch.nowBatchSize ≤ shape.batchChunkNum := by
    by_contra hgt
    have hlast := (htasks shape.batchChunkNum (by omega)).1
    omega
  obtain ⟨_, hsubmit', he⟩ := submitBatchHashTask_eq_some (e := p.engine)
    hp.length_srcBufs hn fun task htask => (htasks task htask).2
  rw [hsubmit] at hsubmit'
  cases hsubmit'
  rw [waitingHashTasks] at hwait
  split at hwait
  · rename_i hcompletes
    refine ⟨?_, hn, fun task htask => ?_⟩
    · by_contra hzero
      have hnil : order.tasks = [] := by
        rw [← List.length_eq_zero_iff, order.length_eq]
        omega
      have hrun : e.latch.running = true := by
        rw [he.latch_eq]
        rfl
      rw [hnil, Engine.wait, pollLoop, if_pos hrun] at hwait
      cases hwait
    · have hdone := hcompletes task htask
      rw [Completes, he.dstBufs_eq, hp.dstBufs_eq task (by omega)] at hdone
      have hfree : t.used task = false := by
        by_contra hused
        have hfull := batch.full task SHA_DIGEST_LENGTH (by decide)
        rw [if_pos (eq_true_of_ne_false hused), hfull] at hdone
        cases hdone
      rw [hfree, if_neg Bool.false_ne_true] at hdone
      exact ⟨hfree, (htasks task htask).2.1, (htasks task htask).2.2, hdone⟩
  · cases hwait

/-- A call of the proxy is one of its table. -/
theorem hashStep_rel (hp : HoldsTable p t) (call : HashCall shape) :
    Option.Rel HoldsTable (hashStep p call) (tableStep device t call.onTable) := by
  cases call with
  | write src =>
    exact .some ⟨rfl, hp.length_srcBufs, hp.length_dstBufs, hp.dstBufs_eq, hp.digests_eq,
      hp.returned_eq⟩
  | hashBatch batch order =>
    rw [HashCall.onTable, tableStep]
    by_cases h : Hashable t batch
    · obtain ⟨p', hstep, hholds⟩ := hashBatch_holds hp h order
      rw [hstep, if_pos h]
      exact .some hholds
    · rw [if_neg h]
      cases hstep : hashStep p (.hashBatch batch order) with
      | none => exact .none
      | some p' => exact absurd (hashable_of_hashStep hp hstep) h
  | getHashTaskResult task getData =>
    rw [hashStep, HashCall.onTable, tableStep, getHashTaskResult]
    by_cases htask : task < shape.batchChunkNum ∧ getData = true
    · have hfit : device.minDstSize * task + SHA_DIGEST_LENGTH ≤ p.engine.dst.data.length := by
        rw [p.engine.dst.length_data]
        exact slot_le_dst htask.1
      rw [if_pos htask, if_pos htask, hp.dstBufs_eq task htask.1, fetch_eq_some hfit,
        hp.digests_eq task htask.1, Option.map_some, hp.returned_eq]
      exact .some ⟨hp.source_eq, hp.length_srcBufs, hp.length_dstBufs, hp.dstBufs_eq,
        hp.digests_eq, rfl⟩
    · rw [if_neg htask, if_neg htask]
      exact .none
  | resetHashDestBuf batchSize =>
    rw [hashStep, HashCall.onTable, tableStep, resetHashDestBuf]
    by_cases hsize : batchSize ≤ shape.batchChunkNum
    · rw [if_pos hsize, if_pos hsize]
      refine .some ⟨hp.source_eq, hp.length_srcBufs, ?_, ?_, hp.digests_eq, hp.returned_eq⟩
      · exact List.length_mapIdx.trans hp.length_dstBufs
      · intro task htask
        show segmentAt (resetFirst batchSize p.engine.dstBufs) task =
          (_, if (if task < batchSize then false else t.used task) = true then _ else _)
        rw [segmentAt_resetFirst (by rw [hp.length_dstBufs]; exact htask),
          hp.dstBufs_eq task htask]
        by_cases hbatch : task < batchSize
        · rw [if_pos hbatch, if_pos hbatch, if_neg Bool.false_ne_true]
        · rw [if_neg hbatch, if_neg hbatch]
    · rw [if_neg hsize, if_neg hsize]
      exact .none

theorem holdsTable_initHash (src : Buffer UInt8 shape.srcBufferLen) :
    HoldsTable (initHash device src) (.init src.data) where
  source_eq := rfl
  length_srcBufs := List.length_replicate
  length_dstBufs := by
    show ((List.range _).map _).length = _
    rw [List.length_map, List.length_range]
  dstBufs_eq task htask := segmentAt_map_range htask
  digests_eq task htask := by
    show slice (List.replicate _ 0) _ _ = _
    rw [slice, List.drop_replicate, List.take_replicate, Nat.min_eq_left]
    · rfl
    · have hroom := @slot_le_dst device shape _ htask
      omega
  returned_eq := rfl

end

/-- Whatever the orders of the completions, a session with the proxy comes to its end
exactly when it does with the table, and then the same digests have been returned. -/
theorem hashSession_eq (device : Sha1Device) (shape : HashShape)
    (src : Buffer UInt8 shape.srcBufferLen) (calls : List (HashCall shape)) :
    (run hashStep calls (initHash device src)).map HashProxy.returned =
      (run (tableStep device) (calls.map HashCall.onTable) (.init src.data)).map
        DigestTable.returned := by
  have hrel := run_rel HashCall.onTable (fun p t call hp => hashStep_rel hp call)
    (@holdsTable_initHash device shape src) calls
  generalize run hashStep calls (initHash device src) = p at hrel
  generalize run (tableStep device) _ _ = t at hrel
  cases hrel with
  | none => rfl
  | some hp => exact congrArg some hp.returned_eq

end DpuTest.EcEncode
