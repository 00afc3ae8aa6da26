import DpuTest.Lib.Engine
import DpuTest.Sha.ChunkLoop
import Mathlib.Data.List.Forall2

/-!
# The batching loop of `sha_create_CDC`

The chunks are hashed in batches of `batch_size`.  A pass copies the next chunks
one behind the other into `src_buffer`, points the source descriptors at them,
submits a task for each, polls until the flag falls, and clears the destination
descriptors for the next pass.

The device is a task engine, and `ShaDevice` is what it computes.  A schedule
says for each pass in which order its tasks complete.  `HashEvent` records what
the loop does: what it submits, what completes, and what `dst_buffer` holds when
the wait is over.

`hashPass_eq` is one pass.  `batchLoop_eq` is the whole loop: the events are
those of one batch after the other, and `batchLoop_hashesOnce` says it of the
chunks of `fastcdc`.
-/

namespace DpuTest.Sha

open Lib

/-- `doca_sha_cap_get_min_dst_buf_size` is room for a digest. -/
structure ShaDevice where
  digest : List UInt8 → List UInt8
  minDstSize : Nat
  length_le : ∀ x, (digest x).length ≤ minDstSize

inductive HashEvent where
  /-- `doca_task_submit(task[i])`, with the segment of `src_doca_buf[i]` and what
  `src_buffer` holds there. -/
  | submitted (task : Nat) (segment : Segment) (bytes : List UInt8)
  | completed (task : Nat)
  /-- The wait is over; what `dst_buffer` holds. -/
  | waited (dstBuffer : List UInt8)

/-- The variables of the loop.  `engine` holds `src_buffer`, `dst_buffer`, the
descriptors and `resources`; `passes` and `events` record the run. -/
structure BatchState (srcSize dstSize : Nat) where
  restChunkNum : Int
  off2 : Nat
  batchChunks : List Segment
  engine : Engine UInt8 srcSize dstSize
  passes : Nat
  events : List HashEvent

/-- `batch_size` destination descriptors, side by side and without data. -/
def dstSlots (device : ShaDevice) (batchSize : Nat) : List Segment :=
  (List.range batchSize).map (fun i => (device.minDstSize * i, 0))

section

variable {srcSize dstSize : Nat} (device : ShaDevice) (data : List UInt8)
  (chunks : List (Int × Int)) (batchSize : Nat)

/-- The state before the loop, with what `malloc` left in `src_buffer`. -/
def batchStart (srcBuffer : Buffer UInt8 srcSize) (dstBuffer : Buffer UInt8 dstSize) :
    BatchState srcSize dstSize where
  restChunkNum := chunks.length
  off2 := 0
  batchChunks := []
  engine := {
    src := srcBuffer
    dst := dstBuffer
    srcBufs := List.replicate batchSize (0, 0)
    dstBufs := dstSlots device batchSize
    latch := Latch.arm (UInt64.ofNat batchSize) }
  passes := 0
  events := []

/-- The bytes of a chunk, when they lie in the data. -/
def fetchChunk (chunk : Int × Int) : Option (List UInt8) :=
  if 0 ≤ chunk.1 ∧ 0 ≤ chunk.2 then fetch data chunk.1.toNat chunk.2.toNat else none

/-- The loop that moves `count` chunks into `src_buffer`. -/
def moveLoop : Nat → Nat → BatchState srcSize dstSize → Option (BatchState srcSize dstSize)
  | 0, _, s => some s
  | count + 1, srcBufferOff, s =>
    match chunks[s.off2]? with
    | none => none
    | some chunk =>
      match fetchChunk data chunk with
      | none => none
      | some bytes =>
        match s.engine.src.store srcBufferOff bytes with
        | none => none
        | some src =>
          moveLoop count (srcBufferOff + bytes.length)
            { s with
              batchChunks := s.batchChunks ++ [(srcBufferOff, bytes.length)]
              engine := { s.engine with src := src }
              off2 := s.off2 + 1
              restChunkNum := s.restChunkNum - 1 }

/-- `doca_buf_set_data` and `doca_task_submit` of one task. -/
def submitTask (i : Nat) (segment : Segment) (s : BatchState srcSize dstSize) :
    BatchState srcSize dstSize :=
  { s with
    engine := { s.engine with srcBufs := s.engine.srcBufs.set i segment }
    events := s.events ++
      [.submitted i segment (slice s.engine.src.data segment.1 segment.2)] }

/-- The loop that submits `count` tasks, from task `i` on. -/
def submitLoop : Nat → Nat → BatchState srcSize dstSize → Option (BatchState srcSize dstSize)
  | 0, _, s => some s
  | count + 1, i, s =>
    match s.batchChunks[i]? with
    | none => none
    | some segment => submitLoop count (i + 1) (submitTask i segment s)

/-- The device completes a task, and `sha_hash_completed_callback` runs. -/
def hashCompleted (task : Nat) (s : BatchState srcSize dstSize) : BatchState srcSize dstSize :=
  { s with
    engine := s.engine.complete device.digest task
    events := s.events ++ [.completed task] }

/-- The `reset` loop and `batch_chunks.clear()`. -/
def endPass (nowBatch : Nat) (s : BatchState srcSize dstSize) : BatchState srcSize dstSize :=
  { s with
    engine := { s.engine with dstBufs := resetFirst nowBatch s.engine.dstBufs }
    batchChunks := []
    passes := s.passes + 1
    events := s.events ++ [.waited s.engine.dst.data] }

/-- The latch is set for the tasks of a batch. -/
def armTasks (count : Nat) (s : BatchState srcSize dstSize) : BatchState srcSize dstSize :=
  { s with engine := { s.engine with latch := Latch.arm (UInt64.ofNat count) } }

/-- `now_batch` -/
def nowBatch (s : BatchState srcSize dstSize) : Nat :=
  if s.restChunkNum ≥ batchSize then batchSize else s.restChunkNum.toNat

variable (schedule : Nat → (n : Nat) → CompletionOrder n)

/-- One pass of the loop.  `none` is an access out of bounds, or a wait that does
not end. -/
def hashPass (s : BatchState srcSize dstSize) : Option (BatchState srcSize dstSize) :=
  let n := nowBatch batchSize s
  match moveLoop data chunks n 0 (armTasks n s) with
  | none => none
  | some s =>
    match submitLoop n 0 s with
    | none => none
    | some s =>
      match pollLoop (fun s => s.engine.latch.running) (hashCompleted device)
          (schedule s.passes n).tasks s with
      | none => none
      | some s => some (endPass n s)

/-- `while(rest_chunk_num)` -/
def BatchLoopEnds (s t : BatchState srcSize dstSize) : Prop :=
  LoopEnds (fun s => s.restChunkNum != 0) (hashPass device data chunks batchSize schedule) s t

end

/-! ## Moving -/

/-- The pair that is recorded for a chunk leads back to its bytes. -/
theorem fetchChunk_recorded {cs : List (List UInt8)} {i : Nat} {c : List UInt8}
    (hc : cs[i]? = some c) :
    ∃ chunk, (recorded 0 cs)[i]? = some chunk ∧ fetchChunk cs.flatten chunk = some c := by
  have hnil : ([] : List UInt8).length = 0 := rfl
  obtain ⟨o, hspan, hslice⟩ := slice_spansFrom hnil hc
  have hle := spansFrom_le (List.mem_of_getElem? hspan)
  rw [List.nil_append] at hslice
  rw [Nat.zero_add] at hle
  refine ⟨((o : Int), (c.length : Int)), ?_, ?_⟩
  · rw [recorded, List.getElem?_map, hspan]
    rfl
  · have hnonneg : 0 ≤ (o : Int) ∧ 0 ≤ (c.length : Int) := by omega
    rw [fetchChunk, if_pos hnonneg, Int.toNat_natCast, Int.toNat_natCast, fetch_eq_some hle, hslice]

section

variable {srcSize dstSize : Nat} {cs : List (List UInt8)}

/-- `count` chunks have been moved to these segments. -/
def moved (count : Nat) (src : Buffer UInt8 srcSize) (segments : List Segment)
    (s : BatchState srcSize dstSize) : BatchState srcSize dstSize :=
  { s with
    restChunkNum := s.restChunkNum - count
    off2 := s.off2 + count
    batchChunks := s.batchChunks ++ segments
    engine := { s.engine with src := src } }

/-- The next `count` chunks lie one behind the other in `src_buffer`. -/
theorem moveLoop_eq {count : Nat} (off : Nat) {s : BatchState srcSize dstSize}
    (hle : s.off2 + count ≤ cs.length)
    (hroom : off + ((cs.drop s.off2).take count).flatten.length ≤ srcSize) :
    ∃ src : Buffer UInt8 srcSize,
      src.data.take (off + ((cs.drop s.off2).take count).flatten.length) =
        s.engine.src.data.take off ++ ((cs.drop s.off2).take count).flatten ∧
      moveLoop cs.flatten (recorded 0 cs) count off s =
        some (moved count src (spansFrom off ((cs.drop s.off2).take count)) s) := by
  induction count generalizing off s with
  | zero =>
    refine ⟨s.engine.src, ?_, ?_⟩
    · simp
    · simp [moveLoop, moved, spansFrom]
  | succ count ih =>
    have hlt : s.off2 < cs.length := by omega
    have hnext : (cs.drop s.off2).take (count + 1) =
        cs[s.off2] :: (cs.drop (s.off2 + 1)).take count := by
      rw [List.drop_eq_getElem_cons hlt, List.take_succ_cons]
    obtain ⟨chunk, hchunk, hfetch⟩ := fetchChunk_recorded (List.getElem?_eq_getElem hlt)
    rw [hnext, List.flatten_cons, List.length_append] at hroom
    have hstore : off + cs[s.off2].length ≤ srcSize := by omega
    have hrest : off + cs[s.off2].length +
        ((cs.drop (s.off2 + 1)).take count).flatten.length ≤ srcSize := by omega
    have hcount : s.off2 + 1 + count ≤ cs.length := by omega
    obtain ⟨src, hsrc, hmove⟩ := ih (off + cs[s.off2].length) (s := { s with
        batchChunks := s.batchChunks ++ [(off, cs[s.off2].length)]
        engine := { s.engine with src := s.engine.src.put off cs[s.off2] hstore }
        off2 := s.off2 + 1
        restChunkNum := s.restChunkNum - 1 }) hcount hrest
    refine ⟨src, ?_, ?_⟩
    · rw [hnext, List.flatten_cons, List.length_append, ← Nat.add_assoc]
      have hput := take_writeAt_end
        (Nat.le_trans hstore (Nat.le_of_eq s.engine.src.length_data.symm))
      rw [← List.append_assoc, ← hput]
      exact hsrc
    · rw [moveLoop, hchunk]
      simp only [hfetch, s.engine.src.store_eq_some hstore]
      rw [hmove, hnext, spansFrom]
      congr 1
      simp only [moved, BatchState.mk.injEq, List.append_assoc, List.singleton_append, and_true]
      omega

/-! ## Submitting and waiting -/

/-- Tasks are submitted for these segments, from task `i` on. -/
def submittedEvents (i : Nat) : List Segment → List (List UInt8) → List HashEvent
  | segment :: segments, bytes :: contents =>
    .submitted i segment bytes :: submittedEvents (i + 1) segments contents
  | _, _ => []

/-- The contents of segments of `src_buffer`. -/
def contentsAt (src : List UInt8) (segments : List Segment) : List (List UInt8) :=
  segments.map (fun segment => slice src segment.1 segment.2)

/-- Tasks have been submitted for these segments, from task `i` on. -/
def submittedFrom (i : Nat) (segments : List Segment) (s : BatchState srcSize dstSize) :
    BatchState srcSize dstSize :=
  { s with
    engine := { s.engine with srcBufs := writeAt s.engine.srcBufs i segments }
    events := s.events ++ submittedEvents i segments (contentsAt s.engine.src.data segments) }

/-- The descriptors take the segments of the batch. -/
theorem submitLoop_eq {count i : Nat} {s : BatchState srcSize dstSize} {segments : List Segment}
    (hsegments : s.batchChunks.drop i = segments) (hcount : segments.length = count)
    (hlen : i + count ≤ s.engine.srcBufs.length) :
    submitLoop count i s = some (submittedFrom i segments s) := by
  induction count generalizing i s segments with
  | zero =>
    have hnil : segments = [] := List.eq_nil_of_length_eq_zero hcount
    subst hnil
    simp [submitLoop, submittedFrom, submittedEvents, writeAt]
  | succ count ih =>
    cases segments with
    | nil => cases hcount
    | cons segment segments =>
      have hlt : i < s.batchChunks.length := by
        have hdrop := congrArg List.length hsegments
        rw [List.length_drop, List.length_cons] at hdrop
        omega
      rw [List.drop_eq_getElem_cons hlt] at hsegments
      obtain ⟨hfirst, hrest⟩ := List.cons.inj hsegments
      have hi : i < s.engine.srcBufs.length := by omega
      have hlen' : i + 1 + count ≤ (s.engine.srcBufs.set i segment).length := by
        rw [List.length_set]
        omega
      have hnext := ih (s := submitTask i segment s) hrest (Nat.succ.inj hcount) hlen'
      rw [submitLoop, List.getElem?_eq_getElem hlt, hfirst]
      simp only
      rw [hnext]
      simp only [submittedFrom, submitTask, writeAt_cons hi, contentsAt, List.map_cons,
        submittedEvents, List.append_assoc, List.singleton_append]

/-- These tasks have completed. -/
def completedAll (device : ShaDevice) (tasks : List Nat) (s : BatchState srcSize dstSize) :
    BatchState srcSize dstSize :=
  { s with
    engine := s.engine.completeAll device.digest tasks
    events := s.events ++ tasks.map .completed }

theorem foldl_hashCompleted (device : ShaDevice) (tasks : List Nat)
    (s : BatchState srcSize dstSize) :
    tasks.foldl (fun s task => hashCompleted device task s) s = completedAll device tasks s := by
  induction tasks generalizing s with
  | nil => simp [completedAll, Engine.completeAll]
  | cons task tasks ih =>
    rw [List.foldl_cons, ih]
    simp [completedAll, hashCompleted]

/-! ## One pass -/

/-- What a pass does for a batch of chunks with these contents. -/
structure BatchTrace (device : ShaDevice) (capacity : Nat) (contents : List (List UInt8)) where
  /-- Where the chunks are in `src_buffer`. -/
  segments : List Segment
  order : CompletionOrder contents.length
  /-- What `dst_buffer` holds when the wait is over. -/
  dstBuffer : List UInt8
  length_segments : segments.length = contents.length
  disjoint : segments.Pairwise Segment.Disjoint
  inside : ∀ segment ∈ segments, segment.1 + segment.2 ≤ capacity
  digests : ∀ i c, contents[i]? = some c →
    slice dstBuffer (device.minDstSize * i) (device.digest c).length = device.digest c

/-- All tasks are submitted, then all of them complete, then the wait is over. -/
def BatchTrace.events {device : ShaDevice} {capacity : Nat} {contents : List (List UInt8)}
    (t : BatchTrace device capacity contents) : List HashEvent :=
  submittedEvents 0 t.segments contents ++ t.order.tasks.map .completed ++ [.waited t.dstBuffer]

/-- The state between two passes. -/
structure Ready (device : ShaDevice) (batchSize : Nat) (cs : List (List UInt8))
    (s : BatchState srcSize dstSize) : Prop where
  off2_le : s.off2 ≤ cs.length
  rest_eq : s.restChunkNum = (cs.length : Int) - s.off2
  batchChunks_eq : s.batchChunks = []
  dstBufs_eq : s.engine.dstBufs = dstSlots device batchSize
  length_srcBufs : s.engine.srcBufs.length = batchSize

end

section

variable {srcSize batchSize : Nat} {device : ShaDevice} {cs : List (List UInt8)}

theorem target_dstSlots {dstSize : Nat} {e : Engine UInt8 srcSize dstSize} {i : Nat}
    (h : e.dstBufs = dstSlots device batchSize) (hi : i < batchSize) :
    e.target i = device.minDstSize * i := by
  have hseg : segmentAt e.dstBufs i = (device.minDstSize * i, 0) := by
    simp [h, dstSlots, segmentAt, hi]
  rw [Engine.target, hseg, Nat.add_zero]

/-- A digest ends before the next slot. -/
theorem slot_le (device : ShaDevice) (bytes : List UInt8) {i j : Nat} (hij : i < j) :
    device.minDstSize * i + (device.digest bytes).length ≤ device.minDstSize * j := by
  have hlen := device.length_le bytes
  have hmul : device.minDstSize * (i + 1) ≤ device.minDstSize * j := Nat.mul_le_mul_left _ hij
  rw [Nat.mul_succ] at hmul
  omega

/-- Whatever the order, the digest of the bytes of task `i` lands in slot `i`. -/
theorem digest_in_slot {e : Engine UInt8 srcSize (device.minDstSize * batchSize)}
    (hdst : e.dstBufs = dstSlots device batchSize) {n : Nat} (hn : n ≤ batchSize)
    (order : CompletionOrder n) {i : Nat} (hi : i < n) :
    slice (e.completeAll device.digest order.tasks).dst.data (device.minDstSize * i)
      (e.output device.digest i).length = e.output device.digest i := by
  have htarget : ∀ j, j < n → e.target j = device.minDstSize * j :=
    fun j hj => target_dstSlots hdst (Nat.lt_of_lt_of_le hj hn)
  have hfit : e.target i + (e.output device.digest i).length ≤ device.minDstSize * batchSize := by
    rw [htarget i hi]
    exact slot_le device _ (Nat.lt_of_lt_of_le hi hn)
  have hslice := Engine.slice_completeAll_of_mem order.nodup (order.mem_iff.mpr hi) hfit ?_
  · rw [← htarget i hi]
    exact hslice
  · intro other hother hne
    have hlt := order.mem_iff.mp hother
    show e.target i + _ ≤ e.target other ∨ e.target other + _ ≤ e.target i
    rw [htarget i hi, htarget other hlt]
    rcases Nat.lt_or_gt_of_ne hne with h | h
    · exact Or.inr (slot_le device _ h)
    · exact Or.inl (slot_le device _ h)

/-- The segments of a batch, when the tasks have been submitted. -/
theorem input_of_segments {dstSize : Nat} {e : Engine UInt8 srcSize dstSize}
    {segments : List Segment} {bufs : List Segment} (h : e.srcBufs = writeAt bufs 0 segments)
    {i : Nat} {c : List UInt8} (hc : (contentsAt e.src.data segments)[i]? = some c) :
    e.input i = c := by
  rw [contentsAt, List.getElem?_map] at hc
  obtain ⟨segment, hsegment, hslice⟩ := Option.map_eq_some_iff.mp hc
  have hlt : i < segments.length := (List.getElem?_eq_some_iff.mp hsegment).1
  have hget : segmentAt e.srcBufs i = segment := by
    rw [segmentAt, h, writeAt, List.take_zero, List.nil_append, List.getD_eq_getElem?_getD,
      List.getElem?_append_left hlt, hsegment, Option.getD_some]
  rw [Engine.input, hget]
  exact hslice

theorem nowBatch_eq {dstSize : Nat} {s : BatchState srcSize dstSize}
    (h : Ready device batchSize cs s) :
    nowBatch batchSize s = ((cs.drop s.off2).take batchSize).length := by
  have hle := h.off2_le
  rw [nowBatch, h.rest_eq, List.length_take, List.length_drop]
  split <;> omega

/-- When the tasks of a batch have been submitted, the wait ends with the last
of them. -/
theorem wait_hashCompleted {dstSize : Nat} {s : BatchState srcSize dstSize} {n : Nat}
    (order : CompletionOrder n) (hpos : 0 < n) (hn : n < 2 ^ 64)
    (hlatch : s.engine.latch = Latch.arm (UInt64.ofNat n)) :
    pollLoop (fun s => s.engine.latch.running) (hashCompleted device) order.tasks s =
      some (completedAll device order.tasks s) := by
  rw [← foldl_hashCompleted]
  refine pollLoop_of_latch (fun s : BatchState srcSize dstSize => s.engine.latch)
    (fun _ _ => rfl) ?_ ?_ ?_
  · rw [← List.length_pos_iff, order.length_eq]
    exact hpos
  · rw [hlatch, order.length_eq]
    exact UInt64.toNat_ofNat_of_lt' hn
  · rw [hlatch]
    rfl

theorem resetFirst_dstSlots (device : ShaDevice) (n batchSize : Nat) :
    resetFirst n (dstSlots device batchSize) = dstSlots device batchSize := by
  apply List.ext_getElem?
  intro i
  simp only [resetFirst, dstSlots, List.getElem?_mapIdx, List.getElem?_map]
  cases (List.range batchSize)[i]? with
  | none => rfl
  | some j => simp

/-- The tasks of a batch have been submitted, with the chunks in `src`. -/
def batchSubmitted {dstSize : Nat} (src : Buffer UInt8 srcSize) (contents : List (List UInt8))
    (s : BatchState srcSize dstSize) : BatchState srcSize dstSize :=
  submittedFrom 0 (spansFrom 0 contents)
    (moved contents.length src (spansFrom 0 contents) (armTasks contents.length s))

/-- The state after a pass. -/
def afterPass {dstSize : Nat} (device : ShaDevice) (src : Buffer UInt8 srcSize)
    (contents : List (List UInt8)) (order : CompletionOrder contents.length)
    (s : BatchState srcSize dstSize) : BatchState srcSize dstSize :=
  endPass contents.length (completedAll device order.tasks (batchSubmitted src contents s))

/-- The next `batch_size` chunks, or those that are left. -/
structure NextBatch {dstSize : Nat} (batchSize : Nat) (cs : List (List UInt8))
    (s : BatchState srcSize dstSize) (contents : List (List UInt8)) : Prop where
  contents_eq : (cs.drop s.off2).take batchSize = contents
  ne_nil : contents ≠ []
  fits : contents.flatten.length ≤ srcSize

theorem NextBatch.length_eq {dstSize : Nat} {s : BatchState srcSize dstSize}
    {contents : List (List UInt8)} (h : NextBatch batchSize cs s contents) :
    contents.length = min batchSize (cs.length - s.off2) := by
  rw [← h.contents_eq, List.length_take, List.length_drop]

/-- A pass moves the chunks of a batch, submits a task for each and waits for
all of them. -/
theorem hashPass_eq {dstSize : Nat} {s : BatchState srcSize dstSize}
    {contents : List (List UInt8)} (h : Ready device batchSize cs s)
    (hnext : NextBatch batchSize cs s contents) (hbatch : batchSize < 2 ^ 64)
    (schedule : Nat → (n : Nat) → CompletionOrder n) :
    ∃ src : Buffer UInt8 srcSize, src.data.take contents.flatten.length = contents.flatten ∧
      hashPass device cs.flatten (recorded 0 cs) batchSize schedule s =
        some (afterPass device src contents (schedule s.passes contents.length) s) := by
  have hnow := nowBatch_eq h
  rw [hnext.contents_eq] at hnow
  have hlen := hnext.length_eq
  have hpos : 0 < contents.length := List.length_pos_iff.mpr hnext.ne_nil
  have hmine : (cs.drop (armTasks contents.length s).off2).take contents.length = contents := by
    show (cs.drop s.off2).take contents.length = contents
    rw [← hnext.contents_eq, List.take_eq_take_iff, List.length_take, List.length_drop]
    omega
  have hcount : (armTasks contents.length s).off2 + contents.length ≤ cs.length := by
    show s.off2 + contents.length ≤ cs.length
    have hoff := h.off2_le
    omega
  have hroom : 0 + ((cs.drop (armTasks contents.length s).off2).take
      contents.length).flatten.length ≤ srcSize := by
    rw [hmine, Nat.zero_add]
    exact hnext.fits
  obtain ⟨src, hsrc, hmove⟩ := moveLoop_eq 0 hcount hroom
  rw [hmine, List.take_zero, List.nil_append, Nat.zero_add] at hsrc
  rw [hmine] at hmove
  refine ⟨src, hsrc, ?_⟩
  have hsubmit : submitLoop contents.length 0
      (moved contents.length src (spansFrom 0 contents) (armTasks contents.length s)) =
      some (batchSubmitted src contents s) := by
    refine submitLoop_eq ?_ (length_spansFrom 0 contents) ?_
    · show (s.batchChunks ++ spansFrom 0 contents).drop 0 = _
      rw [h.batchChunks_eq]
      rfl
    · show 0 + contents.length ≤ s.engine.srcBufs.length
      rw [h.length_srcBufs]
      omega
  have hwait : pollLoop (fun s => s.engine.latch.running) (hashCompleted device)
      (schedule s.passes contents.length).tasks (batchSubmitted src contents s) =
      some (completedAll device (schedule s.passes contents.length).tasks
        (batchSubmitted src contents s)) :=
    wait_hashCompleted _ hpos (by omega) rfl
  have hpasses : (batchSubmitted src contents s).passes = s.passes := rfl
  simp only [hashPass]
  rw [hnow]
  simp only [hmove, hsubmit, hpasses, hwait]
  rfl

/-- The digest of chunk `i` of a batch is in slot `i` after the pass. -/
theorem digest_afterPass {s : BatchState srcSize (device.minDstSize * batchSize)}
    {contents : List (List UInt8)} (h : Ready device batchSize cs s)
    (hnext : NextBatch batchSize cs s contents) {src : Buffer UInt8 srcSize}
    (hsrc : src.data.take contents.flatten.length = contents.flatten)
    (order : CompletionOrder contents.length) {i : Nat} {c : List UInt8}
    (hc : contents[i]? = some c) :
    slice (afterPass device src contents order s).engine.dst.data (device.minDstSize * i)
      (device.digest c).length = device.digest c := by
  have hlen := hnext.length_eq
  have hi : i < contents.length := (List.getElem?_eq_some_iff.mp hc).1
  have hcontents : contentsAt src.data (spansFrom 0 contents) = contents :=
    map_slice_spansFrom hsrc
  rw [← hcontents] at hc
  have hbufs : (batchSubmitted src contents s).engine.srcBufs =
      writeAt s.engine.srcBufs 0 (spansFrom 0 contents) := rfl
  have hinput : (batchSubmitted src contents s).engine.input i = c := input_of_segments hbufs hc
  have hdst : (batchSubmitted src contents s).engine.dstBufs = dstSlots device batchSize :=
    h.dstBufs_eq
  have hslot := digest_in_slot hdst (by omega) order hi
  rw [Engine.output, hinput] at hslot
  exact hslot

/-- What a pass does. -/
def passTrace {s : BatchState srcSize (device.minDstSize * batchSize)}
    {contents : List (List UInt8)} (h : Ready device batchSize cs s)
    (hnext : NextBatch batchSize cs s contents) {src : Buffer UInt8 srcSize}
    (hsrc : src.data.take contents.flatten.length = contents.flatten)
    (order : CompletionOrder contents.length) : BatchTrace device srcSize contents where
  segments := spansFrom 0 contents
  order := order
  dstBuffer := (afterPass device src contents order s).engine.dst.data
  length_segments := length_spansFrom 0 contents
  disjoint := (pairwise_spansFrom 0 contents).imp Or.inl
  inside segment hsegment := by
    have hle := spansFrom_le hsegment
    have hfits := hnext.fits
    omega
  digests _ _ hc := digest_afterPass h hnext hsrc order hc

theorem events_afterPass {s : BatchState srcSize (device.minDstSize * batchSize)}
    {contents : List (List UInt8)} (h : Ready device batchSize cs s)
    (hnext : NextBatch batchSize cs s contents) {src : Buffer UInt8 srcSize}
    (hsrc : src.data.take contents.flatten.length = contents.flatten)
    (order : CompletionOrder contents.length) :
    (afterPass device src contents order s).events =
      s.events ++ (passTrace h hnext hsrc order).events := by
  have hcontents : contentsAt src.data (spansFrom 0 contents) = contents :=
    map_slice_spansFrom hsrc
  show ((s.events ++ submittedEvents 0 _ (contentsAt src.data (spansFrom 0 contents))) ++ _) ++ _ = _
  rw [hcontents, List.append_assoc, List.append_assoc, BatchTrace.events, List.append_assoc]
  rfl

/-- After a pass the loop is ready for the next. -/
theorem ready_afterPass {dstSize : Nat} {s : BatchState srcSize dstSize}
    {contents : List (List UInt8)} (h : Ready device batchSize cs s)
    (hnext : NextBatch batchSize cs s contents) (src : Buffer UInt8 srcSize)
    (order : CompletionOrder contents.length) :
    Ready device batchSize cs (afterPass device src contents order s) where
  off2_le := by
    show s.off2 + contents.length ≤ cs.length
    have hlen := hnext.length_eq
    have hoff := h.off2_le
    omega
  rest_eq := by
    show s.restChunkNum - contents.length = (cs.length : Int) - (s.off2 + contents.length : Nat)
    rw [h.rest_eq]
    omega
  batchChunks_eq := rfl
  dstBufs_eq := by
    show resetFirst contents.length
      ((batchSubmitted src contents s).engine.completeAll device.digest order.tasks).dstBufs = _
    rw [Engine.resetFirst_completeAll (fun task htask => order.mem_iff.mp htask)]
    show resetFirst contents.length s.engine.dstBufs = _
    rw [h.dstBufs_eq, resetFirst_dstSlots]
  length_srcBufs := by
    show ((batchSubmitted src contents s).engine.completeAll device.digest
      order.tasks).srcBufs.length = batchSize
    rw [Engine.completeAll_srcBufs]
    show (writeAt s.engine.srcBufs 0 (spansFrom 0 contents)).length = batchSize
    rw [length_writeAt, h.length_srcBufs]
    rw [length_spansFrom, h.length_srcBufs]
    have hlen := hnext.length_eq
    omega

/-! ## The loop -/

/-- The batches that have been hashed, `before`, and what was recorded of each. -/
structure Hashed (device : ShaDevice) (hpos : 0 < batchSize) (cs : List (List UInt8))
    (s : BatchState srcSize (device.minDstSize * batchSize)) : Prop where
  ready : Ready device batchSize cs s
  traces : ∃ before traces,
    (fixedRule batchSize hpos).chunks cs =
      before ++ (fixedRule batchSize hpos).chunks (cs.drop s.off2) ∧
    s.events = traces.flatten ∧
    List.Forall₂ (fun contents trace => ∃ t : BatchTrace device srcSize contents,
      trace = t.events) before traces

theorem ready_batchStart (device : ShaDevice) (cs : List (List UInt8)) (batchSize : Nat)
    {dstSize : Nat} (srcBuffer : Buffer UInt8 srcSize) (dstBuffer : Buffer UInt8 dstSize) :
    Ready device batchSize cs
      (batchStart device (recorded 0 cs) batchSize srcBuffer dstBuffer) where
  off2_le := Nat.zero_le _
  rest_eq := by
    show ((recorded 0 cs).length : Int) = (cs.length : Int) - (0 : Nat)
    rw [recorded, List.length_map, length_spansFrom]
    omega
  batchChunks_eq := rfl
  dstBufs_eq := rfl
  length_srcBufs := List.length_replicate

/-- The next block of `batch_size` chunks. -/
theorem chunks_drop (hpos : 0 < batchSize) {off : Nat} (hlt : off < cs.length) :
    (fixedRule batchSize hpos).chunks (cs.drop off) =
      (cs.drop off).take batchSize ::
        (fixedRule batchSize hpos).chunks
          (cs.drop (off + ((cs.drop off).take batchSize).length)) := by
  have hne : cs.drop off ≠ [] := by
    intro hnil
    have hlen := List.drop_eq_nil_iff.mp hnil
    omega
  have hcut : (fixedRule batchSize hpos).cut (cs.drop off) =
      ((cs.drop off).take batchSize).length := by
    rw [List.length_take]
    rfl
  have htake : (cs.drop off).take ((cs.drop off).take batchSize).length =
      (cs.drop off).take batchSize := by
    rw [List.take_eq_take_iff, List.length_take]
    omega
  rw [CutRule.chunks_of_ne_nil _ hne, hcut, htake, List.drop_drop]

/-- One batch more. -/
theorem hashed_step (hpos : 0 < batchSize) (hbatch : batchSize < 2 ^ 64)
    (hfits : ∀ off, ((cs.drop off).take batchSize).flatten.length ≤ srcSize)
    (schedule : Nat → (n : Nat) → CompletionOrder n)
    {s : BatchState srcSize (device.minDstSize * batchSize)} (h : Hashed device hpos cs s)
    (hrest : s.restChunkNum ≠ 0) :
    ∃ t, hashPass device cs.flatten (recorded 0 cs) batchSize schedule s = some t ∧
      Hashed device hpos cs t ∧ t.restChunkNum.toNat < s.restChunkNum.toNat := by
  obtain ⟨hready, before, traces, hbefore, hevents, htraces⟩ := h
  have hoff := hready.off2_le
  have hrestEq := hready.rest_eq
  have hlt : s.off2 < cs.length := by omega
  have hnext : NextBatch batchSize cs s ((cs.drop s.off2).take batchSize) := by
    refine ⟨rfl, ?_, hfits s.off2⟩
    rw [← List.length_pos_iff, List.length_take, List.length_drop]
    omega
  have hlen := hnext.length_eq
  obtain ⟨src, hsrc, hpass⟩ := hashPass_eq hready hnext hbatch schedule
  refine ⟨_, hpass, ⟨ready_afterPass hready hnext src _,
    before ++ [(cs.drop s.off2).take batchSize],
    traces ++ [(passTrace hready hnext hsrc (schedule s.passes _)).events], ?_, ?_, ?_⟩, ?_⟩
  · rw [hbefore, chunks_drop hpos hlt, List.append_assoc, List.singleton_append]
    rfl
  · rw [events_afterPass hready hnext hsrc, hevents, List.flatten_append, List.flatten_singleton]
  · exact List.rel_append htraces (List.Forall₂.cons ⟨_, rfl⟩ List.Forall₂.nil)
  · show (s.restChunkNum - (((cs.drop s.off2).take batchSize).length : Int)).toNat < _
    omega

/-- The loop ends, and it has hashed one batch after the other. -/
theorem batchLoop_eq {maxSize : Nat} (hmax : ∀ c ∈ cs, c.length ≤ maxSize)
    (hpos : 0 < batchSize) (hbatch : batchSize < 2 ^ 64)
    (schedule : Nat → (n : Nat) → CompletionOrder n)
    (srcBuffer : Buffer UInt8 (maxSize * batchSize))
    (dstBuffer : Buffer UInt8 (device.minDstSize * batchSize)) :
    ∃ t traces, BatchLoopEnds device cs.flatten (recorded 0 cs) batchSize schedule
        (batchStart device (recorded 0 cs) batchSize srcBuffer dstBuffer) t ∧
      t.events = traces.flatten ∧
      List.Forall₂ (fun contents trace =>
        ∃ t : BatchTrace device (maxSize * batchSize) contents, trace = t.events)
        ((fixedRule batchSize hpos).chunks cs) traces := by
  have hfits : ∀ off, ((cs.drop off).take batchSize).flatten.length ≤ maxSize * batchSize := by
    intro off
    have hle : ((cs.drop off).take batchSize).flatten.length ≤
        ((cs.drop off).take batchSize).length * maxSize :=
      length_flatten_le (fun d hd => hmax d (List.drop_subset _ _ (List.take_subset _ _ hd)))
    have hlen : ((cs.drop off).take batchSize).length ≤ batchSize := by
      rw [List.length_take]
      omega
    have hmul := Nat.mul_le_mul_right maxSize hlen
    rw [Nat.mul_comm maxSize]
    omega
  have hstart : Hashed device hpos cs
      (batchStart device (recorded 0 cs) batchSize srcBuffer dstBuffer) :=
    ⟨ready_batchStart device cs batchSize srcBuffer dstBuffer, [], [], rfl, rfl, List.Forall₂.nil⟩
  have hstep : ∀ s : BatchState (maxSize * batchSize) (device.minDstSize * batchSize),
      Hashed device hpos cs s → (s.restChunkNum != 0) = true →
      ∃ t, hashPass device cs.flatten (recorded 0 cs) batchSize schedule s = some t ∧
        Hashed device hpos cs t ∧ t.restChunkNum.toNat < s.restChunkNum.toNat := by
    intro s hs hcond
    exact hashed_step hpos hbatch hfits schedule hs (by simpa using hcond)
  obtain ⟨t, hrun, ht, hend⟩ := whileLoop_total (fun s => s.restChunkNum.toNat) hstep hstart
    (Nat.le_refl _)
  obtain ⟨hready, before, traces, hbefore, hevents, htraces⟩ := ht
  have hoff := hready.off2_le
  have hrest := hready.rest_eq
  have hzero : t.restChunkNum = 0 := by simpa using hend
  have hall : cs.drop t.off2 = [] := List.drop_eq_nil_iff.mpr (by omega)
  rw [hall, CutRule.chunks_nil, List.append_nil] at hbefore
  rw [hbefore]
  exact ⟨t, traces, ⟨_, hrun⟩, hevents, htraces⟩

/-! ## The whole run -/

/-- The bytes of a submission. -/
def HashEvent.submittedBytes : HashEvent → Option (List UInt8)
  | .submitted _ _ bytes => some bytes
  | .completed _ => none
  | .waited _ => none

theorem filterMap_submittedEvents {segments : List Segment} {contents : List (List UInt8)}
    (hlen : segments.length = contents.length) (i : Nat) :
    (submittedEvents i segments contents).filterMap HashEvent.submittedBytes = contents := by
  induction segments generalizing i contents with
  | nil =>
    rw [List.eq_nil_of_length_eq_zero hlen.symm]
    rfl
  | cons segment segments ih =>
    cases contents with
    | nil => cases hlen
    | cons bytes contents =>
      rw [submittedEvents, List.filterMap_cons]
      simp only [HashEvent.submittedBytes]
      rw [ih (Nat.succ.inj hlen)]

/-- Task `i` is submitted with content `i`. -/
theorem getElem?_of_mem_submittedEvents {segments : List Segment} {contents : List (List UInt8)}
    {i task : Nat} {segment : Segment} {bytes : List UInt8}
    (h : .submitted task segment bytes ∈ submittedEvents i segments contents) :
    i ≤ task ∧ contents[task - i]? = some bytes := by
  induction segments generalizing i contents with
  | nil => cases h
  | cons segment segments ih =>
    cases contents with
    | nil => cases h
    | cons head contents =>
      rcases List.mem_cons.mp h with heq | hmem
      · cases heq
        exact ⟨Nat.le_refl _, by rw [Nat.sub_self]; rfl⟩
      · obtain ⟨hle, hget⟩ := ih hmem
        have hsub : task - i = (task - (i + 1)) + 1 := by omega
        refine ⟨by omega, ?_⟩
        rw [hsub]
        exact hget

namespace BatchTrace

variable {capacity : Nat} {contents : List (List UInt8)} (t : BatchTrace device capacity contents)

theorem filterMap_events : t.events.filterMap HashEvent.submittedBytes = contents := by
  have hcompleted : (t.order.tasks.map HashEvent.completed).filterMap
      HashEvent.submittedBytes = [] := by
    rw [List.filterMap_map]
    exact List.filterMap_eq_nil_iff.mpr (fun _ _ => rfl)
  rw [events, List.filterMap_append, List.filterMap_append,
    filterMap_submittedEvents t.length_segments, hcompleted]
  simp [HashEvent.submittedBytes]

theorem submitted_getElem? {task : Nat} {segment : Segment} {bytes : List UInt8}
    (h : .submitted task segment bytes ∈ t.events) : contents[task]? = some bytes := by
  rw [events, List.mem_append, List.mem_append] at h
  rcases h with (h | h) | h
  · exact (getElem?_of_mem_submittedEvents h).2
  · simp at h
  · simp at h

end BatchTrace

/-- Every content is hashed exactly once: batch `b` takes the contents from
`b * batch_size` on, its task `i` takes content `b * batch_size + i`, and no
content is submitted twice. -/
structure HashesOnce (device : ShaDevice) (capacity batchSize : Nat)
    (contents : List (List UInt8)) (traces : List (List HashEvent)) : Prop where
  length_eq : traces.length = (contents.length + (batchSize - 1)) / batchSize
  batch : ∀ b trace, traces[b]? = some trace →
    ∃ t : BatchTrace device capacity ((contents.drop (b * batchSize)).take batchSize),
      trace = t.events
  task : ∀ b trace i segment bytes, traces[b]? = some trace →
    .submitted i segment bytes ∈ trace →
    i < batchSize ∧ contents[b * batchSize + i]? = some bytes
  submitted_eq : traces.flatten.filterMap HashEvent.submittedBytes = contents

theorem filterMap_traces {capacity : Nat} {groups : List (List (List UInt8))}
    {traces : List (List HashEvent)}
    (h : List.Forall₂ (fun contents trace => ∃ t : BatchTrace device capacity contents,
      trace = t.events) groups traces) :
    traces.flatten.filterMap HashEvent.submittedBytes = groups.flatten := by
  induction h with
  | nil => rfl
  | cons hfirst _ ih =>
    obtain ⟨t, rfl⟩ := hfirst
    rw [List.flatten_cons, List.filterMap_append, t.filterMap_events, ih, List.flatten_cons]

/-- Batches of `batch_size`, one trace for each, hash every content once. -/
theorem hashesOnce_of_batches {capacity : Nat} {hpos : 0 < batchSize}
    {traces : List (List HashEvent)}
    (h : List.Forall₂ (fun contents trace => ∃ t : BatchTrace device capacity contents,
      trace = t.events) ((fixedRule batchSize hpos).chunks cs) traces) :
    HashesOnce device capacity batchSize cs traces := by
  have hblocks := map_range_eq_chunks_fixed hpos cs
  have hbatch : ∀ b trace, traces[b]? = some trace →
      ∃ t : BatchTrace device capacity ((cs.drop (b * batchSize)).take batchSize),
        trace = t.events := by
    intro b trace hb
    obtain ⟨hlt, hget⟩ := List.getElem?_eq_some_iff.mp hb
    have hlt' : b < ((fixedRule batchSize hpos).chunks cs).length := by
      rw [h.length_eq]
      exact hlt
    have hrel := h.get hlt' hlt
    have hcontents : ((fixedRule batchSize hpos).chunks cs).get ⟨b, hlt'⟩ =
        (cs.drop (b * batchSize)).take batchSize := by
      simp [← hblocks]
    rw [hcontents] at hrel
    rw [← hget]
    exact hrel
  refine ⟨?_, hbatch, ?_, ?_⟩
  · rw [← h.length_eq, ← hblocks, List.length_map, List.length_range]
  · intro b trace i segment bytes hb hmem
    obtain ⟨t, rfl⟩ := hbatch b trace hb
    have hget := t.submitted_getElem? hmem
    have hi : i < batchSize := by
      have hlt := (List.getElem?_eq_some_iff.mp hget).1
      rw [List.length_take] at hlt
      omega
    rw [List.getElem?_take_of_lt hi, List.getElem?_drop] at hget
    exact ⟨hi, hget⟩
  · rw [filterMap_traces h, CutRule.flatten_chunks]

/-- The bytes of a chunk. -/
def chunkBytes (data : List UInt8) (chunk : Int × Int) : List UInt8 :=
  slice data chunk.1.toNat chunk.2.toNat

theorem map_chunkBytes_recorded (cs : List (List UInt8)) :
    (recorded 0 cs).map (chunkBytes cs.flatten) = cs := by
  have htake : cs.flatten.take cs.flatten.length = cs.flatten := List.take_length
  rw [recorded, List.map_map]
  exact map_slice_spansFrom htake

end

/-- For every data and every order in which the tasks of a batch complete, the
batching loop ends, and every chunk has been hashed once. -/
theorem batchLoop_hashesOnce {avg batchSize : Nat} (havg : 4 ≤ avg) (hbatch : 1 ≤ batchSize)
    (hfits : avg * 8 * batchSize < 2 ^ 31) (data : List UInt8) (device : ShaDevice)
    (schedule : Nat → (n : Nat) → CompletionOrder n)
    (srcBuffer : Buffer UInt8 ((cdcSizes avg).maxChunkSize * batchSize))
    (dstBuffer : Buffer UInt8 (device.minDstSize * batchSize)) :
    ∃ chunks t traces, ChunksOf avg data chunks ∧
      BatchLoopEnds device data chunks batchSize schedule
        (batchStart device chunks batchSize srcBuffer dstBuffer) t ∧
      t.events = traces.flatten ∧
      HashesOnce device ((cdcSizes avg).maxChunkSize * batchSize) batchSize
        (chunks.map (chunkBytes data)) traces := by
  have hlt : batchSize < 2 ^ 64 := by
    have hle : batchSize ≤ avg * 8 * batchSize := Nat.le_mul_of_pos_left _ (by omega)
    omega
  have hmax : ∀ c ∈ (cdcRule avg havg).chunks data, c.length ≤ (cdcSizes avg).maxChunkSize := by
    intro c hc
    exact CutRule.length_le_of_mem_chunks _ cdcRule_cut_le_max hc
  have hdata : ((cdcRule avg havg).chunks data).flatten = data := CutRule.flatten_chunks _ data
  obtain ⟨t, traces, hend, hevents, htraces⟩ :=
    batchLoop_eq hmax hbatch hlt schedule srcBuffer dstBuffer
  have hbytes := map_chunkBytes_recorded ((cdcRule avg havg).chunks data)
  rw [hdata] at hend hbytes
  refine ⟨_, t, traces, chunksOf_recorded havg data, hend, hevents, ?_⟩
  rw [hbytes]
  exact hashesOnce_of_batches htraces

/-- A device that keeps the first twenty bytes. -/
def firstTwenty : ShaDevice where
  digest x := x.take 20
  minDstSize := 20
  length_le x := by
    rw [List.length_take]
    omega

def zeroedSource : Buffer UInt8 ((cdcSizes 4).maxChunkSize * 2) := .zeroed _

def zeroedDigests : Buffer UInt8 (firstTwenty.minDstSize * 2) := .zeroed _

/-- A hundred bytes are at least four chunks, and so two batches of two. -/
theorem batchLoop_hashesOnce_hundred :
    ∃ chunks t traces, ChunksOf 4 (countingBytes 100) chunks ∧ 4 ≤ chunks.length ∧
      BatchLoopEnds firstTwenty (countingBytes 100) chunks 2 (fun _ n => .inOrder n)
        (batchStart firstTwenty chunks 2 zeroedSource zeroedDigests) t ∧
      t.events = traces.flatten ∧ 2 ≤ traces.length ∧
      HashesOnce firstTwenty ((cdcSizes 4).maxChunkSize * 2) 2
        (chunks.map (chunkBytes (countingBytes 100))) traces := by
  obtain ⟨chunks, t, traces, hchunks, hends, hevents, honce⟩ :=
    batchLoop_hashesOnce (Nat.le_refl 4) (by decide) (by decide) (countingBytes 100) firstTwenty
      (fun _ n => .inOrder n) zeroedSource zeroedDigests
  have hlen := length_le_recorded (Nat.le_refl 4) (countingBytes 100)
  rw [length_countingBytes, ← hchunks.unique (chunksOf_recorded (Nat.le_refl 4) _)] at hlen
  have hbatches := honce.length_eq
  rw [List.length_map] at hbatches
  exact ⟨chunks, t, traces, hchunks, by omega, hends, hevents, by omega, honce⟩

end DpuTest.Sha
