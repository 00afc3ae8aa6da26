import DpuTest.Doca
import DpuTest.Lib.StopLatch
import DpuTest.Sha.Batching

/-!
# What `sha_create_CDC` reports

`HashRun` is the batching loop with the ways in which it may go wrong: a call of
the SDK that is refused, a task that fails, a wait that does not end.  The bytes
are those of `BatchState`, and a task that succeeds does what it does there.

The device is a parameter: `ShaAnswers` says what every call answers, how the
task of every chunk ends, and what `doca_pe_progress` delivers in every pass.  A
run records which chunks are submitted, and how their tasks end.

* `statusPass_progressed`: a pass that comes to its end has submitted the next
  chunks, and their tasks have ended as the device has them end.
* `hashesAll_iff`: for a call that returns `DOCA_SUCCESS`, every chunk has been
  hashed if and only if no task fails and the source buffer is not too long.
  `task_result` is never read, and the check of the length returns the status of
  the call before it.
-/

namespace DpuTest.Sha

open Lib

/-- What `doca_pe_progress` delivers. -/
inductive ShaEvent where
  | task (task : Nat)
  | stateChanged (next : CtxState)

/-- The device. -/
structure ShaAnswers where
  /-- Up to `doca_sha_cap_get_max_src_buf_size`. -/
  opening : List DocaStatus
  maxSourceBufferSize : UInt64
  /-- From there on to the allocation of the last task. -/
  setup : List DocaStatus
  /-- `doca_task_submit`, by the chunk that the task is for. -/
  submit : Nat → DocaStatus
  /-- How the task ends. -/
  status : Nat → DocaStatus
  progress : Nat → List (List ShaEvent)

inductive HashReport where
  | submitted (chunk : Nat)
  | completed (chunk : Nat) (status : DocaStatus)
  deriving DecidableEq

/-- The variables of the loop, the tasks that the device has and those that were
freed, and what has been returned.  The tasks of a batch are for the chunks from
`firstChunk` on. -/
structure HashRun (srcSize dstSize : Nat) where
  batch : BatchState srcSize dstSize
  taskResult : Option DocaStatus
  stopPending : Bool
  firstChunk : Nat
  inFlight : List Nat
  freed : List Nat
  returned : Option DocaStatus
  reports : List HashReport

section

variable {srcSize dstSize : Nat} (device : ShaDevice) (answers : ShaAnswers)

/-- `sha_hash_completed_callback`, after the device has written the digest. -/
def shaHashCompletedCallback (task : Nat) (s : HashRun srcSize dstSize) :
    HashRun srcSize dstSize :=
  { s with
    batch := hashCompleted device task s.batch
    taskResult := some .success }

/-- `--resources->num_remaining_tasks` -/
def countFailed (batch : BatchState srcSize dstSize) : BatchState srcSize dstSize :=
  { batch with
    engine := { batch.engine with
      latch := { batch.engine.latch with remaining := batch.engine.latch.remaining - 1 } } }

/-- `sha_hash_error_callback`: the task is freed, and the last one stops the
context. -/
def shaHashErrorCallback (task : Nat) (status : DocaStatus) (s : HashRun srcSize dstSize) :
    HashRun srcSize dstSize :=
  { s with
    taskResult := some status
    freed := s.freed ++ [task]
    batch := countFailed s.batch
    stopPending := if s.batch.engine.latch.remaining - 1 = 0 then true else s.stopPending }

/-- The flag is dropped. -/
def dropFlag (batch : BatchState srcSize dstSize) : BatchState srcSize dstSize :=
  { batch with
    engine := { batch.engine with latch := { batch.engine.latch with running := false } } }

/-- `sha_state_changed_callback`. -/
def shaStateChangedCallback (next : CtxState) (s : HashRun srcSize dstSize) :
    HashRun srcSize dstSize :=
  match next with
  | .idle => { s with batch := dropFlag s.batch, stopPending := false }
  | .starting => s
  | .running => s
  | .stopping => s

/-- One callback.  The SDK reports the end of a task that is in flight, and the
idle state when there is none. -/
def deliver (s : HashRun srcSize dstSize) : ShaEvent → Option (HashRun srcSize dstSize)
  | .task task =>
    if task ∈ s.inFlight then
      let chunk := s.firstChunk + task
      let after := match answers.status chunk with
        | .success => shaHashCompletedCallback device task s
        | error => shaHashErrorCallback task error s
      some { after with
        inFlight := s.inFlight.erase task
        reports := s.reports ++ [.completed chunk (answers.status chunk)] }
    else none
  | .stateChanged .idle =>
    if s.inFlight = [] then some (shaStateChangedCallback .idle s) else none
  | .stateChanged next => some (shaStateChangedCallback next s)

/-- The loop that submits `count` tasks, from task `i` on. -/
def submitBatch : Nat → Nat → HashRun srcSize dstSize → Option (HashRun srcSize dstSize)
  | 0, _, s => some s
  | count + 1, i, s =>
    match s.batch.batchChunks[i]? with
    | none => none
    | some segment =>
      let chunk := s.firstChunk + i
      match answers.submit chunk with
      | .success =>
        submitBatch count (i + 1) { s with
          batch := submitTask i segment s.batch
          inFlight := s.inFlight ++ [i]
          reports := s.reports ++ [.submitted chunk] }
      | error => some { s with returned := some error }

variable (data : List UInt8) (chunks : List (Int × Int)) (batchSize : Int32)

/-- `now_batch` -/
def nowBatchOf (restChunkNum : Int) : Int :=
  if restChunkNum ≥ batchSize.toInt then batchSize.toInt else restChunkNum

/-- The resources are set for a batch. -/
def armBatch (count : Int) (s : HashRun srcSize dstSize) : HashRun srcSize dstSize :=
  { s with
    firstChunk := s.batch.off2
    batch := { s.batch with
      engine := { s.batch.engine with latch := Latch.arm (UInt64.ofInt count) } } }

/-- One pass of the loop. -/
def statusPass (s : HashRun srcSize dstSize) : Option (HashRun srcSize dstSize) :=
  let n := nowBatchOf batchSize s.batch.restChunkNum
  let s := armBatch n s
  match moveLoop data chunks n.toNat 0 s.batch with
  | none => none
  | some batch =>
    match submitBatch answers n.toNat 0 { s with batch := batch } with
    | none => none
    | some s =>
      if s.returned.isSome then some s
      else
        match progressLoop (fun s => s.batch.engine.latch.running) (deliver device answers)
            (answers.progress s.batch.passes) s with
        | none => none
        | some s => some { s with batch := endPass n.toNat s.batch }

/-- `while(rest_chunk_num)`, up to a `return`. -/
def StatusLoopEnds (s t : HashRun srcSize dstSize) : Prop :=
  LoopEnds (fun s => s.batch.restChunkNum != 0 && s.returned.isNone)
    (statusPass device answers data chunks batchSize) s t

/-- The state before the loop. -/
def hashStart (srcBuffer : Buffer UInt8 srcSize) (dstBuffer : Buffer UInt8 dstSize) :
    HashRun srcSize dstSize where
  batch := batchStart device chunks batchSize.toInt.toNat srcBuffer dstBuffer
  taskResult := none
  stopPending := false
  firstChunk := 0
  inFlight := []
  freed := []
  returned := none
  reports := []

end

/-- The first call that is refused. -/
def firstError (answers : List DocaStatus) : Option DocaStatus :=
  answers.find? (· != .success)

/-- `src_buffer_len > max_source_buffer_size`.  The product of the two `int`s is
taken not to overflow. -/
def SourceTooLong (answers : ShaAnswers) (avg : Nat) (batchSize : Int32) : Prop :=
  answers.maxSourceBufferSize < UInt64.ofInt ((cdcSizes avg).maxChunkSize * batchSize.toInt)

instance (answers : ShaAnswers) (avg : Nat) (batchSize : Int32) :
    Decidable (SourceTooLong answers avg batchSize) :=
  inferInstanceAs (Decidable (_ < _))

/-- `sha_create_CDC` returns `status`, with what `malloc` left in `src_buffer` and
`calloc` in `dst_buffer`. -/
def ShaCreateCDC (device : ShaDevice) (answers : ShaAnswers) (data : List UInt8)
    (batchSize : Int32) (avg : Nat)
    (srcBuffer : Buffer UInt8 ((cdcSizes avg).maxChunkSize * batchSize.toInt.toNat))
    (dstBuffer : Buffer UInt8 (device.minDstSize * batchSize.toInt.toNat))
    (status : DocaStatus) (reports : List HashReport) : Prop :=
  match firstError answers.opening with
  | some error => status = error ∧ reports = []
  | none =>
    -- `return result`, which is still that of the last call
    if SourceTooLong answers avg batchSize then status = .success ∧ reports = []
    else
      match firstError answers.setup with
      | some error => status = error ∧ reports = []
      | none => ∃ chunks t, ChunksOf avg data chunks ∧
          StatusLoopEnds device answers data chunks batchSize
            (hashStart device chunks batchSize srcBuffer dstBuffer) t ∧
          status = t.returned.getD .success ∧ reports = t.reports

/-- Every chunk was submitted to a task that completed with `DOCA_SUCCESS`. -/
def HashesAll (count : Nat) (reports : List HashReport) : Prop :=
  ∀ c, c < count → .submitted c ∈ reports ∧ .completed c .success ∈ reports

section

variable {srcSize dstSize : Nat} {device : ShaDevice} {answers : ShaAnswers} {data : List UInt8}
  {chunks : List (Int × Int)} {batchSize : Int32}

/-! ## Moving and submitting -/

/-- What moving chunks does to the counters. -/
theorem moveLoop_counts {count off : Nat} {b b' : BatchState srcSize dstSize}
    (h : moveLoop data chunks count off b = some b') :
    b'.off2 = b.off2 + count ∧ b'.restChunkNum = b.restChunkNum - count ∧
      b'.engine.latch = b.engine.latch := by
  induction count generalizing off b with
  | zero =>
    cases h
    refine ⟨rfl, ?_, rfl⟩
    omega
  | succ count ih =>
    rw [moveLoop] at h
    split at h
    · cases h
    · split at h
      · cases h
      · split at h
        · cases h
        · obtain ⟨hoff, hrest, hlatch⟩ := ih h
          simp only at hoff hrest
          refine ⟨by omega, by omega, hlatch⟩

/-- Tasks from `i` on have been submitted. -/
structure Submitted (count i : Nat) (s t : HashRun srcSize dstSize) : Prop where
  off2_eq : t.batch.off2 = s.batch.off2
  rest_eq : t.batch.restChunkNum = s.batch.restChunkNum
  latch_eq : t.batch.engine.latch = s.batch.engine.latch
  stopPending_eq : t.stopPending = s.stopPending
  firstChunk_eq : t.firstChunk = s.firstChunk
  returned_eq : t.returned = s.returned
  inFlight_eq : t.inFlight = s.inFlight ++ List.range' i count
  reports_eq : t.reports = s.reports ++
    (List.range' i count).map fun task => .submitted (s.firstChunk + task)

/-- Either all tasks are submitted, or one is refused and the function returns. -/
theorem submitBatch_spec {count i : Nat} {s t : HashRun srcSize dstSize}
    (h : submitBatch answers count i s = some t) :
    (∃ error, error ≠ .success ∧ t.returned = some error) ∨ Submitted count i s t := by
  induction count generalizing i s with
  | zero =>
    cases h
    exact Or.inr ⟨rfl, rfl, rfl, rfl, rfl, rfl, (List.append_nil _).symm, (List.append_nil _).symm⟩
  | succ count ih =>
    rw [submitBatch] at h
    split at h
    · cases h
    · simp only at h
      split at h
      · rcases ih h with hrefused | hrest
        · exact Or.inl hrefused
        · refine Or.inr ⟨hrest.off2_eq, hrest.rest_eq, hrest.latch_eq, hrest.stopPending_eq,
            hrest.firstChunk_eq, hrest.returned_eq, ?_, ?_⟩
          · rw [hrest.inFlight_eq, List.append_assoc, List.range'_succ]
            rfl
          · rw [hrest.reports_eq, List.append_assoc, List.range'_succ]
            rfl
      · rename_i error hne
        cases h
        exact Or.inl ⟨_, fun hs => hne hs, rfl⟩

/-! ## Waiting -/

/-- The resources of a run. -/
def HashRun.latch (s : HashRun srcSize dstSize) : StopLatch where
  toLatch := s.batch.engine.latch
  stopPending := s.stopPending

/-- What has happened in the wait that began in `s`. -/
structure Waited (answers : ShaAnswers) (s t : HashRun srcSize dstSize) : Prop where
  off2_eq : t.batch.off2 = s.batch.off2
  rest_eq : t.batch.restChunkNum = s.batch.restChunkNum
  firstChunk_eq : t.firstChunk = s.firstChunk
  returned_eq : t.returned = s.returned
  inFlight_subset : ∀ task ∈ t.inFlight, task ∈ s.inFlight
  reports_subset : ∀ report ∈ s.reports, report ∈ t.reports
  ended : ∀ task ∈ s.inFlight, task ∈ t.inFlight ∨
    .completed (s.firstChunk + task) (answers.status (s.firstChunk + task)) ∈ t.reports
  reported : ∀ c status, .completed c status ∈ t.reports →
    .completed c status ∈ s.reports ∨ status = answers.status c

theorem Waited.refl (s : HashRun srcSize dstSize) : Waited answers s s where
  off2_eq := rfl
  rest_eq := rfl
  firstChunk_eq := rfl
  returned_eq := rfl
  inFlight_subset _ h := h
  reports_subset _ h := h
  ended _ h := Or.inl h
  reported _ _ h := Or.inl h

/-- The end of a task. -/
theorem deliver_task {task : Nat} {s t : HashRun srcSize dstSize}
    (h : deliver device answers s (.task task) = some t) :
    task ∈ s.inFlight ∧ t.inFlight = s.inFlight.erase task ∧
      t.reports = s.reports ++
        [.completed (s.firstChunk + task) (answers.status (s.firstChunk + task))] ∧
      (t.batch.off2 = s.batch.off2 ∧ t.batch.restChunkNum = s.batch.restChunkNum ∧
        t.firstChunk = s.firstChunk ∧ t.returned = s.returned) ∧
      t.latch = if answers.status (s.firstChunk + task) = .success then s.latch.completed
        else s.latch.failed := by
  by_cases hmem : task ∈ s.inFlight
  · simp only [deliver, if_pos hmem, Option.some.injEq] at h
    subst h
    refine ⟨hmem, rfl, rfl, ?_, ?_⟩
    · cases answers.status (s.firstChunk + task) <;> exact ⟨rfl, rfl, rfl, rfl⟩
    · cases answers.status (s.firstChunk + task) <;> rfl
  · simp only [deliver, if_neg hmem] at h
    cases h

/-- A change of the context. -/
theorem deliver_stateChanged {next : CtxState} {s t : HashRun srcSize dstSize}
    (h : deliver device answers s (.stateChanged next) = some t) :
    t.inFlight = s.inFlight ∧ t.reports = s.reports ∧
      (t.batch.off2 = s.batch.off2 ∧ t.batch.restChunkNum = s.batch.restChunkNum ∧
        t.firstChunk = s.firstChunk ∧ t.returned = s.returned) ∧
      (t.latch = s.latch ∨ s.inFlight = [] ∧ t.latch = s.latch.idle) := by
  cases next with
  | idle =>
    by_cases hnil : s.inFlight = []
    · simp only [deliver, if_pos hnil, Option.some.injEq] at h
      subst h
      exact ⟨rfl, rfl, ⟨rfl, rfl, rfl, rfl⟩, Or.inr ⟨hnil, rfl⟩⟩
    · simp only [deliver, if_neg hnil] at h
      cases h
  | starting =>
    cases h
    exact ⟨rfl, rfl, ⟨rfl, rfl, rfl, rfl⟩, Or.inl rfl⟩
  | running =>
    cases h
    exact ⟨rfl, rfl, ⟨rfl, rfl, rfl, rfl⟩, Or.inl rfl⟩
  | stopping =>
    cases h
    exact ⟨rfl, rfl, ⟨rfl, rfl, rfl, rfl⟩, Or.inl rfl⟩

/-- A callback is a handler of the latch. -/
theorem deliver_handles {e : ShaEvent} {s t : HashRun srcSize dstSize}
    (h : deliver device answers s e = some t) :
    StopLatch.Handles s.latch s.inFlight t.latch t.inFlight := by
  cases e with
  | task task =>
    obtain ⟨hmem, hflight, -, -, hlatch⟩ := deliver_task h
    rw [hflight, hlatch]
    by_cases hstatus : answers.status (s.firstChunk + task) = .success
    · rw [if_pos hstatus]
      exact .completed hmem
    · rw [if_neg hstatus]
      exact .failed hmem
  | stateChanged next =>
    obtain ⟨hflight, -, -, hlatch⟩ := deliver_stateChanged h
    rcases hlatch with hsame | ⟨hnil, hidle⟩
    · rw [hflight, hsame]
      exact .other
    · rw [hflight, hidle, hnil]
      exact .idle

/-- One callback more. -/
theorem Waited.deliver {e : ShaEvent} {r s t : HashRun srcSize dstSize} (hs : Waited answers r s)
    (h : deliver device answers s e = some t) : Waited answers r t := by
  cases e with
  | task task =>
    obtain ⟨hmem, hflight, hreports, ⟨hoff, hrest, hfirst, hreturned⟩, -⟩ := deliver_task h
    have hkept : ∀ report ∈ s.reports, report ∈ t.reports := by
      intro report hreport
      rw [hreports]
      exact List.mem_append_left _ hreport
    refine ⟨hoff.trans hs.off2_eq, hrest.trans hs.rest_eq, hfirst.trans hs.firstChunk_eq,
      hreturned.trans hs.returned_eq, ?_, fun report hr => hkept report (hs.reports_subset report hr),
      ?_, ?_⟩
    · intro other hother
      rw [hflight] at hother
      exact hs.inFlight_subset other (List.mem_of_mem_erase hother)
    · intro other hother
      rcases hs.ended other hother with hout | hended
      · by_cases hsame : other = task
        · rw [hreports, hsame, hs.firstChunk_eq]
          exact Or.inr (List.mem_append_right _ List.mem_cons_self)
        · rw [hflight]
          exact Or.inl ((List.mem_erase_of_ne hsame).mpr hout)
      · exact Or.inr (hkept _ hended)
    · intro c status hreport
      rw [hreports] at hreport
      rcases List.mem_append.mp hreport with hold | hnew
      · exact hs.reported c status hold
      · rw [List.mem_singleton] at hnew
        obtain ⟨rfl, rfl⟩ := HashReport.completed.inj hnew
        exact Or.inr rfl
  | stateChanged next =>
    obtain ⟨hflight, hreports, ⟨hoff, hrest, hfirst, hreturned⟩, -⟩ := deliver_stateChanged h
    refine ⟨hoff.trans hs.off2_eq, hrest.trans hs.rest_eq, hfirst.trans hs.firstChunk_eq,
      hreturned.trans hs.returned_eq, ?_, ?_, ?_, ?_⟩
    · rw [hflight]
      exact hs.inFlight_subset
    · rw [hreports]
      exact hs.reports_subset
    · rw [hflight, hreports]
      exact hs.ended
    · rw [hreports]
      exact hs.reported

/-- A wait that is over: no task is in flight any more, if the resources were set
for those that were. -/
theorem waited_of_progressLoop {calls : List (List ShaEvent)} {s t : HashRun srcSize dstSize}
    (hs : s.inFlight ≠ [] → s.latch.Waits s.inFlight.length) (hstop : s.stopPending = false)
    (h : progressLoop (fun s => s.batch.engine.latch.running) (deliver device answers) calls s =
      some t) : Waited answers s t ∧ t.inFlight = [] ∧ t.stopPending = false := by
  obtain ⟨hdown, k, hrun⟩ := run_of_progressLoop h
  refine ⟨run_inv (Waited answers s) (fun _ _ _ hs hone => hs.deliver hone) hrun (Waited.refl s), ?_⟩
  by_cases hnil : s.inFlight = []
  · -- nothing was submitted, and only changes of the context are delivered
    refine run_inv (fun s => s.inFlight = [] ∧ s.stopPending = false) ?_ hrun ⟨hnil, hstop⟩
    rintro r e r' ⟨hflight, hquiet⟩ hone
    cases e with
    | task task =>
      obtain ⟨hmem, -⟩ := deliver_task hone
      rw [hflight] at hmem
      cases hmem
    | stateChanged next =>
      obtain ⟨hflight', -, -, hlatch⟩ := deliver_stateChanged hone
      refine ⟨hflight'.trans hflight, ?_⟩
      rcases hlatch with hsame | ⟨-, hidle⟩
      · have hstops : r'.stopPending = r.stopPending := congrArg StopLatch.stopPending hsame
        rw [hstops, hquiet]
      · exact congrArg StopLatch.stopPending hidle
  · have hwaits : t.latch.Waits t.inFlight.length :=
      run_inv (fun s => s.latch.Waits s.inFlight.length)
        (fun _ _ _ hs hone => (deliver_handles hone).waits hs) hrun (hs hnil)
    obtain ⟨hzero, hquiet⟩ := hwaits.running_iff.mp hdown
    exact ⟨List.eq_nil_of_length_eq_zero hzero, hquiet⟩

/-! ## Passes -/

/-- The state between two passes: the chunks so far have been submitted, and their
tasks have ended. -/
structure Progressed (answers : ShaAnswers) (count : Nat) (s : HashRun srcSize dstSize) :
    Prop where
  rest_eq : s.batch.restChunkNum = (count : Int) - s.batch.off2
  inFlight_eq : s.inFlight = []
  stopPending_eq : s.stopPending = false
  hashed : ∀ c, c < s.batch.off2 →
    .submitted c ∈ s.reports ∧ .completed c (answers.status c) ∈ s.reports
  reported : ∀ c status, .completed c status ∈ s.reports → status = answers.status c

/-- The resources are set for the tasks of the batch. -/
theorem waits_armBatch {n : Int} (hpos : 0 < n.toNat) (hlt : n < 2 ^ 31)
    {s : HashRun srcSize dstSize} (hlatch : s.batch.engine.latch = Latch.arm (UInt64.ofInt n))
    (hstop : s.stopPending = false) : s.latch.Waits n.toNat := by
  have hcount : (UInt64.ofInt n).toNat = n.toNat := by
    rw [UInt64.ofInt, UInt64.toNat_ofNat']
    omega
  have hlatch' : s.latch = StopLatch.arm (UInt64.ofInt n) := by
    rw [HashRun.latch, hlatch, hstop]
    rfl
  have hwaits := StopLatch.waits_arm (hcount.symm ▸ hpos)
  rw [hcount] at hwaits
  rw [hlatch']
  exact hwaits

/-- After the wait for the next `n` chunks. -/
theorem progressed_of_waited {n count : Nat} {s r u w : HashRun srcSize dstSize}
    (hs : Progressed answers count s) (hfirst : r.firstChunk = s.batch.off2)
    (hoff : r.batch.off2 = s.batch.off2 + n)
    (hrest : r.batch.restChunkNum = s.batch.restChunkNum - n) (hflight : r.inFlight = [])
    (hreports : r.reports = s.reports) (hu : Submitted n 0 r u) (hw : Waited answers u w)
    (hnil : w.inFlight = []) (hstop : w.stopPending = false) : Progressed answers count w := by
  have huFlight : u.inFlight = List.range' 0 n := by
    rw [hu.inFlight_eq, hflight, List.nil_append]
  have huFirst : u.firstChunk = s.batch.off2 := hu.firstChunk_eq.trans hfirst
  have huReports : u.reports = s.reports ++
      (List.range' 0 n).map fun task => .submitted (s.batch.off2 + task) := by
    rw [hu.reports_eq, hreports, hfirst]
  have hold : ∀ report ∈ s.reports, report ∈ w.reports := by
    intro report hreport
    apply hw.reports_subset
    rw [huReports]
    exact List.mem_append_left _ hreport
  refine ⟨?_, hnil, hstop, ?_, ?_⟩
  · have hsRest := hs.rest_eq
    rw [hw.rest_eq, hu.rest_eq, hrest, hw.off2_eq, hu.off2_eq, hoff]
    omega
  · intro c hc
    rw [hw.off2_eq, hu.off2_eq, hoff] at hc
    by_cases hbefore : c < s.batch.off2
    · obtain ⟨hsubmitted, hcompleted⟩ := hs.hashed c hbefore
      exact ⟨hold _ hsubmitted, hold _ hcompleted⟩
    · -- chunk `c` is that of task `c - off2` of this batch
      have hchunk : s.batch.off2 + (c - s.batch.off2) = c := by omega
      have htask : c - s.batch.off2 ∈ List.range' 0 n := by
        rw [List.mem_range'_1]
        omega
      constructor
      · apply hw.reports_subset
        rw [huReports]
        refine List.mem_append_right _ (List.mem_map.mpr ⟨c - s.batch.off2, htask, ?_⟩)
        rw [hchunk]
      · rw [← huFlight] at htask
        rcases hw.ended _ htask with hout | hended
        · rw [hnil] at hout
          cases hout
        · rw [huFirst, hchunk] at hended
          exact hended
  · intro c status hreport
    rcases hw.reported c status hreport with hsubmit | hnew
    · rw [huReports] at hsubmit
      rcases List.mem_append.mp hsubmit with hsame | hmap
      · exact hs.reported c status hsame
      · obtain ⟨_, _, habsurd⟩ := List.mem_map.mp hmap
        cases habsurd
    · exact hnew

theorem nowBatchOf_lt (batchSize : Int32) (rest : Int) : nowBatchOf batchSize rest < 2 ^ 31 := by
  have hlt := batchSize.toInt_lt
  unfold nowBatchOf
  split
  · exact hlt
  · omega

/-- One pass: a submission is refused and the function returns, or the next chunks
have been submitted and their tasks have ended. -/
theorem statusPass_progressed {s t : HashRun srcSize dstSize}
    (hs : Progressed answers chunks.length s) (hreturned : s.returned = none)
    (h : statusPass device answers data chunks batchSize s = some t) :
    (∃ error, error ≠ .success ∧ t.returned = some error) ∨
      t.returned = none ∧ Progressed answers chunks.length t := by
  unfold statusPass at h
  simp only at h
  split at h
  · cases h
  · rename_i batch hmove
    obtain ⟨hoff, hrest, hlatch⟩ := moveLoop_counts hmove
    split at h
    · cases h
    · rename_i u hsubmit
      rcases submitBatch_spec hsubmit with ⟨error, hne, herror⟩ | hu
      · rw [herror] at h
        cases h
        exact Or.inl ⟨error, hne, herror⟩
      · have huReturned : u.returned = none := hu.returned_eq.trans hreturned
        rw [huReturned] at h
        simp only [Option.isSome_none, Bool.false_eq_true, if_false] at h
        split at h
        · cases h
        · rename_i w hwait
          have hlength : u.inFlight.length = (nowBatchOf batchSize s.batch.restChunkNum).toNat := by
            rw [hu.inFlight_eq, List.length_append, List.length_range']
            show s.inFlight.length + _ = _
            rw [hs.inFlight_eq, List.length_nil, Nat.zero_add]
          have huStop : u.stopPending = false := hu.stopPending_eq.trans hs.stopPending_eq
          obtain ⟨hw, hnil, hstop⟩ := waited_of_progressLoop (fun hne => by
            rw [hlength]
            exact waits_armBatch (hlength ▸ List.length_pos_iff.mpr hne)
              (nowBatchOf_lt batchSize _) (hu.latch_eq.trans hlatch) huStop) huStop hwait
          obtain ⟨hwRest, hwFlight, hwStop, hwHashed, hwReported⟩ := progressed_of_waited
            (r := { armBatch (nowBatchOf batchSize s.batch.restChunkNum) s with batch := batch })
            hs rfl hoff hrest hs.inFlight_eq rfl hu hw hnil hstop
          cases h
          exact Or.inr ⟨hw.returned_eq.trans huReturned, hwRest, hwFlight, hwStop, hwHashed,
            hwReported⟩

theorem progressed_hashStart (device : ShaDevice) (answers : ShaAnswers)
    (chunks : List (Int × Int)) (batchSize : Int32) (srcBuffer : Buffer UInt8 srcSize)
    (dstBuffer : Buffer UInt8 dstSize) :
    Progressed answers chunks.length (hashStart device chunks batchSize srcBuffer dstBuffer) where
  rest_eq := by
    show (chunks.length : Int) = (chunks.length : Int) - (0 : Nat)
    omega
  inFlight_eq := rfl
  stopPending_eq := rfl
  hashed c h := absurd h (Nat.not_lt_zero c)
  reported _ _ h := by cases h

/-- The loop: where it has ended without a `return`, all chunks have been submitted
and their tasks have ended. -/
theorem progressed_of_loopEnds {srcBuffer : Buffer UInt8 srcSize}
    {dstBuffer : Buffer UInt8 dstSize} {t : HashRun srcSize dstSize}
    (h : StatusLoopEnds device answers data chunks batchSize
      (hashStart device chunks batchSize srcBuffer dstBuffer) t)
    (hreturned : t.returned.getD .success = .success) :
    Progressed answers chunks.length t ∧ t.batch.off2 = chunks.length := by
  have hpass : ∀ s s' : HashRun srcSize dstSize,
      (∃ error, error ≠ .success ∧ s.returned = some error) ∨
        s.returned = none ∧ Progressed answers chunks.length s →
      (s.batch.restChunkNum != 0 && s.returned.isNone) = true →
      statusPass device answers data chunks batchSize s = some s' →
      (∃ error, error ≠ .success ∧ s'.returned = some error) ∨
        s'.returned = none ∧ Progressed answers chunks.length s' := by
    intro s s' hs hcond hbody
    rcases hs with ⟨error, -, herror⟩ | ⟨hnone, hs⟩
    · simp [herror] at hcond
    · exact statusPass_progressed hs hnone hbody
  obtain ⟨⟨error, hne, herror⟩ | ⟨hnone, ht⟩, hend⟩ := LoopEnds.inv _ hpass h
    (Or.inr ⟨rfl, progressed_hashStart device answers chunks batchSize srcBuffer dstBuffer⟩)
  · rw [herror] at hreturned
    exact absurd hreturned hne
  · refine ⟨ht, ?_⟩
    rw [hnone] at hend
    have hzero : t.batch.restChunkNum = 0 := by
      simpa using hend
    have hrest := ht.rest_eq
    omega

end

/-! ## The whole function -/

/-- There are chunks if there are data. -/
theorem chunksOf_eq_nil_iff {avg : Nat} {data : List UInt8} {chunks : List (Int × Int)}
    (h : ChunksOf avg data chunks) : chunks = [] ↔ data = [] := by
  obtain ⟨fuel, st, hrun, rfl⟩ := h
  have hends : LoopEnds (fun st : ChunkState => st.restSize != 0)
      (fun st => some (chunkStep (cdcSizes avg) data st)) (chunkStart data) st := ⟨fuel, hrun⟩
  constructor
  · intro hnil
    -- a state that has not moved on has no chunks, and any other has
    have hstep : ∀ s s' : ChunkState, s.chunks ≠ [] ∨ s = chunkStart data →
        (s.restSize != 0) = true → some (chunkStep (cdcSizes avg) data s) = some s' →
        s'.chunks ≠ [] ∨ s' = chunkStart data := by
      intro s s' _ _ hbody
      cases hbody
      exact Or.inl (List.append_ne_nil_of_right_ne_nil _ (List.cons_ne_nil _ _))
    obtain ⟨hmoved, hend⟩ := hends.inv _ hstep (Or.inr rfl)
    rcases hmoved with hne | rfl
    · exact absurd hnil hne
    · simpa [chunkStart] using hend
  · rintro rfl
    have hstart : st = chunkStart [] := (loopEnds_of_false rfl).mp hends
    rw [hstart]
    rfl

/-- For a call that returns `DOCA_SUCCESS`: every chunk was submitted to a task
that completed with `DOCA_SUCCESS` if and only if no task fails, or, where the
source buffer is too long for the device, there are no data. -/
theorem hashesAll_iff {device : ShaDevice} {answers : ShaAnswers} {data : List UInt8}
    {batchSize : Int32} {avg : Nat}
    {srcBuffer : Buffer UInt8 ((cdcSizes avg).maxChunkSize * batchSize.toInt.toNat)}
    {dstBuffer : Buffer UInt8 (device.minDstSize * batchSize.toInt.toNat)}
    {chunks : List (Int × Int)} {reports : List HashReport} (hchunks : ChunksOf avg data chunks)
    (h : ShaCreateCDC device answers data batchSize avg srcBuffer dstBuffer .success reports) :
    HashesAll chunks.length reports ↔
      if SourceTooLong answers avg batchSize then data = []
      else ∀ c, c < chunks.length → answers.status c = .success := by
  unfold ShaCreateCDC at h
  have herror : ∀ {statuses : List DocaStatus} {error : DocaStatus},
      firstError statuses = some error → error ≠ .success := by
    intro statuses error hfirst
    simpa using List.find?_some hfirst
  split at h
  · rename_i error hfirst
    exact absurd h.1.symm (herror hfirst)
  · by_cases hlong : SourceTooLong answers avg batchSize
    · rw [if_pos hlong] at h ⊢
      rw [h.2, ← chunksOf_eq_nil_iff hchunks]
      constructor
      · intro hall
        refine List.eq_nil_of_length_eq_zero (Nat.eq_zero_of_not_pos ?_)
        intro hpos
        cases (hall 0 hpos).1
      · rintro rfl c hc
        cases hc
    · rw [if_neg hlong] at h ⊢
      split at h
      · rename_i error hfirst
        exact absurd h.1.symm (herror hfirst)
      · obtain ⟨chunks', t, hchunks', hends, hstatus, rfl⟩ := h
        cases hchunks.unique hchunks'
        obtain ⟨ht, hoff⟩ := progressed_of_loopEnds hends hstatus.symm
        constructor
        · intro hall c hc
          exact (ht.reported c .success (hall c hc).2).symm
        · intro hall c hc
          rw [← hoff] at hc
          obtain ⟨hsubmitted, hcompleted⟩ := ht.hashed c hc
          rw [hoff] at hc
          rw [hall c hc] at hcompleted
          exact ⟨hsubmitted, hcompleted⟩

/-- A device that answers everything with success, that takes source buffers of 64
bytes, and that ends every task with `status`. -/
def oneTaskAnswers (status : DocaStatus) : ShaAnswers where
  opening := [.success, .success]
  maxSourceBufferSize := 64
  setup := List.replicate 12 .success
  submit _ := .success
  status _ := status
  progress _ := [[.task 0], [], [.stateChanged .idle]]

/-- One byte is one chunk. -/
theorem chunksOf_oneByte : ChunksOf 4 [97] [(0, 1)] := ⟨1, _, rfl, rfl⟩

def oneByteSource : Buffer UInt8 ((cdcSizes 4).maxChunkSize * (1 : Int32).toInt.toNat) := .zeroed _

def oneByteDigest : Buffer UInt8 (firstTwenty.minDstSize * (1 : Int32).toInt.toNat) := .zeroed _

/-- The task succeeds. -/
theorem hashesAll_oneByte : ∃ reports, ShaCreateCDC firstTwenty (oneTaskAnswers .success) [97] 1 4
    oneByteSource oneByteDigest .success reports ∧ HashesAll 1 reports := by
  have h : ShaCreateCDC firstTwenty (oneTaskAnswers .success) [97] 1 4 oneByteSource oneByteDigest
      .success [.submitted 0, .completed 0 .success] :=
    ⟨_, _, chunksOf_oneByte, ⟨1, rfl⟩, rfl, rfl⟩
  exact ⟨_, h, (hashesAll_iff chunksOf_oneByte h).mpr fun _ _ => rfl⟩

/-- The task fails, the context stops, and `sha_create_CDC` returns
`DOCA_SUCCESS`. -/
theorem not_hashesAll_failed : ¬ ∀ device answers data batchSize avg srcBuffer dstBuffer chunks
    reports, ChunksOf avg data chunks →
      ShaCreateCDC device answers data batchSize avg srcBuffer dstBuffer .success reports →
      HashesAll chunks.length reports := by
  intro h
  have hall := h firstTwenty (oneTaskAnswers (.other 5)) [97] 1 4 oneByteSource oneByteDigest _
    [.submitted 0, .completed 0 (.other 5)] chunksOf_oneByte
    ⟨_, _, chunksOf_oneByte, ⟨1, rfl⟩, rfl, rfl⟩
  exact absurd (hall 0 (Nat.one_pos)).2 (by decide)

end DpuTest.Sha
