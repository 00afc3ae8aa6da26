import DpuTest.Compress.WaitLoop
import DpuTest.ReadBench.DocaDecompress

/-!
# The life of the decompress task

A session of the reader of the benchmark is `doca_decompressor_init`, a number of
calls of `doca_decompress_one`, of which the first that fails is the last, and
`doca_decompressor_destroy`.  The local decompressor has the same session.  All
calls submit one task, which `init` allocates and `destroy` frees.  The error
callback of `compress_common.c` frees it too.

The answers of the SDK and what the device delivers are inputs here.  A session
records what happens to the task.  `wait_oneTask` is the wait for it,
`decompressOne_spec` one call, and `freedOnce_iff` says when the task of a
session is freed once: when no task that is submitted fails.

`inflaterCall` is the call as an `Inflater` answers it.  `decompressOne_inflaterCall`
says that it returns what `inflateOne` returns, and `freedOnce_of_decodes` that a
session over streams that the device can read is in order.
-/

namespace DpuTest.ReadBench

open Lib Compress

/-- What happens to the task. -/
inductive TaskOp where
  | alloc
  | submit
  | free
  deriving DecidableEq

/-- `struct doca_decompressor`: its capacity and whether `task` is set, with the
history of the task. -/
structure TaskSession where
  srcCapacity : Nat
  task : Bool
  trace : List TaskOp

/-- What the system answers during `doca_decompressor_init`. -/
structure InitAnswers where
  /-- `posix_memalign`, both times -/
  memory : Bool
  /-- `allocate_compress_resources` -/
  resources : DocaStatus
  maxBufferSize : DocaStatus × Nat
  /-- `doca_ctx_start`, and what sets up the two maps and the two buffers -/
  setup : List DocaStatus
  /-- `doca_compress_task_decompress_deflate_alloc_init` -/
  allocInit : DocaStatus

/-- `doca_decompressor_init` returns 0. -/
def InitAnswers.Ok (answers : InitAnswers) (srcCapacity dstCapacity : Nat) : Prop :=
  answers.memory = true ∧ answers.resources = .success ∧
    (answers.maxBufferSize.1 = .success ∧ srcCapacity ≤ answers.maxBufferSize.2 ∧
      dstCapacity ≤ answers.maxBufferSize.2) ∧
    (∀ status ∈ answers.setup, status = .success) ∧ answers.allocInit = .success

instance (answers : InitAnswers) (srcCapacity dstCapacity : Nat) :
    Decidable (answers.Ok srcCapacity dstCapacity) :=
  inferInstanceAs (Decidable (_ ∧ _))

/-- A call of `doca_decompress_one`: the size of the stream, what the SDK answers,
and what each turn of the wait delivers. -/
structure FrameCall where
  compressedSize : Nat
  bufSetData : DocaStatus
  bufResetDataLen : DocaStatus
  submit : DocaStatus
  progress : List (List ProgressEvent)
  bufGetDataLen : DocaStatus

/-- The task has been submitted, with `task_result` cleared and the resources set
for one task. -/
def oneTask : BatchWait where
  resources := Latch.arm 1
  taskResultBatch _ := { status := .success, crcCs := 0, adlerCs := 0 }
  inFlight := [0]
  freed := []
  stopPending := false

/-- `doca_decompressor_init`. -/
def docaDecompressorInit (answers : InitAnswers) (srcCapacity dstCapacity : Nat) :
    Bool × TaskSession :=
  if answers.Ok srcCapacity dstCapacity then
    (true, { srcCapacity := srcCapacity, task := true, trace := [.alloc] })
  else (false, { srcCapacity := srcCapacity, task := false, trace := [] })

/-- The common text of `doca_decompress_one` and `decompress_frame`, as far as
the task goes.  `none` is a wait that does not end. -/
def decompressOne (call : FrameCall) (s : TaskSession) : Option (Bool × TaskSession) :=
  if call.compressedSize < ZLIB_COMPATIBILITY_ADDITIONAL_MEMORY ∨
      call.compressedSize > s.srcCapacity then some (false, s)
  else if call.bufSetData ≠ .success then some (false, s)
  else if call.bufResetDataLen ≠ .success then some (false, s)
  else
    let s := { s with trace := s.trace ++ [.submit] }
    if call.submit ≠ .success then some (false, s)
    else
      match progressLoop (fun s => s.resources.running) (deliver .decompressDeflate)
          call.progress oneTask with
      | none => none
      | some wait =>
        let s := { s with trace := s.trace ++ wait.freed.map fun _ => .free }
        if (wait.taskResultBatch 0).status ≠ .success then some (false, s)
        else if call.bufGetDataLen ≠ .success then some (false, s)
        else some (true, s)

/-- The calls of a session, up to the first that fails. -/
def decompressCalls : List FrameCall → TaskSession → Option TaskSession
  | [], s => some s
  | call :: calls, s =>
    match decompressOne call s with
    | none => none
    | some (true, s) => decompressCalls calls s
    | some (false, s) => some s

/-- The common text of `doca_decompressor_destroy` and `decompressor_destroy`. -/
def decompressorDestroy (s : TaskSession) : TaskSession :=
  if s.task then { s with trace := s.trace ++ [.free] } else s

/-- `ceph_doca_read_bench.c` and `doca_local_decompress.c`. -/
inductive Program where
  | readBench
  | localDecompress

/-- A session.  After a failed `init` the local decompressor calls `destroy`, and
the benchmark does not. -/
def session (program : Program) (answers : InitAnswers) (srcCapacity dstCapacity : Nat)
    (calls : List FrameCall) : Option TaskSession :=
  match docaDecompressorInit answers srcCapacity dstCapacity with
  | (true, s) => (decompressCalls calls s).map decompressorDestroy
  | (false, s) =>
    match program with
    | .readBench => some s
    | .localDecompress => some (decompressorDestroy s)

/-- A task that is allocated is freed once, and neither submitted nor freed after
that. -/
def FreedOnce (trace : List TaskOp) : Prop :=
  .alloc ∈ trace → trace.count .free = 1 ∧
    trace.Pairwise fun earlier later => earlier = .free → later ≠ .submit ∧ later ≠ .free

/-! ## What happens in a call -/

/-- The report of the task is the first that is delivered. -/
def firstReport : List ProgressEvent → Option TaskReport
  | [] => none
  | .task _ report :: _ => some report
  | .stateChanged _ :: events => firstReport events

/-- The call comes to `doca_task_submit`. -/
def FrameCall.Submits (call : FrameCall) (srcCapacity : Nat) : Prop :=
  ¬ (call.compressedSize < ZLIB_COMPATIBILITY_ADDITIONAL_MEMORY ∨
      call.compressedSize > srcCapacity) ∧
    call.bufSetData = .success ∧ call.bufResetDataLen = .success

/-- The task is submitted and fails. -/
def FrameCall.TaskFails (call : FrameCall) (srcCapacity : Nat) : Prop :=
  call.Submits srcCapacity ∧ call.submit = .success ∧
    ∃ report, firstReport call.progress.flatten = some report ∧ report.status ≠ .success

/-- The call returns 0. -/
def FrameCall.Succeeds (call : FrameCall) (srcCapacity : Nat) : Prop :=
  call.Submits srcCapacity ∧ call.submit = .success ∧
    (∃ report, firstReport call.progress.flatten = some report ∧ report.status = .success) ∧
    call.bufGetDataLen = .success

/-- No call that is reached has its task fail. -/
def NoTaskFails (srcCapacity : Nat) : List FrameCall → Prop
  | [] => True
  | call :: calls =>
    ¬ call.TaskFails srcCapacity ∧ (call.Succeeds srcCapacity → NoTaskFails srcCapacity calls)

/-! ## The wait for one task -/

theorem firstReport_append (events later : List ProgressEvent) :
    firstReport (events ++ later) = (firstReport events).or (firstReport later) := by
  induction events with
  | nil => rfl
  | cons e events ih =>
    cases e with
    | task task report => rfl
    | stateChanged next => exact ih

/-- The task has reported: it has been freed if it failed, and its status is in
`task_result`. -/
structure Reported (report : TaskReport) (s : BatchWait) : Prop where
  inFlight_eq : s.inFlight = []
  freed_eq : s.freed = if report.status = .success then [] else [0]
  status_eq : (s.taskResultBatch 0).status = report.status

/-- The callback of the task. -/
theorem reported_of_deliver {task : Nat} {report : TaskReport} {s : BatchWait}
    (h : deliver .decompressDeflate oneTask (.task task report) = some s) : Reported report s := by
  obtain ⟨hmem, hflight, -⟩ := deliver_task h
  have htask : task = 0 := List.mem_singleton.mp hmem
  subst htask
  simp only [deliver, if_pos hmem, taskCallback_eq, Option.some.injEq] at h
  refine ⟨hflight, ?_, ?_⟩
  · rw [← h]
    by_cases hstatus : report.status = .success
    · rw [if_pos hstatus, if_pos hstatus]
      rfl
    · rw [if_neg hstatus, if_neg hstatus]
      rfl
  · rw [← h]
    by_cases hstatus : report.status = .success
    · rw [if_pos hstatus, hstatus]
      rfl
    · rw [if_neg hstatus]
      rfl

/-- Nothing is in flight any more, so the rest are changes of the context. -/
theorem Reported.deliver {report : TaskReport} {s t : BatchWait} (hs : Reported report s)
    {e : ProgressEvent} (h : Compress.deliver .decompressDeflate s e = some t) :
    Reported report t := by
  cases e with
  | task task report' =>
    obtain ⟨hmem, -, -⟩ := deliver_task h
    rw [hs.inFlight_eq] at hmem
    cases hmem
  | stateChanged next =>
    have hinFlight := hs.inFlight_eq
    cases next with
    | idle =>
      simp only [Compress.deliver, if_pos hinFlight, Option.some.injEq] at h
      subst h
      exact ⟨hs.inFlight_eq, hs.freed_eq, hs.status_eq⟩
    | starting =>
      cases h
      exact ⟨hs.inFlight_eq, hs.freed_eq, hs.status_eq⟩
    | running =>
      cases h
      exact ⟨hs.inFlight_eq, hs.freed_eq, hs.status_eq⟩
    | stopping =>
      cases h
      exact ⟨hs.inFlight_eq, hs.freed_eq, hs.status_eq⟩

/-- Before the report nothing changes. -/
theorem run_oneTask {events : List ProgressEvent} {s : BatchWait}
    (h : run (deliver .decompressDeflate) events oneTask = some s) :
    s = oneTask ∨ ∃ report, firstReport events = some report ∧ Reported report s := by
  induction events with
  | nil =>
    cases h
    exact Or.inl rfl
  | cons e events ih =>
    obtain ⟨s', hone, hrest⟩ := exists_of_run_cons h
    cases e with
    | task task report =>
      exact Or.inr ⟨report, rfl, run_inv (Reported report) (fun _ _ _ hs h => hs.deliver h) hrest
        (reported_of_deliver hone)⟩
    | stateChanged next =>
      cases next with
      | idle => cases hone
      | starting =>
        cases hone
        exact ih hrest
      | running =>
        cases hone
        exact ih hrest
      | stopping =>
        cases hone
        exact ih hrest

/-- The wait is over when the task has reported. -/
theorem wait_oneTask {calls : List (List ProgressEvent)} {s : BatchWait}
    (h : progressLoop (fun s => s.resources.running) (deliver .decompressDeflate) calls oneTask =
      some s) :
    ∃ report, firstReport calls.flatten = some report ∧ Reported report s := by
  obtain ⟨hdown, k, hrun⟩ := run_of_progressLoop h
  rcases run_oneTask hrun with rfl | ⟨report, hfirst, hreported⟩
  · cases hdown
  · refine ⟨report, ?_, hreported⟩
    rw [← List.take_append_drop k calls, List.flatten_append, firstReport_append, hfirst]
    rfl

/-! ## One call -/

/-- The session after more has happened to the task. -/
def TaskSession.also (s : TaskSession) (ops : List TaskOp) : TaskSession :=
  { s with trace := s.trace ++ ops }

theorem TaskSession.also_nil (s : TaskSession) : s.also [] = s := by
  show { s with trace := s.trace ++ [] } = s
  rw [List.append_nil]

theorem TaskSession.also_also (s : TaskSession) (ops ops' : List TaskOp) :
    (s.also ops).also ops' = s.also (ops ++ ops') := by
  show { s with trace := s.trace ++ ops ++ ops' } = s.also (ops ++ ops')
  rw [List.append_assoc]
  rfl

section

variable {call : FrameCall} {s t : TaskSession}

theorem decompressOne_of_not_submits (h : ¬ call.Submits s.srcCapacity) :
    decompressOne call s = some (false, s) := by
  unfold decompressOne
  split
  · rfl
  · rename_i hsize
    split
    · rfl
    · rename_i hset
      split
      · rfl
      · rename_i hreset
        exact absurd ⟨hsize, not_not.mp hset, not_not.mp hreset⟩ h

theorem decompressOne_of_submits (h : call.Submits s.srcCapacity) :
    decompressOne call s =
      if call.submit ≠ .success then some (false, s.also [.submit])
      else
        match progressLoop (fun s => s.resources.running) (deliver .decompressDeflate)
            call.progress oneTask with
        | none => none
        | some wait =>
          let s := (s.also [.submit]).also (wait.freed.map fun _ => .free)
          if (wait.taskResultBatch 0).status ≠ .success then some (false, s)
          else if call.bufGetDataLen ≠ .success then some (false, s)
          else some (true, s) := by
  obtain ⟨hsize, hset, hreset⟩ := h
  rw [decompressOne, if_neg hsize, if_neg (not_not.mpr hset), if_neg (not_not.mpr hreset)]
  rfl

/-- The task fails or succeeds as it reports. -/
theorem taskFails_iff_of_report {srcCapacity : Nat} {report : TaskReport}
    (hsubmits : call.Submits srcCapacity) (hsubmit : call.submit = .success)
    (hfirst : firstReport call.progress.flatten = some report) :
    call.TaskFails srcCapacity ↔ report.status ≠ .success := by
  constructor
  · rintro ⟨-, -, report', hfirst', hstatus⟩
    rw [hfirst] at hfirst'
    cases hfirst'
    exact hstatus
  · intro hstatus
    exact ⟨hsubmits, hsubmit, report, hfirst, hstatus⟩

theorem succeeds_iff_of_report {srcCapacity : Nat} {report : TaskReport}
    (hsubmits : call.Submits srcCapacity) (hsubmit : call.submit = .success)
    (hfirst : firstReport call.progress.flatten = some report) :
    call.Succeeds srcCapacity ↔ report.status = .success ∧ call.bufGetDataLen = .success := by
  constructor
  · rintro ⟨-, -, ⟨report', hfirst', hstatus⟩, hlen⟩
    rw [hfirst] at hfirst'
    cases hfirst'
    exact ⟨hstatus, hlen⟩
  · rintro ⟨hstatus, hlen⟩
    exact ⟨hsubmits, hsubmit, ⟨report, hfirst, hstatus⟩, hlen⟩

/-- A call whose task fails does not return 0. -/
theorem FrameCall.TaskFails.not_succeeds {srcCapacity : Nat} (h : call.TaskFails srcCapacity) :
    ¬ call.Succeeds srcCapacity := by
  obtain ⟨hsubmits, hsubmit, report, hfirst, hstatus⟩ := h
  rw [succeeds_iff_of_report hsubmits hsubmit hfirst]
  exact fun hs => hstatus hs.1

/-- A call whose task is submitted: the report says what it returns, and whether the
callback has freed the task. -/
theorem decompressOne_of_submitted {ok : Bool} (hsubmits : call.Submits s.srcCapacity)
    (hsubmit : call.submit = .success) (h : decompressOne call s = some (ok, t)) :
    ∃ report, firstReport call.progress.flatten = some report ∧
      (ok = true ↔ report.status = .success ∧ call.bufGetDataLen = .success) ∧
      t = s.also (if report.status = .success then [.submit] else [.submit, .free]) := by
  rw [decompressOne_of_submits hsubmits, if_neg (not_not.mpr hsubmit)] at h
  split at h
  · cases h
  · rename_i wait hwait
    obtain ⟨report, hfirst, hreported⟩ := wait_oneTask hwait
    simp only [hreported.status_eq, hreported.freed_eq, TaskSession.also_also] at h
    refine ⟨report, hfirst, ?_⟩
    by_cases hstatus : report.status = .success
    · rw [if_neg (not_not.mpr hstatus), if_pos hstatus] at h
      rw [if_pos hstatus]
      by_cases hlen : call.bufGetDataLen = .success
      · rw [if_neg (not_not.mpr hlen)] at h
        cases h
        exact ⟨iff_of_true rfl ⟨hstatus, hlen⟩, rfl⟩
      · rw [if_pos hlen] at h
        cases h
        exact ⟨iff_of_false Bool.false_ne_true (fun hs => hlen hs.2), rfl⟩
    · rw [if_pos hstatus, if_neg hstatus] at h
      rw [if_neg hstatus]
      cases h
      exact ⟨iff_of_false Bool.false_ne_true (fun hs => hstatus hs.1), rfl⟩

/-- A call submits the task at most once.  If it fails the task is free after the
call, and the call is the last. -/
theorem decompressOne_spec {ok : Bool} (h : decompressOne call s = some (ok, t)) :
    (ok = true ↔ call.Succeeds s.srcCapacity) ∧
      (call.TaskFails s.srcCapacity ∧ t = s.also [.submit, .free] ∨
        ¬ call.TaskFails s.srcCapacity ∧ ∃ k, t = s.also (List.replicate k .submit)) := by
  by_cases hsubmits : call.Submits s.srcCapacity
  · by_cases hsubmit : call.submit = .success
    · obtain ⟨report, hfirst, hok, rfl⟩ := decompressOne_of_submitted hsubmits hsubmit h
      rw [taskFails_iff_of_report hsubmits hsubmit hfirst,
        succeeds_iff_of_report hsubmits hsubmit hfirst]
      refine ⟨hok, ?_⟩
      by_cases hstatus : report.status = .success
      · rw [if_pos hstatus]
        exact Or.inr ⟨not_not.mpr hstatus, 1, rfl⟩
      · rw [if_neg hstatus]
        exact Or.inl ⟨hstatus, rfl⟩
    · rw [decompressOne_of_submits hsubmits, if_pos hsubmit] at h
      cases h
      exact ⟨iff_of_false Bool.false_ne_true (fun hs => hsubmit hs.2.1),
        Or.inr ⟨fun hf => hsubmit hf.2.1, 1, rfl⟩⟩
  · rw [decompressOne_of_not_submits hsubmits] at h
    cases h
    exact ⟨iff_of_false Bool.false_ne_true (fun hs => hsubmits hs.1),
      Or.inr ⟨fun hf => hsubmits hf.1, 0, s.also_nil.symm⟩⟩

/-- All calls: the task is submitted a number of times, and freed at the end if it
has failed. -/
theorem decompressCalls_spec {calls : List FrameCall} (h : decompressCalls calls s = some t) :
    ∃ k, NoTaskFails s.srcCapacity calls ∧ t = s.also (List.replicate k .submit) ∨
      ¬ NoTaskFails s.srcCapacity calls ∧ t = s.also (List.replicate k .submit ++ [.free]) := by
  induction calls generalizing s with
  | nil =>
    cases h
    exact ⟨0, Or.inl ⟨trivial, (TaskSession.also_nil _).symm⟩⟩
  | cons call calls ih =>
    rw [decompressCalls] at h
    cases hone : decompressOne call s with
    | none =>
      rw [hone] at h
      cases h
    | some result =>
      obtain ⟨ok, u⟩ := result
      obtain ⟨hok, htask⟩ := decompressOne_spec hone
      rw [hone] at h
      rcases htask with ⟨hfails, rfl⟩ | ⟨hfine, k, rfl⟩
      · -- a failed task ends the session
        cases ok with
        | true => exact absurd (hok.mp rfl) hfails.not_succeeds
        | false =>
          cases h
          exact ⟨1, Or.inr ⟨fun hnone => hnone.1 hfails, rfl⟩⟩
      · cases ok with
        | true =>
          obtain ⟨k', hrest⟩ := ih h
          refine ⟨k + k', ?_⟩
          rcases hrest with ⟨hnone, rfl⟩ | ⟨hsome, rfl⟩
          · refine Or.inl ⟨⟨hfine, fun _ => hnone⟩, ?_⟩
            rw [TaskSession.also_also, List.replicate_append_replicate]
          · refine Or.inr ⟨fun hnone => hsome (hnone.2 (hok.mp rfl)), ?_⟩
            rw [TaskSession.also_also, ← List.append_assoc, List.replicate_append_replicate]
        | false =>
          cases h
          exact ⟨k, Or.inl ⟨⟨hfine, fun hs => absurd (hok.mpr hs) Bool.false_ne_true⟩, rfl⟩⟩

end

/-! ## Whole sessions -/

theorem freedOnce_of_submits (k : Nat) :
    FreedOnce (.alloc :: (List.replicate k .submit ++ [.free])) := by
  intro _
  constructor
  · simp [List.count_append, List.count_replicate]
  · rw [List.pairwise_cons, List.pairwise_append]
    refine ⟨?_, ?_, List.pairwise_singleton _ _, ?_⟩
    · intro _ _ halloc
      cases halloc
    · rw [List.pairwise_replicate]
      refine Or.inr ?_
      intro hsubmit
      cases hsubmit
    · intro earlier hearlier _ _ hfree
      rw [List.eq_of_mem_replicate hearlier] at hfree
      cases hfree

theorem not_freedOnce_of_freed (k : Nat) :
    ¬ FreedOnce (.alloc :: (List.replicate k .submit ++ [.free] ++ [.free])) := by
  intro h
  have hcount := (h List.mem_cons_self).1
  simp [List.count_append, List.count_replicate] at hcount

/-- What has happened to the task when a session ends: a task that has failed is
freed by the callback and by `destroy`. -/
theorem session_spec {program : Program} {answers : InitAnswers} {srcCapacity dstCapacity : Nat}
    {calls : List FrameCall} {s : TaskSession}
    (h : session program answers srcCapacity dstCapacity calls = some s) :
    (¬ answers.Ok srcCapacity dstCapacity ∧ s.trace = []) ∨
      ∃ k, NoTaskFails srcCapacity calls ∧
          s.trace = .alloc :: (List.replicate k .submit ++ [.free]) ∨
        answers.Ok srcCapacity dstCapacity ∧ ¬ NoTaskFails srcCapacity calls ∧
          s.trace = .alloc :: (List.replicate k .submit ++ [.free] ++ [.free]) := by
  by_cases hok : answers.Ok srcCapacity dstCapacity
  · simp only [session, docaDecompressorInit, if_pos hok] at h
    obtain ⟨u, hcalls, rfl⟩ := Option.map_eq_some_iff.mp h
    obtain ⟨k, ⟨hnone, rfl⟩ | ⟨hsome, rfl⟩⟩ := decompressCalls_spec hcalls
    · exact Or.inr ⟨k, Or.inl ⟨hnone, rfl⟩⟩
    · exact Or.inr ⟨k, Or.inr ⟨hok, hsome, rfl⟩⟩
  · refine Or.inl ⟨hok, ?_⟩
    simp only [session, docaDecompressorInit, if_neg hok] at h
    cases program with
    | readBench =>
      cases h
      rfl
    | localDecompress =>
      cases h
      rfl

/-- A task that is never allocated. -/
theorem freedOnce_nil : FreedOnce [] := by
  intro halloc
  cases halloc

/-- The task of a session is freed once, and left alone after that, if and only if
none of its submissions fails. -/
theorem freedOnce_iff (program : Program) {answers : InitAnswers} {srcCapacity dstCapacity : Nat}
    {calls : List FrameCall} {s : TaskSession}
    (h : session program answers srcCapacity dstCapacity calls = some s) :
    FreedOnce s.trace ↔ (answers.Ok srcCapacity dstCapacity → NoTaskFails srcCapacity calls) := by
  rcases session_spec h with ⟨hok, htrace⟩ | ⟨k, ⟨hnone, htrace⟩ | ⟨hok, hsome, htrace⟩⟩
  · rw [htrace]
    exact iff_of_true freedOnce_nil (fun h => absurd h hok)
  · rw [htrace]
    exact iff_of_true (freedOnce_of_submits k) (fun _ => hnone)
  · rw [htrace]
    exact iff_of_false (not_freedOnce_of_freed k) (fun hnone => hsome (hnone hok))

/-- Everything is available. -/
def readyAnswers : InitAnswers where
  memory := true
  resources := .success
  maxBufferSize := (.success, 2097152)
  setup := List.replicate 7 .success
  allocInit := .success

/-- A frame whose task ends with this status, and the context with it. -/
def frameCall (status : DocaStatus) : FrameCall where
  compressedSize := 20
  bufSetData := .success
  bufResetDataLen := .success
  submit := .success
  progress := [[.task 0 ⟨status, 0, 0⟩], [.stateChanged .idle]]
  bufGetDataLen := .success

theorem not_taskFails_frameCall (srcCapacity : Nat) :
    ¬ (frameCall .success).TaskFails srcCapacity := by
  rintro ⟨-, -, report, hfirst, hstatus⟩
  cases hfirst
  exact hstatus rfl

/-- Two frames. -/
theorem freedOnce_twoFrames : ∃ s,
    session .readBench readyAnswers 100 100 [frameCall .success, frameCall .success] = some s ∧
      FreedOnce s.trace := by
  have h : session .readBench readyAnswers 100 100
    [frameCall .success, frameCall .success] = some _ := rfl
  have hfine := not_taskFails_frameCall 100
  exact ⟨_, h, (freedOnce_iff .readBench h).mpr fun _ => ⟨hfine, fun _ => ⟨hfine, fun _ => trivial⟩⟩⟩

/-- A frame that is no deflate stream: the callback frees the task, and so does
`destroy`. -/
theorem not_freedOnce_badFrame : ¬ ∀ program answers srcCapacity dstCapacity calls s,
    session program answers srcCapacity dstCapacity calls = some s → FreedOnce s.trace := by
  intro h
  have hfreed := h .readBench readyAnswers 100 100 [frameCall (.other 5)] _ rfl
  exact absurd (hfreed List.mem_cons_self).1 (by decide)

/-! ## The device as a function -/

/-- The call of `inflateOne`: the SDK accepts everything, and the task ends as the
device has it end, in one turn of the wait. -/
def inflaterCall (device : Inflater) (code : Nat) (zlibData : List UInt8) : FrameCall where
  compressedSize := zlibData.length
  bufSetData := .success
  bufResetDataLen := .success
  submit := .success
  progress :=
    match device.inflate (deflateBody zlibData) with
    | some _ => [[.task 0 ⟨.success, 0, 0⟩]]
    | none => [[.task 0 ⟨.other code, 0, 0⟩, .stateChanged .idle]]
  bufGetDataLen := .success

/-- What a call of `inflateOne` does to the task. -/
def taskOpsOf {α : Type} : Except DocaError α → List TaskOp
  | .ok _ => [.submit]
  | .error .badSize => []
  | .error .taskFailed => [.submit, .free]
  | .error .neverEnds => [.submit]

section

variable {device : Inflater} {zlibData : List UInt8}

theorem submits_inflaterCall {srcCapacity : Nat} (code : Nat)
    (hsize : ¬ (zlibData.length < ZLIB_COMPATIBILITY_ADDITIONAL_MEMORY ∨
      zlibData.length > srcCapacity)) :
    (inflaterCall device code zlibData).Submits srcCapacity := ⟨hsize, rfl, rfl⟩

theorem progress_of_some {output : List UInt8} (code : Nat)
    (h : device.inflate (deflateBody zlibData) = some output) :
    (inflaterCall device code zlibData).progress = [[.task 0 ⟨.success, 0, 0⟩]] := by
  simp only [inflaterCall, h]

theorem progress_of_none (code : Nat) (h : device.inflate (deflateBody zlibData) = none) :
    (inflaterCall device code zlibData).progress =
      [[.task 0 ⟨.other code, 0, 0⟩, .stateChanged .idle]] := by
  simp only [inflaterCall, h]

/-- The two models of `doca_decompress_one` agree on what is returned. -/
theorem decompressOne_inflaterCall (code : Nat) (s : TaskSession)
    (d : DocaDecompressor s.srcCapacity) :
    decompressOne (inflaterCall device code zlibData) s =
      some ((inflateOne device d zlibData).isOk,
        s.also (taskOpsOf (inflateOne device d zlibData))) := by
  by_cases hsize : zlibData.length < ZLIB_COMPATIBILITY_ADDITIONAL_MEMORY ∨
      zlibData.length > s.srcCapacity
  · rw [inflateOne_badSize d hsize, decompressOne_of_not_submits (fun h => h.1 hsize)]
    exact congrArg (fun t => some (false, t)) s.also_nil.symm
  · rw [decompressOne_of_submits (submits_inflaterCall code hsize)]
    cases hdev : device.inflate (deflateBody zlibData) with
    | none =>
      rw [inflateOne_failed d (by omega) (by omega) hdev, progress_of_none code hdev]
      exact congrArg (fun t => some (false, t)) (s.also_also [.submit] [.free])
    | some output =>
      obtain ⟨d', hok, -⟩ := inflateOne_ok d (by omega) (by omega) hdev
      rw [hok, progress_of_some code hdev]
      exact congrArg (fun t => some (true, t)) (s.also_also [.submit] [])

/-- A stream that the device can read does not make its task fail. -/
theorem Decodes.not_taskFails {z : Zlib} {x : List UInt8} (h : Decodes z device x zlibData)
    (code srcCapacity : Nat) : ¬ (inflaterCall device code zlibData).TaskFails srcCapacity := by
  rintro ⟨-, -, report, hfirst, hstatus⟩
  rw [progress_of_some code h.inflate_eq] at hfirst
  cases hfirst
  exact hstatus rfl

theorem noTaskFails_of_decodes {z : Zlib} {streams : List (List UInt8)}
    (h : ∀ stream ∈ streams, ∃ x, Decodes z device x stream) (code srcCapacity : Nat) :
    NoTaskFails srcCapacity (streams.map (inflaterCall device code)) := by
  induction streams with
  | nil => trivial
  | cons stream streams ih =>
    obtain ⟨x, hx⟩ := h stream List.mem_cons_self
    exact ⟨hx.not_taskFails code srcCapacity,
      fun _ => ih fun other hother => h other (List.mem_cons_of_mem _ hother)⟩

/-- The device ends every task. -/
theorem exists_decompressCalls (device : Inflater) (code : Nat) (streams : List (List UInt8))
    (s : TaskSession) :
    ∃ t, decompressCalls (streams.map (inflaterCall device code)) s = some t := by
  induction streams generalizing s with
  | nil => exact ⟨s, rfl⟩
  | cons stream streams ih =>
    rw [List.map_cons, decompressCalls,
      decompressOne_inflaterCall code s (DocaDecompressor.init s.srcCapacity)]
    cases (inflateOne device (DocaDecompressor.init s.srcCapacity) stream).isOk with
    | true => exact ih _
    | false => exact ⟨_, rfl⟩

/-- A session over streams that the device can read frees its task once. -/
theorem freedOnce_of_decodes {z : Zlib} {streams : List (List UInt8)}
    (h : ∀ stream ∈ streams, ∃ x, Decodes z device x stream) (code : Nat) (program : Program)
    (answers : InitAnswers) (srcCapacity dstCapacity : Nat) :
    ∃ s, session program answers srcCapacity dstCapacity
        (streams.map (inflaterCall device code)) = some s ∧ FreedOnce s.trace := by
  obtain ⟨s, hs⟩ : ∃ s, session program answers srcCapacity dstCapacity
      (streams.map (inflaterCall device code)) = some s := by
    unfold session
    split
    · obtain ⟨t, ht⟩ := exists_decompressCalls device code streams _
      exact ⟨_, by rw [ht, Option.map_some]⟩
    · cases program with
      | readBench => exact ⟨_, rfl⟩
      | localDecompress => exact ⟨_, rfl⟩
  refine ⟨s, hs, ?_⟩
  rcases session_spec hs with ⟨-, htrace⟩ | ⟨k, ⟨-, htrace⟩ | ⟨-, hsome, -⟩⟩
  · rw [htrace]
    exact freedOnce_nil
  · rw [htrace]
    exact freedOnce_of_submits k
  · exact absurd (noTaskFails_of_decodes h code srcCapacity) hsome

end

end DpuTest.ReadBench
