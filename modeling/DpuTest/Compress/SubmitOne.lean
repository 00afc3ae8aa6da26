import DpuTest.Compress.WaitLoop
import Mathlib.Data.UInt

/-!
# Submitting one task

`submit_compress_deflate_task` and `submit_decompress_deflate_task` allocate a task,
count it, submit it and wait for it.  How the calls of the SDK answer and how the task
ends is an input.  A call leaves the resources as they were if it counts its task down
again and the task has been freed.

* No task is allocated: nothing changes.
* The task fails: the error callback frees it and counts down (`submitDeflateTask_fails`).
* The task succeeds: it is not freed, since the completed callback does not do it any
  more (`submitDeflateTask_succeeds`).
* The submission fails: the function frees the task and does not count down.  From then
  on no wait for a task ends (`submitDeflateTask_of_leftover`).

So a sequence of calls is neutral if and only if all of its calls are of the first two
kinds (`neutralCalls_iff`).
-/

namespace DpuTest.Compress

open Lib

/-- What happens in a call. -/
inductive SubmitOutcome where
  /-- `…_alloc_init` fails. -/
  | allocFails (status : DocaStatus)
  /-- `doca_task_submit` fails. -/
  | submitFails (status : DocaStatus)
  /-- The task is submitted and comes to its end. -/
  | completes (report : TaskReport)

/-- A call of one of the two functions. -/
structure SubmitCall where
  mode : DeflateMode
  outcome : SubmitOutcome
  /-- `output_checksum != NULL` -/
  wantsChecksum : Bool

/-- What a call returns, and what it writes to `output_checksum`. -/
structure SubmitResult where
  status : DocaStatus
  outputChecksum : Option UInt64

/-- `compress_resources`, and the number of tasks that have been allocated for it.
Task `i` is the one that was allocated as number `i`. -/
structure SubmitState where
  wait : BatchWait
  allocated : Nat

/-- `calculate_checksum` -/
def calculateChecksum (crcChecksum adlerChecksum : UInt32) : UInt64 :=
  (adlerChecksum.toUInt64 <<< 32) + crcChecksum.toUInt64

/-- What `doca_pe_progress` delivers: the end of the task, and the stop of the context
once it has been asked for. -/
def deviceCalls (mode : DeflateMode) (wait : BatchWait) (task : Nat) (report : TaskReport) :
    List (List ProgressEvent) :=
  [.task task report] ::
    if (deliver mode wait (.task task report)).any fun wait => wait.stopPending then
      [[.stateChanged .idle]]
    else []

/-- The task has been allocated, with a cleared `task_result`, and is counted. -/
def SubmitState.count (s : SubmitState) : SubmitState where
  wait :=
    { s.wait with
      resources := { s.wait.resources with remaining := s.wait.resources.remaining + 1 }
      taskResultBatch := fun i =>
        if i = s.allocated then { status := .success, crcCs := 0, adlerCs := 0 }
        else s.wait.taskResultBatch i }
  allocated := s.allocated + 1

/-- The device has got the task, and the flag is up. -/
def BatchWait.submitOne (wait : BatchWait) (task : Nat) : BatchWait :=
  { wait with
    resources := { wait.resources with running := true }
    inFlight := wait.inFlight ++ [task] }

/-- The common text of `submit_compress_deflate_task` and
`submit_decompress_deflate_task`.  `none` is a wait that does not end. -/
def submitDeflateTask (call : SubmitCall) (s : SubmitState) :
    Option (SubmitResult × SubmitState) :=
  match call.outcome with
  | .allocFails status => some (⟨status, none⟩, s)
  | .submitFails status =>
    let s' := s.count
    some (⟨status, none⟩,
      { s' with wait := { s'.wait with freed := s'.wait.freed ++ [s.allocated] } })
  | .completes report =>
    let wait := s.count.wait.submitOne s.allocated
    (progressLoop (fun wait => wait.resources.running) (deliver call.mode)
        (deviceCalls call.mode wait s.allocated report) wait).map fun wait =>
      let result := wait.taskResultBatch s.allocated
      (if result.status ≠ .success then ⟨result.status, none⟩
        else ⟨.success, if call.wantsChecksum then
          some (calculateChecksum result.crcCs result.adlerCs) else none⟩,
        { s.count with wait := wait })

/-- A task is allocated in the call. -/
def SubmitCall.Allocates (call : SubmitCall) : Prop := ∀ status, call.outcome ≠ .allocFails status

/-- The counter is as before, and the task of the call has been freed once. -/
structure Neutral (call : SubmitCall) (s t : SubmitState) : Prop where
  remaining_eq : t.wait.resources.remaining = s.wait.resources.remaining
  freedOnce : call.Allocates → t.wait.freed.count s.allocated = 1

/-- Every call of the sequence returns and is neutral. -/
def NeutralCalls : List SubmitCall → SubmitState → Prop
  | [], _ => True
  | call :: calls, s =>
    ∃ result t, submitDeflateTask call s = some (result, t) ∧ Neutral call s t ∧
      NeutralCalls calls t

/-- No task is allocated, or the task is submitted and fails. -/
def SubmitCall.FailsEarlyOrLate (call : SubmitCall) : Prop :=
  match call.outcome with
  | .allocFails _ => True
  | .submitFails _ => False
  | .completes report => report.status ≠ .success

/-- The resources after `allocate_compress_resources`. -/
def submitStart : SubmitState where
  wait :=
    { resources := { remaining := 0, running := false }
      taskResultBatch := fun _ => { status := .success, crcCs := 0, adlerCs := 0 }
      inFlight := []
      freed := []
      stopPending := false }
  allocated := 0

/-! ## One call -/

section

variable {call : SubmitCall} {s : SubmitState} {report : TaskReport}

/-- Nothing is out, and the tasks that were freed have been allocated. -/
structure Settled (s : SubmitState) : Prop where
  inFlight_eq : s.wait.inFlight = []
  stopPending_eq : s.wait.stopPending = false
  lt_allocated : ∀ task ∈ s.wait.freed, task < s.allocated

/-- The report of the task of the call. -/
theorem deliver_submitOne (mode : DeflateMode) (hs : Settled s) (report : TaskReport) :
    ∃ wait, deliver mode (s.count.wait.submitOne s.allocated) (.task s.allocated report) =
        some wait ∧
      wait.inFlight = [] ∧
      wait.freed = (if report.status = .success then s.wait.freed
        else s.wait.freed ++ [s.allocated]) ∧
      wait.resources.remaining = s.wait.resources.remaining ∧
      (wait.resources.running = false ↔
        s.wait.resources.remaining = 0 ∧ report.status = .success) ∧
      (wait.stopPending = true ↔
        s.wait.resources.remaining = 0 ∧ report.status ≠ .success) := by
  have hmem : s.allocated ∈ (s.count.wait.submitOne s.allocated).inFlight :=
    List.mem_append_right _ (List.mem_singleton.mpr rfl)
  obtain ⟨wait, hone⟩ : ∃ wait, deliver mode (s.count.wait.submitOne s.allocated)
      (.task s.allocated report) = some wait := by
    simp only [deliver, if_pos hmem]
    exact ⟨_, rfl⟩
  obtain ⟨-, hflight, hlatch⟩ := deliver_task hone
  have hcount : s.wait.resources.remaining + 1 - 1 = s.wait.resources.remaining :=
    add_sub_cancel_right _ _
  have hfreed : wait.freed = if report.status = .success then s.wait.freed
      else s.wait.freed ++ [s.allocated] := by
    rw [freed_of_deliver hone]
    rfl
  refine ⟨wait, hone, ?_, hfreed, ?_⟩
  · rw [hflight]
    show (s.wait.inFlight ++ [s.allocated]).erase s.allocated = []
    rw [hs.inFlight_eq, List.nil_append, List.erase_cons_head]
  · have hquiet := hs.stopPending_eq
    by_cases hstatus : report.status = .success
    · rw [if_pos hstatus] at hlatch
      have hremaining : wait.resources.remaining = s.wait.resources.remaining + 1 - 1 :=
        congrArg (fun l : StopLatch => l.remaining) hlatch
      have hrunning : wait.resources.running =
          if s.wait.resources.remaining + 1 - 1 = 0 then false else true :=
        congrArg (fun l : StopLatch => l.running) hlatch
      have hstop : wait.stopPending = s.wait.stopPending := congrArg StopLatch.stopPending hlatch
      rw [hcount] at hremaining hrunning
      refine ⟨hremaining, ?_, ?_⟩
      · rw [hrunning]
        simp [hstatus]
      · rw [hstop, hquiet]
        simp [hstatus]
    · rw [if_neg hstatus] at hlatch
      have hremaining : wait.resources.remaining = s.wait.resources.remaining + 1 - 1 :=
        congrArg (fun l : StopLatch => l.remaining) hlatch
      have hrunning : wait.resources.running = true :=
        congrArg (fun l : StopLatch => l.running) hlatch
      have hstop : wait.stopPending =
          if s.wait.resources.remaining + 1 - 1 = 0 then true else s.wait.stopPending :=
        congrArg StopLatch.stopPending hlatch
      rw [hcount] at hremaining hstop
      refine ⟨hremaining, ?_, ?_⟩
      · rw [hrunning]
        simp [hstatus]
      · rw [hstop, hquiet]
        simp [hstatus]

/-- After the end of the task the wait goes on if the flag is still up: for the stop of
the context, or for nothing. -/
theorem progressLoop_deviceCalls {mode : DeflateMode} {wait : BatchWait}
    (hone : deliver mode (s.count.wait.submitOne s.allocated) (.task s.allocated report) =
      some wait) :
    progressLoop (fun wait => wait.resources.running) (deliver mode)
        (deviceCalls mode (s.count.wait.submitOne s.allocated) s.allocated report)
        (s.count.wait.submitOne s.allocated) =
      progressLoop (fun wait => wait.resources.running) (deliver mode)
        (if wait.stopPending then [[.stateChanged .idle]] else []) wait := by
  have hflag : (s.count.wait.submitOne s.allocated).resources.running = true := rfl
  rw [deviceCalls, hone, Option.any_some, progressLoop, if_pos hflag]
  simp only [run, hone]

/-- With nothing left over, a task that succeeds ends the wait, and is not freed. -/
theorem submitDeflateTask_succeeds (hs : Settled s) (hzero : s.wait.resources.remaining = 0)
    (hcall : call.outcome = .completes report) (hstatus : report.status = .success) :
    ∃ result t, submitDeflateTask call s = some (result, t) ∧ t.wait.freed = s.wait.freed := by
  obtain ⟨wait, hone, -, hfreed, -, hrunning, hstop⟩ := deliver_submitOne call.mode hs report
  have hdown : wait.resources.running = false := hrunning.mpr ⟨hzero, hstatus⟩
  have hquiet : ¬ wait.stopPending = true := fun h => (hstop.mp h).2 hstatus
  rw [if_pos hstatus] at hfreed
  have hloop : progressLoop (fun wait => wait.resources.running) (deliver call.mode)
      (deviceCalls call.mode (s.count.wait.submitOne s.allocated) s.allocated report)
      (s.count.wait.submitOne s.allocated) = some wait := by
    rw [progressLoop_deviceCalls hone, if_neg hquiet, progressLoop, hdown]
    rfl
  simp only [submitDeflateTask, hcall, hloop, Option.map_some]
  exact ⟨_, _, rfl, hfreed⟩

/-- A task that fails is freed, and the stop of the context ends the wait. -/
theorem submitDeflateTask_fails (hs : Settled s) (hzero : s.wait.resources.remaining = 0)
    (hcall : call.outcome = .completes report) (hstatus : report.status ≠ .success) :
    ∃ result t, submitDeflateTask call s = some (result, t) ∧ Settled t ∧ Neutral call s t := by
  obtain ⟨wait, hone, hflight, hfreed, hremaining, hrunning, hstop⟩ :=
    deliver_submitOne call.mode hs report
  have hup : wait.resources.running = true := by
    rw [← Bool.not_eq_false]
    exact fun h => hstatus (hrunning.mp h).2
  have hpending : wait.stopPending = true := hstop.mpr ⟨hzero, hstatus⟩
  rw [if_neg hstatus] at hfreed
  have hidle : deliver call.mode wait (.stateChanged .idle) = some
      { wait with
        resources := compressStateChangedCallback .idle wait.resources
        stopPending := false } := by
    simp only [deliver, if_pos hflight]
  have hloop : progressLoop (fun wait => wait.resources.running) (deliver call.mode)
      (deviceCalls call.mode (s.count.wait.submitOne s.allocated) s.allocated report)
      (s.count.wait.submitOne s.allocated) = some
        { wait with
          resources := compressStateChangedCallback .idle wait.resources
          stopPending := false } := by
    rw [progressLoop_deviceCalls hone, if_pos hpending, progressLoop, if_pos hup]
    simp only [run, hidle, progressLoop]
    rfl
  simp only [submitDeflateTask, hcall, hloop, Option.map_some]
  refine ⟨_, _, rfl, ⟨hflight, rfl, ?_⟩, ⟨hremaining, fun _ => ?_⟩⟩
  · intro task htask
    have htask' : task ∈ wait.freed := htask
    rw [hfreed] at htask'
    show task < s.allocated + 1
    rcases List.mem_append.mp htask' with hmem | hmem
    · exact Nat.lt_succ_of_lt (hs.lt_allocated task hmem)
    · rw [List.mem_singleton.mp hmem]
      exact Nat.lt_succ_self _
  · show wait.freed.count s.allocated = 1
    have hnew : s.allocated ∉ s.wait.freed := fun h => Nat.lt_irrefl _ (hs.lt_allocated _ h)
    rw [hfreed, List.count_append, List.count_eq_zero.mpr hnew, List.count_singleton_self]

/-- With a count left over from before, the wait for a task does not end. -/
theorem submitDeflateTask_of_leftover (hs : Settled s) (hleft : s.wait.resources.remaining ≠ 0)
    (hcall : call.outcome = .completes report) : submitDeflateTask call s = none := by
  obtain ⟨wait, hone, -, -, -, hrunning, hstop⟩ := deliver_submitOne call.mode hs report
  have hup : wait.resources.running = true := by
    rw [← Bool.not_eq_false]
    exact fun h => hleft (hrunning.mp h).1
  have hquiet : ¬ wait.stopPending = true := fun h => hleft (hstop.mp h).1
  have hloop : progressLoop (fun wait => wait.resources.running) (deliver call.mode)
      (deviceCalls call.mode (s.count.wait.submitOne s.allocated) s.allocated report)
      (s.count.wait.submitOne s.allocated) = none := by
    rw [progressLoop_deviceCalls hone, if_neg hquiet, progressLoop, if_pos hup]
  simp only [submitDeflateTask, hcall, hloop, Option.map_none]

/-- The calls that are neutral. -/
theorem exists_neutral (hs : Settled s) (hzero : s.wait.resources.remaining = 0)
    (h : call.FailsEarlyOrLate) :
    ∃ result t, submitDeflateTask call s = some (result, t) ∧ Settled t ∧ Neutral call s t := by
  unfold SubmitCall.FailsEarlyOrLate at h
  cases hcall : call.outcome with
  | allocFails status =>
    simp only [submitDeflateTask, hcall]
    exact ⟨_, _, rfl, hs, rfl, fun hallocates => absurd hcall (hallocates status)⟩
  | submitFails status =>
    simp only [hcall] at h
  | completes report =>
    simp only [hcall] at h
    exact submitDeflateTask_fails hs hzero hcall h

/-- No other call is. -/
theorem failsEarlyOrLate_of_neutral {result : SubmitResult} {t : SubmitState} (hs : Settled s)
    (hzero : s.wait.resources.remaining = 0)
    (hrun : submitDeflateTask call s = some (result, t)) (h : Neutral call s t) :
    call.FailsEarlyOrLate := by
  unfold SubmitCall.FailsEarlyOrLate
  cases hcall : call.outcome with
  | allocFails status => trivial
  | submitFails status =>
    -- the counter has not been taken back
    simp only [submitDeflateTask, hcall] at hrun
    cases hrun
    have hcount : s.wait.resources.remaining + 1 = s.wait.resources.remaining := h.remaining_eq
    rw [hzero] at hcount
    exact absurd hcount (by decide)
  | completes report =>
    intro hstatus
    have hallocates : call.Allocates := by
      intro status halloc
      rw [hcall] at halloc
      cases halloc
    obtain ⟨result', t', hrun', hfreed⟩ := submitDeflateTask_succeeds hs hzero hcall hstatus
    rw [hrun] at hrun'
    cases hrun'
    have hnew : s.allocated ∉ s.wait.freed := fun hmem =>
      Nat.lt_irrefl _ (hs.lt_allocated _ hmem)
    have honce := h.freedOnce hallocates
    rw [hfreed, List.count_eq_zero.mpr hnew] at honce
    cases honce

/-! ## A sequence of calls -/

theorem neutralCalls_iff_of_settled {calls : List SubmitCall} (hs : Settled s)
    (hzero : s.wait.resources.remaining = 0) :
    NeutralCalls calls s ↔ ∀ call ∈ calls, call.FailsEarlyOrLate := by
  induction calls generalizing s with
  | nil => simp [NeutralCalls]
  | cons call calls ih =>
    rw [List.forall_mem_cons]
    constructor
    · rintro ⟨result, t, hrun, hneutral, hcalls⟩
      have hcall := failsEarlyOrLate_of_neutral hs hzero hrun hneutral
      obtain ⟨result', t', hrun', ht, -⟩ := exists_neutral hs hzero hcall
      rw [hrun] at hrun'
      cases hrun'
      exact ⟨hcall, (ih ht (hneutral.remaining_eq.trans hzero)).mp hcalls⟩
    · rintro ⟨hcall, hcalls⟩
      obtain ⟨result, t, hrun, ht, hneutral⟩ := exists_neutral hs hzero hcall
      exact ⟨result, t, hrun, hneutral,
        (ih ht (hneutral.remaining_eq.trans hzero)).mpr hcalls⟩

end

theorem settled_submitStart : Settled submitStart where
  inFlight_eq := rfl
  stopPending_eq := rfl
  lt_allocated := nofun

/-- The calls are neutral if and only if none of them gets a task submitted that
succeeds, and no submission fails. -/
theorem neutralCalls_iff (calls : List SubmitCall) :
    NeutralCalls calls submitStart ↔ ∀ call ∈ calls, call.FailsEarlyOrLate :=
  neutralCalls_iff_of_settled settled_submitStart rfl

/-- A submission that fails. -/
def refusedCall : SubmitCall where
  mode := .compressDeflate
  outcome := .submitFails (.other 1)
  wantsChecksum := false

/-- A task that succeeds. -/
def successfulCall : SubmitCall where
  mode := .compressDeflate
  outcome := .completes { status := .success, crcCs := 0, adlerCs := 0 }
  wantsChecksum := false

/-- After a submission that fails, the wait for a task that succeeds does not end. -/
theorem not_neutralCalls_refused : ¬ NeutralCalls [refusedCall, successfulCall] submitStart := by
  rintro ⟨result, t, hrun, hneutral, -⟩
  cases hrun
  have hcount : (1 : UInt64) = 0 := hneutral.remaining_eq
  exact absurd hcount (by decide)

/-- A task that succeeds is not freed. -/
example : (submitDeflateTask successfulCall submitStart).map (fun p => p.2.wait.freed) =
    some [] := rfl

end DpuTest.Compress
