import DpuTest.Compress.Callbacks

/-!
# The wait loop of the compress tests

A batch of tasks is submitted, `num_remaining_tasks` is set to their number, and
`doca_pe_progress` is called while `run_pe_progress` is true.  What it delivers
are the ends of the tasks, in any order, and changes of the context.

`deliver` is one callback.  The SDK reports the end of a task that is in flight,
and it reports `DOCA_CTX_STATE_IDLE` only when there is none.

`deliver_waits` is the step lemma: the resources are a `StopLatch` that waits for
the tasks in flight.  `waitLoop_of_run` says of every run of callbacks that the
loop ends exactly when the batch is done.
-/

namespace DpuTest.Compress

open Lib

/-- What `doca_pe_progress` delivers. -/
inductive ProgressEvent where
  | task (task : Nat) (report : TaskReport)
  | stateChanged (next : CtxState)

/-- The resources and the results of a batch; the tasks that the device has and
those that were freed; and whether a stop of the context has been asked for and
has not come. -/
structure BatchWait where
  resources : Latch
  taskResultBatch : Nat → CompressDeflateResult
  inFlight : List Nat
  freed : List Nat
  stopPending : Bool

/-- The SDK, for a call of the callback of `task`. -/
def sdkCall (task : Nat) (s : BatchWait) : SdkCall → BatchWait
  | .taskFree => { s with freed := s.freed ++ [task] }
  | .ctxStop => { s with stopPending := true }

/-- One callback. -/
def deliver (mode : DeflateMode) (s : BatchWait) : ProgressEvent → Option BatchWait
  | .task task report =>
    if task ∈ s.inFlight then
      let effect := taskCallback mode report s.resources (s.taskResultBatch task)
      some (effect.calls.foldl (sdkCall task) { s with
        resources := effect.resources
        taskResultBatch := fun i => if i = task then effect.result else s.taskResultBatch i
        inFlight := s.inFlight.erase task })
    else none
  | .stateChanged next =>
    match next with
    | .idle =>
      if s.inFlight = [] then
        some { s with
          resources := compressStateChangedCallback .idle s.resources
          stopPending := false }
      else none
    | next => some { s with resources := compressStateChangedCallback next s.resources }

/-- The batch has been submitted, and the resources are set for it. -/
structure Armed (s : BatchWait) : Prop where
  inFlight_ne_nil : s.inFlight ≠ []
  remaining_eq : s.resources.remaining.toNat = s.inFlight.length
  running_eq : s.resources.running = true
  stopPending_eq : s.stopPending = false

/-- The task callbacks that have run. -/
def completions : List ProgressEvent → Nat
  | [] => 0
  | .task _ _ :: events => completions events + 1
  | .stateChanged _ :: events => completions events

/-- How the last task has ended. -/
def lastStatus : List ProgressEvent → Option DocaStatus
  | [] => none
  | .task _ report :: events =>
    match lastStatus events with
    | none => some report.status
    | some status => some status
  | .stateChanged _ :: events => lastStatus events

/-- The flag after these callbacks: it is down once all tasks of the batch have
reported, at once when the last of them succeeded and with the idle state
otherwise. -/
structure EndsWithBatch (mode : DeflateMode) (s t : BatchWait) (events : List ProgressEvent) :
    Prop where
  counted : t.resources.remaining.toNat + completions events = s.inFlight.length
  running_iff : t.resources.running = false ↔
    completions events = s.inFlight.length ∧ t.stopPending = false
  immediately : completions events = s.inFlight.length → lastStatus events = some .success →
    t.resources.running = false
  whenIdle : completions events = s.inFlight.length →
    ∃ u, deliver mode t (.stateChanged .idle) = some u ∧ u.resources.running = false

/-! ## One callback -/

/-- The resources, with the stop that they have asked for. -/
def BatchWait.latch (s : BatchWait) : StopLatch where
  toLatch := s.resources
  stopPending := s.stopPending

section

variable {mode : DeflateMode} {s t : BatchWait}

/-- What the end of a task does. -/
theorem deliver_task {task : Nat} {report : TaskReport}
    (h : deliver mode s (.task task report) = some t) :
    task ∈ s.inFlight ∧ t.inFlight = s.inFlight.erase task ∧
      t.latch = if report.status = .success then s.latch.completed else s.latch.failed := by
  by_cases hmem : task ∈ s.inFlight
  · simp only [deliver, if_pos hmem, taskCallback_eq, Option.some.injEq] at h
    subst h
    refine ⟨hmem, ?_⟩
    by_cases hstatus : report.status = .success
    · simp only [if_pos hstatus]
      exact ⟨rfl, rfl⟩
    · by_cases hlast : s.resources.remaining - 1 = 0
      · simp [hstatus, deflateFailed, sdkCall, BatchWait.latch, StopLatch.failed, hlast]
      · simp [hstatus, deflateFailed, sdkCall, BatchWait.latch, StopLatch.failed, hlast]
  · simp only [deliver, if_neg hmem] at h
    cases h

/-- A task that fails is freed. -/
theorem freed_of_deliver {task : Nat} {report : TaskReport}
    (h : deliver mode s (.task task report) = some t) :
    t.freed = if report.status = .success then s.freed else s.freed ++ [task] := by
  obtain ⟨hmem, -, -⟩ := deliver_task h
  simp only [deliver, if_pos hmem, taskCallback_eq, Option.some.injEq] at h
  subst h
  by_cases hstatus : report.status = .success
  · simp only [if_pos hstatus]
    rfl
  · by_cases hlast : s.resources.remaining - 1 = 0
    · simp [hstatus, deflateFailed, sdkCall, hlast]
    · simp [hstatus, deflateFailed, sdkCall, hlast]

/-- What a change of the context does. -/
theorem deliver_stateChanged {next : CtxState}
    (h : deliver mode s (.stateChanged next) = some t) :
    t.inFlight = s.inFlight ∧ (t.latch = s.latch ∨ s.inFlight = [] ∧ t.latch = s.latch.idle) := by
  cases next with
  | idle =>
    by_cases hnil : s.inFlight = []
    · simp only [deliver, if_pos hnil, Option.some.injEq] at h
      subst h
      exact ⟨rfl, Or.inr ⟨hnil, rfl⟩⟩
    · simp only [deliver, if_neg hnil] at h
      cases h
  | starting =>
    cases h
    exact ⟨rfl, Or.inl rfl⟩
  | running =>
    cases h
    exact ⟨rfl, Or.inl rfl⟩
  | stopping =>
    cases h
    exact ⟨rfl, Or.inl rfl⟩

/-! ## Every run of callbacks -/

/-- A callback is a handler of the latch. -/
theorem deliver_handles (e : ProgressEvent) (h : deliver mode s e = some t) :
    StopLatch.Handles s.latch s.inFlight t.latch t.inFlight := by
  cases e with
  | task task report =>
    obtain ⟨hmem, hflight, hlatch⟩ := deliver_task h
    rw [hflight, hlatch]
    by_cases hstatus : report.status = .success
    · rw [if_pos hstatus]
      exact .completed hmem
    · rw [if_neg hstatus]
      exact .failed hmem
  | stateChanged next =>
    obtain ⟨hflight, hlatch⟩ := deliver_stateChanged h
    rcases hlatch with hsame | ⟨hnil, hidle⟩
    · rw [hflight, hsame]
      exact .other
    · rw [hflight, hidle, hnil]
      exact .idle

/-- The resources wait for the tasks in flight. -/
theorem deliver_waits (e : ProgressEvent) (hs : s.latch.Waits s.inFlight.length)
    (h : deliver mode s e = some t) : t.latch.Waits t.inFlight.length :=
  (deliver_handles e h).waits hs

theorem Armed.waits (hs : Armed s) : s.latch.Waits s.inFlight.length where
  remaining_eq := hs.remaining_eq
  running_of_pos _ := hs.running_eq
  stopPending_of_pos _ := hs.stopPending_eq
  running_iff_of_zero h := absurd (List.length_eq_zero_iff.mp h) hs.inFlight_ne_nil

/-- Each task callback is that of one task in flight. -/
theorem completions_of_run {events : List ProgressEvent} (h : run (deliver mode) events s = some t) :
    t.inFlight.length + completions events = s.inFlight.length := by
  induction events generalizing s with
  | nil =>
    cases h
    rfl
  | cons e events ih =>
    obtain ⟨s', hone, hrest⟩ := exists_of_run_cons h
    have hlen := ih hrest
    cases e with
    | task task report =>
      obtain ⟨hmem, hflight, -⟩ := deliver_task hone
      rw [StopLatch.length_erase_add_one hmem, ← hflight, completions]
      omega
    | stateChanged next =>
      obtain ⟨hflight, -⟩ := deliver_stateChanged hone
      rw [hflight] at hlen
      exact hlen

/-- A stop is pending because the last task has failed, or was pending before. -/
theorem stopPending_of_run {events : List ProgressEvent}
    (hs : s.latch.Waits s.inFlight.length) (h : run (deliver mode) events s = some t)
    (hstop : t.stopPending = true) :
    (∃ status, lastStatus events = some status ∧ status ≠ .success) ∨
      lastStatus events = none ∧ s.stopPending = true := by
  induction events generalizing s with
  | nil =>
    cases h
    exact Or.inr ⟨rfl, hstop⟩
  | cons e events ih =>
    obtain ⟨s', hone, hrest⟩ := exists_of_run_cons h
    rcases ih (deliver_waits e hs hone) hrest with ⟨status, hlast, hne⟩ | ⟨hnone, hstop'⟩
    · refine Or.inl ⟨status, ?_, hne⟩
      cases e with
      | task task report => rw [lastStatus, hlast]
      | stateChanged next => exact hlast
    · cases e with
      | task task report =>
        obtain ⟨hmem, -, hlatch⟩ := deliver_task hone
        refine Or.inl ⟨report.status, by rw [lastStatus, hnone], ?_⟩
        intro hstatus
        -- a success leaves the stop alone, and none was pending with a task in flight
        have hquiet := hs.stopPending_of_pos (List.length_pos_of_mem hmem)
        rw [if_pos hstatus] at hlatch
        have hsame : s'.stopPending = s.stopPending := congrArg StopLatch.stopPending hlatch
        rw [hsame] at hstop'
        rw [show s.stopPending = false from hquiet] at hstop'
        cases hstop'
      | stateChanged next =>
        obtain ⟨-, hlatch⟩ := deliver_stateChanged hone
        refine Or.inr ⟨hnone, ?_⟩
        rcases hlatch with hsame | ⟨-, hidle⟩
        · have hstops : s'.stopPending = s.stopPending := congrArg StopLatch.stopPending hsame
          rw [← hstops]
          exact hstop'
        · have hstops : s'.stopPending = false := congrArg StopLatch.stopPending hidle
          rw [hstops] at hstop'
          cases hstop'

end

/-- In every run of callbacks for a batch the flag is up until all its tasks have
reported, the counter does not wrap, and the wait loop ends exactly when the
batch is done. -/
theorem waitLoop_of_run (mode : DeflateMode) {s t : BatchWait} (hs : Armed s)
    {calls : List (List ProgressEvent)} (h : run (deliver mode) calls.flatten s = some t) :
    EndsWithBatch mode s t calls.flatten ∧
      ((∃ u, progressLoop (fun s => s.resources.running) (deliver mode) calls s = some u) ↔
        completions calls.flatten = s.inFlight.length ∧ t.stopPending = false) := by
  have hwaits : t.latch.Waits t.inFlight.length :=
    run_inv (fun s => s.latch.Waits s.inFlight.length) (fun _ e _ hs hone => deliver_waits e hs hone)
      h hs.waits
  have hcount := completions_of_run h
  have hrem : t.resources.remaining.toNat = t.inFlight.length := hwaits.remaining_eq
  have hrunning : t.resources.running = false ↔
      completions calls.flatten = s.inFlight.length ∧ t.stopPending = false := by
    have hall : completions calls.flatten = s.inFlight.length ↔ t.inFlight.length = 0 := by
      omega
    rw [hall]
    exact hwaits.running_iff
  refine ⟨⟨by omega, hrunning, ?_, ?_⟩, ?_⟩
  · intro hall hlast
    rw [hrunning]
    refine ⟨hall, Bool.eq_false_of_not_eq_true ?_⟩
    intro hstop
    rcases stopPending_of_run hs.waits h hstop with ⟨status, hstatus, hne⟩ | ⟨-, hbefore⟩
    · rw [hlast] at hstatus
      cases hstatus
      exact hne rfl
    · rw [hs.stopPending_eq] at hbefore
      cases hbefore
  · intro hall
    have hnil : t.inFlight = [] := List.eq_nil_of_length_eq_zero (by omega)
    simp only [deliver, if_pos hnil]
    exact ⟨_, rfl, rfl⟩
  · have hdown : ∀ s e s', s.resources.running = false → deliver mode s e = some s' →
        s'.resources.running = false :=
      fun _ e _ hs hone => (deliver_handles e hone).running_eq_false hs
    rw [progressLoop_ends_iff hdown h, hrunning]

/-- A batch of two tasks. -/
def twoTasks : BatchWait where
  resources := Latch.arm 2
  taskResultBatch _ := { status := .success, crcCs := 0, adlerCs := 0 }
  inFlight := [0, 1]
  freed := []
  stopPending := false

theorem armed_twoTasks : Armed twoTasks where
  inFlight_ne_nil := List.cons_ne_nil _ _
  remaining_eq := rfl
  running_eq := rfl
  stopPending_eq := rfl

/-- The second task succeeds, then a call delivers nothing, then the first one
fails and the context stops. -/
theorem waitLoop_twoTasks : ∃ u, progressLoop (fun s => s.resources.running)
    (deliver .compressDeflate) [[.task 1 ⟨.success, 7, 8⟩], [],
      [.task 0 ⟨.other 5, 0, 0⟩, .stateChanged .stopping], [.stateChanged .idle]] twoTasks =
        some u :=
  ((waitLoop_of_run .compressDeflate armed_twoTasks rfl).2).mpr ⟨rfl, rfl⟩

end DpuTest.Compress
