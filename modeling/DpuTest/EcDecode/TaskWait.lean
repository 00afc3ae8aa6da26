import DpuTest.Doca
import DpuTest.Lib.Run
import DpuTest.Lib.Trace

/-!
# Waiting for a task

All tasks of `ec_compare.c` complete into one record, `state->wait`, that
`run_doca_task` resets before it submits.  A completion does not say whose it
is.  So the completion that ends a wait may be that of an earlier task, one for
which `run_doca_task` has given up after its 30 seconds.

The calls are numbered, and a number stands for the task that was submitted in
that call.  `callStep` is one call; the environment of it, `TaskCall`, is what
the submission answers and what every poll of the progress engine delivers.

* `credited_iff`: in a run of calls every success is that of the call's own task
  if and only if no call is ended by the late success of another one.
* `credited_of_settled`: none is, where nothing is in flight at the start of a call.
-/

namespace DpuTest.EcDecode

open Lib

/-! ## The record and its callbacks -/

/-- `struct task_wait`. -/
structure TaskWait where
  done : Bool
  status : DocaStatus

/-- `create_success_cb`, with what `doca_task_get_status` says of the task. -/
def createSuccessCb (status : DocaStatus) (wait : TaskWait) : TaskWait :=
  { wait with status := status, done := true }

/-- `create_error_cb`. -/
def createErrorCb (status : DocaStatus) (wait : TaskWait) : TaskWait :=
  createSuccessCb status wait

/-- `recover_success_cb`. -/
def recoverSuccessCb (status : DocaStatus) (wait : TaskWait) : TaskWait :=
  { wait with status := status, done := true }

/-- `recover_error_cb`. -/
def recoverErrorCb (status : DocaStatus) (wait : TaskWait) : TaskWait :=
  recoverSuccessCb status wait

inductive TaskKind where
  | create
  | recover

/-- The callback that the progress engine runs, by the `set_conf` of the kind. -/
def completionCb (kind : TaskKind) (status : DocaStatus) : TaskWait → TaskWait :=
  match kind, status with
  | .create, .success => createSuccessCb .success
  | .create, error => createErrorCb error
  | .recover, .success => recoverSuccessCb .success
  | .recover, error => recoverErrorCb error

/-- The record keeps the status and nothing of the task. -/
theorem completionCb_eq (kind : TaskKind) (status : DocaStatus) (wait : TaskWait) :
    completionCb kind status wait = { status := status, done := true } := by
  cases kind <;> cases status <;> rfl

/-! ## Calls -/

/-- The end of a task. -/
structure Completion where
  call : Nat
  status : DocaStatus
  deriving DecidableEq

/-- One turn of the loop: what `doca_pe_progress` delivers, and whether the
deadline has passed after it.  A call of `doca_pe_progress` is taken to run the callback
of one completed task at most, which is what it does by its documentation. -/
structure Poll where
  completion : Option Completion
  late : Bool

/-- A call of `run_doca_task`, as the SDK and the clock meet it. -/
structure TaskCall where
  kind : TaskKind
  submit : DocaStatus
  polls : List Poll

inductive TaskEvent where
  | submitted (call : Nat)
  | completed (call : Nat) (status : DocaStatus)
  | returned (call : Nat) (status : DocaStatus)
  deriving DecidableEq

/-- The state between the calls: the record, the number of the next call, the
tasks that the device has, and what has happened. -/
structure WaitState where
  wait : TaskWait
  calls : Nat
  inFlight : List (Nat × TaskKind)
  log : List TaskEvent

/-- After `memset` in `doca_state_init`. -/
def WaitState.init : WaitState where
  wait := { done := false, status := .success }
  calls := 0
  inFlight := []
  log := []

/-- `doca_pe_progress`: a task that is in flight may complete, and its callback
runs. -/
def peProgress (s : WaitState) : Option Completion → Option WaitState
  | none => some s
  | some ⟨call, status⟩ =>
    match s.inFlight.lookup call with
    | none => none
    | some kind =>
      some { s with
        wait := completionCb kind status s.wait
        inFlight := s.inFlight.filter fun task => task.1 != call
        log := s.log ++ [.completed call status] }

/-- The loop over `state->wait.done`.  It has not returned when the polls are at
an end before it is. -/
def waitLoop : List Poll → WaitState → Option (DocaStatus × WaitState)
  | [], s => if s.wait.done then some (s.wait.status, s) else none
  | poll :: polls, s =>
    if s.wait.done then some (s.wait.status, s)
    else
      match peProgress s poll.completion with
      | none => none
      | some s => if poll.late then some (.timeOut, s) else waitLoop polls s

/-- `run_doca_task`. -/
def runDocaTask (s : WaitState) (call : TaskCall) : Option (DocaStatus × WaitState) :=
  let s := { s with wait := { done := false, status := .inProgress } }
  match call.submit with
  | .success =>
    waitLoop call.polls { s with
      calls := s.calls + 1
      inFlight := s.inFlight ++ [(s.calls, call.kind)]
      log := s.log ++ [.submitted s.calls] }
  | error => some (error, { s with calls := s.calls + 1 })

/-- A call and its return. -/
def callStep (s : WaitState) (call : TaskCall) : Option WaitState :=
  match runDocaTask s call with
  | none => none
  | some (status, t) => some { t with log := t.log ++ [.returned s.calls status] }

/-- A success is returned after the completion of the call's own task. -/
def Credited (log : List TaskEvent) : Prop :=
  ∀ call, Precedes (· = .completed call .success) (· = .returned call .success) log

/-- The completion that ends the wait. -/
def endsWait : List Poll → Option Completion
  | [] => none
  | ⟨none, late⟩ :: polls => if late then none else endsWait polls
  | ⟨some completion, late⟩ :: _ => if late then none else some completion

/-- The wait is not ended by the success of another call's task. -/
def OwnCompletion (s : WaitState) (call : TaskCall) : Prop :=
  call.submit = .success →
    ∀ completion ∈ endsWait call.polls, completion.status = .success → completion.call = s.calls

instance (s : WaitState) (call : TaskCall) : Decidable (OwnCompletion s call) :=
  inferInstanceAs (Decidable (_ → _))

/-! ## One call -/

/-- The call that an event belongs to. -/
def TaskEvent.call : TaskEvent → Nat
  | .submitted call => call
  | .completed call _ => call
  | .returned call _ => call

/-- The number of the next call has not been used. -/
structure Fresh (s : WaitState) : Prop where
  inFlight_lt : ∀ task ∈ s.inFlight, task.1 < s.calls
  log_lt : ∀ e ∈ s.log, e.call < s.calls

theorem fresh_init : Fresh WaitState.init where
  inFlight_lt task h := by cases h
  log_lt e h := by cases h

/-- The wait from `s` to `t` has delivered these events, all of them the ends of
tasks in flight. -/
structure Delivered (s t : WaitState) (events : List TaskEvent) : Prop where
  calls_eq : t.calls = s.calls
  inFlight_subset : ∀ task ∈ t.inFlight, task ∈ s.inFlight
  log_eq : t.log = s.log ++ events
  of_inFlight : ∀ e ∈ events, ∃ task ∈ s.inFlight, ∃ status, e = .completed task.1 status

theorem Delivered.refl (s : WaitState) : Delivered s s [] where
  calls_eq := rfl
  inFlight_subset _ h := h
  log_eq := (List.append_nil _).symm
  of_inFlight _ h := by cases h

/-- A completion ends the wait. -/
theorem peProgress_some {s t : WaitState} {completion : Completion}
    (h : peProgress s (some completion) = some t) :
    t.wait = { status := completion.status, done := true } ∧
      Delivered s t [.completed completion.call completion.status] := by
  obtain ⟨call, status⟩ := completion
  cases hkind : s.inFlight.lookup call with
  | none =>
    simp only [peProgress, hkind] at h
    cases h
  | some kind =>
    simp only [peProgress, hkind, Option.some.injEq] at h
    subst h
    refine ⟨completionCb_eq kind status s.wait, rfl, ?_, rfl, ?_⟩
    · intro task htask
      exact (List.mem_filter.mp htask).1
    · intro e he
      obtain ⟨before, after, hsplit, -⟩ := List.lookup_eq_some_iff.mp hkind
      refine ⟨(call, kind), ?_, status, List.mem_singleton.mp he⟩
      rw [hsplit]
      exact List.mem_append_right _ List.mem_cons_self

theorem waitLoop_of_done {s : WaitState} (polls : List Poll) (h : s.wait.done = true) :
    waitLoop polls s = some (s.wait.status, s) := by
  cases polls <;> rw [waitLoop, if_pos h]

/-- The loop ends with the completion that ends the wait, or with the deadline. -/
theorem waitLoop_spec {polls : List Poll} {s t : WaitState} {status : DocaStatus}
    (hwait : s.wait.done = false) (h : waitLoop polls s = some (status, t)) :
    ∃ events, Delivered s t events ∧
      (endsWait polls = none ∧ status = .timeOut ∨
        ∃ completion, endsWait polls = some completion ∧ status = completion.status ∧
          events = [.completed completion.call completion.status]) := by
  induction polls generalizing s with
  | nil =>
    rw [waitLoop, hwait, if_neg Bool.false_ne_true] at h
    cases h
  | cons poll polls ih =>
    obtain ⟨completion, late⟩ := poll
    rw [waitLoop, hwait, if_neg Bool.false_ne_true] at h
    cases completion with
    | none =>
      simp only [peProgress] at h
      by_cases hlate : late = true
      · rw [if_pos hlate] at h
        cases h
        refine ⟨[], Delivered.refl t, Or.inl ⟨?_, rfl⟩⟩
        rw [endsWait, if_pos hlate]
      · rw [if_neg hlate] at h
        rw [endsWait, if_neg hlate]
        exact ih hwait h
    | some completion =>
      cases hp : peProgress s (some completion) with
      | none =>
        simp only [hp] at h
        cases h
      | some u =>
        obtain ⟨hu, hdelivered⟩ := peProgress_some hp
        simp only [hp] at h
        by_cases hlate : late = true
        · rw [if_pos hlate] at h
          cases h
          refine ⟨_, hdelivered, Or.inl ⟨?_, rfl⟩⟩
          rw [endsWait, if_pos hlate]
        · rw [if_neg hlate, waitLoop_of_done polls (by rw [hu])] at h
          cases h
          refine ⟨_, hdelivered, Or.inr ⟨completion, ?_, ?_, rfl⟩⟩
          · rw [endsWait, if_neg hlate]
          · rw [hu]

/-- The state in which a submitted call waits. -/
def WaitState.submitted (s : WaitState) (kind : TaskKind) : WaitState where
  wait := { done := false, status := .inProgress }
  calls := s.calls + 1
  inFlight := s.inFlight ++ [(s.calls, kind)]
  log := s.log ++ [.submitted s.calls]

/-- The state after a call that is refused. -/
def WaitState.refused (s : WaitState) : WaitState :=
  { s with
    wait := { done := false, status := .inProgress }
    calls := s.calls + 1 }

theorem runDocaTask_of_submitted {s : WaitState} {call : TaskCall}
    (h : call.submit = .success) :
    runDocaTask s call = waitLoop call.polls (s.submitted call.kind) := by
  simp only [runDocaTask, h]
  rfl

theorem runDocaTask_of_refused {s : WaitState} {call : TaskCall} (h : call.submit ≠ .success) :
    runDocaTask s call = some (call.submit, s.refused) := by
  cases hc : call.submit with
  | success => exact absurd hc h
  | inProgress => simp only [runDocaTask, hc, WaitState.refused]
  | timeOut => simp only [runDocaTask, hc, WaitState.refused]
  | other code => simp only [runDocaTask, hc, WaitState.refused]

/-- The number of the call is fresh, and after it the next one is. -/
theorem Fresh.submitted {s : WaitState} (hs : Fresh s) (kind : TaskKind) :
    Fresh (s.submitted kind) where
  inFlight_lt task htask := by
    show task.1 < s.calls + 1
    rcases List.mem_append.mp htask with hold | hnew
    · have hlt := hs.inFlight_lt task hold
      omega
    · rw [List.mem_singleton.mp hnew]
      exact Nat.lt_succ_self _
  log_lt e he := by
    show e.call < s.calls + 1
    rcases List.mem_append.mp he with hold | hnew
    · have hlt := hs.log_lt e hold
      omega
    · rw [List.mem_singleton.mp hnew]
      exact Nat.lt_succ_self _

theorem Fresh.refused {s : WaitState} (hs : Fresh s) : Fresh s.refused where
  inFlight_lt task htask := Nat.lt_succ_of_lt (hs.inFlight_lt task htask)
  log_lt e he := Nat.lt_succ_of_lt (hs.log_lt e he)

theorem Fresh.delivered {s t : WaitState} {events : List TaskEvent} (hs : Fresh s)
    (h : Delivered s t events) : Fresh t where
  inFlight_lt task htask := by
    rw [h.calls_eq]
    exact hs.inFlight_lt task (h.inFlight_subset task htask)
  log_lt e he := by
    rw [h.log_eq] at he
    rw [h.calls_eq]
    rcases List.mem_append.mp he with hold | hnew
    · exact hs.log_lt e hold
    · obtain ⟨task, htask, status, rfl⟩ := h.of_inFlight e hnew
      exact hs.inFlight_lt task htask

/-- One call: its events, and when its answer is that of its own task. -/
theorem runDocaTask_spec {s t : WaitState} {call : TaskCall} {status : DocaStatus} (hs : Fresh s)
    (h : runDocaTask s call = some (status, t)) :
    Fresh t ∧ t.calls = s.calls + 1 ∧ ∃ events, t.log = s.log ++ events ∧
      (∀ e ∈ events, ∀ k status, e ≠ .returned k status) ∧
      (OwnCompletion s call ↔
        (status = .success → .completed s.calls .success ∈ events)) := by
  by_cases hsubmit : call.submit = .success
  · rw [runDocaTask_of_submitted hsubmit] at h
    obtain ⟨events, hdelivered, hend⟩ := waitLoop_spec rfl h
    refine ⟨(hs.submitted call.kind).delivered hdelivered, hdelivered.calls_eq,
      .submitted s.calls :: events, ?_, ?_, ?_⟩
    · rw [hdelivered.log_eq]
      show s.log ++ [.submitted s.calls] ++ events = _
      rw [List.append_assoc, List.singleton_append]
    · intro e he k status heq
      rcases List.mem_cons.mp he with rfl | he
      · cases heq
      · obtain ⟨task, -, st, rfl⟩ := hdelivered.of_inFlight e he
        cases heq
    · rcases hend with ⟨hnone, rfl⟩ | ⟨completion, hsome, rfl, rfl⟩
      · refine iff_of_true ?_ (fun hstatus => by cases hstatus)
        intro _ completion hmem
        rw [hnone] at hmem
        cases hmem
      · constructor
        · intro hown hstatus
          have hcall := hown hsubmit completion hsome hstatus
          rw [hcall, hstatus]
          exact List.mem_cons_of_mem _ List.mem_cons_self
        · intro hmem _ c hc hstatus
          rw [hsome] at hc
          cases hc
          rcases List.mem_cons.mp (hmem hstatus) with hsub | hcompleted
          · cases hsub
          · rw [List.mem_singleton] at hcompleted
            exact (TaskEvent.completed.inj hcompleted).1.symm
  · rw [runDocaTask_of_refused hsubmit] at h
    cases h
    refine ⟨hs.refused, rfl, [], (List.append_nil _).symm, ?_, ?_⟩
    · intro e he
      cases he
    · exact iff_of_true (fun hsuccess => absurd hsuccess hsubmit)
        (fun hsuccess => absurd hsuccess hsubmit)

/-- The return of a call. -/
theorem Fresh.returned {s : WaitState} (hs : Fresh s) {k : Nat} (hk : k < s.calls)
    (status : DocaStatus) : Fresh { s with log := s.log ++ [.returned k status] } where
  inFlight_lt := hs.inFlight_lt
  log_lt e he := by
    rcases List.mem_append.mp he with hold | hnew
    · exact hs.log_lt e hold
    · rw [List.mem_singleton.mp hnew]
      exact hk

/-- What the events of a call and its return add to the law. -/
theorem credited_append {log events : List TaskEvent} {k : Nat} {status : DocaStatus}
    (hunused : .completed k .success ∉ log)
    (hevents : ∀ e ∈ events, ∀ k status, e ≠ .returned k status) :
    Credited (log ++ events ++ [.returned k status]) ↔
      Credited log ∧ (status = .success → .completed k .success ∈ events) := by
  have hkept : ∀ k, Precedes (· = .completed k .success) (· = .returned k .success)
      (log ++ events) ↔
        Precedes (· = .completed k .success) (· = .returned k .success) log := by
    intro k
    exact precedes_append _ (fun e he => hevents e he k .success)
  simp only [Credited, precedes_concat, hkept, forall_and]
  refine and_congr_right fun _ => ?_
  constructor
  · intro hall hstatus
    obtain ⟨e, he, rfl⟩ := hall k (by rw [hstatus])
    exact (List.mem_append.mp he).resolve_left hunused
  · intro hmem k' hk'
    cases hk'
    exact ⟨_, List.mem_append_right _ (hmem rfl), rfl⟩

/-- A call keeps the numbers fresh, and credits a task that is not its own if and
only if the late success of one ends its wait. -/
theorem callStep_spec {s t : WaitState} {call : TaskCall} (hs : Fresh s)
    (h : callStep s call = some t) :
    Fresh t ∧ (Credited t.log ↔ Credited s.log ∧ OwnCompletion s call) := by
  cases hr : runDocaTask s call with
  | none =>
    simp only [callStep, hr] at h
    cases h
  | some result =>
    obtain ⟨status, u⟩ := result
    obtain ⟨hu, hcalls, events, hlog, hevents, hown⟩ := runDocaTask_spec hs hr
    simp only [callStep, hr, Option.some.injEq] at h
    subst h
    have hunused : .completed s.calls .success ∉ s.log := by
      intro hmem
      exact Nat.lt_irrefl _ (hs.log_lt _ hmem)
    refine ⟨hu.returned (by omega) status, ?_⟩
    show Credited (u.log ++ [.returned s.calls status]) ↔ _
    rw [hlog, credited_append hunused hevents, hown]

/-! ## Runs of calls -/

/-- A call that starts with nothing in flight is ended by its own task. -/
theorem ownCompletion_of_settled {s t : WaitState} {call : TaskCall} (hs : s.inFlight = [])
    (h : callStep s call = some t) : OwnCompletion s call := by
  intro hsubmit completion hmem _
  cases hr : runDocaTask s call with
  | none =>
    simp only [callStep, hr] at h
    cases h
  | some result =>
    rw [runDocaTask_of_submitted hsubmit] at hr
    obtain ⟨events, hdelivered, hend⟩ := waitLoop_spec rfl hr
    rcases hend with ⟨hnone, -⟩ | ⟨ended, hsome, -, rfl⟩
    · rw [hnone] at hmem
      cases hmem
    · rw [hsome] at hmem
      cases hmem
      obtain ⟨task, htask, st, heq⟩ := hdelivered.of_inFlight _ List.mem_cons_self
      have hflight : (s.submitted call.kind).inFlight = [(s.calls, call.kind)] := by
        show s.inFlight ++ _ = _
        rw [hs, List.nil_append]
      rw [hflight, List.mem_singleton] at htask
      rw [(TaskEvent.completed.inj heq).1, htask]

theorem credited_of_fresh {calls : List TaskCall} {s t : WaitState} (hs : Fresh s)
    (h : run callStep calls s = some t) :
    Credited t.log ↔ Credited s.log ∧ Guarded callStep OwnCompletion calls s := by
  induction calls generalizing s with
  | nil =>
    cases h
    simp only [Guarded, and_true]
  | cons call calls ih =>
    obtain ⟨u, hone, hrest⟩ := exists_of_run_cons h
    obtain ⟨hu, hcall⟩ := callStep_spec hs hone
    rw [ih hu hrest, hcall, guarded_cons_of_some hone, and_assoc]

/-- Every success in a run of calls is that of the call's own task if and only if
no call is ended by the late success of another one. -/
theorem credited_iff {calls : List TaskCall} {s : WaitState}
    (h : run callStep calls WaitState.init = some s) :
    Credited s.log ↔ Guarded callStep OwnCompletion calls WaitState.init := by
  have hstart : Credited WaitState.init.log := fun _ => precedes_nil
  rw [credited_of_fresh fresh_init h, and_iff_right hstart]

/-- The runs in which every call finds its predecessors' tasks completed. -/
theorem credited_of_settled {calls : List TaskCall} {s : WaitState}
    (h : run callStep calls WaitState.init = some s)
    (hsettled : Guarded callStep (fun s _ => s.inFlight = []) calls WaitState.init) :
    Credited s.log := by
  rw [credited_iff h]
  exact Guarded.mono (fun _ _ _ hs hone => ownCompletion_of_settled hs hone) h hsettled

/-- The task completes at the first poll. -/
def promptCall (kind : TaskKind) (number : Nat) : TaskCall where
  kind := kind
  submit := .success
  polls := [⟨some ⟨number, .success⟩, false⟩]

/-- Nothing completes in 30 seconds. -/
def lateCall (kind : TaskKind) : TaskCall where
  kind := kind
  submit := .success
  polls := [⟨none, false⟩, ⟨none, true⟩]

/-- The encode of `main`, a repair that times out, and a parity case that is ended
by the task of the call `ending`. -/
def repairCalls (ending : Nat) : List TaskCall :=
  [promptCall .create 0, lateCall .recover, promptCall .create ending]

/-- The repair never completes. -/
theorem credited_repairCalls :
    ∃ s, run callStep (repairCalls 2) WaitState.init = some s ∧ Credited s.log := by
  have h : run callStep (repairCalls 2) WaitState.init = some _ := rfl
  exact ⟨_, h, (credited_iff h).mpr (by decide)⟩

/-- The repair completes while the parity case waits. -/
theorem not_credited_late :
    ¬ ∀ calls s, run callStep calls WaitState.init = some s → Credited s.log := by
  intro h
  have hlog := h (repairCalls 1) _ rfl 2
    [.submitted 0, .completed 0 .success, .returned 0 .success, .submitted 1,
      .returned 1 .timeOut, .submitted 2, .completed 1 .success] _ [] rfl rfl
  exact absurd hlog (by decide)

end DpuTest.EcDecode
