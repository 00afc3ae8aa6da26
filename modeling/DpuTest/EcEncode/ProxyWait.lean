import DpuTest.Doca
import DpuTest.Lib.StopLatch

/-!
# The batches of the proxy and their wait loops

`submitBatchHashTask` counts its tasks before it submits them, and
`submitECTaskBatch` after it; then the caller waits in `waitingHashTasks` or in
`waitingECTasksBatch`.  The callbacks run inside `doca_pe_progress`, so nothing
runs between the submission and the loop.  A completed callback counts the
resources down.  The error callbacks are empty.

`step` is one action of a proxy: a batch, a turn of the loop with what
`doca_pe_progress` delivers, or the end of the loop.  `ProxyState` remembers
how large the batch is and which of its tasks have failed.

* `Counted` is the invariant of a wait: the counter stands for the tasks that
  are out and for those that have failed.
* `endsWithBatch_iff` says of every run that a loop is left with its batch if
  and only if the batch has a task and none of them has failed.
-/

namespace DpuTest.EcEncode

open Lib

/-! ## Callbacks -/

/-- `DPU_TYPE`. -/
inductive DpuType where
  | sha
  | ec
  deriving DecidableEq

/-- The result of a task, and the resources of the proxy. -/
abbrev CallbackData := DocaStatus × Latch

/-- `sha_hash_completed_callback`. -/
def shaHashCompletedCallback : CallbackData → CallbackData
  | (_, resources) => (.success, resources.countDown)

/-- `sha_hash_error_callback`. -/
def shaHashErrorCallback (data : CallbackData) : CallbackData := data

/-- `ec_create_completed_callback`. -/
def ecCreateCompletedCallback : CallbackData → CallbackData
  | (_, resources) => (.success, resources.countDown)

/-- `ec_create_error_callback`. -/
def ecCreateErrorCallback (data : CallbackData) : CallbackData := data

/-- The callback that runs for a task that ends with a status. -/
def proxyCallback (dt : DpuType) (status : DocaStatus) : CallbackData → CallbackData :=
  match dt, status with
  | .sha, .success => shaHashCompletedCallback
  | .sha, _ => shaHashErrorCallback
  | .ec, .success => ecCreateCompletedCallback
  | .ec, _ => ecCreateErrorCallback

/-- The text of `sha_state_changed_callback` and of `ec_state_changed_callback`. -/
def proxyStateChangedCallback (next : CtxState) (resources : Latch) : Latch :=
  match next with
  | .idle => { resources with running := false }
  | .starting => resources
  | .running => resources
  | .stopping => resources

/-! ## The proxy -/

/-- What `initHash` and `initECBatch` fix: the kind of the proxy, and the tasks
it has prepared, `batch_chunk_num` or `ec_batch_size` of them. -/
structure ProxyConfig where
  dt : DpuType
  tasks : Nat
  tasks_lt : tasks < 2 ^ 31

structure ProxyState where
  resources : Latch
  /-- `task_result`, or the entries of `ec_task_result_batch` -/
  results : Nat → DocaStatus
  inFlight : List Nat
  waiting : Bool
  /-- the size of the last batch -/
  batch : Nat
  /-- the tasks of the last batch that have failed -/
  failed : List Nat

/-- After `initHash` or `initECBatch`. -/
def ProxyState.init (config : ProxyConfig) : ProxyState where
  resources :=
    match config.dt with
    | .sha => Latch.arm (UInt64.ofNat config.tasks)
    | .ec => Latch.arm 0
  results _ := .success
  inFlight := []
  waiting := false
  batch := 0
  failed := []

/-- What the SDK answers to the calls for a task. -/
structure SubmitAnswers where
  bufSetData : Nat → DocaStatus
  taskSubmit : Nat → DocaStatus

/-- `doca_task_submit`.  The program exits when it is refused. -/
def submitTask (sdk : SubmitAnswers) (s : ProxyState) (task : Nat) : Option ProxyState :=
  if sdk.taskSubmit task = .success then some { s with inFlight := s.inFlight ++ [task] } else none

/-- `DPUProxy::submitBatchHashTask`.  `none` is `exit(-1)`. -/
def ProxyState.submitBatchHashTask (sdk : SubmitAnswers) (nowBatchSize : Nat) (s : ProxyState) :
    Option ProxyState :=
  let s := { s with resources := { remaining := UInt64.ofNat nowBatchSize, running := true } }
  (List.range nowBatchSize).foldlM
    (fun s i => if sdk.bufSetData i = .success then submitTask sdk s i else none) s

/-- `DPUProxy::submitECTaskBatch`. -/
def ProxyState.submitECTaskBatch (sdk : SubmitAnswers) (ecBatchSize : Nat) (s : ProxyState) :
    Option ProxyState := do
  let s ← (List.range ecBatchSize).foldlM (submitTask sdk) s
  return { s with resources := { remaining := UInt64.ofNat ecBatchSize, running := true } }

/-- All hash tasks share one result. -/
def resultSlot (dt : DpuType) (task : Nat) : Nat :=
  match dt with
  | .sha => 0
  | .ec => task

inductive ProxyEvent where
  | task (task : Nat) (status : DocaStatus)
  | stateChanged (next : CtxState)

/-- One callback.  Nothing stops the context while the proxy is in use, so it
does not become idle. -/
def deliver (dt : DpuType) (s : ProxyState) : ProxyEvent → Option ProxyState
  | .task task status =>
    if task ∈ s.inFlight then
      let slot := resultSlot dt task
      let data := proxyCallback dt status (s.results slot, s.resources)
      some { s with
        resources := data.2
        results := fun i => if i = slot then data.1 else s.results i
        inFlight := s.inFlight.erase task
        failed := if status = .success then s.failed else task :: s.failed }
    else none
  | .stateChanged next =>
    match next with
    | .idle => none
    | next => some { s with resources := proxyStateChangedCallback next s.resources }

inductive ProxyAction where
  | submitBatchHashTask (nowBatchSize : Nat) (sdk : SubmitAnswers)
  | submitECTaskBatch (sdk : SubmitAnswers)
  /-- the loop finds the flag up and calls `doca_pe_progress` -/
  | peProgress (events : List ProxyEvent)
  /-- the loop finds the flag down -/
  | leave

/-- A batch that has been submitted is waited for. -/
def ProxyState.await (batch : Nat) (s : ProxyState) : ProxyState :=
  { s with waiting := true, batch := batch, failed := [] }

/-- One action of the program that uses the proxy.  The wait of a batch is over
before the next batch is submitted. -/
def step (config : ProxyConfig) (s : ProxyState) : ProxyAction → Option ProxyState
  | .submitBatchHashTask nowBatchSize sdk =>
    if config.dt = .sha ∧ nowBatchSize ≤ config.tasks ∧ s.waiting = false then
      (ProxyState.submitBatchHashTask sdk nowBatchSize s).map (ProxyState.await nowBatchSize)
    else none
  | .submitECTaskBatch sdk =>
    if config.dt = .ec ∧ s.waiting = false then
      (ProxyState.submitECTaskBatch sdk config.tasks s).map (ProxyState.await config.tasks)
    else none
  | .peProgress events =>
    if s.waiting = true ∧ s.resources.running = true then run (deliver config.dt) events s
    else none
  | .leave =>
    if s.waiting = true ∧ s.resources.running = false then some { s with waiting := false }
    else none

/-- The loop has not been left before all tasks have completed, and once they
have it is left. -/
def EndsWithBatch (config : ProxyConfig) (s : ProxyState) : Prop :=
  (s.waiting = false → s.inFlight = []) ∧
    (s.waiting = true → s.inFlight = [] → ∃ t, step config s .leave = some t)

/-! ## Submission -/

section

variable {sdk : SubmitAnswers} {s t : ProxyState}

theorem submitTask_eq {task : Nat} (h : submitTask sdk s task = some t) :
    t = { s with inFlight := s.inFlight ++ [task] } := by
  rw [submitTask] at h
  split at h
  · exact (Option.some.inj h).symm
  · cases h

/-- A loop whose body submits the tasks of a list. -/
theorem foldlM_submit {f : ProxyState → Nat → Option ProxyState}
    (hf : ∀ s i t, f s i = some t → submitTask sdk s i = some t) {tasks : List Nat}
    (h : tasks.foldlM f s = some t) : t = { s with inFlight := s.inFlight ++ tasks } := by
  induction tasks generalizing s with
  | nil =>
    cases h
    rw [List.append_nil]
  | cons i tasks ih =>
    rw [List.foldlM_cons] at h
    obtain ⟨u, hone, hrest⟩ := Option.bind_eq_some_iff.mp h
    have hu := submitTask_eq (hf s i u hone)
    rw [ih hrest, hu, List.append_assoc]
    rfl

/-- What both submissions leave. -/
def ProxyState.submitted (n : Nat) (s : ProxyState) : ProxyState :=
  { s with
    resources := { remaining := UInt64.ofNat n, running := true }
    inFlight := s.inFlight ++ List.range n }

theorem submitBatchHashTask_eq {nowBatchSize : Nat}
    (h : ProxyState.submitBatchHashTask sdk nowBatchSize s = some t) :
    t = s.submitted nowBatchSize := by
  have hbody : ∀ (s : ProxyState) (i : Nat) (t : ProxyState),
      (if sdk.bufSetData i = .success then submitTask sdk s i else none) = some t →
        submitTask sdk s i = some t := by
    intro s i t hone
    split at hone
    · exact hone
    · cases hone
  exact foldlM_submit hbody h

theorem submitECTaskBatch_eq {ecBatchSize : Nat}
    (h : ProxyState.submitECTaskBatch sdk ecBatchSize s = some t) : t = s.submitted ecBatchSize := by
  obtain ⟨u, hloop, hset⟩ := Option.bind_eq_some_iff.mp h
  have hu := foldlM_submit (fun _ _ _ hone => hone) hloop
  rw [← Option.some.inj hset, hu]
  rfl

end

/-! ## The invariant of a wait -/

/-- The counter stands for the tasks that are out and for those that have
failed. -/
structure Counted (s : ProxyState) : Prop where
  remaining_eq : s.resources.remaining.toNat = s.inFlight.length + s.failed.length
  running_iff : s.resources.running = false ↔ 0 < s.batch ∧ s.inFlight = [] ∧ s.failed = []
  batch_pos : s.inFlight ≠ [] → 0 < s.batch

/-- What holds of a proxy between the actions. -/
structure ProxyInv (s : ProxyState) : Prop where
  ready : s.waiting = false → s.inFlight = []
  counted : s.waiting = true → Counted s

section

variable {config : ProxyConfig} {dt : DpuType} {s t : ProxyState}

theorem counted_submitted {n : Nat} (hn : n < 2 ^ 31) (hs : s.inFlight = []) :
    Counted ((s.submitted n).await n) where
  remaining_eq := by
    show (UInt64.ofNat n).toNat = (s.inFlight ++ List.range n).length + 0
    rw [hs, List.nil_append, List.length_range, UInt64.toNat_ofNat']
    omega
  running_iff := by
    show true = false ↔ 0 < n ∧ s.inFlight ++ List.range n = [] ∧ [] = []
    rw [hs, List.nil_append, List.range_eq_nil]
    constructor
    · intro h
      cases h
    · intro h
      omega
  batch_pos := by
    show s.inFlight ++ List.range n ≠ [] → 0 < n
    rw [hs, List.nil_append, Ne, List.range_eq_nil]
    omega

/-- What the callback of a task does. -/
theorem deliver_task {task : Nat} {status : DocaStatus}
    (h : deliver dt s (.task task status) = some t) :
    task ∈ s.inFlight ∧ t.waiting = s.waiting ∧ t.batch = s.batch ∧
      t.inFlight = s.inFlight.erase task ∧
      (status = .success ∧ t.resources = s.resources.countDown ∧ t.failed = s.failed ∨
        t.resources = s.resources ∧ t.failed = task :: s.failed) := by
  by_cases hmem : task ∈ s.inFlight
  · simp only [deliver, if_pos hmem, Option.some.injEq] at h
    subst h
    refine ⟨hmem, rfl, rfl, rfl, ?_⟩
    cases status with
    | success => cases dt <;> exact Or.inl ⟨rfl, rfl, rfl⟩
    | inProgress => cases dt <;> exact Or.inr ⟨rfl, rfl⟩
    | timeOut => cases dt <;> exact Or.inr ⟨rfl, rfl⟩
    | other code => cases dt <;> exact Or.inr ⟨rfl, rfl⟩
  · simp only [deliver, if_neg hmem] at h
    cases h

/-- A change of the context does nothing. -/
theorem deliver_stateChanged {next : CtxState}
    (h : deliver dt s (.stateChanged next) = some t) : t = s := by
  cases next with
  | idle => cases h
  | starting => exact (Option.some.inj h).symm
  | running => exact (Option.some.inj h).symm
  | stopping => exact (Option.some.inj h).symm

theorem Counted.of_completed {task : Nat} (hs : Counted s) (hmem : task ∈ s.inFlight)
    (hflight : t.inFlight = s.inFlight.erase task) (hbatch : t.batch = s.batch)
    (hresources : t.resources = s.resources.countDown) (hfailed : t.failed = s.failed) :
    Counted t := by
  have hlen := StopLatch.length_erase_add_one hmem
  have hrem := hs.remaining_eq
  have hne : s.inFlight ≠ [] := List.ne_nil_of_mem hmem
  have hup : s.resources.running = true := by
    rw [← Bool.not_eq_false, hs.running_iff]
    exact fun h => hne h.2.1
  have hnz : s.resources.remaining ≠ 0 := by
    intro h0
    rw [h0] at hrem
    simp only [UInt64.toNat_zero] at hrem
    omega
  have hsub := toNat_sub_one hnz
  have hzero : s.resources.remaining - 1 = 0 ↔
      s.inFlight.erase task = [] ∧ s.failed = [] := by
    rw [← UInt64.toNat_inj, hsub, ← List.length_eq_zero_iff, ← List.length_eq_zero_iff]
    show _ = 0 ↔ _
    omega
  refine ⟨?_, ?_, ?_⟩
  · rw [hresources, hflight, hfailed]
    show (s.resources.remaining - 1).toNat = _
    omega
  · rw [hresources, hflight, hfailed, hbatch]
    show (if s.resources.remaining - 1 = 0 then false else s.resources.running) = false ↔ _
    by_cases hlast : s.resources.remaining - 1 = 0
    · rw [if_pos hlast]
      exact ⟨fun _ => ⟨hs.batch_pos hne, hzero.mp hlast⟩, fun _ => rfl⟩
    · rw [if_neg hlast, hup]
      constructor
      · intro h
        cases h
      · intro h
        exact absurd (hzero.mpr h.2) hlast
  · intro _
    rw [hbatch]
    exact hs.batch_pos hne

theorem Counted.of_failed {task : Nat} (hs : Counted s) (hmem : task ∈ s.inFlight)
    (hflight : t.inFlight = s.inFlight.erase task) (hbatch : t.batch = s.batch)
    (hresources : t.resources = s.resources) (hfailed : t.failed = task :: s.failed) :
    Counted t := by
  have hlen := StopLatch.length_erase_add_one hmem
  have hrem := hs.remaining_eq
  have hne : s.inFlight ≠ [] := List.ne_nil_of_mem hmem
  refine ⟨?_, ?_, ?_⟩
  · rw [hresources, hflight, hfailed, List.length_cons]
    omega
  · rw [hresources, hs.running_iff, hfailed]
    constructor
    · intro h
      exact absurd h.2.1 hne
    · intro h
      cases h.2.2
  · intro _
    rw [hbatch]
    exact hs.batch_pos hne

/-- Every callback keeps the invariant of the wait. -/
theorem deliver_counted (e : ProxyEvent) (hs : s.waiting = true ∧ Counted s)
    (h : deliver dt s e = some t) : t.waiting = true ∧ Counted t := by
  cases e with
  | task task status =>
    obtain ⟨hmem, hwaiting, hbatch, hflight, hend⟩ := deliver_task h
    refine ⟨hwaiting.trans hs.1, ?_⟩
    rcases hend with ⟨-, hresources, hfailed⟩ | ⟨hresources, hfailed⟩
    · exact hs.2.of_completed hmem hflight hbatch hresources hfailed
    · exact hs.2.of_failed hmem hflight hbatch hresources hfailed
  | stateChanged next =>
    rw [deliver_stateChanged h]
    exact hs

theorem proxyInv_await {n : Nat} (hs : Counted (s.await n)) : ProxyInv (s.await n) where
  ready h := by cases h
  counted _ := hs

/-- Every action keeps the invariant of the proxy. -/
theorem step_proxyInv (a : ProxyAction) (hs : ProxyInv s) (h : step config s a = some t) :
    ProxyInv t := by
  cases a with
  | submitBatchHashTask nowBatchSize sdk =>
    rw [step] at h
    split at h
    · rename_i hready
      obtain ⟨u, hsubmit, rfl⟩ := Option.map_eq_some_iff.mp h
      have hlt : nowBatchSize < 2 ^ 31 := Nat.lt_of_le_of_lt hready.2.1 config.tasks_lt
      rw [submitBatchHashTask_eq hsubmit]
      exact proxyInv_await (counted_submitted hlt (hs.ready hready.2.2))
    · cases h
  | submitECTaskBatch sdk =>
    rw [step] at h
    split at h
    · rename_i hready
      obtain ⟨u, hsubmit, rfl⟩ := Option.map_eq_some_iff.mp h
      rw [submitECTaskBatch_eq hsubmit]
      exact proxyInv_await (counted_submitted config.tasks_lt (hs.ready hready.2))
    · cases h
  | peProgress events =>
    rw [step] at h
    split at h
    · rename_i hwaits
      have ht := run_inv (fun s => s.waiting = true ∧ Counted s)
        (fun _ e _ hu hone => deliver_counted e hu hone) h ⟨hwaits.1, hs.counted hwaits.1⟩
      refine ⟨?_, fun _ => ht.2⟩
      intro hf
      rw [ht.1] at hf
      cases hf
    · cases h
  | leave =>
    rw [step] at h
    split at h
    · rename_i hdown
      cases h
      have hcounted := hs.counted hdown.1
      refine ⟨fun _ => (hcounted.running_iff.mp hdown.2).2.1, ?_⟩
      intro hf
      cases hf
    · cases h

theorem proxyInv_init : ProxyInv (ProxyState.init config) where
  ready _ := rfl
  counted h := by cases h

/-! ## Waits that do not end -/

/-- The flag is up, and no task is out that could drop it. -/
def Stuck (s : ProxyState) : Prop :=
  s.waiting = true ∧ s.inFlight = [] ∧ s.resources.running = true

theorem deliver_stuck (e : ProxyEvent) (hs : Stuck s) (h : deliver dt s e = some t) :
    Stuck t := by
  cases e with
  | task task status =>
    have hmem := (deliver_task h).1
    rw [hs.2.1] at hmem
    cases hmem
  | stateChanged next =>
    rw [deliver_stateChanged h]
    exact hs

theorem step_stuck (a : ProxyAction) (hs : Stuck s) (h : step config s a = some t) :
    Stuck t := by
  cases a with
  | submitBatchHashTask nowBatchSize sdk => simp [step, hs.1] at h
  | submitECTaskBatch sdk => simp [step, hs.1] at h
  | peProgress events =>
    simp only [step, hs.1, hs.2.2, and_self, if_true] at h
    exact run_inv Stuck (fun _ e _ hu hone => deliver_stuck e hu hone) h hs
  | leave => simp [step, hs.2.2] at h

/-- When all tasks have completed, the loop is left if and only if the batch has
a task and none has failed. -/
theorem leaves_iff (hs : Counted s) (hwaiting : s.waiting = true) (hnil : s.inFlight = []) :
    (∃ t, step config s .leave = some t) ↔ 0 < s.batch ∧ s.failed = [] := by
  have hrunning := hs.running_iff
  simp only [hnil, true_and] at hrunning
  rw [← hrunning]
  constructor
  · rintro ⟨t, ht⟩
    rw [step] at ht
    split at ht
    · rename_i hdown
      exact hdown.2
    · cases ht
  · intro hdown
    exact ⟨_, if_pos ⟨hwaiting, hdown⟩⟩

end

/-- In every run of a proxy, whatever its batches are and however their tasks
end, no loop is left before all tasks of its batch have completed; and when they
have, it is left if and only if the batch has a task and none of them has
failed.  If it is not, it never is. -/
theorem endsWithBatch_iff (config : ProxyConfig) {actions : List ProxyAction} {s : ProxyState}
    (h : run (step config) actions (ProxyState.init config) = some s) :
    (EndsWithBatch config s ↔
      (s.waiting = true → s.inFlight = [] → 0 < s.batch ∧ s.failed = [])) ∧
    (¬ EndsWithBatch config s → ∀ (later : List ProxyAction) (t : ProxyState),
      run (step config) later s = some t → t.waiting = true) := by
  have hs : ProxyInv s :=
    run_inv ProxyInv (fun _ a _ hu hone => step_proxyInv a hu hone) h proxyInv_init
  have hiff : EndsWithBatch config s ↔
      (s.waiting = true → s.inFlight = [] → 0 < s.batch ∧ s.failed = []) := by
    rw [EndsWithBatch, and_iff_right hs.ready]
    constructor
    · intro hleaves hwaiting hnil
      exact (leaves_iff (hs.counted hwaiting) hwaiting hnil).mp (hleaves hwaiting hnil)
    · intro hmeets hwaiting hnil
      exact (leaves_iff (hs.counted hwaiting) hwaiting hnil).mpr (hmeets hwaiting hnil)
  refine ⟨hiff, ?_⟩
  intro hends later t hlater
  rw [hiff] at hends
  simp only [Classical.not_imp] at hends
  obtain ⟨hwaiting, hnil, hbad⟩ := hends
  have hstuck : Stuck s := by
    refine ⟨hwaiting, hnil, ?_⟩
    rw [← Bool.not_eq_false, (hs.counted hwaiting).running_iff]
    exact fun hdown => hbad ⟨hdown.1, hdown.2.2⟩
  exact (run_inv Stuck (fun _ a _ hu hone => step_stuck a hu hone) hlater hstuck).1

theorem two_lt_tasks : 2 < 2 ^ 31 := by
  decide

/-- A proxy that has prepared two hash tasks. -/
def twoHashTasks : ProxyConfig where
  dt := .sha
  tasks := 2
  tasks_lt := two_lt_tasks

/-- Every task is accepted. -/
def allAccepted : SubmitAnswers where
  bufSetData _ := .success
  taskSubmit _ := .success

/-- A batch of two tasks that complete in the other order, and a batch of one. -/
def twoBatches : List ProxyAction :=
  [.submitBatchHashTask 2 allAccepted,
    .peProgress [.task 1 .success, .stateChanged .running, .task 0 .success], .leave,
    .submitBatchHashTask 1 allAccepted, .peProgress [], .peProgress [.task 0 .success]]

theorem endsWithBatch_twoBatches : ∃ s,
    run (step twoHashTasks) twoBatches (ProxyState.init twoHashTasks) = some s ∧
      EndsWithBatch twoHashTasks s := by
  have hrun : ∃ s, run (step twoHashTasks) twoBatches (ProxyState.init twoHashTasks) = some s ∧
      0 < s.batch ∧ s.failed = [] := ⟨_, rfl, by decide, rfl⟩
  obtain ⟨s, hs, hmeets⟩ := hrun
  exact ⟨s, hs, (endsWithBatch_iff twoHashTasks hs).1.mpr fun _ _ => hmeets⟩

/-- The loop is not left after a task that fails, and not after an empty batch. -/
theorem not_endsWithBatch :
    (∃ s, run (step twoHashTasks) [.submitBatchHashTask 1 allAccepted,
        .peProgress [.task 0 (.other 5)]] (ProxyState.init twoHashTasks) = some s ∧
      ¬ EndsWithBatch twoHashTasks s) ∧
    (∃ s, run (step twoHashTasks) [.submitBatchHashTask 0 allAccepted]
        (ProxyState.init twoHashTasks) = some s ∧ ¬ EndsWithBatch twoHashTasks s) := by
  refine ⟨⟨_, rfl, ?_⟩, ⟨_, rfl, ?_⟩⟩
  · intro hends
    obtain ⟨t, ht⟩ := hends.2 rfl rfl
    cases ht
  · intro hends
    obtain ⟨t, ht⟩ := hends.2 rfl rfl
    cases ht

end DpuTest.EcEncode
