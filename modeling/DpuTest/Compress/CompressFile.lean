import DpuTest.Compress.FileReads
import DpuTest.Compress.WaitLoop
import DpuTest.Lib.Engine

/-!
# The test that compresses and decompresses with DOCA

Each turn of the loop of `compressFileDOCA` submits the compress tasks and waits for
them, and then does the same with the decompress tasks.  The tasks are allocated once,
and the error callbacks free them.  A turn looks at the status of `task_result`, which
no callback writes.

How the tasks end, and in which order, is an input: an `outcome` for each batch.  A
batch that fails leaves its failed tasks freed, and its context stopped if the task
that completes last has failed (`waitBatch_spec`).  What comes of that in the next turn
is `runBatch_of_failed`: the next batch submits a freed task, unless the context has
stopped and task 0 is still there.

`reports_iff` says for a whole call when failures are reported.
-/

namespace DpuTest.Compress

open Lib

/-- How the tasks of a batch end, and in which order. -/
structure BatchOutcome (n : Nat) where
  order : CompletionOrder n
  report : Nat → TaskReport
  /-- What `doca_buf_get_data_len` answers for the destination buffers. -/
  dataLen : Nat → Nat

namespace BatchOutcome

variable {n : Nat} (o : BatchOutcome n)

def fails (i : Nat) : Bool := decide ((o.report i).status ≠ .success)

/-- The tasks that fail. -/
def failed : List Nat := o.order.tasks.filter o.fails

/-- The task that completes last fails, so that its callback stops the context. -/
def stops : Bool := o.order.tasks.getLast?.any o.fails

/-- What each call of `doca_pe_progress` delivers. -/
def calls : List (List ProgressEvent) :=
  (o.order.tasks.map fun i => [.task i (o.report i)]) ++
    if o.stops then [[.stateChanged .idle]] else []

def statuses : List DocaStatus := (List.range n).map fun i => (o.report i).status

def totalLen : UInt64 := ((List.range n).map fun i => UInt64.ofNat (o.dataLen i)).sum

/-- No task fails. -/
def Succeeds : Prop := ∀ i, i < n → (o.report i).status = .success

/-- The task that completes last fails, and task 0 does not. -/
def StopsCleanly : Prop := o.stops = true ∧ (o.report 0).status = .success

end BatchOutcome

/-- `compress_resources` with its tasks, and whether its context is running. -/
structure DeflateSide where
  wait : BatchWait
  ctxRunning : Bool

/-- The device has got more tasks. -/
def DeflateSide.submit (side : DeflateSide) (tasks : List Nat) : DeflateSide :=
  { side with wait := { side.wait with inFlight := side.wait.inFlight ++ tasks } }

/-- How a call of `compressFileDOCA` ends before the end of the file. -/
inductive Exit where
  | returned (status : DocaStatus)
  /-- A task is submitted that has been freed. -/
  | usesFreedTask
  deriving DecidableEq

/-- What `doca_task_submit` answers when the context has stopped. -/
structure StoppedContext where
  status : DocaStatus
  status_ne : status ≠ .success

section

variable (sdk : StoppedContext)

/-- The loop that submits. -/
def submitTasks : List Nat → DeflateSide → Except Exit DeflateSide
  | [], side => .ok side
  | i :: tasks, side =>
    if i ∈ side.wait.freed then .error .usesFreedTask
    else if side.ctxRunning then submitTasks tasks (side.submit [i])
    else .error (.returned sdk.status)

/-- The resources are set, and the loop polls. -/
def waitBatch {n : Nat} (mode : DeflateMode) (o : BatchOutcome n) (side : DeflateSide) :
    Option DeflateSide :=
  (progressLoop (fun wait => wait.resources.running) (deliver mode) o.calls
      { side.wait with resources := Latch.arm (UInt64.ofNat n) }).map fun wait =>
    { wait := wait, ctxRunning := side.ctxRunning && !o.stops }

/-- A batch is submitted and waited for.  `none` is a wait that does not end. -/
def runBatch {n : Nat} (mode : DeflateMode) (o : BatchOutcome n) (side : DeflateSide) :
    Option (Except Exit DeflateSide) :=
  match submitTasks sdk (List.range n) side with
  | .error e => some (.error e)
  | .ok side => (waitBatch mode o side).map .ok

/-- The outcomes of a turn. -/
structure TurnOutcome (n : Nat) where
  compress : BatchOutcome n
  decompress : BatchOutcome n

/-- The variables of `compressFileDOCA`, and the statuses of the tasks so far. -/
structure CompressFileState where
  turn : Nat
  totalBefore : UInt64
  totalAfterCompression : UInt64
  totalAfterDecompression : UInt64
  /-- `task_result.status` -/
  taskResult : DocaStatus
  compress : DeflateSide
  decompress : DeflateSide
  statuses : List DocaStatus
  exit : Option Exit

variable {n : Nat} (reads : Nat → ReadResult) (outcomes : Nat → TurnOutcome n)

/-- The loop has not been left, and `n` is not 0. -/
def compressFileReads (s : CompressFileState) : Bool :=
  s.exit.isNone && (reads s.turn).count != 0

/-- The half of a turn that decompresses. -/
def decompressHalf (o : BatchOutcome n) (s : CompressFileState) : Option CompressFileState :=
  (runBatch sdk .decompressDeflate o s.decompress).map fun
    | .error e => { s with exit := some e }
    | .ok side =>
      { s with
        decompress := side
        statuses := s.statuses ++ o.statuses
        totalAfterDecompression := s.totalAfterDecompression + o.totalLen }

/-- The half of a turn that compresses. -/
def compressHalf (o : BatchOutcome n) (s : CompressFileState) : Option CompressFileState :=
  (runBatch sdk .compressDeflate o s.compress).map fun
    | .error e => { s with exit := some e }
    | .ok side =>
      let s := { s with compress := side, statuses := s.statuses ++ o.statuses }
      if s.taskResult ≠ .success then { s with exit := some (.returned s.taskResult) }
      else { s with totalAfterCompression := s.totalAfterCompression + o.totalLen }

/-- A turn of the loop in which `n` is not 0. -/
def compressFilePass (s : CompressFileState) : Option CompressFileState :=
  (compressHalf sdk (outcomes s.turn).compress
      { s with
        turn := s.turn + 1
        totalBefore := s.totalBefore + UInt64.ofInt (reads s.turn).count }).bind fun s' =>
    if s'.exit.isNone then decompressHalf sdk (outcomes s.turn).decompress s' else some s'

/-- What `compressFileDOCA` returns.  At the end of the file it is the last `result`,
which was tested. -/
def CompressFileState.returns (s : CompressFileState) : Option DocaStatus :=
  match s.exit with
  | none => some .success
  | some (.returned status) => some status
  | some .usesFreedTask => none

/-- The call comes to its end, has submitted no freed task, and has returned
`DOCA_SUCCESS` only if every task succeeded. -/
def ReportsFailures (s : CompressFileState) : Prop :=
  ∃ t, LoopEnds (compressFileReads reads) (compressFilePass sdk reads outcomes) s t ∧
    t.exit ≠ some .usesFreedTask ∧
      (t.returns = some .success → ∀ status ∈ t.statuses, status = .success)

end

/-- Resources after `initCompressionResources` or `initDecompressionResources`. -/
def readySide : DeflateSide where
  wait :=
    { resources := { remaining := 0, running := false }
      taskResultBatch := fun _ => { status := .success, crcCs := 0, adlerCs := 0 }
      inFlight := []
      freed := []
      stopPending := false }
  ctxRunning := true

/-- The state before the first read. -/
def compressFileStart (totalBefore totalAfterCompression totalAfterDecompression : UInt64) :
    CompressFileState where
  turn := 0
  totalBefore := totalBefore
  totalAfterCompression := totalAfterCompression
  totalAfterDecompression := totalAfterDecompression
  taskResult := .success
  compress := readySide
  decompress := readySide
  statuses := []
  exit := none

/-! ## When failures are reported -/

namespace TurnOutcome

variable {n : Nat} (o : TurnOutcome n)

/-- No task fails in the turn. -/
def Succeeds : Prop := o.compress.Succeeds ∧ o.decompress.Succeeds

/-- In the first batch of the turn with a failure, the task that completes last fails
and task 0 does not. -/
def StopsCleanly : Prop :=
  o.compress.StopsCleanly ∨ o.compress.Succeeds ∧ o.decompress.StopsCleanly

end TurnOutcome

/-- The first turn with a failure, if there is one, stops its context cleanly, and
another turn follows. -/
def FailuresStop {n : Nat} : List (TurnOutcome n) → Prop
  | [] => True
  | o :: later => o.Succeeds ∧ FailuresStop later ∨ o.StopsCleanly ∧ later ≠ []

/-! ## One batch -/

section

variable {n : Nat} {o : BatchOutcome n} {mode : DeflateMode}

theorem BatchOutcome.failed_eq_nil_iff : o.failed = [] ↔ o.Succeeds := by
  rw [BatchOutcome.failed, List.filter_eq_nil_iff]
  constructor
  · intro h i hi
    have hnot := h i (o.order.mem_iff.mpr hi)
    simpa [BatchOutcome.fails] using hnot
  · intro h i hi
    have hok := h i (o.order.mem_iff.mp hi)
    simp [BatchOutcome.fails, hok]

theorem BatchOutcome.mem_failed_iff {i : Nat} :
    i ∈ o.failed ↔ i < n ∧ (o.report i).status ≠ .success := by
  rw [BatchOutcome.failed, List.mem_filter, o.order.mem_iff, BatchOutcome.fails,
    decide_eq_true_eq]

theorem BatchOutcome.not_stops (h : o.Succeeds) : o.stops = false := by
  rw [BatchOutcome.stops, Option.any_eq_false_iff_get]
  intro hsome
  have hmem : (o.order.tasks.getLast?.get hsome) ∈ o.order.tasks :=
    List.mem_of_getLast? (Option.some_get hsome).symm
  have hok := h _ (o.order.mem_iff.mp hmem)
  simp [BatchOutcome.fails, hok]

/-- The completions of the tasks that are left, one a call. -/
theorem progressLoop_tasks {tasks : List Nat} (rest : List (List ProgressEvent)) {s : BatchWait}
    (hwaits : s.latch.Waits s.inFlight.length) (hperm : s.inFlight.Perm tasks) :
    ∃ t, progressLoop (fun wait => wait.resources.running) (deliver mode)
        ((tasks.map fun i => [.task i (o.report i)]) ++ rest) s =
          progressLoop (fun wait => wait.resources.running) (deliver mode) rest t ∧
      t.inFlight = [] ∧ t.latch.Waits 0 ∧ t.freed = s.freed ++ tasks.filter o.fails ∧
      t.stopPending = tasks.getLast?.elim s.stopPending o.fails := by
  induction tasks generalizing s with
  | nil =>
    have hnil := hperm.eq_nil
    rw [hnil] at hwaits
    exact ⟨s, rfl, hnil, hwaits, (List.append_nil _).symm, rfl⟩
  | cons i tasks ih =>
    have hmem : i ∈ s.inFlight := hperm.mem_iff.mpr List.mem_cons_self
    have hup : s.resources.running = true :=
      hwaits.running_of_pos (List.length_pos_of_mem hmem)
    obtain ⟨s', hone⟩ : ∃ s', deliver mode s (.task i (o.report i)) = some s' := by
      simp only [deliver, if_pos hmem]
      exact ⟨_, rfl⟩
    obtain ⟨-, hflight, hlatch⟩ := deliver_task hone
    have hwaits' := deliver_waits _ hwaits hone
    have hperm' : s'.inFlight.Perm tasks := by
      rw [hflight]
      have herase := hperm.erase i
      rw [List.erase_cons_head] at herase
      exact herase
    obtain ⟨t, hloop, hnil, hzero, hfreed, hstop⟩ := ih hwaits' hperm'
    refine ⟨t, ?_, hnil, hzero, ?_, ?_⟩
    · rw [List.map_cons, List.cons_append, progressLoop, if_pos hup]
      simp only [run, hone]
      exact hloop
    · rw [hfreed, freed_of_deliver hone]
      by_cases hstatus : (o.report i).status = .success
      · rw [if_pos hstatus, List.filter_cons_of_neg (by simp [BatchOutcome.fails, hstatus])]
      · rw [if_neg hstatus, List.filter_cons_of_pos (by simp [BatchOutcome.fails, hstatus]),
          List.append_assoc, List.singleton_append]
    · rw [hstop]
      cases tasks with
      | cons j later => rw [List.getLast?_cons_cons]; rfl
      | nil =>
        -- this is the task that completes last
        have hlen : s.inFlight.length = 0 + 1 := hperm.length_eq
        rw [hlen] at hwaits
        have hquiet : s.stopPending = false := hwaits.stopPending_of_pos (Nat.succ_pos 0)
        have hlast := hwaits.remaining_sub_one.2.mpr rfl
        show s'.latch.stopPending = o.fails i
        rw [hlatch, BatchOutcome.fails]
        by_cases hstatus : (o.report i).status = .success
        · simp [hstatus, StopLatch.completed, BatchWait.latch, hquiet]
        · have hlast' : s.latch.remaining - 1 = 0 := hlast
          simp [hstatus, StopLatch.failed, hlast']

/-- Nothing is out, and no stop is pending. -/
structure Idle (side : DeflateSide) : Prop where
  inFlight_eq : side.wait.inFlight = []
  stopPending_eq : side.wait.stopPending = false

/-- What is left of the tasks and the context after a batch. -/
structure After (o : BatchOutcome n) (side : DeflateSide) : Prop extends Idle side where
  freed_eq : side.wait.freed = o.failed
  ctxRunning_eq : side.ctxRunning = !o.stops

/-- All tasks are there, and the context runs. -/
structure Ready (side : DeflateSide) : Prop extends Idle side where
  freed_eq : side.wait.freed = []
  ctxRunning_eq : side.ctxRunning = true

theorem After.ready {side : DeflateSide} (h : After o side) (ho : o.Succeeds) : Ready side where
  toIdle := h.toIdle
  freed_eq := by rw [h.freed_eq, BatchOutcome.failed_eq_nil_iff.mpr ho]
  ctxRunning_eq := by rw [h.ctxRunning_eq, BatchOutcome.not_stops ho]; rfl

/-- The wait for a whole batch ends, and what has failed is freed. -/
theorem waitBatch_spec (hpos : 0 < n) (hlt : n < 2 ^ 64) (mode : DeflateMode) (o : BatchOutcome n)
    {side : DeflateSide} (hflight : side.wait.inFlight = List.range n)
    (hquiet : side.wait.stopPending = false) (hfreed : side.wait.freed = [])
    (hctx : side.ctxRunning = true) :
    ∃ side', waitBatch mode o side = some side' ∧ After o side' := by
  have hcount : (UInt64.ofNat n).toNat = n := UInt64.toNat_ofNat_of_lt' hlt
  have hwaits : BatchWait.latch { side.wait with resources := Latch.arm (UInt64.ofNat n) }
      |>.Waits side.wait.inFlight.length := by
    have harm : (StopLatch.arm (UInt64.ofNat n)).Waits (UInt64.ofNat n).toNat :=
      StopLatch.waits_arm (by omega)
    rw [hcount] at harm
    rw [hflight, List.length_range]
    refine ⟨harm.remaining_eq, fun _ => rfl, fun _ => hquiet, fun h => by omega⟩
  have hperm : side.wait.inFlight.Perm o.order.tasks := by
    rw [hflight]
    exact o.order.perm.symm
  obtain ⟨t, hloop, hnil, hzero, ht, hstop⟩ := progressLoop_tasks
    (if o.stops then [[.stateChanged .idle]] else []) hwaits hperm
  have hlast : t.stopPending = o.stops := by
    rw [hstop, BatchOutcome.stops]
    cases o.order.tasks.getLast? with
    | none => exact hquiet
    | some i => rfl
  have hdown := hzero.running_iff_of_zero rfl
  have hfailed : t.freed = o.failed := by
    rw [ht]
    show side.wait.freed ++ _ = _
    rw [hfreed, List.nil_append]
    rfl
  rw [waitBatch, BatchOutcome.calls, hloop]
  cases hstops : o.stops with
  | true =>
    have hup : t.resources.running = true := by
      rw [← Bool.not_eq_false]
      intro hfalse
      have hfree := hdown.mp hfalse
      rw [show t.latch.stopPending = true from hlast.trans hstops] at hfree
      cases hfree
    have hidle : deliver mode t (.stateChanged .idle) = some
        { t with
          resources := compressStateChangedCallback .idle t.resources
          stopPending := false } := by
      simp only [deliver, if_pos hnil]
    rw [if_pos rfl, progressLoop, if_pos hup]
    simp only [run, hidle]
    refine ⟨_, rfl, ⟨⟨hnil, rfl⟩, hfailed, ?_⟩⟩
    rw [hctx, hstops]
    rfl
  | false =>
    have hfalse : t.resources.running = false := hdown.mpr (hlast.trans hstops)
    rw [if_neg Bool.false_ne_true, progressLoop, if_neg (by rw [hfalse]; exact Bool.false_ne_true)]
    refine ⟨_, rfl, ⟨⟨hnil, hlast.trans hstops⟩, hfailed, ?_⟩⟩
    rw [hctx, hstops]
    rfl

variable (sdk : StoppedContext)

/-- A running context takes tasks that have not been freed. -/
theorem submitTasks_ok (tasks : List Nat) {side : DeflateSide} (hfreed : side.wait.freed = [])
    (hctx : side.ctxRunning = true) :
    submitTasks sdk tasks side = .ok (side.submit tasks) := by
  induction tasks generalizing side with
  | nil => rw [submitTasks, DeflateSide.submit, List.append_nil]
  | cons i tasks ih =>
    have hrest : submitTasks sdk tasks (side.submit [i]) = .ok ((side.submit [i]).submit tasks) :=
      ih hfreed hctx
    rw [submitTasks, if_neg (by rw [hfreed]; exact List.not_mem_nil), if_pos hctx, hrest,
      DeflateSide.submit, DeflateSide.submit, List.append_assoc, List.singleton_append]
    rfl

/-- A task that has been freed is submitted. -/
theorem submitTasks_freed {tasks : List Nat} {side : DeflateSide}
    (hctx : side.ctxRunning = true) (h : ∃ i ∈ tasks, i ∈ side.wait.freed) :
    submitTasks sdk tasks side = .error .usesFreedTask := by
  induction tasks generalizing side with
  | nil =>
    obtain ⟨i, hi, -⟩ := h
    cases hi
  | cons i tasks ih =>
    rw [submitTasks]
    by_cases hi : i ∈ side.wait.freed
    · rw [if_pos hi]
    · rw [if_neg hi, if_pos hctx]
      have hrest : ∃ j ∈ tasks, j ∈ (side.submit [i]).wait.freed := by
        obtain ⟨j, hj, hjfreed⟩ := h
        rcases List.mem_cons.mp hj with rfl | hmem
        · exact absurd hjfreed hi
        · exact ⟨j, hmem, hjfreed⟩
      exact ih hctx hrest

/-- A batch of tasks that are all there. -/
theorem runBatch_of_ready (hpos : 0 < n) (hlt : n < 2 ^ 64) (mode : DeflateMode)
    (o : BatchOutcome n) {side : DeflateSide} (h : Ready side) :
    ∃ side', runBatch sdk mode o side = some (.ok side') ∧ After o side' := by
  have hsubmit := submitTasks_ok sdk (List.range n) h.freed_eq h.ctxRunning_eq
  have hflight : (side.submit (List.range n)).wait.inFlight = List.range n := by
    rw [DeflateSide.submit, h.inFlight_eq, List.nil_append]
  obtain ⟨side', hwait, hafter⟩ :=
    waitBatch_spec hpos hlt mode o hflight h.stopPending_eq h.freed_eq h.ctxRunning_eq
  refine ⟨side', ?_, hafter⟩
  simp only [runBatch, hsubmit, hwait, Option.map_some]

/-- A batch after one that has failed. -/
theorem runBatch_of_failed (hpos : 0 < n) (mode : DeflateMode) {o : BatchOutcome n}
    (o' : BatchOutcome n) {side : DeflateSide} (h : After o side) (ho : ¬ o.Succeeds) :
    (o.StopsCleanly → runBatch sdk mode o' side = some (.error (.returned sdk.status))) ∧
      (¬ o.StopsCleanly → runBatch sdk mode o' side = some (.error .usesFreedTask)) := by
  obtain ⟨n, rfl⟩ := Nat.exists_eq_add_one.mpr hpos
  have hzero : 0 ∈ side.wait.freed ↔ (o.report 0).status ≠ .success := by
    rw [h.freed_eq, BatchOutcome.mem_failed_iff, and_iff_right hpos]
  constructor
  · rintro ⟨hstops, hfirst⟩
    have hctx : side.ctxRunning = false := by rw [h.ctxRunning_eq, hstops]; rfl
    have hsubmit : submitTasks sdk (List.range (n + 1)) side = .error (.returned sdk.status) := by
      rw [List.range_succ_eq_map, submitTasks, if_neg (by rw [hzero]; exact fun hne => hne hfirst),
        if_neg (by rw [hctx]; exact Bool.false_ne_true)]
    simp only [runBatch, hsubmit]
  · intro hnot
    have hsubmit : submitTasks sdk (List.range (n + 1)) side = .error .usesFreedTask := by
      cases hstops : o.stops with
      | true =>
        have hfirst : (o.report 0).status ≠ .success := fun heq => hnot ⟨hstops, heq⟩
        rw [List.range_succ_eq_map, submitTasks, if_pos (hzero.mpr hfirst)]
      | false =>
        have hctx : side.ctxRunning = true := by rw [h.ctxRunning_eq, hstops]; rfl
        obtain ⟨i, hi⟩ := List.exists_mem_of_ne_nil _
          (fun hnil => ho (BatchOutcome.failed_eq_nil_iff.mp hnil))
        refine submitTasks_freed sdk hctx ⟨i, ?_, by rw [h.freed_eq]; exact hi⟩
        exact List.mem_range.mpr (BatchOutcome.mem_failed_iff.mp hi).1
    simp only [runBatch, hsubmit]

end

/-! ## One turn -/

section

variable {n : Nat} (sdk : StoppedContext) (reads : Nat → ReadResult)
  (outcomes : Nat → TurnOutcome n) {s : CompressFileState}

/-- Nothing has failed yet. -/
structure NothingFailed (s : CompressFileState) : Prop where
  compress : Ready s.compress
  decompress : Ready s.decompress
  taskResult_eq : s.taskResult = .success
  exit_eq : s.exit = none

/-- A turn has come to its end. -/
structure TurnDone (n : Nat) (count : Int) (o : TurnOutcome n) (s t : CompressFileState) :
    Prop where
  turn_eq : t.turn = s.turn + 1
  totalBefore_eq : t.totalBefore = s.totalBefore + UInt64.ofInt count
  compress : After o.compress t.compress
  decompress : After o.decompress t.decompress
  statuses_eq : t.statuses = s.statuses ++ o.compress.statuses ++ o.decompress.statuses
  taskResult_eq : t.taskResult = .success
  exit_eq : t.exit = none

/-- With all tasks there, a turn comes to its end. -/
theorem compressFilePass_of_nothingFailed (hpos : 0 < n) (hlt : n < 2 ^ 64)
    (hs : NothingFailed s) :
    ∃ t, compressFilePass sdk reads outcomes s = some t ∧
      TurnDone n (reads s.turn).count (outcomes s.turn) s t := by
  obtain ⟨compress, hcompress, hafter⟩ := runBatch_of_ready sdk hpos hlt .compressDeflate
    (outcomes s.turn).compress hs.compress
  obtain ⟨decompress, hdecompress, hafter'⟩ := runBatch_of_ready sdk hpos hlt .decompressDeflate
    (outcomes s.turn).decompress hs.decompress
  have hresult : ¬ s.taskResult ≠ .success := not_not.mpr hs.taskResult_eq
  have hexit : s.exit.isNone = true := by rw [hs.exit_eq]; rfl
  simp only [compressFilePass, compressHalf, hcompress, Option.map_some, if_neg hresult,
    Option.bind_some, hexit, if_true, decompressHalf, hdecompress]
  exact ⟨_, rfl, ⟨rfl, rfl, hafter, hafter', rfl, hs.taskResult_eq, hs.exit_eq⟩⟩

theorem BatchOutcome.StopsCleanly.not_succeeds {o : BatchOutcome n} (h : o.StopsCleanly) :
    ¬ o.Succeeds := by
  intro ho
  have hstops := h.1
  rw [BatchOutcome.not_stops ho] at hstops
  cases hstops

/-- A turn with failures that is not followed by another is not reported. -/
theorem exists_failed_status {o : TurnOutcome n} (h : ¬ o.Succeeds) :
    ∃ status ∈ o.compress.statuses ++ o.decompress.statuses, status ≠ .success := by
  by_contra hall
  have hok : ∀ status ∈ o.compress.statuses ++ o.decompress.statuses, status = .success := by
    intro status hmem
    by_contra hne
    exact hall ⟨status, hmem, hne⟩
  refine h ⟨fun i hi => ?_, fun i hi => ?_⟩
  · exact hok _ (List.mem_append_left _ (List.mem_map.mpr ⟨i, List.mem_range.mpr hi, rfl⟩))
  · exact hok _ (List.mem_append_right _ (List.mem_map.mpr ⟨i, List.mem_range.mpr hi, rfl⟩))

theorem TurnOutcome.Succeeds.not_stopsCleanly {o : TurnOutcome n} (ho : o.Succeeds) :
    ¬ o.StopsCleanly := by
  rintro (h | ⟨-, h⟩)
  · exact h.not_succeeds ho.1
  · exact h.not_succeeds ho.2

/-- A turn in which no task fails leaves all tasks there. -/
theorem TurnDone.nothingFailed {count : Int} {o : TurnOutcome n} {t : CompressFileState}
    (h : TurnDone n count o s t) (ho : o.Succeeds) : NothingFailed t where
  compress := h.compress.ready ho.1
  decompress := h.decompress.ready ho.2
  taskResult_eq := h.taskResult_eq
  exit_eq := h.exit_eq

theorem TurnDone.statuses_success {count : Int} {o : TurnOutcome n} {t : CompressFileState}
    (h : TurnDone n count o s t) (ho : o.Succeeds)
    (hok : ∀ status ∈ s.statuses, status = .success) :
    ∀ status ∈ t.statuses, status = .success := by
  rw [h.statuses_eq]
  intro status hmem
  rcases List.mem_append.mp hmem with hmem | hmem
  · rcases List.mem_append.mp hmem with hmem | hmem
    · exact hok status hmem
    · obtain ⟨i, hi, rfl⟩ := List.mem_map.mp hmem
      exact ho.1 i (List.mem_range.mp hi)
  · obtain ⟨i, hi, rfl⟩ := List.mem_map.mp hmem
    exact ho.2 i (List.mem_range.mp hi)

/-- The turn after one with failures ends the call. -/
theorem compressFilePass_of_failed (hpos : 0 < n) (hlt : n < 2 ^ 64) {o : TurnOutcome n}
    (hcompress : After o.compress s.compress) (hdecompress : After o.decompress s.decompress)
    (hresult : s.taskResult = .success) (hexit : s.exit = none) (ho : ¬ o.Succeeds) :
    ∃ t, compressFilePass sdk reads outcomes s = some t ∧
      (o.StopsCleanly → t.exit = some (.returned sdk.status)) ∧
      (¬ o.StopsCleanly → t.exit = some .usesFreedTask) := by
  by_cases hfirst : o.compress.Succeeds
  · -- the decompress tasks have failed
    have hsecond : ¬ o.decompress.Succeeds := fun h => ho ⟨hfirst, h⟩
    have hclean : o.StopsCleanly ↔ o.decompress.StopsCleanly := by
      constructor
      · rintro (h | ⟨-, h⟩)
        · exact absurd hfirst h.not_succeeds
        · exact h
      · exact fun h => Or.inr ⟨hfirst, h⟩
    obtain ⟨side, hrun, -⟩ := runBatch_of_ready sdk hpos hlt .compressDeflate
      (outcomes s.turn).compress (hcompress.ready hfirst)
    have hresult' : ¬ s.taskResult ≠ .success := not_not.mpr hresult
    have hexit' : s.exit.isNone = true := by rw [hexit]; rfl
    obtain ⟨hreturns, huses⟩ := runBatch_of_failed sdk hpos .decompressDeflate
      (outcomes s.turn).decompress hdecompress hsecond
    rw [hclean]
    by_cases hstops : o.decompress.StopsCleanly
    · simp only [compressFilePass, compressHalf, hrun, Option.map_some, if_neg hresult',
        Option.bind_some, hexit', if_true, decompressHalf, hreturns hstops]
      exact ⟨_, rfl, fun _ => rfl, fun h => absurd hstops h⟩
    · simp only [compressFilePass, compressHalf, hrun, Option.map_some, if_neg hresult',
        Option.bind_some, hexit', if_true, decompressHalf, huses hstops]
      exact ⟨_, rfl, fun h => absurd h hstops, fun _ => rfl⟩
  · have hclean : o.StopsCleanly ↔ o.compress.StopsCleanly := by
      constructor
      · rintro (h | ⟨h, -⟩)
        · exact h
        · exact absurd h hfirst
      · exact Or.inl
    obtain ⟨hreturns, huses⟩ := runBatch_of_failed sdk hpos .compressDeflate
      (outcomes s.turn).compress hcompress hfirst
    rw [hclean]
    by_cases hstops : o.compress.StopsCleanly
    · simp only [compressFilePass, compressHalf, hreturns hstops, Option.map_some,
        Option.bind_some]
      exact ⟨_, rfl, fun _ => rfl, fun h => absurd hstops h⟩
    · simp only [compressFilePass, compressHalf, huses hstops, Option.map_some,
        Option.bind_some]
      exact ⟨_, rfl, fun h => absurd h hstops, fun _ => rfl⟩

end

/-! ## The loop -/

section

variable {n : Nat} {sdk : StoppedContext} {reads : Nat → ReadResult}
  {outcomes : Nat → TurnOutcome n} {s : CompressFileState}

theorem reportsFailures_step {s' : CompressFileState} (hgo : compressFileReads reads s = true)
    (hpass : compressFilePass sdk reads outcomes s = some s') :
    ReportsFailures sdk reads outcomes s ↔ ReportsFailures sdk reads outcomes s' := by
  unfold ReportsFailures
  simp only [loopEnds_of_true hgo hpass]

theorem reportsFailures_stop (hstop : compressFileReads reads s = false) :
    ReportsFailures sdk reads outcomes s ↔ s.exit ≠ some .usesFreedTask ∧
      (s.returns = some .success → ∀ status ∈ s.statuses, status = .success) := by
  unfold ReportsFailures
  simp only [loopEnds_of_false hstop]
  constructor
  · rintro ⟨t, rfl, h⟩
    exact h
  · intro h
    exact ⟨s, rfl, h⟩

end

section

variable {capacity : Nat} {history : ReadHistory capacity} {s : CompressFileState}

/-- The loop goes on while pieces are left. -/
theorem compressFileReads_of_drop {piece : List UInt8} {pieces : List (List UInt8)}
    (hexit : s.exit = none) (h : history.pieces.drop s.turn = piece :: pieces) :
    compressFileReads history.read s = true := by
  rw [compressFileReads, hexit, (history.count_of_piece (history.getElem?_of_drop h)).1]
  rfl

theorem compressFileReads_at_end (hend : history.ending = .endOfFile)
    (h : history.pieces.drop s.turn = []) : compressFileReads history.read s = false := by
  rw [compressFileReads, history.read_at_end h hend]
  exact Bool.and_false _

end

section

variable {n capacity : Nat} {sdk : StoppedContext} {history : ReadHistory capacity}
  {outcomes : Nat → TurnOutcome n}

/-- A failure in the last turn is not reported. -/
theorem not_reportsFailures_at_end {count : Int} {o : TurnOutcome n} {s t : CompressFileState}
    (hdone : TurnDone n count o s t) (ho : ¬ o.Succeeds)
    (hstop : compressFileReads history.read t = false) :
    ¬ ReportsFailures sdk history.read outcomes t := by
  rw [reportsFailures_stop hstop]
  rintro ⟨-, hall⟩
  have hsuccess : t.returns = some .success := by
    rw [CompressFileState.returns, hdone.exit_eq]
  obtain ⟨status, hmem, hne⟩ := exists_failed_status ho
  refine hne (hall hsuccess status ?_)
  rw [hdone.statuses_eq, List.append_assoc]
  exact List.mem_append_right _ hmem

/-- After a turn with failures, another one reports them if the first one has stopped the
context and left its tasks alone. -/
theorem reportsFailures_after_failed (hpos : 0 < n) (hlt : n < 2 ^ 64) {count : Int}
    {o : TurnOutcome n} {s t : CompressFileState} (hdone : TurnDone n count o s t)
    (ho : ¬ o.Succeeds) (hgo : compressFileReads history.read t = true) :
    ReportsFailures sdk history.read outcomes t ↔ o.StopsCleanly := by
  obtain ⟨u, hpass, hreturns, huses⟩ := compressFilePass_of_failed sdk history.read outcomes hpos
    hlt hdone.compress hdone.decompress hdone.taskResult_eq hdone.exit_eq ho
  rw [reportsFailures_step hgo hpass]
  by_cases hclean : o.StopsCleanly
  · have hexit := hreturns hclean
    have hstop : compressFileReads history.read u = false := by
      rw [compressFileReads, hexit]
      rfl
    rw [reportsFailures_stop hstop, CompressFileState.returns, hexit]
    exact iff_of_true ⟨nofun, fun h => absurd (Option.some.inj h) sdk.status_ne⟩ hclean
  · have hexit := huses hclean
    have hstop : compressFileReads history.read u = false := by
      rw [compressFileReads, hexit]
      rfl
    rw [reportsFailures_stop hstop, hexit]
    exact iff_of_false (fun h => h.1 rfl) hclean

/-- From a state on in which nothing has failed. -/
theorem reportsFailures_of_nothingFailed (hpos : 0 < n) (hlt : n < 2 ^ 64)
    (hend : history.ending = .endOfFile) {pieces : List (List UInt8)} {s : CompressFileState}
    (hs : NothingFailed s) (hok : ∀ status ∈ s.statuses, status = .success)
    (hpieces : history.pieces.drop s.turn = pieces) :
    ReportsFailures sdk history.read outcomes s ↔
      FailuresStop ((List.range' s.turn pieces.length).map outcomes) := by
  induction pieces generalizing s with
  | nil =>
    rw [reportsFailures_stop (compressFileReads_at_end hend hpieces), hs.exit_eq]
    refine iff_of_true ⟨nofun, fun _ => hok⟩ trivial
  | cons piece pieces ih =>
    have hgo : compressFileReads history.read s = true :=
      compressFileReads_of_drop hs.exit_eq hpieces
    obtain ⟨s', hpass, hdone⟩ := compressFilePass_of_nothingFailed sdk
      history.read outcomes hpos hlt hs
    have hrest : history.pieces.drop s'.turn = pieces := by
      rw [hdone.turn_eq]
      exact history.drop_succ_of_drop hpieces
    rw [reportsFailures_step hgo hpass, List.length_cons, List.range'_succ, List.map_cons,
      FailuresStop, ← hdone.turn_eq]
    by_cases ho : (outcomes s.turn).Succeeds
    · -- nothing has failed in this turn either
      rw [ih (hdone.nothingFailed ho) (hdone.statuses_success ho hok) hrest]
      constructor
      · exact fun h => Or.inl ⟨ho, h⟩
      · rintro (⟨-, h⟩ | ⟨h, -⟩)
        · exact h
        · exact absurd h ho.not_stopsCleanly
    · cases pieces with
      | nil =>
        -- the file ends here
        refine iff_of_false
          (not_reportsFailures_at_end hdone ho (compressFileReads_at_end hend hrest)) ?_
        rintro (⟨h, -⟩ | ⟨-, h⟩)
        · exact ho h
        · exact h rfl
      | cons next later =>
        rw [reportsFailures_after_failed hpos hlt hdone ho
          (compressFileReads_of_drop hdone.exit_eq hrest)]
        constructor
        · intro hclean
          refine Or.inr ⟨hclean, ?_⟩
          rw [List.length_cons, List.range'_succ, List.map_cons]
          exact List.cons_ne_nil _ _
        · rintro (⟨h, -⟩ | ⟨h, -⟩)
          · exact absurd h ho
          · exact h

theorem ready_readySide : Ready readySide where
  inFlight_eq := rfl
  stopPending_eq := rfl
  freed_eq := rfl
  ctxRunning_eq := rfl

theorem nothingFailed_start (x y z : UInt64) : NothingFailed (compressFileStart x y z) where
  compress := ready_readySide
  decompress := ready_readySide
  taskResult_eq := rfl
  exit_eq := rfl

end

/-- Failures are reported, and no freed task is used, if and only if the first turn
with a failure stops its context cleanly and is not the last turn. -/
theorem reportsFailures_iff {b : BenchSizes} {file : List UInt8} (sdk : StoppedContext)
    (reads : FileReads b.readSize file) (outcomes : Nat → TurnOutcome b.batchSize)
    (totalBefore totalAfterCompression totalAfterDecompression : UInt64) :
    ReportsFailures sdk reads.read outcomes
        (compressFileStart totalBefore totalAfterCompression totalAfterDecompression) ↔
      FailuresStop ((List.range reads.pieces.length).map outcomes) := by
  have hok : ∀ status ∈ (compressFileStart totalBefore totalAfterCompression
      totalAfterDecompression).statuses, status = .success := nofun
  rw [reportsFailures_of_nothingFailed b.batchSize_pos b.batchSize_lt_size_t reads.ending_eq
    (nothingFailed_start _ _ _) hok List.drop_zero, List.range_eq_range']
  rfl

/-- The context answers with an error. -/
def stoppedContext : StoppedContext where
  status := .other 1
  status_ne := nofun

/-- One task, which fails when it compresses and succeeds when it decompresses. -/
def failsOnce : TurnOutcome oneBlob.batchSize where
  compress :=
    { order := .inOrder _
      report := fun _ => { status := .other 5, crcCs := 0, adlerCs := 0 }
      dataLen := fun _ => 0 }
  decompress :=
    { order := .inOrder _
      report := fun _ => { status := .success, crcCs := 0, adlerCs := 0 }
      dataLen := fun _ => 0 }

/-- The only compress task fails, and the call returns `DOCA_SUCCESS`. -/
theorem not_reportsFailures_failsOnce :
    ¬ ReportsFailures stoppedContext oneByteReads.read (fun _ => failsOnce)
      (compressFileStart 0 0 0) := by
  obtain ⟨t, hpass, hdone⟩ := compressFilePass_of_nothingFailed stoppedContext
    oneByteReads.read (fun _ => failsOnce) Nat.one_pos (by decide) (nothingFailed_start 0 0 0)
  have hstop : compressFileReads oneByteReads.read t = false := by
    rw [compressFileReads, hdone.turn_eq]
    exact Bool.and_false _
  rw [reportsFailures_step rfl hpass, reportsFailures_stop hstop]
  rintro ⟨-, hall⟩
  have hsuccess : t.returns = some .success := by
    rw [CompressFileState.returns, hdone.exit_eq]
  have hmem : DocaStatus.other 5 ∈ t.statuses := by
    rw [hdone.statuses_eq]
    decide
  cases hall hsuccess _ hmem

end DpuTest.Compress
