import DpuTest.Doca
import DpuTest.Lib.CInt
import DpuTest.Lib.StopLatch
import Mathlib.Data.List.ProdSigma

/-!
# The batches of `dma_copy_dpu`

The DPU copies a remote buffer in batches of `batch_size` tasks of
`payload_size` bytes.  The size of a batch, the number of batches and the
offsets are `int`s.  All tasks write their end into one `task_result`, which is
what the function returns.

`Covered` is what a caller expects of a success: each byte was the source of
one task that succeeded, and no task read beyond the buffer.  `covered_iff` is
the exact condition for it.  The tasks of a run that returns are known from its
parameters (`dmaCopyDpu_tasks`): the wait of a batch is left only when all its
tasks have ended.  What remains is arithmetic over these tasks.

Sources are offsets from `remote_addr`.  What the SDK answers and when the
tasks end is an arbitrary `DmaEnv`.
-/

namespace DpuTest.Dma

open Lib

/-- The sizes that the function starts with. -/
structure DmaSizes where
  payloadSize : Nat
  batchSize : Nat
  payloadSize_pos : 0 < payloadSize
  batchSize_pos : 0 < batchSize
  payloadSize_lt : payloadSize < 2 ^ 31
  batchSize_lt : batchSize < 2 ^ 31

/-- What `doca_pe_progress` delivers. -/
inductive ProgressEvent where
  | task (task : Nat)
  | stateChanged (next : CtxState)

/-- What happens around the function: the result of the calls before the first
batch, what `task_result` holds before it is written, the answers of
`doca_buf_set_data` and `doca_task_submit` for task `j` of batch `i`, how that
task ends, and what each call of `doca_pe_progress` delivers in the wait for
batch `i`. -/
structure DmaEnv where
  prepare : DocaStatus
  taskResult : DocaStatus
  setData : Nat → Nat → DocaStatus
  submit : Nat → Nat → DocaStatus
  outcome : Nat → Nat → DocaStatus
  calls : Nat → List (List ProgressEvent)

/-- The resources, `task_result` and the data pointers of `src_doca_buf`; the
tasks that the device has, and whether a stop of the context has been asked for
and has not come.  `submitted` and `ended` are the history: the source of each
task that was submitted, and the source and end of each that has ended. -/
structure DmaState where
  resources : Latch
  taskResult : DocaStatus
  srcData : Nat → Int
  inFlight : List Nat
  stopPending : Bool
  submitted : List Int
  ended : List (Int × DocaStatus)

section

variable (sizes : DmaSizes) (env : DmaEnv)

/-! ## The callbacks -/

/-- `dma_memcpy_completed_callback`. -/
def dmaMemcpyCompletedCallback (s : DmaState) : DmaState :=
  { s with
    taskResult := .success
    resources := s.resources.countDown }

/-- `dma_memcpy_error_callback`.  The task that it frees keeps its place in `task`, and the
next batch sets and submits it again. -/
def dmaMemcpyErrorCallback (status : DocaStatus) (s : DmaState) : DmaState :=
  { s with
    taskResult := status
    resources := { s.resources with remaining := s.resources.remaining - 1 }
    stopPending := if s.resources.remaining - 1 = 0 then true else s.stopPending }

/-- `dma_state_changed_callback`. -/
def dmaStateChangedCallback (next : CtxState) (resources : Latch) : Latch :=
  match next with
  | .idle => { resources with running := false }
  | .starting => resources
  | .running => resources
  | .stopping => resources

/-- One callback in the wait for batch `i`.  The SDK reports a task once, and the
idle state only when no task is in flight. -/
def deliver (i : Nat) (s : DmaState) : ProgressEvent → Option DmaState
  | .task j =>
    if j ∈ s.inFlight then
      let s := { s with
        inFlight := s.inFlight.erase j
        ended := s.ended ++ [(s.srcData j, env.outcome i j)] }
      if env.outcome i j = .success then some (dmaMemcpyCompletedCallback s)
      else some (dmaMemcpyErrorCallback (env.outcome i j) s)
    else none
  | .stateChanged next =>
    match next with
    | .idle =>
      if s.inFlight = [] then
        some { s with
          resources := dmaStateChangedCallback .idle s.resources
          stopPending := false }
      else none
    | next => some { s with resources := dmaStateChangedCallback next s.resources }

/-! ## The loops -/

/-- `int full_queue_size = payload_size * batch_size`. -/
def fullQueueSize : Int := int32 ((sizes.payloadSize * sizes.batchSize : Nat) : Int)

/-- `int batch_num = remote_addr_len / full_queue_size`, a division of `size_t`s. -/
def batchNum (remoteAddrLen : UInt64) : Option Int :=
  let divisor := (fullQueueSize sizes % 2 ^ 64).toNat
  if divisor = 0 then none else some (int32 ((remoteAddrLen.toNat / divisor : Nat) : Int))

/-- `full_queue_size*i + payload_size*j`. -/
def srcOffset (i j : Nat) : Int :=
  int32 (fullQueueSize sizes * i) + int32 ((sizes.payloadSize * j : Nat) : Int)

/-- The submission of one task. -/
def submitTask (i j : Nat) (s : DmaState) : DocaStatus × DmaState :=
  if env.setData i j ≠ .success then (env.setData i j, s)
  else
    let s := { s with
      srcData := fun k => if k = j then srcOffset sizes i j else s.srcData k
      resources := { s.resources with remaining := s.resources.remaining + 1 } }
    if env.submit i j ≠ .success then (env.submit i j, s)
    else
      (.success, { s with
        inFlight := s.inFlight ++ [j]
        submitted := s.submitted ++ [srcOffset sizes i j] })

/-- The loop over the tasks of batch `i`; an error leaves it. -/
def submitTasks (i : Nat) : List Nat → DmaState → DocaStatus × DmaState
  | [], s => (.success, s)
  | j :: js, s =>
    match submitTask sizes env i j s with
    | (.success, s) => submitTasks i js s
    | (status, s) => (status, s)

/-- The loop over the batches and the return after it. -/
def runBatches : List Nat → DmaState → Option (DocaStatus × DmaState)
  | [], s => some (s.taskResult, s)
  | i :: is, s =>
    match submitTasks sizes env i (List.range sizes.batchSize)
        { s with resources := { s.resources with remaining := 0 } } with
    | (.success, s) =>
      match progressLoop (fun s => s.resources.running) (deliver env i) (env.calls i)
          { s with resources := { s.resources with running := true } } with
      | none => none
      | some s => runBatches is s
    | (status, s) => some (status, s)

/-- The state before the first batch. -/
def DmaState.init : DmaState where
  resources := { remaining := 0, running := false }
  taskResult := env.taskResult
  srcData _ := 0
  inFlight := []
  stopPending := false
  submitted := []
  ended := []

/-- `dma_copy_dpu`.  `none` is a call that does not return. -/
def dmaCopyDpu (remoteAddrLen : UInt64) : Option (DocaStatus × DmaState) :=
  if env.prepare ≠ .success then some (env.prepare, .init env)
  else
    match batchNum sizes remoteAddrLen with
    | none => none
    | some batchNum => runBatches sizes env (List.range batchNum.toNat) (.init env)

end

/-! ## What a success is taken for -/

/-- Each byte of the remote buffer was the source of exactly one task that
succeeded, and no task read outside of the buffer. -/
structure Covered (sizes : DmaSizes) (remoteAddrLen : UInt64) (s : DmaState) : Prop where
  copied_once : ∀ x : Int, 0 ≤ x → x < remoteAddrLen.toNat →
    s.ended.countP (fun t => t.2 = .success ∧ t.1 ≤ x ∧ x < t.1 + sizes.payloadSize) = 1
  in_range : ∀ source ∈ s.submitted, 0 ≤ source ∧
    source + sizes.payloadSize ≤ remoteAddrLen.toNat

section

variable {sizes : DmaSizes} {env : DmaEnv} {i : Nat} {s t : DmaState}

/-! ## Submission -/

/-- The state when the tasks `js` of batch `i` have been submitted. -/
def DmaState.submit (sizes : DmaSizes) (i : Nat) (js : List Nat) (s : DmaState) : DmaState :=
  { s with
    srcData := fun k => if k ∈ js then srcOffset sizes i k else s.srcData k
    resources := { s.resources with remaining := s.resources.remaining + UInt64.ofNat js.length }
    inFlight := s.inFlight ++ js
    submitted := s.submitted ++ js.map (srcOffset sizes i) }

theorem submitTask_eq {j : Nat} (h : submitTask sizes env i j s = (.success, t)) :
    t = s.submit sizes i [j] := by
  rw [submitTask] at h
  by_cases hset : env.setData i j = .success
  · by_cases hsubmit : env.submit i j = .success
    · simp only [hset, hsubmit, ne_eq, not_true_eq_false, if_false, Prod.mk.injEq, true_and] at h
      have hsrc : (fun k => if k ∈ [j] then srcOffset sizes i k else s.srcData k) =
          fun k => if k = j then srcOffset sizes i j else s.srcData k := by
        funext k
        by_cases hk : k = j <;> simp [hk]
      rw [← h, DmaState.submit, hsrc]
      rfl
    · simp [hset, hsubmit] at h
  · simp [hset] at h

theorem submitTasks_eq {js : List Nat} (h : submitTasks sizes env i js s = (.success, t)) :
    t = s.submit sizes i js := by
  induction js generalizing s with
  | nil =>
    rw [submitTasks] at h
    simp only [Prod.mk.injEq, true_and] at h
    simp [← h, DmaState.submit]
  | cons j js ih =>
    rw [submitTasks] at h
    split at h
    · rename_i s' hone
      rw [ih h, submitTask_eq hone]
      simp only [DmaState.submit, List.append_assoc, List.singleton_append, List.map_cons,
        List.map_nil, List.length_cons, List.length_nil, Nat.zero_add]
      have hcount : s.resources.remaining + UInt64.ofNat 1 + UInt64.ofNat js.length =
          s.resources.remaining + UInt64.ofNat (js.length + 1) := by
        rw [UInt64.ofNat_add, UInt64.add_assoc, UInt64.add_comm (UInt64.ofNat 1)]
      rw [hcount]
      congr 1
      funext k
      by_cases hk : k = j
      · subst hk
        simp
      · simp [hk]
    · rename_i hother _
      exact (hother (Prod.mk.inj h).1).elim

/-! ## The wait for a batch -/

/-- The resources, with the stop that they have asked for. -/
def DmaState.latch (s : DmaState) : StopLatch where
  toLatch := s.resources
  stopPending := s.stopPending

/-- How the tasks in flight will end. -/
def DmaState.pending (env : DmaEnv) (i : Nat) (s : DmaState) : List (Int × DocaStatus) :=
  s.inFlight.map (fun j => (s.srcData j, env.outcome i j))

/-- What one callback does: it handles the latch, and a task that ends moves from
the tasks in flight to the history. -/
structure Delivered (env : DmaEnv) (i : Nat) (s t : DmaState) : Prop where
  handles : StopLatch.Handles s.latch s.inFlight t.latch t.inFlight
  history : (t.ended ++ t.pending env i).Perm (s.ended ++ s.pending env i)
  submitted_eq : t.submitted = s.submitted

theorem deliver_task {j : Nat} (h : deliver env i s (.task j) = some t) : Delivered env i s t := by
  by_cases hmem : j ∈ s.inFlight
  · have hperm : (s.ended ++ [(s.srcData j, env.outcome i j)] ++
        (s.inFlight.erase j).map (fun k => (s.srcData k, env.outcome i k))).Perm
          (s.ended ++ s.pending env i) := by
      rw [List.append_assoc]
      refine List.Perm.append_left _ ?_
      exact ((List.perm_cons_erase hmem).map (fun k => (s.srcData k, env.outcome i k))).symm
    by_cases hstatus : env.outcome i j = .success
    · simp only [deliver, if_pos hmem, if_pos hstatus, Option.some.injEq] at h
      subst h
      exact ⟨.completed hmem, hperm, rfl⟩
    · simp only [deliver, if_pos hmem, if_neg hstatus, Option.some.injEq] at h
      subst h
      exact ⟨.failed hmem, hperm, rfl⟩
  · simp only [deliver, if_neg hmem] at h
    cases h

theorem deliver_delivered (e : ProgressEvent) (h : deliver env i s e = some t) :
    Delivered env i s t := by
  cases e with
  | task j => exact deliver_task h
  | stateChanged next =>
    cases next with
    | idle =>
      by_cases hnil : s.inFlight = []
      · simp only [deliver, if_pos hnil, Option.some.injEq] at h
        subst h
        refine ⟨?_, List.Perm.refl _, rfl⟩
        show StopLatch.Handles s.latch s.inFlight s.latch.idle s.inFlight
        rw [hnil]
        exact .idle
      · simp only [deliver, if_neg hnil] at h
        cases h
    | starting =>
      cases h
      exact ⟨.other, List.Perm.refl _, rfl⟩
    | running =>
      cases h
      exact ⟨.other, List.Perm.refl _, rfl⟩
    | stopping =>
      cases h
      exact ⟨.other, List.Perm.refl _, rfl⟩

/-- A wait for tasks that are all out. -/
structure Waiting (env : DmaEnv) (i : Nat) (all : List (Int × DocaStatus)) (sources : List Int)
    (s : DmaState) : Prop where
  waits : s.latch.Waits s.inFlight.length
  history : (s.ended ++ s.pending env i).Perm all
  submitted_eq : s.submitted = sources

theorem Waiting.deliver {all : List (Int × DocaStatus)} {sources : List Int} (e : ProgressEvent)
    (hs : Waiting env i all sources s) (h : deliver env i s e = some t) :
    Waiting env i all sources t := by
  have hone := deliver_delivered e h
  exact ⟨hone.handles.waits hs.waits, hone.history.trans hs.history,
    hone.submitted_eq.trans hs.submitted_eq⟩

/-- Between two batches: all tasks have ended, and no stop is pending. -/
structure Quiet (all : List (Int × DocaStatus)) (sources : List Int) (s : DmaState) : Prop where
  inFlight_eq : s.inFlight = []
  stopPending_eq : s.stopPending = false
  ended_perm : s.ended.Perm all
  submitted_eq : s.submitted = sources

/-- The wait loop is left when all tasks have ended. -/
theorem progressLoop_quiet {all : List (Int × DocaStatus)} {sources : List Int}
    {calls : List (List ProgressEvent)} (hs : Waiting env i all sources s)
    (h : progressLoop (fun s => s.resources.running) (Dma.deliver env i) calls s = some t) :
    Quiet all sources t := by
  obtain ⟨hdown, k, hrun⟩ := run_of_progressLoop h
  have ht : Waiting env i all sources t :=
    run_inv (Waiting env i all sources) (fun _ e _ hs hone => hs.deliver e hone) hrun hs
  have hdone := ht.waits.running_iff.mp hdown
  have hnil : t.inFlight = [] := List.eq_nil_of_length_eq_zero hdone.1
  refine ⟨hnil, hdone.2, ?_, ht.submitted_eq⟩
  have hhistory := ht.history
  rw [DmaState.pending, hnil, List.map_nil, List.append_nil] at hhistory
  exact hhistory

/-! ## All batches -/

/-- The tasks of batch `i`, each with its source and its end. -/
def batchTasks (sizes : DmaSizes) (env : DmaEnv) (i : Nat) : List (Int × DocaStatus) :=
  (List.range sizes.batchSize).map (fun j => (srcOffset sizes i j, env.outcome i j))

/-- The submission of a batch starts a wait. -/
theorem waiting_submit {all : List (Int × DocaStatus)} {sources : List Int}
    (hs : Quiet all sources s) :
    Waiting env i (all ++ batchTasks sizes env i)
      (sources ++ (List.range sizes.batchSize).map (srcOffset sizes i))
      { (DmaState.submit sizes i (List.range sizes.batchSize)
          { s with resources := { s.resources with remaining := 0 } }) with
        resources := ⟨UInt64.ofNat sizes.batchSize, true⟩ } where
  waits := by
    have hlt := sizes.batchSize_lt
    have hpos := sizes.batchSize_pos
    have hlen : (s.inFlight ++ List.range sizes.batchSize).length = sizes.batchSize := by
      rw [hs.inFlight_eq, List.nil_append, List.length_range]
    show StopLatch.Waits ⟨⟨UInt64.ofNat sizes.batchSize, true⟩, s.stopPending⟩
      (s.inFlight ++ List.range sizes.batchSize).length
    rw [hlen]
    refine ⟨?_, fun _ => rfl, fun _ => hs.stopPending_eq, fun hzero => by omega⟩
    show (UInt64.ofNat sizes.batchSize).toNat = sizes.batchSize
    rw [UInt64.toNat_ofNat', Nat.mod_eq_of_lt (by omega)]
  history := by
    show (s.ended ++ (s.inFlight ++ List.range sizes.batchSize).map (fun j =>
      (if j ∈ List.range sizes.batchSize then srcOffset sizes i j else s.srcData j,
        env.outcome i j))).Perm _
    rw [hs.inFlight_eq, List.nil_append]
    refine hs.ended_perm.append (List.Perm.of_eq (List.map_congr_left fun j hj => ?_))
    rw [if_pos hj]
  submitted_eq := by
    show s.submitted ++ _ = _
    rw [hs.submitted_eq]

/-- What a run over the batches `is` leaves when it returns success. -/
theorem runBatches_quiet {all : List (Int × DocaStatus)} {sources : List Int} {is : List Nat}
    (hs : Quiet all sources s) (h : runBatches sizes env is s = some (.success, t)) :
    Quiet (all ++ is.flatMap (batchTasks sizes env))
      (sources ++ is.flatMap (fun i => (List.range sizes.batchSize).map (srcOffset sizes i))) t := by
  induction is generalizing s all sources with
  | nil =>
    simp only [runBatches, Option.some.injEq, Prod.mk.injEq] at h
    rw [List.flatMap_nil, List.flatMap_nil, List.append_nil, List.append_nil, ← h.2]
    exact hs
  | cons i is ih =>
    rw [runBatches] at h
    split at h
    · rename_i s₁ hsubmit
      split at h
      · cases h
      · rename_i s₂ hloop
        rw [submitTasks_eq hsubmit] at hloop
        have hcount : (0 : UInt64) + UInt64.ofNat (List.range sizes.batchSize).length =
            UInt64.ofNat sizes.batchSize := by
          rw [List.length_range, UInt64.zero_add]
        simp only [DmaState.submit, hcount] at hloop
        rw [List.flatMap_cons, List.flatMap_cons, ← List.append_assoc, ← List.append_assoc]
        exact ih (progressLoop_quiet (waiting_submit hs) hloop) h
    · rename_i hother _
      exact (hother (Prod.mk.inj (Option.some.inj h)).1).elim

/-- The batches and tasks of a call with `n` batches. -/
def indices (sizes : DmaSizes) (n : Nat) : List (Nat × Nat) :=
  List.range n ×ˢ List.range sizes.batchSize

theorem indices_eq (n : Nat) : indices sizes n =
    (List.range n).flatMap (fun i => (List.range sizes.batchSize).map (Prod.mk i)) :=
  rfl

theorem mem_indices {n : Nat} {ij : Nat × Nat} :
    ij ∈ indices sizes n ↔ ij.1 < n ∧ ij.2 < sizes.batchSize := by
  rw [indices, ← Prod.mk.eta (p := ij), List.mem_product, List.mem_range, List.mem_range]

theorem nodup_indices (n : Nat) : (indices sizes n).Nodup :=
  List.Nodup.product List.nodup_range List.nodup_range

/-- The bytes of the remote buffer that a task reads. -/
def Reads (sizes : DmaSizes) (ij : Nat × Nat) (x : Int) : Prop :=
  srcOffset sizes ij.1 ij.2 ≤ x ∧ x < srcOffset sizes ij.1 ij.2 + sizes.payloadSize

instance (ij : Nat × Nat) (x : Int) : Decidable (Reads sizes ij x) :=
  inferInstanceAs (Decidable (_ ∧ _))

/-- `Covered`, of the tasks of `n` batches. -/
structure CoveredBy (sizes : DmaSizes) (env : DmaEnv) (length : Nat) (n : Nat) : Prop where
  copied_once : ∀ x : Int, 0 ≤ x → x < length →
    (indices sizes n).countP (fun ij => env.outcome ij.1 ij.2 = .success ∧ Reads sizes ij x) = 1
  in_range : ∀ ij ∈ indices sizes n, 0 ≤ srcOffset sizes ij.1 ij.2 ∧
    srcOffset sizes ij.1 ij.2 + sizes.payloadSize ≤ length

/-- A call that returns success has run all tasks of its batches. -/
theorem dmaCopyDpu_tasks {remoteAddrLen : UInt64}
    (h : dmaCopyDpu sizes env remoteAddrLen = some (.success, t)) :
    ∃ num, batchNum sizes remoteAddrLen = some num ∧
      (Covered sizes remoteAddrLen t ↔ CoveredBy sizes env remoteAddrLen.toNat num.toNat) := by
  rw [dmaCopyDpu] at h
  split at h
  · rename_i hprepare
    exact absurd (Prod.mk.inj (Option.some.inj h)).1 hprepare
  · split at h
    · cases h
    · rename_i num hnum
      refine ⟨num, hnum, ?_⟩
      have hinit : Quiet [] [] (DmaState.init env) := ⟨rfl, rfl, List.Perm.refl _, rfl⟩
      have hquiet := runBatches_quiet hinit h
      have hended : t.ended.Perm ((indices sizes num.toNat).map
          (fun ij => (srcOffset sizes ij.1 ij.2, env.outcome ij.1 ij.2))) := by
        rw [indices_eq, List.map_flatMap]
        simp only [List.map_map]
        exact hquiet.ended_perm
      have hsubmitted : t.submitted =
          (indices sizes num.toNat).map (fun ij => srcOffset sizes ij.1 ij.2) := by
        rw [indices_eq, List.map_flatMap]
        simp only [List.map_map]
        exact hquiet.submitted_eq
      constructor
      · intro hcov
        refine ⟨fun x hx hlt => ?_, fun ij hij => ?_⟩
        · have hone := hcov.copied_once x hx hlt
          rw [hended.countP_eq, List.countP_map] at hone
          exact hone
        · refine hcov.in_range _ ?_
          rw [hsubmitted]
          exact List.mem_map_of_mem hij
      · intro hcov
        refine ⟨fun x hx hlt => ?_, fun source hsource => ?_⟩
        · rw [hended.countP_eq, List.countP_map]
          exact hcov.copied_once x hx hlt
        · rw [hsubmitted] at hsource
          obtain ⟨ij, hij, rfl⟩ := List.mem_map.mp hsource
          exact hcov.in_range ij hij

/-! ## The offsets -/

section Offsets

variable {length n : Nat}

theorem srcOffset_zero_left (j : Nat) :
    srcOffset sizes 0 j = int32 ((sizes.payloadSize * j : Nat) : Int) := by
  have hzero : int32 0 = 0 := by decide
  rw [srcOffset, Int.ofNat_zero, Int.mul_zero, hzero, Int.zero_add]

/-- A covered byte has a task that has read it. -/
theorem CoveredBy.exists_reads (h : CoveredBy sizes env length n) {x : Int} (hx : 0 ≤ x)
    (hlt : x < length) :
    ∃ ij ∈ indices sizes n, env.outcome ij.1 ij.2 = .success ∧ Reads sizes ij x := by
  have hone := h.copied_once x hx hlt
  have hpos : 0 < (indices sizes n).countP
      (fun ij => env.outcome ij.1 ij.2 = .success ∧ Reads sizes ij x) := by omega
  obtain ⟨ij, hij, hreads⟩ := List.countP_pos_iff.mp hpos
  exact ⟨ij, hij, of_decide_eq_true hreads⟩

theorem fullQueueSize_of_lt (hfit : sizes.payloadSize * sizes.batchSize < 2 ^ 31) :
    fullQueueSize sizes = ((sizes.payloadSize * sizes.batchSize : Nat) : Int) :=
  int32_natCast hfit

/-- In a batch that is too large for `int` a task reads below the buffer, or the
batches do not reach its end. -/
theorem CoveredBy.fits {remoteAddrLen : UInt64} {num : Int}
    (hnum : batchNum sizes remoteAddrLen = some num)
    (h : CoveredBy sizes env remoteAddrLen.toNat num.toNat) (hpos : 0 < num.toNat) :
    sizes.payloadSize * sizes.batchSize < 2 ^ 31 := by
  by_contra hbig
  have hp := sizes.payloadSize_pos
  have hplt := sizes.payloadSize_lt
  have hb := sizes.batchSize_pos
  have hsub : sizes.payloadSize * sizes.batchSize =
      sizes.payloadSize * (sizes.batchSize - 1) + sizes.payloadSize := by
    rw [← Nat.mul_succ, Nat.succ_eq_add_one, Nat.sub_add_cancel hb]
  by_cases hlast : 2 ^ 31 ≤ sizes.payloadSize * (sizes.batchSize - 1)
  · obtain ⟨k, hk, hneg⟩ := exists_int32_neg hp hplt hlast
    have hin : 0 ≤ srcOffset sizes 0 k :=
      (h.in_range (0, k) (mem_indices.mpr ⟨hpos, by omega⟩)).1
    rw [srcOffset_zero_left] at hin
    omega
  · -- `full_queue_size` is negative, and as a `size_t` almost `2 ^ 64`.
    have hlen := remoteAddrLen.toNat_lt
    have hdiv : (2 ^ 64 - 2 ^ 31 : Nat) ≤ (fullQueueSize sizes % 2 ^ 64).toNat := by
      rw [fullQueueSize]
      unfold int32
      omega
    have hlong : (fullQueueSize sizes % 2 ^ 64).toNat ≤ remoteAddrLen.toNat := by
      by_contra hshort
      rw [batchNum, if_neg (by omega), Nat.div_eq_of_lt (by omega)] at hnum
      have hzero : num = int32 ((0 : Nat) : Int) := (Option.some.inj hnum).symm
      have hval : int32 ((0 : Nat) : Int) = 0 := by decide
      omega
    have hone : num.toNat = 1 := by
      rw [batchNum, if_neg (by omega)] at hnum
      have hquot : remoteAddrLen.toNat / (fullQueueSize sizes % 2 ^ 64).toNat < 2 :=
        Nat.div_lt_of_lt_mul (by omega)
      have hle := int32_le_of_nonneg (Int.natCast_nonneg
        (remoteAddrLen.toNat / (fullQueueSize sizes % 2 ^ 64).toNat))
      rw [Option.some.inj hnum] at hle
      omega
    obtain ⟨ij, hij, -, hreads⟩ := h.exists_reads (x := (remoteAddrLen.toNat : Int) - 1)
      (by omega) (by omega)
    rw [hone, mem_indices] at hij
    have hzero : ij.1 = 0 := by omega
    have hlt := int32_lt ((sizes.payloadSize * ij.2 : Nat) : Int)
    have hreads := hreads.2
    rw [hzero, srcOffset_zero_left] at hreads
    omega

/-- The offset of a batch that is too large for `int` lies below the buffer. -/
theorem CoveredBy.last_fits (hfit : sizes.payloadSize * sizes.batchSize < 2 ^ 31)
    (h : CoveredBy sizes env length n) (hn : 0 < n) :
    sizes.payloadSize * sizes.batchSize * (n - 1) < 2 ^ 31 := by
  by_contra hbig
  have hqpos : 0 < sizes.payloadSize * sizes.batchSize :=
    Nat.mul_pos sizes.payloadSize_pos sizes.batchSize_pos
  obtain ⟨k, hk, hneg⟩ := exists_int32_neg hqpos hfit (Nat.le_of_not_lt hbig)
  have hin : 0 ≤ srcOffset sizes k 0 :=
    (h.in_range (k, 0) (mem_indices.mpr ⟨by omega, sizes.batchSize_pos⟩)).1
  have hzero : int32 ((sizes.payloadSize * 0 : Nat) : Int) = 0 := by
    rw [Nat.mul_zero]
    decide
  rw [srcOffset, hzero, fullQueueSize_of_lt hfit, ← Int.natCast_mul] at hin
  omega

/-- Where the products fit, the offsets are exact. -/
theorem srcOffset_of_fits (hfit : sizes.payloadSize * sizes.batchSize < 2 ^ 31)
    (hlast : sizes.payloadSize * sizes.batchSize * (n - 1) < 2 ^ 31) {ij : Nat × Nat}
    (hij : ij ∈ indices sizes n) :
    srcOffset sizes ij.1 ij.2 =
      ((sizes.payloadSize * (sizes.batchSize * ij.1 + ij.2) : Nat) : Int) := by
  obtain ⟨hi, hj⟩ := mem_indices.mp hij
  have hbatch : sizes.payloadSize * sizes.batchSize * ij.1 ≤
      sizes.payloadSize * sizes.batchSize * (n - 1) := Nat.mul_le_mul_left _ (by omega)
  have htask : sizes.payloadSize * ij.2 ≤ sizes.payloadSize * sizes.batchSize :=
    Nat.mul_le_mul_left _ (Nat.le_of_lt hj)
  rw [srcOffset, fullQueueSize_of_lt hfit, ← Int.natCast_mul, int32_natCast (by omega),
    int32_natCast (by omega), Nat.mul_add, Nat.mul_assoc, Int.natCast_add]

theorem reads_iff (hfit : sizes.payloadSize * sizes.batchSize < 2 ^ 31)
    (hlast : sizes.payloadSize * sizes.batchSize * (n - 1) < 2 ^ 31) {ij : Nat × Nat}
    (hij : ij ∈ indices sizes n) (x : Nat) :
    Reads sizes ij x ↔ ij = (x / sizes.payloadSize / sizes.batchSize,
      x / sizes.payloadSize % sizes.batchSize) := by
  obtain ⟨hi, hj⟩ := mem_indices.mp hij
  have hp := sizes.payloadSize_pos
  have hb := sizes.batchSize_pos
  have hblock : Reads sizes ij x ↔ x / sizes.payloadSize = sizes.batchSize * ij.1 + ij.2 := by
    rw [Reads, srcOffset_of_fits hfit hlast hij, Nat.div_eq_iff hp, Nat.mul_comm sizes.payloadSize]
    omega
  rw [hblock]
  constructor
  · intro heq
    rw [heq, Nat.mul_add_div hb, Nat.mul_add_mod, Nat.mod_eq_of_lt hj, Nat.div_eq_of_lt hj,
      Nat.add_zero]
  · intro heq
    rw [heq]
    exact (Nat.div_add_mod _ _).symm

theorem coveredBy_iff (hfit : sizes.payloadSize * sizes.batchSize < 2 ^ 31)
    (hlast : sizes.payloadSize * sizes.batchSize * (n - 1) < 2 ^ 31)
    (hle : sizes.payloadSize * sizes.batchSize * n ≤ length) :
    CoveredBy sizes env length n ↔ length = sizes.payloadSize * sizes.batchSize * n ∧
      ∀ i < n, ∀ j < sizes.batchSize, env.outcome i j = .success := by
  have hp := sizes.payloadSize_pos
  have hb := sizes.batchSize_pos
  constructor
  · intro h
    have heq : length = sizes.payloadSize * sizes.batchSize * n := by
      by_contra hne
      -- The first byte behind the last batch.
      obtain ⟨ij, hij, -, hreads⟩ := h.exists_reads
        (x := ((sizes.payloadSize * sizes.batchSize * n : Nat) : Int)) (by omega) (by omega)
      rw [reads_iff hfit hlast hij, Nat.mul_assoc, Nat.mul_div_cancel_left _ hp,
        Nat.mul_div_cancel_left _ hb] at hreads
      have hi := (mem_indices.mp hij).1
      rw [hreads] at hi
      omega
    refine ⟨heq, fun i hi j hj => ?_⟩
    have hmem : (i, j) ∈ indices sizes n := mem_indices.mpr ⟨hi, hj⟩
    have hin := h.in_range (i, j) hmem
    rw [srcOffset_of_fits hfit hlast hmem] at hin
    dsimp only at hin
    obtain ⟨ij, hij, hsuccess, hreads⟩ := h.exists_reads
      (x := ((sizes.payloadSize * (sizes.batchSize * i + j) : Nat) : Int)) (by omega) (by omega)
    rw [reads_iff hfit hlast hij, Nat.mul_div_cancel_left _ hp, Nat.mul_add_div hb,
      Nat.mul_add_mod, Nat.mod_eq_of_lt hj, Nat.div_eq_of_lt hj, Nat.add_zero] at hreads
    rw [hreads] at hsuccess
    exact hsuccess
  · rintro ⟨hlen, hall⟩
    refine ⟨fun x hx hlt => ?_, fun ij hij => ?_⟩
    · obtain ⟨x, rfl⟩ := Int.eq_ofNat_of_zero_le hx
      have hlt' : x / sizes.payloadSize / sizes.batchSize < n := by
        rw [Nat.div_div_eq_div_mul]
        exact Nat.div_lt_of_lt_mul (by omega)
      have hmem : (x / sizes.payloadSize / sizes.batchSize,
          x / sizes.payloadSize % sizes.batchSize) ∈ indices sizes n :=
        mem_indices.mpr ⟨hlt', Nat.mod_lt _ hb⟩
      rw [← List.count_eq_one_of_mem (nodup_indices n) hmem, List.count]
      refine List.countP_congr fun ij hij => ?_
      obtain ⟨hi, hj⟩ := mem_indices.mp hij
      rw [decide_eq_true_iff, and_iff_right (hall ij.1 hi ij.2 hj), beq_iff_eq,
        reads_iff hfit hlast hij]
    · obtain ⟨hi, hj⟩ := mem_indices.mp hij
      have hend : sizes.payloadSize * (sizes.batchSize * ij.1 + ij.2) + sizes.payloadSize ≤
          sizes.payloadSize * sizes.batchSize * n := by
        rw [← Nat.mul_succ, Nat.mul_assoc]
        refine Nat.mul_le_mul_left _ ?_
        have hrow : sizes.batchSize * (ij.1 + 1) ≤ sizes.batchSize * n :=
          Nat.mul_le_mul_left _ hi
        rw [Nat.mul_add, Nat.mul_one] at hrow
        omega
      rw [srcOffset_of_fits hfit hlast hij]
      omega

theorem coveredBy_zero : CoveredBy sizes env 0 0 where
  copied_once x hx hlt := by omega
  in_range ij hij := absurd (mem_indices.mp hij).1 (Nat.not_lt_zero _)

theorem batchNum_of_fits (remoteAddrLen : UInt64)
    (hfit : sizes.payloadSize * sizes.batchSize < 2 ^ 31) :
    batchNum sizes remoteAddrLen = some (int32
      ((remoteAddrLen.toNat / (sizes.payloadSize * sizes.batchSize) : Nat) : Int)) := by
  have hqpos : 0 < sizes.payloadSize * sizes.batchSize :=
    Nat.mul_pos sizes.payloadSize_pos sizes.batchSize_pos
  have hdivisor : (fullQueueSize sizes % 2 ^ 64).toNat = sizes.payloadSize * sizes.batchSize := by
    rw [fullQueueSize_of_lt hfit]
    omega
  rw [batchNum, hdivisor, if_neg (by omega)]

end Offsets

/-- The buffer consists of whole batches that `int` offsets reach, and no task
fails. -/
structure WholeBatches (sizes : DmaSizes) (env : DmaEnv) (length : Nat) : Prop where
  fits : sizes.payloadSize * sizes.batchSize < 2 ^ 31
  dvd : sizes.payloadSize * sizes.batchSize ∣ length
  count_lt : length / (sizes.payloadSize * sizes.batchSize) < 2 ^ 31
  last_lt : length - sizes.payloadSize * sizes.batchSize < 2 ^ 31
  success : ∀ i < length / (sizes.payloadSize * sizes.batchSize), ∀ j < sizes.batchSize,
    env.outcome i j = .success

/-- Whole batches are needed. -/
theorem CoveredBy.wholeBatches {remoteAddrLen : UInt64} {num : Int}
    (h : CoveredBy sizes env remoteAddrLen.toNat num.toNat) (hzero : remoteAddrLen.toNat ≠ 0)
    (hnum : batchNum sizes remoteAddrLen = some num) :
    WholeBatches sizes env remoteAddrLen.toNat := by
  have hqpos : 0 < sizes.payloadSize * sizes.batchSize :=
    Nat.mul_pos sizes.payloadSize_pos sizes.batchSize_pos
  have hpos : 0 < num.toNat := by
    obtain ⟨ij, hij, -⟩ := h.exists_reads (x := 0) (by omega) (by omega)
    exact Nat.zero_lt_of_lt (mem_indices.mp hij).1
  have hfit := h.fits hnum hpos
  have hlast := h.last_fits hfit hpos
  rw [batchNum_of_fits _ hfit] at hnum
  have hnum' := Option.some.inj hnum
  have hle : num.toNat ≤ remoteAddrLen.toNat / (sizes.payloadSize * sizes.batchSize) := by
    have hint := int32_le_of_nonneg (Int.natCast_nonneg
      (remoteAddrLen.toNat / (sizes.payloadSize * sizes.batchSize)))
    omega
  have hmul : sizes.payloadSize * sizes.batchSize * num.toNat ≤ remoteAddrLen.toNat :=
    (Nat.mul_le_mul_left _ hle).trans (Nat.mul_div_le _ _)
  obtain ⟨hlen, hall⟩ := (coveredBy_iff hfit hlast hmul).mp h
  have hquot : remoteAddrLen.toNat / (sizes.payloadSize * sizes.batchSize) = num.toNat := by
    rw [hlen, Nat.mul_div_cancel_left _ hqpos]
  have hlt := int32_lt ((remoteAddrLen.toNat / (sizes.payloadSize * sizes.batchSize) : Nat) : Int)
  refine ⟨hfit, ⟨_, hlen⟩, by omega, ?_, ?_⟩
  · rw [Nat.mul_sub, Nat.mul_one] at hlast
    omega
  · rw [hquot]
    exact hall

/-- Whole batches are enough. -/
theorem WholeBatches.coveredBy {remoteAddrLen : UInt64} {num : Int}
    (w : WholeBatches sizes env remoteAddrLen.toNat)
    (hnum : batchNum sizes remoteAddrLen = some num) :
    CoveredBy sizes env remoteAddrLen.toNat num.toNat := by
  have hlen : remoteAddrLen.toNat = sizes.payloadSize * sizes.batchSize *
      (remoteAddrLen.toNat / (sizes.payloadSize * sizes.batchSize)) :=
    (Nat.mul_div_cancel' w.dvd).symm
  have hnum' : num.toNat = remoteAddrLen.toNat / (sizes.payloadSize * sizes.batchSize) := by
    rw [batchNum_of_fits _ w.fits, int32_natCast w.count_lt] at hnum
    rw [← Option.some.inj hnum, Int.toNat_natCast]
  have hlast : sizes.payloadSize * sizes.batchSize * (num.toNat - 1) < 2 ^ 31 := by
    have hw := w.last_lt
    rw [Nat.mul_sub, Nat.mul_one, hnum', ← hlen]
    exact hw
  rw [← hnum'] at hlen
  rw [coveredBy_iff w.fits hlast (Nat.le_of_eq hlen.symm)]
  refine ⟨hlen, ?_⟩
  rw [hnum']
  exact w.success

/-- When `dma_copy_dpu` returns success, the buffer has been copied exactly when
it is empty or `WholeBatches` holds. -/
theorem covered_iff {remoteAddrLen : UInt64}
    (h : dmaCopyDpu sizes env remoteAddrLen = some (.success, t)) :
    Covered sizes remoteAddrLen t ↔
      remoteAddrLen.toNat = 0 ∨ WholeBatches sizes env remoteAddrLen.toNat := by
  obtain ⟨num, hnum, hcov⟩ := dmaCopyDpu_tasks h
  rw [hcov]
  by_cases hzero : remoteAddrLen.toNat = 0
  · refine iff_of_true ?_ (Or.inl hzero)
    have hnone : num.toNat = 0 := by
      rw [batchNum, hzero, Nat.zero_div] at hnum
      split at hnum
      · cases hnum
      · have hval : int32 ((0 : Nat) : Int) = 0 := by decide
        rw [← Option.some.inj hnum, hval]
        rfl
    rw [hzero, hnone]
    exact coveredBy_zero
  · rw [or_iff_right hzero]
    exact ⟨fun hcov => hcov.wholeBatches hzero hnum, fun w => w.coveredBy hnum⟩

end

/-- Batches of two bytes. -/
def twoBytes : DmaSizes where
  payloadSize := 1
  batchSize := 2
  payloadSize_pos := Nat.one_pos
  batchSize_pos := Nat.two_pos
  payloadSize_lt := by decide
  batchSize_lt := by decide

/-- No call fails, and in every batch the second task ends first. -/
def allSucceed : DmaEnv where
  prepare := .success
  taskResult := .success
  setData _ _ := .success
  submit _ _ := .success
  outcome _ _ := .success
  calls _ := [[.task 1], [], [.task 0]]

theorem wholeBatches_fourBytes : WholeBatches twoBytes allSucceed 4 where
  fits := by decide
  dvd := by decide
  count_lt := by decide
  last_lt := by decide
  success _ _ _ _ := rfl

theorem covered_fourBytes :
    ∃ t, dmaCopyDpu twoBytes allSucceed 4 = some (.success, t) ∧ Covered twoBytes 4 t :=
  ⟨_, rfl, (covered_iff rfl).mpr
    (Or.inr wholeBatches_fourBytes)⟩

/-- The last of three bytes is not copied. -/
theorem not_covered_threeBytes : ∃ t, dmaCopyDpu twoBytes allSucceed 3 = some (.success, t) ∧
    ¬ Covered twoBytes 3 t := by
  refine ⟨_, rfl, fun h => ?_⟩
  exact absurd (h.copied_once 2 (by decide) (by decide)) (by decide)

end DpuTest.Dma
