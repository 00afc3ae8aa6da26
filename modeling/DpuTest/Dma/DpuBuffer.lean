import DpuTest.Dma.DmaCopyDpu
import DpuTest.Lib.Engine

/-!
# What `dma_copy_dpu` leaves in its buffer

All batches go to the same `dpu_buffer`: task `j` writes to the `j`-th of its payloads,
whatever the batch.  `runCopies` are the batches with what the device reads and writes.
Without the bytes they are `runBatches` (`deliverCopy_deliver`).

`runCopies_success` is what a call that returns success leaves: in each payload what the
task of the last batch has brought, and of the batches before nothing.
-/

namespace DpuTest.Dma

open Lib

/-- The memory of the host, from `remote_addr` on. -/
abbrev HostMemory := Int → UInt8

/-- `length` bytes of it. -/
def readHost (mem : HostMemory) (source : Int) (length : Nat) : List UInt8 :=
  (List.range length).map fun (k : Nat) => mem (source + k)

@[simp] theorem length_readHost (mem : HostMemory) (source : Int) (length : Nat) :
    (readHost mem source length).length = length := by
  rw [readHost, List.length_map, List.length_range]

/-- The environment with the bytes.  A task that fails leaves anything in its payload. -/
structure CopyEnv (sizes : DmaSizes) extends DmaEnv where
  mem : HostMemory
  failedPayload : Nat → Nat → Buffer UInt8 sizes.payloadSize

/-- The variables with `dpu_buffer`. -/
structure CopyState (sizes : DmaSizes) where
  dma : DmaState
  dpuBuffer : Buffer UInt8 (sizes.batchSize * sizes.payloadSize)

section

variable (sizes : DmaSizes) (env : CopyEnv sizes)

/-- What task `j` of batch `i` brings from `source`. -/
def taskPayload (i j : Nat) (source : Int) : List UInt8 :=
  if env.outcome i j = .success then readHost env.mem source sizes.payloadSize
  else (env.failedPayload i j).data

/-- One callback in the wait for batch `i`.  A task that has ended has written to its
destination, which was empty when the task was submitted. -/
def deliverCopy (i : Nat) (s : CopyState sizes) : ProgressEvent → Option (CopyState sizes)
  | .task j =>
    (deliver env.toDmaEnv i s.dma (.task j)).bind fun dma =>
      (s.dpuBuffer.store (j * sizes.payloadSize)
          (taskPayload sizes env i j (s.dma.srcData j))).map fun dpuBuffer =>
        { dma := dma, dpuBuffer := dpuBuffer }
  | .stateChanged next =>
    (deliver env.toDmaEnv i s.dma (.stateChanged next)).map fun dma => { s with dma := dma }

/-- `runBatches`, with the bytes. -/
def runCopies : List Nat → CopyState sizes → Option (DocaStatus × CopyState sizes)
  | [], s => some (s.dma.taskResult, s)
  | i :: is, s =>
    match submitTasks sizes env.toDmaEnv i (List.range sizes.batchSize)
        { s.dma with resources := { s.dma.resources with remaining := 0 } } with
    | (.success, dma) =>
      match progressLoop (fun s : CopyState sizes => s.dma.resources.running)
          (deliverCopy sizes env i) (env.calls i)
          { s with dma := { dma with resources := { dma.resources with running := true } } } with
      | none => none
      | some s => runCopies is s
    | (status, dma) => some (status, { s with dma := dma })

end

section

variable {sizes : DmaSizes} {env : CopyEnv sizes} {i : Nat} {s t : CopyState sizes}

/-! ## One callback -/

theorem length_taskPayload (i j : Nat) (source : Int) :
    (taskPayload sizes env i j source).length = sizes.payloadSize := by
  rw [taskPayload]
  split
  · exact length_readHost _ _ _
  · exact (env.failedPayload i j).length_data

theorem deliverCopy_task {j : Nat} (h : deliverCopy sizes env i s (.task j) = some t) :
    deliver env.toDmaEnv i s.dma (.task j) = some t.dma ∧
      t.dpuBuffer.segment sizes.payloadSize j = taskPayload sizes env i j (s.dma.srcData j) ∧
      ∀ j', j' ≠ j →
        t.dpuBuffer.segment sizes.payloadSize j' = s.dpuBuffer.segment sizes.payloadSize j' := by
  rw [deliverCopy] at h
  obtain ⟨dma, hdma, hstore⟩ := Option.bind_eq_some_iff.mp h
  obtain ⟨dpuBuffer, hput, rfl⟩ := Option.map_eq_some_iff.mp hstore
  obtain ⟨hle, rfl⟩ := Buffer.store_inv hput
  have hlen := @length_taskPayload sizes env i j (s.dma.srcData j)
  exact ⟨hdma, Buffer.segment_put_self hlen hle,
    fun j' hne => Buffer.segment_put_of_ne hlen hle hne⟩

theorem deliverCopy_stateChanged {next : CtxState}
    (h : deliverCopy sizes env i s (.stateChanged next) = some t) :
    deliver env.toDmaEnv i s.dma (.stateChanged next) = some t.dma ∧
      t.dpuBuffer = s.dpuBuffer := by
  rw [deliverCopy] at h
  obtain ⟨dma, hdma, rfl⟩ := Option.map_eq_some_iff.mp h
  exact ⟨hdma, rfl⟩

/-- A callback does what it does without the bytes. -/
theorem deliverCopy_deliver (s : CopyState sizes) (e : ProgressEvent) (t : CopyState sizes)
    (h : deliverCopy sizes env i s e = some t) : deliver env.toDmaEnv i s.dma e = some t.dma := by
  cases e with
  | task j => exact (deliverCopy_task h).1
  | stateChanged next => exact (deliverCopy_stateChanged h).1

/-- What happens to the tasks in flight and to their sources. -/
theorem deliver_frame {env : DmaEnv} {s t : DmaState} {e : ProgressEvent}
    (h : deliver env i s e = some t) :
    t.srcData = s.srcData ∧
      match e with
      | .task j => j ∈ s.inFlight ∧ t.inFlight = s.inFlight.erase j
      | .stateChanged _ => t.inFlight = s.inFlight := by
  cases e with
  | task j =>
    simp only [deliver] at h
    split at h
    · rename_i hmem
      split at h
      · cases h
        exact ⟨rfl, hmem, rfl⟩
      · cases h
        exact ⟨rfl, hmem, rfl⟩
    · cases h
  | stateChanged next =>
    cases next with
    | idle =>
      simp only [deliver] at h
      split at h
      · cases h
        exact ⟨rfl, rfl⟩
      · cases h
    | starting =>
      cases h
      exact ⟨rfl, rfl⟩
    | running =>
      cases h
      exact ⟨rfl, rfl⟩
    | stopping =>
      cases h
      exact ⟨rfl, rfl⟩

/-! ## One batch -/

/-- In the wait for batch `i`: the sources of the tasks are set, and a task that has ended
has brought its payload. -/
structure Landing (env : CopyEnv sizes) (i : Nat) (s : CopyState sizes) : Prop where
  nodup : s.dma.inFlight.Nodup
  srcData_eq : ∀ j, j < sizes.batchSize → s.dma.srcData j = srcOffset sizes i j
  landed : ∀ j, j < sizes.batchSize → j ∉ s.dma.inFlight →
    s.dpuBuffer.segment sizes.payloadSize j =
      taskPayload sizes env i j (srcOffset sizes i j)

theorem Landing.step (hs : Landing env i s) {e : ProgressEvent}
    (h : deliverCopy sizes env i s e = some t) : Landing env i t := by
  obtain ⟨hsrc, hflight⟩ := deliver_frame (deliverCopy_deliver s e t h)
  cases e with
  | task j =>
    obtain ⟨hmem, herase⟩ := hflight
    obtain ⟨-, hself, hother⟩ := deliverCopy_task h
    refine ⟨?_, fun k hk => ?_, fun k hk hout => ?_⟩
    · rw [herase]
      exact hs.nodup.erase j
    · rw [hsrc]
      exact hs.srcData_eq k hk
    · by_cases hkj : k = j
      · subst hkj
        rw [hself, hs.srcData_eq k hk]
      · rw [hother k hkj]
        apply hs.landed k hk
        intro hin
        apply hout
        rw [herase]
        exact (List.mem_erase_of_ne hkj).mpr hin
  | stateChanged next =>
    have hsame := (deliverCopy_stateChanged h).2
    refine ⟨?_, fun k hk => ?_, fun k hk hout => ?_⟩
    · rw [hflight]
      exact hs.nodup
    · rw [hsrc]
      exact hs.srcData_eq k hk
    · rw [hsame]
      rw [hflight] at hout
      exact hs.landed k hk hout

/-- Each payload has what the tasks of batch `i` have brought. -/
def HoldsBatch (env : CopyEnv sizes) (i : Nat) (s : CopyState sizes) : Prop :=
  ∀ j, j < sizes.batchSize → s.dpuBuffer.segment sizes.payloadSize j =
    taskPayload sizes env i j (srcOffset sizes i j)

/-- When all tasks of a batch are out, none has landed. -/
theorem landing_submit (hs : s.dma.inFlight = []) :
    Landing env i
      { s with
        dma := { (DmaState.submit sizes i (List.range sizes.batchSize)
            { s.dma with resources := { s.dma.resources with remaining := 0 } }) with
          resources := ⟨UInt64.ofNat sizes.batchSize, true⟩ } } where
  nodup := by
    show (s.dma.inFlight ++ List.range sizes.batchSize).Nodup
    rw [hs, List.nil_append]
    exact List.nodup_range
  srcData_eq j hj := if_pos (List.mem_range.mpr hj)
  landed j hj hout := by
    apply absurd _ hout
    show j ∈ s.dma.inFlight ++ List.range sizes.batchSize
    rw [hs, List.nil_append]
    exact List.mem_range.mpr hj

theorem progressLoop_dma {calls : List (List ProgressEvent)}
    (h : progressLoop (fun s : CopyState sizes => s.dma.resources.running)
      (deliverCopy sizes env i) calls s = some t) :
    progressLoop (fun s : DmaState => s.resources.running) (deliver env.toDmaEnv i) calls s.dma =
      some t.dma :=
  progressLoop_of_view CopyState.dma deliverCopy_deliver h

/-- A wait that is left has brought the whole batch. -/
theorem progressLoop_copies {all : List (Int × DocaStatus)} {sources : List Int}
    {calls : List (List ProgressEvent)} (hwait : Waiting env.toDmaEnv i all sources s.dma)
    (hland : Landing env i s)
    (h : progressLoop (fun s : CopyState sizes => s.dma.resources.running)
      (deliverCopy sizes env i) calls s = some t) :
    Quiet all sources t.dma ∧ HoldsBatch env i t := by
  have hquiet : Quiet all sources t.dma :=
    progressLoop_quiet hwait (progressLoop_dma h)
  refine ⟨hquiet, fun j hj => ?_⟩
  obtain ⟨-, k, hrun⟩ := run_of_progressLoop h
  have ht : Landing env i t :=
    run_inv (Landing env i) (fun _ _ _ hs hone => hs.step hone) hrun hland
  apply ht.landed j hj
  rw [hquiet.inFlight_eq]
  exact List.not_mem_nil

/-! ## All batches -/

/-- Without the bytes they are the batches of `dma_copy_dpu`. -/
theorem runCopies_runBatches {is : List Nat} {status : DocaStatus}
    (h : runCopies sizes env is s = some (status, t)) :
    runBatches sizes env.toDmaEnv is s.dma = some (status, t.dma) := by
  induction is generalizing s with
  | nil =>
    simp only [runCopies, Option.some.injEq, Prod.mk.injEq] at h
    obtain ⟨hresult, rfl⟩ := h
    rw [runBatches, hresult]
  | cons i is ih =>
    rw [runCopies] at h
    rw [runBatches]
    split at h
    · rename_i dma hsubmit
      rw [hsubmit]
      split at h
      · cases h
      · rename_i u hloop
        simp only [progressLoop_dma hloop]
        exact ih h
    · rename_i status' dma hother hsubmit
      simp only [Option.some.injEq, Prod.mk.injEq] at h
      obtain ⟨rfl, rfl⟩ := h
      rw [hsubmit]
      cases status' with
      | success => exact absurd rfl hother
      | inProgress => rfl
      | timeOut => rfl
      | other code => rfl

/-- A run over the batches `is` that returns success leaves the payloads of the last one. -/
theorem runCopies_success {all : List (Int × DocaStatus)} {sources : List Int} {is : List Nat}
    (hs : Quiet all sources s.dma) (h : runCopies sizes env is s = some (.success, t)) :
    (is = [] → t = s) ∧ ∀ i, is.getLast? = some i → HoldsBatch env i t := by
  induction is generalizing s all sources with
  | nil =>
    simp only [runCopies, Option.some.injEq, Prod.mk.injEq] at h
    exact ⟨fun _ => h.2.symm, fun i hi => by cases hi⟩
  | cons i is ih =>
    rw [runCopies] at h
    split at h
    · rename_i dma hsubmit
      split at h
      · cases h
      · rename_i u hloop
        rw [submitTasks_eq hsubmit] at hloop
        have hcount : (0 : UInt64) + UInt64.ofNat (List.range sizes.batchSize).length =
            UInt64.ofNat sizes.batchSize := by
          rw [List.length_range, UInt64.zero_add]
        simp only [DmaState.submit, hcount] at hloop
        obtain ⟨hquiet, hholds⟩ :=
          progressLoop_copies (waiting_submit hs) (landing_submit hs.inFlight_eq) hloop
        obtain ⟨hnil, hlast⟩ := ih hquiet h
        refine ⟨fun hcons => absurd hcons (List.cons_ne_nil i is), fun k hk => ?_⟩
        by_cases hempty : is = []
        · subst hempty
          cases hk
          rw [hnil rfl]
          exact hholds
        · rw [List.getLast?_cons_of_ne_nil hempty] at hk
          exact hlast k hk
    · rename_i hother _
      exact (hother (Prod.mk.inj (Option.some.inj h)).1).elim

end

/-! ## What a batch holds -/

/-- The memory of the host has a buffer at its address. -/
def Holds (mem : HostMemory) (content : List UInt8) : Prop :=
  ∀ k, (h : k < content.length) → mem (k : Nat) = content.get ⟨k, h⟩

section

variable {sizes : DmaSizes} {env : CopyEnv sizes} {content : List UInt8}

theorem readHost_of_holds (hmem : Holds env.mem content) {off length : Nat}
    (hle : off + length ≤ content.length) :
    readHost env.mem off length = slice content off length := by
  apply List.ext_getElem
  · rw [length_readHost, length_slice hle]
  · intro k hk hk'
    rw [length_readHost] at hk
    have hbyte := hmem (off + k) (by omega)
    simp only [readHost, List.getElem_map, List.getElem_range, slice, List.getElem_take,
      List.getElem_drop]
    rw [← Int.natCast_add, hbyte]
    rfl

/-- The offset of a task is that of its payload in the batch. -/
theorem payload_offset (i j : Nat) :
    sizes.payloadSize * (sizes.batchSize * i + j) =
      sizes.payloadSize * sizes.batchSize * i + j * sizes.payloadSize := by
  rw [Nat.mul_add, Nat.mul_assoc, Nat.mul_comm j]

/-- A batch that fits, of tasks that have succeeded. -/
theorem data_of_holdsBatch {s : CopyState sizes} {i n : Nat} (hi : i < n)
    (hfit : sizes.payloadSize * sizes.batchSize < 2 ^ 31)
    (hlast : sizes.payloadSize * sizes.batchSize * (n - 1) < 2 ^ 31)
    (hle : sizes.payloadSize * sizes.batchSize * n ≤ content.length)
    (hmem : Holds env.mem content)
    (houtcome : ∀ j, j < sizes.batchSize → env.outcome i j = .success)
    (hs : HoldsBatch env i s) :
    s.dpuBuffer.data = slice content (sizes.payloadSize * sizes.batchSize * i)
      (sizes.batchSize * sizes.payloadSize) := by
  rw [s.dpuBuffer.data_eq_flatten, ← flatten_blocksAt, blocksAt]
  congr 1
  apply List.map_congr_left
  intro j hj
  have hlt := List.mem_range.mp hj
  have hroom : sizes.payloadSize * sizes.batchSize * i + j * sizes.payloadSize +
      sizes.payloadSize ≤ content.length := by
    have hseg := Buffer.segment_bound sizes.payloadSize hlt
    have hrow : sizes.payloadSize * sizes.batchSize * (i + 1) ≤
        sizes.payloadSize * sizes.batchSize * n := Nat.mul_le_mul_left _ hi
    rw [Nat.mul_add, Nat.mul_one] at hrow
    rw [Nat.mul_comm sizes.batchSize] at hseg
    omega
  have hmem' : (i, j) ∈ indices sizes n := mem_indices.mpr ⟨hi, hlt⟩
  have hsource := srcOffset_of_fits hfit hlast hmem'
  dsimp only at hsource
  rw [hs j hlt, taskPayload, if_pos (houtcome j hlt), hsource, payload_offset,
    readHost_of_holds hmem hroom]

end

/-! ## A device without failures -/

/-- No call fails, no task fails, and in each batch every task is reported. -/
structure Works (sizes : DmaSizes) (env : DmaEnv) : Prop where
  setData_ok : ∀ i j, env.setData i j = .success
  submit_ok : ∀ i j, env.submit i j = .success
  outcome_ok : ∀ i j, env.outcome i j = .success
  reported : ∀ i, ∃ order : CompletionOrder sizes.batchSize,
    (env.calls i).flatten = order.tasks.map .task

section

variable {sizes : DmaSizes} {env : CopyEnv sizes} {i : Nat} {s t : CopyState sizes}

theorem submitTasks_of_works (hworks : Works sizes env.toDmaEnv) (js : List Nat) (s : DmaState) :
    ∃ t, submitTasks sizes env.toDmaEnv i js s = (.success, t) := by
  induction js generalizing s with
  | nil => exact ⟨s, rfl⟩
  | cons j js ih =>
    rw [submitTasks, submitTask, if_neg (not_not_intro (hworks.setData_ok i j)),
      if_neg (not_not_intro (hworks.submit_ok i j))]
    exact ih _

/-- The tasks end one after the other. -/
theorem run_tasks (hworks : Works sizes env.toDmaEnv) {tasks : List Nat}
    (hperm : s.dma.inFlight.Perm tasks) (hlt : ∀ j ∈ tasks, j < sizes.batchSize)
    (hstop : s.dma.stopPending = false) :
    ∃ t, run (deliverCopy sizes env i) (tasks.map .task) s = some t ∧
      t.dma.inFlight = [] ∧ t.dma.stopPending = false := by
  induction tasks generalizing s with
  | nil => exact ⟨s, rfl, hperm.eq_nil, hstop⟩
  | cons j tasks ih =>
    have hmem : j ∈ s.dma.inFlight := hperm.mem_iff.mpr List.mem_cons_self
    have hroom : j * sizes.payloadSize +
        (taskPayload sizes env i j (s.dma.srcData j)).length ≤
          sizes.batchSize * sizes.payloadSize := by
      rw [length_taskPayload]
      exact Buffer.segment_bound _ (hlt j List.mem_cons_self)
    obtain ⟨u, hone, hflight, hpending⟩ : ∃ u, deliverCopy sizes env i s (.task j) = some u ∧
        u.dma.inFlight = s.dma.inFlight.erase j ∧ u.dma.stopPending = false := by
      simp only [deliverCopy, deliver, if_pos hmem, if_pos (hworks.outcome_ok i j),
        Option.bind_some, Buffer.store_eq_some _ hroom, Option.map_some]
      exact ⟨_, rfl, rfl, hstop⟩
    have hrest : u.dma.inFlight.Perm tasks := by
      rw [hflight]
      have herase := hperm.erase j
      rwa [List.erase_cons_head] at herase
    obtain ⟨t, hrun, ht⟩ := ih hrest (fun k hk => hlt k (List.mem_cons_of_mem j hk)) hpending
    refine ⟨t, ?_, ht⟩
    rw [List.map_cons, run_cons_of_some _ hone]
    exact hrun

/-- No callback raises the flag. -/
theorem running_of_deliverCopy (s : CopyState sizes) (e : ProgressEvent) (t : CopyState sizes)
    (hdown : s.dma.resources.running = false) (h : deliverCopy sizes env i s e = some t) :
    t.dma.resources.running = false :=
  (deliver_delivered e (deliverCopy_deliver s e t h)).handles.running_eq_false hdown

/-- A task that has ended has left its success. -/
def Successful (s : CopyState sizes) : Prop :=
  s.dma.taskResult = .success ∨ s.dma.inFlight.length = sizes.batchSize

theorem Successful.step (hworks : Works sizes env.toDmaEnv) (hs : Successful s)
    {e : ProgressEvent} (h : deliverCopy sizes env i s e = some t) : Successful t := by
  have hone := deliverCopy_deliver s e t h
  cases e with
  | task j =>
    simp only [deliver] at hone
    split at hone
    · simp only [hworks.outcome_ok, if_true, Option.some.injEq] at hone
      rw [Successful, ← hone]
      exact Or.inl rfl
    · cases hone
  | stateChanged next =>
    have hflight : t.dma.inFlight = s.dma.inFlight := (deliver_frame hone).2
    have hresult : t.dma.taskResult = s.dma.taskResult := by
      cases next with
      | idle =>
        simp only [deliver] at hone
        split at hone
        · rw [← Option.some.inj hone]
        · cases hone
      | starting => rw [← Option.some.inj hone]
      | running => rw [← Option.some.inj hone]
      | stopping => rw [← Option.some.inj hone]
    rw [Successful, hflight, hresult]
    exact hs

/-- The wait for a batch is left, with a success. -/
theorem exists_progressLoop (hworks : Works sizes env.toDmaEnv)
    {all : List (Int × DocaStatus)} {sources : List Int}
    (hwait : Waiting env.toDmaEnv i all sources s.dma)
    (hflight : s.dma.inFlight = List.range sizes.batchSize)
    (hstop : s.dma.stopPending = false) :
    ∃ t, progressLoop (fun s : CopyState sizes => s.dma.resources.running)
        (deliverCopy sizes env i) (env.calls i) s = some t ∧
      t.dma.taskResult = .success := by
  obtain ⟨order, horder⟩ := hworks.reported i
  have hperm : s.dma.inFlight.Perm order.tasks := by
    rw [hflight]
    exact order.perm.symm
  obtain ⟨u, hrun, hnil, hpending⟩ :=
    run_tasks (i := i) hworks hperm (fun j hj => order.mem_iff.mp hj) hstop
  have hdown : u.dma.resources.running = false := by
    have hu : Waiting env.toDmaEnv i all sources u.dma :=
      run_inv (fun v => Waiting env.toDmaEnv i all sources (CopyState.dma v))
        (fun v e w hv hone => hv.deliver e (deliverCopy_deliver v e w hone)) hrun hwait
    apply hu.waits.running_iff.mpr
    rw [hnil]
    exact ⟨rfl, hpending⟩
  rw [← horder] at hrun
  obtain ⟨t, ht⟩ := (progressLoop_ends_iff running_of_deliverCopy hrun).mpr hdown
  refine ⟨t, ht, ?_⟩
  have hquiet := progressLoop_quiet hwait (progressLoop_dma ht)
  obtain ⟨-, k, hprefix⟩ := run_of_progressLoop ht
  have hstart : Successful s := Or.inr (by rw [hflight, List.length_range])
  have hdone : Successful t :=
    run_inv Successful (fun _ _ _ hs hone => hs.step hworks hone) hprefix hstart
  rcases hdone with hresult | hlen
  · exact hresult
  · rw [hquiet.inFlight_eq] at hlen
    exact absurd hlen (Nat.ne_of_lt sizes.batchSize_pos)

/-- With a device that works all batches are run. -/
theorem exists_runCopies (hworks : Works sizes env.toDmaEnv) {all : List (Int × DocaStatus)}
    {sources : List Int} (hs : Quiet all sources s.dma) (is : List Nat)
    (hne : is ≠ [] ∨ s.dma.taskResult = .success) :
    ∃ t, runCopies sizes env is s = some (.success, t) := by
  induction is generalizing s all sources with
  | nil =>
    refine ⟨s, ?_⟩
    rw [runCopies, hne.resolve_left (fun h => h rfl)]
  | cons i is ih =>
    obtain ⟨dma, hsubmit⟩ := submitTasks_of_works (i := i) hworks (List.range sizes.batchSize)
      { s.dma with resources := { s.dma.resources with remaining := 0 } }
    have hdma := submitTasks_eq hsubmit
    have hcount : (0 : UInt64) + UInt64.ofNat (List.range sizes.batchSize).length =
        UInt64.ofNat sizes.batchSize := by
      rw [List.length_range, UInt64.zero_add]
    simp only [DmaState.submit, hcount] at hdma
    have hwait := @waiting_submit sizes env.toDmaEnv i s.dma all sources hs
    obtain ⟨u, hloop, hresult⟩ : ∃ u,
        progressLoop (fun s : CopyState sizes => s.dma.resources.running)
          (deliverCopy sizes env i) (env.calls i)
          { s with dma := { dma with resources := { dma.resources with running := true } } } =
            some u ∧ u.dma.taskResult = .success := by
      rw [hdma]
      refine exists_progressLoop hworks hwait ?_ hs.stopPending_eq
      show s.dma.inFlight ++ List.range sizes.batchSize = List.range sizes.batchSize
      rw [hs.inFlight_eq, List.nil_append]
    have hview := progressLoop_dma hloop
    rw [hdma] at hview
    obtain ⟨t, ht⟩ := ih (progressLoop_quiet hwait hview) (Or.inr hresult)
    refine ⟨t, ?_⟩
    rw [runCopies, hsubmit]
    simp only [hloop]
    exact ht

end

end DpuTest.Dma
