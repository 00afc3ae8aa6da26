import DpuTest.EcDecode.DecodeBench
import DpuTest.Lib.Run
import Mathlib.Data.List.Perm.Subperm
import Mathlib.Logic.Function.Basic

/-!
# The pipelined branch of the decode benchmark

In the branch `Batch_Copy_Pipeline` two threads copy and submit one half of the
batch each while the main thread polls.  `step` takes one atomic step of any
party: of a submit thread, of the device, of the main thread.  A list of actions
is an interleaving, and `run step` takes it.

`Control` is what the steps keep of the threads, the task lists and the counter:
the counter is the number of tasks that are counted less the number of callbacks
that have run, and it is negative while a callback is ahead of its count.
`Contents` is what they keep of the buffers.
-/

namespace DpuTest.EcDecode

open Lib

/-- `submit_thread_num` -/
abbrev SUBMIT_THREAD_NUM : Nat := 2

def firstThread : Fin SUBMIT_THREAD_NUM := 0
def secondThread : Fin SUBMIT_THREAD_NUM := 1

/-- The atomic steps in the loop body of `ec_decode_submit_thread`. -/
inductive SubmitPc where
  | copy
  | submit
  | count
  | flag
  deriving DecidableEq

/-- A submit thread: its loop counter and its next step. -/
structure Submitter where
  i : Nat
  pc : SubmitPc
  deriving DecidableEq

namespace Submitter

/-- The tasks whose segment is copied. -/
def copied (d : Submitter) : Nat :=
  match d.pc with
  | .copy => d.i
  | .submit | .count | .flag => d.i + 1

/-- The tasks that are submitted. -/
def submitted (d : Submitter) : Nat :=
  match d.pc with
  | .copy | .submit => d.i
  | .count | .flag => d.i + 1

/-- The tasks that `num_remaining_tasks` has been incremented for. -/
def counted (d : Submitter) : Nat :=
  match d.pc with
  | .copy | .submit | .count => d.i
  | .flag => d.i + 1

end Submitter

/-- The main thread: about to evaluate the loop condition, about to call
`doca_pe_progress`, behind the loop, behind both joins. -/
inductive MainPc where
  | test
  | progress
  | joining
  | joined
  deriving DecidableEq

/-- The three parties and their memory.  The lists record the tasks that were
submitted, that the device has completed, and whose callback has run. -/
structure PipelineState (b : DecodeShape) where
  objects : EcSampleObjects b
  threads : Fin SUBMIT_THREAD_NUM → Submitter
  submitted : List Nat
  completed : List Nat
  delivered : List Nat
  main : MainPc

inductive PipelineAction where
  /-- The next step of a submit thread. -/
  | thread (t : Fin SUBMIT_THREAD_NUM)
  /-- The device completes a task. -/
  | complete (j : Nat)
  /-- `doca_pe_progress` runs the callback of a completed task. -/
  | deliver (j : Nat)
  /-- `doca_pe_progress` returns 0. -/
  | idle
  /-- `while (run_pe_progress || num_remaining_tasks > 0)` -/
  | test
  /-- `pthread_join` of both threads. -/
  | join
  deriving DecidableEq

/-- The condition of the polling loop. -/
def EcSampleObjects.loopCondition {b : DecodeShape} (s : EcSampleObjects b) : Bool :=
  s.runPeProgress || decide (0 < s.numRemainingTasks)

/-- The `batch_size` of a submit thread. -/
def threadBatch (b : DecodeShape) : Nat := b.batchSize / SUBMIT_THREAD_NUM

/-- `task_start_idx + i`.  The thread's buffers start at the same stripe, so this
is also the stripe that it copies. -/
def taskIdx (b : DecodeShape) (t : Fin SUBMIT_THREAD_NUM) (i : Nat) : Nat :=
  t * threadBatch b + i

section

variable {b : DecodeShape} (r : EcRecover b) (srcSegs : Buffer UInt8 b.srcSize)

/-- The thread has returned. -/
def Submitter.Finished (b : DecodeShape) (d : Submitter) : Prop := ¬ d.i < threadBatch b

instance (d : Submitter) : Decidable (d.Finished b) := inferInstanceAs (Decidable (¬ _))

/-- One atomic step of `ec_decode_submit_thread`. -/
def submitThreadStep (t : Fin SUBMIT_THREAD_NUM) (s : PipelineState b) :
    Option (PipelineState b) :=
  let d := s.threads t
  let j := taskIdx b t d.i
  if d.i < threadBatch b then
    match d.pc with
    | .copy =>
      (copySrcSeg srcSegs j s.objects).map fun objects =>
        { s with objects := objects, threads := Function.update s.threads t ⟨d.i, .submit⟩ }
    | .submit =>
      some { s with
        submitted := s.submitted ++ [j]
        threads := Function.update s.threads t ⟨d.i, .count⟩ }
    | .count =>
      some { s with
        objects := addRemaining s.objects
        threads := Function.update s.threads t ⟨d.i, .flag⟩ }
    | .flag =>
      some { s with
        objects := raiseFlag s.objects
        threads := Function.update s.threads t ⟨d.i + 1, .copy⟩ }
  else none

/-- One atomic step of any party. -/
def step (s : PipelineState b) : PipelineAction → Option (PipelineState b)
  | .thread t => submitThreadStep srcSegs t s
  | .complete j =>
    if j ∈ s.submitted ∧ j ∉ s.completed then
      (recoverTask r j s.objects).map fun objects =>
        { s with objects := objects, completed := s.completed ++ [j] }
    else none
  | .deliver j =>
    if s.main = .progress ∧ j ∈ s.completed ∧ j ∉ s.delivered then
      (ecRecoverCompletedCallbackMemcpy j s.objects).map fun objects =>
        { s with objects := objects, delivered := s.delivered ++ [j], main := .test }
    else none
  | .idle => if s.main = .progress then some { s with main := .test } else none
  | .test =>
    if s.main = .test then
      some { s with main := if s.objects.loopCondition then .progress else .joining }
    else none
  | .join =>
    if s.main = .joining ∧ ∀ t, (s.threads t).Finished b then some { s with main := .joined }
    else none

/-- The state before the loop; the threads have been created. -/
def pipelineStart (objects : EcSampleObjects b) : PipelineState b where
  objects := { objects with numRemainingTasks := 0, runPeProgress := true }
  threads := fun _ => ⟨0, .copy⟩
  submitted := []
  completed := []
  delivered := []
  main := .test

variable {r srcSegs} {s s' : PipelineState b} {t : Fin SUBMIT_THREAD_NUM} {j : Nat}

/-! ## What a step can do -/

theorem step_thread_inv (h : step r srcSegs s (.thread t) = some s') :
    (s.threads t).i < threadBatch b ∧
      (((s.threads t).pc = .copy ∧ ∃ objects,
          copySrcSeg srcSegs (taskIdx b t (s.threads t).i) s.objects = some objects ∧
          s' = { s with
            objects := objects
            threads := Function.update s.threads t ⟨(s.threads t).i, .submit⟩ }) ∨
        ((s.threads t).pc = .submit ∧
          s' = { s with
            submitted := s.submitted ++ [taskIdx b t (s.threads t).i]
            threads := Function.update s.threads t ⟨(s.threads t).i, .count⟩ }) ∨
        ((s.threads t).pc = .count ∧
          s' = { s with
            objects := addRemaining s.objects
            threads := Function.update s.threads t ⟨(s.threads t).i, .flag⟩ }) ∨
        ((s.threads t).pc = .flag ∧
          s' = { s with
            objects := raiseFlag s.objects
            threads := Function.update s.threads t ⟨(s.threads t).i + 1, .copy⟩ })) := by
  simp only [step, submitThreadStep] at h
  split at h
  · rename_i hlt
    refine ⟨hlt, ?_⟩
    split at h
    · rename_i hpc
      obtain ⟨objects, hcopy, rfl⟩ := Option.map_eq_some_iff.mp h
      exact Or.inl ⟨hpc, objects, hcopy, rfl⟩
    · rename_i hpc
      exact Or.inr (Or.inl ⟨hpc, (Option.some.inj h).symm⟩)
    · rename_i hpc
      exact Or.inr (Or.inr (Or.inl ⟨hpc, (Option.some.inj h).symm⟩))
    · rename_i hpc
      exact Or.inr (Or.inr (Or.inr ⟨hpc, (Option.some.inj h).symm⟩))
  · cases h

theorem step_complete_inv (h : step r srcSegs s (.complete j) = some s') :
    j ∈ s.submitted ∧ j ∉ s.completed ∧ ∃ objects, recoverTask r j s.objects = some objects ∧
      s' = { s with objects := objects, completed := s.completed ++ [j] } := by
  simp only [step] at h
  split at h
  · rename_i hj
    obtain ⟨objects, htask, rfl⟩ := Option.map_eq_some_iff.mp h
    exact ⟨hj.1, hj.2, objects, htask, rfl⟩
  · cases h

theorem step_deliver_inv (h : step r srcSegs s (.deliver j) = some s') :
    s.main = .progress ∧ j ∈ s.completed ∧ j ∉ s.delivered ∧
      ∃ objects, copyDstSeg j s.objects = some objects ∧
        s' = { s with
          objects := ecRecoverCompletedCallback objects
          delivered := s.delivered ++ [j]
          main := .test } := by
  simp only [step] at h
  split at h
  · rename_i hj
    obtain ⟨objects, hcallback, rfl⟩ := Option.map_eq_some_iff.mp h
    obtain ⟨objects', hcopy, rfl⟩ := Option.map_eq_some_iff.mp hcallback
    exact ⟨hj.1, hj.2.1, hj.2.2, objects', hcopy, rfl⟩
  · cases h

theorem step_idle_inv (h : step r srcSegs s .idle = some s') :
    s.main = .progress ∧ s' = { s with main := .test } := by
  simp only [step] at h
  split at h
  · rename_i hmain
    exact ⟨hmain, (Option.some.inj h).symm⟩
  · cases h

theorem step_test_inv (h : step r srcSegs s .test = some s') :
    s.main = .test ∧
      s' = { s with main := if s.objects.loopCondition then .progress else .joining } := by
  simp only [step] at h
  split at h
  · rename_i hmain
    exact ⟨hmain, (Option.some.inj h).symm⟩
  · cases h

theorem step_join_inv (h : step r srcSegs s .join = some s') :
    s.main = .joining ∧ (∀ t, (s.threads t).Finished b) ∧ s' = { s with main := .joined } := by
  simp only [step] at h
  split at h
  · rename_i hmain
    exact ⟨hmain.1, hmain.2, (Option.some.inj h).symm⟩
  · cases h

/-! ## The threads -/

/-- The sum over the two threads. -/
def total (f : Submitter → Nat) (threads : Fin SUBMIT_THREAD_NUM → Submitter) : Nat :=
  f (threads 0) + f (threads 1)

/-- A step of one thread changes the sum by what it changes of this thread. -/
theorem total_update (f : Submitter → Nat) (threads : Fin SUBMIT_THREAD_NUM → Submitter)
    (t : Fin SUBMIT_THREAD_NUM) (d : Submitter) :
    total f (Function.update threads t d) + f (threads t) = total f threads + f d := by
  have hne : (0 : Fin SUBMIT_THREAD_NUM) ≠ 1 := by decide
  have ht : t = 0 ∨ t = 1 := by
    revert t
    decide
  rcases ht with rfl | rfl
  · rw [total, total, Function.update_self, Function.update_of_ne hne.symm]
    omega
  · rw [total, total, Function.update_self, Function.update_of_ne hne]
    omega

/-- What a thread keeps of itself: it returns at the top of the loop. -/
structure Submitter.Ok (b : DecodeShape) (d : Submitter) : Prop where
  i_le : d.i ≤ threadBatch b
  pc_eq : d.i = threadBatch b → d.pc = .copy

namespace Submitter

variable {d : Submitter}

theorem submitted_le_copied (d : Submitter) : d.submitted ≤ d.copied := by
  unfold submitted copied
  split <;> simp

theorem Ok.copied_le (h : d.Ok b) : d.copied ≤ threadBatch b := by
  have hle := h.i_le
  have heq := h.pc_eq
  unfold copied
  split
  · exact hle
  all_goals
    by_cases hi : d.i = threadBatch b
    · simp_all
    · omega

theorem Ok.submitted_le (h : d.Ok b) : d.submitted ≤ threadBatch b :=
  Nat.le_trans d.submitted_le_copied h.copied_le

/-- A thread that has returned has done all its tasks. -/
theorem Ok.of_finished (h : d.Ok b) (hfin : d.Finished b) :
    d.submitted = threadBatch b ∧ d.counted = threadBatch b := by
  have hi : d.i = threadBatch b := Nat.le_antisymm h.i_le (Nat.le_of_not_lt hfin)
  have hpc := h.pc_eq hi
  simp only [submitted, counted, hpc, hi, and_self]

end Submitter

/-- The tasks of the two threads do not meet. -/
theorem taskIdx_inj {t t' : Fin SUBMIT_THREAD_NUM} {i i' : Nat} (hi : i < threadBatch b)
    (hi' : i' < threadBatch b) (h : taskIdx b t i = taskIdx b t' i') : t = t' ∧ i = i' := by
  unfold taskIdx at h
  rcases Nat.lt_trichotomy t.val t'.val with hlt | heq | hgt
  · have hmul := Nat.mul_le_mul_right (threadBatch b) (Nat.succ_le_of_lt hlt)
    rw [Nat.succ_mul] at hmul
    omega
  · rw [heq] at h
    exact ⟨Fin.ext heq, by omega⟩
  · have hmul := Nat.mul_le_mul_right (threadBatch b) (Nat.succ_le_of_lt hgt)
    rw [Nat.succ_mul] at hmul
    omega

/-- They are below the two halves, which are below the batch. -/
theorem taskIdx_lt (t : Fin SUBMIT_THREAD_NUM) {i : Nat} (hi : i < threadBatch b) :
    taskIdx b t i < SUBMIT_THREAD_NUM * threadBatch b := by
  have hmul := Nat.mul_le_mul_right (threadBatch b) (Nat.succ_le_of_lt t.isLt)
  rw [Nat.succ_mul] at hmul
  unfold taskIdx
  omega

theorem threadBatch_le (b : DecodeShape) : SUBMIT_THREAD_NUM * threadBatch b ≤ b.batchSize :=
  Nat.mul_div_le b.batchSize SUBMIT_THREAD_NUM

/-! ## Threads, tasks and counter -/

/-- What every step keeps of the threads, the tasks and the counter. -/
structure Control (s : PipelineState b) : Prop where
  ok : ∀ t, (s.threads t).Ok b
  submitted_inv : ∀ j ∈ s.submitted, ∃ t i, i < (s.threads t).submitted ∧ j = taskIdx b t i
  submitted_nodup : s.submitted.Nodup
  submitted_length : s.submitted.length = total Submitter.submitted s.threads
  completed_nodup : s.completed.Nodup
  completed_subset : s.completed ⊆ s.submitted
  delivered_nodup : s.delivered.Nodup
  delivered_subset : s.delivered ⊆ s.completed
  remaining_eq : s.objects.numRemainingTasks =
    (total Submitter.counted s.threads : Int) - s.delivered.length

theorem control_start (objects : EcSampleObjects b) : Control (pipelineStart objects) where
  ok _ := ⟨Nat.zero_le _, fun _ => rfl⟩
  submitted_inv _ hj := absurd hj List.not_mem_nil
  submitted_nodup := List.nodup_nil
  submitted_length := rfl
  completed_nodup := List.nodup_nil
  completed_subset := List.Subset.refl _
  delivered_nodup := List.nodup_nil
  delivered_subset := List.Subset.refl _
  remaining_eq := rfl

namespace Control

/-- A submitted task is one of a thread. -/
theorem lt_of_submitted (h : Control s) (hj : j ∈ s.submitted) :
    j < SUBMIT_THREAD_NUM * threadBatch b := by
  obtain ⟨t, i, hi, rfl⟩ := h.submitted_inv j hj
  exact taskIdx_lt t (Nat.lt_of_lt_of_le hi (h.ok t).submitted_le)

theorem lt_of_delivered (h : Control s) (hj : j ∈ s.delivered) :
    j < SUBMIT_THREAD_NUM * threadBatch b :=
  h.lt_of_submitted (h.completed_subset (h.delivered_subset hj))

theorem delivered_subperm (h : Control s) :
    List.Subperm s.delivered (List.range (SUBMIT_THREAD_NUM * threadBatch b)) := by
  apply List.subperm_of_subset h.delivered_nodup
  intro j hj
  exact List.mem_range.mpr (h.lt_of_delivered hj)

theorem delivered_length_le (h : Control s) :
    s.delivered.length ≤ SUBMIT_THREAD_NUM * threadBatch b := by
  have hle := h.delivered_subperm.length_le
  rw [List.length_range] at hle
  exact hle

/-- When that many callbacks have run, every task's has. -/
theorem mem_delivered (h : Control s)
    (hlen : SUBMIT_THREAD_NUM * threadBatch b ≤ s.delivered.length)
    (hj : j < SUBMIT_THREAD_NUM * threadBatch b) : j ∈ s.delivered := by
  have hperm := h.delivered_subperm.perm_of_length_le (by rw [List.length_range]; exact hlen)
  exact hperm.mem_iff.mpr (List.mem_range.mpr hj)

/-- The task that a thread is about to submit is new. -/
theorem taskIdx_notMem (h : Control s) {t : Fin SUBMIT_THREAD_NUM}
    (hlt : (s.threads t).i < threadBatch b) (hsub : (s.threads t).submitted = (s.threads t).i) :
    taskIdx b t (s.threads t).i ∉ s.submitted := by
  intro hmem
  obtain ⟨t', i, hi, heq⟩ := h.submitted_inv _ hmem
  have hin := Nat.lt_of_lt_of_le hi (h.ok t').submitted_le
  obtain ⟨rfl, rfl⟩ := taskIdx_inj hlt hin heq
  rw [hsub] at hi
  exact Nat.lt_irrefl _ hi

/-- A step of a thread that leaves its submitted tasks alone. -/
theorem submitted_inv_update (h : Control s) {t : Fin SUBMIT_THREAD_NUM} {d : Submitter}
    (hle : (s.threads t).submitted ≤ d.submitted) :
    ∀ j ∈ s.submitted, ∃ t' i, i < (Function.update s.threads t d t').submitted ∧
      j = taskIdx b t' i := by
  intro j hj
  obtain ⟨t', i, hi, rfl⟩ := h.submitted_inv j hj
  refine ⟨t', i, ?_, rfl⟩
  by_cases ht : t' = t
  · rw [ht, Function.update_self]
    rw [ht] at hi
    omega
  · rw [Function.update_of_ne ht]
    exact hi

theorem ok_update (h : Control s) {t : Fin SUBMIT_THREAD_NUM} {d : Submitter} (hd : d.Ok b) :
    ∀ t', (Function.update s.threads t d t').Ok b := by
  intro t'
  by_cases ht : t' = t
  · rw [ht, Function.update_self]
    exact hd
  · rw [Function.update_of_ne ht]
    exact h.ok t'

/-- A step of a thread that does not submit. -/
theorem thread_step (h : Control s) {t : Fin SUBMIT_THREAD_NUM} {d : Submitter}
    {objects : EcSampleObjects b} (hd : d.Ok b) (hsub : d.submitted = (s.threads t).submitted)
    (hrem : objects.numRemainingTasks + (s.threads t).counted =
      s.objects.numRemainingTasks + d.counted) :
    Control { s with objects := objects, threads := Function.update s.threads t d } where
  ok := h.ok_update hd
  submitted_inv := h.submitted_inv_update (Nat.le_of_eq hsub.symm)
  submitted_nodup := h.submitted_nodup
  submitted_length := by
    have htotal := total_update Submitter.submitted s.threads t d
    have hlen := h.submitted_length
    show s.submitted.length = total Submitter.submitted (Function.update s.threads t d)
    omega
  completed_nodup := h.completed_nodup
  completed_subset := h.completed_subset
  delivered_nodup := h.delivered_nodup
  delivered_subset := h.delivered_subset
  remaining_eq := by
    have htotal := total_update Submitter.counted s.threads t d
    have heq := h.remaining_eq
    show objects.numRemainingTasks =
      (total Submitter.counted (Function.update s.threads t d) : Int) - s.delivered.length
    omega

/-- The step of a thread that submits. -/
theorem submit_step (h : Control s) {t : Fin SUBMIT_THREAD_NUM}
    (hlt : (s.threads t).i < threadBatch b) (hpc : (s.threads t).pc = .submit) :
    Control { s with
      submitted := s.submitted ++ [taskIdx b t (s.threads t).i]
      threads := Function.update s.threads t ⟨(s.threads t).i, .count⟩ } where
  ok := h.ok_update ⟨(h.ok t).i_le, fun heq => absurd heq (Nat.ne_of_lt hlt)⟩
  submitted_inv := by
    have hsub : (s.threads t).submitted = (s.threads t).i := by
      simp only [Submitter.submitted, hpc]
    intro j hj
    rcases List.mem_append.mp hj with hold | hnew
    · refine h.submitted_inv_update ?_ j hold
      rw [hsub]
      exact Nat.le_succ _
    · refine ⟨t, (s.threads t).i, ?_, List.mem_singleton.mp hnew⟩
      show _ < (Function.update s.threads t ⟨(s.threads t).i, .count⟩ t).submitted
      rw [Function.update_self]
      exact Nat.lt_succ_self _
  submitted_nodup := by
    have hsub : (s.threads t).submitted = (s.threads t).i := by
      simp only [Submitter.submitted, hpc]
    exact List.Nodup.append h.submitted_nodup (List.nodup_singleton _)
      (List.disjoint_singleton.mpr (h.taskIdx_notMem hlt hsub))
  submitted_length := by
    have htotal := total_update Submitter.submitted s.threads t ⟨(s.threads t).i, .count⟩
    have hlen := h.submitted_length
    have hold : (s.threads t).submitted = (s.threads t).i := by
      simp only [Submitter.submitted, hpc]
    have hnew : Submitter.submitted ⟨(s.threads t).i, .count⟩ = (s.threads t).i + 1 := rfl
    rw [List.length_append, List.length_singleton]
    show s.submitted.length + 1 =
      total Submitter.submitted (Function.update s.threads t ⟨(s.threads t).i, .count⟩)
    omega
  completed_nodup := h.completed_nodup
  completed_subset := List.subset_append_of_subset_left _ h.completed_subset
  delivered_nodup := h.delivered_nodup
  delivered_subset := h.delivered_subset
  remaining_eq := by
    have htotal := total_update Submitter.counted s.threads t ⟨(s.threads t).i, .count⟩
    have heq := h.remaining_eq
    have hold : (s.threads t).counted = (s.threads t).i := by
      simp only [Submitter.counted, hpc]
    have hnew : Submitter.counted ⟨(s.threads t).i, .count⟩ = (s.threads t).i := rfl
    show s.objects.numRemainingTasks = (total Submitter.counted
      (Function.update s.threads t ⟨(s.threads t).i, .count⟩) : Int) - s.delivered.length
    omega

theorem complete_step (h : Control s) {objects : EcSampleObjects b} (hsub : j ∈ s.submitted)
    (hnew : j ∉ s.completed)
    (hrem : objects.numRemainingTasks = s.objects.numRemainingTasks) :
    Control { s with objects := objects, completed := s.completed ++ [j] } where
  ok := h.ok
  submitted_inv := h.submitted_inv
  submitted_nodup := h.submitted_nodup
  submitted_length := h.submitted_length
  completed_nodup := List.Nodup.append h.completed_nodup (List.nodup_singleton _)
    (List.disjoint_singleton.mpr hnew)
  completed_subset := List.append_subset.mpr
    ⟨h.completed_subset, List.cons_subset.mpr ⟨hsub, List.nil_subset _⟩⟩
  delivered_nodup := h.delivered_nodup
  delivered_subset := List.subset_append_of_subset_left _ h.delivered_subset
  remaining_eq := hrem.trans h.remaining_eq

theorem deliver_step (h : Control s) {objects : EcSampleObjects b} {main : MainPc}
    (hcompleted : j ∈ s.completed) (hnew : j ∉ s.delivered)
    (hrem : objects.numRemainingTasks = s.objects.numRemainingTasks - 1) :
    Control { s with objects := objects, delivered := s.delivered ++ [j], main := main } where
  ok := h.ok
  submitted_inv := h.submitted_inv
  submitted_nodup := h.submitted_nodup
  submitted_length := h.submitted_length
  completed_nodup := h.completed_nodup
  completed_subset := h.completed_subset
  delivered_nodup := List.Nodup.append h.delivered_nodup (List.nodup_singleton _)
    (List.disjoint_singleton.mpr hnew)
  delivered_subset := List.append_subset.mpr
    ⟨h.delivered_subset, List.cons_subset.mpr ⟨hcompleted, List.nil_subset _⟩⟩
  remaining_eq := by
    have heq := h.remaining_eq
    rw [List.length_append, List.length_singleton]
    show objects.numRemainingTasks =
      (total Submitter.counted s.threads : Int) - (s.delivered.length + 1 : Nat)
    omega

theorem main_step (h : Control s) (main : MainPc) : Control { s with main := main } where
  ok := h.ok
  submitted_inv := h.submitted_inv
  submitted_nodup := h.submitted_nodup
  submitted_length := h.submitted_length
  completed_nodup := h.completed_nodup
  completed_subset := h.completed_subset
  delivered_nodup := h.delivered_nodup
  delivered_subset := h.delivered_subset
  remaining_eq := h.remaining_eq

/-- Every step keeps `Control`. -/
theorem step {a : PipelineAction} (h : Control s)
    (hstep : EcDecode.step r srcSegs s a = some s') : Control s' := by
  cases a with
  | thread t =>
    obtain ⟨hlt, hcases⟩ := step_thread_inv hstep
    have hinside (pc : SubmitPc) : Submitter.Ok b ⟨(s.threads t).i, pc⟩ :=
      ⟨(h.ok t).i_le, fun heq => absurd heq (Nat.ne_of_lt hlt)⟩
    rcases hcases with ⟨hpc, objects, hcopy, rfl⟩ | ⟨hpc, rfl⟩ | ⟨hpc, rfl⟩ | ⟨hpc, rfl⟩
    · obtain ⟨srcBuffer, rfl, -⟩ := copySrcSeg_inv hcopy
      apply h.thread_step (hinside .submit)
      · simp only [Submitter.submitted, hpc]
      · simp only [Submitter.counted, hpc]
    · exact h.submit_step hlt hpc
    · apply h.thread_step (hinside .flag)
      · simp only [Submitter.submitted, hpc]
      · simp only [Submitter.counted, hpc, addRemaining]
        omega
    · apply h.thread_step (d := ⟨(s.threads t).i + 1, .copy⟩) ⟨hlt, fun _ => rfl⟩
      · simp only [Submitter.submitted, hpc]
      · simp only [Submitter.counted, hpc, raiseFlag]
  | complete j =>
    obtain ⟨hsub, hnew, objects, htask, rfl⟩ := step_complete_inv hstep
    obtain ⟨dstBuffer, rfl, -⟩ := recoverTask_inv htask
    exact h.complete_step hsub hnew rfl
  | deliver j =>
    obtain ⟨-, hcompleted, hnew, objects, hcopy, rfl⟩ := step_deliver_inv hstep
    obtain ⟨dstSegs, rfl, -⟩ := copyDstSeg_inv hcopy
    exact h.deliver_step hcompleted hnew rfl
  | idle =>
    obtain ⟨-, rfl⟩ := step_idle_inv hstep
    exact h.main_step .test
  | test =>
    obtain ⟨-, rfl⟩ := step_test_inv hstep
    exact h.main_step _
  | join =>
    obtain ⟨-, -, rfl⟩ := step_join_inv hstep
    exact h.main_step .joined

theorem of_run {objects : EcSampleObjects b} {as : List PipelineAction}
    (hrun : run (EcDecode.step r srcSegs) as (pipelineStart objects) = some s) : Control s :=
  run_inv Control (fun _ _ _ h hstep => h.step hstep) hrun (control_start objects)

/-- No copy leaves its buffers: a thread that has not returned can take its step, and
the device and the callback can take theirs. -/
theorem exists_step (h : Control s) :
    (∀ t, ¬ (s.threads t).Finished b → ∃ s', EcDecode.step r srcSegs s (.thread t) = some s') ∧
      (∀ j, j ∈ s.submitted → j ∉ s.completed →
        ∃ s', EcDecode.step r srcSegs s (.complete j) = some s') ∧
      ∀ j, s.main = .progress → j ∈ s.completed → j ∉ s.delivered →
        ∃ s', EcDecode.step r srcSegs s (.deliver j) = some s' := by
  have hbatch {j : Nat} (hj : j < SUBMIT_THREAD_NUM * threadBatch b) : j < b.batchSize :=
    Nat.lt_of_lt_of_le hj (threadBatch_le b)
  refine ⟨?_, ?_, ?_⟩
  · intro t hfin
    have hlt : (s.threads t).i < threadBatch b := Decidable.not_not.mp hfin
    simp only [EcDecode.step, submitThreadStep, if_pos hlt]
    cases hpc : (s.threads t).pc with
    | copy =>
      obtain ⟨objects, hcopy⟩ := exists_copySrcSeg srcSegs s.objects (hbatch (taskIdx_lt t hlt))
      exact ⟨_, by rw [hcopy, Option.map_some]⟩
    | submit => exact ⟨_, rfl⟩
    | count => exact ⟨_, rfl⟩
    | flag => exact ⟨_, rfl⟩
  · intro j hsub hnew
    obtain ⟨objects, htask⟩ := exists_recoverTask r s.objects (hbatch (h.lt_of_submitted hsub))
    exact ⟨_, by rw [EcDecode.step, if_pos ⟨hsub, hnew⟩, htask, Option.map_some]⟩
  · intro j hmain hcompleted hnew
    obtain ⟨objects, hcopy⟩ :=
      exists_copyDstSeg s.objects (hbatch (h.lt_of_submitted (h.completed_subset hcompleted)))
    exact ⟨_, by rw [EcDecode.step, if_pos ⟨hmain, hcompleted, hnew⟩,
      ecRecoverCompletedCallbackMemcpy, hcopy, Option.map_some, Option.map_some]⟩

end Control

/-! ## The buffers -/

/-- What every step keeps of the buffers. -/
structure Contents (r : EcRecover b) (srcSegs : Buffer UInt8 b.srcSize) (s : PipelineState b) :
    Prop where
  copied : ∀ t i, i < (s.threads t).copied →
    s.objects.srcBuffer.segment b.srcSizeSeg (taskIdx b t i) =
      srcSegs.segment b.srcSizeSeg (taskIdx b t i)
  completed : ∀ j ∈ s.completed,
    s.objects.dstBuffer.segment b.dstSizeSeg j = r.recover (srcSegs.segment b.srcSizeSeg j)
  delivered : ∀ j ∈ s.delivered,
    s.objects.dstSegs.segment b.dstSizeSeg j = r.recover (srcSegs.segment b.srcSizeSeg j)

theorem contents_start (r : EcRecover b) (srcSegs : Buffer UInt8 b.srcSize)
    (objects : EcSampleObjects b) : Contents r srcSegs (pipelineStart objects) where
  copied _ i hi := absurd hi (Nat.not_lt_zero i)
  completed _ hj := absurd hj List.not_mem_nil
  delivered _ hj := absurd hj List.not_mem_nil

namespace Contents

/-- A step of a thread that does not copy. -/
theorem thread_step (h : Contents r srcSegs s) {t : Fin SUBMIT_THREAD_NUM} {d : Submitter}
    {objects : EcSampleObjects b} {submitted : List Nat}
    (hcopied : d.copied ≤ (s.threads t).copied)
    (hsrc : objects.srcBuffer = s.objects.srcBuffer)
    (hdst : objects.dstBuffer = s.objects.dstBuffer)
    (hsegs : objects.dstSegs = s.objects.dstSegs) :
    Contents r srcSegs { s with
      objects := objects
      threads := Function.update s.threads t d
      submitted := submitted } where
  copied t' i hi := by
    rw [hsrc]
    apply h.copied
    by_cases ht : t' = t
    · rw [ht] at hi ⊢
      have hi' : i < (Function.update s.threads t d t).copied := hi
      rw [Function.update_self] at hi'
      omega
    · have hi' : i < (Function.update s.threads t d t').copied := hi
      rw [Function.update_of_ne ht] at hi'
      exact hi'
  completed := by
    rw [hdst]
    exact h.completed
  delivered := by
    rw [hsegs]
    exact h.delivered

/-- The step that copies a source segment. -/
theorem copy_step (h : Contents r srcSegs s) {t : Fin SUBMIT_THREAD_NUM}
    {objects : EcSampleObjects b} (hpc : (s.threads t).pc = .copy)
    (hcopy : copySrcSeg srcSegs (taskIdx b t (s.threads t).i) s.objects = some objects) :
    Contents r srcSegs { s with
      objects := objects
      threads := Function.update s.threads t ⟨(s.threads t).i, .submit⟩ } := by
  obtain ⟨srcBuffer, rfl, hself, hother⟩ := copySrcSeg_inv hcopy
  have hcopied : (s.threads t).copied = (s.threads t).i := by
    simp only [Submitter.copied, hpc]
  refine ⟨?_, h.completed, h.delivered⟩
  intro t' i hi
  show srcBuffer.segment _ _ = _
  by_cases heq : taskIdx b t' i = taskIdx b t (s.threads t).i
  · rw [heq, hself]
  · rw [hother _ heq]
    apply h.copied
    have hi' : i < (Function.update s.threads t ⟨(s.threads t).i, .submit⟩ t').copied := hi
    by_cases ht : t' = t
    · rw [ht, Function.update_self] at hi'
      rw [ht] at heq ⊢
      have hne : i ≠ (s.threads t).i := fun hi => heq (by rw [hi])
      have hi'' : i < (s.threads t).i + 1 := hi'
      omega
    · rw [Function.update_of_ne ht] at hi'
      exact hi'

/-- The step of the device that completes a task.  Its source segment was copied
before it was submitted. -/
theorem complete_step (hc : Control s) (h : Contents r srcSegs s) {objects : EcSampleObjects b}
    (hsub : j ∈ s.submitted) (htask : recoverTask r j s.objects = some objects) :
    Contents r srcSegs { s with objects := objects, completed := s.completed ++ [j] } := by
  obtain ⟨dstBuffer, rfl, hself, hother⟩ := recoverTask_inv htask
  refine ⟨h.copied, ?_, h.delivered⟩
  intro j' hj'
  show dstBuffer.segment _ _ = _
  by_cases heq : j' = j
  · obtain ⟨t, i, hi, hidx⟩ := hc.submitted_inv j hsub
    have hsrc := h.copied t i (Nat.lt_of_lt_of_le hi (Submitter.submitted_le_copied _))
    rw [heq, hself, hidx, hsrc]
  · rw [hother j' heq]
    apply h.completed
    rcases List.mem_append.mp hj' with hold | hnew
    · exact hold
    · exact absurd (List.mem_singleton.mp hnew) heq

/-- The step of a callback. -/
theorem deliver_step (h : Contents r srcSegs s) {objects : EcSampleObjects b} {main : MainPc}
    (hcompleted : j ∈ s.completed) (hcopy : copyDstSeg j s.objects = some objects) :
    Contents r srcSegs { s with
      objects := ecRecoverCompletedCallback objects
      delivered := s.delivered ++ [j]
      main := main } := by
  obtain ⟨dstSegs, rfl, hself, hother⟩ := copyDstSeg_inv hcopy
  refine ⟨h.copied, h.completed, ?_⟩
  intro j' hj'
  show dstSegs.segment _ _ = _
  by_cases heq : j' = j
  · rw [heq, hself]
    exact h.completed j hcompleted
  · rw [hother j' heq]
    apply h.delivered
    rcases List.mem_append.mp hj' with hold | hnew
    · exact hold
    · exact absurd (List.mem_singleton.mp hnew) heq

/-- Every step keeps `Contents`. -/
theorem step {a : PipelineAction} (hc : Control s) (h : Contents r srcSegs s)
    (hstep : EcDecode.step r srcSegs s a = some s') : Contents r srcSegs s' := by
  cases a with
  | thread t =>
    obtain ⟨hlt, hcases⟩ := step_thread_inv hstep
    rcases hcases with ⟨hpc, objects, hcopy, rfl⟩ | ⟨hpc, rfl⟩ | ⟨hpc, rfl⟩ | ⟨hpc, rfl⟩
    · exact h.copy_step hpc hcopy
    · refine h.thread_step ?_ rfl rfl rfl
      simp only [Submitter.copied, hpc, Nat.le_refl]
    · refine h.thread_step ?_ rfl rfl rfl
      simp only [Submitter.copied, hpc, Nat.le_refl]
    · refine h.thread_step ?_ rfl rfl rfl
      simp only [Submitter.copied, hpc, Nat.le_refl]
  | complete j =>
    obtain ⟨hsub, -, objects, htask, rfl⟩ := step_complete_inv hstep
    exact h.complete_step hc hsub htask
  | deliver j =>
    obtain ⟨-, hcompleted, -, objects, hcopy, rfl⟩ := step_deliver_inv hstep
    exact h.deliver_step hcompleted hcopy
  | idle =>
    obtain ⟨-, rfl⟩ := step_idle_inv hstep
    exact ⟨h.copied, h.completed, h.delivered⟩
  | test =>
    obtain ⟨-, rfl⟩ := step_test_inv hstep
    exact ⟨h.copied, h.completed, h.delivered⟩
  | join =>
    obtain ⟨-, -, rfl⟩ := step_join_inv hstep
    exact ⟨h.copied, h.completed, h.delivered⟩

theorem of_run {objects : EcSampleObjects b} {as : List PipelineAction}
    (hrun : run (EcDecode.step r srcSegs) as (pipelineStart objects) = some s) :
    Contents r srcSegs s := by
  have hboth : Control s ∧ Contents r srcSegs s := by
    apply run_inv (fun s => Control s ∧ Contents r srcSegs s) _ hrun
      ⟨control_start objects, contents_start r srcSegs objects⟩
    intro s a s' h hstep
    exact ⟨h.1.step hstep, h.2.step h.1 hstep⟩
  exact hboth.2

end Contents

end

end DpuTest.EcDecode
