import DpuTest.EcDecode.Pipeline

/-!
# When the polling loop ends

The polling loop of the pipelined branch reads a flag and a counter that three
threads write, and each callback may run before the increment and the store that
belong to its own submit.  So the loop can end too early and it can fail to end.

* `pipeline_sameAsNaive`: a run in which the loop is left only after both threads
  have counted all their tasks leaves the blocks that the `Naive` branch leaves.
  `not_refinesNaive_two` is a run that leaves it before the second thread starts.
* `loopCondition_iff_of_quiet`: once all is done, the loop ends exactly if there
  was a task at all and the last callback did not run until both threads had
  returned.  `not_stuckFree_two` is a run that polls forever.
-/

namespace DpuTest.EcDecode

open Lib

section

variable {b : DecodeShape} {r : EcRecover b} {srcSegs : Buffer UInt8 b.srcSize}
  {s s' : PipelineState b}

/-! ## Leaving the loop -/

/-- Both threads have counted all their tasks when the loop is left. -/
def LeavesLate (s : PipelineState b) (a : PipelineAction) : Prop :=
  a = .test → s.objects.loopCondition = false → ∀ t, (s.threads t).counted = threadBatch b

instance (s : PipelineState b) (a : PipelineAction) : Decidable (LeavesLate s a) :=
  inferInstanceAs (Decidable (_ → _ → _))

/-- Without tasks the flag stays up. -/
def Armed (s : PipelineState b) : Prop :=
  threadBatch b = 0 → s.objects.runPeProgress = true

theorem Armed.step {a : PipelineAction} (hc : Control s) (h : Armed s)
    (hstep : EcDecode.step r srcSegs s a = some s') : Armed s' := by
  intro h0
  cases a with
  | thread t =>
    obtain ⟨hlt, -⟩ := step_thread_inv hstep
    rw [h0] at hlt
    exact absurd hlt (Nat.not_lt_zero _)
  | complete j =>
    obtain ⟨hsub, -⟩ := step_complete_inv hstep
    have hlt := hc.lt_of_submitted hsub
    rw [h0] at hlt
    exact absurd hlt (Nat.not_lt_zero _)
  | deliver j =>
    obtain ⟨-, hcompleted, -⟩ := step_deliver_inv hstep
    have hlt := hc.lt_of_submitted (hc.completed_subset hcompleted)
    rw [h0] at hlt
    exact absurd hlt (Nat.not_lt_zero _)
  | idle =>
    obtain ⟨-, rfl⟩ := step_idle_inv hstep
    exact h h0
  | test =>
    obtain ⟨-, rfl⟩ := step_test_inv hstep
    exact h h0
  | join =>
    obtain ⟨-, -, rfl⟩ := step_join_inv hstep
    exact h h0

/-- The loop is left only with tasks, and after the callbacks of all of them. -/
def LeftLate (s : PipelineState b) : Prop :=
  s.main = .joining ∨ s.main = .joined →
    threadBatch b ≠ 0 ∧ ∀ j, j < SUBMIT_THREAD_NUM * threadBatch b → j ∈ s.delivered

theorem leftLate_of_polling (h : s.main = .test ∨ s.main = .progress) : LeftLate s := by
  rintro (hmain | hmain)
  all_goals
    rcases h with hpoll | hpoll
    all_goals
      rw [hmain] at hpoll
      cases hpoll

theorem LeftLate.step {a : PipelineAction} (hc : Control s) (harmed : Armed s) (h : LeftLate s)
    (hguard : LeavesLate s a) (hstep : EcDecode.step r srcSegs s a = some s') : LeftLate s' := by
  cases a with
  | thread t =>
    obtain ⟨-, hcases⟩ := step_thread_inv hstep
    rcases hcases with ⟨-, objects, hcopy, rfl⟩ | ⟨-, rfl⟩ | ⟨-, rfl⟩ | ⟨-, rfl⟩
    all_goals exact h
  | complete j =>
    obtain ⟨-, -, objects, -, rfl⟩ := step_complete_inv hstep
    exact h
  | deliver j =>
    obtain ⟨-, -, -, objects, -, rfl⟩ := step_deliver_inv hstep
    exact leftLate_of_polling (Or.inl rfl)
  | idle =>
    obtain ⟨-, rfl⟩ := step_idle_inv hstep
    exact leftLate_of_polling (Or.inl rfl)
  | test =>
    obtain ⟨-, rfl⟩ := step_test_inv hstep
    cases hcond : s.objects.loopCondition with
    | true => exact leftLate_of_polling (Or.inr rfl)
    | false =>
      have hcounted := hguard rfl hcond
      simp only [EcSampleObjects.loopCondition, Bool.or_eq_false_iff, decide_eq_false_iff_not]
        at hcond
      intro _
      refine ⟨?_, ?_⟩
      · intro h0
        have hup := harmed h0
        rw [hcond.1] at hup
        cases hup
      · -- the counter is the number of tasks less the number of callbacks
        intro j hj
        have hrem := hc.remaining_eq
        rw [total, hcounted 0, hcounted 1] at hrem
        have htwo : SUBMIT_THREAD_NUM * threadBatch b = 2 * threadBatch b := rfl
        apply hc.mem_delivered _ hj
        omega
  | join =>
    obtain ⟨hmain, -, rfl⟩ := step_join_inv hstep
    exact fun _ => h (Or.inl hmain)

/-- The branch has left the blocks of every stripe, as the `Naive` branch does. -/
def SameAsNaive (r : EcRecover b) (srcSegs : Buffer UInt8 b.srcSize) (s : EcSampleObjects b) :
    Prop :=
  Recovered r srcSegs b.batchSize s ∧
    ∀ objects : EcSampleObjects b, ∃ t, naiveDecode r srcSegs objects = some t ∧
      ∀ j, j < b.batchSize →
        s.dstSegs.segment b.dstSizeSeg j = t.dstSegs.segment b.dstSizeSeg j

theorem Recovered.sameAsNaive {objects : EcSampleObjects b}
    (h : Recovered r srcSegs b.batchSize objects) : SameAsNaive r srcSegs objects := by
  refine ⟨h, ?_⟩
  intro objects'
  obtain ⟨t, hrun, ht⟩ := naiveDecode_spec r srcSegs objects'
  refine ⟨t, hrun, ?_⟩
  intro j hj
  rw [h j hj, ht j hj]

/-- A run that leaves the loop late recovers every stripe of an even batch; with a
batch of one it does not leave the loop at all. -/
theorem pipeline_sameAsNaive (hbatch : b.batchSize % SUBMIT_THREAD_NUM = 0 ∨ b.batchSize = 1)
    (objects : EcSampleObjects b) {as : List PipelineAction}
    (hrun : run (step r srcSegs) as (pipelineStart objects) = some s)
    (hguard : Guarded (step r srcSegs) LeavesLate as (pipelineStart objects))
    (hjoined : s.main = .joined) : SameAsNaive r srcSegs s.objects := by
  have hinv : Control s ∧ Armed s ∧ LeftLate s := by
    apply run_inv_of_guarded (fun s => Control s ∧ Armed s ∧ LeftLate s) _ hrun hguard
      ⟨control_start objects, fun _ => rfl, leftLate_of_polling (Or.inl rfl)⟩
    intro s a s' h hP hstep
    exact ⟨h.1.step hstep, h.2.1.step h.1 hstep, h.2.2.step h.1 h.2.1 hP hstep⟩
  obtain ⟨hne, hdelivered⟩ := hinv.2.2 (Or.inr hjoined)
  apply Recovered.sameAsNaive
  intro j hj
  apply (Contents.of_run hrun).delivered
  apply hdelivered
  rcases hbatch with heven | hone
  · rw [threadBatch, Nat.mul_div_cancel' (Nat.dvd_of_mod_eq_zero heven)]
    exact hj
  · refine absurd ?_ hne
    rw [threadBatch, hone]
    rfl

/-- Every interleaving that leaves the branch leaves what `Naive` leaves. -/
def RefinesNaive (r : EcRecover b) (srcSegs : Buffer UInt8 b.srcSize)
    (objects : EcSampleObjects b) : Prop :=
  ∀ as s, run (step r srcSegs) as (pipelineStart objects) = some s → s.main = .joined →
    SameAsNaive r srcSegs s.objects

end

/-- Two stripes of one data block and one parity block of a byte. -/
def twoStripes : DecodeShape where
  k := 1
  m := 1
  erasuresCount := 1
  blockSize := 1
  batchSize := 2
  erasures_le := by decide
  batchSize_pos := by decide

/-- With one data block the parity block is a copy of it. -/
def copyRecover : EcRecover twoStripes where
  recover seg := [seg.headD 0]
  length_recover _ := rfl

def twoSegs : Buffer UInt8 twoStripes.srcSize := ⟨[5, 7], rfl⟩

def twoObjects : EcSampleObjects twoStripes where
  srcBuffer := .zeroed _
  dstBuffer := .zeroed _
  dstSegs := .zeroed _
  runPeProgress := false
  numRemainingTasks := 0

/-- The four steps of a submit thread for one task. -/
def submitSteps (t : Fin SUBMIT_THREAD_NUM) : List PipelineAction :=
  [.thread t, .thread t, .thread t, .thread t]

/-- Both threads submit before the main thread polls. -/
def lateRun : List PipelineAction :=
  submitSteps firstThread ++ submitSteps secondThread ++
    [.complete 0, .complete 1, .test, .deliver 0, .test, .deliver 1, .test, .join]

theorem pipeline_sameAsNaive_late :
    ∃ s, run (step copyRecover twoSegs) lateRun (pipelineStart twoObjects) = some s ∧
      SameAsNaive copyRecover twoSegs s.objects := by
  obtain ⟨s, hrun, hjoined⟩ : ∃ s,
      run (step copyRecover twoSegs) lateRun (pipelineStart twoObjects) = some s ∧
        s.main = .joined := ⟨_, rfl, rfl⟩
  exact ⟨s, hrun, pipeline_sameAsNaive (Or.inl rfl) twoObjects hrun (by decide) hjoined⟩

/-- The first callback finds the counter at one and drops the flag before the second
thread has started. -/
def earlyRun : List PipelineAction :=
  submitSteps firstThread ++ [.complete 0, .test, .deliver 0, .test] ++
    submitSteps secondThread ++ [.join]

theorem not_refinesNaive_two : ¬ RefinesNaive copyRecover twoSegs twoObjects := by
  obtain ⟨s, hrun, hjoined, hseg⟩ : ∃ s,
      run (step copyRecover twoSegs) earlyRun (pipelineStart twoObjects) = some s ∧
        s.main = .joined ∧ s.objects.dstSegs.segment twoStripes.dstSizeSeg 1 = [0] :=
    ⟨_, rfl, rfl, rfl⟩
  intro h
  have hrec := (h earlyRun s hrun hjoined).1 1 (by decide)
  rw [hseg] at hrec
  exact absurd hrec (by decide)

/-! ## Staying in the loop -/

section

variable {b : DecodeShape} {r : EcRecover b} {srcSegs : Buffer UInt8 b.srcSize}
  {s s' : PipelineState b}

/-- Both threads have returned, every callback has run, and the main thread is about
to evaluate the loop condition. -/
structure Quiet (s : PipelineState b) : Prop where
  main_eq : s.main = .test
  finished : ∀ t, (s.threads t).Finished b
  delivered : s.submitted ⊆ s.delivered

/-- The callback of the last task runs after both threads have returned. -/
def DeliversLastLate (s : PipelineState b) : PipelineAction → Prop
  | .deliver _ => s.delivered.length + 1 = SUBMIT_THREAD_NUM * threadBatch b →
      ∀ t, (s.threads t).Finished b
  | _ => True

instance (s : PipelineState b) : (a : PipelineAction) → Decidable (DeliversLastLate s a)
  | .deliver _ => inferInstanceAs (Decidable (_ → _))
  | .thread _ | .complete _ | .idle | .test | .join => .isTrue trivial

/-- All callbacks have run. -/
def AllDelivered (s : PipelineState b) : Prop :=
  s.delivered.length = SUBMIT_THREAD_NUM * threadBatch b

/-- The counter when both threads have returned. -/
theorem Control.remaining_of_finished (h : Control s) (hfin : ∀ t, (s.threads t).Finished b) :
    s.objects.numRemainingTasks =
      ((SUBMIT_THREAD_NUM * threadBatch b : Nat) : Int) - s.delivered.length := by
  have hrem := h.remaining_eq
  have htwo : SUBMIT_THREAD_NUM * threadBatch b = 2 * threadBatch b := rfl
  rw [total, ((h.ok 0).of_finished (hfin 0)).2, ((h.ok 1).of_finished (hfin 1)).2] at hrem
  omega

theorem Quiet.allDelivered (h : Quiet s) (hc : Control s) : AllDelivered s := by
  have hlen := hc.submitted_length
  have htwo : SUBMIT_THREAD_NUM * threadBatch b = 2 * threadBatch b := rfl
  rw [total, ((hc.ok 0).of_finished (h.finished 0)).1,
    ((hc.ok 1).of_finished (h.finished 1)).1] at hlen
  have hle := (List.subperm_of_subset hc.submitted_nodup h.delivered).length_le
  have hge := hc.delivered_length_le
  unfold AllDelivered
  omega

/-- In a quiet state the counter is zero, so the flag decides. -/
theorem Quiet.loopCondition_eq (h : Quiet s) (hc : Control s) :
    s.objects.loopCondition = s.objects.runPeProgress := by
  have hrem := hc.remaining_of_finished h.finished
  have hall : s.delivered.length = SUBMIT_THREAD_NUM * threadBatch b := h.allDelivered hc
  have hzero : ¬ 0 < s.objects.numRemainingTasks := by
    rw [hrem, hall]
    omega
  simp only [EcSampleObjects.loopCondition, hzero, decide_false, Bool.or_false]

/-- No callback runs after the last one. -/
theorem Control.no_deliver (h : Control s) (hall : AllDelivered s) {j : Nat}
    (hcompleted : j ∈ s.completed) (hnew : j ∉ s.delivered) : False :=
  hnew (h.mem_delivered (Nat.le_of_eq hall.symm) (h.lt_of_submitted (h.completed_subset hcompleted)))

/-- The flag is up, or a thread is still going to raise it. -/
def WillBeUp (s : PipelineState b) : Prop :=
  AllDelivered s ∧ (s.objects.runPeProgress = true ∨ ∃ t, (s.threads t).i < threadBatch b)

theorem WillBeUp.step {a : PipelineAction} (hc : Control s) (h : WillBeUp s)
    (hstep : EcDecode.step r srcSegs s a = some s') : WillBeUp s' := by
  obtain ⟨hall, hup⟩ := h
  cases a with
  | thread t =>
    obtain ⟨hlt, hcases⟩ := step_thread_inv hstep
    -- until its last store the thread stays in the same pass
    have hsame (pc : SubmitPc) : ∃ t', (Function.update s.threads t ⟨(s.threads t).i, pc⟩ t').i <
        threadBatch b := by
      refine ⟨t, ?_⟩
      rw [Function.update_self]
      exact hlt
    rcases hcases with ⟨-, objects, hcopy, rfl⟩ | ⟨-, rfl⟩ | ⟨-, rfl⟩ | ⟨-, rfl⟩
    · exact ⟨hall, Or.inr (hsame .submit)⟩
    · exact ⟨hall, Or.inr (hsame .count)⟩
    · exact ⟨hall, Or.inr (hsame .flag)⟩
    · exact ⟨hall, Or.inl rfl⟩
  | complete j =>
    obtain ⟨-, -, objects, htask, rfl⟩ := step_complete_inv hstep
    obtain ⟨dstBuffer, rfl, -⟩ := recoverTask_inv htask
    exact ⟨hall, hup⟩
  | deliver j =>
    obtain ⟨-, hcompleted, hnew, -⟩ := step_deliver_inv hstep
    exact absurd (hc.no_deliver hall hcompleted hnew) not_false
  | idle =>
    obtain ⟨-, rfl⟩ := step_idle_inv hstep
    exact ⟨hall, hup⟩
  | test =>
    obtain ⟨-, rfl⟩ := step_test_inv hstep
    exact ⟨hall, hup⟩
  | join =>
    obtain ⟨-, -, rfl⟩ := step_join_inv hstep
    exact ⟨hall, hup⟩

/-- Once all callbacks have run, the threads have returned and the flag is down. -/
def DownAtEnd (s : PipelineState b) : Prop :=
  AllDelivered s → (∀ t, (s.threads t).Finished b) ∧ s.objects.runPeProgress = false

theorem DownAtEnd.step {a : PipelineAction} (hc : Control s) (h : DownAtEnd s)
    (hguard : DeliversLastLate s a) (hstep : EcDecode.step r srcSegs s a = some s') :
    DownAtEnd s' := by
  cases a with
  | thread t =>
    obtain ⟨hlt, hcases⟩ := step_thread_inv hstep
    have hnot : ¬ AllDelivered s := fun hall => (h hall).1 t hlt
    rcases hcases with ⟨-, objects, hcopy, rfl⟩ | ⟨-, rfl⟩ | ⟨-, rfl⟩ | ⟨-, rfl⟩
    all_goals exact fun hall => absurd hall hnot
  | complete j =>
    obtain ⟨-, -, objects, htask, rfl⟩ := step_complete_inv hstep
    obtain ⟨dstBuffer, rfl, -⟩ := recoverTask_inv htask
    exact h
  | deliver j =>
    obtain ⟨-, -, -, objects, hcopy, rfl⟩ := step_deliver_inv hstep
    obtain ⟨dstSegs, rfl, -⟩ := copyDstSeg_inv hcopy
    intro hall
    have hlen : s.delivered.length + 1 = SUBMIT_THREAD_NUM * threadBatch b := by
      have hall' : (s.delivered ++ [j]).length = SUBMIT_THREAD_NUM * threadBatch b := hall
      rw [List.length_append, List.length_singleton] at hall'
      exact hall'
    have hfin := hguard hlen
    have hrem := hc.remaining_of_finished hfin
    have hone : s.objects.numRemainingTasks - 1 = 0 := by omega
    refine ⟨hfin, ?_⟩
    simp only [ecRecoverCompletedCallback, hone, if_true]
  | idle =>
    obtain ⟨-, rfl⟩ := step_idle_inv hstep
    exact h
  | test =>
    obtain ⟨-, rfl⟩ := step_test_inv hstep
    exact h
  | join =>
    obtain ⟨-, -, rfl⟩ := step_join_inv hstep
    exact h

theorem Armed.of_run {objects : EcSampleObjects b} {as : List PipelineAction}
    (hrun : run (EcDecode.step r srcSegs) as (pipelineStart objects) = some s) : Armed s := by
  have hboth : Control s ∧ Armed s := by
    apply run_inv (fun s => Control s ∧ Armed s) _ hrun ⟨control_start objects, fun _ => rfl⟩
    intro s a s' h hstep
    exact ⟨h.1.step hstep, h.2.step h.1 hstep⟩
  exact hboth.2

/-- A step that breaks the guard runs the last callback too early. -/
theorem willBeUp_of_not_guard {a : PipelineAction} (hguard : ¬ DeliversLastLate s a)
    (hstep : step r srcSegs s a = some s') : WillBeUp s' := by
  cases a with
  | deliver j =>
    obtain ⟨-, -, -, objects, -, rfl⟩ := step_deliver_inv hstep
    simp only [DeliversLastLate, Classical.not_imp, not_forall] at hguard
    obtain ⟨hlen, t, hfin⟩ := hguard
    refine ⟨?_, Or.inr ⟨t, Decidable.not_not.mp hfin⟩⟩
    show (s.delivered ++ [j]).length = _
    rw [List.length_append, List.length_singleton]
    exact hlen
  | thread t => exact absurd trivial hguard
  | complete j => exact absurd trivial hguard
  | idle => exact absurd trivial hguard
  | test => exact absurd trivial hguard
  | join => exact absurd trivial hguard

/-- A run that has come to rest leaves the loop exactly if there was a task for each
thread and the last callback waited for both threads. -/
theorem loopCondition_iff_of_quiet (objects : EcSampleObjects b) {as : List PipelineAction}
    (hrun : run (step r srcSegs) as (pipelineStart objects) = some s) (hquiet : Quiet s) :
    s.objects.loopCondition = false ↔
      2 ≤ b.batchSize ∧
        Guarded (step r srcSegs) DeliversLastLate as (pipelineStart objects) := by
  have hc := Control.of_run hrun
  rw [hquiet.loopCondition_eq hc]
  constructor
  · intro hdown
    have hne : threadBatch b ≠ 0 := by
      intro h0
      rw [Armed.of_run hrun h0] at hdown
      cases hdown
    refine ⟨?_, ?_⟩
    · by_cases hle : 2 ≤ b.batchSize
      · exact hle
      · exact absurd (Nat.div_eq_of_lt (Nat.lt_of_not_le hle)) hne
    · apply Classical.byContradiction
      intro hguard
      obtain ⟨before, a, after, u, u', -, hbefore, hbreak, hone, hafter⟩ :=
        exists_step_of_not_guarded hrun hguard
      have hu := (Control.of_run hbefore).step hone
      have hup : Control s ∧ WillBeUp s := by
        apply run_inv (fun s => Control s ∧ WillBeUp s) _ hafter
          ⟨hu, willBeUp_of_not_guard hbreak hone⟩
        intro s a s' h hstep
        exact ⟨h.1.step hstep, h.2.step h.1 hstep⟩
      rcases hup.2.2 with hflag | ⟨t, hlt⟩
      · rw [hdown] at hflag
        cases hflag
      · exact hquiet.finished t hlt
  · rintro ⟨hle, hguard⟩
    have hpos : 0 < threadBatch b := Nat.div_pos hle (by decide)
    have hstart : DownAtEnd (pipelineStart objects) := by
      intro hall
      have hzero : 0 = SUBMIT_THREAD_NUM * threadBatch b := hall
      have htwo : SUBMIT_THREAD_NUM * threadBatch b = 2 * threadBatch b := rfl
      omega
    have hinv : Control s ∧ DownAtEnd s := by
      apply run_inv_of_guarded (fun s => Control s ∧ DownAtEnd s) _ hrun hguard
        ⟨control_start objects, hstart⟩
      intro s a s' h hP hstep
      exact ⟨h.1.step hstep, h.2.step h.1 hP hstep⟩
    exact (hinv.2 (hquiet.allDelivered hc)).2

/-- No interleaving comes to rest with the main thread still polling. -/
def StuckFree (r : EcRecover b) (srcSegs : Buffer UInt8 b.srcSize)
    (objects : EcSampleObjects b) : Prop :=
  ∀ as s, run (step r srcSegs) as (pipelineStart objects) = some s → Quiet s →
    s.objects.loopCondition = false

end

theorem quiet_of_twoStripes {s : PipelineState twoStripes} (hmain : s.main = .test)
    (h0 : s.threads 0 = ⟨1, .copy⟩) (h1 : s.threads 1 = ⟨1, .copy⟩)
    (hsub : s.submitted = [0, 1]) (hdel : s.delivered = [0, 1]) : Quiet s where
  main_eq := hmain
  finished := by
    rw [Fin.forall_fin_two, h0, h1]
    decide
  delivered := by
    rw [hsub, hdel]
    exact List.Subset.refl _

theorem loopCondition_iff_of_quiet_late :
    ∃ s, run (step copyRecover twoSegs) lateRun.dropLast.dropLast (pipelineStart twoObjects) =
        some s ∧ s.objects.loopCondition = false := by
  obtain ⟨s, hrun, hmain, h0, h1, hsub, hdel⟩ : ∃ s,
      run (step copyRecover twoSegs) lateRun.dropLast.dropLast (pipelineStart twoObjects) =
          some s ∧ s.main = .test ∧ s.threads 0 = ⟨1, .copy⟩ ∧ s.threads 1 = ⟨1, .copy⟩ ∧
        s.submitted = [0, 1] ∧ s.delivered = [0, 1] := ⟨_, rfl, rfl, rfl, rfl, rfl, rfl⟩
  have hquiet := quiet_of_twoStripes hmain h0 h1 hsub hdel
  exact ⟨s, hrun, (loopCondition_iff_of_quiet twoObjects hrun hquiet).mpr
    ⟨by decide, by decide⟩⟩

/-- The last callback drops the flag before the second thread raises it once more. -/
def stuckRun : List PipelineAction :=
  submitSteps firstThread ++ (submitSteps secondThread).dropLast ++
    [.complete 0, .complete 1, .test, .deliver 0, .test, .deliver 1, .thread secondThread]

theorem not_stuckFree_two : ¬ StuckFree copyRecover twoSegs twoObjects := by
  obtain ⟨s, hrun, hmain, h0, h1, hsub, hdel, hup⟩ : ∃ s,
      run (step copyRecover twoSegs) stuckRun (pipelineStart twoObjects) = some s ∧
        s.main = .test ∧ s.threads 0 = ⟨1, .copy⟩ ∧ s.threads 1 = ⟨1, .copy⟩ ∧
        s.submitted = [0, 1] ∧ s.delivered = [0, 1] ∧ s.objects.loopCondition = true :=
    ⟨_, rfl, rfl, rfl, rfl, rfl, rfl, rfl⟩
  intro h
  have hdown := h stuckRun s hrun (quiet_of_twoStripes hmain h0 h1 hsub hdel)
  rw [hup] at hdown
  cases hdown

end DpuTest.EcDecode
