import DpuTest.Lib.Loop

/-!
# Completion latches and poll loops

A program hands tasks to a device and then calls the device's progress function
until a flag falls.  Each call may run the handler of one event.  The handlers
count a `Latch` down, and the one that brings it to zero drops the flag.

`pollLoop` is the loop against the list of events that the device will deliver.
A call that finds no event changes nothing, so the loop that still runs when
the list is used up runs forever, and `pollLoop` is `none`;
`pollLoop_eq_some_iff` says this about the loop itself.

A latch that is armed with the number of events falls with the last of them
(`pollLoop_of_latch`).  A latch that is armed with more does not fall, and
neither does one that is armed with zero, because the counter wraps
(`pollLoop_eq_none`).
-/

namespace DpuTest.Lib

variable {σ ε : Type}

/-! ## Poll loops -/

/-- `while (running) progress();` -/
def pollLoop (running : σ → Bool) (handle : ε → σ → σ) : List ε → σ → Option σ
  | [], s => if running s then none else some s
  | e :: es, s => if running s then pollLoop running handle es (handle e s) else some s

/-- One call of the progress function, on the events to come and the state. -/
def progress (handle : ε → σ → σ) : List ε × σ → List ε × σ
  | ([], s) => ([], s)
  | (e :: es, s) => (es, handle e s)

variable {running : σ → Bool} {handle : ε → σ → σ}

theorem pollLoop_of_stopped {s : σ} (es : List ε) (h : running s = false) :
    pollLoop running handle es s = some s := by
  cases es <;> simp [pollLoop, h]

theorem pollLoop_cons {e : ε} {es : List ε} {s : σ} (h : running s = true) :
    pollLoop running handle (e :: es) s = pollLoop running handle es (handle e s) := by
  simp [pollLoop, h]

/-- The while loop over `progress`. -/
def PollEnds (running : σ → Bool) (handle : ε → σ → σ) : List ε × σ → List ε × σ → Prop :=
  LoopEnds (fun p => running p.2) (fun p => some (progress handle p))

theorem pollEnds_of_stopped {es : List ε} {s : σ} {p : List ε × σ} (h : running s = false) :
    PollEnds running handle (es, s) p ↔ p = (es, s) := by
  have hcond : (fun q : List ε × σ => running q.2) (es, s) = false := h
  exact loopEnds_of_false hcond

theorem pollEnds_cons {e : ε} {es : List ε} {s : σ} {p : List ε × σ} (h : running s = true) :
    PollEnds running handle (e :: es, s) p ↔ PollEnds running handle (es, handle e s) p := by
  have hcond : (fun q : List ε × σ => running q.2) (e :: es, s) = true := h
  exact loopEnds_of_true hcond rfl

/-- With nothing to come and the flag up, the loop does not end. -/
theorem not_pollEnds_nil {s : σ} (h : running s = true) (p : List ε × σ) :
    ¬ PollEnds running handle ([], s) p := by
  have hcond : ∀ q : List ε × σ, q = ([], s) → running q.2 = true := by
    intro q hq
    rw [hq]
    exact h
  refine not_loopEnds hcond ?_ rfl p
  intro q q' hq hbody
  rw [← Option.some.inj hbody, hq]
  rfl

/-- `pollLoop` is the state that the loop leaves. -/
theorem pollLoop_eq_some_iff {es : List ε} {s t : σ} :
    pollLoop running handle es s = some t ↔
      ∃ es', PollEnds running handle (es, s) (es', t) := by
  induction es generalizing s with
  | nil =>
    cases h : running s with
    | false => simp [pollLoop_of_stopped [] h, pollEnds_of_stopped h, eq_comm]
    | true =>
      simp only [pollLoop, h, if_true, reduceCtorEq, false_iff, not_exists]
      exact fun es' => not_pollEnds_nil h _
  | cons e es ih =>
    cases h : running s with
    | false => simp [pollLoop_of_stopped (e :: es) h, pollEnds_of_stopped h, eq_comm]
    | true => simp only [pollLoop_cons h, ih, pollEnds_cons h]

/-! ## Latches -/

/-- A counter of outstanding tasks and the flag of the loop that waits. -/
structure Latch where
  remaining : UInt64
  running : Bool
  deriving DecidableEq

/-- The latch before the wait. -/
def Latch.arm (count : UInt64) : Latch where
  remaining := count
  running := true

/-- `--remaining; if (remaining == 0) running = false;` -/
def Latch.countDown (l : Latch) : Latch where
  remaining := l.remaining - 1
  running := if l.remaining - 1 = 0 then false else l.running

/-- The last count. -/
theorem Latch.countDown_of_one {l : Latch} (h : l.remaining = 1) :
    l.countDown = { remaining := 0, running := false } := by
  simp [countDown, h]

theorem toNat_sub_one {n : UInt64} (h : n ≠ 0) : (n - 1).toNat = n.toNat - 1 := by
  have hpos : 1 ≤ n.toNat := by
    have : n.toNat ≠ 0 := fun h0 => h (UInt64.toNat_inj.mp h0)
    omega
  exact UInt64.toNat_sub_of_le _ _ (UInt64.le_iff_toNat_le.mpr hpos)

variable (latch : σ → Latch)

/-- A latch armed with the number of events falls with the last one. -/
theorem pollLoop_of_latch (hhandle : ∀ e s, latch (handle e s) = (latch s).countDown)
    {es : List ε} {s : σ} (hne : es ≠ []) (hrem : (latch s).remaining.toNat = es.length)
    (hrun : (latch s).running = true) :
    pollLoop (fun s => (latch s).running) handle es s =
      some (es.foldl (fun s e => handle e s) s) := by
  induction es generalizing s with
  | nil => exact absurd rfl hne
  | cons e es ih =>
    rw [pollLoop_cons (by exact hrun), List.foldl_cons]
    rw [List.length_cons] at hrem
    have hnz : (latch s).remaining ≠ 0 := by
      intro h0
      rw [h0] at hrem
      exact absurd hrem (by simp)
    have hsub := toNat_sub_one hnz
    by_cases hes : es = []
    · subst hes
      have hone : (latch s).remaining = 1 := UInt64.toNat_inj.mp hrem
      rw [pollLoop_of_stopped]
      · rfl
      · rw [hhandle, Latch.countDown_of_one hone]
    · have hlen : 0 < es.length := List.length_pos_iff.mpr hes
      have hnz' : (latch s).remaining - 1 ≠ 0 := by
        intro h0
        rw [h0] at hsub
        simp at hsub
        omega
      refine ih hes ?_ ?_
      · rw [hhandle]
        show ((latch s).remaining - 1).toNat = es.length
        omega
      · rw [hhandle]
        show (if (latch s).remaining - 1 = 0 then false else (latch s).running) = true
        rw [if_neg hnz', hrun]

/-- A latch that needs more events than there are does not fall.  Armed with
zero it needs `2 ^ 64`. -/
theorem pollLoop_eq_none (hhandle : ∀ e s, latch (handle e s) = (latch s).countDown)
    {es : List ε} {s : σ} (hrem : es.length ≤ ((latch s).remaining - 1).toNat)
    (hrun : (latch s).running = true) :
    pollLoop (fun s => (latch s).running) handle es s = none := by
  induction es generalizing s with
  | nil => simp [pollLoop, hrun]
  | cons e es ih =>
    rw [pollLoop_cons (by exact hrun)]
    rw [List.length_cons] at hrem
    have hnz : (latch s).remaining - 1 ≠ 0 := by
      intro h0
      rw [h0] at hrem
      simp at hrem
    have hsub := toNat_sub_one hnz
    refine ih ?_ ?_
    · rw [hhandle]
      show es.length ≤ ((latch s).remaining - 1 - 1).toNat
      omega
    · rw [hhandle]
      show (if (latch s).remaining - 1 = 0 then false else (latch s).running) = true
      rw [if_neg hnz, hrun]

end DpuTest.Lib
