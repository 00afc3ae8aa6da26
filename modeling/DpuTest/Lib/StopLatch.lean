import DpuTest.Lib.Latch
import DpuTest.Lib.Run

/-!
# Latches with two ways down

The handler of a failed task does not drop the flag of a `Latch`.  When it is
the last one it asks for the context to be stopped, and the handler of the stop
drops the flag.  `stopPending` says that the stop has been asked for and has not
come.

`StopLatch.Waits l left` is the invariant: `left` tasks are out, the flag is up
and no stop is asked for while there are any, and at zero the flag is down
unless a stop is pending.  Each handler has its step lemma, `Waits.completed`,
`Waits.failed` and `Waits.idle`, and `Handles.waits` puts them together for a
system that keeps the list of its tasks.

`progressLoop` is the wait where a call of the progress function may run any
number of handlers.  It ends if and only if the flag is down when everything has
been delivered (`progressLoop_ends_iff`), and what it leaves is the state after
some of the calls (`run_of_progressLoop`).
-/

namespace DpuTest.Lib

structure StopLatch extends Latch where
  stopPending : Bool
  deriving DecidableEq

namespace StopLatch

/-- The latch before the wait. -/
def arm (count : UInt64) : StopLatch where
  toLatch := Latch.arm count
  stopPending := false

/-- A task has succeeded. -/
def completed (l : StopLatch) : StopLatch :=
  { l with toLatch := l.toLatch.countDown }

/-- `--remaining; if (remaining == 0) stop();` -/
def failed (l : StopLatch) : StopLatch where
  remaining := l.remaining - 1
  running := l.running
  stopPending := if l.remaining - 1 = 0 then true else l.stopPending

/-- The context has stopped. -/
def idle (l : StopLatch) : StopLatch where
  remaining := l.remaining
  running := false
  stopPending := false

/-- The latch waits for `left` tasks. -/
structure Waits (l : StopLatch) (left : Nat) : Prop where
  remaining_eq : l.remaining.toNat = left
  running_of_pos : 0 < left → l.running = true
  stopPending_of_pos : 0 < left → l.stopPending = false
  running_iff_of_zero : left = 0 → (l.running = false ↔ l.stopPending = false)

variable {l : StopLatch} {left : Nat}

/-- The flag is down exactly when all is done. -/
theorem Waits.running_iff (h : l.Waits left) :
    l.running = false ↔ left = 0 ∧ l.stopPending = false := by
  by_cases hleft : left = 0
  · rw [h.running_iff_of_zero hleft, and_iff_right hleft]
  · have hup := h.running_of_pos (Nat.pos_of_ne_zero hleft)
    constructor
    · intro hdown
      rw [hup] at hdown
      cases hdown
    · intro hdone
      exact absurd hdone.1 hleft

theorem waits_arm {count : UInt64} (hcount : 0 < count.toNat) :
    (arm count).Waits count.toNat where
  remaining_eq := rfl
  running_of_pos _ := rfl
  stopPending_of_pos _ := rfl
  running_iff_of_zero h := absurd h (Nat.ne_of_gt hcount)

/-- The counter after one task of several, and after the last one. -/
theorem Waits.remaining_sub_one (h : l.Waits (left + 1)) :
    (l.remaining - 1).toNat = left ∧ (l.remaining - 1 = 0 ↔ left = 0) := by
  have hrem := h.remaining_eq
  have hne : l.remaining ≠ 0 := by
    intro h0
    rw [h0] at hrem
    cases hrem
  have hsub : (l.remaining - 1).toNat = left := by
    rw [toNat_sub_one hne]
    omega
  refine ⟨hsub, ?_⟩
  rw [← UInt64.toNat_inj, hsub]
  rfl

/-- A success counts, and the last one drops the flag. -/
theorem Waits.completed (h : l.Waits (left + 1)) : l.completed.Waits left := by
  obtain ⟨hsub, hzero⟩ := h.remaining_sub_one
  have hup := h.running_of_pos (Nat.succ_pos left)
  have hstop := h.stopPending_of_pos (Nat.succ_pos left)
  refine ⟨hsub, ?_, fun _ => hstop, ?_⟩
  · intro hpos
    show (if l.remaining - 1 = 0 then false else l.running) = true
    rw [if_neg (fun h0 => Nat.ne_of_gt hpos (hzero.mp h0)), hup]
  · intro hleft
    show (if l.remaining - 1 = 0 then false else l.running) = false ↔ l.stopPending = false
    rw [if_pos (hzero.mpr hleft), hstop]

/-- A failure counts, and the last one asks for the stop. -/
theorem Waits.failed (h : l.Waits (left + 1)) : l.failed.Waits left := by
  obtain ⟨hsub, hzero⟩ := h.remaining_sub_one
  have hup := h.running_of_pos (Nat.succ_pos left)
  have hstop := h.stopPending_of_pos (Nat.succ_pos left)
  refine ⟨hsub, fun _ => hup, ?_, ?_⟩
  · intro hpos
    show (if l.remaining - 1 = 0 then true else l.stopPending) = false
    rw [if_neg (fun h0 => Nat.ne_of_gt hpos (hzero.mp h0)), hstop]
  · intro hleft
    show l.running = false ↔ (if l.remaining - 1 = 0 then true else l.stopPending) = false
    rw [if_pos (hzero.mpr hleft), hup]

/-- The stop drops the flag. -/
theorem Waits.idle (h : l.Waits 0) : l.idle.Waits 0 where
  remaining_eq := h.remaining_eq
  running_of_pos hpos := absurd hpos (Nat.lt_irrefl 0)
  stopPending_of_pos hpos := absurd hpos (Nat.lt_irrefl 0)
  running_iff_of_zero _ := by
    show false = false ↔ false = false
    exact Iff.rfl

/-- What a handler does to a latch and to the tasks that are out. -/
inductive Handles : StopLatch → List Nat → StopLatch → List Nat → Prop where
  | completed {l : StopLatch} {tasks : List Nat} {task : Nat} (h : task ∈ tasks) :
    Handles l tasks l.completed (tasks.erase task)
  | failed {l : StopLatch} {tasks : List Nat} {task : Nat} (h : task ∈ tasks) :
    Handles l tasks l.failed (tasks.erase task)
  | idle {l : StopLatch} : Handles l [] l.idle []
  | other {l : StopLatch} {tasks : List Nat} : Handles l tasks l tasks

theorem length_erase_add_one {tasks : List Nat} {task : Nat} (h : task ∈ tasks) :
    tasks.length = (tasks.erase task).length + 1 := by
  have hpos := List.length_pos_of_mem h
  rw [List.length_erase_of_mem h]
  omega

/-- Every handler keeps the invariant. -/
theorem Handles.waits {l l' : StopLatch} {tasks tasks' : List Nat}
    (h : Handles l tasks l' tasks') (hl : l.Waits tasks.length) : l'.Waits tasks'.length := by
  cases h with
  | completed hmem =>
    rw [length_erase_add_one hmem] at hl
    exact hl.completed
  | failed hmem =>
    rw [length_erase_add_one hmem] at hl
    exact hl.failed
  | idle => exact hl.idle
  | other => exact hl

/-- No handler raises the flag. -/
theorem Handles.running_eq_false {l l' : StopLatch} {tasks tasks' : List Nat}
    (h : Handles l tasks l' tasks') (hl : l.running = false) : l'.running = false := by
  cases h with
  | completed hmem =>
    show (if l.remaining - 1 = 0 then false else l.running) = false
    rw [hl, ite_self]
  | failed hmem => exact hl
  | idle => rfl
  | other => exact hl

end StopLatch

/-! ## The wait -/

section

variable {σ ε : Type} {step : σ → ε → Option σ} {running : σ → Bool}

/-- `while (running) progress();`, against what each call delivers. -/
def progressLoop (running : σ → Bool) (step : σ → ε → Option σ) : List (List ε) → σ → Option σ
  | [], s => if running s then none else some s
  | events :: calls, s =>
    if running s then
      match run step events s with
      | none => none
      | some s => progressLoop running step calls s
    else some s

/-- A flag that no handler raises stays down. -/
theorem run_of_stopped (hdown : ∀ s e s', running s = false → step s e = some s' →
      running s' = false) {es : List ε} {s t : σ} (hs : running s = false)
    (h : run step es s = some t) : running t = false :=
  run_inv (fun s => running s = false) hdown h hs

/-- The loop ends if and only if the flag is down in the end. -/
theorem progressLoop_ends_iff (hdown : ∀ s e s', running s = false → step s e = some s' →
      running s' = false) {calls : List (List ε)} {s t : σ}
    (h : run step calls.flatten s = some t) :
    (∃ u, progressLoop running step calls s = some u) ↔ running t = false := by
  induction calls generalizing s with
  | nil =>
    cases h
    cases ht : running t with
    | false => simp [progressLoop, ht]
    | true => simp [progressLoop, ht]
  | cons events calls ih =>
    cases hs : running s with
    | false =>
      have ht := run_of_stopped hdown hs h
      simp [progressLoop, hs, ht]
    | true =>
      rw [List.flatten_cons, run_append] at h
      obtain ⟨s', hone, hrest⟩ := Option.bind_eq_some_iff.mp h
      rw [← ih hrest]
      simp only [progressLoop, hs, if_true, hone]

/-- It ends after some of the calls, with the flag down. -/
theorem run_of_progressLoop {calls : List (List ε)} {s u : σ}
    (h : progressLoop running step calls s = some u) :
    running u = false ∧ ∃ k, run step (calls.take k).flatten s = some u := by
  induction calls generalizing s with
  | nil =>
    rw [progressLoop] at h
    split at h
    · cases h
    · rename_i hs
      cases h
      exact ⟨Bool.eq_false_of_not_eq_true hs, 0, rfl⟩
  | cons events calls ih =>
    rw [progressLoop] at h
    split at h
    · split at h
      · cases h
      · rename_i s' hone
        obtain ⟨hdown, k, hrun⟩ := ih h
        refine ⟨hdown, k + 1, ?_⟩
        rw [List.take_succ_cons, List.flatten_cons, run_append, hone]
        exact hrun
    · rename_i hs
      cases h
      exact ⟨Bool.eq_false_of_not_eq_true hs, 0, rfl⟩

/-- A wait is a wait of what one sees of it. -/
theorem progressLoop_of_view {τ : Type} {step' : τ → ε → Option τ} (view : τ → σ)
    (hview : ∀ u e u', step' u e = some u' → step (view u) e = some (view u'))
    {calls : List (List ε)} {u v : τ}
    (h : progressLoop (fun u => running (view u)) step' calls u = some v) :
    progressLoop running step calls (view u) = some (view v) := by
  induction calls generalizing u with
  | nil =>
    rw [progressLoop] at h ⊢
    split at h
    · cases h
    · rename_i hu
      cases h
      rw [if_neg hu]
  | cons events calls ih =>
    rw [progressLoop] at h ⊢
    split at h
    · rename_i hu
      split at h
      · cases h
      · rename_i u' hone
        rw [if_pos hu, run_of_view view hview hone]
        exact ih h
    · rename_i hu
      cases h
      rw [if_neg hu]

end

end DpuTest.Lib
