import DpuTest.Lib.Loop

/-!
# Loops that count with a 32-bit word

`for (unsigned i = 1; i <= n; ++i)`, whose passes may leave the loop with an
error.  The counter wraps.  Below the largest word the loop is a fold over the
numbers from 1 to `n` (`countedLoop_ends`).  With the largest word as its bound
the condition never fails, and the loop ends only when a pass does
(`countedLoop_ends_max`).
-/

namespace DpuTest.Lib

variable {σ ε : Type}

/-- The counter, and the state or the error of the pass that left the loop. -/
structure Counted (σ ε : Type) where
  counter : UInt32
  status : Except ε σ

/-- The passes with the numbers from `start` on, until one fails. -/
def passes (next : UInt32 → σ → Except ε σ) (start count : Nat) (s : σ) : Except ε σ :=
  (List.range' start count).foldlM (fun s i => next (UInt32.ofNat i) s) s

/-- `i <= n`, unless a pass has left the loop. -/
def countedCond (n : UInt32) (c : Counted σ ε) : Bool :=
  match c.status with
  | .error _ => false
  | .ok _ => c.counter ≤ n

/-- One pass and `++i`. -/
def countedBody (next : UInt32 → σ → Except ε σ) (c : Counted σ ε) : Option (Counted σ ε) :=
  match c.status with
  | .error _ => some c
  | .ok s =>
    match next c.counter s with
    | .error e => some { c with status := .error e }
    | .ok s => some { counter := c.counter + 1, status := .ok s }

/-- The loop from 1 on ends with this status. -/
def CountedEnds (n : UInt32) (next : UInt32 → σ → Except ε σ) (s : σ) (status : Except ε σ) :
    Prop :=
  ∃ counter, LoopEnds (countedCond n) (countedBody next) ⟨1, .ok s⟩ ⟨counter, status⟩

variable {n : UInt32} {next : UInt32 → σ → Except ε σ} {s : σ}

theorem passes_zero (start : Nat) : passes next start 0 s = .ok s := rfl

theorem passes_succ (start count : Nat) :
    passes next start (count + 1) s =
      match next (UInt32.ofNat start) s with
      | .error e => .error e
      | .ok s' => passes next (start + 1) count s' := by
  simp only [passes, List.range'_succ, List.foldlM_cons]
  cases next (UInt32.ofNat start) s <;> rfl

/-- One pass more at the end. -/
theorem passes_concat (start count : Nat) :
    passes next start (count + 1) s =
      match passes next start count s with
      | .error e => .error e
      | .ok s' => next (UInt32.ofNat (start + count)) s' := by
  induction count generalizing start s with
  | zero =>
    rw [passes_succ]
    simp only [passes_zero, Nat.add_zero]
    cases next (UInt32.ofNat start) s <;> rfl
  | succ count ih =>
    rw [passes_succ, passes_succ start count]
    cases next (UInt32.ofNat start) s with
    | error e => rfl
    | ok s' =>
      show passes next (start + 1) (count + 1) s' = _
      rw [ih, Nat.add_assoc, Nat.add_comm 1]

/-- The loop goes through the passes for which the condition holds. -/
theorem loopEnds_passes (start count : Nat)
    (hcond : ∀ i < count, UInt32.ofNat (start + i) ≤ n) :
    ∃ c : Counted σ ε, (∀ c', LoopEnds (countedCond n) (countedBody next) c c' →
        LoopEnds (countedCond n) (countedBody next) ⟨UInt32.ofNat start, .ok s⟩ c') ∧
      c.status = passes next start count s ∧
      (∀ s', passes next start count s = .ok s' → c.counter = UInt32.ofNat (start + count)) := by
  induction count generalizing start s with
  | zero => exact ⟨⟨UInt32.ofNat start, .ok s⟩, fun c' h => h, rfl, fun s' _ => rfl⟩
  | succ count ih =>
    have hfirst : countedCond n (⟨UInt32.ofNat start, .ok s⟩ : Counted σ ε) = true :=
      decide_eq_true (hcond 0 (Nat.succ_pos count))
    cases hone : next (UInt32.ofNat start) s with
    | error e =>
      have hbody : countedBody next (⟨UInt32.ofNat start, .ok s⟩ : Counted σ ε) =
          some ⟨UInt32.ofNat start, .error e⟩ := by
        simp only [countedBody, hone]
      refine ⟨⟨UInt32.ofNat start, .error e⟩, ?_, ?_, ?_⟩
      · exact fun c' h => (loopEnds_of_true hfirst hbody).mpr h
      · rw [passes_succ, hone]
      · intro s' h
        rw [passes_succ, hone] at h
        cases h
    | ok s₁ =>
      have hbody : countedBody next (⟨UInt32.ofNat start, .ok s⟩ : Counted σ ε) =
          some ⟨UInt32.ofNat (start + 1), .ok s₁⟩ := by
        simp only [countedBody, hone, UInt32.ofNat_add]
        rfl
      have hlater : ∀ i < count, UInt32.ofNat (start + 1 + i) ≤ n := by
        intro i hi
        rw [Nat.add_assoc, Nat.add_comm 1]
        exact hcond (i + 1) (Nat.succ_lt_succ hi)
      obtain ⟨c, hends, hstatus, hcounter⟩ := ih (s := s₁) (start + 1) hlater
      refine ⟨c, ?_, ?_, ?_⟩
      · exact fun c' h => (loopEnds_of_true hfirst hbody).mpr (hends c' h)
      · rw [passes_succ, hone]
        exact hstatus
      · intro s' h
        rw [passes_succ, hone] at h
        rw [hcounter s' h, Nat.add_assoc, Nat.add_comm 1]

/-- A loop ends with one status only. -/
theorem CountedEnds.unique {status status' : Except ε σ} (h : CountedEnds n next s status)
    (h' : CountedEnds n next s status') : status = status' := by
  obtain ⟨counter, h⟩ := h
  obtain ⟨counter', h'⟩ := h'
  exact congrArg Counted.status (h.unique h')

/-- Below the largest word the loop is the fold. -/
theorem countedLoop_ends (h : n ≠ UInt32.ofNat (2 ^ 32 - 1)) :
    CountedEnds n next s (passes next 1 n.toNat s) := by
  have hlt : n.toNat + 1 < 2 ^ 32 := by
    have hne : n.toNat ≠ 2 ^ 32 - 1 := by
      intro heq
      apply h
      rw [← heq, UInt32.ofNat_toNat]
    have := n.toNat_lt
    omega
  have htoNat (i : Nat) (hi : i ≤ n.toNat + 1) : (UInt32.ofNat i).toNat = i :=
    UInt32.toNat_ofNat_of_lt' (show i < 2 ^ 32 by omega)
  have hcond : ∀ i < n.toNat, UInt32.ofNat (1 + i) ≤ n := by
    intro i hi
    rw [UInt32.le_iff_toNat_le, htoNat (1 + i) (by omega)]
    omega
  obtain ⟨c, hends, hstatus, hcounter⟩ := @loopEnds_passes _ _ n next s 1 n.toNat hcond
  refine ⟨c.counter, ?_⟩
  have hlast : LoopEnds (countedCond n) (countedBody next) c c := by
    rw [loopEnds_of_false]
    cases hpasses : passes next 1 n.toNat s with
    | error e =>
      rw [hpasses] at hstatus
      simp only [countedCond, hstatus]
    | ok s' =>
      have hc := hcounter s' hpasses
      rw [hpasses] at hstatus
      simp only [countedCond, hstatus, hc, decide_eq_false_iff_not]
      rw [UInt32.le_iff_toNat_le, htoNat (1 + n.toNat) (by omega)]
      omega
  rw [← hstatus]
  exact hends c hlast

/-- With the largest word as its bound the loop ends only when a pass fails, be it
after the counter has wrapped. -/
theorem countedLoop_ends_max {status : Except ε σ} :
    CountedEnds (UInt32.ofNat (2 ^ 32 - 1)) next s status ↔
      ∃ e count, status = .error e ∧ passes next 1 count s = .error e := by
  have hle (x : UInt32) : x ≤ UInt32.ofNat (2 ^ 32 - 1) := by
    have := x.toNat_lt
    rw [UInt32.le_iff_toNat_le]
    show x.toNat ≤ 2 ^ 32 - 1
    omega
  have hends : ∀ e count, passes next 1 count s = .error e →
      CountedEnds (UInt32.ofNat (2 ^ 32 - 1)) next s (.error e) := by
    intro e count h
    obtain ⟨c, hends, hstatus, -⟩ := @loopEnds_passes _ _ _ next s 1 count (fun i _ => hle _)
    rw [h] at hstatus
    refine ⟨c.counter, hends _ ?_⟩
    rw [← hstatus, loopEnds_of_false]
    simp only [countedCond, hstatus]
  constructor
  · rintro ⟨counter, hloop⟩
    by_cases hfails : ∃ e count, passes next 1 count s = .error e
    · obtain ⟨e, count, h⟩ := hfails
      exact ⟨e, count, CountedEnds.unique ⟨counter, hloop⟩ (hends e count h), h⟩
    · -- every state is that of the passes so far, and the condition holds in it
      let Inv (c : Counted σ ε) := ∃ count s', passes next 1 count s = .ok s' ∧
        c = ⟨UInt32.ofNat (1 + count), .ok s'⟩
      have hinv : Inv ⟨1, .ok s⟩ := ⟨0, s, rfl, rfl⟩
      refine absurd hloop (not_loopEnds ?_ ?_ hinv _)
      · rintro c ⟨count, s', -, rfl⟩
        exact decide_eq_true (hle _)
      · rintro c c' ⟨count, s', hpasses, rfl⟩ hbody
        have hmore := @passes_concat _ _ next s 1 count
        rw [hpasses] at hmore
        cases hone : next (UInt32.ofNat (1 + count)) s' with
        | error e =>
          simp only [hone] at hmore
          exact absurd ⟨e, count + 1, hmore⟩ hfails
        | ok s'' =>
          simp only [hone] at hmore
          simp only [countedBody, hone, Option.some.injEq] at hbody
          refine ⟨count + 1, s'', hmore, ?_⟩
          rw [← hbody, ← Nat.add_assoc, UInt32.ofNat_add (1 + count)]
          rfl
  · rintro ⟨e, count, rfl, h⟩
    exact hends e count h

/-- What the passes keep, they keep over a loop that ends without an error. -/
theorem passes_inv (P : Nat → σ → Prop) {start count : Nat}
    (hstep : ∀ i s s', P i s → next (UInt32.ofNat (start + i)) s = .ok s' → P (i + 1) s')
    (hs : P 0 s) {s' : σ} (h : passes next start count s = .ok s') : P count s' := by
  induction count generalizing s' with
  | zero =>
    cases h
    exact hs
  | succ count ih =>
    rw [passes_concat] at h
    cases hbefore : passes next start count s with
    | error e =>
      rw [hbefore] at h
      cases h
    | ok s₁ =>
      rw [hbefore] at h
      exact hstep count s₁ s' (ih hbefore) h

/-- Passes that succeed under an invariant. -/
theorem passes_ok (P : Nat → σ → Prop) {start count : Nat}
    (hstep : ∀ i s, P i s → ∃ s', next (UInt32.ofNat (start + i)) s = .ok s' ∧ P (i + 1) s')
    (hs : P 0 s) : ∃ s', passes next start count s = .ok s' ∧ P count s' := by
  induction count with
  | zero => exact ⟨s, rfl, hs⟩
  | succ count ih =>
    obtain ⟨s₁, hbefore, h₁⟩ := ih
    obtain ⟨s', hone, h'⟩ := hstep count s₁ h₁
    refine ⟨s', ?_, h'⟩
    rw [passes_concat, hbefore]
    exact hone

end DpuTest.Lib
