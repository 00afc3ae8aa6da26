import Mathlib.Logic.Basic

/-!
# Runs of a system

A system is a partial function `step` from a state and an action to the next
state.  `run` takes a list of actions, so a run is one interleaving of whatever
parties the actions belong to.  `Guarded P` says of a run that every one of its
steps starts where `P` allows it.

* `run_inv` is the induction over a run: what every step keeps holds at its end.
  `run_inv_of_guarded` is the same for the runs under a guard.
* `run_of_view` forgets a part of the state.
* `run_rel` relates the runs of two systems, each of which can take a step when the other
  can.
* `exists_step_of_not_guarded` finds a step that breaks a guard.
* `exists_run_of_progress` builds a run: while the goal is not reached, some step
  keeps the invariant and comes closer.
-/

namespace DpuTest.Lib

variable {σ α : Type} {step : σ → α → Option σ}

/-- The state after the actions, when each of them can be taken. -/
def run (step : σ → α → Option σ) : List α → σ → Option σ
  | [], s => some s
  | a :: as, s =>
    match step s a with
    | none => none
    | some s' => run step as s'

/-- Every step of the run starts where `P` allows it. -/
def Guarded (step : σ → α → Option σ) (P : σ → α → Prop) : List α → σ → Prop
  | [], _ => True
  | a :: as, s =>
    P s a ∧
      match step s a with
      | none => True
      | some s' => Guarded step P as s'

theorem run_cons_of_some {s s' : σ} {a : α} (as : List α) (h : step s a = some s') :
    run step (a :: as) s = run step as s' := by
  simp only [run, h]

/-- The first step of a run. -/
theorem exists_of_run_cons {s t : σ} {a : α} {as : List α} (h : run step (a :: as) s = some t) :
    ∃ s', step s a = some s' ∧ run step as s' = some t := by
  cases hstep : step s a with
  | none =>
    simp only [run, hstep] at h
    cases h
  | some s' =>
    rw [run_cons_of_some as hstep] at h
    exact ⟨s', rfl, h⟩

/-- One run after another. -/
theorem run_append (as bs : List α) (s : σ) :
    run step (as ++ bs) s = (run step as s).bind (run step bs) := by
  induction as generalizing s with
  | nil => rfl
  | cons a as ih =>
    rw [List.cons_append, run, run]
    cases step s a with
    | none => rfl
    | some s' => exact ih s'

theorem guarded_cons_of_some {P : σ → α → Prop} {s s' : σ} {a : α} {as : List α}
    (h : step s a = some s') :
    Guarded step P (a :: as) s ↔ P s a ∧ Guarded step P as s' := by
  simp only [Guarded, h]

/-- A run of a system is a run of what one sees of it. -/
theorem run_of_view {τ : Type} {step' : τ → α → Option τ} (view : τ → σ)
    (hview : ∀ u a u', step' u a = some u' → step (view u) a = some (view u')) {u v : τ}
    {as : List α} (h : run step' as u = some v) : run step as (view u) = some (view v) := by
  induction as generalizing u with
  | nil =>
    cases h
    rfl
  | cons a as ih =>
    obtain ⟨u', hone, hrest⟩ := exists_of_run_cons h
    rw [run_cons_of_some as (hview u a u' hone)]
    exact ih hrest

/-- Results that agree go on to results that agree. -/
theorem rel_bind {α' β β' : Type} {R : α → α' → Prop} {S : β → β' → Prop} {x : Option α}
    {y : Option α'} {f : α → Option β} {g : α' → Option β'} (h : Option.Rel R x y)
    (hnext : ∀ a b, R a b → Option.Rel S (f a) (g b)) :
    Option.Rel S (x.bind f) (y.bind g) := by
  cases h with
  | none => exact .none
  | some hab => exact hnext _ _ hab

theorem rel_mono {β : Type} {R S : α → β → Prop} {x : Option α} {y : Option β}
    (h : Option.Rel R x y) (himp : ∀ a b, R a b → S a b) : Option.Rel S x y := by
  cases h with
  | none => exact .none
  | some hab => exact .some (himp _ _ hab)

theorem map_eq_of_rel {β γ : Type} {R : α → β → Prop} {x : Option α} {y : Option β} {f : α → γ}
    {g : β → γ} (h : Option.Rel R x y) (heq : ∀ a b, R a b → f a = g b) : x.map f = y.map g := by
  cases h with
  | none => rfl
  | some hab => exact congrArg some (heq _ _ hab)

/-- Two systems whose steps agree run alike. -/
theorem run_rel {τ β : Type} {step' : τ → β → Option τ} {R : σ → τ → Prop} (label : α → β)
    (hstep : ∀ s t a, R s t → Option.Rel R (step s a) (step' t (label a))) {s : σ} {t : τ}
    (hst : R s t) (as : List α) : Option.Rel R (run step as s) (run step' (as.map label) t) := by
  induction as generalizing s t with
  | nil => exact .some hst
  | cons a as ih =>
    have hone := hstep s t a hst
    rw [List.map_cons, run, run]
    generalize step s a = next at hone
    generalize step' t (label a) = next' at hone
    cases hone with
    | none => exact .none
    | some hnext => exact ih hnext

/-- What every step under the guard keeps holds at the end of a guarded run. -/
theorem run_inv_of_guarded {P : σ → α → Prop} (Inv : σ → Prop)
    (hstep : ∀ s a s', Inv s → P s a → step s a = some s' → Inv s') {s t : σ} {as : List α}
    (h : run step as s = some t) (hguard : Guarded step P as s) (hs : Inv s) : Inv t := by
  induction as generalizing s with
  | nil =>
    cases h
    exact hs
  | cons a as ih =>
    obtain ⟨s', hone, hrest⟩ := exists_of_run_cons h
    rw [guarded_cons_of_some hone] at hguard
    exact ih hrest hguard.2 (hstep s a s' hs hguard.1 hone)

/-- What every step keeps holds at the end of a run. -/
theorem run_inv (Inv : σ → Prop) (hstep : ∀ s a s', Inv s → step s a = some s' → Inv s')
    {s t : σ} {as : List α} (h : run step as s = some t) (hs : Inv s) : Inv t := by
  induction as generalizing s with
  | nil =>
    cases h
    exact hs
  | cons a as ih =>
    obtain ⟨s', hone, hrest⟩ := exists_of_run_cons h
    exact ih hrest (hstep s a s' hs hone)

/-- A run to the goal, when some step always comes closer to it. -/
theorem exists_run_of_progress {Inv Goal : σ → Prop} (rank : σ → Nat)
    (hprogress : ∀ s, Inv s → ¬ Goal s →
      ∃ a s', step s a = some s' ∧ Inv s' ∧ rank s' < rank s) {s : σ} (hs : Inv s) :
    ∃ as t, run step as s = some t ∧ Inv t ∧ Goal t := by
  induction hn : rank s using Nat.strongRecOn generalizing s with
  | ind n ih =>
    by_cases hgoal : Goal s
    · exact ⟨[], s, rfl, hs, hgoal⟩
    · obtain ⟨a, s', hone, hs', hlt⟩ := hprogress s hs hgoal
      rw [hn] at hlt
      obtain ⟨as, t, hrest, ht⟩ := ih (rank s') hlt hs' rfl
      refine ⟨a :: as, t, ?_, ht⟩
      rw [run_cons_of_some as hone]
      exact hrest

/-- A guard that says more than another. -/
theorem Guarded.mono {P Q : σ → α → Prop}
    (hPQ : ∀ s a s', P s a → step s a = some s' → Q s a) {s t : σ} {as : List α}
    (h : run step as s = some t) (hguard : Guarded step P as s) : Guarded step Q as s := by
  induction as generalizing s with
  | nil => trivial
  | cons a as ih =>
    obtain ⟨s', hone, hrest⟩ := exists_of_run_cons h
    rw [guarded_cons_of_some hone] at hguard ⊢
    exact ⟨hPQ s a s' hguard.1 hone, ih hrest hguard.2⟩

/-- A run that is not guarded has a step that breaks the guard. -/
theorem exists_step_of_not_guarded {P : σ → α → Prop} {s t : σ} {as : List α}
    (h : run step as s = some t) (hguard : ¬ Guarded step P as s) :
    ∃ before a after u u', as = before ++ a :: after ∧ run step before s = some u ∧
      ¬ P u a ∧ step u a = some u' ∧ run step after u' = some t := by
  induction as generalizing s with
  | nil => exact absurd trivial hguard
  | cons a as ih =>
    obtain ⟨s', hone, hrest⟩ := exists_of_run_cons h
    rw [guarded_cons_of_some hone] at hguard
    by_cases hP : P s a
    · obtain ⟨before, c, after, u, u', rfl, hbefore, hbreak, hu, hafter⟩ :=
        ih hrest (fun hg => hguard ⟨hP, hg⟩)
      refine ⟨a :: before, c, after, u, u', rfl, ?_, hbreak, hu, hafter⟩
      rw [run_cons_of_some before hone]
      exact hbefore
    · exact ⟨[], a, as, s, s', rfl, rfl, hP, hone, hrest⟩

section

variable (P : σ → α → Prop) [∀ s a, Decidable (P s a)]

instance decidableGuarded : (as : List α) → (s : σ) → Decidable (Guarded step P as s)
  | [], _ => .isTrue trivial
  | a :: as, s =>
    match h : step s a with
    | none =>
      decidable_of_iff (P s a) (by simp only [Guarded, h, and_true])
    | some s' =>
      have := decidableGuarded as s'
      decidable_of_iff (P s a ∧ Guarded step P as s') (guarded_cons_of_some h).symm

end

end DpuTest.Lib
