import Mathlib.Logic.Basic

/-!
# Traces

A trace is the list of the events of a run, the oldest first.  `Precedes` is the
law that an effect comes after its cause.  It is kept by whatever extends the
trace without an effect, and one event at a time otherwise.
-/

namespace DpuTest.Lib

variable {α : Type} {cause effect : α → Prop}

/-- Each effect in the trace has a cause before it. -/
def Precedes (cause effect : α → Prop) (trace : List α) : Prop :=
  ∀ before e after, trace = before ++ e :: after → effect e → ∃ c ∈ before, cause c

theorem precedes_nil : Precedes cause effect ([] : List α) := by
  intro before e after h _
  cases before <;> cases h

/-- One more event. -/
theorem precedes_concat (trace : List α) (x : α) :
    Precedes cause effect (trace ++ [x]) ↔
      Precedes cause effect trace ∧ (effect x → ∃ c ∈ trace, cause c) := by
  constructor
  · intro h
    refine ⟨?_, h trace x [] rfl⟩
    intro before e after hsplit
    apply h before e (after ++ [x])
    rw [hsplit, List.append_assoc, List.cons_append]
  · rintro ⟨htrace, hx⟩ before e after hsplit he
    rcases List.eq_nil_or_concat after with rfl | ⟨after, y, rfl⟩
    · obtain ⟨rfl, hlast⟩ := List.append_inj' hsplit rfl
      cases hlast
      exact hx he
    · rw [List.concat_eq_append, ← List.cons_append, ← List.append_assoc] at hsplit
      exact htrace before e after (List.append_inj' hsplit rfl).1 he

/-- Events that are no effects. -/
theorem precedes_append (trace : List α) {events : List α} (h : ∀ e ∈ events, ¬ effect e) :
    Precedes cause effect (trace ++ events) ↔ Precedes cause effect trace := by
  induction events generalizing trace with
  | nil => rw [List.append_nil]
  | cons x events ih =>
    rw [List.append_cons, ih (trace ++ [x]) (fun e he => h e (List.mem_cons_of_mem _ he)),
      precedes_concat]
    constructor
    · exact And.left
    · intro htrace
      exact ⟨htrace, fun hx => absurd hx (h x List.mem_cons_self)⟩

end DpuTest.Lib
