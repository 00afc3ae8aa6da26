import Mathlib.Algebra.Order.Ring.Nat
import Mathlib.Data.UInt
import Mathlib.Tactic.Common

/-!
# While loops

`whileLoop` runs a loop for at most `fuel` passes.  It answers `none` when the
fuel is out while the condition still holds, and when a pass does not come
back.  `LoopEnds` hides the fuel: it says that some number of passes takes the
loop from one state to the other.

`whileLoop_total` is the rule for a loop that ends: an invariant, and a
measure that every pass makes smaller.  `LoopEnds.inv` is the rule for what
follows when a loop has ended.  `not_loopEnds` is the rule for a loop that does
not: an invariant under which the condition holds.

`forLoop` is a loop over an index.  Its rules are about what the passes put
out: `forLoop_outputs` for a loop that comes to its end, and `forLoop_inv` for
what follows when it has; `forLoop_sum` is about a quantity that the passes add
up.  A fold over `List.range` is a loop whose body says
with `none` that it does not come back; `exists_foldlM_range` and
`foldlM_range_inv` are the same two rules for it.
-/

namespace DpuTest.Lib

variable {σ : Type}

/-- `while (cond s) s = body s`, for at most `fuel` passes. -/
def whileLoop (cond : σ → Bool) (body : σ → Option σ) : Nat → σ → Option σ
  | 0, s => if cond s then none else some s
  | fuel + 1, s => if cond s then (body s).bind (whileLoop cond body fuel) else some s

/-- The loop started in `s` ends in `t`. -/
def LoopEnds (cond : σ → Bool) (body : σ → Option σ) (s t : σ) : Prop :=
  ∃ fuel, whileLoop cond body fuel s = some t

variable {cond : σ → Bool} {body : σ → Option σ}

theorem whileLoop_of_false (fuel : Nat) {s : σ} (h : cond s = false) :
    whileLoop cond body fuel s = some s := by
  cases fuel <;> rw [whileLoop, if_neg (by rw [h]; exact Bool.false_ne_true)]

theorem whileLoop_of_true (fuel : Nat) {s : σ} (h : cond s = true) :
    whileLoop cond body (fuel + 1) s = (body s).bind (whileLoop cond body fuel) := by
  rw [whileLoop, if_pos h]

/-- More fuel does not change the answer. -/
theorem whileLoop_succ {fuel : Nat} {s t : σ}
    (h : whileLoop cond body fuel s = some t) :
    whileLoop cond body (fuel + 1) s = some t := by
  induction fuel generalizing s with
  | zero =>
    cases hc : cond s with
    | false =>
      rw [whileLoop_of_false _ hc] at h ⊢
      exact h
    | true =>
      rw [whileLoop, if_pos hc] at h
      cases h
  | succ fuel ih =>
    cases hc : cond s with
    | false =>
      rw [whileLoop_of_false _ hc] at h ⊢
      exact h
    | true =>
      rw [whileLoop_of_true _ hc] at h ⊢
      obtain ⟨s', hbody, hrest⟩ := Option.bind_eq_some_iff.mp h
      rw [hbody, Option.bind_some]
      exact ih hrest

theorem whileLoop_mono {fuel fuel' : Nat} {s t : σ}
    (h : whileLoop cond body fuel s = some t) (hle : fuel ≤ fuel') :
    whileLoop cond body fuel' s = some t := by
  induction hle with
  | refl => exact h
  | step _ ih => exact whileLoop_succ ih

/-- A loop ends in one state only. -/
theorem LoopEnds.unique {s t t' : σ} (h : LoopEnds cond body s t)
    (h' : LoopEnds cond body s t') : t = t' := by
  obtain ⟨fuel, h⟩ := h
  obtain ⟨fuel', h'⟩ := h'
  have hmax := whileLoop_mono h (Nat.le_max_left fuel fuel')
  rw [whileLoop_mono h' (Nat.le_max_right fuel fuel')] at hmax
  exact (Option.some.inj hmax).symm

theorem loopEnds_of_false {s t : σ} (h : cond s = false) :
    LoopEnds cond body s t ↔ t = s := by
  have hself : LoopEnds cond body s s := ⟨0, whileLoop_of_false 0 h⟩
  constructor
  · intro ht
    exact ht.unique hself
  · intro ht
    rw [ht]
    exact hself

/-- A loop may be unrolled once. -/
theorem loopEnds_of_true {s s' t : σ} (h : cond s = true) (hbody : body s = some s') :
    LoopEnds cond body s t ↔ LoopEnds cond body s' t := by
  constructor
  · rintro ⟨fuel, hrun⟩
    have hrun' := whileLoop_succ hrun
    rw [whileLoop_of_true fuel h, hbody] at hrun'
    exact ⟨fuel, hrun'⟩
  · rintro ⟨fuel, hrun⟩
    refine ⟨fuel + 1, ?_⟩
    rw [whileLoop_of_true fuel h, hbody]
    exact hrun

/-- Total correctness.  The measure of the first state is fuel enough. -/
theorem whileLoop_total {Inv : σ → Prop} (μ : σ → Nat)
    (hstep : ∀ s, Inv s → cond s = true →
      ∃ s', body s = some s' ∧ Inv s' ∧ μ s' < μ s)
    {fuel : Nat} {s : σ} (hs : Inv s) (hfuel : μ s ≤ fuel) :
    ∃ t, whileLoop cond body fuel s = some t ∧ Inv t ∧ cond t = false := by
  induction fuel generalizing s with
  | zero =>
    cases hc : cond s with
    | false => exact ⟨s, whileLoop_of_false _ hc, hs, hc⟩
    | true =>
      obtain ⟨s', _, _, hlt⟩ := hstep s hs hc
      omega
  | succ fuel ih =>
    cases hc : cond s with
    | false => exact ⟨s, whileLoop_of_false _ hc, hs, hc⟩
    | true =>
      obtain ⟨s', hbody, hs', hlt⟩ := hstep s hs hc
      rw [whileLoop_of_true _ hc, hbody, Option.bind_some]
      exact ih hs' (by omega)

/-- Partial correctness: what every pass keeps holds where the loop ends. -/
theorem LoopEnds.inv (P : σ → Prop)
    (hstep : ∀ s s', P s → cond s = true → body s = some s' → P s')
    {s t : σ} (h : LoopEnds cond body s t) (hs : P s) : P t ∧ cond t = false := by
  obtain ⟨fuel, hrun⟩ := h
  induction fuel generalizing s with
  | zero =>
    cases hc : cond s with
    | false =>
      rw [whileLoop_of_false _ hc] at hrun
      cases hrun
      exact ⟨hs, hc⟩
    | true =>
      rw [whileLoop, if_pos hc] at hrun
      cases hrun
  | succ fuel ih =>
    cases hc : cond s with
    | false =>
      rw [whileLoop_of_false _ hc] at hrun
      cases hrun
      exact ⟨hs, hc⟩
    | true =>
      rw [whileLoop_of_true _ hc] at hrun
      obtain ⟨s', hbody, hrest⟩ := Option.bind_eq_some_iff.mp hrun
      exact ih (hstep s s' hs hc hbody) hrest

/-- A loop whose condition follows from an invariant does not end. -/
theorem not_loopEnds {Inv : σ → Prop}
    (hcond : ∀ s, Inv s → cond s = true)
    (hstep : ∀ s s', Inv s → body s = some s' → Inv s')
    {s : σ} (hs : Inv s) (t : σ) : ¬ LoopEnds cond body s t := by
  rintro ⟨fuel, h⟩
  induction fuel generalizing s with
  | zero =>
    rw [whileLoop, if_pos (hcond s hs)] at h
    cases h
  | succ fuel ih =>
    rw [whileLoop_of_true _ (hcond s hs)] at h
    obtain ⟨s', hbody, hrest⟩ := Option.bind_eq_some_iff.mp h
    exact ih (hstep s s' hs hbody) hrest

/-! ## Counted loops -/

section

variable {ε β : Type}

/-- `for (index = …; …; ++index)`, for `count` passes, with an early return. -/
def forLoop (next : UInt64 → σ → Except ε σ) : Nat → UInt64 → σ → Except ε σ
  | 0, _, s => .ok s
  | count + 1, index, s =>
    match next index s with
    | .error e => .error e
    | .ok s => forLoop next count (index + 1) s

theorem ofNat_succ (n : Nat) : UInt64.ofNat n + 1 = UInt64.ofNat (n + 1) := by
  rw [UInt64.ofNat_add]
  rfl

variable (next : UInt64 → σ → Except ε σ) (out : σ → List β)

/-- A loop whose passes put out the items one by one puts out all of them. -/
theorem forLoop_outputs (items : List β) (start : Nat)
    (hnext : ∀ i b, items[i]? = some b → ∀ s,
      ∃ s', next (UInt64.ofNat (start + i)) s = .ok s' ∧ out s' = out s ++ [b])
    (s : σ) :
    ∃ s', forLoop next items.length (UInt64.ofNat start) s = .ok s' ∧
      out s' = out s ++ items := by
  induction items generalizing start s with
  | nil => exact ⟨s, rfl, (List.append_nil _).symm⟩
  | cons b bs ih =>
    obtain ⟨s₁, hone, hs₁⟩ := hnext 0 b rfl s
    have hrest : ∀ i c, bs[i]? = some c → ∀ s,
        ∃ s', next (UInt64.ofNat (start + 1 + i)) s = .ok s' ∧ out s' = out s ++ [c] := by
      intro i c hi
      rw [Nat.add_assoc, Nat.add_comm 1]
      exact hnext (i + 1) c hi
    obtain ⟨s', hloop, hs'⟩ := ih (start + 1) hrest s₁
    rw [Nat.add_zero] at hone
    refine ⟨s', ?_, ?_⟩
    · rw [List.length_cons, forLoop, hone, ofNat_succ]
      exact hloop
    · rw [hs', hs₁, List.append_assoc, List.singleton_append]

/-- From 0 on, with nothing put out before. -/
theorem forLoop_outputs_zero (items : List β)
    (hnext : ∀ i b, items[i]? = some b → ∀ s,
      ∃ s', next (UInt64.ofNat i) s = .ok s' ∧ out s' = out s ++ [b])
    {s : σ} (hs : out s = []) :
    ∃ s', forLoop next items.length 0 s = .ok s' ∧ out s' = items := by
  have hnext' : ∀ i b, items[i]? = some b → ∀ s,
      ∃ s', next (UInt64.ofNat (0 + i)) s = .ok s' ∧ out s' = out s ++ [b] := by
    intro i b hi
    rw [Nat.zero_add]
    exact hnext i b hi
  obtain ⟨s', hloop, hs'⟩ := forLoop_outputs next out items 0 hnext' s
  rw [hs, List.nil_append] at hs'
  exact ⟨s', hloop, hs'⟩

variable {next}

/-- What a loop that comes to its end has put out, one item for each pass. -/
theorem forLoop_inv (P : UInt64 → β → Prop)
    (hnext : ∀ {index s s'}, next index s = .ok s' → ∃ b, P index b ∧ out s' = out s ++ [b])
    {count : Nat} (start : Nat) {s s' : σ}
    (h : forLoop next count (UInt64.ofNat start) s = .ok s') :
    ∃ bs, bs.length = count ∧ out s' = out s ++ bs ∧
      ∀ i b, bs[i]? = some b → P (UInt64.ofNat (start + i)) b := by
  induction count generalizing start s with
  | zero =>
    cases h
    exact ⟨[], rfl, (List.append_nil _).symm, fun i b hi => by simp at hi⟩
  | succ count ih =>
    rw [forLoop] at h
    split at h
    · cases h
    · rename_i s₁ hone
      obtain ⟨b, hb, hs₁⟩ := hnext hone
      rw [ofNat_succ] at h
      obtain ⟨bs, hlen, hs', hbs⟩ := ih (start + 1) h
      refine ⟨b :: bs, by rw [List.length_cons, hlen], ?_, ?_⟩
      · rw [hs', hs₁, List.append_assoc, List.singleton_append]
      · intro i c hi
        cases i with
        | zero =>
          cases hi
          exact hb
        | succ i =>
          rw [Nat.add_comm i, ← Nat.add_assoc]
          exact hbs i c hi

/-- From 0 on, with nothing put out before. -/
theorem forLoop_inv_zero (P : UInt64 → β → Prop)
    (hnext : ∀ {index s s'}, next index s = .ok s' → ∃ b, P index b ∧ out s' = out s ++ [b])
    {count : Nat} {s s' : σ} (hs : out s = []) (h : forLoop next count 0 s = .ok s') :
    (out s').length = count ∧ ∀ i b, (out s')[i]? = some b → P (UInt64.ofNat i) b := by
  obtain ⟨bs, hlen, hs', hbs⟩ := forLoop_inv out P hnext 0 h
  rw [hs, List.nil_append] at hs'
  rw [hs']
  refine ⟨hlen, ?_⟩
  intro i b hi
  have hb := hbs i b hi
  rw [Nat.zero_add] at hb
  exact hb

/-- What every pass keeps holds at the end. -/
theorem forLoop_keeps (P : σ → Prop)
    (hnext : ∀ {index s s'}, P s → next index s = .ok s' → P s')
    {count : Nat} {start : UInt64} {s s' : σ} (hs : P s)
    (h : forLoop next count start s = .ok s') : P s' := by
  induction count generalizing start s with
  | zero =>
    cases h
    exact hs
  | succ count ih =>
    rw [forLoop] at h
    split at h
    · cases h
    · rename_i s₁ hone
      exact ih (hnext hs hone) h

/-- What a loop adds up: each pass adds the weight of its index. -/
theorem forLoop_sum {γ : Type} [AddMonoid γ] (acc : σ → γ) (weight : UInt64 → γ)
    (hnext : ∀ {index s s'}, next index s = .ok s' → acc s' = acc s + weight index)
    {count : Nat} (start : Nat) {s s' : σ}
    (h : forLoop next count (UInt64.ofNat start) s = .ok s') :
    acc s' = acc s + ((List.range' start count).map fun i => weight (UInt64.ofNat i)).sum := by
  induction count generalizing start s with
  | zero =>
    cases h
    simp
  | succ count ih =>
    rw [forLoop] at h
    split at h
    · cases h
    · rename_i s₁ hone
      rw [ofNat_succ] at h
      rw [ih (start + 1) h, hnext hone, List.range'_succ, List.map_cons, List.sum_cons, add_assoc]

/-- From 0 on. -/
theorem forLoop_sum_zero {γ : Type} [AddMonoid γ] (acc : σ → γ) (weight : UInt64 → γ)
    (hnext : ∀ {index s s'}, next index s = .ok s' → acc s' = acc s + weight index)
    {count : Nat} {s s' : σ} (hs : acc s = 0) (h : forLoop next count 0 s = .ok s') :
    acc s' = ((List.range count).map fun i => weight (UInt64.ofNat i)).sum := by
  rw [forLoop_sum acc weight hnext 0 h, hs, zero_add, List.range_eq_range']

/-- The sum of equal words. -/
theorem sum_range_const (n : Nat) (x : UInt64) :
    ((List.range n).map fun _ => x).sum = UInt64.ofNat n * x := by
  induction n with
  | zero =>
    show (0 : UInt64) = 0 * x
    rw [zero_mul]
  | succ n ih =>
    rw [List.range_succ, List.map_append, List.sum_append, ih, ← ofNat_succ, add_mul, one_mul]
    simp

end

/-! ## Folds over a range -/

section

variable {body : σ → Nat → Option σ} {P : Nat → σ → Prop} {n : Nat} {s : σ}

theorem foldlM_range_succ :
    (List.range (n + 1)).foldlM body s =
      ((List.range n).foldlM body s).bind fun t => body t n := by
  rw [List.range_succ, List.foldlM_append]
  simp only [Option.bind_eq_bind, List.foldlM_cons, List.foldlM_nil]
  cases (List.range n).foldlM body s with
  | none => rfl
  | some t =>
    show (body t n).bind pure = body t n
    cases body t n <;> rfl

/-- The passes matter only for the counters that occur. -/
theorem foldlM_range_congr {body' : σ → Nat → Option σ}
    (h : ∀ i s, i < n → body s i = body' s i) :
    (List.range n).foldlM body s = (List.range n).foldlM body' s := by
  induction n with
  | zero => rfl
  | succ n ih =>
    rw [foldlM_range_succ, foldlM_range_succ, ih fun i s hi => h i s (Nat.lt_succ_of_lt hi)]
    congr 1
    funext t
    exact h n t (Nat.lt_succ_self n)

/-- A loop whose passes come back and keep an invariant comes to its end. -/
theorem exists_foldlM_range
    (hstep : ∀ i s, i < n → P i s → ∃ t, body s i = some t ∧ P (i + 1) t) (hs : P 0 s) :
    ∃ t, (List.range n).foldlM body s = some t ∧ P n t := by
  induction n with
  | zero => exact ⟨s, rfl, hs⟩
  | succ n ih =>
    obtain ⟨t, hrun, ht⟩ := ih (fun i s hi => hstep i s (Nat.lt_succ_of_lt hi))
    obtain ⟨u, hone, hu⟩ := hstep n t (Nat.lt_succ_self n) ht
    refine ⟨u, ?_, hu⟩
    rw [foldlM_range_succ, hrun, Option.bind_some, hone]

/-- What the passes keep holds at the end of the loop. -/
theorem foldlM_range_inv (hstep : ∀ i s t, i < n → P i s → body s i = some t → P (i + 1) t)
    (hs : P 0 s) {t : σ} (h : (List.range n).foldlM body s = some t) : P n t := by
  induction n generalizing t with
  | zero =>
    cases h
    exact hs
  | succ n ih =>
    rw [foldlM_range_succ] at h
    obtain ⟨u, hrun, hone⟩ := Option.bind_eq_some_iff.mp h
    exact hstep n u t (Nat.lt_succ_self n)
      (ih (fun i s t hi => hstep i s t (Nat.lt_succ_of_lt hi)) hrun) hone

end

end DpuTest.Lib
