import DpuTest.Lib.Run
import Mathlib.Data.Finset.Basic
import Mathlib.Data.Finset.Lattice.Lemmas

/-!
# A ledger of created and destroyed objects

A C program owns objects through pointers.  The ledger is the list of what it
creates and of the pointers that it hands to destroy functions.  `ledgerStep`
replays one entry on the set of the objects that are alive: creating an object
that is alive, destroying one that is not, and destroying through a pointer that
was never set are the steps that cannot be taken.

* `ledger_count` reads a replayed ledger: what was created and is not alive any
  more was destroyed as often as it was created.
* `run_ledger_frame`: a ledger does nothing to objects that it does not create.
* `Settles` adds the order.  `dependsOn` says which objects need which others,
  and no object may be destroyed while one that needs it is alive.
* `Owner` is the state of such a program, its pointers beside its ledger.
-/

namespace DpuTest.Lib

/-- A pointer: `NULL`, the address of an object, or a value nobody set. -/
inductive Pointer (ι : Type) where
  | null
  | obj (o : ι)
  | wild
  deriving DecidableEq

/-- An entry of the ledger. -/
inductive LedgerEntry (ι : Type) where
  | create (o : ι)
  | destroy (p : Pointer ι)
  deriving DecidableEq

section Ledger

variable {ι : Type} [DecidableEq ι]

/-- What one entry does to the objects that are alive. -/
def ledgerStep (live : Finset ι) : LedgerEntry ι → Option (Finset ι)
  | .create o => if o ∈ live then none else some (insert o live)
  | .destroy .null => some live
  | .destroy (.obj o) => if o ∈ live then some (live.erase o) else none
  | .destroy .wild => none

/-- No object that is alive needs the one that the entry destroys. -/
def ChildrenFirst (dependsOn : ι → ι → Prop) (live : Finset ι) : LedgerEntry ι → Prop
  | .destroy (.obj o) => ∀ c ∈ live, ¬ dependsOn c o
  | _ => True

instance decidableChildrenFirst (dependsOn : ι → ι → Prop) [DecidableRel dependsOn]
    (live : Finset ι) : (e : LedgerEntry ι) → Decidable (ChildrenFirst dependsOn live e)
  | .create _ => .isTrue trivial
  | .destroy .null => .isTrue trivial
  | .destroy .wild => .isTrue trivial
  | .destroy (.obj o) => inferInstanceAs (Decidable (∀ c ∈ live, ¬ dependsOn c o))

/-- The entries for creating some objects, the first one first. -/
def created (objects : List ι) : List (LedgerEntry ι) :=
  objects.map .create

/-- The entries for destroying some objects, the first one first. -/
def destroyed (objects : List ι) : List (LedgerEntry ι) :=
  objects.map (fun o => .destroy (.obj o))

/-- Creating some objects and destroying them again, the last one first. -/
def unwind (objects : List ι) : List (LedgerEntry ι) :=
  created objects ++ destroyed objects.reverse

/-- The ledger leads from one set of live objects to another, and destroys no
object before those that need it. -/
structure Settles (dependsOn : ι → ι → Prop) (ledger : List (LedgerEntry ι))
    (live live' : Finset ι) : Prop where
  replays : run ledgerStep ledger live = some live'
  ordered : Guarded ledgerStep (ChildrenFirst dependsOn) ledger live

variable {dependsOn : ι → ι → Prop} {live live' : Finset ι} {ledger : List (LedgerEntry ι)}

@[simp] theorem ledgerStep_create {o : ι} (h : o ∉ live) :
    ledgerStep live (.create o) = some (insert o live) := by
  simp [ledgerStep, h]

@[simp] theorem ledgerStep_destroy {o : ι} (h : o ∈ live) :
    ledgerStep live (.destroy (.obj o)) = some (live.erase o) := by
  simp [ledgerStep, h]

@[simp] theorem ledgerStep_null : ledgerStep live (.destroy .null) = some live := rfl

/-- What a step does to the balance of one object. -/
theorem ledgerStep_count {e : LedgerEntry ι} (h : ledgerStep live e = some live') (o : ι) :
    (if o ∈ live then 1 else 0) + (if e = .create o then 1 else 0) =
      (if o ∈ live' then 1 else 0) + (if e = .destroy (.obj o) then 1 else 0) := by
  cases e with
  | create c =>
    rw [ledgerStep] at h
    split_ifs at h with hc
    cases h
    by_cases hco : c = o
    · subst hco
      simp [hc]
    · simp [hco, Ne.symm hco]
  | destroy p =>
    cases p with
    | null =>
      cases h
      simp
    | wild => cases h
    | obj c =>
      rw [ledgerStep] at h
      split_ifs at h with hc
      cases h
      by_cases hco : c = o
      · subst hco
        simp [hc]
      · simp [hco, Ne.symm hco]

/-- In a ledger that can be replayed, the objects that are alive in the end are
those that were alive or were created, less the destroyed ones. -/
theorem ledger_count (h : run ledgerStep ledger live = some live') (o : ι) :
    (if o ∈ live then 1 else 0) + ledger.count (.create o) =
      (if o ∈ live' then 1 else 0) + ledger.count (.destroy (.obj o)) := by
  induction ledger generalizing live with
  | nil =>
    cases h
    simp
  | cons e ledger ih =>
    obtain ⟨next, hstep, hrest⟩ := exists_of_run_cons h
    have hone := ledgerStep_count hstep o
    have hmany := ih hrest
    simp only [List.count_cons, beq_iff_eq]
    omega

/-- A pointer that was never set cannot be destroyed. -/
theorem run_of_wild (h : .destroy .wild ∈ ledger) (live : Finset ι) :
    run ledgerStep ledger live = none := by
  induction ledger generalizing live with
  | nil => cases h
  | cons e ledger ih =>
    rw [run]
    cases hstep : ledgerStep live e with
    | none => rfl
    | some next =>
      rcases List.mem_cons.mp h with rfl | hrest
      · cases hstep
      · exact ih hrest next

/-- A step beside objects that it does not create. -/
theorem ledgerStep_frame {other : Finset ι} {e : LedgerEntry ι}
    (h : ledgerStep live e = some live') (hdisjoint : Disjoint live other)
    (hfresh : ∀ o ∈ other, e ≠ .create o) :
    ledgerStep (live ∪ other) e = some (live' ∪ other) ∧ Disjoint live' other := by
  cases e with
  | create o =>
    have hother : o ∉ other := fun ho => hfresh o ho rfl
    rw [ledgerStep] at h
    split_ifs at h with hlive
    cases h
    rw [ledgerStep, if_neg (by simp [hlive, hother]), Finset.insert_union,
      Finset.disjoint_insert_left]
    exact ⟨rfl, hother, hdisjoint⟩
  | destroy p =>
    cases p with
    | null =>
      cases h
      exact ⟨rfl, hdisjoint⟩
    | wild => cases h
    | obj o =>
      rw [ledgerStep] at h
      split_ifs at h with hlive
      cases h
      have hother : o ∉ other := Finset.disjoint_left.mp hdisjoint hlive
      rw [ledgerStep, if_pos (Finset.mem_union_left other hlive), Finset.erase_union_distrib,
        Finset.erase_eq_of_notMem hother]
      exact ⟨rfl, hdisjoint.mono_left (Finset.erase_subset o live)⟩

/-- Objects that the ledger does not create stay as they are. -/
theorem run_ledger_frame {other : Finset ι} (h : run ledgerStep ledger live = some live')
    (hdisjoint : Disjoint live other) (hfresh : ∀ o ∈ other, .create o ∉ ledger) :
    run ledgerStep ledger (live ∪ other) = some (live' ∪ other) := by
  induction ledger generalizing live with
  | nil =>
    cases h
    rfl
  | cons e ledger ih =>
    obtain ⟨next, hstep, hrest⟩ := exists_of_run_cons h
    obtain ⟨hframed, hnext⟩ := ledgerStep_frame hstep hdisjoint
      (fun o ho he => hfresh o ho (he ▸ List.mem_cons_self))
    rw [run_cons_of_some ledger hframed]
    exact ih hrest hnext (fun o ho hmem => hfresh o ho (List.mem_cons_of_mem e hmem))

end Ledger

section Owner

variable {ι : Type} [DecidableEq ι]

/-- A program that owns objects: where its pointers lead, and its ledger. -/
structure Owner (ι : Type) where
  ptr : ι → Pointer ι
  ledger : List (LedgerEntry ι)

/-- A create function succeeded and has set the pointer. -/
def Owner.acquire (m : Owner ι) (o : ι) : Owner ι where
  ptr := Function.update m.ptr o (.obj o)
  ledger := m.ledger ++ [.create o]

/-- A destroy function is called with the pointer. -/
def Owner.release (m : Owner ι) (o : ι) : Owner ι :=
  { m with ledger := m.ledger ++ [.destroy (m.ptr o)] }

/-- `o = NULL`. -/
def Owner.forget (m : Owner ι) (o : ι) : Owner ι :=
  { m with ptr := Function.update m.ptr o .null }

/-- Memory that holds these pointers was allocated and is not set. -/
def Owner.scramble (m : Owner ι) (fields : List ι) : Owner ι :=
  { m with ptr := fun o => if o ∈ fields then .wild else m.ptr o }

variable (m : Owner ι) (o c : ι)

@[simp] theorem Owner.acquire_ptr :
    (m.acquire o).ptr c = if c = o then .obj o else m.ptr c := by
  simp [Owner.acquire, Function.update_apply]

@[simp] theorem Owner.acquire_ledger : (m.acquire o).ledger = m.ledger ++ [.create o] := rfl

omit [DecidableEq ι] in
@[simp] theorem Owner.release_ptr : (m.release o).ptr = m.ptr := rfl

omit [DecidableEq ι] in
@[simp] theorem Owner.release_ledger :
    (m.release o).ledger = m.ledger ++ [.destroy (m.ptr o)] := rfl

@[simp] theorem Owner.forget_ptr :
    (m.forget o).ptr c = if c = o then .null else m.ptr c := by
  simp [Owner.forget, Function.update_apply]

@[simp] theorem Owner.forget_ledger : (m.forget o).ledger = m.ledger := rfl

@[simp] theorem Owner.scramble_ptr (fields : List ι) :
    (m.scramble fields).ptr c = if c ∈ fields then .wild else m.ptr c := rfl

@[simp] theorem Owner.scramble_ledger (fields : List ι) :
    (m.scramble fields).ledger = m.ledger := rfl

/-- Acquiring some objects, the first one first. -/
theorem Owner.foldl_acquire_ledger (objects : List ι) (m : Owner ι) :
    (objects.foldl Owner.acquire m).ledger = m.ledger ++ created objects := by
  induction objects generalizing m with
  | nil => simp [created]
  | cons c objects ih =>
    rw [List.foldl_cons, ih]
    simp [created]

theorem Owner.foldl_acquire_ptr (objects : List ι) (m : Owner ι) (o : ι) :
    (objects.foldl Owner.acquire m).ptr o = if o ∈ objects then .obj o else m.ptr o := by
  induction objects generalizing m with
  | nil => simp
  | cons c objects ih =>
    rw [List.foldl_cons, ih]
    by_cases hin : o ∈ objects
    · simp [hin]
    · by_cases hoc : o = c
      · simp [hoc]
      · simp [hin, hoc]

theorem Owner.foldl_forget_ledger (objects : List ι) (m : Owner ι) :
    (objects.foldl Owner.forget m).ledger = m.ledger := by
  induction objects generalizing m with
  | nil => rfl
  | cons c objects ih =>
    rw [List.foldl_cons, ih]
    rfl

theorem Owner.foldl_forget_ptr (objects : List ι) (m : Owner ι) (o : ι) :
    (objects.foldl Owner.forget m).ptr o = if o ∈ objects then .null else m.ptr o := by
  induction objects generalizing m with
  | nil => simp
  | cons c objects ih =>
    rw [List.foldl_cons, ih]
    by_cases hin : o ∈ objects
    · simp [hin]
    · by_cases hoc : o = c
      · simp [hoc]
      · simp [hin, hoc]

end Owner

end DpuTest.Lib
