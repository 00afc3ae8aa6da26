import Mathlib.Data.List.Nodup
import Mathlib.Tactic.Common

/-!
# Stores under numbered keys

A `KeyedStore` is the history of what has been put under which key; a key
reads as what was put last.  `putAll` puts entries over what a function has; as
long as no key is put twice, every one of them reads back (`putAll_of_mem`).

Keys are often a name followed by a number.  `paddedDecimal` is the number with
leading zeros, and `append_cons_inj_right` splits a key behind the last
occurrence of a character that the number does not hold.
-/

namespace DpuTest.Lib

/-- What has been put, newest first. -/
structure KeyedStore (κ ν : Type) where
  writes : List (κ × ν) := []
  deriving DecidableEq

namespace KeyedStore

variable {κ ν : Type} [DecidableEq κ]

/-- Put a value under a key, in place of what is there. -/
def put (s : KeyedStore κ ν) (k : κ) (v : ν) : KeyedStore κ ν := { s with writes := (k, v) :: s.writes }

/-- What was put last under a key. -/
def get (s : KeyedStore κ ν) (k : κ) : Option ν := s.writes.lookup k

/-- Forget what has been put under a key. -/
def remove (s : KeyedStore κ ν) (k : κ) : KeyedStore κ ν where
  writes := s.writes.filter fun e => e.1 ≠ k

/-- The keys, one entry for each put. -/
def keys (s : KeyedStore κ ν) : List κ := s.writes.map Prod.fst

theorem get_put_self (s : KeyedStore κ ν) (k : κ) (v : ν) : (s.put k v).get k = some v :=
  List.lookup_cons_self

theorem get_put_of_ne (s : KeyedStore κ ν) {k k' : κ} (h : k' ≠ k) (v : ν) :
    (s.put k v).get k' = s.get k' := by
  rw [get, get, put, List.lookup_cons, beq_eq_false_iff_ne.mpr h]

theorem get_remove_self (s : KeyedStore κ ν) (k : κ) : (s.remove k).get k = none := by
  rw [get, remove, List.lookup_eq_none_iff]
  intro e he
  rw [bne_iff_ne]
  exact Ne.symm (by simpa using (List.mem_filter.mp he).2)

theorem get_remove_of_ne (s : KeyedStore κ ν) {k k' : κ} (h : k' ≠ k) :
    (s.remove k).get k' = s.get k' := by
  rw [get, get, remove]
  induction s.writes with
  | nil => rfl
  | cons e writes ih =>
    by_cases he : e.1 = k
    · have hne : (k' == e.1) = false := beq_eq_false_iff_ne.mpr (he ▸ h)
      rw [List.filter_cons_of_neg (by simpa using he), ih, List.lookup_cons, hne]
    · rw [List.filter_cons_of_pos (by simpa using he), List.lookup_cons, List.lookup_cons, ih]

theorem mem_keys_iff {s : KeyedStore κ ν} {k : κ} : k ∈ s.keys ↔ s.get k ≠ none := by
  rw [get, ne_eq, List.lookup_eq_none_iff, keys, List.mem_map]
  simp

end KeyedStore

section

variable {κ ν : Type} [DecidableEq κ] {entries : List (κ × ν)} {k : κ}

/-- The entries are put over what a function has, one after the other. -/
def putAll (f : κ → Option ν) (entries : List (κ × ν)) : κ → Option ν :=
  entries.foldl (fun f e => Function.update f e.1 (some e.2)) f

theorem putAll_cons (f : κ → Option ν) (e : κ × ν) (entries : List (κ × ν)) :
    putAll f (e :: entries) = putAll (Function.update f e.1 (some e.2)) entries := rfl

/-- Other keys keep what they had. -/
theorem putAll_of_notMem (f : κ → Option ν) (h : k ∉ entries.map Prod.fst) :
    putAll f entries k = f k := by
  induction entries generalizing f with
  | nil => rfl
  | cons e entries ih =>
    rw [List.map_cons, List.mem_cons, not_or] at h
    rw [putAll_cons, ih _ h.2, Function.update_of_ne h.1]

/-- Keys that are put once read back. -/
theorem putAll_of_mem (f : κ → Option ν) (hnodup : (entries.map Prod.fst).Nodup) {v : ν}
    (h : (k, v) ∈ entries) : putAll f entries k = some v := by
  induction entries generalizing f with
  | nil => cases h
  | cons e entries ih =>
    rw [List.map_cons, List.nodup_cons] at hnodup
    rw [putAll_cons]
    rcases List.mem_cons.mp h with rfl | h
    · rw [putAll_of_notMem _ hnodup.1, Function.update_self]
    · exact ih _ hnodup.2 h

end

/-! ## Numbered keys -/

/-- What follows the last occurrence of an entry is determined. -/
theorem append_cons_inj_right {α : Type} [DecidableEq α] {a : α} {xs ys us vs : List α}
    (hu : a ∉ us) (hv : a ∉ vs) (h : xs ++ a :: us = ys ++ a :: vs) : xs = ys ∧ us = vs := by
  have hall {ws : List α} (hw : a ∉ ws) : ∀ c ∈ ws.reverse, decide (c ≠ a) = true := by
    intro c hc
    rw [decide_eq_true_eq]
    rintro rfl
    exact hw (List.mem_reverse.mp hc)
  have hrev := congrArg List.reverse h
  simp only [List.reverse_append, List.reverse_cons, List.append_assoc, List.singleton_append]
    at hrev
  have htake := congrArg (List.takeWhile (fun c => decide (c ≠ a))) hrev
  rw [List.takeWhile_append_of_pos (hall hu), List.takeWhile_append_of_pos (hall hv),
    List.takeWhile_cons_of_neg (by simp), List.takeWhile_cons_of_neg (by simp), List.append_nil,
    List.append_nil] at htake
  have huv : us = vs := List.reverse_injective htake
  subst huv
  exact ⟨List.append_cancel_right h, rfl⟩

section

variable {κ ν : Type} (key : Nat → κ)

/-- The keys of values that are numbered from `i` on. -/
theorem map_fst_zipIdx (i : Nat) (values : List ν) :
    ((values.zipIdx i).map (fun v => (key v.2, v.1))).map Prod.fst =
      (List.range' i values.length).map key := by
  rw [List.map_map, ← List.zipIdx_map_snd i values, List.map_map]
  rfl

theorem nodup_numberedKeys (hkey : Function.Injective key) (i n : Nat) :
    ((List.range' i n).map key).Nodup := by
  have hrange : (List.range' i n).Nodup := List.nodup_range'
  exact hrange.map hkey

end

/-- A number in at least `width` digits. -/
def paddedDecimal (width n : Nat) : List Char :=
  List.replicate (width - (Nat.toDigits 10 n).length) '0' ++ Nat.toDigits 10 n

theorem paddedDecimal_inj {width m n : Nat}
    (h : paddedDecimal width m = paddedDecimal width n) : m = n := by
  have hvalue (k : Nat) : Nat.ofDigitChars 10 (paddedDecimal width k) 0 = k := by
    rw [paddedDecimal, Nat.ofDigitChars_append, Nat.ofDigitChars_replicate_zero, Nat.mul_zero,
      Nat.ofDigitChars_ten_toDigits]
  rw [← hvalue m, h, hvalue n]

theorem isDigit_of_mem_paddedDecimal {width n : Nat} {c : Char} (h : c ∈ paddedDecimal width n) :
    c.isDigit = true := by
  rcases List.mem_append.mp h with hz | hd
  · rw [List.eq_of_mem_replicate hz]
    rfl
  · exact Nat.isDigit_of_mem_toDigits (by decide) (by decide) hd

end DpuTest.Lib
