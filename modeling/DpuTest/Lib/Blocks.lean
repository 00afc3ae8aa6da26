import Mathlib.Data.List.Induction
import Mathlib.Data.List.Pairwise
import Mathlib.Tactic.Common

/-!
# Blocks of a sequence of flags

A block of a list of flags is a stretch of positions `i, …, j - 1` that are up, in
front of which the list starts or a flag is down.  It is closed if the flag at `j` is
down, and open if the list ends at `j`.  Blocks with one end are the same
(`Block.start_unique`), so that at most one is open.

`ClosedBlocks flags es` says that `es` lists the closed blocks from left to right.  The
lemmas about `flags ++ [b]` say what one more flag does to the closed blocks and to the
open one.
-/

namespace DpuTest.Lib

/-- The flags from `i` on are up until `j`, and the one before `i` is not. -/
structure Block (flags : List Bool) (i j : Nat) : Prop where
  lt : i < j
  up : ∀ k, i ≤ k → k < j → flags[k]? = some true
  start : ∀ k, k + 1 = i → flags[k]? = some false

/-- A block that a lowered flag ends. -/
structure ClosedBlock (flags : List Bool) (i j : Nat) : Prop extends Block flags i j where
  down : flags[j]? = some false

/-- A block that goes on to the end of the list. -/
def OpenBlock (flags : List Bool) (i : Nat) : Prop := Block flags i flags.length

/-- The closed blocks, from left to right. -/
structure ClosedBlocks (flags : List Bool) (es : List (Nat × Nat)) : Prop where
  mem_iff : ∀ e : Nat × Nat, e ∈ es ↔ ClosedBlock flags e.1 e.2
  sorted : es.Pairwise (fun e f => e.2 < f.1)

variable {flags : List Bool} {b : Bool} {es : List (Nat × Nat)} {i i' j k : Nat}

theorem getElem?_concat_eq_some_iff {v : Bool} :
    (flags ++ [b])[k]? = some v ↔ flags[k]? = some v ∨ k = flags.length ∧ b = v := by
  rcases Nat.lt_trichotomy k flags.length with hlt | heq | hgt
  · rw [List.getElem?_append_left hlt]
    simp [Nat.ne_of_lt hlt]
  · subst heq
    simp
  · rw [List.getElem?_eq_none (by simp; omega), List.getElem?_eq_none (by omega)]
    simp [Nat.ne_of_gt hgt]

theorem lt_length_of_getElem? {v : Bool} (h : flags[k]? = some v) : k < flags.length :=
  (List.getElem?_eq_some_iff.mp h).1

theorem Block.le_length (h : Block flags i j) : j ≤ flags.length := by
  have hlt := h.lt
  have hlast := lt_length_of_getElem? (h.up (j - 1) (by omega) (by omega))
  omega

/-- One more flag does not change the blocks up to it. -/
theorem block_concat_iff (h : j ≤ flags.length) : Block (flags ++ [b]) i j ↔ Block flags i j := by
  have hget : ∀ k, k < j → ∀ v, (flags ++ [b])[k]? = some v ↔ flags[k]? = some v := by
    intro k hk v
    rw [List.getElem?_append_left (by omega)]
  constructor
  · intro hblock
    have hlt := hblock.lt
    exact
      { lt := hlt
        up := fun k hik hkj => (hget k hkj true).mp (hblock.up k hik hkj)
        start := fun k hk => (hget k (by omega) false).mp (hblock.start k hk) }
  · intro hblock
    have hlt := hblock.lt
    exact
      { lt := hlt
        up := fun k hik hkj => (hget k hkj true).mpr (hblock.up k hik hkj)
        start := fun k hk => (hget k (by omega) false).mpr (hblock.start k hk) }

/-- Two blocks with the same end are one. -/
theorem Block.start_unique (h : Block flags i j) (h' : Block flags i' j) : i = i' := by
  have hlt := h.lt
  have hlt' := h'.lt
  rcases Nat.lt_trichotomy i i' with hi | hi | hi
  · have hup := h.up (i' - 1) (by omega) (by omega)
    rw [h'.start (i' - 1) (by omega)] at hup
    cases hup
  · exact hi
  · have hup := h'.up (i - 1) (by omega) (by omega)
    rw [h.start (i - 1) (by omega)] at hup
    cases hup

theorem not_openBlock_nil : ¬ OpenBlock [] i := fun h => Nat.not_lt_zero i h.lt

/-! ## One more flag -/

/-- A raised flag goes on with the open block. -/
theorem OpenBlock.concat (h : OpenBlock flags i) : OpenBlock (flags ++ [true]) i := by
  have hlt := h.lt
  have hlength : (flags ++ [true]).length = flags.length + 1 := by simp
  refine
    { lt := by omega
      up := fun k hik hk => getElem?_concat_eq_some_iff.mpr ?_
      start := fun k hk => getElem?_concat_eq_some_iff.mpr (Or.inl (h.start k hk)) }
  by_cases hlast : k = flags.length
  · exact Or.inr ⟨hlast, rfl⟩
  · exact Or.inl (h.up k hik (by omega))

theorem openBlock_concat_of_down (h : ∀ k, k + 1 = flags.length → flags[k]? = some false) :
    OpenBlock (flags ++ [true]) flags.length := by
  have hlength : (flags ++ [true]).length = flags.length + 1 := by simp
  exact
    { lt := by omega
      up := fun k hle hk => getElem?_concat_eq_some_iff.mpr (Or.inr ⟨by omega, rfl⟩)
      start := fun k hk => getElem?_concat_eq_some_iff.mpr (Or.inl (h k hk)) }

/-- A raised flag at the end is part of an open block. -/
theorem down_of_not_openBlock (h : ∀ i, ¬ OpenBlock flags i) :
    ∀ k, k + 1 = flags.length → flags[k]? = some false := by
  induction flags using List.reverseRecOn with
  | nil => exact fun k hk => absurd hk (Nat.succ_ne_zero k)
  | append_singleton flags b ih =>
    intro k hk
    have hlast : k = flags.length := by simpa using hk
    refine getElem?_concat_eq_some_iff.mpr (Or.inr ⟨hlast, ?_⟩)
    cases b with
    | false => rfl
    | true =>
      have hnone : ∀ i, ¬ OpenBlock flags i := fun i hopen => h i hopen.concat
      exact absurd (openBlock_concat_of_down (ih hnone)) (h _)

/-- Without an open block a raised flag starts one. -/
theorem openBlock_concat_of_not (h : ∀ i, ¬ OpenBlock flags i) :
    OpenBlock (flags ++ [true]) flags.length :=
  openBlock_concat_of_down (down_of_not_openBlock h)

/-- A lowered flag leaves no block open. -/
theorem not_openBlock_concat : ¬ OpenBlock (flags ++ [false]) i := by
  intro h
  have hlength : (flags ++ [false]).length = flags.length + 1 := by simp
  have hlt := h.lt
  have hup := h.up flags.length (by omega) (by omega)
  simp at hup

theorem closedBlock_concat_iff : ClosedBlock (flags ++ [b]) i j ↔
    ClosedBlock flags i j ∨ j = flags.length ∧ b = false ∧ OpenBlock flags i := by
  constructor
  · intro h
    rcases getElem?_concat_eq_some_iff.mp h.down with hdown | ⟨rfl, hb⟩
    · have hle : j ≤ flags.length := Nat.le_of_lt (lt_length_of_getElem? hdown)
      exact Or.inl ⟨(block_concat_iff hle).mp h.toBlock, hdown⟩
    · exact Or.inr ⟨rfl, hb, (block_concat_iff (Nat.le_refl _)).mp h.toBlock⟩
  · rintro (h | ⟨rfl, rfl, h⟩)
    · exact ⟨(block_concat_iff h.toBlock.le_length).mpr h.toBlock,
        getElem?_concat_eq_some_iff.mpr (Or.inl h.down)⟩
    · exact ⟨(block_concat_iff (Nat.le_refl _)).mpr h,
        getElem?_concat_eq_some_iff.mpr (Or.inr ⟨rfl, rfl⟩)⟩

namespace ClosedBlocks

theorem nil : ClosedBlocks [] [] where
  mem_iff e := by
    constructor
    · intro h
      cases h
    · intro h
      cases h.down
  sorted := List.Pairwise.nil

/-- With a raised flag, or without an open block, no block is closed. -/
theorem concat (h : ClosedBlocks flags es) (hnone : b = false → ∀ i, ¬ OpenBlock flags i) :
    ClosedBlocks (flags ++ [b]) es where
  mem_iff e := by
    rw [h.mem_iff, closedBlock_concat_iff]
    constructor
    · exact Or.inl
    · rintro (hclosed | ⟨-, hb, hopen⟩)
      · exact hclosed
      · exact absurd hopen (hnone hb e.1)
  sorted := h.sorted

/-- A lowered flag closes the open block. -/
theorem close (h : ClosedBlocks flags es) (hopen : OpenBlock flags i) :
    ClosedBlocks (flags ++ [false]) (es ++ [(i, flags.length)]) where
  mem_iff e := by
    rw [List.mem_append, List.mem_singleton, h.mem_iff, closedBlock_concat_iff]
    refine or_congr_right ⟨?_, ?_⟩
    · rintro rfl
      exact ⟨rfl, rfl, hopen⟩
    · rintro ⟨hj, -, hopen'⟩
      exact Prod.ext (Block.start_unique hopen' hopen) hj
  sorted := by
    refine List.pairwise_append.mpr ⟨h.sorted, List.pairwise_singleton _ _, fun e he f hf => ?_⟩
    rw [List.mem_singleton.mp hf]
    have hclosed := (h.mem_iff e).mp he
    have hlt := lt_length_of_getElem? hclosed.down
    -- The flag behind `e` is down, and those from `i` on are up.
    refine Nat.lt_of_not_le fun hle => ?_
    have hup := hopen.up e.2 hle hlt
    rw [hclosed.down] at hup
    cases hup

end ClosedBlocks

end DpuTest.Lib
