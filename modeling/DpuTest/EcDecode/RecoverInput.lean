import DpuTest.EcEncode.DpuProxy

/-!
# The input of a recover task

`ec_compare.c` loses some chunks of a codeword and has the device recover them.
A recover task wants exactly `K` surviving chunks in codeword order, and with
them the indices of the holes that it passed on the way: the missing data, and
the missing parity before the last survivor that is used.

`prepareRecoverInput_spec` says that `prepare_recover_input` finds both for every
loss of at most `P` chunks, and `dataMissing_prefix_holes` that the missing data
come first, which is why the caller may read them off the start of the output.
-/

namespace DpuTest.EcDecode

open Lib EcEncode

/-- `struct loss_case`: the missing chunks of a codeword in ascending order. -/
structure LossCase (shape : EcShape) where
  missing : List Nat
  sorted : missing.Pairwise (· < ·)
  lt_total : ∀ i ∈ missing, i < shape.k + shape.m
  length_le : missing.length ≤ shape.m

/-- The data blocks of a codeword. -/
abbrev DataBlocks (shape : EcShape) := Buffer UInt8 (shape.k * shape.blockSize)

/-- The parity blocks of a codeword. -/
abbrev ParityBlocks (shape : EcShape) := Buffer UInt8 (shape.m * shape.blockSize)

section

variable {shape : EcShape}

/-- `case_has_missing`. -/
def LossCase.hasMissing (c : LossCase shape) (index : Nat) : Bool := decide (index ∈ c.missing)

/-- The data chunks of a list of chunks. -/
def dataIndices (shape : EcShape) (indices : List Nat) : List Nat :=
  indices.filter (· < shape.k)

theorem dataIndices_cons_of_lt {index : Nat} (indices : List Nat) (h : index < shape.k) :
    dataIndices shape (index :: indices) = index :: dataIndices shape indices :=
  List.filter_cons_of_pos (decide_eq_true h)

theorem dataIndices_cons_of_ge {index : Nat} (indices : List Nat) (h : shape.k ≤ index) :
    dataIndices shape (index :: indices) = dataIndices shape indices := by
  apply List.filter_cons_of_neg
  rw [decide_eq_true_eq]
  exact Nat.not_lt_of_le h

/-- The missing data chunks. -/
def LossCase.dataMissing (c : LossCase shape) : List Nat := dataIndices shape c.missing

/-- `count_missing_data`. -/
def LossCase.countMissingData (c : LossCase shape) : Nat := c.dataMissing.length

/-- `count_missing_parity`. -/
def LossCase.countMissingParity (c : LossCase shape) : Nat :=
  c.missing.length - c.countMissingData

/-- The block that `chunk_ptr` points to. -/
def chunk (data : DataBlocks shape) (parity : ParityBlocks shape) (index : Nat) : List UInt8 :=
  if index < shape.k then data.segment shape.blockSize index
  else parity.segment shape.blockSize (index - shape.k)

/-- `memcpy(recover_src + slot * block_size, chunk_ptr(…), block_size)`. -/
def copyChunk (data : DataBlocks shape) (parity : ParityBlocks shape) (index slot : Nat)
    (recoverSrc : DataBlocks shape) : Option (DataBlocks shape) :=
  if index < shape.k then
    recoverSrc.copy (slot * shape.blockSize) data (index * shape.blockSize) shape.blockSize
  else
    recoverSrc.copy (slot * shape.blockSize) parity ((index - shape.k) * shape.blockSize)
      shape.blockSize

/-- The local variables of the loop; the array `matrix_missing` up to its count. -/
structure PrepareState (shape : EcShape) where
  availableCount : Nat
  matrixMissing : List Nat
  recoverSrc : DataBlocks shape

/-- The loop with `count` indices to go.  `none` is a write behind the end of
`matrix_missing` or of a buffer. -/
def prepareFrom (c : LossCase shape) (data : DataBlocks shape) (parity : ParityBlocks shape) :
    Nat → Nat → PrepareState shape → Option (PrepareState shape)
  | 0, _, p => some p
  | count + 1, index, p =>
    if p.availableCount < shape.k then
      if c.hasMissing index then
        if p.matrixMissing.length < shape.m then
          prepareFrom c data parity count (index + 1)
            { p with matrixMissing := p.matrixMissing ++ [index] }
        else none
      else
        match copyChunk data parity index p.availableCount p.recoverSrc with
        | none => none
        | some recoverSrc =>
          prepareFrom c data parity count (index + 1)
            { p with recoverSrc := recoverSrc, availableCount := p.availableCount + 1 }
    else some p

/-- `prepare_recover_input`: `recover_src` and the indices in `matrix_missing`. -/
def prepareRecoverInput (c : LossCase shape) (data : DataBlocks shape)
    (parity : ParityBlocks shape) (recoverSrc : DataBlocks shape) :
    Option (DataBlocks shape × List Nat) :=
  (prepareFrom c data parity (shape.k + shape.m) 0 ⟨0, [], recoverSrc⟩).map
    fun p => (p.recoverSrc, p.matrixMissing)

/-! ## Survivors and holes -/

namespace LossCase

variable (c : LossCase shape)

/-- The surviving chunks below an index. -/
def survivorsBelow (index : Nat) : List Nat :=
  (List.range index).filter (fun i => !c.hasMissing i)

/-- The first `K` surviving chunks. -/
def survivors : List Nat := (c.survivorsBelow (shape.k + shape.m)).take shape.k

/-- The missing chunks that are passed before the `K`-th survivor. -/
def holes : List Nat := c.missing.filter (fun i => (c.survivorsBelow i).length < shape.k)

/-- The missing chunks below an index. -/
def missingBelow (index : Nat) : List Nat := (List.range index).filter c.hasMissing

theorem nodup : c.missing.Nodup := c.sorted.imp Nat.ne_of_lt

theorem survivorsBelow_succ_of_missing {index : Nat} (h : c.hasMissing index = true) :
    c.survivorsBelow (index + 1) = c.survivorsBelow index := by
  rw [survivorsBelow, List.range_succ, List.filter_append, survivorsBelow]
  simp [h]

theorem survivorsBelow_succ_of_surviving {index : Nat} (h : c.hasMissing index = false) :
    c.survivorsBelow (index + 1) = c.survivorsBelow index ++ [index] := by
  rw [survivorsBelow, List.range_succ, List.filter_append, survivorsBelow]
  simp [h]

theorem missingBelow_succ_of_missing {index : Nat} (h : c.hasMissing index = true) :
    c.missingBelow (index + 1) = c.missingBelow index ++ [index] := by
  rw [missingBelow, List.range_succ, List.filter_append, missingBelow]
  simp [h]

theorem missingBelow_succ_of_surviving {index : Nat} (h : c.hasMissing index = false) :
    c.missingBelow (index + 1) = c.missingBelow index := by
  rw [missingBelow, List.range_succ, List.filter_append, missingBelow]
  simp [h]

theorem survivorsBelow_prefix {i j : Nat} (h : i ≤ j) :
    c.survivorsBelow i <+: c.survivorsBelow j := by
  induction j with
  | zero =>
    rw [Nat.le_zero.mp h]
  | succ j ih =>
    rcases Nat.lt_or_eq_of_le h with hlt | heq
    · have hpre := ih (Nat.lt_succ_iff.mp hlt)
      cases hj : c.hasMissing j with
      | true =>
        rw [c.survivorsBelow_succ_of_missing hj]
        exact hpre
      | false =>
        rw [c.survivorsBelow_succ_of_surviving hj]
        exact hpre.trans (List.prefix_append _ _)
    · rw [heq]

theorem survivorsBelow_length_mono {i j : Nat} (h : i ≤ j) :
    (c.survivorsBelow i).length ≤ (c.survivorsBelow j).length :=
  (c.survivorsBelow_prefix h).length_le

theorem survivorsBelow_length_le (index : Nat) : (c.survivorsBelow index).length ≤ index := by
  have hle := List.length_filter_le (fun i => !c.hasMissing i) (List.range index)
  rw [List.length_range] at hle
  exact hle

theorem missingBelow_length_le (index : Nat) :
    (c.missingBelow index).length ≤ c.missing.length := by
  apply List.Subperm.length_le
  apply List.subperm_of_subset (List.nodup_range.filter _)
  intro i hi
  have hmem := (List.mem_filter.mp hi).2
  simp only [hasMissing, decide_eq_true_eq] at hmem
  exact hmem

/-- Every index below is missing or surviving. -/
theorem length_survivorsBelow_add (index : Nat) :
    (c.survivorsBelow index).length + (c.missingBelow index).length = index := by
  induction index with
  | zero => rfl
  | succ index ih =>
    cases h : c.hasMissing index with
    | true =>
      rw [c.survivorsBelow_succ_of_missing h, c.missingBelow_succ_of_missing h,
        List.length_append, List.length_singleton]
      omega
    | false =>
      rw [c.survivorsBelow_succ_of_surviving h, c.missingBelow_succ_of_surviving h,
        List.length_append, List.length_singleton]
      omega

/-- There are `K` survivors. -/
theorem le_length_survivorsBelow :
    shape.k ≤ (c.survivorsBelow (shape.k + shape.m)).length := by
  have hadd := c.length_survivorsBelow_add (shape.k + shape.m)
  have hle := c.missingBelow_length_le (shape.k + shape.m)
  have hmax := c.length_le
  omega

@[simp] theorem length_survivors : c.survivors.length = shape.k := by
  rw [survivors, List.length_take]
  exact Nat.min_eq_left c.le_length_survivorsBelow

/-- A prefix of the survivors that has `K` of them is all that are used. -/
theorem survivors_eq {index : Nat} (hle : index ≤ shape.k + shape.m)
    (hlen : (c.survivorsBelow index).length = shape.k) :
    c.survivorsBelow index = c.survivors := by
  obtain ⟨rest, hrest⟩ := c.survivorsBelow_prefix hle
  rw [survivors, ← hrest, ← hlen, List.take_left]

/-- The survivors used are in ascending order, and none of them is missing. -/
theorem survivors_sorted : c.survivors.Pairwise (· < ·) :=
  (List.pairwise_lt_range.filter _).sublist (List.take_sublist _ _)

theorem notMem_of_mem_survivors {i : Nat} (h : i ∈ c.survivors) :
    i < shape.k + shape.m ∧ i ∉ c.missing := by
  obtain ⟨hrange, hmissing⟩ := List.mem_filter.mp (List.mem_of_mem_take h)
  refine ⟨List.mem_range.mp hrange, ?_⟩
  simp only [hasMissing, Bool.not_eq_true', decide_eq_false_iff_not] at hmissing
  exact hmissing

/-- At most `P` indices are returned. -/
theorem length_holes_le : c.holes.length ≤ shape.m :=
  Nat.le_trans (List.length_filter_le _ _) c.length_le

/-- The missing chunks below an index, off the sorted list. -/
theorem missingBelow_eq (index : Nat) :
    c.missingBelow index = c.missing.filter (fun i => i < index) := by
  have hleft : (c.missingBelow index).Pairwise (· < ·) := List.pairwise_lt_range.filter _
  have hright : (c.missing.filter (fun i => i < index)).Pairwise (· < ·) := c.sorted.filter _
  have hperm : List.Perm (c.missingBelow index) (c.missing.filter (fun i => i < index)) := by
    apply (List.perm_ext_iff_of_nodup (List.nodup_range.filter _) (c.nodup.filter _)).mpr
    intro i
    simp only [List.mem_filter, List.mem_range, hasMissing, decide_eq_true_eq]
    exact And.comm
  exact hperm.eq_of_pairwise (fun a b _ _ hab hba => absurd hab (Nat.lt_asymm hba)) hleft hright

/-- The holes when the loop stops in front of an index. -/
theorem missingBelow_eq_holes {index : Nat}
    (hbelow : ∀ i, i < index → (c.survivorsBelow i).length < shape.k)
    (hlen : shape.k ≤ (c.survivorsBelow index).length) : c.missingBelow index = c.holes := by
  rw [c.missingBelow_eq, holes]
  apply List.filter_congr
  intro i _
  by_cases hi : i < index
  · simp only [hi, hbelow i hi]
  · have hmono := c.survivorsBelow_length_mono (Nat.le_of_not_lt hi)
    have hnot : ¬ (c.survivorsBelow i).length < shape.k := by omega
    simp only [hi, hnot]

end LossCase

/-- Filtering a sorted list by a condition that fails from some entry on. -/
theorem filter_eq_takeWhile {p : Nat → Bool} (hp : ∀ i j, i < j → p j = true → p i = true) :
    ∀ {l : List Nat}, l.Pairwise (· < ·) → l.filter p = l.takeWhile p
  | [], _ => rfl
  | i :: l, h => by
    rw [List.pairwise_cons] at h
    cases hi : p i with
    | true => rw [List.filter_cons_of_pos hi, List.takeWhile_cons_of_pos hi,
        filter_eq_takeWhile hp h.2]
    | false =>
      have hnone : l.filter p = [] := by
        rw [List.filter_eq_nil_iff]
        intro j hj hpj
        rw [hp i j (h.1 j hj) hpj] at hi
        cases hi
      have hneg : ¬ p i = true := by
        rw [hi]
        decide
      rw [List.filter_cons_of_neg hneg, List.takeWhile_cons_of_neg hneg, hnone]

theorem takeWhile_prefix_takeWhile {p q : Nat → Bool} (h : ∀ i, p i = true → q i = true)
    (l : List Nat) : l.takeWhile p <+: l.takeWhile q := by
  induction l with
  | nil => exact List.prefix_rfl
  | cons i l ih =>
    by_cases hi : p i = true
    · rw [List.takeWhile_cons_of_pos hi, List.takeWhile_cons_of_pos (h i hi)]
      exact List.cons_prefix_cons.mpr ⟨rfl, ih⟩
    · rw [List.takeWhile_cons_of_neg hi]
      exact List.nil_prefix

/-- The missing data come first among the holes. -/
theorem LossCase.dataMissing_prefix_holes (c : LossCase shape) : c.dataMissing <+: c.holes := by
  have hdata : c.dataMissing = c.missing.takeWhile (fun i => decide (i < shape.k)) := by
    apply filter_eq_takeWhile _ c.sorted
    intro i j hij hj
    rw [decide_eq_true_eq] at hj ⊢
    omega
  have hholes : c.holes = c.missing.takeWhile
      (fun i => decide ((c.survivorsBelow i).length < shape.k)) := by
    apply filter_eq_takeWhile _ c.sorted
    intro i j hij hj
    have hmono := c.survivorsBelow_length_mono (Nat.le_of_lt hij)
    rw [decide_eq_true_eq] at hj ⊢
    omega
  rw [hdata, hholes]
  apply takeWhile_prefix_takeWhile
  intro i hi
  have hle := c.survivorsBelow_length_le i
  rw [decide_eq_true_eq] at hi ⊢
  omega

/-! ## The loop -/

variable {c : LossCase shape} {data : DataBlocks shape} {parity : ParityBlocks shape}

theorem copyChunk_inv {index slot : Nat} {src src' : DataBlocks shape}
    (h : copyChunk data parity index slot src = some src') :
    src'.segment shape.blockSize slot = chunk data parity index ∧
      ∀ j, j ≠ slot → src'.segment shape.blockSize j = src.segment shape.blockSize j := by
  unfold copyChunk at h
  unfold chunk
  by_cases hi : index < shape.k
  · rw [if_pos hi] at h ⊢
    exact Buffer.segment_copy h
  · rw [if_neg hi] at h ⊢
    exact Buffer.segment_copy h

theorem exists_copyChunk (data : DataBlocks shape) (parity : ParityBlocks shape)
    (src : DataBlocks shape) {index slot : Nat} (hindex : index < shape.k + shape.m)
    (hslot : slot < shape.k) : ∃ src', copyChunk data parity index slot src = some src' := by
  have hdst := Buffer.segment_bound shape.blockSize hslot
  unfold copyChunk
  by_cases hi : index < shape.k
  · rw [if_pos hi]
    exact Buffer.copy_eq_some src data (Buffer.segment_bound shape.blockSize hi) hdst
  · rw [if_neg hi]
    have hparity : index - shape.k < shape.m := by omega
    exact Buffer.copy_eq_some src parity (Buffer.segment_bound shape.blockSize hparity) hdst

/-- The state of the loop in front of an index. -/
structure Prepared (c : LossCase shape) (data : DataBlocks shape) (parity : ParityBlocks shape)
    (index : Nat) (p : PrepareState shape) : Prop where
  available_eq : p.availableCount = (c.survivorsBelow index).length
  available_le : p.availableCount ≤ shape.k
  missing_eq : p.matrixMissing = c.missingBelow index
  src_eq : ∀ t i, (c.survivorsBelow index)[t]? = some i →
    p.recoverSrc.segment shape.blockSize t = chunk data parity i
  below : ∀ i, i < index → (c.survivorsBelow i).length < shape.k

/-- A pass starts with fewer than `K` survivors. -/
theorem Prepared.below_succ {index : Nat} {p : PrepareState shape}
    (h : Prepared c data parity index p) (hlt : p.availableCount < shape.k) {i : Nat}
    (hi : i < index + 1) : (c.survivorsBelow i).length < shape.k := by
  rcases Nat.lt_or_eq_of_le (Nat.lt_succ_iff.mp hi) with hold | hnew
  · exact h.below i hold
  · rw [hnew, ← h.available_eq]
    exact hlt

/-- The pass that meets a missing chunk. -/
theorem Prepared.missing {index : Nat} {p : PrepareState shape}
    (h : Prepared c data parity index p) (hlt : p.availableCount < shape.k)
    (hmiss : c.hasMissing index = true) :
    Prepared c data parity (index + 1)
      { p with matrixMissing := p.matrixMissing ++ [index] } where
  available_eq := by
    rw [c.survivorsBelow_succ_of_missing hmiss]
    exact h.available_eq
  available_le := h.available_le
  missing_eq := by
    rw [c.missingBelow_succ_of_missing hmiss, h.missing_eq]
  src_eq := by
    rw [c.survivorsBelow_succ_of_missing hmiss]
    exact h.src_eq
  below _ hi := h.below_succ hlt hi

/-- The pass that copies a survivor. -/
theorem Prepared.surviving {index : Nat} {p : PrepareState shape} {recoverSrc : DataBlocks shape}
    (h : Prepared c data parity index p) (hlt : p.availableCount < shape.k)
    (hmiss : c.hasMissing index = false)
    (hcopy : copyChunk data parity index p.availableCount p.recoverSrc = some recoverSrc) :
    Prepared c data parity (index + 1)
      { p with recoverSrc := recoverSrc, availableCount := p.availableCount + 1 } where
  available_eq := by
    rw [c.survivorsBelow_succ_of_surviving hmiss, List.length_append, List.length_singleton,
      h.available_eq]
  available_le := hlt
  missing_eq := by
    rw [c.missingBelow_succ_of_surviving hmiss]
    exact h.missing_eq
  src_eq t i ht := by
    obtain ⟨hself, hother⟩ := copyChunk_inv hcopy
    rw [c.survivorsBelow_succ_of_surviving hmiss, List.getElem?_append] at ht
    show recoverSrc.segment shape.blockSize t = _
    split at ht
    · rename_i hold
      rw [hother t (by rw [h.available_eq]; omega)]
      exact h.src_eq t i ht
    · rename_i hnew
      have hzero : t = p.availableCount ∧ i = index := by
        rw [List.getElem?_singleton] at ht
        split at ht
        · rename_i hdiff
          rw [h.available_eq]
          exact ⟨by omega, (Option.some.inj ht).symm⟩
        · cases ht
      rw [hzero.1, hzero.2, hself]
  below _ hi := h.below_succ hlt hi

/-- The loop ends in front of the index behind the `K`-th survivor. -/
theorem prepareFrom_spec (count : Nat) {index : Nat} {p : PrepareState shape}
    (htotal : index + count = shape.k + shape.m) (h : Prepared c data parity index p) :
    ∃ index' p', prepareFrom c data parity count index p = some p' ∧
      index' ≤ shape.k + shape.m ∧ p'.availableCount = shape.k ∧
      Prepared c data parity index' p' := by
  induction count generalizing index p with
  | zero =>
    have hall := c.le_length_survivorsBelow
    rw [← htotal, Nat.add_zero, ← h.available_eq] at hall
    exact ⟨index, p, rfl, by omega, Nat.le_antisymm h.available_le hall, h⟩
  | succ count ih =>
    by_cases hlt : p.availableCount < shape.k
    · cases hmiss : c.hasMissing index with
      | true =>
        have hroom : p.matrixMissing.length < shape.m := by
          have hnext := c.missingBelow_length_le (index + 1)
          rw [c.missingBelow_succ_of_missing hmiss, List.length_append, List.length_singleton]
            at hnext
          have hmax := c.length_le
          rw [h.missing_eq]
          omega
        obtain ⟨index', p', hrun, hp'⟩ := ih (by omega) (h.missing hlt hmiss)
        refine ⟨index', p', ?_, hp'⟩
        rw [prepareFrom, if_pos hlt, if_pos hmiss, if_pos hroom]
        exact hrun
      | false =>
        have hindex : index < shape.k + shape.m := by omega
        obtain ⟨recoverSrc, hcopy⟩ := exists_copyChunk data parity p.recoverSrc hindex hlt
        obtain ⟨index', p', hrun, hp'⟩ := ih (by omega) (h.surviving hlt hmiss hcopy)
        refine ⟨index', p', ?_, hp'⟩
        have hnot : ¬ c.hasMissing index = true := by
          rw [hmiss]
          decide
        rw [prepareFrom, if_pos hlt, if_neg hnot, hcopy]
        exact hrun
    · have hfull : p.availableCount = shape.k :=
        Nat.le_antisymm h.available_le (Nat.le_of_not_lt hlt)
      exact ⟨index, p, by rw [prepareFrom, if_neg hlt], by omega, hfull, h⟩

/-- The survivors one behind the other. -/
def survivorBytes (c : LossCase shape) (data : DataBlocks shape) (parity : ParityBlocks shape) :
    List UInt8 :=
  (c.survivors.map (chunk data parity)).flatten

/-- `recover_src` holds the first `K` survivors, and the indices are the holes. -/
theorem prepareRecoverInput_spec (c : LossCase shape) (data : DataBlocks shape)
    (parity : ParityBlocks shape) (recoverSrc : DataBlocks shape) :
    ∃ src, prepareRecoverInput c data parity recoverSrc = some (src, c.holes) ∧
      src.data = survivorBytes c data parity := by
  have hstart : Prepared c data parity 0 ⟨0, [], recoverSrc⟩ := by
    refine ⟨rfl, Nat.zero_le _, rfl, ?_, fun i hi => absurd hi (Nat.not_lt_zero i)⟩
    intro t i ht
    cases ht
  obtain ⟨index, p, hrun, hle, hfull, hp⟩ :=
    prepareFrom_spec (shape.k + shape.m) (Nat.zero_add _) hstart
  have hlen : (c.survivorsBelow index).length = shape.k := by
    rw [← hp.available_eq]
    exact hfull
  have hholes := c.missingBelow_eq_holes hp.below (Nat.le_of_eq hlen.symm)
  have hsurvivors := c.survivors_eq hle hlen
  refine ⟨p.recoverSrc, ?_, ?_⟩
  · rw [prepareRecoverInput, hrun, Option.map_some, hp.missing_eq, hholes]
  · rw [p.recoverSrc.data_eq_flatten, survivorBytes]
    congr 1
    apply List.ext_getElem
    · rw [List.length_map, List.length_map, List.length_range, c.length_survivors]
    · intro t h₁ h₂
      rw [List.length_map] at h₂
      rw [List.getElem_map, List.getElem_map, List.getElem_range]
      apply hp.src_eq
      rw [hsurvivors]
      exact List.getElem?_eq_getElem h₂

end

end DpuTest.EcDecode
