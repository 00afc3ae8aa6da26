import DpuTest.EcDecode.BatchCopy

/-!
# The buffers of the recover tasks

`decode_Bench` allocates `data_block_count` source descriptors for each task, lays
the surviving blocks of a stripe out in a segment of `src_buffer`, and attaches the
blocks of the segment to the task, one descriptor for each.  A recover task wants
`data_block_count` surviving blocks.

`prepareTask_eq` says what is attached when the loops stay in the array, and
`prepareTask_eq_none` when they leave it.  `segmentBlocks_eq_iff` compares the
layout of the segments with the indices that the decoding matrix is made for.  Both
fit if and only if as many blocks are lost as there are parity blocks and all of
them are data blocks (`feedsSurvivors_iff`).
-/

namespace DpuTest.EcDecode

open Lib

/-- The arguments of `decode_Bench`, for a loss that can be repaired. -/
structure RecoverParams where
  k : Nat
  m : Nat
  erasuresCount : Nat
  blockSize : Nat
  batchSize : Nat
  m_pos : 1 ≤ m
  erasures_pos : 1 ≤ erasuresCount
  erasures_le_k : erasuresCount ≤ k
  erasures_le_m : erasuresCount ≤ m

namespace RecoverParams

variable (b : RecoverParams)

def srcSizeSeg : Nat := (b.k + b.m - b.erasuresCount) * b.blockSize
def remainingDataBlockNum : Nat := b.k - b.erasuresCount
def remainingCodeBlockNum : Nat := b.m

/-- `state->missing_indices` -/
def missingIndices : List Nat := (List.range b.erasuresCount).map (b.m + ·)

/-- The data of descriptor `j` of task `i`. -/
def srcBufData (i j : Nat) : Segment := (b.srcSizeSeg * i + b.blockSize * j, b.blockSize)

end RecoverParams

/-! ## The descriptors of a task -/

/-- The array `ec_src_doca_buf_batch[i]`, with the data that its descriptors were
given, and the list that is chained to its first one. -/
structure SrcBufs where
  data : List (Option Segment)
  chained : List Nat

namespace SrcBufs

/-- `doca_buf_set_data` for descriptor `j`.  `none` is an index behind the array. -/
def setData (j : Nat) (seg : Segment) (bufs : SrcBufs) : Option SrcBufs :=
  if j < bufs.data.length then some { bufs with data := bufs.data.set j (some seg) } else none

/-- `doca_buf_chain_list` of descriptor `j` to the first one. -/
def chainList (j : Nat) (bufs : SrcBufs) : Option SrcBufs :=
  if 0 < bufs.data.length ∧ j < bufs.data.length then
    some { bufs with chained := bufs.chained ++ [j] }
  else none

/-- The source blocks of a task that is allocated for the first descriptor. -/
def sources (bufs : SrcBufs) : List (Option Segment) :=
  (0 :: bufs.chained).map fun j => bufs.data.getD j none

end SrcBufs

section

variable (b : RecoverParams)

/-- `ec_src_doca_buf_batch[i]` after `malloc` and `doca_buf_inventory_buf_get_by_addr`. -/
def allocSrcBufs : SrcBufs where
  data := List.replicate b.k none
  chained := []

/-- The loop of `doca_buf_set_data`, for `count` descriptors. -/
def setDataLoop (i count : Nat) : Option SrcBufs :=
  (List.range count).foldlM (fun bufs j => bufs.setData j (b.srcBufData i j)) (allocSrcBufs b)

/-- The loops of `decode_Bench` that prepare task `i`. -/
def prepareTask (i : Nat) : Option SrcBufs :=
  let blocks := b.remainingCodeBlockNum + b.remainingDataBlockNum
  (setDataLoop b i blocks).bind fun bufs =>
    (List.range' 1 (blocks - 1)).foldlM (fun bufs j => bufs.chainList j) bufs

/-! ## The layout of a segment -/

inductive BlockKind where
  | data
  | parity
  deriving DecidableEq

/-- A source segment: the data first, and then the parity. -/
def segmentBlocks : List BlockKind :=
  List.replicate b.remainingDataBlockNum .data ++ List.replicate b.remainingCodeBlockNum .parity

/-- Block `index` of a stripe. -/
def blockKind (index : Nat) : BlockKind := if index < b.k then .data else .parity

/-- The blocks of a stripe that `missing_indices` does not list. -/
def survivingIndices : List Nat :=
  (List.range (b.k + b.m)).filter fun index => decide (index ∉ b.missingIndices)

/-- Task `i` is prepared with indices below `data_block_count` only, it has
`data_block_count` source blocks, and its segment holds the surviving blocks. -/
structure TaskFed (i : Nat) : Prop where
  attached : ∃ bufs, prepareTask b i = some bufs ∧ bufs.sources.length = b.k
  laidOut : segmentBlocks b = (survivingIndices b).map (blockKind b)

/-- Every recover task gets the surviving blocks. -/
def FeedsSurvivors : Prop := ∀ i, i < b.batchSize → TaskFed b i

end

/-! ## The loops -/

section

variable {b : RecoverParams} {i : Nat}

/-- The loop has given their data to the first descriptors. -/
theorem setDataLoop_eq {count : Nat} (h : count ≤ b.k) :
    setDataLoop b i count = some
      { data := (List.range count).map (fun j => some (b.srcBufData i j)) ++
          List.replicate (b.k - count) none
        chained := [] } := by
  induction count with
  | zero => rfl
  | succ count ih =>
    have hrest : b.k - count = b.k - (count + 1) + 1 := by omega
    have hlen : ((List.range count).map fun j => some (b.srcBufData i j)).length = count := by
      rw [List.length_map, List.length_range]
    rw [setDataLoop, List.range_succ, List.foldlM_append]
    show (setDataLoop b i count).bind _ = _
    rw [ih (by omega), Option.bind_some, List.foldlM_cons, SrcBufs.setData, if_pos]
    · rw [Option.bind_eq_bind, Option.bind_some, List.foldlM_nil, hrest, List.replicate_succ,
        List.set_append_right _ _ (Nat.le_of_eq hlen), hlen, Nat.sub_self, List.set_cons_zero,
        List.map_append, List.append_assoc]
      rfl
    · rw [List.length_append, hlen, List.length_replicate]
      omega

/-- The loop leaves the array at its end. -/
theorem setDataLoop_eq_none {count : Nat} (h : b.k < count) : setDataLoop b i count = none := by
  induction count with
  | zero => omega
  | succ count ih =>
    rw [setDataLoop, List.range_succ, List.foldlM_append]
    show (setDataLoop b i count).bind _ = _
    by_cases hlt : b.k < count
    · rw [ih hlt, Option.bind_none]
    · rw [setDataLoop_eq (by omega), Option.bind_some, List.foldlM_cons, SrcBufs.setData, if_neg]
      · rfl
      · rw [List.length_append, List.length_map, List.length_range, List.length_replicate]
        omega

theorem chainLoop_eq {bufs : SrcBufs} {count : Nat} (h : count + 1 ≤ bufs.data.length) :
    (List.range' 1 count).foldlM (fun bufs j => bufs.chainList j) bufs =
      some { bufs with chained := bufs.chained ++ List.range' 1 count } := by
  induction count with
  | zero =>
    rw [List.range'_zero, List.foldlM_nil, List.append_nil]
    rfl
  | succ count ih =>
    rw [List.range'_1_concat, List.foldlM_append, ih (by omega), Option.bind_eq_bind,
      Option.bind_some, List.foldlM_cons, SrcBufs.chainList, if_pos, ← List.append_assoc]
    · rfl
    · show 0 < bufs.data.length ∧ 1 + count < bufs.data.length
      omega

/-- With as many losses as parity blocks, the blocks of the segment are attached. -/
theorem prepareTask_eq (h : b.erasuresCount = b.m) (i : Nat) :
    ∃ bufs, prepareTask b i = some bufs ∧
      bufs.sources = (List.range b.k).map fun j => some (b.srcBufData i j) := by
  have hcount : b.remainingCodeBlockNum + b.remainingDataBlockNum = b.k := by
    have hle := b.erasures_le_k
    rw [RecoverParams.remainingCodeBlockNum, RecoverParams.remainingDataBlockNum, h]
    omega
  have hk : 1 ≤ b.k := Nat.le_trans b.erasures_pos b.erasures_le_k
  have hlen : ((List.range b.k).map fun j => some (b.srcBufData i j)).length = b.k := by
    rw [List.length_map, List.length_range]
  have hrange : 0 :: List.range' 1 (b.k - 1) = List.range b.k := by
    rw [List.range_eq_range', ← Nat.sub_add_cancel hk, List.range'_succ, Nat.add_sub_cancel]
  refine ⟨{ data := (List.range b.k).map fun j => some (b.srcBufData i j)
            chained := List.range' 1 (b.k - 1) }, ?_, ?_⟩
  · simp only [prepareTask, hcount]
    rw [setDataLoop_eq (Nat.le_refl _), Option.bind_some, Nat.sub_self, List.replicate_zero,
      List.append_nil, chainLoop_eq]
    · rfl
    · show b.k - 1 + 1 ≤ ((List.range b.k).map fun j => some (b.srcBufData i j)).length
      omega
  · rw [SrcBufs.sources]
    simp only [hrange]
    apply List.map_congr_left
    intro j hj
    rw [List.getD_eq_getElem?_getD, List.getElem?_map, List.getElem?_range (List.mem_range.mp hj)]
    rfl

/-- With fewer, the loops write behind the array. -/
theorem prepareTask_eq_none (h : b.erasuresCount < b.m) (i : Nat) : prepareTask b i = none := by
  have hcount : b.k < b.remainingCodeBlockNum + b.remainingDataBlockNum := by
    have hle := b.erasures_le_k
    rw [RecoverParams.remainingCodeBlockNum, RecoverParams.remainingDataBlockNum]
    omega
  simp only [prepareTask]
  rw [setDataLoop_eq_none hcount, Option.bind_none]

/-- What is attached is what the tasks of the batch read. -/
theorem sources_eq_srcBufChain {bufs : SrcBufs} (hbatch : 1 ≤ b.batchSize)
    (h : prepareTask b i = some bufs) :
    bufs.sources = (DecodeShape.srcBufChain
      { k := b.k, m := b.m, erasuresCount := b.erasuresCount, blockSize := b.blockSize
        batchSize := b.batchSize
        erasures_le := Nat.le_trans b.erasures_le_k (Nat.le_add_right _ _)
        batchSize_pos := hbatch } i).map some := by
  have hm : b.erasuresCount = b.m := by
    rcases Nat.lt_or_eq_of_le b.erasures_le_m with hlt | heq
    · rw [prepareTask_eq_none hlt] at h
      cases h
    · exact heq
  obtain ⟨bufs', hbufs, hsources⟩ := prepareTask_eq hm i
  rw [h] at hbufs
  cases hbufs
  rw [hsources, DecodeShape.srcBufChain, List.map_map]
  have hcount : b.m + (b.k - b.erasuresCount) = b.k := by
    have hle := b.erasures_le_k
    omega
  show _ = (List.range (b.m + (b.k - b.erasuresCount))).map _
  rw [hcount]
  rfl

/-! ## The layout -/

theorem mem_missingIndices {index : Nat} :
    index ∈ b.missingIndices ↔ b.m ≤ index ∧ index < b.m + b.erasuresCount := by
  rw [RecoverParams.missingIndices, List.mem_map]
  constructor
  · rintro ⟨i, hi, rfl⟩
    have hlt := List.mem_range.mp hi
    omega
  · intro h
    exact ⟨index - b.m, List.mem_range.mpr (by omega), by omega⟩

/-- The surviving indices of an interval. -/
def survivingFrom (b : RecoverParams) (start count : Nat) : List Nat :=
  (List.range' start count).filter fun index => decide (index ∉ b.missingIndices)

theorem survivingFrom_eq_self {start count : Nat}
    (h : start + count ≤ b.m ∨ b.m + b.erasuresCount ≤ start) :
    survivingFrom b start count = List.range' start count := by
  apply List.filter_eq_self.mpr
  intro index hmem
  have hin := List.mem_range'_1.mp hmem
  rw [decide_eq_true_eq, mem_missingIndices]
  omega

theorem survivingFrom_missing : survivingFrom b b.m b.erasuresCount = [] := by
  apply List.filter_eq_nil_iff.mpr
  intro index hmem
  rw [decide_eq_true_eq, Classical.not_not, mem_missingIndices]
  exact List.mem_range'_1.mp hmem

theorem survivingFrom_add (start count count' : Nat) :
    survivingFrom b start (count + count') =
      survivingFrom b start count ++ survivingFrom b (start + count) count' := by
  rw [survivingFrom, ← List.range'_append_1, List.filter_append]
  rfl

/-- The surviving data come first. -/
theorem map_survivingIndices : (survivingIndices b).map (blockKind b) =
    List.replicate (survivingFrom b 0 b.k).length .data ++
      List.replicate (survivingFrom b b.k b.m).length .parity := by
  have hsplit : survivingIndices b = survivingFrom b 0 b.k ++ survivingFrom b b.k b.m := by
    have hadd := survivingFrom_add (b := b) 0 b.k b.m
    rw [Nat.zero_add] at hadd
    rw [survivingIndices, List.range_eq_range', ← hadd]
    rfl
  rw [hsplit, List.map_append]
  congr 1
  · apply List.map_eq_replicate_iff.mpr
    intro index hmem
    have hin := List.mem_range'_1.mp (List.mem_of_mem_filter hmem)
    exact if_pos (by omega)
  · apply List.map_eq_replicate_iff.mpr
    intro index hmem
    have hin := List.mem_range'_1.mp (List.mem_of_mem_filter hmem)
    exact if_neg (by omega)

/-- The layout is that of the surviving blocks if and only if all lost blocks are
data blocks. -/
theorem segmentBlocks_eq_iff :
    segmentBlocks b = (survivingIndices b).map (blockKind b) ↔ b.m + b.erasuresCount ≤ b.k := by
  rw [map_survivingIndices, segmentBlocks]
  constructor
  · intro heq
    have hcount := congrArg (List.count BlockKind.parity) heq
    have hparity : (survivingFrom b b.k b.m).length = b.m := by
      simpa [List.count_replicate, RecoverParams.remainingCodeBlockNum] using hcount.symm
    have hall : ∀ index ∈ List.range' b.k b.m, index ∉ b.missingIndices := by
      have hlen : (survivingFrom b b.k b.m).length = (List.range' b.k b.m).length := by
        rw [hparity, List.length_range']
      intro index hmem
      exact of_decide_eq_true (List.length_filter_eq_length_iff.mp hlen index hmem)
    by_contra hlt
    -- a missing parity block
    have hk : 1 ≤ b.k := Nat.le_trans b.erasures_pos b.erasures_le_k
    have hpos := b.erasures_pos
    have hm := b.m_pos
    refine hall (max b.k b.m) (List.mem_range'_1.mpr ?_) (mem_missingIndices.mpr ?_)
    · omega
    · omega
  · intro hle
    have hdata : survivingFrom b 0 b.k = List.range' 0 b.m ++
        List.range' (b.m + b.erasuresCount) (b.k - (b.m + b.erasuresCount)) := by
      have hsum : b.k = b.m + b.erasuresCount + (b.k - (b.m + b.erasuresCount)) := by omega
      rw [hsum, survivingFrom_add, survivingFrom_add, Nat.zero_add, survivingFrom_missing,
        survivingFrom_eq_self (Or.inl (Nat.le_of_eq (Nat.zero_add _))), List.append_nil,
        Nat.zero_add, survivingFrom_eq_self (Or.inr (Nat.le_refl _)), ← hsum]
    rw [hdata, survivingFrom_eq_self (Or.inr hle), List.length_append, List.length_range',
      List.length_range', List.length_range', RecoverParams.remainingCodeBlockNum,
      RecoverParams.remainingDataBlockNum]
    congr 2
    omega

end

/-- The tasks are fed right if and only if there are none, or as many blocks are
lost as there are parity blocks and all of them are data blocks. -/
theorem feedsSurvivors_iff (b : RecoverParams) :
    FeedsSurvivors b ↔ b.batchSize = 0 ∨ b.erasuresCount = b.m ∧ b.m + b.erasuresCount ≤ b.k := by
  constructor
  · intro h
    rcases Nat.eq_zero_or_pos b.batchSize with hzero | hpos
    · exact Or.inl hzero
    · right
      obtain ⟨⟨bufs, hbufs, -⟩, hlayout⟩ := h 0 hpos
      refine ⟨?_, segmentBlocks_eq_iff.mp hlayout⟩
      rcases Nat.lt_or_eq_of_le b.erasures_le_m with hlt | heq
      · rw [prepareTask_eq_none hlt] at hbufs
        cases hbufs
      · exact heq
  · rintro (hzero | ⟨hm, hle⟩) i hi
    · omega
    · obtain ⟨bufs, hbufs, hsources⟩ := prepareTask_eq hm i
      refine ⟨⟨bufs, hbufs, ?_⟩, segmentBlocks_eq_iff.mpr hle⟩
      rw [hsources, List.length_map, List.length_range]

/-- Four data and two parity blocks, and one block lost. -/
def oneLost : RecoverParams where
  k := 4
  m := 2
  erasuresCount := 1
  blockSize := 64
  batchSize := 1
  m_pos := Nat.le_succ 1
  erasures_pos := Nat.le_refl 1
  erasures_le_k := Nat.le_add_left 1 3
  erasures_le_m := Nat.le_succ 1

/-- Five blocks are attached through an array of four. -/
theorem not_feedsSurvivors_oneLost : ¬ FeedsSurvivors oneLost := by
  intro h
  obtain ⟨⟨bufs, hbufs, -⟩, -⟩ := h 0 Nat.one_pos
  have hnone : prepareTask oneLost 0 = none := by decide
  rw [hnone] at hbufs
  cases hbufs

end DpuTest.EcDecode
