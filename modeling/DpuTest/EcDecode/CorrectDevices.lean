import DpuTest.EcDecode.ComparedBlocks
import DpuTest.Lib.PqCode

/-!
# Codes that a device can be correct for

A recover task gets the surviving chunks and the indices of the holes, and nothing else.
The holes say which chunks have survived (`LossCase.survivors_eq_of_holes`), so a device
that looks for a codeword with these survivors is correct if they determine the holes.
`exists_passesFor_iff` says of any list of loss cases when there is a device that passes
them, and that is when the survivors of each determine what is missing.

`pqCode` is a code of four data blocks and two parity blocks that has a correct device.
-/

namespace DpuTest.EcDecode

open Lib EcEncode

section

variable {shape : EcShape} {σ : Type}

/-! ## Holes and survivors -/

/-- The index that `prepare_recover_input` stops at. -/
theorem LossCase.exists_stop (c : LossCase shape) :
    c.survivors = c.survivorsBelow (shape.k + c.holes.length) ∧
      c.holes = c.missingBelow (shape.k + c.holes.length) := by
  have hexists : ∃ index, shape.k ≤ (c.survivorsBelow index).length :=
    ⟨_, c.le_length_survivorsBelow⟩
  classical
  obtain ⟨index, hfind, hle, hbelow⟩ : ∃ index, shape.k ≤ (c.survivorsBelow index).length ∧
      index ≤ shape.k + shape.m ∧ ∀ i, i < index → (c.survivorsBelow i).length < shape.k :=
    ⟨Nat.find hexists, Nat.find_spec hexists, Nat.find_min' hexists c.le_length_survivorsBelow,
      fun i hi => Nat.lt_of_not_le (Nat.find_min hexists hi)⟩
  have hpos : 0 < index := by
    have hk := shape.k_pos
    have hlen := c.survivorsBelow_length_le index
    omega
  have hlen : (c.survivorsBelow index).length = shape.k := by
    have hprev := hbelow (index - 1) (by omega)
    have hadd := c.length_survivorsBelow_add (index - 1)
    have hadd' := c.length_survivorsBelow_add index
    have hmono : (c.missingBelow (index - 1)).length ≤ (c.missingBelow index).length := by
      rw [c.missingBelow_eq, c.missingBelow_eq]
      apply List.Sublist.length_le
      apply List.monotone_filter_right
      intro i hi
      rw [decide_eq_true_eq] at hi ⊢
      omega
    omega
  have hholes := c.missingBelow_eq_holes hbelow hfind
  have hindex : index = shape.k + c.holes.length := by
    have hadd := c.length_survivorsBelow_add index
    rw [hlen, hholes] at hadd
    exact hadd.symm
  rw [← hindex]
  exact ⟨(c.survivors_eq hle hlen).symm, hholes.symm⟩

/-- The holes say which chunks have survived. -/
theorem LossCase.survivors_eq_of_holes {c c' : LossCase shape} (h : c.holes = c'.holes) :
    c.survivors = c'.survivors := by
  obtain ⟨hsurvivors, hmissing⟩ := c.exists_stop
  obtain ⟨hsurvivors', hmissing'⟩ := c'.exists_stop
  rw [← h] at hsurvivors' hmissing'
  rw [hsurvivors, hsurvivors']
  apply List.filter_congr
  intro i hi
  have hiff : ∀ d : LossCase shape, c.holes = d.missingBelow (shape.k + c.holes.length) →
      (d.hasMissing i = true ↔ i ∈ c.holes) := by
    intro d hd
    rw [hd, LossCase.missingBelow, List.mem_filter]
    exact ⟨fun h => ⟨hi, h⟩, fun h => h.2⟩
  have hsame : c.hasMissing i = c'.hasMissing i := by
    rw [Bool.eq_iff_iff, hiff c hmissing, hiff c' hmissing']
  rw [hsame]

/-! ## A device that solves for the codeword -/

/-- The data and their parity. -/
def Codeword (code : ErasureCode shape.k shape.m) (data : DataBlocks shape)
    (parity : ParityBlocks shape) : Prop :=
  parity.data = ecCreate code data.data

/-- Codewords with the same survivors have the same chunks in the holes. -/
def Determines (code : ErasureCode shape.k shape.m) : Prop :=
  ∀ (c : LossCase shape) (data data' : DataBlocks shape) (parity parity' : ParityBlocks shape),
    Codeword code data parity → Codeword code data' parity' →
    survivorBytes c data parity = survivorBytes c data' parity' →
    ∀ i ∈ c.holes, chunk data parity i = chunk data' parity' i

/-- The chunks of the holes, one behind the other. -/
theorem exists_holeBlocks (c : LossCase shape) (data : DataBlocks shape)
    (parity : ParityBlocks shape) : ∃ dst : ParityBlocks shape, ∀ t i,
      c.holes[t]? = some i → dst.segment shape.blockSize t = chunk data parity i := by
  obtain ⟨dst, hdst⟩ : ∃ dst : ParityBlocks shape, ∀ t, t < shape.m →
      dst.segment shape.blockSize t =
        (c.holes[t]?.map (chunk data parity)).getD (List.replicate shape.blockSize 0) := by
    apply Buffer.exists_segment
    intro t _
    cases ht : c.holes[t]? with
    | none => exact List.length_replicate
    | some i =>
      exact length_chunk data parity
        (c.lt_total i (List.mem_of_mem_filter (List.mem_of_getElem? ht)))
  refine ⟨dst, fun t i ht => ?_⟩
  have hlt : t < shape.m :=
    Nat.lt_of_lt_of_le (List.getElem?_eq_some_iff.mp ht).1 c.length_holes_le
  rw [hdst t hlt, ht]
  rfl

/-- What a recover task finds out: the holes of some codeword with these survivors. -/
def Solves (code : ErasureCode shape.k shape.m) (holes : List Nat) (src : List UInt8)
    (dst : ParityBlocks shape) : Prop :=
  ∃ (c : LossCase shape) (data : DataBlocks shape) (parity : ParityBlocks shape),
    c.holes = holes ∧ Codeword code data parity ∧ survivorBytes c data parity = src ∧
      ∀ t i, holes[t]? = some i → dst.segment shape.blockSize t = chunk data parity i

open Classical in
/-- A device that looks for the codeword. -/
noncomputable def solvingDevice (shape : EcShape) (code : ErasureCode shape.k shape.m) :
    EcDevice shape Unit where
  start := ()
  matrixCreateRecover _ _ := ((), .success)
  taskRecoverAllocateInit _ := ((), .success)
  bufResetDataLen _ := ((), .success)
  recover _ holes src dst :=
    ((), .success, if h : ∃ found, Solves code holes src found then h.choose else dst)
  create _ src dst :=
    ((), .success,
      if h : (ecCreate code src).length = shape.m * shape.blockSize then ⟨ecCreate code src, h⟩
      else dst)

theorem solvingDevice_correct {code : ErasureCode shape.k shape.m} (h : Determines code) :
    Correct (solvingDevice shape code) code where
  matrixCreateRecover_ok _ _ := rfl
  taskRecoverAllocateInit_ok _ := rfl
  bufResetDataLen_ok _ := rfl
  create_ok _ data dst := by
    refine ⟨rfl, ?_⟩
    simp only [solvingDevice, dif_pos (length_ecCreate code data)]
  recover_ok _ c data parity dst hparity := by
    refine ⟨rfl, ?_⟩
    obtain ⟨own, hown⟩ := exists_holeBlocks c data parity
    have hsolves : ∃ found, Solves code c.holes (survivorBytes c data parity) found :=
      ⟨own, c, data, parity, rfl, hparity, rfl, hown⟩
    obtain ⟨c', data', parity', hholes, hcodeword, hbytes, hplaced⟩ := hsolves.choose_spec
    intro t i ht
    simp only [solvingDevice, dif_pos hsolves]
    rw [hplaced t i ht]
    -- the survivors of the other case are those of this one
    have hsame : survivorBytes c data' parity' = survivorBytes c data parity := by
      rw [← hbytes, survivorBytes, survivorBytes, LossCase.survivors_eq_of_holes hholes]
    exact h c data' data parity' parity hcodeword hparity hsame i (List.mem_of_getElem? ht)

/-! ## The cases that are tried -/

/-- Codewords with the same survivors have the same missing chunks. -/
def DeterminesMissing (code : ErasureCode shape.k shape.m) (c : LossCase shape) : Prop :=
  ∀ (data data' : DataBlocks shape) (parity parity' : ParityBlocks shape),
    Codeword code data parity → Codeword code data' parity' →
    survivorBytes c data parity = survivorBytes c data' parity' →
    ∀ i ∈ c.missing, chunk data parity i = chunk data' parity' i

/-- The device looks for the missing data only where they are determined. -/
theorem solvingDevice_correctFor {code : ErasureCode shape.k shape.m} {c : LossCase shape}
    (h : DeterminesMissing code c) : CorrectFor (solvingDevice shape code) code c where
  matrixCreateRecover_ok _ := rfl
  taskRecoverAllocateInit_ok _ := rfl
  bufResetDataLen_ok _ := rfl
  create_ok _ data dst := by
    refine ⟨rfl, ?_⟩
    simp only [solvingDevice, dif_pos (length_ecCreate code data)]
  recover_ok _ data parity dst hparity := by
    refine ⟨rfl, ?_⟩
    obtain ⟨own, hown⟩ := exists_holeBlocks c data parity
    have hsolves : ∃ found, Solves code c.holes (survivorBytes c data parity) found :=
      ⟨own, c, data, parity, rfl, hparity, rfl, hown⟩
    obtain ⟨c', data', parity', hholes, hcodeword, hbytes, hplaced⟩ := hsolves.choose_spec
    intro t i ht
    obtain ⟨hhole, hi⟩ := getElem?_holes ht
    simp only [solvingDevice, dif_pos hsolves]
    rw [hplaced t i hhole]
    -- the survivors of the other case are those of this one
    have hsame : survivorBytes c data' parity' = survivorBytes c data parity := by
      rw [← hbytes, survivorBytes, survivorBytes, LossCase.survivors_eq_of_holes hholes]
    have hmissing : i ∈ c.missing := List.mem_of_mem_filter (List.mem_of_getElem? ht)
    rw [h data' data parity' parity hcodeword hparity hsame i hmissing, chunk, if_pos hi]

/-- Without a pass the destinations are left alone. -/
theorem dst_of_repairCase {dev : EcDevice shape σ} {c : LossCase shape} {opts : Options}
    {buffers : ResultBuffers} {data : DataBlocks shape} {parity : ParityBlocks shape}
    {st last : DocaTestState shape σ} (hopts : opts.repetitions = 0)
    (h : repairCase dev c opts buffers data parity st = .ok last) :
    last.recoverDst = st.recoverDst ∧ last.createDst = st.createDst := by
  unfold repairCase prepareCase at h
  rw [hopts] at h
  split at h
  · split at h
    · cases h
    rename_i hprepare
    cases h
    split at hprepare
    · split at hprepare
      · cases hprepare
      split at hprepare
      · split at hprepare
        · cases hprepare
          exact ⟨rfl, rfl⟩
        · cases hprepare
      · cases hprepare
    · cases hprepare
      exact ⟨rfl, rfl⟩
  · cases h

/-- A device that passes `verify_doca_case` for every codeword, whatever the memory holds. -/
def PassesFor (dev : EcDevice shape σ) (code : ErasureCode shape.k shape.m) (opts : Options)
    (c : LossCase shape) : Prop :=
  ∀ (buffers : ResultBuffers) (data : DataBlocks shape) (parity : ParityBlocks shape)
    (st : DocaTestState shape σ), buffers.allocated = true → Codeword code data parity →
    verdict (verifyDocaCase dev c opts buffers data parity st) = true

/-- Without a pass none does: the old bytes are compared. -/
theorem not_passesFor_zero {dev : EcDevice shape σ} {code : ErasureCode shape.k shape.m}
    {opts : Options} (hopts : opts.repetitions = 0) {c : LossCase shape} {index : Nat}
    (hindex : index ∈ c.missing) : ¬ PassesFor dev code opts c := by
  intro h
  have hblocks : ∀ byte : UInt8, chunk (filled _ 0)
      ⟨ecCreate code (filled _ 0).data, length_ecCreate code _⟩ index =
        List.replicate shape.blockSize byte := by
    intro byte
    have hverdict := h ⟨true, true⟩ (filled _ 0)
      ⟨ecCreate code (filled _ 0).data, length_ecCreate code _⟩
      ⟨filled _ 0, filled _ 0, filled _ byte, filled _ byte, dev.start⟩ rfl rfl
    rw [verdict_iff_repairCase] at hverdict
    obtain ⟨last, hlast, hall⟩ := hverdict
    obtain ⟨hrecover, hcreate⟩ := dst_of_repairCase hopts hlast
    rw [hall index hindex, comparedChunk, answeredBlock]
    have hlt := c.lt_total index hindex
    by_cases hdata : index < shape.k
    · have hslot : c.dataMissing.idxOf index < shape.m :=
        Nat.lt_of_lt_of_le (List.idxOf_lt_length_iff.mpr (mem_dataMissing hindex hdata))
          (Nat.le_trans (List.length_filter_le _ _) c.length_le)
      rw [if_pos hdata]
      show last.recoverDst.segment _ _ = _
      rw [hrecover]
      exact segment_filled byte hslot
    · rw [if_neg hdata]
      show last.createDst.segment _ _ = _
      rw [hcreate]
      exact segment_filled byte (by omega)
  have hsame := (hblocks 0).symm.trans (hblocks 1)
  rw [List.replicate_inj] at hsame
  have hpos := shape.blockSize_pos
  rcases hsame.2 with hzero | hbyte
  · omega
  · exact absurd hbyte (by decide)

/-- With a pass at least, some device passes the cases exactly if the survivors of each
determine its missing chunks. -/
theorem exists_passesFor_iff (code : ErasureCode shape.k shape.m) {opts : Options}
    (hopts : opts.repetitions ≠ 0) (cases : List (LossCase shape)) :
    (∃ (σ : Type) (dev : EcDevice shape σ), ∀ c ∈ cases, PassesFor dev code opts c) ↔
      ∀ c ∈ cases, DeterminesMissing code c := by
  constructor
  · rintro ⟨σ, dev, hdev⟩ c hc data data' parity parity' hcodeword hcodeword' hbytes
    let st : DocaTestState shape σ :=
      ⟨.zeroed _, .zeroed _, .zeroed _, .zeroed _, dev.start⟩
    have hone := hdev c hc ⟨true, true⟩ data parity st rfl hcodeword
    have htwo := hdev c hc ⟨true, true⟩ data' parity' st rfl hcodeword'
    rw [verdict_iff] at hone htwo
    -- the device has got the same calls
    have hanswers := answerCase_congr hbytes dev opts.repetitions st.deviceSide
    rw [hone.2, htwo.2, Option.some.injEq] at hanswers
    exact List.map_inj_left.mp hanswers
  · intro h
    refine ⟨Unit, solvingDevice shape code, ?_⟩
    intro c hc buffers data parity st hbuffers hcodeword
    rw [verifyDocaCase_ready (solvingDevice_correctFor (h c hc)) hcodeword hopts hbuffers st]
    rfl

end

/-! ## Two parities -/

/-- Four data blocks and two parity blocks. -/
def pqShape (blockSize : Nat) (h : 0 < blockSize) : EcShape where
  k := 4
  m := 2
  blockSize := blockSize
  k_pos := Nat.succ_pos 3
  m_pos := Nat.succ_pos 1
  blockSize_pos := h

/-- Byte `t` of block `i`. -/
def byteOf (blocks : List (List UInt8)) (t i : Nat) : BitVec 8 :=
  ((blocks.getD i []).getD t 0).toBitVec

/-- The two parities, byte by byte. -/
def pqEncode (blocks : List (List UInt8)) : List (List UInt8) :=
  let size := (blocks.getD 0 []).length
  [(List.range size).map fun t => UInt8.ofBitVec
      (byteOf blocks t 0 ^^^ byteOf blocks t 1 ^^^ byteOf blocks t 2 ^^^ byteOf blocks t 3),
    (List.range size).map fun t => UInt8.ofBitVec
      (pqSecond (byteOf blocks t 0) (byteOf blocks t 1) (byteOf blocks t 2)
        (byteOf blocks t 3))]

def pqCode : ErasureCode 4 2 where
  encode := pqEncode
  length_encode _ _ := rfl
  length_of_mem_encode := by
    intro blocks size hcount hsize c hc
    have hfirst : (blocks.getD 0 []).length = size := by
      rw [List.getD_eq_getElem?_getD, List.getElem?_eq_getElem (by omega), Option.getD_some]
      exact hsize _ (List.getElem_mem _)
    simp only [pqEncode, List.mem_cons, List.not_mem_nil, or_false] at hc
    rcases hc with rfl | rfl
    · rw [List.length_map, List.length_range, hfirst]
    · rw [List.length_map, List.length_range, hfirst]

section

variable {blockSize : Nat} {hpos : 0 < blockSize}

/-- The bytes `t` of the six chunks. -/
def column (data : DataBlocks (pqShape blockSize hpos))
    (parity : ParityBlocks (pqShape blockSize hpos)) (t i : Nat) : BitVec 8 :=
  ((chunk data parity i).getD t 0).toBitVec

/-- The blocks of the data, as the code gets them. -/
theorem byteOf_blocksAt {data : DataBlocks (pqShape blockSize hpos)}
    {parity : ParityBlocks (pqShape blockSize hpos)} (t : Nat) {i : Nat} (hi : i < 4) :
    byteOf (blocksAt data.data 0 blockSize 4) t i = column data parity t i := by
  have hchunk : chunk data parity i = data.segment blockSize i := if_pos hi
  have hblock : (blocksAt data.data 0 blockSize 4).getD i [] = data.segment blockSize i := by
    rw [List.getD_eq_getElem?_getD, blocksAt, List.getElem?_map, List.getElem?_range hi,
      Option.map_some, Option.getD_some, Nat.zero_add]
    rfl
  rw [byteOf, column, hblock, hchunk]

/-- The columns of a codeword are words of the code. -/
theorem pqWord_column {data : DataBlocks (pqShape blockSize hpos)}
    {parity : ParityBlocks (pqShape blockSize hpos)} (h : Codeword pqCode data parity) {t : Nat}
    (ht : t < blockSize) : PqWord (column data parity t) := by
  have hlen : data.data.length / 4 = blockSize := by
    rw [data.length_data]
    exact Nat.mul_div_cancel_left blockSize (show 0 < 4 by decide)
  have hin : 0 + 4 * blockSize ≤ data.data.length := by
    rw [data.length_data, Nat.zero_add]
    exact Nat.le_refl _
  have hsizes := pqCode.length_of_mem_encode length_blocksAt
    fun block hblock => length_of_mem_blocksAt hin hblock
  have hparity : blocksAt parity.data 0 blockSize 2 =
      pqEncode (blocksAt data.data 0 blockSize 4) := by
    have hdata : parity.data = ecCreate pqCode data.data := h
    rw [hdata, ecCreate, hlen]
    exact blocksAt_flatten hsizes
  have hsize : ((blocksAt data.data 0 blockSize 4).getD 0 []).length = blockSize :=
    length_slice (by rw [Nat.zero_mul]; omega)
  have hfour : slice parity.data (0 + 0 * blockSize) blockSize = _ := (List.cons.inj hparity).1
  have hfive : slice parity.data (0 + 1 * blockSize) blockSize = _ :=
    (List.cons.inj (List.cons.inj hparity).2).1
  have hbyte : ∀ {block : List UInt8} {f : Nat → BitVec 8},
      block = (List.range blockSize).map (fun t => UInt8.ofBitVec (f t)) →
        (block.getD t 0).toBitVec = f t := by
    intro block f hblock
    rw [hblock, List.getD_eq_getElem?_getD, List.getElem?_map, List.getElem?_range ht]
    rfl
  rw [hsize] at hfour hfive
  constructor
  · rw [← byteOf_blocksAt t (show 0 < 4 by decide), ← byteOf_blocksAt t (show 1 < 4 by decide),
      ← byteOf_blocksAt t (show 2 < 4 by decide), ← byteOf_blocksAt t (show 3 < 4 by decide)]
    refine hbyte (Eq.trans ?_ hfour)
    rw [Nat.zero_add]
    exact if_neg (Nat.lt_irrefl 4)
  · rw [← byteOf_blocksAt t (show 0 < 4 by decide), ← byteOf_blocksAt t (show 1 < 4 by decide),
      ← byteOf_blocksAt t (show 2 < 4 by decide), ← byteOf_blocksAt t (show 3 < 4 by decide)]
    refine hbyte (Eq.trans ?_ hfive)
    rw [Nat.zero_add]
    exact if_neg (show ¬ 5 < 4 by decide)

/-- All numbers below six but two are among four different ones. -/
theorem exists_two_others {l : List Nat} (hnodup : l.Nodup) (hlt : ∀ i ∈ l, i < 6)
    (hlen : l.length = 4) :
    ∃ i j, i < j ∧ j < 6 ∧ ∀ k, k < 6 → k ≠ i → k ≠ j → k ∈ l := by
  have hothers : ((List.range 6).filter (fun k => k ∉ l)).length = 2 := by
    have hinside : ((List.range 6).filter (fun k => k ∈ l)).length = 4 := by
      have hperm : List.Perm ((List.range 6).filter (fun k => k ∈ l)) l := by
        apply (List.perm_ext_iff_of_nodup (List.nodup_range.filter _) hnodup).mpr
        intro k
        rw [List.mem_filter, List.mem_range, decide_eq_true_eq]
        exact ⟨fun h => h.2, fun h => ⟨hlt k h, h⟩⟩
      rw [hperm.length_eq, hlen]
    have hsum : (List.range 6).length = _ :=
      List.length_eq_length_filter_add fun k => decide (k ∈ l)
    simp only [← decide_not] at hsum
    rw [List.length_range, hinside] at hsum
    omega
  obtain ⟨i, j, hij⟩ := List.length_eq_two.mp hothers
  have hsorted : ((List.range 6).filter (fun k => k ∉ l)).Pairwise (· < ·) :=
    List.pairwise_lt_range.filter _
  have hmem : ∀ k, k ∈ [i, j] ↔ k < 6 ∧ k ∉ l := by
    intro k
    rw [← hij, List.mem_filter, List.mem_range, decide_eq_true_eq]
  rw [hij] at hsorted
  refine ⟨i, j, List.rel_of_pairwise_cons hsorted (List.mem_singleton_self j),
    ((hmem j).mp (by simp)).1, ?_⟩
  intro k hk hi hj
  apply Classical.byContradiction
  intro hnot
  have hpair := (hmem k).mpr ⟨hk, hnot⟩
  simp [hi, hj] at hpair

/-- Any four chunks determine the codeword. -/
theorem pqCode_chunks {data data' : DataBlocks (pqShape blockSize hpos)}
    {parity parity' : ParityBlocks (pqShape blockSize hpos)}
    (h : Codeword pqCode data parity) (h' : Codeword pqCode data' parity') {l : List Nat}
    (hnodup : l.Nodup) (hlt : ∀ i ∈ l, i < 6) (hlen : l.length = 4)
    (hsame : ∀ i ∈ l, chunk data parity i = chunk data' parity' i) {i : Nat} (hi : i < 6) :
    chunk data parity i = chunk data' parity' i := by
  obtain ⟨a, b, hab, hb, hothers⟩ := exists_two_others hnodup hlt hlen
  have hsize : (chunk data parity i).length = blockSize := length_chunk data parity hi
  have hsize' : (chunk data' parity' i).length = blockSize := length_chunk data' parity' hi
  apply List.ext_getElem (hsize.trans hsize'.symm)
  intro t ht ht'
  have hcolumn : column data parity t i = column data' parity' t i := by
    refine (pqWord_column h (hsize ▸ ht)).eq_of_four (pqWord_column h' (hsize ▸ ht)) hab hb
      (fun k hk hka hkb => ?_) hi
    rw [column, column, hsame k (hothers k hk hka hkb)]
  rw [column, column, List.getD_eq_getElem?_getD, List.getD_eq_getElem?_getD,
    List.getElem?_eq_getElem ht, List.getElem?_eq_getElem ht'] at hcolumn
  exact UInt8.toBitVec_inj.mp hcolumn

theorem pqCode_determines : @Determines (pqShape blockSize hpos) pqCode := by
  intro c data data' parity parity' h h' hbytes i hi
  refine pqCode_chunks h h' (c.survivors_sorted.imp Nat.ne_of_lt)
    (fun k hk => (c.notMem_of_mem_survivors hk).1) c.length_survivors
    (chunk_eq_of_survivorBytes hbytes) ?_
  exact c.lt_total i (List.mem_of_mem_filter hi)

end

end DpuTest.EcDecode
