import DpuTest.EcDecode.VerifyCase

/-!
# What the device answers to a case

The verdict of `verify_doca_case` rests on what the device answers to the calls of the case.
`answerCase` is the device at work on its own: its state, its two destinations, the calls
that it gets, and the blocks that its last tasks leave for the missing chunks.  Of the
codeword it is given the survivors only (`answerCase_congr`).

* `repairCase_answers`: the function goes on until a call fails, and then it holds what the
  device has answered.
* `verdict_iff`: the verdict is true exactly if the answered blocks are the missing chunks.
* `exists_expected`: every list of answered blocks is the one that some codeword with the
  same survivors expects, so the comparison hides nothing.
-/

namespace DpuTest.EcDecode

open Lib EcEncode

/-! ## The device on its own -/

/-- The device, and what its destinations hold. -/
structure DeviceSide (shape : EcShape) (σ : Type) where
  device : σ
  recoverDst : ParityBlocks shape
  createDst : ParityBlocks shape

section

variable {shape : EcShape} {σ : Type} (dev : EcDevice shape σ) (c : LossCase shape)

/-- The part of the state that the device sees and changes. -/
def DocaTestState.deviceSide (st : DocaTestState shape σ) : DeviceSide shape σ where
  device := st.device
  recoverDst := st.recoverDst
  createDst := st.createDst

/-- The answers to a reset of the destination and a recover task, unless one of the two
fails. -/
def answerRecover (src : List UInt8) (s : DeviceSide shape σ) : Option (DeviceSide shape σ) :=
  match dev.bufResetDataLen s.device with
  | (device, .success) =>
    match dev.recover device c.holes src s.recoverDst with
    | (device, .success, recoverDst) =>
      some { s with device := device, recoverDst := recoverDst }
    | _ => none
  | _ => none

/-- The same for a create task. -/
def answerCreate (src : List UInt8) (s : DeviceSide shape σ) : Option (DeviceSide shape σ) :=
  match dev.bufResetDataLen s.device with
  | (device, .success) =>
    match dev.create device src s.createDst with
    | (device, .success, createDst) => some { s with device := device, createDst := createDst }
    | _ => none
  | _ => none

/-- The surviving data, and recovered blocks in place of the missing ones. -/
def restored (data : DataBlocks shape) (recoverDst : ParityBlocks shape) : DataBlocks shape :=
  (copyRecovered recoverDst c.missing 0 data).getD data

/-- The answers to one pass over a codeword. -/
def answerPass (data : DataBlocks shape) (parity : ParityBlocks shape)
    (s : DeviceSide shape σ) : Option (DeviceSide shape σ) :=
  (if 0 < c.countMissingData then answerRecover dev c (survivorBytes c data parity) s
    else some s).bind fun s =>
      if 0 < c.countMissingParity then answerCreate dev (restored c data s.recoverDst).data s
      else some s

/-- The answers to so many passes. -/
def answerPasses (data : DataBlocks shape) (parity : ParityBlocks shape) :
    Nat → DeviceSide shape σ → Option (DeviceSide shape σ)
  | 0, s => some s
  | count + 1, s => (answerPass dev c data parity s).bind (answerPasses data parity count)

/-- The answers to the two calls in front of the passes. -/
def answerSetUp (s : DeviceSide shape σ) : Option (DeviceSide shape σ) :=
  if 0 < c.countMissingData then
    match dev.matrixCreateRecover s.device c.holes with
    | (device, .success) =>
      match dev.taskRecoverAllocateInit device with
      | (device, .success) => some { s with device := device }
      | _ => none
    | _ => none
  else some s

/-- The block that a destination holds for a missing chunk. -/
def answeredBlock (s : DeviceSide shape σ) (index : Nat) : List UInt8 :=
  if index < shape.k then s.recoverDst.segment shape.blockSize (c.dataMissing.idxOf index)
  else s.createDst.segment shape.blockSize (index - shape.k)

/-- The device gets the calls of a case of so many passes: the blocks that it leaves for the
missing chunks, unless a call fails. -/
def answerCase (count : Nat) (data : DataBlocks shape) (parity : ParityBlocks shape)
    (s : DeviceSide shape σ) : Option (List (List UInt8)) :=
  ((answerSetUp dev c s).bind (answerPasses dev c data parity count)).map fun s =>
    c.missing.map (answeredBlock c s)

/-- The block that is compared with a missing chunk. -/
def comparedChunk (st : DocaTestState shape σ) (index : Nat) : List UInt8 :=
  answeredBlock c st.deviceSide index

variable {dev c} {opts : Options} {buffers : ResultBuffers} {data data' : DataBlocks shape}
  {parity parity' : ParityBlocks shape} {matrixMissing : List Nat}
  {st st' : DocaTestState shape σ} {s : DeviceSide shape σ}

/-! ## The comparison -/

theorem mem_dataMissing {index : Nat} (h : index ∈ c.missing) (hdata : index < shape.k) :
    index ∈ c.dataMissing :=
  List.mem_filter.mpr ⟨h, decide_eq_true hdata⟩

theorem countMissingParity_pos {index : Nat} (h : index ∈ c.missing) (hparity : shape.k ≤ index) :
    0 < c.countMissingParity := by
  have hlt : c.dataMissing.length < c.missing.length := by
    apply List.length_filter_lt_length_iff_exists.mpr
    refine ⟨index, h, ?_⟩
    rw [decide_eq_true_eq]
    exact Nat.not_lt_of_le hparity
  exact Nat.sub_pos_of_lt hlt

/-- What the results hold at the missing chunks. -/
theorem exists_readBack (c : LossCase shape) (data : DataBlocks shape)
    (parity : ParityBlocks shape) (st : DocaTestState shape σ) :
    ∃ result, readBack c data parity st = .ok result ∧
      (∀ index ∈ c.missing,
        chunk result.resultData result.resultParity index = comparedChunk c st index) ∧
      result.ok = c.missing.all fun index =>
        chunk data parity index == chunk result.resultData result.resultParity index := by
  obtain ⟨resultData, hresult, hplaced⟩ : ∃ resultData,
      (if 0 < c.countMissingData then copyRecovered st.recoverDst c.missing 0 data
        else some data) = some resultData ∧
      ∀ t i, c.dataMissing[t]? = some i →
        resultData.segment shape.blockSize i = st.recoverDst.segment shape.blockSize t := by
    by_cases hd : 0 < c.countMissingData
    · obtain ⟨resultData, hcopy, hplaced, -⟩ := copyRecovered_case c st.recoverDst data
      exact ⟨resultData, by rw [if_pos hd, hcopy], hplaced⟩
    · refine ⟨data, if_neg hd, ?_⟩
      intro t i ht
      have hnil : c.dataMissing = [] := List.eq_nil_of_length_eq_zero (Nat.eq_zero_of_not_pos hd)
      rw [hnil] at ht
      cases ht
  simp only [readBack, hresult]
  refine ⟨_, rfl, ?_, rfl⟩
  intro index hindex
  unfold chunk comparedChunk answeredBlock
  by_cases hdata : index < shape.k
  · rw [if_pos hdata, if_pos hdata]
    exact hplaced _ _ (List.getElem?_idxOf (mem_dataMissing hindex hdata))
  · have hp := countMissingParity_pos hindex (Nat.le_of_not_lt hdata)
    rw [if_neg hdata, if_neg hdata, if_pos hp]
    rfl

/-- When a call returns true, by the state at the end of the loop. -/
theorem verdict_iff_repairCase (dev : EcDevice shape σ) (c : LossCase shape) (opts : Options)
    (buffers : ResultBuffers) (data : DataBlocks shape) (parity : ParityBlocks shape)
    (st : DocaTestState shape σ) :
    verdict (verifyDocaCase dev c opts buffers data parity st) = true ↔
      ∃ last, repairCase dev c opts buffers data parity st = .ok last ∧
        ∀ index ∈ c.missing, chunk data parity index = comparedChunk c last index := by
  unfold verifyDocaCase
  cases hrepair : repairCase dev c opts buffers data parity st with
  | error e =>
    refine iff_of_false Bool.false_ne_true ?_
    rintro ⟨last, hlast, -⟩
    cases hlast
  | ok last =>
    obtain ⟨result, hresult, hread, hok⟩ := exists_readBack c data parity last
    simp only [hresult, verdict, hok, List.all_eq_true, beq_iff_eq]
    constructor
    · intro hall
      exact ⟨last, rfl, fun index hindex => (hall index hindex).trans (hread index hindex)⟩
    · rintro ⟨last', hlast', hall⟩ index hindex
      cases hlast'
      rw [hall index hindex, hread index hindex]

/-! ## The loop gives the device its calls -/

/-- In front of a pass: what the device is given belongs to the codeword. -/
structure Given (c : LossCase shape) (data : DataBlocks shape) (parity : ParityBlocks shape)
    (matrixMissing : List Nat) (st : DocaTestState shape σ) : Prop where
  createSrc_eq : ∀ j, j ∉ c.dataMissing →
    st.createSrc.segment shape.blockSize j = data.segment shape.blockSize j
  recoverSrc_eq : 0 < c.countMissingData →
    st.recoverSrc.data = survivorBytes c data parity ∧ matrixMissing = c.holes

/-- The old contents of the missing blocks do not matter. -/
theorem copyRecovered_eq_of_sameElsewhere (recoverDst : ParityBlocks shape)
    (h : ∀ j, j < shape.k → j ∉ c.dataMissing →
      data.segment shape.blockSize j = data'.segment shape.blockSize j) :
    copyRecovered recoverDst c.missing 0 data = copyRecovered recoverDst c.missing 0 data' := by
  obtain ⟨dst, hcopy, hplaced, hkept⟩ := copyRecovered_case c recoverDst data
  obtain ⟨dst', hcopy', hplaced', hkept'⟩ := copyRecovered_case c recoverDst data'
  have hsame : dst = dst' := by
    apply Buffer.ext_segment
    intro j hj
    by_cases hmem : j ∈ c.dataMissing
    · obtain ⟨t, ht⟩ := List.getElem?_of_mem hmem
      rw [hplaced t j ht, hplaced' t j ht]
    · rw [hkept j hmem, hkept' j hmem, h j hj hmem]
  rw [hcopy, hcopy', hsame]

theorem copyRecovered_eq_restored (c : LossCase shape) (recoverDst : ParityBlocks shape)
    (data : DataBlocks shape) :
    copyRecovered recoverDst c.missing 0 data = some (restored c data recoverDst) ∧
      ∀ j, j ∉ c.dataMissing →
        (restored c data recoverDst).segment shape.blockSize j =
          data.segment shape.blockSize j := by
  obtain ⟨dst, hcopy, -, hkept⟩ := copyRecovered_case c recoverDst data
  rw [restored, hcopy]
  exact ⟨rfl, hkept⟩

/-- A case that misses no data restores none. -/
theorem restored_of_none (h : ¬ 0 < c.countMissingData) (recoverDst : ParityBlocks shape) :
    restored c data recoverDst = data := by
  have hnil : c.dataMissing = [] := List.eq_nil_of_length_eq_zero (Nat.eq_zero_of_not_pos h)
  obtain ⟨-, hkept⟩ := copyRecovered_eq_restored c recoverDst data
  apply Buffer.ext_segment
  intro j _
  exact hkept j (by rw [hnil]; exact List.not_mem_nil)

variable (dev) in
/-- The first half of a pass. -/
theorem recoverData_answers (h : Given c data parity matrixMissing st) :
    (∃ st', recoverData dev c matrixMissing st = .ok st' ∧
      (if 0 < c.countMissingData then
          answerRecover dev c (survivorBytes c data parity) st.deviceSide
        else some st.deviceSide) = some st'.deviceSide ∧
      Given c data parity matrixMissing st' ∧
      st'.createSrc = restored c data st'.recoverDst) ∨
    ∃ e, recoverData dev c matrixMissing st = .error e ∧
      (if 0 < c.countMissingData then
          answerRecover dev c (survivorBytes c data parity) st.deviceSide
        else some st.deviceSide) = none := by
  unfold recoverData
  by_cases hd : 0 < c.countMissingData
  · obtain ⟨hsrc, hholes⟩ := h.recoverSrc_eq hd
    simp only [if_pos hd, hholes, ← hsrc, runRecover, answerRecover, DocaTestState.deviceSide]
    cases dev.bufResetDataLen st.device with
    | mk device status =>
      cases status with
      | success =>
        cases hr : dev.recover device c.holes st.recoverSrc.data st.recoverDst with
        | mk device' answer =>
          obtain ⟨status', recoverDst⟩ := answer
          cases status' with
          | success =>
            have hsame : copyRecovered recoverDst c.missing 0 st.createSrc =
                copyRecovered recoverDst c.missing 0 data :=
              copyRecovered_eq_of_sameElsewhere recoverDst fun j _ hj => h.createSrc_eq j hj
            obtain ⟨hcopy, hkept⟩ := copyRecovered_eq_restored c recoverDst data
            simp only [hr, hsame, hcopy]
            exact Or.inl ⟨_, rfl, rfl, ⟨hkept, fun _ => ⟨hsrc, rfl⟩⟩, rfl⟩
          | inProgress =>
            simp only [hr]
            exact Or.inr ⟨_, rfl, trivial⟩
          | timeOut =>
            simp only [hr]
            exact Or.inr ⟨_, rfl, trivial⟩
          | other code =>
            simp only [hr]
            exact Or.inr ⟨_, rfl, trivial⟩
      | inProgress => exact Or.inr ⟨_, rfl, rfl⟩
      | timeOut => exact Or.inr ⟨_, rfl, rfl⟩
      | other code => exact Or.inr ⟨_, rfl, rfl⟩
  · rw [if_neg hd, if_neg hd]
    refine Or.inl ⟨st, rfl, rfl, h, ?_⟩
    have hnil : c.dataMissing = [] := List.eq_nil_of_length_eq_zero (Nat.eq_zero_of_not_pos hd)
    rw [restored_of_none hd]
    apply Buffer.ext_segment
    intro j _
    exact h.createSrc_eq j (by rw [hnil]; exact List.not_mem_nil)

/-- The second half. -/
theorem recreateParity_answers (h : Given c data parity matrixMissing st)
    (hrestored : st.createSrc = restored c data st.recoverDst) :
    (∃ st', recreateParity dev c st = .ok st' ∧
      (if 0 < c.countMissingParity then
          answerCreate dev (restored c data st.recoverDst).data st.deviceSide
        else some st.deviceSide) = some st'.deviceSide ∧
      Given c data parity matrixMissing st') ∨
    ∃ e, recreateParity dev c st = .error e ∧
      (if 0 < c.countMissingParity then
          answerCreate dev (restored c data st.recoverDst).data st.deviceSide
        else some st.deviceSide) = none := by
  unfold recreateParity
  by_cases hp : 0 < c.countMissingParity
  · simp only [if_pos hp, ← hrestored, runCreate, answerCreate, DocaTestState.deviceSide]
    cases dev.bufResetDataLen st.device with
    | mk device status =>
      cases status with
      | success =>
        cases hr : dev.create device st.createSrc.data st.createDst with
        | mk device' answer =>
          obtain ⟨status', createDst⟩ := answer
          cases status' with
          | success =>
            simp only [hr]
            exact Or.inl ⟨_, rfl, rfl, h.createSrc_eq, h.recoverSrc_eq⟩
          | inProgress =>
            simp only [hr]
            exact Or.inr ⟨_, rfl, trivial⟩
          | timeOut =>
            simp only [hr]
            exact Or.inr ⟨_, rfl, trivial⟩
          | other code =>
            simp only [hr]
            exact Or.inr ⟨_, rfl, trivial⟩
      | inProgress => exact Or.inr ⟨_, rfl, rfl⟩
      | timeOut => exact Or.inr ⟨_, rfl, rfl⟩
      | other code => exact Or.inr ⟨_, rfl, rfl⟩
  · rw [if_neg hp, if_neg hp]
    exact Or.inl ⟨st, rfl, rfl, h⟩

variable (dev) in
/-- One pass. -/
theorem repairIteration_answers (h : Given c data parity matrixMissing st) :
    (∃ st', repairIteration dev c matrixMissing st = .ok st' ∧
      answerPass dev c data parity st.deviceSide = some st'.deviceSide ∧
      Given c data parity matrixMissing st') ∨
    ∃ e, repairIteration dev c matrixMissing st = .error e ∧
      answerPass dev c data parity st.deviceSide = none := by
  unfold repairIteration answerPass
  rcases recoverData_answers dev h with
    ⟨st₁, hrecover, hanswer, hgiven, hrestored⟩ | ⟨e, hrecover, hanswer⟩
  · simp only [hrecover, hanswer, Option.bind_some]
    exact recreateParity_answers hgiven hrestored
  · simp only [hrecover, hanswer, Option.bind_none]
    exact Or.inr ⟨e, rfl, trivial⟩

variable (dev) in
/-- The loop. -/
theorem repairLoop_answers (count : Nat) (h : Given c data parity matrixMissing st) :
    (∃ last, repairLoop dev c matrixMissing count st = .ok last ∧
      answerPasses dev c data parity count st.deviceSide = some last.deviceSide) ∨
    ∃ e, repairLoop dev c matrixMissing count st = .error e ∧
      answerPasses dev c data parity count st.deviceSide = none := by
  induction count generalizing st with
  | zero => exact Or.inl ⟨st, rfl, rfl⟩
  | succ count ih =>
    unfold repairLoop answerPasses
    rcases repairIteration_answers dev h with
      ⟨st₁, hone, hanswer, hgiven⟩ | ⟨e, hone, hanswer⟩
    · simp only [hone, hanswer, Option.bind_some]
      exact ih hgiven
    · simp only [hone, hanswer, Option.bind_none]
      exact Or.inr ⟨e, rfl, trivial⟩

theorem prepareCase_answers (dev : EcDevice shape σ) (c : LossCase shape)
    (data : DataBlocks shape) (parity : ParityBlocks shape) (st : DocaTestState shape σ) :
    (∃ st' matrixMissing, prepareCase dev c data parity st = .ok (st', matrixMissing) ∧
      answerSetUp dev c st.deviceSide = some st'.deviceSide ∧
      Given c data parity matrixMissing st') ∨
    ∃ e, prepareCase dev c data parity st = .error e ∧
      answerSetUp dev c st.deviceSide = none := by
  unfold prepareCase answerSetUp
  by_cases hd : 0 < c.countMissingData
  · obtain ⟨src, hprepare, hsrc⟩ := prepareRecoverInput_spec c data parity st.recoverSrc
    simp only [if_pos hd, hprepare, DocaTestState.deviceSide]
    cases dev.matrixCreateRecover st.device c.holes with
    | mk device status =>
      cases status with
      | success =>
        cases halloc : dev.taskRecoverAllocateInit device with
        | mk device' status' =>
          cases status' with
          | success =>
            simp only [halloc]
            exact Or.inl ⟨_, _, rfl, rfl, fun _ _ => rfl, fun _ => ⟨hsrc, rfl⟩⟩
          | inProgress =>
            simp only [halloc]
            exact Or.inr ⟨_, rfl, trivial⟩
          | timeOut =>
            simp only [halloc]
            exact Or.inr ⟨_, rfl, trivial⟩
          | other code =>
            simp only [halloc]
            exact Or.inr ⟨_, rfl, trivial⟩
      | inProgress => exact Or.inr ⟨_, rfl, rfl⟩
      | timeOut => exact Or.inr ⟨_, rfl, rfl⟩
      | other code => exact Or.inr ⟨_, rfl, rfl⟩
  · rw [if_neg hd, if_neg hd]
    exact Or.inl ⟨_, _, rfl, rfl, fun _ _ => rfl, fun h => absurd h hd⟩

/-- The function fails with the first call that fails, and otherwise holds the blocks that
the device has answered. -/
theorem repairCase_answers (hbuffers : buffers.allocated = true) (dev : EcDevice shape σ)
    (c : LossCase shape) (opts : Options) (data : DataBlocks shape)
    (parity : ParityBlocks shape) (st : DocaTestState shape σ) :
    (∃ last, repairCase dev c opts buffers data parity st = .ok last ∧
      answerCase dev c opts.repetitions data parity st.deviceSide =
        some (c.missing.map (comparedChunk c last))) ∨
    ∃ e, repairCase dev c opts buffers data parity st = .error e ∧
      answerCase dev c opts.repetitions data parity st.deviceSide = none := by
  rw [repairCase, if_pos hbuffers, answerCase]
  rcases prepareCase_answers dev c data parity st with
    ⟨st₁, matrixMissing, hprepare, hanswer, hgiven⟩ | ⟨e, hprepare, hanswer⟩
  · simp only [hprepare, hanswer, Option.bind_some]
    rcases repairLoop_answers dev opts.repetitions hgiven with
      ⟨last, hloop, hpasses⟩ | ⟨e, hloop, hpasses⟩
    · rw [hpasses]
      exact Or.inl ⟨last, hloop, rfl⟩
    · rw [hpasses]
      exact Or.inr ⟨e, hloop, rfl⟩
  · simp only [hprepare, hanswer, Option.bind_none]
    exact Or.inr ⟨e, rfl, rfl⟩

/-- When a call returns true, by the answers of the device. -/
theorem verdict_iff (dev : EcDevice shape σ) (c : LossCase shape) (opts : Options)
    (buffers : ResultBuffers) (data : DataBlocks shape) (parity : ParityBlocks shape)
    (st : DocaTestState shape σ) :
    verdict (verifyDocaCase dev c opts buffers data parity st) = true ↔
      buffers.allocated = true ∧
        answerCase dev c opts.repetitions data parity st.deviceSide =
          some (c.missing.map (chunk data parity)) := by
  rw [verdict_iff_repairCase]
  by_cases hbuffers : buffers.allocated = true
  · rcases repairCase_answers hbuffers dev c opts data parity st with
      ⟨last, hlast, hanswer⟩ | ⟨e, he, hanswer⟩
    · rw [hlast, hanswer, Option.some.injEq, List.map_inj_left]
      constructor
      · rintro ⟨last', hlast', hall⟩
        cases hlast'
        exact ⟨hbuffers, fun index hindex => (hall index hindex).symm⟩
      · rintro ⟨-, hall⟩
        exact ⟨last, rfl, fun index hindex => (hall index hindex).symm⟩
    · rw [he, hanswer]
      simp
  · rw [repairCase, if_neg hbuffers]
    simp [hbuffers]

/-! ## What the device is given -/

theorem length_chunk (data : DataBlocks shape) (parity : ParityBlocks shape) {index : Nat}
    (h : index < shape.k + shape.m) : (chunk data parity index).length = shape.blockSize := by
  unfold chunk
  by_cases hdata : index < shape.k
  · rw [if_pos hdata]
    exact Buffer.length_segment (Buffer.segment_bound _ hdata)
  · rw [if_neg hdata]
    exact Buffer.length_segment (Buffer.segment_bound _ (by omega))

/-- The bytes of the survivors are their chunks. -/
theorem chunk_eq_of_survivorBytes
    (h : survivorBytes c data parity = survivorBytes c data' parity') :
    ∀ i ∈ c.survivors, chunk data parity i = chunk data' parity' i := by
  have hblocks : ∀ (d : DataBlocks shape) (p : ParityBlocks shape),
      blocksAt (survivorBytes c d p) 0 shape.blockSize c.survivors.length =
        c.survivors.map (chunk d p) := by
    intro d p
    have hlen : ∀ block ∈ c.survivors.map (chunk d p), block.length = shape.blockSize := by
      intro block hblock
      obtain ⟨i, hi, rfl⟩ := List.mem_map.mp hblock
      exact length_chunk d p (c.notMem_of_mem_survivors hi).1
    have hflat := blocksAt_flatten hlen
    rw [List.length_map] at hflat
    exact hflat
  apply List.map_inj_left.mp
  rw [← hblocks data parity, ← hblocks data' parity', h]

/-- The survivors take all the data that there are. -/
theorem LossCase.mem_survivors_of_lt {j : Nat} (hj : j < shape.k) (hnot : j ∉ c.dataMissing) :
    j ∈ c.survivors := by
  have hmiss : c.hasMissing j = false :=
    decide_eq_false fun hmem => hnot (mem_dataMissing hmem hj)
  have hprefix : c.survivorsBelow (j + 1) <+: c.survivors := by
    have htake := (c.survivorsBelow_prefix (show j + 1 ≤ shape.k + shape.m by omega)).take shape.k
    have hlen := c.survivorsBelow_length_le (j + 1)
    rw [List.take_of_length_le (show (c.survivorsBelow (j + 1)).length ≤ shape.k by omega)] at htake
    exact htake
  apply hprefix.subset
  rw [c.survivorsBelow_succ_of_surviving hmiss]
  exact List.mem_append_right _ (List.mem_singleton_self j)

theorem restored_congr (h : survivorBytes c data parity = survivorBytes c data' parity')
    (recoverDst : ParityBlocks shape) : restored c data recoverDst = restored c data' recoverDst := by
  have hkept : ∀ j, j < shape.k → j ∉ c.dataMissing →
      data.segment shape.blockSize j = data'.segment shape.blockSize j := by
    intro j hj hnot
    have hchunk := chunk_eq_of_survivorBytes h j (c.mem_survivors_of_lt hj hnot)
    rw [chunk, chunk, if_pos hj, if_pos hj] at hchunk
    exact hchunk
  have hcopy := copyRecovered_eq_of_sameElsewhere recoverDst hkept
  rw [(copyRecovered_eq_restored c recoverDst data).1,
    (copyRecovered_eq_restored c recoverDst data').1] at hcopy
  exact Option.some.inj hcopy

/-- A device gets the same calls for two codewords with the same survivors. -/
theorem answerCase_congr (h : survivorBytes c data parity = survivorBytes c data' parity')
    (dev : EcDevice shape σ) (count : Nat) (s : DeviceSide shape σ) :
    answerCase dev c count data parity s = answerCase dev c count data' parity' s := by
  have hpasses : ∀ count s, answerPasses dev c data parity count s =
      answerPasses dev c data' parity' count s := by
    intro count
    induction count with
    | zero => exact fun _ => rfl
    | succ count ih =>
      intro s
      simp only [answerPasses, answerPass, h, restored_congr h]
      congr 1
      exact funext ih
  rw [answerCase, answerCase, funext (hpasses count)]

/-! ## A codeword that is expected -/

theorem length_answeredBlock (s : DeviceSide shape σ) {index : Nat} (h : index ∈ c.missing) :
    (answeredBlock c s index).length = shape.blockSize := by
  have hlt := c.lt_total index h
  unfold answeredBlock
  by_cases hdata : index < shape.k
  · have hslot : c.dataMissing.idxOf index < shape.m :=
      Nat.lt_of_lt_of_le (List.idxOf_lt_length_iff.mpr (mem_dataMissing h hdata))
        (Nat.le_trans (List.length_filter_le _ _) c.length_le)
    rw [if_pos hdata]
    exact Buffer.length_segment (Buffer.segment_bound _ hslot)
  · rw [if_neg hdata]
    exact Buffer.length_segment (Buffer.segment_bound _ (by omega))

/-- A codeword with the same survivors whose missing chunks are the answered blocks. -/
theorem exists_expected (c : LossCase shape) (data : DataBlocks shape)
    (parity : ParityBlocks shape) (s : DeviceSide shape σ) :
    ∃ data' parity', survivorBytes c data parity = survivorBytes c data' parity' ∧
      c.missing.map (chunk data' parity') = c.missing.map (answeredBlock c s) := by
  let block (index : Nat) : List UInt8 :=
    if index ∈ c.missing then answeredBlock c s index else chunk data parity index
  have hlength : ∀ index, index < shape.k + shape.m → (block index).length = shape.blockSize := by
    intro index hindex
    by_cases hmem : index ∈ c.missing
    · simp only [block, if_pos hmem]
      exact length_answeredBlock s hmem
    · simp only [block, if_neg hmem]
      exact length_chunk data parity hindex
  obtain ⟨data', hdata'⟩ : ∃ data' : DataBlocks shape, ∀ j, j < shape.k →
      data'.segment shape.blockSize j = block j :=
    Buffer.exists_segment fun j hj => hlength j (Nat.lt_add_right _ hj)
  obtain ⟨parity', hparity'⟩ : ∃ parity' : ParityBlocks shape, ∀ j, j < shape.m →
      parity'.segment shape.blockSize j = block (shape.k + j) :=
    Buffer.exists_segment fun j hj => hlength (shape.k + j) (Nat.add_lt_add_left hj _)
  have hchunk : ∀ index, index < shape.k + shape.m →
      chunk data' parity' index = block index := by
    intro index hindex
    unfold chunk
    by_cases hdata : index < shape.k
    · rw [if_pos hdata, hdata' index hdata]
    · rw [if_neg hdata, hparity' _ (by omega), Nat.add_sub_of_le (Nat.le_of_not_lt hdata)]
  refine ⟨data', parity', ?_, ?_⟩
  · unfold survivorBytes
    congr 1
    apply List.map_congr_left
    intro index hindex
    obtain ⟨hlt, hnot⟩ := c.notMem_of_mem_survivors hindex
    rw [hchunk index hlt]
    exact (if_neg hnot).symm
  · apply List.map_congr_left
    intro index hmem
    rw [hchunk index (c.lt_total index hmem)]
    exact if_pos hmem

/-- What a case answers are the blocks of some state of the device. -/
theorem exists_answeredBlock {count : Nat} {blocks : List (List UInt8)}
    (h : answerCase dev c count data parity s = some blocks) :
    ∃ t : DeviceSide shape σ, blocks = c.missing.map (answeredBlock c t) := by
  obtain ⟨t, -, ht⟩ := Option.map_eq_some_iff.mp h
  exact ⟨t, ht.symm⟩

end

end DpuTest.EcDecode
