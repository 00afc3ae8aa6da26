import DpuTest.Doca
import DpuTest.EcDecode.RecoverInput
import DpuTest.EcEncode.Single

/-!
# Verifying one loss case

`verify_doca_case` repairs the missing chunks of a codeword a number of times
and compares the result with the originals.  Missing data come from a recover
task, missing parity from a create task on the repaired data.

The device is a parameter, `EcDevice`: a state of its own and an answer to each
call.  Nothing is assumed of it until `Correct`, which says that its tasks
compute the code that they stand for.

* `verifyDocaCase_ready` is a correct device at work: after one repetition or
  more everything that is read back is as in the original.
* `repairsEvery_iff`: a correct device repairs every loss case if and only if
  there is a repetition.  The number of them is a 32-bit sum and may wrap to 0.
-/

namespace DpuTest.EcDecode

open Lib EcEncode

/-- `struct options`, as far as it says how often a case is repeated. -/
structure Options where
  iterations : UInt32
  warmups : UInt32

/-- `opts->warmups + opts->iterations`, the bound of the loop. -/
def Options.repetitions (opts : Options) : Nat := (opts.warmups + opts.iterations).toNat

/-- The device: its state, and what the calls answer.  The last two stand for
`run_doca_task`, with the bytes of the source and the destination before and
after the task. -/
structure EcDevice (shape : EcShape) (σ : Type) where
  start : σ
  matrixCreateRecover : σ → List Nat → σ × DocaStatus
  taskRecoverAllocateInit : σ → σ × DocaStatus
  bufResetDataLen : σ → σ × DocaStatus
  recover : σ → List Nat → List UInt8 → ParityBlocks shape →
    σ × DocaStatus × ParityBlocks shape
  create : σ → List UInt8 → ParityBlocks shape → σ × DocaStatus × ParityBlocks shape

/-- `struct doca_test_state`: its four memory regions, and the device. -/
structure DocaTestState (shape : EcShape) (σ : Type) where
  createSrc : DataBlocks shape
  recoverSrc : DataBlocks shape
  createDst : ParityBlocks shape
  recoverDst : ParityBlocks shape
  device : σ

/-- Whether `malloc` returns memory for `result_data` and for `result_parity`. -/
structure ResultBuffers where
  resultData : Bool
  resultParity : Bool

/-- Both are there. -/
def ResultBuffers.allocated (buffers : ResultBuffers) : Bool :=
  buffers.resultData && buffers.resultParity

/-- Why `verify_doca_case` returns false before it compares. -/
inductive VerifyError where
  /-- `Unable to allocate DOCA result buffers` -/
  | noMemory
  /-- `recovery matrix creation failed` -/
  | recoverMatrix (error : DocaStatus)
  /-- `recover task allocation failed` -/
  | recoverAllocation (error : DocaStatus)
  /-- `DOCA recover failed` -/
  | recover (error : DocaStatus)
  /-- `DOCA parity re-create failed` -/
  | create (error : DocaStatus)
  | outOfBounds
  deriving DecidableEq

/-- `result_data`, `result_parity` and `ok`. -/
structure CaseResult (shape : EcShape) where
  resultData : DataBlocks shape
  resultParity : ParityBlocks shape
  ok : Bool

section

variable {shape : EcShape} {σ : Type} (dev : EcDevice shape σ) (c : LossCase shape)

/-- `doca_buf_reset_data_len(recover_dst_buf)` and the recover task. -/
def runRecover (matrixMissing : List Nat) (st : DocaTestState shape σ) :
    DocaStatus × DocaTestState shape σ :=
  match dev.bufResetDataLen st.device with
  | (device, .success) =>
    let (device, status, recoverDst) :=
      dev.recover device matrixMissing st.recoverSrc.data st.recoverDst
    (status, { st with device := device, recoverDst := recoverDst })
  | (device, error) => (error, { st with device := device })

/-- `run_create`. -/
def runCreate (st : DocaTestState shape σ) : DocaStatus × DocaTestState shape σ :=
  match dev.bufResetDataLen st.device with
  | (device, .success) =>
    let (device, status, createDst) := dev.create device st.createSrc.data st.createDst
    (status, { st with device := device, createDst := createDst })
  | (device, error) => (error, { st with device := device })

/-- The loop over `test_case->missing` that copies the recovered data blocks to
their places, with its `output_index`. -/
def copyRecovered (recoverDst : ParityBlocks shape) :
    List Nat → Nat → DataBlocks shape → Option (DataBlocks shape)
  | [], _, dst => some dst
  | index :: missing, outputIndex, dst =>
    if shape.k ≤ index then copyRecovered recoverDst missing outputIndex dst
    else
      match dst.copy (index * shape.blockSize) recoverDst (outputIndex * shape.blockSize)
          shape.blockSize with
      | none => none
      | some dst => copyRecovered recoverDst missing (outputIndex + 1) dst

/-- The first half of a repetition. -/
def recoverData (matrixMissing : List Nat) (st : DocaTestState shape σ) :
    Except VerifyError (DocaTestState shape σ) :=
  if 0 < c.countMissingData then
    match runRecover dev matrixMissing st with
    | (.success, st) =>
      match copyRecovered st.recoverDst c.missing 0 st.createSrc with
      | none => .error .outOfBounds
      | some createSrc => .ok { st with createSrc := createSrc }
    | (error, _) => .error (.recover error)
  else .ok st

/-- The second half. -/
def recreateParity (st : DocaTestState shape σ) :
    Except VerifyError (DocaTestState shape σ) :=
  if 0 < c.countMissingParity then
    match runCreate dev st with
    | (.success, st) => .ok st
    | (error, _) => .error (.create error)
  else .ok st

/-- One pass of the loop over `iteration`. -/
def repairIteration (matrixMissing : List Nat) (st : DocaTestState shape σ) :
    Except VerifyError (DocaTestState shape σ) :=
  match recoverData dev c matrixMissing st with
  | .error e => .error e
  | .ok st => recreateParity dev c st

/-- So many passes. -/
def repairLoop (matrixMissing : List Nat) :
    Nat → DocaTestState shape σ → Except VerifyError (DocaTestState shape σ)
  | 0, st => .ok st
  | count + 1, st =>
    match repairIteration dev c matrixMissing st with
    | .error e => .error e
    | .ok st => repairLoop matrixMissing count st

/-- What comes before the loop: the state, and the indices of the recover task. -/
def prepareCase (data : DataBlocks shape) (parity : ParityBlocks shape)
    (st : DocaTestState shape σ) :
    Except VerifyError (DocaTestState shape σ × List Nat) :=
  if 0 < c.countMissingData then
    match prepareRecoverInput c data parity st.recoverSrc with
    | none => .error .outOfBounds
    | some (recoverSrc, matrixMissing) =>
      match dev.matrixCreateRecover st.device matrixMissing with
      | (device, .success) =>
        match dev.taskRecoverAllocateInit device with
        | (device, .success) =>
          .ok ({ st with createSrc := data, recoverSrc := recoverSrc, device := device },
            matrixMissing)
        | (_, error) => .error (.recoverAllocation error)
      | (_, error) => .error (.recoverMatrix error)
  else .ok ({ st with createSrc := data }, [])

/-- What comes after the loop: the results are read back and compared. -/
def readBack (data : DataBlocks shape) (parity : ParityBlocks shape)
    (st : DocaTestState shape σ) : Except VerifyError (CaseResult shape) :=
  match if 0 < c.countMissingData then copyRecovered st.recoverDst c.missing 0 data
      else some data with
  | none => .error .outOfBounds
  | some resultData =>
    let resultParity := if 0 < c.countMissingParity then st.createDst else parity
    .ok {
      resultData := resultData
      resultParity := resultParity
      ok := c.missing.all fun index =>
        chunk data parity index == chunk resultData resultParity index }

/-- `verify_doca_case` up to the end of the loop. -/
def repairCase (opts : Options) (buffers : ResultBuffers) (data : DataBlocks shape)
    (parity : ParityBlocks shape) (st : DocaTestState shape σ) :
    Except VerifyError (DocaTestState shape σ) :=
  if buffers.allocated then
    match prepareCase dev c data parity st with
    | .error e => .error e
    | .ok (st, matrixMissing) => repairLoop dev c matrixMissing opts.repetitions st
  else .error .noMemory

/-- `verify_doca_case`. -/
def verifyDocaCase (opts : Options) (buffers : ResultBuffers) (data : DataBlocks shape)
    (parity : ParityBlocks shape) (st : DocaTestState shape σ) :
    Except VerifyError (CaseResult shape) :=
  match repairCase dev c opts buffers data parity st with
  | .error e => .error e
  | .ok st => readBack c data parity st

/-- Its return value. -/
def verdict (result : Except VerifyError (CaseResult shape)) : Bool :=
  match result with
  | .error _ => false
  | .ok result => result.ok

/-! ## Copying the recovered blocks -/

variable {dev : EcDevice shape σ} {c : LossCase shape}

/-- The recovered blocks are at their places, and the other blocks are as before. -/
theorem copyRecovered_spec (recoverDst : ParityBlocks shape) {missing : List Nat}
    (hnodup : missing.Nodup) {outputIndex : Nat}
    (hroom : outputIndex + (dataIndices shape missing).length ≤ shape.m)
    (dst : DataBlocks shape) :
    ∃ dst', copyRecovered recoverDst missing outputIndex dst = some dst' ∧
      (∀ t i, (dataIndices shape missing)[t]? = some i →
        dst'.segment shape.blockSize i = recoverDst.segment shape.blockSize (outputIndex + t)) ∧
      ∀ j, j ∉ dataIndices shape missing →
        dst'.segment shape.blockSize j = dst.segment shape.blockSize j := by
  induction missing generalizing outputIndex dst with
  | nil =>
    refine ⟨dst, rfl, ?_, fun _ _ => rfl⟩
    intro t i ht
    cases ht
  | cons index missing ih =>
    rw [List.nodup_cons] at hnodup
    by_cases hdata : index < shape.k
    · rw [dataIndices_cons_of_lt missing hdata] at hroom ⊢
      rw [List.length_cons] at hroom
      have hout : outputIndex < shape.m := by omega
      obtain ⟨dst₁, hcopy⟩ := Buffer.copy_eq_some dst recoverDst
        (Buffer.segment_bound shape.blockSize hout) (Buffer.segment_bound shape.blockSize hdata)
      obtain ⟨hself, hother⟩ := Buffer.segment_copy hcopy
      have hrest₁ : outputIndex + 1 + (dataIndices shape missing).length ≤ shape.m := by
        omega
      obtain ⟨dst', hrest, hplaced, hkept⟩ := ih hnodup.2 hrest₁ dst₁
      have hnotMem : index ∉ dataIndices shape missing :=
        fun hmem => hnodup.1 (List.mem_of_mem_filter hmem)
      refine ⟨dst', ?_, ?_, ?_⟩
      · rw [copyRecovered, if_neg (Nat.not_le_of_lt hdata), hcopy]
        exact hrest
      · intro t i ht
        cases t with
        | zero =>
          cases ht
          rw [hkept index hnotMem, hself]
          rfl
        | succ t =>
          rw [List.getElem?_cons_succ] at ht
          rw [hplaced t i ht, Nat.add_assoc, Nat.add_comm 1]
      · intro j hj
        rw [List.mem_cons, not_or] at hj
        rw [hkept j hj.2, hother j hj.1]
    · rw [dataIndices_cons_of_ge missing (Nat.le_of_not_lt hdata)] at hroom ⊢
      obtain ⟨dst', hrest, hspec⟩ := ih hnodup.2 hroom dst
      refine ⟨dst', ?_, hspec⟩
      rw [copyRecovered, if_pos (Nat.le_of_not_lt hdata)]
      exact hrest

/-- Only the first blocks of the output are read. -/
theorem copyRecovered_congr {recoverDst recoverDst' : ParityBlocks shape} {missing : List Nat}
    {outputIndex : Nat}
    (h : ∀ t, t < (dataIndices shape missing).length →
      recoverDst.segment shape.blockSize (outputIndex + t) =
        recoverDst'.segment shape.blockSize (outputIndex + t)) (dst : DataBlocks shape) :
    copyRecovered recoverDst missing outputIndex dst =
      copyRecovered recoverDst' missing outputIndex dst := by
  induction missing generalizing outputIndex dst with
  | nil => rfl
  | cons index missing ih =>
    by_cases hdata : index < shape.k
    · rw [dataIndices_cons_of_lt missing hdata, List.length_cons] at h
      have hzero := h 0 (Nat.succ_pos _)
      rw [Nat.add_zero] at hzero
      have hrest : ∀ t, t < (dataIndices shape missing).length →
          recoverDst.segment shape.blockSize (outputIndex + 1 + t) =
            recoverDst'.segment shape.blockSize (outputIndex + 1 + t) := by
        intro t ht
        have hsucc := h (t + 1) (Nat.succ_lt_succ ht)
        rw [Nat.add_comm t, ← Nat.add_assoc] at hsucc
        exact hsucc
      rw [copyRecovered, copyRecovered, if_neg (Nat.not_le_of_lt hdata),
        if_neg (Nat.not_le_of_lt hdata),
        Buffer.copy_segment_congr dst (index * shape.blockSize) hzero]
      split
      · rfl
      · exact ih hrest _
    · rw [dataIndices_cons_of_ge missing (Nat.le_of_not_lt hdata)] at h
      rw [copyRecovered, copyRecovered, if_pos (Nat.le_of_not_lt hdata),
        if_pos (Nat.le_of_not_lt hdata)]
      exact ih h dst

/-- The copy of a whole loss case. -/
theorem copyRecovered_case (c : LossCase shape) (recoverDst : ParityBlocks shape)
    (dst : DataBlocks shape) :
    ∃ dst', copyRecovered recoverDst c.missing 0 dst = some dst' ∧
      (∀ t i, c.dataMissing[t]? = some i →
        dst'.segment shape.blockSize i = recoverDst.segment shape.blockSize t) ∧
      ∀ j, j ∉ c.dataMissing →
        dst'.segment shape.blockSize j = dst.segment shape.blockSize j := by
  have hroom : 0 + (dataIndices shape c.missing).length ≤ shape.m := by
    rw [Nat.zero_add]
    exact Nat.le_trans (List.length_filter_le _ _) c.length_le
  obtain ⟨dst', hcopy, hplaced, hkept⟩ := copyRecovered_spec recoverDst c.nodup hroom dst
  refine ⟨dst', hcopy, ?_, hkept⟩
  intro t i ht
  rw [hplaced t i ht, Nat.zero_add]

/-- Right blocks leave right data. -/
theorem copyRecovered_of_eq {recoverDst : ParityBlocks shape} {data : DataBlocks shape}
    (h : ∀ t i, c.dataMissing[t]? = some i →
      recoverDst.segment shape.blockSize t = data.segment shape.blockSize i) :
    copyRecovered recoverDst c.missing 0 data = some data := by
  obtain ⟨dst', hcopy, hplaced, hkept⟩ := copyRecovered_case c recoverDst data
  have hsame : dst' = data := by
    apply Buffer.ext_segment
    intro j _
    by_cases hj : j ∈ c.dataMissing
    · obtain ⟨t, ht⟩ := List.getElem?_of_mem hj
      rw [hplaced t j ht, h t j ht]
    · exact hkept j hj
  rw [hcopy, hsame]

/-! ## A correct device -/

/-- All calls succeed.  A create task writes the parity of its source.  A recover
task that gets the survivors of a codeword and the holes writes the chunks that
are missing there, in the order of the indices. -/
structure Correct (dev : EcDevice shape σ) (code : ErasureCode shape.k shape.m) : Prop where
  matrixCreateRecover_ok : ∀ d (c : LossCase shape),
    (dev.matrixCreateRecover d c.holes).2 = .success
  taskRecoverAllocateInit_ok : ∀ d, (dev.taskRecoverAllocateInit d).2 = .success
  bufResetDataLen_ok : ∀ d, (dev.bufResetDataLen d).2 = .success
  create_ok : ∀ d (data : DataBlocks shape) dst, (dev.create d data.data dst).2.1 = .success ∧
    (dev.create d data.data dst).2.2.data = ecCreate code data.data
  recover_ok : ∀ d (c : LossCase shape) (data : DataBlocks shape) (parity : ParityBlocks shape) dst,
    parity.data = ecCreate code data.data →
    (dev.recover d c.holes (survivorBytes c data parity) dst).2.1 = .success ∧
      ∀ t i, c.holes[t]? = some i →
        (dev.recover d c.holes (survivorBytes c data parity) dst).2.2.segment shape.blockSize t =
          chunk data parity i

/-- The same for one loss case, of which the missing data are recovered. -/
structure CorrectFor (dev : EcDevice shape σ) (code : ErasureCode shape.k shape.m)
    (c : LossCase shape) : Prop where
  matrixCreateRecover_ok : ∀ d, (dev.matrixCreateRecover d c.holes).2 = .success
  taskRecoverAllocateInit_ok : ∀ d, (dev.taskRecoverAllocateInit d).2 = .success
  bufResetDataLen_ok : ∀ d, (dev.bufResetDataLen d).2 = .success
  create_ok : ∀ d (data : DataBlocks shape) dst, (dev.create d data.data dst).2.1 = .success ∧
    (dev.create d data.data dst).2.2.data = ecCreate code data.data
  recover_ok : ∀ d (data : DataBlocks shape) (parity : ParityBlocks shape) dst,
    parity.data = ecCreate code data.data →
    (dev.recover d c.holes (survivorBytes c data parity) dst).2.1 = .success ∧
      ∀ t i, c.dataMissing[t]? = some i →
        (dev.recover d c.holes (survivorBytes c data parity) dst).2.2.segment shape.blockSize t =
          data.segment shape.blockSize i

/-- In front of the loop and between its passes. -/
structure Ready (c : LossCase shape) (data : DataBlocks shape) (parity : ParityBlocks shape)
    (matrixMissing : List Nat) (st : DocaTestState shape σ) : Prop where
  createSrc_eq : st.createSrc = data
  recoverSrc_eq : 0 < c.countMissingData →
    st.recoverSrc.data = survivorBytes c data parity ∧ matrixMissing = c.holes

/-- After a pass: the blocks that are read back are right. -/
structure Repaired (c : LossCase shape) (data : DataBlocks shape) (parity : ParityBlocks shape)
    (st : DocaTestState shape σ) : Prop where
  recoverDst_eq : 0 < c.countMissingData → ∀ t i, c.dataMissing[t]? = some i →
    st.recoverDst.segment shape.blockSize t = data.segment shape.blockSize i
  createDst_eq : 0 < c.countMissingParity → st.createDst = parity

variable {code : ErasureCode shape.k shape.m} {data : DataBlocks shape}
  {parity : ParityBlocks shape} {matrixMissing : List Nat} {st : DocaTestState shape σ}

/-- The missing data are where the holes say. -/
theorem getElem?_holes {t i : Nat} (h : c.dataMissing[t]? = some i) :
    c.holes[t]? = some i ∧ i < shape.k := by
  obtain ⟨rest, hrest⟩ := c.dataMissing_prefix_holes
  obtain ⟨hlt, -⟩ := List.getElem?_eq_some_iff.mp h
  have hmem : i ∈ dataIndices shape c.missing := List.mem_of_getElem? h
  refine ⟨?_, decide_eq_true_eq.mp (List.mem_filter.mp hmem).2⟩
  rw [← hrest, List.getElem?_append_left hlt]
  exact h

theorem Correct.correctFor (hdev : Correct dev code) (c : LossCase shape) :
    CorrectFor dev code c where
  matrixCreateRecover_ok d := hdev.matrixCreateRecover_ok d c
  taskRecoverAllocateInit_ok := hdev.taskRecoverAllocateInit_ok
  bufResetDataLen_ok := hdev.bufResetDataLen_ok
  create_ok := hdev.create_ok
  recover_ok d data parity dst hparity := by
    obtain ⟨hstatus, hblocks⟩ := hdev.recover_ok d c data parity dst hparity
    refine ⟨hstatus, ?_⟩
    intro t i ht
    obtain ⟨hhole, hi⟩ := getElem?_holes ht
    rw [hblocks t i hhole, chunk, if_pos hi]

theorem prepareCase_ready (hdev : CorrectFor dev code c)
    (data : DataBlocks shape) (parity : ParityBlocks shape) (st : DocaTestState shape σ) :
    ∃ st' matrixMissing, prepareCase dev c data parity st = .ok (st', matrixMissing) ∧
      st'.recoverDst = st.recoverDst ∧ Ready c data parity matrixMissing st' := by
  unfold prepareCase
  by_cases hd : 0 < c.countMissingData
  · obtain ⟨src, hprepare, hsrc⟩ := prepareRecoverInput_spec c data parity st.recoverSrc
    have hmatrix := hdev.matrixCreateRecover_ok st.device
    rw [if_pos hd]
    simp only [hprepare]
    cases hm : dev.matrixCreateRecover st.device c.holes with
    | mk device status =>
      rw [hm] at hmatrix
      have halloc := hdev.taskRecoverAllocateInit_ok device
      cases ha : dev.taskRecoverAllocateInit device with
      | mk device' status' =>
        rw [ha] at halloc
        subst hmatrix halloc
        refine ⟨{ st with createSrc := data, recoverSrc := src, device := device' }, c.holes, ?_,
          rfl, rfl, fun _ => ⟨hsrc, rfl⟩⟩
        simp only [ha]
  · rw [if_neg hd]
    exact ⟨{ st with createSrc := data }, [], rfl, rfl, rfl, fun h => absurd h hd⟩

theorem recoverData_ready (hdev : CorrectFor dev code c)
    (hparity : parity.data = ecCreate code data.data)
    (h : Ready c data parity matrixMissing st) :
    ∃ st', recoverData dev c matrixMissing st = .ok st' ∧
      Ready c data parity matrixMissing st' ∧
      (0 < c.countMissingData → ∀ t i, c.dataMissing[t]? = some i →
        st'.recoverDst.segment shape.blockSize t = data.segment shape.blockSize i) := by
  unfold recoverData
  by_cases hd : 0 < c.countMissingData
  · obtain ⟨hsrc, hholes⟩ := h.recoverSrc_eq hd
    have hreset := hdev.bufResetDataLen_ok st.device
    cases hr : dev.bufResetDataLen st.device with
    | mk device status =>
      rw [hr] at hreset
      have hrecover := hdev.recover_ok device data parity st.recoverDst hparity
      rw [← hsrc, ← hholes] at hrecover
      cases ht : dev.recover device matrixMissing st.recoverSrc.data st.recoverDst with
      | mk device' result =>
        rw [ht] at hrecover
        obtain ⟨status', recoverDst⟩ := result
        obtain ⟨hstatus, hblocks⟩ := hrecover
        simp only at hreset hstatus hblocks
        subst hreset hstatus
        have hcopy := copyRecovered_of_eq hblocks
        rw [if_pos hd]
        simp only [runRecover, hr, ht, h.createSrc_eq, hcopy]
        exact ⟨_, rfl, ⟨rfl, fun _ => ⟨hsrc, hholes⟩⟩, fun _ => hblocks⟩
  · rw [if_neg hd]
    exact ⟨st, rfl, h, fun h => absurd h hd⟩

theorem recreateParity_ready (hdev : CorrectFor dev code c)
    (hparity : parity.data = ecCreate code data.data)
    (h : Ready c data parity matrixMissing st) :
    ∃ st', recreateParity dev c st = .ok st' ∧ Ready c data parity matrixMissing st' ∧
      st'.recoverDst = st.recoverDst ∧ (0 < c.countMissingParity → st'.createDst = parity) := by
  unfold recreateParity
  by_cases hp : 0 < c.countMissingParity
  · have hreset := hdev.bufResetDataLen_ok st.device
    cases hr : dev.bufResetDataLen st.device with
    | mk device status =>
      rw [hr] at hreset
      have hcreate := hdev.create_ok device data st.createDst
      rw [← h.createSrc_eq] at hcreate
      cases ht : dev.create device st.createSrc.data st.createDst with
      | mk device' result =>
        rw [ht] at hcreate
        obtain ⟨status', createDst⟩ := result
        obtain ⟨hstatus, hblocks⟩ := hcreate
        simp only at hreset hstatus hblocks
        subst hreset hstatus
        rw [if_pos hp]
        simp only [runCreate, hr, ht]
        refine ⟨_, rfl, ⟨h.createSrc_eq, h.recoverSrc_eq⟩, rfl, ?_⟩
        intro _
        apply Buffer.ext
        rw [hblocks, hparity, h.createSrc_eq]
  · rw [if_neg hp]
    exact ⟨st, rfl, h, rfl, fun h => absurd h hp⟩

/-- One pass repairs. -/
theorem repairIteration_ready (hdev : CorrectFor dev code c)
    (hparity : parity.data = ecCreate code data.data)
    (h : Ready c data parity matrixMissing st) :
    ∃ st', repairIteration dev c matrixMissing st = .ok st' ∧
      Ready c data parity matrixMissing st' ∧ Repaired c data parity st' := by
  obtain ⟨st₁, hrecover, hready₁, hright⟩ := recoverData_ready hdev hparity h
  obtain ⟨st₂, hcreate, hready₂, hkept, hparity₂⟩ := recreateParity_ready hdev hparity hready₁
  refine ⟨st₂, ?_, hready₂, ?_, hparity₂⟩
  · simp only [repairIteration, hrecover, hcreate]
  · rw [hkept]
    exact hright

/-- So does any number of passes that is not zero. -/
theorem repairLoop_ready (hdev : CorrectFor dev code c)
    (hparity : parity.data = ecCreate code data.data) (count : Nat)
    (h : Ready c data parity matrixMissing st) :
    ∃ st', repairLoop dev c matrixMissing count st = .ok st' ∧
      (count ≠ 0 → Repaired c data parity st') := by
  induction count generalizing st with
  | zero => exact ⟨st, rfl, fun h => absurd rfl h⟩
  | succ count ih =>
    obtain ⟨st₁, hone, hready, hrepaired⟩ := repairIteration_ready hdev hparity h
    by_cases hzero : count = 0
    · subst hzero
      refine ⟨st₁, ?_, fun _ => hrepaired⟩
      simp only [repairLoop, hone]
    · obtain ⟨st', hrest, hst'⟩ := ih hready
      refine ⟨st', ?_, fun _ => hst' hzero⟩
      simp only [repairLoop, hone]
      exact hrest

/-- Right blocks are read back as the originals. -/
theorem readBack_repaired (h : Repaired c data parity st) :
    readBack c data parity st = .ok ⟨data, parity, true⟩ := by
  have hdata : (if 0 < c.countMissingData then copyRecovered st.recoverDst c.missing 0 data
      else some data) = some data := by
    by_cases hd : 0 < c.countMissingData
    · rw [if_pos hd]
      exact copyRecovered_of_eq (h.recoverDst_eq hd)
    · rw [if_neg hd]
  have hparity : (if 0 < c.countMissingParity then st.createDst else parity) = parity := by
    by_cases hp : 0 < c.countMissingParity
    · rw [if_pos hp]
      exact h.createDst_eq hp
    · rw [if_neg hp]
  rw [readBack, hdata, hparity]
  simp

/-- A repetition or more, and everything is as in the original. -/
theorem verifyDocaCase_ready (hdev : CorrectFor dev code c)
    (hparity : parity.data = ecCreate code data.data) {opts : Options}
    (hopts : opts.repetitions ≠ 0) {buffers : ResultBuffers}
    (hbuffers : buffers.allocated = true) (st : DocaTestState shape σ) :
    verifyDocaCase dev c opts buffers data parity st = .ok ⟨data, parity, true⟩ := by
  obtain ⟨st₁, matrixMissing, hprepare, -, hready⟩ := prepareCase_ready hdev data parity st
  obtain ⟨st₂, hloop, hst₂⟩ := repairLoop_ready hdev hparity opts.repetitions hready
  rw [verifyDocaCase, repairCase, if_pos hbuffers]
  simp only [hprepare, hloop]
  exact readBack_repaired (hst₂ hopts)

/-- Without a repetition the blocks are read back that were there before. -/
theorem verifyDocaCase_zero (hdev : CorrectFor dev code c) {opts : Options}
    (hopts : opts.repetitions = 0) {buffers : ResultBuffers}
    (hbuffers : buffers.allocated = true) (data : DataBlocks shape)
    (parity : ParityBlocks shape) (st : DocaTestState shape σ) :
    ∃ result, verifyDocaCase dev c opts buffers data parity st = .ok result ∧
      (0 < c.countMissingData → ∀ t i, c.dataMissing[t]? = some i →
        result.resultData.segment shape.blockSize i =
          st.recoverDst.segment shape.blockSize t) := by
  obtain ⟨st₁, matrixMissing, hprepare, hdst, -⟩ := prepareCase_ready hdev data parity st
  obtain ⟨resultData, hcopy, hplaced, -⟩ := copyRecovered_case c st₁.recoverDst data
  rw [verifyDocaCase, repairCase, if_pos hbuffers]
  simp only [hprepare, hopts, repairLoop, readBack]
  by_cases hd : 0 < c.countMissingData
  · simp only [if_pos hd, hcopy]
    refine ⟨_, rfl, ?_⟩
    intro _ t i ht
    rw [← hdst]
    exact hplaced t i ht
  · simp only [if_neg hd]
    exact ⟨_, rfl, fun h => absurd h hd⟩

/-! ## Every loss case -/

/-- What `prepare_recover_input` is for. -/
structure PreparesInput (c : LossCase shape) (data : DataBlocks shape)
    (parity : ParityBlocks shape) (recoverSrc : DataBlocks shape) : Prop where
  prepares : ∃ src, prepareRecoverInput c data parity recoverSrc = some (src, c.holes) ∧
    src.data = survivorBytes c data parity
  survivors_length : c.survivors.length = shape.k
  survivors_sorted : c.survivors.Pairwise (· < ·)
  survivors_surviving : ∀ i ∈ c.survivors, i < shape.k + shape.m ∧ i ∉ c.missing
  holes_length : c.holes.length ≤ shape.m
  holes_prefix : c.dataMissing <+: c.holes

theorem preparesInput (c : LossCase shape) (data : DataBlocks shape)
    (parity : ParityBlocks shape) (recoverSrc : DataBlocks shape) :
    PreparesInput c data parity recoverSrc where
  prepares := prepareRecoverInput_spec c data parity recoverSrc
  survivors_length := c.length_survivors
  survivors_sorted := c.survivors_sorted
  survivors_surviving _ hi := c.notMem_of_mem_survivors hi
  holes_length := c.length_holes_le
  holes_prefix := c.dataMissing_prefix_holes

/-- Every loss case of every codeword is repaired, whatever the memory holds, if there are
`result_data` and `result_parity` to repair it in. -/
def RepairsEvery (dev : EcDevice shape σ) (code : ErasureCode shape.k shape.m)
    (opts : Options) : Prop :=
  ∀ (c : LossCase shape) (buffers : ResultBuffers) (data : DataBlocks shape)
    (parity : ParityBlocks shape) (st : DocaTestState shape σ),
    buffers.allocated = true → parity.data = ecCreate code data.data →
    PreparesInput c data parity st.recoverSrc ∧
      ∃ result, verifyDocaCase dev c opts buffers data parity st = .ok result ∧
        result.ok = true ∧
        ∀ i ∈ c.missing,
          chunk result.resultData result.resultParity i = chunk data parity i

/-- The first data block is lost. -/
def firstLost (shape : EcShape) : LossCase shape where
  missing := [0]
  sorted := List.pairwise_singleton _ _
  lt_total i hi := by
    rw [List.mem_singleton.mp hi]
    exact Nat.add_pos_left shape.k_pos _
  length_le := shape.m_pos

theorem dataMissing_firstLost (shape : EcShape) : (firstLost shape).dataMissing = [0] :=
  dataIndices_cons_of_lt [] shape.k_pos

/-- A buffer of one byte everywhere. -/
def filled (n : Nat) (byte : UInt8) : Buffer UInt8 n where
  data := List.replicate n byte
  length_data := List.length_replicate

theorem segment_filled {size count : Nat} (byte : UInt8) {i : Nat} (h : i < count) :
    (filled (count * size) byte).segment size i = List.replicate size byte := by
  have hle : i * size + size ≤ count * size := Buffer.segment_bound size h
  show ((List.replicate (count * size) byte).drop (i * size)).take size = _
  rw [List.drop_replicate, List.take_replicate, Nat.min_eq_left (by omega)]

theorem length_ecCreate (code : ErasureCode shape.k shape.m) (data : DataBlocks shape) :
    (ecCreate code data.data).length = shape.m * shape.blockSize := by
  have hin : 0 + shape.k * shape.blockSize ≤ data.data.length := by
    rw [data.length_data]
    exact Nat.le_of_eq (Nat.zero_add _)
  have hstripe : ecCreate code (slice data.data 0 (shape.k * shape.blockSize)) =
      ((stripeAt shape data.data 0 hin).parity code).flatten := ecCreate_stripeAt hin
  rw [slice_whole data.length_data] at hstripe
  rw [hstripe]
  exact Stripe.length_flatten_parity _ code

/-- A correct device repairs every loss case if and only if it gets to do it. -/
theorem repairsEvery_iff (hdev : Correct dev code) (opts : Options) :
    RepairsEvery dev code opts ↔ opts.repetitions ≠ 0 := by
  constructor
  · intro h hopts
    have hd : 0 < (firstLost shape).countMissingData := by
      rw [LossCase.countMissingData, dataMissing_firstLost]
      exact Nat.one_pos
    obtain ⟨-, result, hverify, -, hsame⟩ := h (firstLost shape) ⟨true, true⟩ (filled _ 0)
      ⟨ecCreate code (filled _ 0).data, length_ecCreate code _⟩
      ⟨filled _ 0, filled _ 0, filled _ 0, filled _ 1, dev.start⟩ rfl rfl
    have hbuffers : (⟨true, true⟩ : ResultBuffers).allocated = true := rfl
    obtain ⟨result', hverify', hstale⟩ := verifyDocaCase_zero
      (hdev.correctFor (firstLost shape)) hopts hbuffers (filled _ 0)
      ⟨ecCreate code (filled _ 0).data, length_ecCreate code _⟩
      ⟨filled _ 0, filled _ 0, filled _ 0, filled _ 1, dev.start⟩
    rw [hverify] at hverify'
    cases hverify'
    have hblock := hsame 0 (List.mem_singleton_self 0)
    rw [chunk, chunk, if_pos shape.k_pos, if_pos shape.k_pos,
      hstale hd 0 0 (by rw [dataMissing_firstLost]; rfl), segment_filled 1 shape.m_pos,
      segment_filled 0 shape.k_pos] at hblock
    have hne := shape.blockSize_pos
    rw [List.replicate_inj] at hblock
    rcases hblock.2 with hzero | hbyte
    · omega
    · exact absurd hbyte (by decide)
  · intro hopts c buffers data parity st hbuffers hparity
    refine ⟨preparesInput c data parity st.recoverSrc, ⟨data, parity, true⟩, ?_, rfl,
      fun _ _ => rfl⟩
    exact verifyDocaCase_ready (hdev.correctFor c) hparity hopts hbuffers st

end

/-! ## One data block and its copy -/

/-- A task of one block copies its source. -/
def copyBlock (src : List UInt8) (dst : ParityBlocks oneByteShape) : ParityBlocks oneByteShape :=
  if h : src.length = 1 then ⟨src, h⟩ else dst

def copyDevice : EcDevice oneByteShape Unit where
  start := ()
  matrixCreateRecover _ _ := ((), .success)
  taskRecoverAllocateInit _ := ((), .success)
  bufResetDataLen _ := ((), .success)
  recover _ _ src dst := ((), .success, copyBlock src dst)
  create _ src dst := ((), .success, copyBlock src dst)

theorem ecCreate_copyCode (data : DataBlocks oneByteShape) :
    ecCreate copyCode data.data = data.data := by
  have hlen : data.data.length = 1 := data.length_data
  rw [ecCreate, hlen]
  show (blocksAt data.data 0 1 1).flatten = data.data
  rw [flatten_blocksAt]
  exact slice_whole hlen

/-- Both chunks are the one block. -/
theorem chunk_copy {data : DataBlocks oneByteShape} {parity : ParityBlocks oneByteShape}
    (hparity : parity.data = data.data) {i : Nat} (hi : i < 2) :
    chunk data parity i = data.data := by
  have hlen : data.data.length = 1 := data.length_data
  by_cases hdata : i < oneByteShape.k
  · have hzero : i = 0 := Nat.lt_one_iff.mp hdata
    rw [chunk, if_pos hdata, hzero]
    exact slice_whole hlen
  · have hone : i - oneByteShape.k = 0 := Nat.sub_eq_zero_of_le (Nat.le_of_lt_succ hi)
    rw [chunk, if_neg hdata, hone, ← hparity]
    apply slice_whole
    rw [hparity]
    exact hlen

theorem survivorBytes_copy (c : LossCase oneByteShape) {data : DataBlocks oneByteShape}
    {parity : ParityBlocks oneByteShape} (hparity : parity.data = data.data) :
    survivorBytes c data parity = data.data := by
  obtain ⟨i, hi⟩ := List.length_eq_one_iff.mp c.length_survivors
  have hlt : i < 2 := (c.notMem_of_mem_survivors (by rw [hi]; exact List.mem_singleton_self i)).1
  rw [survivorBytes, hi, List.map_singleton, chunk_copy hparity hlt]
  exact List.append_nil _

theorem copyBlock_data (data : DataBlocks oneByteShape) (dst : ParityBlocks oneByteShape) :
    (copyBlock data.data dst).data = data.data := by
  have hlen : data.data.length = 1 := data.length_data
  rw [copyBlock, dif_pos hlen]

theorem copyDevice_correct : Correct copyDevice copyCode where
  matrixCreateRecover_ok _ _ := rfl
  taskRecoverAllocateInit_ok _ := rfl
  bufResetDataLen_ok _ := rfl
  create_ok _ data dst := by
    refine ⟨rfl, ?_⟩
    rw [ecCreate_copyCode]
    exact copyBlock_data data dst
  recover_ok _ c data parity dst hparity := by
    rw [ecCreate_copyCode] at hparity
    refine ⟨rfl, ?_⟩
    intro t i ht
    have hi : i < 2 := c.lt_total i (List.mem_of_mem_filter (List.mem_of_getElem? ht))
    have hlt : t < 1 := by
      obtain ⟨hlt, -⟩ := List.getElem?_eq_some_iff.mp ht
      exact Nat.lt_of_lt_of_le hlt c.length_holes_le
    have hzero : t = 0 := Nat.lt_one_iff.mp hlt
    rw [chunk_copy hparity hi, survivorBytes_copy c hparity, hzero]
    show slice (copyBlock data.data dst).data 0 1 = data.data
    rw [copyBlock_data]
    exact slice_whole data.length_data

/-- The default options. -/
theorem repairsEvery_copy : RepairsEvery copyDevice copyCode ⟨100, 5⟩ :=
  (repairsEvery_iff copyDevice_correct ⟨100, 5⟩).mpr (by decide)

/-- `--iterations 2147483648 --warmups 2147483648` -/
theorem not_repairsEvery_wrap : ¬ RepairsEvery copyDevice copyCode ⟨2147483648, 2147483648⟩ := by
  intro h
  obtain ⟨-, result, hverify, hok, -⟩ := h (firstLost oneByteShape) ⟨true, true⟩ (filled _ 5)
    (filled _ 5) ⟨filled _ 0, filled _ 0, filled _ 0, filled _ 0, ()⟩ rfl rfl
  have hfalse : verdict (verifyDocaCase copyDevice (firstLost oneByteShape)
      ⟨2147483648, 2147483648⟩ ⟨true, true⟩ (filled _ 5) (filled _ 5)
      ⟨filled _ 0, filled _ 0, filled _ 0, filled _ 0, ()⟩) = false := by decide
  rw [hverify] at hfalse
  rw [verdict, hok] at hfalse
  cases hfalse

end DpuTest.EcDecode
