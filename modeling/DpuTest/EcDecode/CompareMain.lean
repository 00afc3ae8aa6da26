import DpuTest.EcDecode.CorrectDevices
import DpuTest.EcDecode.CpuCase
import DpuTest.EcDecode.FillDeterministic

/-!
# The whole comparison

`main` of `ec_compare` makes one codeword for the device and one for the CPU, loses chunks
in five ways, and has each implementation repair its own codeword.  `main` succeeds when
every repair does.

The machine is a `CompareHost`: what is allocated and what the calls answer.  Nothing is
assumed of it, so the codewords, the memory and the answers are any.

* `runCompare_iff`: the program passes exactly if everything is set up, the repetitions do
  not wrap to none, and the lost chunks of every case come back.  That it never passes
  without a repetition is because the device memory starts with zeros and no block of the
  test pattern is zero.
* `compareMain_success_iff` is this from the command line on.
* `compareMain_correct_iff`: with a correct device and a correct library only the command
  line and the block size of the device decide.
-/

namespace DpuTest.EcDecode.Compare

open Lib EcEncode

def DATA_COUNT : Nat := 4
def PARITY_COUNT : Nat := 2

/-- The shape of the codewords. -/
def CompareOptions.shape (o : CompareOptions) : EcShape where
  k := DATA_COUNT
  m := PARITY_COUNT
  blockSize := o.blockSize.toNat
  k_pos := by decide
  m_pos := by decide
  blockSize_pos := o.blockSize_pos

/-- A `struct loss_case`, by its `missing`. -/
def lossCase (o : CompareOptions) (missing : List Nat)
    (h : missing.Pairwise (· < ·) ∧ (∀ i ∈ missing, i < DATA_COUNT + PARITY_COUNT) ∧
      missing.length ≤ PARITY_COUNT) : LossCase o.shape where
  missing := missing
  sorted := h.1
  lt_total := h.2.1
  length_le := h.2.2

/-- `loss_cases` -/
def lossCases (o : CompareOptions) : List (LossCase o.shape) :=
  [lossCase o [1] (by decide), lossCase o [DATA_COUNT] (by decide),
    lossCase o [1, 2] (by decide), lossCase o [DATA_COUNT, DATA_COUNT + 1] (by decide),
    lossCase o [1, DATA_COUNT] (by decide)]

/-! ## The machine -/

/-- The calls of `doca_state_init` behind the check of the block size. -/
inductive InitCall where
  | peConnectCtx
  | srcMmapSetMemrange
  | srcMmapStart
  | dstMmapSetMemrange
  | dstMmapStart
  | createSrcBufGet
  | createSrcBufSetData
  | recoverSrcBufGet
  | recoverSrcBufSetData
  | createDstBufGet
  | recoverDstBufGet
  | taskCreateSetConf
  | taskRecoverSetConf
  | ctxStart
  | matrixCreate
  | taskCreateAllocateInit
  deriving DecidableEq

/-- What the allocations and the calls answer.  The device may be another one for every
choice of options. -/
structure CompareHost (σ : Type) where
  referenceBuffers : Bool
  freshData : ∀ o : CompareOptions, DataBlocks o.shape
  freshParity : ∀ o : CompareOptions, ParityBlocks o.shape
  jerasure : ∀ o : CompareOptions, Jerasure o.shape
  regions : Bool
  openDevice : List Char → DocaStatus
  createCoreObjects : DocaStatus
  ecCreate : DocaStatus
  capGetMaxBlockSize : DocaStatus
  maxBlockSize : UInt64
  ctx : Bool
  initCall : InitCall → DocaStatus
  device : ∀ o : CompareOptions, EcDevice o.shape σ
  /-- The `result_data` and `result_parity` that `verify_doca_case` allocates for a case. -/
  resultBuffers : Nat → ResultBuffers
  /-- The blocks that `verify_cpu_case` allocates for a case. -/
  cpuBlocks : ∀ o : CompareOptions, Nat → Option (CpuBlocks o.shape)

/-- Why `doca_state_init` fails. -/
inductive InitError where
  /-- `DOCA_ERROR_NO_MEMORY` -/
  | noMemory
  /-- The answer of a call. -/
  | call (error : DocaStatus)
  /-- `DOCA_ERROR_INVALID_VALUE`: `Block size … exceeds device maximum …` -/
  | blockSize (size maximum : UInt64)
  /-- `DOCA_ERROR_UNEXPECTED` -/
  | unexpected
  deriving DecidableEq

/-- A test that goes to `fail`. -/
def failIf (bad : Bool) (error : InitError) : Except InitError Unit :=
  if bad then .error error else .ok ()

/-- `if (result != DOCA_SUCCESS) goto fail;` -/
def check (status : DocaStatus) : Except InitError Unit :=
  failIf (status ≠ .success) (.call status)

section

variable {σ : Type} (host : CompareHost σ) (o : CompareOptions)

/-- The calls in their order. -/
def initCalls : List InitCall :=
  [.peConnectCtx, .srcMmapSetMemrange, .srcMmapStart, .dstMmapSetMemrange, .dstMmapStart,
    .createSrcBufGet, .createSrcBufSetData, .recoverSrcBufGet, .recoverSrcBufSetData,
    .createDstBufGet, .recoverDstBufGet, .taskCreateSetConf, .taskRecoverSetConf, .ctxStart,
    .matrixCreate, .taskCreateAllocateInit]

/-- `doca_state_init` -/
def docaStateInit (originalData : DataBlocks o.shape) :
    Except InitError (DocaTestState o.shape σ) := do
  failIf (!host.regions) .noMemory
  check (host.openDevice o.pciAddr)
  check host.createCoreObjects
  check host.ecCreate
  check host.capGetMaxBlockSize
  failIf (host.maxBlockSize < o.blockSize) (.blockSize o.blockSize host.maxBlockSize)
  failIf (!host.ctx) .unexpected
  initCalls.forM fun call => check (host.initCall call)
  -- the regions are cleared, and the data are copied to the first of them
  .ok {
    createSrc := originalData
    recoverSrc := .zeroed _
    createDst := .zeroed _
    recoverDst := .zeroed _
    device := (host.device o).start }

/-! ## The program -/

/-- What `main` has in front of the loop over the cases. -/
structure Prepared (o : CompareOptions) (σ : Type) where
  originalData : DataBlocks o.shape
  cpuMatrix : List Int
  docaParity : ParityBlocks o.shape
  cpuParity : ParityBlocks o.shape
  docaState : DocaTestState o.shape σ

/-- `main` up to the loop.  `none` stands for every way to `out`. -/
def prepare : Option (Prepared o σ) :=
  if ¬ host.referenceBuffers then none
  else
    match fillDeterministic (host.freshData o) (DATA_COUNT * o.blockSize.toNat) with
    | none => none
    | some fill =>
      match (host.jerasure o).codingMatrix o.matrix with
      | none => none
      | some cpuMatrix =>
        match docaStateInit host o fill.buf with
        | .error _ => none
        | .ok st =>
          match runCreate (host.device o) st with
          | (.success, st) => some {
              originalData := fill.buf
              cpuMatrix := cpuMatrix
              docaParity := st.createDst
              cpuParity := (host.jerasure o).encode cpuMatrix fill.buf (host.freshParity o)
              docaState := st }
          | _ => none

variable {o}

/-- The device and its memory after a case.  After an error `all_ok` is false for good, and
the rest of the run is not looked at. -/
def afterCase (p : Prepared o σ) (i : Nat) (c : LossCase o.shape)
    (st : DocaTestState o.shape σ) : DocaTestState o.shape σ :=
  match repairCase (host.device o) c o.toOptions (host.resultBuffers i) p.originalData
      p.docaParity st with
  | .error _ => st
  | .ok st => st

/-- The loop over the cases, from case `i` on, with its `all_ok`. -/
def runCases (p : Prepared o σ) :
    Nat → List (LossCase o.shape) → DocaTestState o.shape σ → Bool → Bool
  | _, [], _, allOk => allOk
  | i, c :: cases, st, allOk =>
    let docaOk := verdict (verifyDocaCase (host.device o) c o.toOptions
      (host.resultBuffers i) p.originalData p.docaParity st)
    let cpuOk := verifyCpuCase (host.jerasure o) p.cpuMatrix (rowKOnes o.matrix) c o.toOptions
      p.originalData p.cpuParity (host.cpuBlocks o i)
    runCases p (i + 1) cases (afterCase host p i c st) (docaOk && cpuOk && allOk)

variable (o)

/-- `main` behind `parse_options`, up to its exit code. -/
def runCompare : Bool :=
  match prepare host o with
  | none => false
  | some p => runCases host p 0 (lossCases o) p.docaState true

/-- `EXIT_SUCCESS`, `EXIT_FAILURE` -/
inductive ExitCode where
  | success
  | failure
  deriving DecidableEq

/-- `main` -/
def compareMain (args : List (List Char)) : ExitCode :=
  match parseOptions defaultOptions args with
  | .error .help => .success
  | .error .refused => .failure
  | .ok o => if runCompare host o then .success else .failure

variable {o}

/-! ## The cases -/

/-- The result buffers are there, and the device has ended with the lost chunks as they
were. -/
def DocaRepairs (p : Prepared o σ) (i : Nat) (c : LossCase o.shape)
    (st : DocaTestState o.shape σ) : Prop :=
  ∃ last, repairCase (host.device o) c o.toOptions (host.resultBuffers i) p.originalData
      p.docaParity st = .ok last ∧
    ∀ index ∈ c.missing, chunk p.originalData p.docaParity index = comparedChunk c last index

/-- Every case is repaired by both, the device going on from where it has ended. -/
def RepairsAll (p : Prepared o σ) :
    Nat → List (LossCase o.shape) → DocaTestState o.shape σ → Prop
  | _, [], _ => True
  | i, c :: cases, st =>
    DocaRepairs host p i c st ∧
      CpuRepairs (host.jerasure o) p.cpuMatrix (rowKOnes o.matrix) c o.toOptions p.originalData
        p.cpuParity (host.cpuBlocks o i) ∧
      RepairsAll p (i + 1) cases (afterCase host p i c st)

variable {host} {p : Prepared o σ}

theorem runCases_false (i : Nat) (cases : List (LossCase o.shape))
    (st : DocaTestState o.shape σ) : runCases host p i cases st false = false := by
  induction cases generalizing i st with
  | nil => rfl
  | cons c cases ih =>
    simp only [runCases, Bool.and_false]
    exact ih _ _

theorem runCases_iff (i : Nat) (cases : List (LossCase o.shape))
    (st : DocaTestState o.shape σ) :
    runCases host p i cases st true = true ↔ RepairsAll host p i cases st := by
  induction cases generalizing i st with
  | nil => exact iff_of_true rfl trivial
  | cons c cases ih =>
    rw [runCases, RepairsAll, DocaRepairs, ← verdict_iff_repairCase, ← verifyCpuCase_iff]
    cases hdoca : verdict (verifyDocaCase (host.device o) c o.toOptions
      (host.resultBuffers i) p.originalData p.docaParity st) with
    | false => simp [runCases_false]
    | true =>
      cases hcpu : verifyCpuCase (host.jerasure o) p.cpuMatrix (rowKOnes o.matrix) c
        o.toOptions p.originalData p.cpuParity (host.cpuBlocks o i) with
      | false => simp [runCases_false]
      | true => simp [ih]

/-! ## Setting up -/

/-- Every call of `doca_state_init` succeeds. -/
structure CompareHost.SetsUp (host : CompareHost σ) (o : CompareOptions) : Prop where
  regions_ok : host.regions = true
  openDevice_ok : host.openDevice o.pciAddr = .success
  createCoreObjects_ok : host.createCoreObjects = .success
  ecCreate_ok : host.ecCreate = .success
  capGetMaxBlockSize_ok : host.capGetMaxBlockSize = .success
  blockSize_le : o.blockSize ≤ host.maxBlockSize
  ctx_ok : host.ctx = true
  initCall_ok : ∀ call, host.initCall call = .success

/-- What `doca_state_init` leaves. -/
def initialState (host : CompareHost σ) (o : CompareOptions)
    (originalData : DataBlocks o.shape) : DocaTestState o.shape σ where
  createSrc := originalData
  recoverSrc := .zeroed _
  createDst := .zeroed _
  recoverDst := .zeroed _
  device := (host.device o).start

theorem failIf_bind_eq_ok {α : Type} {bad : Bool} {e : InitError} {next : Except InitError α}
    {a : α} : (failIf bad e >>= fun _ => next) = .ok a ↔ bad = false ∧ next = .ok a := by
  cases bad with
  | false => exact ⟨fun h => ⟨rfl, h⟩, fun h => h.2⟩
  | true =>
    constructor
    · intro h
      cases h
    · intro h
      cases h.1

theorem check_bind_eq_ok {α : Type} {status : DocaStatus} {next : Except InitError α} {a : α} :
    (check status >>= fun _ => next) = .ok a ↔ status = .success ∧ next = .ok a := by
  rw [check, failIf_bind_eq_ok, decide_eq_false_iff_not, not_not]

theorem forM_check_bind_eq_ok {α : Type} {calls : List InitCall} {next : Except InitError α}
    {a : α} :
    ((calls.forM fun call => check (host.initCall call)) >>= fun _ => next) = .ok a ↔
      (∀ call ∈ calls, host.initCall call = .success) ∧ next = .ok a := by
  induction calls with
  | nil => exact ⟨fun h => ⟨nofun, h⟩, fun h => h.2⟩
  | cons call calls ih =>
    have hbind : ((call :: calls).forM fun call => check (host.initCall call)) =
        (check (host.initCall call) >>= fun _ =>
          calls.forM fun call => check (host.initCall call)) := rfl
    rw [hbind, bind_assoc, check_bind_eq_ok, ih, List.forall_mem_cons, and_assoc]

theorem mem_initCalls (call : InitCall) : call ∈ initCalls := by
  cases call <;> decide

theorem docaStateInit_eq_ok_iff {originalData : DataBlocks o.shape}
    {st : DocaTestState o.shape σ} :
    docaStateInit host o originalData = .ok st ↔
      host.SetsUp o ∧ st = initialState host o originalData := by
  simp only [docaStateInit, failIf_bind_eq_ok, check_bind_eq_ok, forM_check_bind_eq_ok]
  constructor
  · rintro ⟨hregions, hopen, hcore, hec, hcap, hsize, hctx, hcalls, hst⟩
    rw [Bool.not_eq_false'] at hregions hctx
    rw [decide_eq_false_iff_not, UInt64.not_lt] at hsize
    exact ⟨⟨hregions, hopen, hcore, hec, hcap, hsize, hctx,
      fun call => hcalls call (mem_initCalls call)⟩, (Except.ok.inj hst).symm⟩
  · rintro ⟨hsetup, rfl⟩
    refine ⟨?_, hsetup.openDevice_ok, hsetup.createCoreObjects_ok, hsetup.ecCreate_ok,
      hsetup.capGetMaxBlockSize_ok, ?_, ?_, fun call _ => hsetup.initCall_ok call, rfl⟩
    · rw [hsetup.regions_ok]
      rfl
    · rw [decide_eq_false_iff_not, UInt64.not_lt]
      exact hsetup.blockSize_le
    · rw [hsetup.ctx_ok]
      rfl

/-! ## In front of the loop -/

/-- The test pattern is the data. -/
theorem exists_fill (fresh : DataBlocks o.shape) :
    ∃ fill, fillDeterministic fresh (DATA_COUNT * o.blockSize.toNat) = some fill ∧
      fill.buf.data = fillPattern (DATA_COUNT * o.blockSize.toNat) := by
  obtain ⟨fill, hfill, -, hdata⟩ := fillDeterministic_eq fresh (Nat.le_refl _)
  refine ⟨fill, hfill, ?_⟩
  have hdrop : fresh.data.drop (o.shape.k * o.shape.blockSize) = [] :=
    List.drop_eq_nil_of_le (Nat.le_of_eq fresh.length_data)
  rw [hdata, hdrop, List.append_nil]
  rfl

/-- What `main` has in front of the loop, when it gets there. -/
theorem prepare_inv {p : Prepared o σ} (h : prepare host o = some p) :
    host.referenceBuffers = true ∧ host.SetsUp o ∧
      p.originalData.data = fillPattern (DATA_COUNT * o.blockSize.toNat) ∧
      (host.jerasure o).codingMatrix o.matrix = some p.cpuMatrix ∧
      p.cpuParity =
        (host.jerasure o).encode p.cpuMatrix p.originalData (host.freshParity o) ∧
      runCreate (host.device o) (initialState host o p.originalData) =
        (.success, p.docaState) ∧
      p.docaParity = p.docaState.createDst := by
  obtain ⟨fill, hfill, hdata⟩ := exists_fill (host.freshData o)
  unfold prepare at h
  split at h
  · cases h
  rename_i hbuffers
  rw [hfill] at h
  simp only at h
  split at h
  · cases h
  rename_i matrix hmatrix
  split at h
  · cases h
  rename_i st hinit
  obtain ⟨hsetup, rfl⟩ := docaStateInit_eq_ok_iff.mp hinit
  split at h
  · rename_i st hcreate
    cases h
    exact ⟨Decidable.not_not.mp hbuffers, hsetup, hdata, hmatrix, rfl, hcreate, rfl⟩
  · cases h

theorem recoverDst_of_runCreate {dev : EcDevice o.shape σ} {st st' : DocaTestState o.shape σ}
    {status : DocaStatus} (h : runCreate dev st = (status, st')) :
    st'.recoverDst = st.recoverDst := by
  unfold runCreate at h
  split at h
  · cases h
    rfl
  · cases h
    rfl

/-! ## Without a repetition -/

/-- No block of the test pattern is zero. -/
theorem segment_ne_zeros {data : DataBlocks o.shape}
    (hdata : data.data = fillPattern (DATA_COUNT * o.blockSize.toNat)) {i : Nat}
    (hi : i < DATA_COUNT) :
    data.segment o.shape.blockSize i ≠ List.replicate o.shape.blockSize 0 := by
  have hpos := o.blockSize_pos
  have hlen : 5 ≤ o.blockSize.toNat := by
    have hle := Nat.le_of_dvd hpos o.blockSize_aligned
    omega
  have hin := Buffer.segment_bound o.blockSize.toNat hi
  obtain ⟨byte, hmem, hne⟩ := exists_mem_slice_fillPattern hlen hin
  intro hzeros
  have hslice : slice (fillPattern (DATA_COUNT * o.blockSize.toNat)) (i * o.blockSize.toNat)
      o.blockSize.toNat = List.replicate o.blockSize.toNat 0 := by
    rw [← hdata]
    exact hzeros
  rw [hslice] at hmem
  exact hne (List.eq_of_mem_replicate hmem)

/-- The first case compares the data block with the zeros that the regions start with. -/
theorem not_docaRepairs_of_zero (hp : prepare host o = some p)
    (hzero : o.toOptions.repetitions = 0) :
    ¬ DocaRepairs host p 0 (lossCase o [1] (by decide)) p.docaState := by
  obtain ⟨-, -, hdata, -, -, hcreate, -⟩ := prepare_inv hp
  rintro ⟨last, hrepair, hsame⟩
  have hlast : last.recoverDst = .zeroed _ := by
    rw [(dst_of_repairCase hzero hrepair).1, recoverDst_of_runCreate hcreate]
    rfl
  have hblock := hsame 1 (List.mem_singleton_self 1)
  have hone : 1 < o.shape.k := by
    show 1 < DATA_COUNT
    decide
  rw [chunk, if_pos hone, comparedChunk, answeredBlock, if_pos hone] at hblock
  refine segment_ne_zeros hdata (by decide) (hblock.trans ?_)
  show last.recoverDst.segment o.shape.blockSize 0 = _
  rw [hlast]
  show slice (List.replicate _ 0) (0 * o.shape.blockSize) o.shape.blockSize = _
  rw [Nat.zero_mul, slice_zero_eq_take, List.take_replicate,
    Nat.min_eq_left (Nat.le_mul_of_pos_left _ o.shape.m_pos)]

/-- The 32-bit sum is zero only when it wraps, since neither count is. -/
theorem repetitions_ne_zero_iff (o : CompareOptions) :
    o.toOptions.repetitions ≠ 0 ↔ o.warmups.toNat + o.iterations.toNat ≠ 2 ^ 32 := by
  have hw := o.warmups_pos
  have hi := o.iterations_pos
  have hw' := o.warmups.toNat_lt
  have hi' := o.iterations.toNat_lt
  rw [Options.repetitions, UInt32.toNat_add]
  omega

/-! ## The verdict -/

/-- The program passes exactly if it is set up, repeats the cases at all, and the lost
chunks of every case come back from both implementations. -/
theorem runCompare_iff (host : CompareHost σ) (o : CompareOptions) :
    runCompare host o = true ↔ ∃ p, prepare host o = some p ∧
      o.warmups.toNat + o.iterations.toNat ≠ 2 ^ 32 ∧
        RepairsAll host p 0 (lossCases o) p.docaState := by
  unfold runCompare
  cases hp : prepare host o with
  | none => simp
  | some p =>
    simp only [runCases_iff, Option.some.injEq, exists_eq_left']
    refine ⟨fun hall => ⟨?_, hall⟩, fun h => h.2⟩
    rw [← repetitions_ne_zero_iff]
    intro hzero
    exact not_docaRepairs_of_zero hp hzero hall.1

/-- A `--help` stands behind options that are accepted. -/
def HelpAsked (args : List (List Char)) : Prop :=
  ∃ before rest t, args = before ++ helpOption :: rest ∧ Accepts defaultOptions before t

theorem compareMain_eq_success_iff (host : CompareHost σ) (args : List (List Char)) :
    compareMain host args = .success ↔ HelpAsked args ∨
      ∃ o, Accepts defaultOptions args o ∧ runCompare host o = true := by
  rw [HelpAsked, ← parseOptions_eq_help_iff]
  simp only [← parseOptions_eq_ok_iff]
  unfold compareMain
  cases hparse : parseOptions defaultOptions args with
  | error e => cases e <;> simp
  | ok o =>
    simp only [reduceCtorEq, false_or, Except.ok.injEq, exists_eq_left']
    cases runCompare host o <;> decide

/-- From the command line on. -/
theorem compareMain_success_iff (host : CompareHost σ) (args : List (List Char)) :
    compareMain host args = .success ↔ HelpAsked args ∨
      ∃ o p, Accepts defaultOptions args o ∧ prepare host o = some p ∧
        p.originalData.data = fillPattern (DATA_COUNT * o.blockSize.toNat) ∧
        o.warmups.toNat + o.iterations.toNat ≠ 2 ^ 32 ∧
        RepairsAll host p 0 (lossCases o) p.docaState := by
  rw [compareMain_eq_success_iff]
  refine or_congr_right (exists_congr fun o => ?_)
  rw [runCompare_iff]
  constructor
  · rintro ⟨haccepts, p, hp, hsum, hall⟩
    exact ⟨p, haccepts, hp, (prepare_inv hp).2.2.1, hsum, hall⟩
  · rintro ⟨p, haccepts, hp, -, hsum, hall⟩
    exact ⟨haccepts, p, hp, hsum, hall⟩

/-! ## Codes that can pass -/

/-- Some device passes the five cases, for every codeword and whatever the memory holds,
exactly if there is a pass and the survivors of each case determine its missing chunks. -/
theorem exists_passes_lossCases_iff (o : CompareOptions)
    (code : ErasureCode o.shape.k o.shape.m) :
    (∃ (σ : Type) (dev : EcDevice o.shape σ),
        ∀ c ∈ lossCases o, PassesFor dev code o.toOptions c) ↔
      o.warmups.toNat + o.iterations.toNat ≠ 2 ^ 32 ∧
        ∀ c ∈ lossCases o, DeterminesMissing code c := by
  rw [← repetitions_ne_zero_iff]
  by_cases hzero : o.toOptions.repetitions = 0
  · refine iff_of_false ?_ (fun h => h.1 hzero)
    rintro ⟨σ, dev, hdev⟩
    exact not_passesFor_zero hzero (List.mem_singleton_self 1)
      (hdev (lossCase o [1] (by decide)) List.mem_cons_self)
  · rw [exists_passesFor_iff code hzero]
    exact (and_iff_right hzero).symm

/-! ## Correct implementations -/

/-- There is memory, the calls that do not depend on the options succeed, and both
implementations are correct. -/
structure CompareHost.Correct (host : CompareHost σ) : Prop where
  referenceBuffers_ok : host.referenceBuffers = true
  regions_ok : host.regions = true
  createCoreObjects_ok : host.createCoreObjects = .success
  ecCreate_ok : host.ecCreate = .success
  capGetMaxBlockSize_ok : host.capGetMaxBlockSize = .success
  ctx_ok : host.ctx = true
  initCall_ok : ∀ call, host.initCall call = .success
  resultBuffers_ok : ∀ i, (host.resultBuffers i).allocated = true
  cpuBlocks_ok : ∀ o i, ∃ s, host.cpuBlocks o i = some s
  jerasure_correct : ∀ o, JerasureCorrect (host.jerasure o)
  device_correct : ∀ o, ∃ code, EcDecode.Correct (host.device o) code

theorem CompareHost.Correct.setsUp_iff (h : host.Correct) :
    host.SetsUp o ↔ host.openDevice o.pciAddr = .success ∧ o.blockSize ≤ host.maxBlockSize :=
  ⟨fun hsetup => ⟨hsetup.openDevice_ok, hsetup.blockSize_le⟩,
    fun hsetup => ⟨h.regions_ok, hsetup.1, h.createCoreObjects_ok, h.ecCreate_ok,
      h.capGetMaxBlockSize_ok, hsetup.2, h.ctx_ok, h.initCall_ok⟩⟩

/-- The first create task of a correct device makes the parity. -/
theorem runCreate_correct {dev : EcDevice o.shape σ} {code : ErasureCode o.shape.k o.shape.m}
    (hdev : EcDecode.Correct dev code) (st : DocaTestState o.shape σ) :
    ∃ st', runCreate dev st = (.success, st') ∧
      st'.createDst.data = ecCreate code st.createSrc.data := by
  have hreset := hdev.bufResetDataLen_ok st.device
  cases hr : dev.bufResetDataLen st.device with
  | mk device status =>
    rw [hr] at hreset
    have hcreate := hdev.create_ok device st.createSrc st.createDst
    cases ht : dev.create device st.createSrc.data st.createDst with
    | mk device' result =>
      rw [ht] at hcreate
      obtain ⟨status', createDst⟩ := result
      obtain ⟨hstatus, hblocks⟩ := hcreate
      simp only at hreset hstatus hblocks
      subst hreset hstatus
      simp only [runCreate, hr, ht]
      exact ⟨_, rfl, hblocks⟩

theorem exists_prepare (h : host.Correct) (hsetup : host.SetsUp o) :
    ∃ p, prepare host o = some p := by
  obtain ⟨fill, hfill, -⟩ := exists_fill (host.freshData o)
  obtain ⟨matrix, hmatrix⟩ := (h.jerasure_correct o).codingMatrix_ok o.matrix
  obtain ⟨code, hdev⟩ := h.device_correct o
  have hinit : docaStateInit host o fill.buf = .ok (initialState host o fill.buf) :=
    docaStateInit_eq_ok_iff.mpr ⟨hsetup, rfl⟩
  obtain ⟨st, hcreate, -⟩ := runCreate_correct hdev (initialState host o fill.buf)
  rw [prepare, if_neg (not_not.mpr h.referenceBuffers_ok), hfill]
  simp only [hmatrix, hinit, hcreate]
  exact ⟨_, rfl⟩

theorem repairsAll_correct (h : host.Correct) (hp : prepare host o = some p)
    (hrepetitions : o.toOptions.repetitions ≠ 0) (i : Nat) (cases : List (LossCase o.shape))
    (st : DocaTestState o.shape σ) : RepairsAll host p i cases st := by
  obtain ⟨-, -, -, hmatrix, hcpu, hcreate, hdoca⟩ := prepare_inv hp
  obtain ⟨code, hdev⟩ := h.device_correct o
  have hparity : p.docaParity.data = ecCreate code p.originalData.data := by
    obtain ⟨st', hcreate', hblocks⟩ :=
      runCreate_correct hdev (initialState host o p.originalData)
    rw [hcreate] at hcreate'
    cases hcreate'
    rw [hdoca]
    exact hblocks
  induction cases generalizing i st with
  | nil => trivial
  | cons c cases ih =>
    refine ⟨?_, ?_, ih _ _⟩
    · rw [DocaRepairs, ← verdict_iff_repairCase, verifyDocaCase_ready (hdev.correctFor c) hparity
        hrepetitions (h.resultBuffers_ok i) st]
      rfl
    · obtain ⟨s, hs⟩ := h.cpuBlocks_ok o i
      rw [← verifyCpuCase_iff, hs, hcpu]
      exact verifyCpuCase_correct (h.jerasure_correct o) hmatrix hrepetitions _ s

/-- With correct implementations the program passes whatever the memory holds, unless the
options are refused, the device is not there or cannot take the blocks, or the 32-bit
number of repetitions wraps to none. -/
theorem compareMain_correct_iff (h : host.Correct) (args : List (List Char)) :
    compareMain host args = .success ↔ HelpAsked args ∨
      ∃ o, Accepts defaultOptions args o ∧ host.openDevice o.pciAddr = .success ∧
        o.blockSize ≤ host.maxBlockSize ∧ o.warmups.toNat + o.iterations.toNat ≠ 2 ^ 32 := by
  rw [compareMain_eq_success_iff]
  refine or_congr_right (exists_congr fun o => and_congr_right fun _ => ?_)
  rw [runCompare_iff, ← and_assoc, ← h.setsUp_iff]
  constructor
  · rintro ⟨p, hp, hsum, -⟩
    exact ⟨(prepare_inv hp).2.1, hsum⟩
  · rintro ⟨hsetup, hsum⟩
    obtain ⟨p, hp⟩ := exists_prepare h hsetup
    exact ⟨p, hp, hsum, repairsAll_correct h hp ((repetitions_ne_zero_iff o).mpr hsum) _ _ _⟩

end

/-! ## Two parities -/

section

variable {blockSize : Nat} {hpos : 0 < blockSize}

/-- A codeword that agrees with the blocks outside the erased chunks. -/
def Completes (ids : List Int) (s w : CpuBlocks (pqShape blockSize hpos)) : Prop :=
  ∃ c : LossCase (pqShape blockSize hpos), erasures c = ids ∧ Codeword pqCode w.data w.parity ∧
    ∀ i, i < 6 → i ∉ c.missing → chunk s.data s.parity i = chunk w.data w.parity i

theorem Completes.unique {ids : List Int} {s w w' : CpuBlocks (pqShape blockSize hpos)}
    (h : Completes ids s w) (h' : Completes ids s w') : w = w' := by
  obtain ⟨c, hids, hword, hsame⟩ := h
  obtain ⟨c', hids', hword', hsame'⟩ := h'
  have hmissing : c.missing = c'.missing := by
    have heq := List.append_cancel_right (hids.trans hids'.symm)
    exact List.map_injective_iff.mpr Int.ofNat_injective heq
  have hchunks : ∀ i, i < 6 → chunk w.data w.parity i = chunk w'.data w'.parity i := by
    intro i hi
    refine pqCode_chunks hword hword' (c.survivors_sorted.imp Nat.ne_of_lt)
      (fun k hk => (c.notMem_of_mem_survivors hk).1) c.length_survivors (fun k hk => ?_) hi
    obtain ⟨hlt, hnot⟩ := c.notMem_of_mem_survivors hk
    rw [← hsame k hlt hnot, ← hsame' k hlt (hmissing ▸ hnot)]
  have hdata : w.data = w'.data := by
    apply Buffer.ext_segment
    intro j hj
    have hchunk := hchunks j (Nat.lt_of_lt_of_le hj (show 4 ≤ 6 by decide))
    rw [chunk, chunk, if_pos hj, if_pos hj] at hchunk
    exact hchunk
  have hparity : w.parity = w'.parity := by
    apply Buffer.ext
    have hleft : w.parity.data = ecCreate pqCode w.data.data := hword
    have hright : w'.parity.data = ecCreate pqCode w'.data.data := hword'
    rw [hleft, hright, hdata]
  cases w
  cases w'
  simp only at hdata hparity
  rw [hdata, hparity]

open Classical in
/-- A library that looks for the codeword. -/
noncomputable def pqJerasure (blockSize : Nat) (hpos : 0 < blockSize) :
    Jerasure (pqShape blockSize hpos) where
  codingMatrix _ := some []
  encode _ data _ := ⟨ecCreate pqCode data.data, length_ecCreate pqCode data⟩
  decode _ _ ids data parity :=
    if h : ∃ w, Completes ids ⟨data, parity⟩ w then (0, h.choose.data, h.choose.parity)
    else (-1, data, parity)

theorem pqJerasure_correct : JerasureCorrect (pqJerasure blockSize hpos) where
  codingMatrix_ok _ := ⟨[], rfl⟩
  decode_ok choice matrix c data fresh s _ hsame := by
    have hown : Completes (erasures c) s
        ⟨data, (pqJerasure blockSize hpos).encode matrix data fresh⟩ := ⟨c, rfl, rfl, hsame⟩
    have hexists : ∃ w, Completes (erasures c) s w := ⟨_, hown⟩
    have hchoice := hexists.choose_spec.unique hown
    simp only [pqJerasure, dif_pos hexists, hchoice]

end

/-- A machine whose implementations are correct. -/
noncomputable def pqHost : CompareHost Unit where
  referenceBuffers := true
  freshData _ := .zeroed _
  freshParity _ := .zeroed _
  jerasure o := pqJerasure o.blockSize.toNat o.blockSize_pos
  regions := true
  openDevice _ := .success
  createCoreObjects := .success
  ecCreate := .success
  capGetMaxBlockSize := .success
  maxBlockSize := 1024 * 1024
  ctx := true
  initCall _ := .success
  device o := solvingDevice o.shape pqCode
  resultBuffers _ := ⟨true, true⟩
  cpuBlocks _ _ := some ⟨.zeroed _, .zeroed _⟩

theorem pqHost_correct : pqHost.Correct where
  referenceBuffers_ok := rfl
  regions_ok := rfl
  createCoreObjects_ok := rfl
  ecCreate_ok := rfl
  capGetMaxBlockSize_ok := rfl
  ctx_ok := rfl
  initCall_ok _ := rfl
  resultBuffers_ok _ := rfl
  cpuBlocks_ok _ _ := ⟨_, rfl⟩
  jerasure_correct _ := pqJerasure_correct
  device_correct _ := ⟨pqCode, solvingDevice_correct pqCode_determines⟩

/-- `--iterations 2147483648 --warmups 2147483648` -/
def wrapArgs : List (List Char) :=
  [iterationsOption, ['2', '1', '4', '7', '4', '8', '3', '6', '4', '8'],
    warmupsOption, ['2', '1', '4', '7', '4', '8', '3', '6', '4', '8']]

/-- Without arguments the program passes, and with counts that add up to `2 ^ 32` it fails. -/
theorem compareMain_correct_iff_wrap :
    compareMain pqHost [] = .success ∧ compareMain pqHost wrapArgs ≠ .success := by
  refine ⟨(compareMain_correct_iff pqHost_correct []).mpr (Or.inr
    ⟨defaultOptions, .done _, rfl, by decide, by decide⟩), ?_⟩
  rw [ne_eq, compareMain_correct_iff pqHost_correct]
  have hparse : ∃ o, parseOptions defaultOptions wrapArgs = .ok o ∧
      o.warmups.toNat + o.iterations.toNat = 2 ^ 32 := ⟨_, rfl, by decide⟩
  obtain ⟨o, ho, hsum⟩ := hparse
  rintro (hhelp | ⟨o', haccepts, -, -, hne⟩)
  · rw [HelpAsked, ← parseOptions_eq_help_iff, ho] at hhelp
    cases hhelp
  · rw [← parseOptions_eq_ok_iff, ho] at haccepts
    cases haccepts
    exact hne hsum

end DpuTest.EcDecode.Compare
