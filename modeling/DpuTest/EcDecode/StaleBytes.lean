import DpuTest.EcDecode.ComparedBlocks
import DpuTest.Lib.Run

/-!
# Stale bytes

`verify_doca_case` does not clear the destinations of the device, and the same
memory serves every loss case.  So its verdict may rest on bytes that an earlier
task has left there.

`staleFree_iff` says of any device when it does not: some pass is made, and the
answers to the passes of a case `Settle`, which leaves room for a device whose
later answers make up for what the earlier ones left, and for one that fails either
way.  A device that is `Determined`, whose successful answers never depend on what
the destination held, settles with the first pass.  `not_staleFree_lazy` is a device
that does nothing and passes.
-/

namespace DpuTest.EcDecode

open Lib EcEncode

section

variable {shape : EcShape} {σ : Type}

/-- The verdict does not depend on the bytes that the destinations held. -/
def StaleFree (dev : EcDevice shape σ) (opts : Options) : Prop :=
  ∀ (c : LossCase shape) (buffers : ResultBuffers) (data : DataBlocks shape)
    (parity : ParityBlocks shape) (st : DocaTestState shape σ)
    (createDst recoverDst : ParityBlocks shape),
    verdict (verifyDocaCase dev c opts buffers data parity
        { st with createDst := createDst, recoverDst := recoverDst }) =
      verdict (verifyDocaCase dev c opts buffers data parity st)

/-- What the device answers to a case of so many passes does not depend on the bytes that
the destinations held: whether a call fails, and if none does the blocks that the last
tasks leave for the missing chunks. -/
def Settle (dev : EcDevice shape σ) (count : Nat) : Prop :=
  ∀ (c : LossCase shape) (data : DataBlocks shape) (parity : ParityBlocks shape) (device : σ)
    (recoverDst createDst recoverDst' createDst' : ParityBlocks shape),
    answerCase dev c count data parity ⟨device, recoverDst', createDst'⟩ =
      answerCase dev c count data parity ⟨device, recoverDst, createDst⟩

variable {dev : EcDevice shape σ} {c : LossCase shape}

/-! ## The verdict -/

/-- The first parity block is lost. -/
def firstParityLost (shape : EcShape) : LossCase shape where
  missing := [shape.k]
  sorted := List.pairwise_singleton _ _
  lt_total i hi := by
    rw [List.mem_singleton.mp hi]
    exact Nat.lt_add_of_pos_right shape.m_pos
  length_le := shape.m_pos

theorem dataMissing_firstParityLost (shape : EcShape) :
    (firstParityLost shape).dataMissing = [] :=
  dataIndices_cons_of_ge [] (Nat.le_refl _)

/-- Without a pass the old bytes are left. -/
theorem answerCase_firstParityLost (dev : EcDevice shape σ) (data : DataBlocks shape)
    (parity : ParityBlocks shape) (s : DeviceSide shape σ) :
    answerCase dev (firstParityLost shape) 0 data parity s =
      some [s.createDst.segment shape.blockSize 0] := by
  have hd : ¬ 0 < (firstParityLost shape).countMissingData := by
    rw [LossCase.countMissingData, dataMissing_firstParityLost]
    exact Nat.lt_irrefl 0
  rw [answerCase, answerSetUp, if_neg hd, Option.bind_some, answerPasses, Option.map_some]
  show some [answeredBlock (firstParityLost shape) s shape.k] = _
  rw [answeredBlock, if_neg (Nat.lt_irrefl _), Nat.sub_self]

theorem not_settle_zero (dev : EcDevice shape σ) : ¬ Settle dev 0 := by
  intro h
  have hsame := h (firstParityLost shape) (filled _ 0) (filled _ 0) dev.start (filled _ 0)
    (filled _ 0) (filled _ 0) (filled _ 1)
  rw [answerCase_firstParityLost, answerCase_firstParityLost, segment_filled _ shape.m_pos,
    segment_filled _ shape.m_pos, Option.some.injEq, List.cons.injEq, List.replicate_inj] at hsame
  have hpos := shape.blockSize_pos
  rcases hsame.1.2 with hzero | hbyte
  · omega
  · exact absurd hbyte (by decide)

/-- Blocks that one call answers are answered by the other, as some codeword expects them
of the first. -/
theorem StaleFree.answerCase_eq {opts : Options} (h : StaleFree dev opts) (c : LossCase shape)
    (data : DataBlocks shape) (parity : ParityBlocks shape) (device : σ)
    (recoverDst createDst recoverDst' createDst' : ParityBlocks shape)
    {blocks : List (List UInt8)}
    (hblocks : answerCase dev c opts.repetitions data parity ⟨device, recoverDst, createDst⟩ =
      some blocks) :
    answerCase dev c opts.repetitions data parity ⟨device, recoverDst', createDst'⟩ =
      some blocks := by
  obtain ⟨t, rfl⟩ := exists_answeredBlock hblocks
  obtain ⟨data', parity', hsurvivors, hexpected⟩ := exists_expected c data parity t
  rw [answerCase_congr hsurvivors, ← hexpected] at hblocks ⊢
  have hverdict := h c ⟨true, true⟩ data' parity'
    ⟨.zeroed _, .zeroed _, createDst, recoverDst, device⟩ createDst' recoverDst'
  rw [Bool.eq_iff_iff, verdict_iff, verdict_iff] at hverdict
  exact (hverdict.mpr ⟨rfl, hblocks⟩).2

/-- A verdict is free of the old bytes if and only if there is a pass and the answers of the
device settle. -/
theorem staleFree_iff (dev : EcDevice shape σ) (opts : Options) :
    StaleFree dev opts ↔ opts.repetitions ≠ 0 ∧ Settle dev opts.repetitions := by
  constructor
  · intro h
    have hsettle : Settle dev opts.repetitions := by
      intro c data parity device recoverDst createDst recoverDst' createDst'
      apply Option.ext
      intro blocks
      exact ⟨h.answerCase_eq c data parity device recoverDst' createDst' recoverDst createDst,
        h.answerCase_eq c data parity device recoverDst createDst recoverDst' createDst'⟩
    refine ⟨?_, hsettle⟩
    intro hzero
    rw [hzero] at hsettle
    exact not_settle_zero dev hsettle
  · rintro ⟨-, hsettle⟩ c buffers data parity st createDst recoverDst
    rw [Bool.eq_iff_iff, verdict_iff, verdict_iff]
    have hanswer := hsettle c data parity st.device st.recoverDst st.createDst recoverDst createDst
    show buffers.allocated = true ∧ answerCase dev c opts.repetitions data parity
      ⟨st.device, recoverDst, createDst⟩ = _ ↔ _
    rw [hanswer]
    rfl

/-! ## A device whose answers are determined -/

/-- The answers of the device do not depend on what the destination held.  Of a
recover task only the blocks of the missing data are read back. -/
structure Determined (dev : EcDevice shape σ) : Prop where
  recover_eq : ∀ d (c : LossCase shape) (src : DataBlocks shape) dst dst',
    (dev.recover d c.holes src.data dst).1 = (dev.recover d c.holes src.data dst').1 ∧
      (dev.recover d c.holes src.data dst).2.1 = (dev.recover d c.holes src.data dst').2.1 ∧
      ((dev.recover d c.holes src.data dst).2.1 = .success → ∀ t, t < c.countMissingData →
        (dev.recover d c.holes src.data dst).2.2.segment shape.blockSize t =
          (dev.recover d c.holes src.data dst').2.2.segment shape.blockSize t)
  create_eq : ∀ d (src : DataBlocks shape) dst dst',
    (dev.create d src.data dst).1 = (dev.create d src.data dst').1 ∧
      (dev.create d src.data dst).2.1 = (dev.create d src.data dst').2.1 ∧
      ((dev.create d src.data dst).2.1 = .success →
        (dev.create d src.data dst).2.2 = (dev.create d src.data dst').2.2)

/-- The recovered data are the same. -/
def SameRecovered (c : LossCase shape) (dst dst' : ParityBlocks shape) : Prop :=
  ∀ t, t < c.countMissingData → dst.segment shape.blockSize t = dst'.segment shape.blockSize t

/-- After a pass: what is read back is the same. -/
structure AgreeAfter (c : LossCase shape) (s s' : DeviceSide shape σ) : Prop where
  device_eq : s.device = s'.device
  recovered : SameRecovered c s.recoverDst s'.recoverDst
  createDst_eq : 0 < c.countMissingParity → s.createDst = s'.createDst

theorem AgreeAfter.refl (c : LossCase shape) (s : DeviceSide shape σ) : AgreeAfter c s s :=
  ⟨rfl, fun _ _ => rfl, fun _ => rfl⟩

theorem restored_eq_of_sameRecovered {dst dst' : ParityBlocks shape} (h : SameRecovered c dst dst')
    (data : DataBlocks shape) : restored c data dst = restored c data dst' := by
  have hcopy : copyRecovered dst c.missing 0 data = copyRecovered dst' c.missing 0 data := by
    apply copyRecovered_congr
    intro t ht
    rw [Nat.zero_add]
    exact h t ht
  rw [restored, restored, hcopy]

theorem answerRecover_agree (hdev : Determined dev) (c : LossCase shape) (src : DataBlocks shape)
    {s s' : DeviceSide shape σ} (h : s.device = s'.device) :
    Option.Rel (fun t t' => t.device = t'.device ∧ SameRecovered c t.recoverDst t'.recoverDst)
      (answerRecover dev c src.data s) (answerRecover dev c src.data s') := by
  unfold answerRecover
  rw [← h]
  cases dev.bufResetDataLen s.device with
  | mk device status =>
    cases status with
    | success =>
      obtain ⟨hdevice, hstatus, hblocks⟩ :=
        hdev.recover_eq device c src s.recoverDst s'.recoverDst
      cases hr : dev.recover device c.holes src.data s.recoverDst with
      | mk d answer =>
        cases hr' : dev.recover device c.holes src.data s'.recoverDst with
        | mk d' answer' =>
          obtain ⟨status, dst⟩ := answer
          obtain ⟨status', dst'⟩ := answer'
          rw [hr, hr'] at hdevice hstatus hblocks
          simp only at hdevice hstatus hblocks
          subst hstatus
          cases status with
          | success =>
            simp only [hr, hr']
            exact .some ⟨hdevice, hblocks rfl⟩
          | inProgress =>
            simp only [hr, hr']
            exact .none
          | timeOut =>
            simp only [hr, hr']
            exact .none
          | other code =>
            simp only [hr, hr']
            exact .none
    | inProgress => exact .none
    | timeOut => exact .none
    | other code => exact .none

theorem answerCreate_agree (hdev : Determined dev) (src : DataBlocks shape)
    {s s' : DeviceSide shape σ} (h : s.device = s'.device) :
    Option.Rel (fun t t' => t.device = t'.device ∧ t.createDst = t'.createDst ∧
        t.recoverDst = s.recoverDst ∧ t'.recoverDst = s'.recoverDst)
      (answerCreate dev src.data s) (answerCreate dev src.data s') := by
  unfold answerCreate
  rw [← h]
  cases dev.bufResetDataLen s.device with
  | mk device status =>
    cases status with
    | success =>
      obtain ⟨hdevice, hstatus, hblocks⟩ := hdev.create_eq device src s.createDst s'.createDst
      cases hr : dev.create device src.data s.createDst with
      | mk d answer =>
        cases hr' : dev.create device src.data s'.createDst with
        | mk d' answer' =>
          obtain ⟨status, dst⟩ := answer
          obtain ⟨status', dst'⟩ := answer'
          rw [hr, hr'] at hdevice hstatus hblocks
          simp only at hdevice hstatus hblocks
          subst hstatus
          cases status with
          | success =>
            simp only [hr, hr']
            exact .some ⟨hdevice, hblocks rfl, rfl, rfl⟩
          | inProgress =>
            simp only [hr, hr']
            exact .none
          | timeOut =>
            simp only [hr, hr']
            exact .none
          | other code =>
            simp only [hr, hr']
            exact .none
    | inProgress => exact .none
    | timeOut => exact .none
    | other code => exact .none

/-- One pass makes the answers agree. -/
theorem answerPass_agree (hdev : Determined dev) (c : LossCase shape) (data : DataBlocks shape)
    (parity : ParityBlocks shape) {s s' : DeviceSide shape σ} (h : s.device = s'.device) :
    Option.Rel (AgreeAfter c) (answerPass dev c data parity s)
      (answerPass dev c data parity s') := by
  have hrecover : Option.Rel
      (fun t t' => t.device = t'.device ∧ SameRecovered c t.recoverDst t'.recoverDst)
      (if 0 < c.countMissingData then answerRecover dev c (survivorBytes c data parity) s
        else some s)
      (if 0 < c.countMissingData then answerRecover dev c (survivorBytes c data parity) s'
        else some s') := by
    by_cases hd : 0 < c.countMissingData
    · obtain ⟨src, -, hsrc⟩ := prepareRecoverInput_spec c data parity data
      rw [if_pos hd, if_pos hd, ← hsrc]
      exact answerRecover_agree hdev c src h
    · rw [if_neg hd, if_neg hd]
      exact .some ⟨h, fun t ht => absurd (Nat.zero_lt_of_lt ht) hd⟩
  refine rel_bind hrecover ?_
  rintro t t' ⟨hdevice, hsame⟩
  rw [restored_eq_of_sameRecovered hsame]
  by_cases hp : 0 < c.countMissingParity
  · rw [if_pos hp, if_pos hp]
    refine rel_mono (answerCreate_agree hdev (restored c data t'.recoverDst) hdevice) ?_
    rintro u u' ⟨hdevice', hcreated, hkept, hkept'⟩
    refine ⟨hdevice', ?_, fun _ => hcreated⟩
    rw [hkept, hkept']
    exact hsame
  · rw [if_neg hp, if_neg hp]
    exact .some ⟨hdevice, hsame, fun h => absurd h hp⟩

/-- So do so many passes, unless there is none. -/
theorem answerPasses_agree (hdev : Determined dev) (c : LossCase shape) (data : DataBlocks shape)
    (parity : ParityBlocks shape) {count : Nat} (hcount : count ≠ 0)
    {s s' : DeviceSide shape σ} (h : s.device = s'.device) :
    Option.Rel (AgreeAfter c) (answerPasses dev c data parity count s)
      (answerPasses dev c data parity count s') := by
  induction count generalizing s s' with
  | zero => exact absurd rfl hcount
  | succ count ih =>
    refine rel_bind (answerPass_agree hdev c data parity h) ?_
    intro t t' hagree
    by_cases hzero : count = 0
    · subst hzero
      exact .some hagree
    · exact ih hzero hagree.device_eq

theorem AgreeAfter.answeredBlock_eq {s s' : DeviceSide shape σ} (h : AgreeAfter c s s')
    {index : Nat} (hindex : index ∈ c.missing) :
    answeredBlock c s index = answeredBlock c s' index := by
  unfold answeredBlock
  by_cases hdata : index < shape.k
  · rw [if_pos hdata, if_pos hdata]
    exact h.recovered _ (List.idxOf_lt_length_iff.mpr (mem_dataMissing hindex hdata))
  · rw [if_neg hdata, if_neg hdata,
      h.createDst_eq (countMissingParity_pos hindex (Nat.le_of_not_lt hdata))]

/-- The answers of a determined device settle with the first pass. -/
theorem Determined.settle (hdev : Determined dev) {count : Nat} (hcount : count ≠ 0) :
    Settle dev count := by
  intro c data parity device recoverDst createDst recoverDst' createDst'
  have hsetUp : Option.Rel (fun t t' : DeviceSide shape σ => t.device = t'.device)
      (answerSetUp dev c ⟨device, recoverDst', createDst'⟩)
      (answerSetUp dev c ⟨device, recoverDst, createDst⟩) := by
    unfold answerSetUp
    split
    · simp only
      split
      · split
        · exact .some rfl
        · exact .none
      · exact .none
    · exact .some rfl
  have hpasses := rel_bind hsetUp fun t t' hdevice =>
    answerPasses_agree hdev c data parity hcount hdevice
  refine map_eq_of_rel hpasses ?_
  intro t t' hagree
  apply List.map_congr_left
  intro index hindex
  exact hagree.answeredBlock_eq hindex

end

/-! ## Two devices -/

theorem copyBlock_eq (src : DataBlocks oneByteShape) (dst dst' : ParityBlocks oneByteShape) :
    copyBlock src.data dst = copyBlock src.data dst' := by
  apply Buffer.ext
  rw [copyBlock_data, copyBlock_data]

theorem copyDevice_determined : Determined copyDevice where
  recover_eq _ c src dst dst' := by
    refine ⟨rfl, rfl, ?_⟩
    intro _ t _
    show (copyBlock src.data dst).segment _ t = (copyBlock src.data dst').segment _ t
    rw [copyBlock_eq src dst dst']
  create_eq _ src dst dst' := ⟨rfl, rfl, fun _ => copyBlock_eq src dst dst'⟩

/-- The default options. -/
example : Settle copyDevice (Options.repetitions ⟨100, 5⟩) :=
  copyDevice_determined.settle (by decide)

/-- A device that reports success and leaves its destinations alone. -/
def lazyDevice : EcDevice oneByteShape Unit where
  start := ()
  matrixCreateRecover _ _ := ((), .success)
  taskRecoverAllocateInit _ := ((), .success)
  bufResetDataLen _ := ((), .success)
  recover _ _ _ dst := ((), .success, dst)
  create _ _ dst := ((), .success, dst)

/-- The lost block is still in `recover_dst`, or it is not. -/
theorem not_staleFree_lazy : ¬ StaleFree lazyDevice ⟨1, 1⟩ := by
  intro h
  have hsame := h (firstLost oneByteShape) ⟨true, true⟩ (filled _ 5) (filled _ 5)
    ⟨filled _ 0, filled _ 0, filled _ 0, filled _ 0, ()⟩ (filled _ 0) (filled _ 5)
  exact absurd hsame (by decide)

end DpuTest.EcDecode
