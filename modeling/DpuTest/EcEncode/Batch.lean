import DpuTest.EcEncode.Single

/-!
# A batch of stripes

`initECBatch` and `encode_chunks(input_data, block_size, k, batch_size)`.  The
source segments of the tasks lie one behind the other, and so do the windows
that `getECTaskResultBatch` fetches from.  The destination buffers do not: each
of them is obtained at `ec_dst`, so all tasks write to the same place.

For stripe 0 the parity of the stripe whose task has completed last is fetched
(`fetch_zero_encodeChunksBatch`), and for the others what was in `ec_dst` before
(`slice_encodeChunksBatch`).  So the batch is right if and only if it has one
stripe (`stripesEncoded_iff`).
-/

namespace DpuTest.EcEncode

open Lib

/-- The parameters of `initECBatch`, with products that fit in `int`. -/
structure EcBatch extends EcShape where
  batchSize : Nat
  batchSize_pos : 0 < batchSize
  src_fits : k * blockSize * batchSize < 2 ^ 31
  dst_fits : m * blockSize * batchSize < 2 ^ 31

/-- The proxy after `initECBatch`. -/
abbrev BatchProxy (b : EcBatch) : Type :=
  Engine UInt8 (b.k * b.blockSize * b.batchSize) (b.m * b.blockSize * b.batchSize)

/-- `input_data` and `ec_src` -/
abbrev BatchInput (b : EcBatch) : Type := Buffer UInt8 (b.k * b.blockSize * b.batchSize)

/-- `ec_dst` -/
abbrev BatchCoding (b : EcBatch) : Type := Buffer UInt8 (b.m * b.blockSize * b.batchSize)

section

variable (b : EcBatch)

/-- `initECBatch`, with what `malloc` left in `ec_src` and `ec_dst`. -/
def initECBatch (ecSrc : BatchInput b) (ecDst : BatchCoding b) : BatchProxy b where
  src := ecSrc
  dst := ecDst
  srcBufs := (List.range b.batchSize).map (fun i => (b.k * b.blockSize * i, b.k * b.blockSize))
  -- every destination buffer is obtained at `this->ec_dst`
  dstBufs := (List.range b.batchSize).map (fun _ => (0, 0))
  latch := { remaining := 0, running := true }

variable {b}

def resetECDestBufBatch (e : BatchProxy b) : BatchProxy b :=
  { e with dstBufs := resetFirst b.batchSize e.dstBufs }

/-- The loop of `prepareECBatch`, from stripe `i` on. -/
def copyStripes (input : BatchInput b) : Nat → Nat → BatchInput b → Option (BatchInput b)
  | 0, _, ecSrc => some ecSrc
  | count + 1, i, ecSrc =>
    match fetch input.data (b.k * b.blockSize * i) (b.k * b.blockSize) with
    | none => none
    | some stripe =>
      match ecSrc.store (b.k * b.blockSize * i) stripe with
      | none => none
      | some ecSrc => copyStripes input count (i + 1) ecSrc

def prepareECBatch (input : BatchInput b) (e : BatchProxy b) : Option (BatchProxy b) :=
  match copyStripes input b.batchSize 0 e.src with
  | none => none
  | some ecSrc => some { e with src := ecSrc }

/-- All tasks are submitted, and then the latch is set. -/
def submitECTaskBatch (e : BatchProxy b) : BatchProxy b :=
  { e with latch := Latch.arm (UInt64.ofNat b.batchSize) }

/-- `encode_chunks(input_data, block_size, k, batch_size)`, when the tasks
complete in this order. -/
def encodeChunksBatch (code : ErasureCode b.k b.m) (input : BatchInput b)
    (order : CompletionOrder b.batchSize) (e : BatchProxy b) : Option (BatchProxy b) :=
  match prepareECBatch input (resetECDestBufBatch e) with
  | none => none
  | some e => (submitECTaskBatch e).wait (ecCreate code) order.tasks

/-- `getECTaskResultBatch(task_index, coding, block_size)`: what it leaves in
`coding`. -/
def getECTaskResultBatch (taskIndex : Nat) (e : BatchProxy b) : Option (List (List UInt8)) :=
  fetchCoding b.toEcShape e.dst (b.blockSize * b.m * taskIndex)

/-- Stripe `i` of the input lies in it. -/
theorem stripe_le {i : Nat} (hi : i < b.batchSize) (input : BatchInput b) :
    b.k * b.blockSize * i + b.k * b.blockSize ≤ input.data.length := by
  rw [input.length_data, ← Nat.mul_succ]
  exact Nat.mul_le_mul_left _ hi

/-- Stripe `i` of the input. -/
def inputStripe (input : BatchInput b) (i : Nat) (hi : i < b.batchSize) : Stripe b.toEcShape :=
  stripeAt b.toEcShape input.data (b.k * b.blockSize * i) (stripe_le hi input)

/-- The call returns, and then every stripe has its own parity. -/
def StripesEncoded (code : ErasureCode b.k b.m) (input : BatchInput b)
    (order : CompletionOrder b.batchSize) (e : BatchProxy b) : Prop :=
  ∃ e', encodeChunksBatch code input order e = some e' ∧
    ∀ i hi, getECTaskResultBatch i e' = some ((inputStripe input i hi).parity code)

/-! ## The source memory -/

/-- The stripes that have been copied are those of the input. -/
theorem copyStripes_eq {input : BatchInput b} {count i : Nat} {ecSrc : BatchInput b}
    (htotal : i + count = b.batchSize)
    (hdone : ecSrc.data.take (b.k * b.blockSize * i) = input.data.take (b.k * b.blockSize * i)) :
    copyStripes input count i ecSrc = some input := by
  induction count generalizing i ecSrc with
  | zero =>
    have hall : b.k * b.blockSize * i = b.k * b.blockSize * b.batchSize := by
      rw [← htotal, Nat.add_zero]
    rw [hall, List.take_of_length_le (Nat.le_of_eq ecSrc.length_data),
      List.take_of_length_le (Nat.le_of_eq input.length_data)] at hdone
    rw [copyStripes]
    cases ecSrc
    cases input
    congr
  | succ count ih =>
    have hi : i < b.batchSize := by omega
    have hle := stripe_le hi input
    have hlen := length_slice hle
    have hroom : b.k * b.blockSize * i +
        (slice input.data (b.k * b.blockSize * i) (b.k * b.blockSize)).length ≤
          b.k * b.blockSize * b.batchSize := by
      rw [hlen, ← input.length_data]
      exact hle
    rw [copyStripes, fetch_eq_some hle]
    simp only
    rw [ecSrc.store_eq_some hroom]
    refine ih (by omega) ?_
    have hend := take_writeAt_end (Nat.le_trans hroom (Nat.le_of_eq ecSrc.length_data.symm))
    rw [hlen, hdone] at hend
    show (writeAt ecSrc.data _ _).take _ = _
    rw [Nat.mul_succ, hend, ← slice_zero_eq_take, ← slice_zero_eq_take, slice_add, Nat.zero_add]

theorem prepareECBatch_eq (input : BatchInput b) (e : BatchProxy b) :
    prepareECBatch input e = some { e with src := input } := by
  have hcopy : copyStripes input b.batchSize 0 e.src = some input := by
    refine copyStripes_eq (Nat.zero_add _) ?_
    rw [Nat.mul_zero, List.take_zero, List.take_zero]
  rw [prepareECBatch, hcopy]

/-! ## The destination memory -/

/-- The proxy when the tasks have been submitted. -/
def submittedBatch (ecSrc : BatchInput b) (ecDst : BatchCoding b) (input : BatchInput b) :
    BatchProxy b :=
  submitECTaskBatch { resetECDestBufBatch (initECBatch b ecSrc ecDst) with src := input }

section

variable {code : ErasureCode b.k b.m} {ecSrc input : BatchInput b}
  {ecDst : BatchCoding b}

/-- The call returns when the last task has completed. -/
theorem encodeChunksBatch_eq (order : CompletionOrder b.batchSize) :
    encodeChunksBatch code input order (initECBatch b ecSrc ecDst) =
      some ((submittedBatch ecSrc ecDst input).completeAll (ecCreate code) order.tasks) := by
  have hbatch : b.batchSize < 2 ^ 64 := by
    have hle : b.batchSize ≤ b.k * b.blockSize * b.batchSize :=
      Nat.le_mul_of_pos_left _ (Nat.mul_pos b.k_pos b.blockSize_pos)
    have hfits := b.src_fits
    omega
  have hne : order.tasks ≠ [] := by
    rw [← List.length_pos_iff, order.length_eq]
    exact b.batchSize_pos
  have hrem : (submittedBatch ecSrc ecDst input).latch.remaining.toNat = order.tasks.length := by
    rw [order.length_eq]
    exact UInt64.toNat_ofNat_of_lt' hbatch
  rw [encodeChunksBatch, prepareECBatch_eq]
  exact Engine.wait_of_armed hne hrem rfl

/-- Task `i` encodes stripe `i`. -/
theorem output_submittedBatch {i : Nat} (hi : i < b.batchSize) :
    (submittedBatch ecSrc ecDst input).output (ecCreate code) i =
      ((inputStripe input i hi).parity code).flatten := by
  have hseg : segmentAt (submittedBatch ecSrc ecDst input).srcBufs i =
      (b.k * b.blockSize * i, b.k * b.blockSize) := by
    simp [submittedBatch, submitECTaskBatch, resetECDestBufBatch, initECBatch, segmentAt, hi]
  rw [Engine.output, Engine.input, hseg]
  exact ecCreate_stripeAt (stripe_le hi input)

/-- Every task writes to the start of `ec_dst`. -/
theorem window_submittedBatch {i : Nat} (hi : i < b.batchSize) :
    (submittedBatch ecSrc ecDst input).window (ecCreate code) i = (0, b.m * b.blockSize) := by
  have hseg : segmentAt (submittedBatch ecSrc ecDst input).dstBufs i = (0, 0) := by
    simp [submittedBatch, submitECTaskBatch, resetECDestBufBatch, initECBatch, segmentAt,
      resetFirst, hi]
  rw [Engine.window, Engine.target, hseg, output_submittedBatch hi, Stripe.length_flatten_parity,
    Nat.add_zero]

/-- Window `i` of the destination memory lies in it. -/
theorem coding_le {i : Nat} (hi : i < b.batchSize) :
    b.blockSize * b.m * i + b.m * b.blockSize ≤ b.m * b.blockSize * b.batchSize := by
  rw [Nat.mul_comm b.blockSize, ← Nat.mul_succ]
  exact Nat.mul_le_mul_left _ hi

/-- What is fetched for stripe 0 is the parity of the stripe whose task has
completed last. -/
theorem fetch_zero_encodeChunksBatch {order : CompletionOrder b.batchSize} {done : List Nat}
    {last : Nat} (horder : order.tasks = done ++ [last]) (hlast : last < b.batchSize) :
    getECTaskResultBatch 0
        ((submittedBatch ecSrc ecDst input).completeAll (ecCreate code) order.tasks) =
      some ((inputStripe input last hlast).parity code) := by
  have hnodup := order.nodup
  rw [horder] at hnodup
  have hnotMem : last ∉ done := by
    intro hmem
    exact (List.nodup_append.mp hnodup).2.2 last hmem last List.mem_cons_self rfl
  have hwindow : (submittedBatch ecSrc ecDst input).window (ecCreate code) last =
      (0, b.m * b.blockSize) := window_submittedBatch hlast
  have hle := coding_le b.batchSize_pos
  have hfit : (submittedBatch ecSrc ecDst input).target last +
      ((submittedBatch ecSrc ecDst input).output (ecCreate code) last).length ≤
        b.m * b.blockSize * b.batchSize := by
    have htarget := congrArg Prod.fst hwindow
    have hlen := congrArg Prod.snd hwindow
    simp only [Engine.window] at htarget hlen
    omega
  have hslice := Engine.slice_completeAll_last hnotMem hfit
  rw [hwindow, output_submittedBatch hlast] at hslice
  rw [horder, getECTaskResultBatch, fetchCoding_eq_parity_iff hle, Nat.mul_zero]
  exact hslice

/-- What is fetched for another stripe is what was there before. -/
theorem slice_encodeChunksBatch {order : CompletionOrder b.batchSize} {i : Nat} (hpos : 0 < i) :
    slice ((submittedBatch ecSrc ecDst input).completeAll (ecCreate code) order.tasks).dst.data
        (b.blockSize * b.m * i) (b.m * b.blockSize) =
      slice ecDst.data (b.blockSize * b.m * i) (b.m * b.blockSize) := by
  refine Engine.slice_completeAll_of_disjoint (_, _) order.nodup ?_
  intro task htask
  rw [window_submittedBatch (order.mem_iff.mp htask)]
  have hmul : b.blockSize * b.m * 1 ≤ b.blockSize * b.m * i := Nat.mul_le_mul_left _ hpos
  rw [Nat.mul_one, Nat.mul_comm b.blockSize] at hmul
  right
  show 0 + b.m * b.blockSize ≤ b.blockSize * b.m * i
  rw [Nat.zero_add, Nat.mul_comm b.blockSize]
  exact hmul

end

/-- A byte that the parity of a stripe does not start with. -/
def otherByte (bytes : List UInt8) : UInt8 := bytes.headD 0 + 1

theorem ne_replicate_otherByte {bytes : List UInt8} {n : Nat} (hpos : 0 < n) :
    List.replicate n (otherByte bytes) ≠ bytes := by
  intro heq
  have hhead := congrArg (fun l => l.headD 0) heq
  obtain ⟨n, rfl⟩ : ∃ n', n = n' + 1 := ⟨n - 1, by omega⟩
  rw [List.replicate_succ] at hhead
  have hsucc : bytes.headD 0 + 1 = bytes.headD 0 := hhead
  have hsub := congrArg (fun byte => byte - bytes.headD 0) hsucc
  simp [UInt8.add_comm] at hsub

/-- Memory that holds one byte only. -/
def filled (n : Nat) (byte : UInt8) : Buffer UInt8 n where
  data := List.replicate n byte
  length_data := List.length_replicate

/-- Every stripe gets its own parity, whatever the memory held and in whatever
order the tasks complete, if and only if there is one stripe. -/
theorem stripesEncoded_iff (code : ErasureCode b.k b.m) (input : BatchInput b) :
    (∀ ecSrc ecDst (order : CompletionOrder b.batchSize),
      StripesEncoded code input order (initECBatch b ecSrc ecDst)) ↔ b.batchSize = 1 := by
  constructor
  · intro h
    by_contra hne
    have hone : 1 < b.batchSize := by
      have hpos := b.batchSize_pos
      omega
    have hle := coding_le hone
    -- stripe 1 is fetched from where no task has written
    obtain ⟨e, hrun, hfetch⟩ := h input
      (filled _ (otherByte ((inputStripe input 1 hone).parity code).flatten))
      (.inOrder b.batchSize)
    rw [encodeChunksBatch_eq] at hrun
    cases hrun
    have hstripe := hfetch 1 hone
    rw [getECTaskResultBatch, fetchCoding_eq_parity_iff hle,
      slice_encodeChunksBatch (Nat.lt_succ_self 0)] at hstripe
    have hslice : slice (filled (b.m * b.blockSize * b.batchSize)
        (otherByte ((inputStripe input 1 hone).parity code).flatten)).data
          (b.blockSize * b.m * 1) (b.m * b.blockSize) =
        List.replicate (b.m * b.blockSize)
          (otherByte ((inputStripe input 1 hone).parity code).flatten) := by
      rw [slice, filled, List.drop_replicate, List.take_replicate]
      congr 1
      omega
    rw [hslice] at hstripe
    exact ne_replicate_otherByte (Nat.mul_pos b.m_pos b.blockSize_pos) hstripe
  · intro hone ecSrc ecDst order
    refine ⟨_, encodeChunksBatch_eq order, ?_⟩
    intro i hi
    have hzero : i = 0 := by omega
    subst hzero
    have horder : order.tasks = [] ++ [0] := by
      refine List.perm_singleton.mp (order.perm.trans ?_)
      rw [hone]
      exact List.Perm.refl _
    exact fetch_zero_encodeChunksBatch horder hi

end

/-- Two stripes of one byte. -/
def twoStripes : EcBatch where
  toEcShape := oneByteShape
  batchSize := 2
  batchSize_pos := by decide
  src_fits := by decide
  dst_fits := by decide

def twoStripesCode : ErasureCode twoStripes.k twoStripes.m := copyCode

def bytesOneTwo : BatchInput twoStripes where
  data := [1, 2]
  length_data := rfl

/-- What `malloc` left in `ec_src`. -/
def zeroInput : BatchInput twoStripes := .zeroed _

/-- What `malloc` left in `ec_dst`. -/
def zeroCoding : BatchCoding twoStripes := .zeroed _

/-- The byte 2 is stripe 1, and nothing is written where its parity belongs. -/
theorem not_stripesEncoded_two :
    ¬ StripesEncoded twoStripesCode bytesOneTwo (.inOrder twoStripes.batchSize)
      (initECBatch twoStripes zeroInput zeroCoding) := by
  rintro ⟨e, hrun, hfetch⟩
  rw [encodeChunksBatch_eq] at hrun
  cases hrun
  exact absurd (hfetch 1 (by decide)) (by decide)

end DpuTest.EcEncode
