import DpuTest.EcDecode.CompareOptions

/-!
# One loss case on the CPU

`verify_cpu_case` loses the chunks of a case and has Jerasure decode them, again and again
on a fresh copy of the codeword, and compares the last result with the originals.

Jerasure is a parameter.  `JerasureCorrect` says of it that it decodes what it has encoded
whenever no more than `PARITY_COUNT` chunks are lost, with the `row_k_ones` that belongs
to the matrix.

* `resetBlocks_spec`: the calls get the codeword with zeros for the lost chunks.
* `verifyCpuCase_iff` is the verdict for any library, and `verifyCpuCase_correct` that of
  a correct one.
-/

namespace DpuTest.EcDecode.Compare

open Lib EcEncode

/-- Jerasure, as far as the program uses it.  A matrix is what the library makes of a
choice; `encode` and `decode` get the blocks and leave them as their call does. -/
structure Jerasure (shape : EcShape) where
  codingMatrix : MatrixChoice → Option (List Int)
  encode : List Int → DataBlocks shape → ParityBlocks shape → ParityBlocks shape
  decode : List Int → Int → List Int → DataBlocks shape → ParityBlocks shape →
    Int × DataBlocks shape × ParityBlocks shape

/-- `row_k_ones` -/
def rowKOnes : MatrixChoice → Int
  | .cauchy => 0
  | .vandermonde => 1

/-- The blocks behind `data[i]` and `parity[i]`, side by side. -/
structure CpuBlocks (shape : EcShape) where
  data : DataBlocks shape
  parity : ParityBlocks shape

inductive CpuError where
  /-- `Jerasure decode failed` -/
  | decode (result : Int)
  | outOfBounds
  deriving DecidableEq

/-- The loop that copies the blocks of an original one by one. -/
def copyBlocks {count size : Nat} (src dst : Buffer UInt8 (count * size)) :
    Option (Buffer UInt8 (count * size)) :=
  (List.range count).foldlM (fun dst i => dst.copy (i * size) src (i * size) size) dst

section

variable {shape : EcShape}

/-- The array `erasures` up to its terminator. -/
def erasures (c : LossCase shape) : List Int := c.missing.map Int.ofNat ++ [-1]

/-- `memset(…, 0, block_size)` of a chunk. -/
def eraseChunk (s : CpuBlocks shape) (index : Nat) : Option (CpuBlocks shape) :=
  if index < shape.k then
    (s.data.store (index * shape.blockSize) (List.replicate shape.blockSize 0)).map
      fun data => { s with data := data }
  else
    (s.parity.store ((index - shape.k) * shape.blockSize)
      (List.replicate shape.blockSize 0)).map fun parity => { s with parity := parity }

/-- The three inner loops in front of the call. -/
def resetBlocks (c : LossCase shape) (data : DataBlocks shape) (parity : ParityBlocks shape)
    (s : CpuBlocks shape) : Option (CpuBlocks shape) :=
  (copyBlocks data s.data).bind fun data =>
    (copyBlocks parity s.parity).bind fun parity =>
      c.missing.foldlM eraseChunk { data := data, parity := parity }

variable (lib : Jerasure shape) (matrix : List Int) (ones : Int) (c : LossCase shape)

/-- One pass of the loop over `iteration`. -/
def cpuIteration (data : DataBlocks shape) (parity : ParityBlocks shape)
    (s : CpuBlocks shape) : Except CpuError (CpuBlocks shape) :=
  match resetBlocks c data parity s with
  | none => .error .outOfBounds
  | some s =>
    match lib.decode matrix ones (erasures c) s.data s.parity with
    | (result, data, parity) =>
      if result = 0 then .ok { data := data, parity := parity } else .error (.decode result)

/-- So many passes. -/
def cpuLoop (data : DataBlocks shape) (parity : ParityBlocks shape) :
    Nat → CpuBlocks shape → Except CpuError (CpuBlocks shape)
  | 0, s => .ok s
  | count + 1, s =>
    match cpuIteration lib matrix ones c data parity s with
    | .error e => .error e
    | .ok s => cpuLoop data parity count s

/-- `verify_cpu_case`.  `fresh` is the memory that the blocks are allocated in, when
there is enough of it. -/
def verifyCpuCase (opts : Options) (data : DataBlocks shape) (parity : ParityBlocks shape)
    (fresh : Option (CpuBlocks shape)) : Bool :=
  match fresh with
  | none => false
  | some s =>
    match cpuLoop lib matrix ones c data parity opts.repetitions s with
    | .error _ => false
    | .ok s => c.missing.all fun index =>
        chunk data parity index == chunk s.data s.parity index

/-- The loop has ended with the lost chunks as they were. -/
def CpuRepairs (opts : Options) (data : DataBlocks shape) (parity : ParityBlocks shape)
    (fresh : Option (CpuBlocks shape)) : Prop :=
  ∃ s t, fresh = some s ∧
    cpuLoop lib matrix ones c data parity opts.repetitions s = .ok t ∧
      ∀ index ∈ c.missing, chunk data parity index = chunk t.data t.parity index

variable {lib matrix ones c} {data : DataBlocks shape} {parity : ParityBlocks shape}

theorem verifyCpuCase_iff {opts : Options} {fresh : Option (CpuBlocks shape)} :
    verifyCpuCase lib matrix ones c opts data parity fresh = true ↔
      CpuRepairs lib matrix ones c opts data parity fresh := by
  unfold verifyCpuCase CpuRepairs
  cases fresh with
  | none => simp
  | some s =>
    cases hloop : cpuLoop lib matrix ones c data parity opts.repetitions s with
    | error e => simp [hloop]
    | ok t => simp [hloop]

/-! ## The codeword that is decoded -/

theorem copyBlocks_eq {count size : Nat} (src dst : Buffer UInt8 (count * size)) :
    copyBlocks src dst = some src := by
  have hloop : ∃ t, copyBlocks src dst = some t ∧
      ∀ j, j < count → t.segment size j = src.segment size j := by
    refine exists_foldlM_range (P := fun n (u : Buffer UInt8 (count * size)) =>
      ∀ j, j < n → u.segment size j = src.segment size j) ?_ ?_
    · intro i u hi hu
      have hle := Buffer.segment_bound size hi
      obtain ⟨v, hcopy⟩ := Buffer.copy_eq_some u src hle hle
      obtain ⟨hself, hother⟩ := Buffer.segment_copy hcopy
      refine ⟨v, hcopy, ?_⟩
      intro j hj
      by_cases hij : j = i
      · rw [hij, hself]
      · rw [hother j hij]
        exact hu j (by omega)
    · exact fun j hj => absurd hj (Nat.not_lt_zero j)
  obtain ⟨t, hrun, ht⟩ := hloop
  rw [hrun, Buffer.ext_segment ht]

/-- A chunk is erased inside its buffer, and the other chunks are kept. -/
theorem eraseChunk_spec (s : CpuBlocks shape) {index : Nat}
    (hindex : index < shape.k + shape.m) :
    ∃ t, eraseChunk s index = some t ∧
      ∀ i, i ≠ index → chunk t.data t.parity i = chunk s.data s.parity i := by
  have hzeros : (List.replicate shape.blockSize (0 : UInt8)).length = shape.blockSize :=
    List.length_replicate
  by_cases hdata : index < shape.k
  · have hle : index * shape.blockSize + (List.replicate shape.blockSize (0 : UInt8)).length ≤
        shape.k * shape.blockSize := by
      rw [hzeros]
      exact Buffer.segment_bound shape.blockSize hdata
    refine ⟨_, by rw [eraseChunk, if_pos hdata, Buffer.store_eq_some _ hle, Option.map_some], ?_⟩
    intro i hne
    show chunk (s.data.put _ _ hle) s.parity i = chunk s.data s.parity i
    unfold chunk
    rw [Buffer.segment_put_of_ne hzeros hle hne]
  · have hlt : index - shape.k < shape.m := by omega
    have hle : (index - shape.k) * shape.blockSize +
        (List.replicate shape.blockSize (0 : UInt8)).length ≤ shape.m * shape.blockSize := by
      rw [hzeros]
      exact Buffer.segment_bound shape.blockSize hlt
    refine ⟨_, by rw [eraseChunk, if_neg hdata, Buffer.store_eq_some _ hle, Option.map_some], ?_⟩
    intro i hne
    show chunk s.data (s.parity.put _ _ hle) i = chunk s.data s.parity i
    unfold chunk
    by_cases hi : i < shape.k
    · rw [if_pos hi, if_pos hi]
    · rw [if_neg hi, if_neg hi,
        Buffer.segment_put_of_ne hzeros hle (by omega)]

theorem exists_eraseChunks {missing : List Nat} (h : ∀ i ∈ missing, i < shape.k + shape.m)
    (s : CpuBlocks shape) :
    ∃ t, missing.foldlM eraseChunk s = some t ∧
      ∀ i, i ∉ missing → chunk t.data t.parity i = chunk s.data s.parity i := by
  induction missing generalizing s with
  | nil => exact ⟨s, rfl, fun _ _ => rfl⟩
  | cons index missing ih =>
    obtain ⟨u, hone, hu⟩ := eraseChunk_spec s (h index List.mem_cons_self)
    obtain ⟨t, hrest, ht⟩ := ih (fun i hi => h i (List.mem_cons_of_mem _ hi)) u
    refine ⟨t, ?_, ?_⟩
    · rw [List.foldlM_cons, hone]
      exact hrest
    · intro i hi
      rw [List.mem_cons, not_or] at hi
      rw [ht i hi.2, hu i hi.1]

/-- Whatever the blocks held, the chunks that are not lost are those of the codeword. -/
theorem resetBlocks_spec (c : LossCase shape) (data : DataBlocks shape)
    (parity : ParityBlocks shape) (s : CpuBlocks shape) :
    ∃ t, resetBlocks c data parity s = some t ∧
      ∀ i, i ∉ c.missing → chunk t.data t.parity i = chunk data parity i := by
  obtain ⟨t, herase, ht⟩ := exists_eraseChunks c.lt_total { data := data, parity := parity }
  refine ⟨t, ?_, ht⟩
  rw [resetBlocks, copyBlocks_eq, Option.bind_some, copyBlocks_eq, Option.bind_some, herase]

/-! ## A correct library -/

/-- Both matrices are there, and no more than `PARITY_COUNT` lost chunks come back. -/
structure JerasureCorrect (lib : Jerasure shape) : Prop where
  codingMatrix_ok : ∀ choice, ∃ matrix, lib.codingMatrix choice = some matrix
  decode_ok : ∀ choice matrix (c : LossCase shape) (data : DataBlocks shape)
    (fresh : ParityBlocks shape) (s : CpuBlocks shape),
    lib.codingMatrix choice = some matrix →
    (∀ i, i < shape.k + shape.m → i ∉ c.missing →
      chunk s.data s.parity i = chunk data (lib.encode matrix data fresh) i) →
    lib.decode matrix (rowKOnes choice) (erasures c) s.data s.parity =
      (0, data, lib.encode matrix data fresh)

theorem cpuIteration_correct (hlib : JerasureCorrect lib) {choice : MatrixChoice}
    (hmatrix : lib.codingMatrix choice = some matrix) (fresh : ParityBlocks shape)
    (s : CpuBlocks shape) :
    cpuIteration lib matrix (rowKOnes choice) c data (lib.encode matrix data fresh) s =
      .ok { data := data, parity := lib.encode matrix data fresh } := by
  obtain ⟨t, hreset, ht⟩ := resetBlocks_spec c data (lib.encode matrix data fresh) s
  have hdecode := hlib.decode_ok choice matrix c data fresh t hmatrix fun i _ hi => ht i hi
  simp only [cpuIteration, hreset, hdecode, if_true]

/-- With a repetition or more, whatever memory the blocks were allocated in. -/
theorem verifyCpuCase_correct (hlib : JerasureCorrect lib) {choice : MatrixChoice}
    (hmatrix : lib.codingMatrix choice = some matrix) {opts : Options}
    (hopts : opts.repetitions ≠ 0) (fresh : ParityBlocks shape) (s : CpuBlocks shape) :
    verifyCpuCase lib matrix (rowKOnes choice) c opts data (lib.encode matrix data fresh)
      (some s) = true := by
  have hloop : ∀ count s, count ≠ 0 →
      cpuLoop lib matrix (rowKOnes choice) c data (lib.encode matrix data fresh) count s =
        .ok { data := data, parity := lib.encode matrix data fresh } := by
    intro count
    induction count with
    | zero => exact fun _ h => absurd rfl h
    | succ count ih =>
      intro s _
      simp only [cpuLoop, cpuIteration_correct hlib hmatrix]
      by_cases hzero : count = 0
      · rw [hzero]
        rfl
      · exact ih _ hzero
  simp only [verifyCpuCase, hloop _ s hopts, beq_self_eq_true, List.all_eq_true, implies_true]

end

end DpuTest.EcDecode.Compare
