import DpuTest.ReadBench.DatasetSpec
import DpuTest.ReadBench.RoundTrip

/-!
# A read pass over a dataset

A pass reads the manifest of a prefix, and then the objects that the manifest
counts: with `run_read_method` for a compressed dataset, with
`run_raw_read_method` for a raw one.  The raw method checks nothing but the
sizes.

* `readPass_delivers`: if every index holds the object of its block, the pass
  returns 0 and delivers the blocks.
* `readPass_inv`: what a pass that returns 0 has delivered for one index,
  whatever the others hold.
-/

namespace DpuTest.ReadBench

open Lib

/-- `read_manifest`. -/
def readManifest (pool : Pool) (pfx : List UInt8) : Except ReadError Manifest :=
  match radosRead pool (manifestName pfx) manifestSize with
  | none => .error (.radosRead (manifestName pfx))
  | some bytes =>
    let manifest := Manifest.ofBytes bytes
    if bytes.length ≠ manifestSize ∨ manifest.magic ≠ MANIFEST_MAGIC ∨
        manifest.version ≠ FORMAT_VERSION ∨ manifest.objectSize ≠ UInt64.ofNat OBJECT_BYTES then
      .error .invalidManifest
    else .ok manifest

/-- What a pass has counted, and the contents that it has visited. -/
structure Pass where
  result : MethodResult
  delivered : List (List UInt8)

section

variable (pool : Pool) (pfx : List UInt8) (manifest : Manifest)

/-- `expected_size` -/
def expectedSize (index : UInt64) : UInt64 :=
  if index + 1 = manifest.objectCount then
    manifest.totalRawSize - index * UInt64.ofNat OBJECT_BYTES
  else UInt64.ofNat OBJECT_BYTES

/-- One pass of the loop of `run_raw_read_method`. -/
def readRawNext (index : UInt64) (p : Pass) : Except ReadError Pass :=
  match radosRead pool (objectName pfx index) OBJECT_BYTES with
  | none => .error (.radosRead (objectName pfx index))
  | some object =>
    if UInt64.ofNat object.length ≠ expectedSize manifest index then
      .error (.unexpectedRawSize object.length (expectedSize manifest index))
    else
      .ok {
        result := p.result.addObject (UInt64.ofNat object.length) (UInt64.ofNat object.length)
        delivered := p.delivered ++ [object] }

end

/-- `run_raw_read_method`. -/
def runRawReadMethod (pool : Pool) (manifest : Manifest) : Except ReadError Pass :=
  forLoop (readRawNext pool (cString manifest.pfx) manifest) manifest.objectCount.toNat 0
    { result := .zero, delivered := [] }

/-- Which of the two programs has written a dataset. -/
inductive DatasetKind where
  | compressed
  | raw
  deriving DecidableEq

/-- A read pass of a prefix by the method of a kind of dataset. -/
def readPass (z : Zlib) (device : Inflater) (method : ReadMethod) (kind : DatasetKind)
    (pool : Pool) (pfx : List UInt8) (outputBuffer : Buffer UInt8 OBJECT_BYTES)
    (doca : DocaDecompressor (z.compressBound FRAME_BYTES)) : Except ReadError Pass :=
  match readManifest pool pfx with
  | .error e => .error e
  | .ok manifest =>
    match kind with
    | .raw => runRawReadMethod pool manifest
    | .compressed =>
      match runReadMethod z device method pool (objectCapacity z) manifest outputBuffer doca with
      | .error e => .error e
      | .ok r => .ok { result := r.result, delivered := r.delivered }

/-! ## The manifest -/

theorem newManifest_bytes_length (pfx : List UInt8) (objectCount totalRaw totalCompressed : UInt64) :
    (newManifest pfx objectCount totalRaw totalCompressed).bytes.length = manifestSize :=
  Manifest.length_bytes _ (length_prefixArray pfx)

/-- The manifest that a run has written is read back. -/
theorem readManifest_newManifest {pool : Pool} {pfx : List UInt8}
    {objectCount totalRaw totalCompressed : UInt64}
    (h : pool (manifestName pfx) =
      some (newManifest pfx objectCount totalRaw totalCompressed).bytes) :
    readManifest pool pfx = .ok (newManifest pfx objectCount totalRaw totalCompressed) := by
  have hlen := newManifest_bytes_length pfx objectCount totalRaw totalCompressed
  have hround := Manifest.ofBytes_bytes (newManifest pfx objectCount totalRaw totalCompressed)
    (length_prefixArray pfx)
  have hread : radosRead pool (manifestName pfx) manifestSize =
      some (newManifest pfx objectCount totalRaw totalCompressed).bytes := by
    rw [radosRead, h, Option.map_some, List.take_of_length_le (Nat.le_of_eq hlen)]
  simp only [readManifest, hread, hround, hlen]
  simp [newManifest]

/-! ## Compressed datasets -/

section

variable {z : Zlib} {device : Inflater} {method : ReadMethod} {pool : Pool} {pfx : List UInt8}

/-- The object of a block is delivered as the block. -/
theorem readNext_storedChunk (hz : z.RoundTrip device) (hmethod : method ≠ .unknown)
    {index : UInt64} {chunk object : List UInt8}
    (hpool : pool (objectName pfx index) = some object)
    (hstored : StoredChunk z (Decodes z device) chunk object)
    (hpos : 1 ≤ chunk.length) (hmax : chunk.length ≤ OBJECT_BYTES)
    (r : Reader (z.compressBound FRAME_BYTES)) :
    ∃ r', readNext z device method pool pfx (objectCapacity z) index r = .ok r' ∧
      r'.delivered = r.delivered ++ [chunk] := by
  obtain ⟨fs, hfs, henc, rfl⟩ := hstored
  have hwf := wellFormed_of_encoded hz hpos hmax hfs henc method
  have hcap := length_packObject_le henc (length_frames_le hfs hmax) z.checksum
  obtain ⟨r', hread, -, hdelivered, -⟩ := readNext_packObject hwf hmethod hpool hcap r
  rw [framesRaw_eq hfs] at hdelivered
  exact ⟨r', hread, hdelivered⟩

/-- A pass of the loop that returns delivers one content. -/
theorem readNext_delivered {index : UInt64} {readCapacity srcCapacity : Nat}
    {r r' : Reader srcCapacity}
    (h : readNext z device method pool pfx readCapacity index r = .ok r') :
    ∃ d, r'.delivered = r.delivered ++ [d] := by
  unfold readNext at h
  split at h
  · cases h
  · split at h
    · cases h
    · cases h
      exact ⟨_, rfl⟩

end

/-! ## Raw datasets -/

section

variable {pool : Pool} {pfx : List UInt8} {manifest : Manifest}

/-- A raw object is delivered if its size is the expected one. -/
theorem readRawNext_ok {index : UInt64} {object : List UInt8}
    (hpool : pool (objectName pfx index) = some object) (hmax : object.length ≤ OBJECT_BYTES)
    (hsize : UInt64.ofNat object.length = expectedSize manifest index) (p : Pass) :
    ∃ p', readRawNext pool pfx manifest index p = .ok p' ∧
      p'.delivered = p.delivered ++ [object] := by
  have hread : radosRead pool (objectName pfx index) OBJECT_BYTES = some object := by
    rw [radosRead, hpool, Option.map_some, List.take_of_length_le hmax]
  simp only [readRawNext, hread, hsize, ne_eq, not_true_eq_false, if_false]
  exact ⟨_, rfl, rfl⟩

/-- A pass of the raw loop that returns has read the expected size. -/
theorem readRawNext_inv {index : UInt64} {p p' : Pass}
    (h : readRawNext pool pfx manifest index p = .ok p') :
    ∃ object, radosRead pool (objectName pfx index) OBJECT_BYTES = some object ∧
      UInt64.ofNat object.length = expectedSize manifest index ∧
      p'.result = p.result.addObject (expectedSize manifest index) (expectedSize manifest index) ∧
      p'.delivered = p.delivered ++ [object] := by
  unfold readRawNext at h
  split at h
  · cases h
  · rename_i object hread
    split at h
    · cases h
    · rename_i hsize
      rw [ne_eq, Decidable.not_not] at hsize
      cases h
      refine ⟨object, hread, hsize, ?_, rfl⟩
      rw [hsize]

/-- The sizes that the manifest of a raw dataset implies are those of its
blocks. -/
theorem expectedSize_rawObjects {content chunk : List UInt8} {i : Nat} {totalCompressed : UInt64}
    (hcount : (rawObjects content).length < 2 ^ 64) (hi : (rawObjects content)[i]? = some chunk) :
    UInt64.ofNat chunk.length =
      expectedSize (newManifest pfx (UInt64.ofNat (rawObjects content).length)
        (UInt64.ofNat content.length) totalCompressed) (UInt64.ofNat i) := by
  have hlt := (List.getElem?_eq_some_iff.mp hi).1
  simp only [expectedSize, newManifest, ofNat_succ]
  split
  · rename_i hlast
    have hlast' : i + 1 = (rawObjects content).length := by
      have htoNat := congrArg UInt64.toNat hlast
      rw [UInt64.toNat_ofNat_of_lt' (Nat.lt_of_le_of_lt hlt hcount),
        UInt64.toNat_ofNat_of_lt' hcount] at htoNat
      exact htoNat
    rw [length_eq_of_last_fixed OBJECT_BYTES_pos hi hlast', UInt64.ofNat_add, UInt64.ofNat_mul,
      UInt64.add_comm, UInt64.add_sub_cancel]
  · rename_i hnext
    have hnext' : i + 1 < (rawObjects content).length := by
      have hne : i + 1 ≠ (rawObjects content).length := fun heq => hnext (by rw [heq])
      omega
    rw [length_of_getElem?_fixed OBJECT_BYTES_pos hi hnext']

end

/-! ## Whole passes -/

/-- The object that a dataset of a kind has for a block. -/
def StoredBy (z : Zlib) (device : Inflater) : DatasetKind → List UInt8 → List UInt8 → Prop
  | .compressed => StoredChunk z (Decodes z device)
  | .raw => fun raw object => object = raw

theorem length_rawObjects_lt {content : List UInt8} (h : content.length ≤ CONTENT_LIMIT) :
    (rawObjects content).length < 2 ^ 64 := by
  have hle : (rawObjects content).length ≤ 2 ^ 64 - 1 := length_chunks_fixed_le OBJECT_BYTES_pos h
  omega

/-- A block of a dataset holds from 1 to `OBJECT_BYTES` bytes. -/
theorem length_of_mem_rawObjects {content chunk : List UInt8} (h : chunk ∈ rawObjects content) :
    1 ≤ chunk.length ∧ chunk.length ≤ OBJECT_BYTES :=
  ⟨List.length_pos_iff.mpr (CutRule.ne_nil_of_mem_chunks _ h),
    length_le_of_mem_fixed OBJECT_BYTES_pos h⟩

section

variable {z : Zlib} {device : Inflater} {method : ReadMethod} {kind : DatasetKind}
  {pool pool' : Pool} {p : Prefix} {outputBuffer : Buffer UInt8 OBJECT_BYTES}
  {doca : DocaDecompressor (z.compressBound FRAME_BYTES)}

/-- A pass over a dataset in its place returns 0, and delivers the blocks.  Only
the raw method looks at `total_raw_size`. -/
theorem readPass_delivers (hz : z.RoundTrip device) (hmethod : method ≠ .unknown)
    {content : List UInt8} {totalRaw totalCompressed : UInt64}
    (hlimit : content.length ≤ CONTENT_LIMIT)
    (hmanifest : pool (manifestName p.chars) =
      some (newManifest p.chars (UInt64.ofNat (rawObjects content).length) totalRaw
        totalCompressed).bytes)
    (htotal : kind = .raw → totalRaw = UInt64.ofNat content.length)
    (hobjects : ∀ i chunk, (rawObjects content)[i]? = some chunk → ∃ object,
      pool (objectName p.chars (UInt64.ofNat i)) = some object ∧ StoredBy z device kind chunk object) :
    ∃ pass, readPass z device method kind pool p.chars outputBuffer doca = .ok pass ∧
      pass.delivered = rawObjects content := by
  have hcount := length_rawObjects_lt hlimit
  have hcount' : (UInt64.ofNat (rawObjects content).length).toNat = (rawObjects content).length :=
    UInt64.toNat_ofNat_of_lt' hcount
  have hpfx := cString_prefixArray p
  simp only [readPass, readManifest_newManifest hmanifest]
  cases kind with
  | raw =>
    obtain rfl := htotal rfl
    have hnext : ∀ i chunk, (rawObjects content)[i]? = some chunk → ∀ s : Pass, ∃ s',
        readRawNext pool p.chars (newManifest p.chars (UInt64.ofNat (rawObjects content).length)
          (UInt64.ofNat content.length) totalCompressed) (UInt64.ofNat i) s = .ok s' ∧
        s'.delivered = s.delivered ++ [chunk] := by
      intro i chunk hi s
      obtain ⟨object, hpool, rfl⟩ := hobjects i chunk hi
      exact readRawNext_ok hpool (length_of_mem_rawObjects (List.mem_of_getElem? hi)).2
        (expectedSize_rawObjects hcount hi) s
    have hstart : Pass.delivered { result := .zero, delivered := [] } = [] := rfl
    obtain ⟨pass, hrun, hdelivered⟩ := forLoop_outputs_zero _ Pass.delivered _ hnext hstart
    refine ⟨pass, ?_, hdelivered⟩
    simp only [runRawReadMethod, newManifest, hpfx, hcount']
    exact hrun
  | compressed =>
    have hnext : ∀ i chunk, (rawObjects content)[i]? = some chunk →
        ∀ s : Reader (z.compressBound FRAME_BYTES), ∃ s',
          readNext z device method pool p.chars (objectCapacity z) (UInt64.ofNat i) s = .ok s' ∧
          s'.delivered = s.delivered ++ [chunk] := by
      intro i chunk hi s
      obtain ⟨object, hpool, hstored⟩ := hobjects i chunk hi
      obtain ⟨hpos, hmax⟩ := length_of_mem_rawObjects (List.mem_of_getElem? hi)
      exact readNext_storedChunk hz hmethod hpool hstored hpos hmax s
    have hstart : Reader.delivered { outputBuffer, doca, result := .zero, delivered := [] } = [] :=
      rfl
    obtain ⟨r, hrun, hdelivered⟩ := forLoop_outputs_zero _ Reader.delivered _ hnext hstart
    refine ⟨{ result := r.result, delivered := r.delivered }, ?_, hdelivered⟩
    have hrun' : runReadMethod z device method pool (objectCapacity z)
        (newManifest p.chars (UInt64.ofNat (rawObjects content).length) totalRaw totalCompressed)
        outputBuffer doca = .ok r := by
      simp only [runReadMethod, newManifest, hpfx, hcount']
      exact hrun
    simp only [hrun']

/-- A pass that returns 0 has delivered one content for each object that the
manifest counts.  Where the pool holds the object of a block, written by a
program of the same kind, that content is the block. -/
theorem readPass_inv (hz : z.RoundTrip device) {objectCount totalRaw totalCompressed : UInt64}
    (hmanifest : pool (manifestName p.chars) =
      some (newManifest p.chars objectCount totalRaw totalCompressed).bytes)
    {pass : Pass} (hmethod : method ≠ .unknown)
    (h : readPass z device method kind pool p.chars outputBuffer doca = .ok pass) :
    pass.delivered.length = objectCount.toNat ∧
      ∀ i d, pass.delivered[i]? = some d → ∀ chunk object,
        pool (objectName p.chars (UInt64.ofNat i)) = some object →
        StoredBy z device kind chunk object →
        1 ≤ chunk.length → chunk.length ≤ OBJECT_BYTES → d = chunk := by
  have hpfx := cString_prefixArray p
  simp only [readPass, readManifest_newManifest hmanifest] at h
  cases kind with
  | raw =>
    simp only [runRawReadMethod, newManifest, hpfx] at h
    refine forLoop_inv_zero Pass.delivered
      (fun index d => ∀ chunk object, pool (objectName p.chars index) = some object →
        object = chunk → 1 ≤ chunk.length → chunk.length ≤ OBJECT_BYTES → d = chunk) ?_ rfl h
    intro index s s' hnext
    obtain ⟨d, hread, -, -, hs'⟩ := readRawNext_inv hnext
    refine ⟨d, ?_, hs'⟩
    intro chunk object hpool heq hpos hmax
    rw [radosRead, hpool, heq, Option.map_some, List.take_of_length_le hmax] at hread
    exact (Option.some.inj hread).symm
  | compressed =>
    simp only [runReadMethod, newManifest, hpfx] at h
    split at h
    · cases h
    rename_i r hrun
    cases h
    refine forLoop_inv_zero Reader.delivered
      (fun index d => ∀ chunk object, pool (objectName p.chars index) = some object →
        StoredChunk z (Decodes z device) chunk object → 1 ≤ chunk.length →
        chunk.length ≤ OBJECT_BYTES → d = chunk) ?_ rfl hrun
    intro index s s' hnext
    obtain ⟨d, hs'⟩ := readNext_delivered hnext
    refine ⟨d, ?_, hs'⟩
    intro chunk object hpool hstored hpos hmax
    obtain ⟨s'', hnext', hs''⟩ := readNext_storedChunk hz hmethod hpool hstored hpos hmax s
    rw [hnext] at hnext'
    cases hnext'
    rw [hs'] at hs''
    exact List.singleton_inj.mp (List.append_cancel_left hs'')

/-- Without a manifest there is no pass. -/
theorem readPass_of_no_manifest (h : pool (manifestName p.chars) = none) (pass : Pass) :
    readPass z device method kind pool p.chars outputBuffer doca ≠ .ok pass := by
  simp [readPass, readManifest, radosRead, h]

/-- A pass depends on the manifest and the objects of its prefix only. -/
theorem readPass_congr {objectCount totalRaw totalCompressed : UInt64}
    (hmanifest : pool (manifestName p.chars) =
      some (newManifest p.chars objectCount totalRaw totalCompressed).bytes)
    (hsame : pool' (manifestName p.chars) = pool (manifestName p.chars))
    (hobjects : ∀ index, pool' (objectName p.chars index) = pool (objectName p.chars index)) :
    readPass z device method kind pool' p.chars outputBuffer doca =
      readPass z device method kind pool p.chars outputBuffer doca := by
  have hpfx := cString_prefixArray p
  have hread (len : Nat) (index : UInt64) :
      radosRead pool' (objectName p.chars index) len =
        radosRead pool (objectName p.chars index) len := by
    rw [radosRead, radosRead, hobjects]
  rw [hmanifest] at hsame
  simp only [readPass, readManifest_newManifest hmanifest, readManifest_newManifest hsame]
  cases kind with
  | raw =>
    have hnext : readRawNext pool' p.chars = readRawNext pool p.chars := by
      funext manifest index s
      simp only [readRawNext, hread]
    simp only [runRawReadMethod, newManifest, hpfx, hnext]
  | compressed =>
    have hnext (index : UInt64) (r : Reader (z.compressBound FRAME_BYTES)) :
        readNext z device method pool' p.chars (objectCapacity z) index r =
          readNext z device method pool p.chars (objectCapacity z) index r := by
      simp only [readNext, hread]
    simp only [runReadMethod, newManifest, hpfx, funext fun index => funext (hnext index)]

end

end DpuTest.ReadBench
