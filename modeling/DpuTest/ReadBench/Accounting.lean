import DpuTest.ReadBench.History
import DpuTest.ReadBench.StoredZlib

/-!
# What a pass has counted

Both read passes count objects and bytes, as they visit them
(`runRawReadMethod_counts`, `runReadMethod_counts`), and `benchmark_reads`
compares the throughputs that follow from the counts.  It has checked before that
the two manifests announce the same number of objects and of bytes.

The raw pass compares the size of every object with what the manifest implies,
so its count is the total of the manifest: `runRawReadMethod_accounts`.  The
last size is a difference modulo `2 ^ 64`, and so is the sum.

The compressed pass checks an object against the header of the object and
nothing against the manifest.  Its counts are the sums of the headers, and these
need not be the totals that the manifest announces:
`runReadMethod_accounts_iff`.
-/

namespace DpuTest.ReadBench

open Lib

/-- The counts are the totals of the manifest. -/
def MethodResult.Accounts (result : MethodResult) (manifest : Manifest) : Prop :=
  result.rawBytes = manifest.totalRawSize ∧ result.compressedBytes = manifest.totalCompressedSize

/-- The counts are those of the contents that the pass has visited. -/
structure MethodResult.Counts (result : MethodResult) (delivered : List (List UInt8)) : Prop where
  objects_eq : result.objects = UInt64.ofNat delivered.length
  rawBytes_eq : result.rawBytes = UInt64.ofNat delivered.flatten.length

theorem MethodResult.counts_zero : MethodResult.zero.Counts [] where
  objects_eq := rfl
  rawBytes_eq := rfl

theorem MethodResult.Counts.addObject {result : MethodResult} {delivered : List (List UInt8)}
    (h : result.Counts delivered) {rawBytes : UInt64} {content : List UInt8}
    (hsize : rawBytes = UInt64.ofNat content.length) (compressedBytes : UInt64) :
    (result.addObject rawBytes compressedBytes).Counts (delivered ++ [content]) where
  objects_eq := by
    show result.objects + 1 = _
    rw [h.objects_eq, ofNat_succ, List.length_append, List.length_singleton]
  rawBytes_eq := by
    show result.rawBytes + rawBytes = _
    rw [h.rawBytes_eq, hsize, List.flatten_append, List.length_append, List.flatten_singleton,
      UInt64.ofNat_add]

/-- The comparison of the two manifests in `benchmark_reads`. -/
def DatasetsMatch (compressedManifest rawManifest : Manifest) : Prop :=
  ¬ (compressedManifest.objectCount ≠ rawManifest.objectCount ∨
    compressedManifest.totalRawSize ≠ rawManifest.totalRawSize)

/-- The header of the object that the pool has under an index. -/
def headerAt (pool : Pool) (pfx : List UInt8) (index : UInt64) : ObjectHeader :=
  ObjectHeader.ofBytes (slice ((pool (objectName pfx index)).getD []) 0 objectHeaderSize)

/-- The sum of a header field over the objects that the manifest counts. -/
def headerTotal (field : ObjectHeader → UInt64) (pool : Pool) (manifest : Manifest) : UInt64 :=
  ((List.range manifest.objectCount.toNat).map fun i =>
    field (headerAt pool (cString manifest.pfx) (UInt64.ofNat i))).sum

/-- The headers of the objects add up to the totals of the manifest. -/
def HeadersAddUp (pool : Pool) (manifest : Manifest) : Prop :=
  headerTotal ObjectHeader.rawSize pool manifest = manifest.totalRawSize ∧
    headerTotal ObjectHeader.compressedSize pool manifest = manifest.totalCompressedSize

/-! ## The raw pass -/

section

variable {pool : Pool} {pfx : List UInt8} {manifest : Manifest}

theorem length_radosRead_le {oid object : List UInt8} {len : Nat}
    (h : radosRead pool oid len = some object) : object.length ≤ len := by
  obtain ⟨stored, -, rfl⟩ := Option.map_eq_some_iff.mp h
  rw [List.length_take]
  exact Nat.min_le_left _ _

/-- Every object but the last one. -/
theorem expectedSize_of_lt {i : Nat} (h : i + 1 < manifest.objectCount.toNat) :
    expectedSize manifest (UInt64.ofNat i) = UInt64.ofNat OBJECT_BYTES := by
  have hcount := manifest.objectCount.toNat_lt
  rw [expectedSize, if_neg]
  intro heq
  rw [ofNat_succ] at heq
  have htoNat := congrArg UInt64.toNat heq
  rw [UInt64.toNat_ofNat_of_lt' (Nat.lt_trans h hcount)] at htoNat
  omega

theorem expectedSize_last {i : Nat} (h : i + 1 = manifest.objectCount.toNat) :
    expectedSize manifest (UInt64.ofNat i) =
      manifest.totalRawSize - UInt64.ofNat i * UInt64.ofNat OBJECT_BYTES := by
  have hlast : UInt64.ofNat i + 1 = manifest.objectCount := by
    rw [ofNat_succ, h, UInt64.ofNat_toNat]
  rw [expectedSize, if_pos hlast]

/-- The expected sizes add up, whether or not the last one has wrapped. -/
theorem sum_expectedSize (hcount : 1 ≤ manifest.objectCount) :
    ((List.range manifest.objectCount.toNat).map fun i =>
      expectedSize manifest (UInt64.ofNat i)).sum = manifest.totalRawSize := by
  have hpos : 1 ≤ manifest.objectCount.toNat := UInt64.le_iff_toNat_le.mp hcount
  obtain ⟨n, hn⟩ := Nat.exists_eq_add_of_le' hpos
  have hfull : (List.range n).map (fun i => expectedSize manifest (UInt64.ofNat i)) =
      (List.range n).map fun _ => UInt64.ofNat OBJECT_BYTES := by
    apply List.map_congr_left
    intro i hi
    have hlt := List.mem_range.mp hi
    exact expectedSize_of_lt (by omega)
  have hlast := expectedSize_last hn.symm
  rw [hn, List.range_succ, List.map_append, List.sum_append, hfull, sum_range_const,
    List.map_singleton, List.sum_singleton, hlast]
  exact add_sub_cancel _ _

/-- The sizes that the raw pass has read are the expected ones. -/
theorem rawBytes_of_run {pass : Pass} (hcount : 1 ≤ manifest.objectCount)
    (h : runRawReadMethod pool manifest = .ok pass) :
    pass.result.rawBytes = manifest.totalRawSize := by
  rw [← sum_expectedSize hcount]
  refine forLoop_sum_zero (fun p : Pass => p.result.rawBytes) (expectedSize manifest) ?_ rfl h
  intro index p p' hnext
  obtain ⟨_, -, -, hresult, -⟩ := readRawNext_inv hnext
  rw [hresult]
  rfl

theorem runRawReadMethod_counts {pass : Pass} (h : runRawReadMethod pool manifest = .ok pass) :
    pass.result.Counts pass.delivered := by
  refine forLoop_keeps (fun p : Pass => p.result.Counts p.delivered) ?_
    MethodResult.counts_zero h
  intro index p p' hp hnext
  obtain ⟨object, -, hsize, hresult, hdelivered⟩ := readRawNext_inv hnext
  rw [hresult, hdelivered]
  exact hp.addObject hsize.symm _

/-- The raw pass has read what the manifest announces. -/
theorem runRawReadMethod_accounts {pass : Pass} (hcount : 1 ≤ manifest.objectCount)
    (h : runRawReadMethod pool manifest = .ok pass) :
    pass.result.objects = manifest.objectCount ∧
      pass.delivered.length = manifest.objectCount.toNat ∧
      (∀ i object, pass.delivered[i]? = some object →
        radosRead pool (objectName (cString manifest.pfx) (UInt64.ofNat i)) OBJECT_BYTES =
            some object ∧
          (i + 1 < manifest.objectCount.toNat → object.length = OBJECT_BYTES)) ∧
      pass.result.rawBytes = manifest.totalRawSize := by
  have hraw := rawBytes_of_run hcount h
  have hobjects := (runRawReadMethod_counts h).objects_eq
  rw [runRawReadMethod] at h
  obtain ⟨hlen, hitems⟩ := forLoop_inv_zero Pass.delivered
    (fun index object =>
      radosRead pool (objectName (cString manifest.pfx) index) OBJECT_BYTES = some object ∧
        UInt64.ofNat object.length = expectedSize manifest index)
    (fun hnext => by
      obtain ⟨object, hread, hsize, -, hdelivered⟩ := readRawNext_inv hnext
      exact ⟨object, ⟨hread, hsize⟩, hdelivered⟩) rfl h
  refine ⟨?_, hlen, ?_, hraw⟩
  · rw [hobjects, hlen, UInt64.ofNat_toNat]
  · intro i object hi
    obtain ⟨hread, hsize⟩ := hitems i object hi
    refine ⟨hread, ?_⟩
    intro hlt
    have hle := length_radosRead_le hread
    rw [expectedSize_of_lt hlt] at hsize
    have htoNat := congrArg UInt64.toNat hsize
    have hmax : OBJECT_BYTES < 2 ^ 64 := by decide
    rw [UInt64.toNat_ofNat_of_lt' (Nat.lt_of_le_of_lt hle hmax),
      UInt64.toNat_ofNat_of_lt' hmax] at htoNat
    exact htoNat

/-- A block of sevens and one byte more. -/
def sevensAndA : List (List UInt8) := [List.replicate OBJECT_BYTES 7, [0x61]]

/-- A pool with the two objects. -/
def sevensAndAPool : Pool := fun name =>
  if name = objectName prefixP.chars 0 then some (List.replicate OBJECT_BYTES 7) else some [0x61]

theorem runRawReadMethod_accounts_sevensAndA :
    ∃ pass, runRawReadMethod sevensAndAPool
        (newManifest prefixP.chars 2 (UInt64.ofNat (OBJECT_BYTES + 1)) 0) = .ok pass ∧
      pass.delivered = sevensAndA ∧ pass.result.objects = 2 ∧
      pass.result.rawBytes = UInt64.ofNat (OBJECT_BYTES + 1) := by
  have hnext : ∀ i object, sevensAndA[i]? = some object → ∀ p : Pass, ∃ p',
      readRawNext sevensAndAPool prefixP.chars
        (newManifest prefixP.chars 2 (UInt64.ofNat (OBJECT_BYTES + 1)) 0) (UInt64.ofNat i) p =
          .ok p' ∧ p'.delivered = p.delivered ++ [object] := by
    intro i object hi p
    match i with
    | 0 =>
      obtain rfl := Option.some.inj hi
      refine readRawNext_ok (if_pos rfl) (Nat.le_of_eq List.length_replicate) ?_ p
      rw [List.length_replicate]
      rfl
    | 1 =>
      obtain rfl := Option.some.inj hi
      refine readRawNext_ok (if_neg ?_) (by decide) rfl p
      intro hname
      exact absurd (objectName_inj hname).2 (by decide)
  have hstart : Pass.delivered { result := .zero, delivered := [] } = [] := rfl
  obtain ⟨pass, hrun, hdelivered⟩ := forLoop_outputs_zero _ Pass.delivered _ hnext hstart
  have hpass : runRawReadMethod sevensAndAPool
      (newManifest prefixP.chars 2 (UInt64.ofNat (OBJECT_BYTES + 1)) 0) = .ok pass := hrun
  obtain ⟨hobjects, -, -, hraw⟩ := runRawReadMethod_accounts (by decide) hpass
  exact ⟨pass, hpass, hdelivered, hobjects, hraw⟩

end

/-! ## The compressed pass -/

section

variable {z : Zlib} {device : Inflater} {method : ReadMethod} {srcCapacity readCapacity : Nat}
  {pool : Pool} {pfx : List UInt8} {manifest : Manifest}

/-- A read that is long enough for the header has the header of the object. -/
theorem slice_radosRead {index : UInt64} {object : List UInt8}
    (hread : radosRead pool (objectName pfx index) readCapacity = some object)
    (hmin : objectHeaderSize ≤ object.length) :
    ObjectHeader.ofBytes (slice object 0 objectHeaderSize) = headerAt pool pfx index := by
  obtain ⟨stored, hstored, rfl⟩ := Option.map_eq_some_iff.mp hread
  rw [List.length_take] at hmin
  rw [headerAt, hstored, Option.getD_some, slice, slice, List.drop_zero, List.drop_zero,
    List.take_take, Nat.min_eq_left (by omega)]

/-- A pass of the loop that returns counts what the header says, which is what it
has delivered. -/
theorem readNext_result {index : UInt64} {r r' : Reader srcCapacity}
    (h : readNext z device method pool pfx readCapacity index r = .ok r') :
    r'.result = r.result.addObject (headerAt pool pfx index).rawSize
        (headerAt pool pfx index).compressedSize ∧
      ∃ content, (headerAt pool pfx index).rawSize = UInt64.ofNat content.length ∧
        r'.delivered = r.delivered ++ [content] := by
  unfold readNext at h
  split at h
  · cases h
  · rename_i object hread
    split at h
    · cases h
    · rename_i header s hobject
      cases h
      have hpassed := readObject_passed hobject
      have hmax : s.outputSize ≤ OBJECT_BYTES := by
        rw [hpassed.outputSize_eq]
        exact hpassed.rawSize_le
      rw [← slice_radosRead hread hpassed.min_length, ← hpassed.header_eq]
      refine ⟨rfl, _, ?_, rfl⟩
      rw [List.length_take, s.outputBuffer.length_data, Nat.min_eq_left hmax,
        hpassed.outputSize_eq, UInt64.ofNat_toNat]

theorem runReadMethod_counts {outputBuffer : Buffer UInt8 OBJECT_BYTES}
    {doca : DocaDecompressor srcCapacity} {r : Reader srcCapacity}
    (h : runReadMethod z device method pool readCapacity manifest outputBuffer doca = .ok r) :
    r.result.Counts r.delivered := by
  refine forLoop_keeps (fun r : Reader srcCapacity => r.result.Counts r.delivered) ?_
    MethodResult.counts_zero h
  intro index r r' hr hnext
  obtain ⟨hresult, content, hsize, hdelivered⟩ := readNext_result hnext
  rw [hresult, hdelivered]
  exact hr.addObject hsize _

/-- The counts of the compressed pass are sums over the headers. -/
theorem runReadMethod_result {outputBuffer : Buffer UInt8 OBJECT_BYTES}
    {doca : DocaDecompressor srcCapacity} {r : Reader srcCapacity}
    (h : runReadMethod z device method pool readCapacity manifest outputBuffer doca = .ok r) :
    r.result.rawBytes = headerTotal ObjectHeader.rawSize pool manifest ∧
      r.result.compressedBytes = headerTotal ObjectHeader.compressedSize pool manifest := by
  rw [runReadMethod] at h
  constructor
  · refine forLoop_sum_zero (fun r : Reader srcCapacity => r.result.rawBytes)
      (fun index => (headerAt pool (cString manifest.pfx) index).rawSize) ?_ rfl h
    intro index r r' hnext
    rw [(readNext_result hnext).1]
    rfl
  · refine forLoop_sum_zero (fun r : Reader srcCapacity => r.result.compressedBytes)
      (fun index => (headerAt pool (cString manifest.pfx) index).compressedSize) ?_ rfl h
    intro index r r' hnext
    rw [(readNext_result hnext).1]
    rfl

/-- The raw pass next to the compressed one. -/
theorem rawBytes_eq_iff {rawManifest : Manifest} {pass : Pass}
    (hmatch : DatasetsMatch manifest rawManifest)
    (hraw : runRawReadMethod pool rawManifest = .ok pass) {total : UInt64}
    (htotal : manifest.objectCount = 0 → total = 0) :
    total = pass.result.rawBytes ↔
      manifest.objectCount = 0 ∨ total = manifest.totalRawSize := by
  simp only [DatasetsMatch, not_or, ne_eq, Decidable.not_not] at hmatch
  obtain ⟨hcount, hsize⟩ := hmatch
  by_cases hzero : manifest.objectCount = 0
  · have hpass : pass.result.rawBytes = 0 := by
      rw [runRawReadMethod, ← hcount, hzero] at hraw
      cases hraw
      rfl
    rw [htotal hzero, hpass]
    exact iff_of_true rfl (Or.inl hzero)
  · have hpos : 1 ≤ rawManifest.objectCount := by
      rw [← hcount, UInt64.le_iff_toNat_le]
      have hne : manifest.objectCount.toNat ≠ 0 := fun heq => hzero (UInt64.toNat_inj.mp heq)
      show 1 ≤ _
      omega
    rw [rawBytes_of_run hpos hraw, ← hsize]
    constructor
    · exact Or.inr
    · intro h
      exact h.resolve_left hzero

/-- A compressed pass that returns 0 has the totals of the manifest exactly if the
headers of the objects add up to them, and has counted the bytes of the raw pass
exactly if their raw sizes do. -/
theorem runReadMethod_accounts_iff (outputBuffer : Buffer UInt8 OBJECT_BYTES)
    (doca : DocaDecompressor srcCapacity) {r : Reader srcCapacity}
    (h : runReadMethod z device method pool readCapacity manifest outputBuffer doca = .ok r) :
    (r.result.Accounts manifest ↔ HeadersAddUp pool manifest) ∧
      ∀ rawManifest pass, DatasetsMatch manifest rawManifest →
        runRawReadMethod pool rawManifest = .ok pass →
        (r.result.rawBytes = pass.result.rawBytes ↔ manifest.objectCount = 0 ∨
          headerTotal ObjectHeader.rawSize pool manifest = manifest.totalRawSize) := by
  obtain ⟨hraw, hcompressed⟩ := runReadMethod_result h
  constructor
  · rw [MethodResult.Accounts, HeadersAddUp, hraw, hcompressed]
  · intro rawManifest pass hmatch hpass
    have hempty : manifest.objectCount = 0 → headerTotal ObjectHeader.rawSize pool manifest = 0 := by
      intro hzero
      rw [headerTotal, hzero]
      rfl
    rw [hraw]
    exact rawBytes_eq_iff hmatch hpass hempty

end

/-! ## A manifest and a header -/

/-- The object of the byte `a` is read, whatever the manifest announces. -/
theorem exists_runReadMethod_objectOfA {pool : Pool} {manifest : Manifest}
    (hcount : manifest.objectCount = 1)
    (hpool : pool (objectName (cString manifest.pfx) 0) = some objectOfA)
    (outputBuffer : Buffer UInt8 OBJECT_BYTES)
    (doca : DocaDecompressor (storedZlib.compressBound FRAME_BYTES)) :
    ∃ r, runReadMethod storedZlib storedInflater .doca pool (objectCapacity storedZlib) manifest
      outputBuffer doca = .ok r := by
  have hcap : (packObject storedZlib.checksum [frameOfA]).length ≤ objectCapacity storedZlib := by
    decide
  have hfs : WellFormed (ReadMethod.doca.decode storedZlib storedInflater
      (storedZlib.compressBound FRAME_BYTES)) [frameOfA] := wellFormed_frameOfA
  rw [← packObject_frameOfA] at hpool
  obtain ⟨r, hread, -⟩ := readNext_packObject hfs (by decide) hpool hcap
    { outputBuffer := outputBuffer, doca := doca, result := .zero, delivered := [] }
  refine ⟨r, ?_⟩
  rw [runReadMethod, hcount]
  show forLoop _ (0 + 1) 0 _ = _
  rw [forLoop, hread]
  rfl

/-- With the manifest of the byte `a` the counts are the totals. -/
theorem runReadMethod_accounts_a :
    ∃ r, runReadMethod storedZlib storedInflater .doca poolOfA (objectCapacity storedZlib)
        (newManifest prefixP.chars 1 1 9) (.zeroed OBJECT_BYTES)
        (.init (storedZlib.compressBound FRAME_BYTES)) = .ok r ∧
      r.result.Accounts (newManifest prefixP.chars 1 1 9) := by
  have hcount : (newManifest prefixP.chars 1 1 9).objectCount = 1 := rfl
  have hpool : poolOfA (objectName (cString (newManifest prefixP.chars 1 1 9).pfx) 0) =
      some objectOfA := rfl
  obtain ⟨r, hrun⟩ := exists_runReadMethod_objectOfA hcount hpool (.zeroed OBJECT_BYTES)
    (.init (storedZlib.compressBound FRAME_BYTES))
  have haddUp : HeadersAddUp poolOfA (newManifest prefixP.chars 1 1 9) :=
    ⟨by decide, by decide⟩
  exact ⟨r, hrun, (runReadMethod_accounts_iff _ _ hrun).1.mpr haddUp⟩

/-- Every compressed pass that returns 0 has the totals of a manifest that
`read_manifest` accepts. -/
def CompressedPassAccounts (z : Zlib) (device : Inflater) : Prop :=
  ∀ (method : ReadMethod) (srcCapacity readCapacity : Nat) (pool : Pool) (pfx : List UInt8)
    (manifest : Manifest) (outputBuffer : Buffer UInt8 OBJECT_BYTES)
    (doca : DocaDecompressor srcCapacity) (r : Reader srcCapacity),
    readManifest pool pfx = .ok manifest →
    runReadMethod z device method pool readCapacity manifest outputBuffer doca = .ok r →
    r.result.Accounts manifest

/-- The manifest of the two bytes `aa`, and the object of `a`: a write of `a` has
replaced the object and died before the manifest. -/
def staleManifest : Pool := fun oid =>
  if oid = manifestName prefixP.chars then some (newManifest prefixP.chars 1 2 10).bytes
  else some objectOfA

theorem not_compressedPassAccounts :
    ¬ CompressedPassAccounts storedZlib storedInflater := by
  intro h
  have hmanifest : readManifest staleManifest prefixP.chars =
      .ok (newManifest prefixP.chars 1 2 10) := readManifest_newManifest (if_pos rfl)
  have hpool : staleManifest (objectName (cString (newManifest prefixP.chars 1 2 10).pfx) 0) =
      some objectOfA := by
    rw [newManifest, cString_prefixArray]
    exact if_neg (objectName_ne_manifestName prefixP prefixP 0)
  obtain ⟨r, hrun⟩ := exists_runReadMethod_objectOfA rfl hpool (.zeroed OBJECT_BYTES)
    (.init (storedZlib.compressBound FRAME_BYTES))
  have hraw := (h _ _ _ _ _ _ _ _ _ hmanifest hrun).1
  have hheader : headerAt staleManifest
      (cString (newManifest prefixP.chars 1 2 10).pfx) (UInt64.ofNat 0) =
      ObjectHeader.ofBytes (slice objectOfA 0 objectHeaderSize) := by
    rw [headerAt]
    exact congrArg (fun o => ObjectHeader.ofBytes (slice (Option.getD o []) 0 objectHeaderSize)) hpool
  have htotal : headerTotal ObjectHeader.rawSize staleManifest
      (newManifest prefixP.chars 1 2 10) = 1 := by
    show (headerAt staleManifest (cString (newManifest prefixP.chars 1 2 10).pfx)
      (UInt64.ofNat 0)).rawSize + 0 = 1
    rw [hheader]
    decide
  rw [(runReadMethod_result hrun).1, htotal] at hraw
  exact absurd hraw (by decide)

end DpuTest.ReadBench
