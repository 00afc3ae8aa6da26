import DpuTest.Compress.FileReads
import DpuTest.Lib.CInt
import DpuTest.Lib.Engine
import DpuTest.ReadBench.StoredZlib

/-!
# The test that compresses with zlib and decompresses with DOCA

Each turn of the loop of `test3` reads into `cpu_src_buffer_compress`, compresses all
blobs of the batch with zlib, copies the streams to `src_buffer_decompress` at a
stride of two blobs, and has the device inflate them without their zlib framing.

`test3Pass_spec` is one turn: it always decompresses a whole batch, and what comes out
is the buffer, with the zeros behind a short read.  `test3_ends` is the loop over a
file.  So the test reproduces the file if and only if no read is short
(`reproduces_iff`).
-/

namespace DpuTest.Compress

open Lib
open ReadBench (ZLIB_HEADER_SIZE ZLIB_COMPATIBILITY_ADDITIONAL_MEMORY deflateBody storedStream
  storedBody storedDecode storedBound storedDecode_storedBody deflateBody_storedStream
  length_storedStream)

/-- `compress` of zlib, and what the device makes of the data of a source buffer.  A
stream has its framing and at most the double size, and the device inverts it. -/
structure ZlibAndDevice (blobSize : Nat) where
  compress : List UInt8 → List UInt8
  inflate : List UInt8 → List UInt8
  min_length : ∀ x, x.length = blobSize →
    ZLIB_COMPATIBILITY_ADDITIONAL_MEMORY ≤ (compress x).length
  length_le : ∀ x, x.length = blobSize → (compress x).length ≤ 2 * blobSize
  inflate_eq : ∀ x, x.length = blobSize → inflate (deflateBody (compress x)) = x

/-- `cpu_dst_buffer_compress`, `compressed_lengths` and
`total_size_after_compression`. -/
structure CpuOutput (b : BenchSizes) where
  dst : Nat → Buffer UInt8 (2 * b.blobSize)
  lengths : Nat → Nat
  totalAfterCompression : UInt64

/-- The variables of `test3`; the device with its two buffers; and what the
destination buffers of the batches held, the oldest first. -/
structure Test3State (b : BenchSizes) where
  turn : Nat
  cpu : CpuOutput b
  device : Engine UInt8 b.decompressSize b.decompressSize
  totalBefore : UInt64
  totalAfterDecompression : UInt64
  outputs : List (List UInt8)

section

variable {b : BenchSizes}

/-- `compress` of blob `i`. -/
def compressBlob (z : ZlibAndDevice b.blobSize) (cpuSrc : Buffer UInt8 b.readSize)
    (out : CpuOutput b) (i : Nat) : Option (CpuOutput b) :=
  (fetch cpuSrc.data (i * b.blobSize) b.blobSize).bind fun blob =>
    ((out.dst i).store 0 (z.compress blob)).map fun dst =>
      { dst := Function.update out.dst i dst
        lengths := Function.update out.lengths i (z.compress blob).length
        totalAfterCompression :=
          out.totalAfterCompression + UInt64.ofNat (z.compress blob).length }

/-- The two copies of stream `i`: the first `blob_size` bytes, and then all of it. -/
def copyStream (out : CpuOutput b) (src : Buffer UInt8 b.decompressSize) (i : Nat) :
    Option (Buffer UInt8 b.decompressSize) :=
  (src.copy (i * b.blobSize * 2) (out.dst i) 0 b.blobSize).bind fun src =>
    src.copy (i * b.blobSize * 2) (out.dst i) 0 (out.lengths i)

/-- The source descriptors get their data, the destination descriptors are reset, and
all tasks are submitted. -/
def submitDecompressBatch (out : CpuOutput b)
    (device : Engine UInt8 b.decompressSize b.decompressSize) :
    Engine UInt8 b.decompressSize b.decompressSize :=
  { device with
    srcBufs := (List.range b.batchSize).map fun i =>
      (i * b.blobSize * 2 + ZLIB_HEADER_SIZE,
        out.lengths i - ZLIB_COMPATIBILITY_ADDITIONAL_MEMORY)
    dstBufs := resetFirst b.batchSize device.dstBufs
    latch := Latch.arm (UInt64.ofNat b.batchSize) }

/-- `doca_buf_get_data_len(dst_doca_buf_batch_decompress[i])` -/
def dataLen (device : Engine UInt8 b.decompressSize b.decompressSize) (i : Nat) : Nat :=
  (segmentAt device.dstBufs i).2

/-- The data of destination buffer `i`. -/
def outputData (device : Engine UInt8 b.decompressSize b.decompressSize) (i : Nat) : List UInt8 :=
  slice device.dst.data (segmentAt device.dstBufs i).1 (dataLen device i)

variable (z : ZlibAndDevice b.blobSize) (reads : Nat → ReadResult)
  (orders : Nat → CompletionOrder b.batchSize)

/-- `if(n == 0) break;` -/
def test3Reads (s : Test3State b) : Bool := (reads s.turn).count != 0

/-- A turn of the loop in which `n` is not 0. -/
def test3Pass (s : Test3State b) : Option (Test3State b) :=
  ((Buffer.zeroed b.readSize).store 0 (reads s.turn).bytes).bind fun cpuSrc =>
    ((List.range b.batchSize).foldlM (compressBlob z cpuSrc) s.cpu).bind fun cpu =>
      ((List.range b.batchSize).foldlM (copyStream cpu) s.device.src).bind fun src =>
        ((submitDecompressBatch cpu { s.device with src := src }).wait z.inflate
            (orders s.turn).tasks).map fun device =>
          { turn := s.turn + 1
            cpu := cpu
            device := device
            totalBefore := s.totalBefore + UInt64.ofInt (reads s.turn).count
            totalAfterDecompression := s.totalAfterDecompression +
              ((List.range b.batchSize).map fun i => UInt64.ofNat (dataLen device i)).sum
            outputs := s.outputs ++ (List.range b.batchSize).map (outputData device) }

/-- A call of `test3` returns, after an `initDecompressionResources` whose sizes did not
overflow. -/
def Test3Returns (s t : Test3State b) : Prop :=
  b.decompressionSizes.isSome = true ∧
    LoopEnds (test3Reads reads) (test3Pass z reads orders) s t

/-- What the memory holds before the call. -/
structure BenchMemory (b : BenchSizes) where
  cpu : CpuOutput b
  src : Buffer UInt8 b.decompressSize
  dst : Buffer UInt8 b.decompressSize
  dataLens : Nat → Nat
  totalBefore : UInt64
  totalAfterDecompression : UInt64

/-- The state before the first read, with the descriptors of
`initDecompressionResources`. -/
def BenchMemory.start (mem : BenchMemory b) : Test3State b where
  turn := 0
  cpu := mem.cpu
  device :=
    { src := mem.src
      dst := mem.dst
      srcBufs := []
      dstBufs := (List.range b.batchSize).map fun i => (i * b.blobSize * 2, mem.dataLens i)
      latch := { remaining := 0, running := false } }
  totalBefore := mem.totalBefore
  totalAfterDecompression := mem.totalAfterDecompression
  outputs := []

/-- The call returns, the outputs together are the file, and the totals have grown by
the same amount. -/
def Reproduces (file : List UInt8) (mem : BenchMemory b) : Prop :=
  ∃ t, Test3Returns z reads orders mem.start t ∧ t.outputs.flatten = file ∧
    t.totalAfterDecompression - mem.totalAfterDecompression = t.totalBefore - mem.totalBefore

end

/-! ## Compressing -/

section

variable {b : BenchSizes} {z : ZlibAndDevice b.blobSize}

/-- Stream `i` lies in its buffer. -/
def HoldsStream (out : CpuOutput b) (i : Nat) (stream : List UInt8) : Prop :=
  out.lengths i = stream.length ∧ slice (out.dst i).data 0 stream.length = stream

/-- The blobs of the buffer. -/
def blob (b : BenchSizes) (cpuSrc : Buffer UInt8 b.readSize) (i : Nat) : List UInt8 :=
  cpuSrc.segment b.blobSize i

theorem length_blob {cpuSrc : Buffer UInt8 b.readSize} {i : Nat} (h : i < b.batchSize) :
    (blob b cpuSrc i).length = b.blobSize := by
  apply length_slice
  rw [cpuSrc.length_data]
  exact Buffer.segment_bound _ h

/-- All streams lie in their buffers. -/
theorem compressLoop_spec (cpuSrc : Buffer UInt8 b.readSize) (out : CpuOutput b) :
    ∃ out', (List.range b.batchSize).foldlM (compressBlob z cpuSrc) out = some out' ∧
      ∀ i, i < b.batchSize → HoldsStream out' i (z.compress (blob b cpuSrc i)) := by
  apply exists_foldlM_range (P := fun n out =>
    ∀ i, i < n → HoldsStream out i (z.compress (blob b cpuSrc i)))
  · intro i out hi hout
    have hblob : (blob b cpuSrc i).length = b.blobSize := length_blob hi
    have hin : i * b.blobSize + b.blobSize ≤ cpuSrc.data.length := by
      rw [cpuSrc.length_data]
      exact Buffer.segment_bound _ hi
    have hroom : 0 + (z.compress (blob b cpuSrc i)).length ≤ 2 * b.blobSize := by
      rw [Nat.zero_add]
      exact z.length_le _ hblob
    rw [compressBlob, fetch_eq_some hin, Option.bind_some]
    show ∃ t, ((out.dst i).store 0 (z.compress (blob b cpuSrc i))).map _ = some t ∧ _
    rw [Buffer.store_eq_some _ hroom, Option.map_some]
    refine ⟨_, rfl, ?_⟩
    intro j hj
    by_cases hji : j = i
    · subst hji
      constructor
      · exact Function.update_self ..
      · show slice (Function.update out.dst j _ j).data 0 _ = _
        rw [Function.update_self, Buffer.put_data]
        apply slice_writeAt_self
        rw [(out.dst j).length_data]
        exact hroom
    · obtain ⟨hlen, hslice⟩ := hout j (by omega)
      constructor
      · show Function.update out.lengths i _ j = _
        rw [Function.update_of_ne hji, hlen]
      · show slice (Function.update out.dst i _ j).data 0 _ = _
        rw [Function.update_of_ne hji, hslice]
  · intro i hi
    omega

/-! ## Copying -/

/-- The streams lie in `src_buffer_decompress`, two blobs apart. -/
theorem copyLoop_spec {out : CpuOutput b} {stream : Nat → List UInt8}
    (hout : ∀ i, i < b.batchSize → HoldsStream out i (stream i))
    (hle : ∀ i, i < b.batchSize → (stream i).length ≤ 2 * b.blobSize)
    (src : Buffer UInt8 b.decompressSize) :
    ∃ src', (List.range b.batchSize).foldlM (copyStream out) src = some src' ∧
      ∀ i, i < b.batchSize →
        slice src'.data (i * b.blobSize * 2) (stream i).length = stream i := by
  apply exists_foldlM_range (P := fun n src => ∀ i, i < n →
    slice (Buffer.data src) (i * b.blobSize * 2) (stream i).length = stream i)
  · intro i src hi hsrc
    obtain ⟨hlen, hslice⟩ := hout i hi
    have hstream := hle i hi
    have hroom := b.blob_le hi
    have hroom₁ : i * b.blobSize * 2 + b.blobSize ≤ b.decompressSize := by omega
    have hin₁ : 0 + b.blobSize ≤ 2 * b.blobSize := by omega
    have hroom₂ : i * b.blobSize * 2 + (stream i).length ≤ b.decompressSize := by omega
    have hin₂ : 0 + (stream i).length ≤ 2 * b.blobSize := by omega
    obtain ⟨src₁, hcopy₁, -, hother₁⟩ := src.exists_copy (out.dst i) hroom₁ hin₁
    obtain ⟨src₂, hcopy₂, hself₂, hother₂⟩ := src₁.exists_copy (out.dst i) hroom₂ hin₂
    refine ⟨src₂, ?_, ?_⟩
    · rw [copyStream, hcopy₁, Option.bind_some, hlen, hcopy₂]
    · intro j hj
      by_cases hji : j = i
      · rw [hji, hself₂, hslice]
      · -- the segment of an earlier stream ends before this one
        have hlt : j < i := by omega
        have hbefore : j * b.blobSize * 2 + (stream j).length ≤ i * b.blobSize * 2 := by
          have hj2 := hle j (by omega)
          have hmul : (j + 1) * (b.blobSize * 2) ≤ i * (b.blobSize * 2) :=
            Nat.mul_le_mul_right _ hlt
          rw [Nat.add_mul, Nat.one_mul, ← Nat.mul_assoc, ← Nat.mul_assoc] at hmul
          omega
        rw [hother₂ _ _ (Or.inl hbefore), hother₁ _ _ (Or.inl hbefore), hsrc j hlt]
  · intro i hi
    omega

/-! ## Decompressing -/

/-- The destination descriptors are two blobs apart. -/
def Descriptors (device : Engine UInt8 b.decompressSize b.decompressSize) : Prop :=
  resetFirst b.batchSize device.dstBufs =
    (List.range b.batchSize).map fun i => (i * b.blobSize * 2, 0)

/-- A task reads the stream of its blob. -/
theorem output_submitDecompressBatch {out : CpuOutput b}
    {device : Engine UInt8 b.decompressSize b.decompressSize} {blob : List UInt8} {i : Nat}
    (hi : i < b.batchSize) (hblob : blob.length = b.blobSize)
    (hlen : out.lengths i = (z.compress blob).length)
    (hsrc : slice device.src.data (i * b.blobSize * 2) (z.compress blob).length =
      z.compress blob) :
    (submitDecompressBatch out device).output z.inflate i = blob := by
  have hmin := z.min_length _ hblob
  have hseg : segmentAt (submitDecompressBatch out device).srcBufs i =
      (i * b.blobSize * 2 + ZLIB_HEADER_SIZE,
        (z.compress blob).length - ZLIB_COMPATIBILITY_ADDITIONAL_MEMORY) := by
    rw [← hlen]
    exact segmentAt_map_range hi
  have hbody : slice device.src.data (i * b.blobSize * 2 + ZLIB_HEADER_SIZE)
      ((z.compress blob).length - ZLIB_COMPATIBILITY_ADDITIONAL_MEMORY) =
        deflateBody (z.compress blob) := by
    have hinner : ZLIB_HEADER_SIZE +
        ((z.compress blob).length - ZLIB_COMPATIBILITY_ADDITIONAL_MEMORY) ≤
          (z.compress blob).length := by
      unfold ZLIB_COMPATIBILITY_ADDITIONAL_MEMORY at hmin ⊢
      omega
    rw [← slice_slice hinner, hsrc]
    rfl
  rw [Engine.output, Engine.input, hseg]
  show z.inflate (slice device.src.data _ _) = _
  rw [hbody, z.inflate_eq _ hblob]

/-- Two blobs of different tasks do not meet. -/
theorem blobs_disjoint {i j : Nat} (h : i ≠ j) :
    i * b.blobSize * 2 + b.blobSize ≤ j * b.blobSize * 2 ∨
      j * b.blobSize * 2 + b.blobSize ≤ i * b.blobSize * 2 := by
  rcases Nat.lt_or_gt_of_ne h with hlt | hgt
  · have hmul := Nat.mul_le_mul_right b.blobSize (Nat.succ_le_of_lt hlt)
    rw [Nat.succ_mul] at hmul
    omega
  · have hmul := Nat.mul_le_mul_right b.blobSize (Nat.succ_le_of_lt hgt)
    rw [Nat.succ_mul] at hmul
    omega

/-- The batch is inflated in any order, and each output has its own segment. -/
theorem wait_submitDecompressBatch {out : CpuOutput b}
    (device : Engine UInt8 b.decompressSize b.decompressSize) (hdevice : Descriptors device)
    {blobs : Nat → List UInt8} (hblobs : ∀ i, i < b.batchSize → (blobs i).length = b.blobSize)
    (hlen : ∀ i, i < b.batchSize → out.lengths i = (z.compress (blobs i)).length)
    (hsrc : ∀ i, i < b.batchSize → slice device.src.data (i * b.blobSize * 2)
      (z.compress (blobs i)).length = z.compress (blobs i))
    (order : CompletionOrder b.batchSize) :
    ∃ device', (submitDecompressBatch out device).wait z.inflate order.tasks = some device' ∧
      Descriptors device' ∧ ∀ i, i < b.batchSize →
        dataLen device' i = b.blobSize ∧ outputData device' i = blobs i := by
  have hne : order.tasks ≠ [] := by
    rw [← List.length_pos_iff, order.length_eq]
    exact b.batchSize_pos
  have hrem : (submitDecompressBatch out device).latch.remaining.toNat = order.tasks.length := by
    rw [order.length_eq]
    exact UInt64.toNat_ofNat_of_lt' b.batchSize_lt_size_t
  have hdst : (submitDecompressBatch out device).dstBufs =
      (List.range b.batchSize).map fun i => (i * b.blobSize * 2, 0) := hdevice
  -- what the tasks read
  have hinput : ∀ i, i < b.batchSize →
      (submitDecompressBatch out device).output z.inflate i = blobs i :=
    fun i hi => output_submitDecompressBatch hi (hblobs i hi) (hlen i hi) (hsrc i hi)
  -- where they write
  have hwindow : ∀ i, i < b.batchSize →
      (submitDecompressBatch out device).window z.inflate i =
        (i * b.blobSize * 2, b.blobSize) := by
    intro i hi
    rw [Engine.window, Engine.target, hinput i hi, hblobs i hi, hdst, segmentAt_map_range hi,
      Nat.add_zero]
  refine ⟨_, Engine.wait_of_armed hne hrem rfl, ?_, ?_⟩
  · have hreset := Engine.resetFirst_completeAll (e := submitDecompressBatch out device)
      (f := z.inflate) fun task ht => order.mem_iff.mp ht
    rw [Descriptors, hreset, hdst, resetFirst_map_range]
  · intro i hi
    have hmem := order.mem_iff.mpr hi
    have hindex : i < (submitDecompressBatch out device).dstBufs.length := by
      rw [hdst, List.length_map, List.length_range]
      exact hi
    have hseg := Engine.segmentAt_completeAll (f := z.inflate) order.nodup hmem hindex
    rw [hdst, segmentAt_map_range hi, hinput i hi, hblobs i hi, Nat.zero_add] at hseg
    refine ⟨by rw [dataLen, hseg], ?_⟩
    have hfit : (submitDecompressBatch out device).target i +
        ((submitDecompressBatch out device).output z.inflate i).length ≤ b.decompressSize := by
      have hroom := b.blob_le hi
      have htarget : (submitDecompressBatch out device).target i = i * b.blobSize * 2 :=
        congrArg Prod.fst (hwindow i hi)
      rw [htarget, hinput i hi, hblobs i hi]
      omega
    have hdisjoint : ∀ other ∈ order.tasks, other ≠ i →
        ((submitDecompressBatch out device).window z.inflate i).Disjoint
          ((submitDecompressBatch out device).window z.inflate other) := by
      intro other hother hotherNe
      have hlt := order.mem_iff.mp hother
      rw [hwindow i hi, hwindow other hlt]
      exact blobs_disjoint hotherNe.symm
    have hslice := Engine.slice_completeAll_of_mem (f := z.inflate) order.nodup hmem hfit hdisjoint
    rw [hwindow i hi, hinput i hi] at hslice
    rw [outputData, dataLen, hseg]
    exact hslice

/-! ## One turn -/

variable (z) {reads : Nat → ReadResult} (orders : Nat → CompletionOrder b.batchSize)

/-- The data lengths of a whole batch. -/
theorem sum_dataLen {device : Engine UInt8 b.decompressSize b.decompressSize}
    (h : ∀ i, i < b.batchSize → dataLen device i = b.blobSize) :
    ((List.range b.batchSize).map fun i => UInt64.ofNat (dataLen device i)).sum =
      UInt64.ofNat b.readSize := by
  have hmap : ((List.range b.batchSize).map fun i => UInt64.ofNat (dataLen device i)) =
      (List.range b.batchSize).map fun _ => UInt64.ofNat b.blobSize := by
    apply List.map_congr_left
    intro i hi
    rw [h i (List.mem_range.mp hi)]
  rw [hmap, sum_range_const, BenchSizes.readSize, UInt64.ofNat_mul]

/-- Whatever was read, a turn decompresses the whole buffer. -/
theorem test3Pass_spec {s : Test3State b} (hs : Descriptors s.device)
    (hread : (reads s.turn).bytes.length ≤ b.readSize) :
    ∃ s', test3Pass z reads orders s = some s' ∧ Descriptors s'.device ∧
      s'.turn = s.turn + 1 ∧
      s'.totalBefore = s.totalBefore + UInt64.ofInt (reads s.turn).count ∧
      s'.totalAfterDecompression = s.totalAfterDecompression + UInt64.ofNat b.readSize ∧
      s'.outputs.flatten = s.outputs.flatten ++ padded b.readSize (reads s.turn).bytes := by
  obtain ⟨cpuSrc, hcpuSrc, hdata⟩ := store_zeroed hread
  obtain ⟨cpu, hcpu, hstreams⟩ := compressLoop_spec (z := z) cpuSrc s.cpu
  have hblobs : ∀ i, i < b.batchSize → (blob b cpuSrc i).length = b.blobSize :=
    fun i hi => length_blob hi
  obtain ⟨src, hsrc, hcopied⟩ := copyLoop_spec hstreams
    (fun i hi => z.length_le _ (hblobs i hi)) s.device.src
  obtain ⟨device, hwait, hdevice, hout⟩ := wait_submitDecompressBatch
    { s.device with src := src } hs hblobs (fun i hi => (hstreams i hi).1) hcopied (orders s.turn)
  have hpass : test3Pass z reads orders s = some
      { turn := s.turn + 1
        cpu := cpu
        device := device
        totalBefore := s.totalBefore + UInt64.ofInt (reads s.turn).count
        totalAfterDecompression := s.totalAfterDecompression +
          ((List.range b.batchSize).map fun i => UInt64.ofNat (dataLen device i)).sum
        outputs := s.outputs ++ (List.range b.batchSize).map (outputData device) } := by
    rw [test3Pass, hcpuSrc, Option.bind_some, hcpu, Option.bind_some, hsrc, Option.bind_some,
      hwait, Option.map_some]
  refine ⟨_, hpass, hdevice, rfl, rfl, ?_, ?_⟩
  · show s.totalAfterDecompression + _ = _
    rw [sum_dataLen fun i hi => (hout i hi).1]
  · show (s.outputs ++ _).flatten = _
    have hmap : (List.range b.batchSize).map (outputData device) =
        (List.range b.batchSize).map (cpuSrc.segment b.blobSize) := by
      apply List.map_congr_left
      intro i hi
      exact (hout i (List.mem_range.mp hi)).2
    have hflat : cpuSrc.data = ((List.range b.batchSize).map (cpuSrc.segment b.blobSize)).flatten :=
      Buffer.data_eq_flatten cpuSrc
    rw [List.flatten_append, hmap, ← hflat, hdata]

end

/-! ## The loop -/

section

variable {b : BenchSizes} (z : ZlibAndDevice b.blobSize)
  {history : ReadHistory b.readSize} (orders : Nat → CompletionOrder b.batchSize)

/-- What the loop has made of some pieces. -/
structure Decompressed (pieces : List (List UInt8)) (s t : Test3State b) : Prop where
  outputs_eq : t.outputs.flatten = s.outputs.flatten ++ (pieces.map (padded b.readSize)).flatten
  totalBefore_eq : t.totalBefore = s.totalBefore + UInt64.ofNat pieces.flatten.length
  totalAfter_eq : t.totalAfterDecompression =
    s.totalAfterDecompression + UInt64.ofNat (pieces.length * b.readSize)

/-- From turn `s.turn` on, the loop decompresses the pieces that are left. -/
theorem test3_ends (hend : history.ending = .endOfFile)
    {pieces : List (List UInt8)} {s : Test3State b} (hs : Descriptors s.device)
    (hpieces : history.pieces.drop s.turn = pieces) :
    ∃ t, LoopEnds (test3Reads history.read) (test3Pass z history.read orders) s t ∧
      Decompressed pieces s t := by
  induction pieces generalizing s with
  | nil =>
    have hread := history.read_at_end hpieces hend
    have hstop : test3Reads history.read s = false := by
      rw [test3Reads, hread]
      rfl
    refine ⟨s, (loopEnds_of_false hstop).mpr rfl, ?_, ?_, ?_⟩
    · rw [List.map_nil, List.flatten_nil, List.append_nil]
    · simp
    · simp
  | cons piece pieces ih =>
    have hpiece := history.getElem?_of_drop hpieces
    have hread := history.read_of_piece hpiece
    obtain ⟨hne, hcount⟩ := history.count_of_piece hpiece
    have hgo : test3Reads history.read s = true := hne
    obtain ⟨s', hpass, hs', hturn, hbefore, hafter, hout⟩ := test3Pass_spec z orders
      hs (history.length_bytes_le s.turn)
    have hrest : history.pieces.drop s'.turn = pieces := by
      rw [hturn]
      exact history.drop_succ_of_drop hpieces
    obtain ⟨t, hends, ht⟩ := ih hs' hrest
    refine ⟨t, (loopEnds_of_true hgo hpass).mpr hends, ?_, ?_, ?_⟩
    · rw [ht.outputs_eq, hout, hread, List.append_assoc, List.map_cons, List.flatten_cons]
      rfl
    · rw [ht.totalBefore_eq, hbefore, hcount, uint64_ofInt_natCast, List.flatten_cons,
        List.length_append, UInt64.ofNat_add, UInt64.add_assoc]
    · rw [ht.totalAfter_eq, hafter, List.length_cons, Nat.add_mul, Nat.one_mul,
        Nat.add_comm (pieces.length * _), UInt64.ofNat_add, UInt64.add_assoc]

/-- After a read error the loop does not end. -/
theorem not_test3Returns_of_error (herror : history.ending = .error) (s t : Test3State b) :
    ¬ Test3Returns z history.read orders s t := by
  rintro ⟨-, hends⟩
  have hcond : ∀ s : Test3State b, True → test3Reads history.read s = true :=
    fun s _ => bne_iff_ne.mpr (history.count_ne_zero herror s.turn)
  exact not_loopEnds hcond (fun _ _ _ _ => trivial) trivial t hends

theorem descriptors_start (mem : BenchMemory b) : Descriptors mem.start.device :=
  resetFirst_map_range _ _

end

/-- The test reproduces the file if and only if the sizes fit and no read before the
end of the file is short. -/
theorem reproduces_iff {b : BenchSizes} (z : ZlibAndDevice b.blobSize) {file : List UInt8}
    (reads : FileReads b.readSize file) (orders : Nat → CompletionOrder b.batchSize)
    (mem : BenchMemory b) :
    Reproduces z reads.read orders file mem ↔
      b.Fits ∧ ∀ piece ∈ reads.pieces, piece.length = b.readSize := by
  have hdrop : reads.pieces.drop mem.start.turn = reads.pieces := List.drop_zero
  constructor
  · rintro ⟨t, ⟨hsizes, hends⟩, hfile, -⟩
    obtain ⟨t', hends', ht⟩ := test3_ends z orders reads.ending_eq
      (descriptors_start mem) hdrop
    rw [hends.unique hends', ht.outputs_eq] at hfile
    exact ⟨b.isSome_decompressionSizes.mp hsizes,
      (flatten_padded_eq_iff reads.length_le).mp (hfile.trans reads.flatten_eq.symm)⟩
  · rintro ⟨hfits, hfull⟩
    obtain ⟨t, hends, ht⟩ := test3_ends z orders reads.ending_eq
      (descriptors_start mem) hdrop
    refine ⟨t, ⟨b.isSome_decompressionSizes.mpr hfits, hends⟩, ?_, ?_⟩
    · rw [ht.outputs_eq]
      exact ((flatten_padded_eq_iff reads.length_le).mpr hfull).trans reads.flatten_eq
    · rw [ht.totalAfter_eq, ht.totalBefore_eq, length_flatten_of_forall hfull]
      show mem.totalAfterDecompression + _ - _ = mem.totalBefore + _ - _
      rw [add_sub_cancel_left, add_sub_cancel_left]

/-! ## A short file -/

/-- Stored streams, and a device that reads them. -/
def storedDevice (b : BenchSizes) : ZlibAndDevice b.blobSize where
  compress := storedStream
  inflate body := (storedDecode body).getD []
  min_length x _ := (length_storedStream x).1
  length_le x hx := by
    have hle := (length_storedStream x).2
    have hblob := b.le_blobSize
    rw [hx, storedBound] at hle
    omega
  inflate_eq x _ := by
    rw [deflateBody_storedStream, storedDecode_storedBody, Option.getD_some]

/-- Memory of zeros. -/
def clearMemory (b : BenchSizes) : BenchMemory b where
  cpu := { dst := fun _ => .zeroed _, lengths := fun _ => 0, totalAfterCompression := 0 }
  src := .zeroed _
  dst := .zeroed _
  dataLens _ := 0
  totalBefore := 0
  totalAfterDecompression := 0

/-- The one byte comes out as a blob. -/
theorem not_reproduces_oneByte : ¬ Reproduces (storedDevice oneBlob) oneByteReads.read
    (fun _ => .inOrder _) [7] (clearMemory oneBlob) := by
  rintro ⟨t, ⟨-, hends⟩, hfile, -⟩
  obtain ⟨t', hends', ht⟩ := test3_ends (storedDevice oneBlob) (fun _ => .inOrder _)
    oneByteReads.ending_eq (descriptors_start (clearMemory oneBlob)) List.drop_zero
  have hlen := congrArg List.length hfile
  rw [hends.unique hends', ht.outputs_eq] at hlen
  have hone : [(7 : UInt8)].length ≤ oneBlob.readSize := oneBlob.readSize_pos
  have hout : (([[7]].map (padded oneBlob.readSize)).flatten).length = oneBlob.readSize := by
    rw [List.map_singleton, List.flatten_singleton, length_padded hone]
  have hread : oneBlob.readSize = 1 := by
    rw [← hout]
    exact hlen
  have hblob := oneBlob.le_blobSize
  rw [BenchSizes.readSize] at hread
  have hmul : oneBlob.batchSize * oneBlob.blobSize = oneBlob.blobSize := Nat.one_mul _
  omega

end DpuTest.Compress
