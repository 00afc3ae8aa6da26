import DpuTest.ReadBench.Libraries
import DpuTest.ReadBench.Names
import DpuTest.Lib.Chunking

/-!
# Writing one object

`write_chunk` compresses a raw object frame by frame into `object_buffer`.  The
header of a frame is copied behind its stream, when the compressed size is
known, and the object header last of all.  The buffer is not cleared between
two objects, so nothing may depend on what it held before.

The result of the module is `encodeChunk_eq_ok`: with the capacity that
`write_compressed_dataset` allocates, neither exit of the loop is taken and the
bytes to store are `packObject` of the frames of `raw`.
-/

namespace DpuTest.ReadBench

open Lib

/-- Why `write_chunk` returns -1. -/
inductive WriteChunkError where
  /-- Too many frames, or no room for another frame header. -/
  | capacity
  /-- `zlib compress2 failed for object … frame …` -/
  | compress2 (index : UInt64) (frame : UInt32)
  /-- `rados_write_full(…)` -/
  | radosWriteFull (oid : List UInt8)
  /-- A copy that does not stay in `object_buffer`. -/
  | outOfBounds
  deriving DecidableEq

/-- The local variables of `write_chunk`. -/
structure ChunkWriter (capacity : Nat) where
  objectBuffer : Buffer UInt8 capacity
  rawOffset : Nat
  objectOffset : Nat
  header : ObjectHeader

section

variable (z : Zlib) (index : UInt64) (raw : List UInt8) {capacity : Nat}

/-- The size of the next frame. -/
def frameRawSize (rawOffset : Nat) : Nat :=
  if raw.length - rawOffset > FRAME_BYTES then FRAME_BYTES else raw.length - rawOffset

/-- One pass of the frame loop. -/
def writeFrame (s : ChunkWriter capacity) :
    Except WriteChunkError (ChunkWriter capacity) :=
  let size := frameRawSize raw s.rawOffset
  if s.header.frameCount.toNat ≥ MAX_FRAMES ∨ s.objectOffset + frameHeaderSize ≥ capacity then
    .error .capacity
  else
    let frameHeaderOffset := s.objectOffset
    let objectOffset := s.objectOffset + frameHeaderSize
    match z.compress2 (capacity - objectOffset) (slice raw s.rawOffset size)
        Z_DEFAULT_COMPRESSION with
    | none => .error (.compress2 index s.header.frameCount)
    | some stream =>
      let frame : FrameHeader :=
        { rawSize := UInt32.ofNat size, compressedSize := UInt32.ofNat stream.length }
      match s.objectBuffer.store objectOffset stream with
      | none => .error .outOfBounds
      | some streamed =>
        match streamed.store frameHeaderOffset frame.bytes with
        | none => .error .outOfBounds
        | some patched =>
          .ok {
            objectBuffer := patched
            rawOffset := s.rawOffset + size
            objectOffset := objectOffset + stream.length
            header := { s.header with
              compressedSize := s.header.compressedSize + UInt64.ofNat stream.length
              frameCount := s.header.frameCount + 1 } }

variable {z index raw}

theorem frameRawSize_pos {rawOffset : Nat} (h : rawOffset < raw.length) :
    0 < frameRawSize raw rawOffset := by
  have hpos := FRAME_BYTES_pos
  unfold frameRawSize
  split <;> omega

/-- A pass that succeeds takes one frame from the raw bytes. -/
theorem rawOffset_of_writeFrame {s s' : ChunkWriter capacity}
    (h : writeFrame z index raw s = .ok s') :
    s'.rawOffset = s.rawOffset + frameRawSize raw s.rawOffset := by
  unfold writeFrame at h
  simp only at h
  split at h
  · cases h
  · split at h
    · cases h
    · split at h
      · cases h
      · split at h
        · cases h
        · injection h with h
          rw [← h]

variable (z index raw)

/-- `while (raw_offset < raw_size)`. -/
def writeFrames (s : ChunkWriter capacity) : Except WriteChunkError (ChunkWriter capacity) :=
  if _hlt : s.rawOffset < raw.length then
    match _hs : writeFrame z index raw s with
    | .error e => .error e
    | .ok s' => writeFrames s'
  else .ok s
  termination_by raw.length - s.rawOffset
  decreasing_by
    have hnext := rawOffset_of_writeFrame _hs
    have hpos := frameRawSize_pos _hlt
    omega

/-- The local variables before the loop. -/
def startChunk (objectBuffer : Buffer UInt8 capacity) : ChunkWriter capacity where
  objectBuffer := objectBuffer
  rawOffset := 0
  objectOffset := objectHeaderSize
  header := {
    magic := OBJECT_MAGIC
    version := FORMAT_VERSION
    rawSize := UInt64.ofNat raw.length
    compressedSize := 0
    rawCrc32 := z.checksum raw
    frameCount := 0 }

/-- `write_chunk` up to the copy of the header. -/
def encodeChunk (objectBuffer : Buffer UInt8 capacity) :
    Except WriteChunkError (ChunkWriter capacity) :=
  match writeFrames z index raw (startChunk z raw objectBuffer) with
  | .error e => .error e
  | .ok s =>
    match s.objectBuffer.store 0 s.header.bytes with
    | none => .error .outOfBounds
    | some buffer => .ok { s with objectBuffer := buffer }

/-- The bytes that go to `rados_write_full`. -/
def ChunkWriter.objectBytes (s : ChunkWriter capacity) : List UInt8 :=
  s.objectBuffer.data.take s.objectOffset

/-- `write_chunk`: the pool, and the buffer and `*compressed_total` or the
reason of the failure. -/
def writeChunk (rados : Rados) (pfx : List UInt8) (objectBuffer : Buffer UInt8 capacity)
    (compressedTotal : UInt64) :
    Rados × Except WriteChunkError (Buffer UInt8 capacity × UInt64) :=
  match encodeChunk z index raw objectBuffer with
  | .error e => (rados, .error e)
  | .ok s =>
    match radosWriteFull rados (objectName pfx index) s.objectBytes with
    | (false, rados) => (rados, .error (.radosWriteFull (objectName pfx index)))
    | (true, rados) =>
      (rados, .ok (s.objectBuffer, compressedTotal + s.header.compressedSize))

variable {z index raw}

theorem writeFrames_of_lt {s s' : ChunkWriter capacity} (h : s.rawOffset < raw.length)
    (hs : writeFrame z index raw s = .ok s') :
    writeFrames z index raw s = writeFrames z index raw s' := by
  rw [writeFrames, dif_pos h]
  split
  · rename_i heq
    rw [hs] at heq
    cases heq
  · rename_i heq
    rw [hs] at heq
    injection heq with heq
    rw [heq]

theorem writeFrames_of_ge {s : ChunkWriter capacity} (h : ¬ s.rawOffset < raw.length) :
    writeFrames z index raw s = .ok s := by
  rw [writeFrames, dif_neg h]

end

/-! ## The frames written so far -/

/-- The raw bytes of the frames of an object. -/
def rawFrames (raw : List UInt8) : List (List UInt8) :=
  (fixedRule FRAME_BYTES FRAME_BYTES_pos).chunks raw

/-- Every frame holds a stream that `compress2` may give. -/
def Encoded (z : Zlib) (Good : List UInt8 → List UInt8 → Prop) (fs : List Frame) : Prop :=
  ∀ f ∈ fs, f.stream.length ≤ z.compressBound FRAME_BYTES ∧ Good f.raw f.stream

/-- The frames `fs` are written, behind the room for the object header. -/
structure Written (z : Zlib) (Good : List UInt8 → List UInt8 → Prop) (raw : List UInt8)
    {capacity : Nat} (s : ChunkWriter capacity) (fs : List Frame) : Prop where
  raw_eq : raw.take s.rawOffset = framesRaw fs
  rawOffset_le : s.rawOffset ≤ raw.length
  objectOffset_eq : s.objectOffset = objectHeaderSize + (packFrames fs).length
  bytes_eq : ∃ room, room.length = objectHeaderSize ∧ s.objectBytes = room ++ packFrames fs
  header_eq : s.header = {
    magic := OBJECT_MAGIC
    version := FORMAT_VERSION
    rawSize := UInt64.ofNat raw.length
    compressedSize := UInt64.ofNat (streamTotal fs)
    rawCrc32 := z.checksum raw
    frameCount := UInt32.ofNat fs.length }
  encoded : Encoded z Good fs

section

variable {z : Zlib} {Good : List UInt8 → List UInt8 → Prop} (index : UInt64)
  {raw : List UInt8} {capacity : Nat}

theorem frameRawSize_eq_cut (raw : List UInt8) (rawOffset : Nat) :
    frameRawSize raw rawOffset =
      (fixedRule FRAME_BYTES FRAME_BYTES_pos).cut (raw.drop rawOffset) := by
  simp only [frameRawSize, fixedRule, List.length_drop]
  split <;> omega

theorem Encoded.append_singleton {fs : List Frame} {f : Frame} (h : Encoded z Good fs)
    (hlen : f.stream.length ≤ z.compressBound FRAME_BYTES) (hf : Good f.raw f.stream) :
    Encoded z Good (fs ++ [f]) := by
  intro g hg
  rcases List.mem_append.mp hg with hg | hg
  · exact h g hg
  · rw [List.mem_singleton.mp hg]
    exact ⟨hlen, hf⟩

/-- With fewer than `MAX_FRAMES` frames there is room for one more. -/
theorem Encoded.room {fs : List Frame} (h : Encoded z Good fs)
    (hcount : fs.length < MAX_FRAMES) :
    objectHeaderSize + (packFrames fs).length + frameHeaderSize
      + z.compressBound FRAME_BYTES ≤ objectCapacity z := by
  have hlen := length_packFrames_le (fun f hf => (h f hf).1)
  have hmul : (fs.length + 1) * (frameHeaderSize + z.compressBound FRAME_BYTES) ≤
      MAX_FRAMES * (frameHeaderSize + z.compressBound FRAME_BYTES) :=
    Nat.mul_le_mul_right _ hcount
  rw [Nat.add_mul, Nat.one_mul] at hmul
  unfold objectCapacity
  omega

/-- The next frame of `raw`, given its stream. -/
def nextFrame (raw : List UInt8) (s : ChunkWriter capacity) (stream : List UInt8) : Frame where
  raw := slice raw s.rawOffset (frameRawSize raw s.rawOffset)
  stream := stream

theorem length_nextFrame_raw {s : ChunkWriter capacity} (stream : List UInt8)
    (hle : s.rawOffset ≤ raw.length) :
    (nextFrame raw s stream).raw.length = frameRawSize raw s.rawOffset := by
  apply length_slice
  unfold frameRawSize
  split <;> omega

/-- A pass that meets no obstacle adds the bytes of one frame. -/
theorem writeFrame_spec {s : ChunkWriter capacity} {stream : List UInt8}
    (hle : s.rawOffset ≤ raw.length) (hcount : s.header.frameCount.toNat < MAX_FRAMES)
    (hspace : s.objectOffset + frameHeaderSize < capacity)
    (hstream : z.compress2 (capacity - (s.objectOffset + frameHeaderSize))
      (nextFrame raw s stream).raw Z_DEFAULT_COMPRESSION = some stream)
    (hstore : s.objectOffset + frameHeaderSize + stream.length ≤ capacity) :
    ∃ s', writeFrame z index raw s = .ok s' ∧
      s'.rawOffset = s.rawOffset + frameRawSize raw s.rawOffset ∧
      s'.objectOffset = s.objectOffset + (packFrames [nextFrame raw s stream]).length ∧
      s'.objectBytes = s.objectBytes ++ packFrames [nextFrame raw s stream] ∧
      s'.header = { s.header with
        compressedSize := s.header.compressedSize + UInt64.ofNat stream.length
        frameCount := s.header.frameCount + 1 } := by
  have hexit : ¬ (s.header.frameCount.toNat ≥ MAX_FRAMES ∨
      s.objectOffset + frameHeaderSize ≥ capacity) := by omega
  have hheader : (nextFrame raw s stream).header =
      { rawSize := UInt32.ofNat (frameRawSize raw s.rawOffset)
        compressedSize := UInt32.ofNat stream.length } := by
    rw [Frame.header, length_nextFrame_raw stream hle, nextFrame]
  have hpatch (h : FrameHeader) : s.objectOffset + h.bytes.length ≤ capacity := by
    rw [FrameHeader.length_bytes]
    omega
  have hpack : packFrames [nextFrame raw s stream] =
      (nextFrame raw s stream).header.bytes ++ stream := by
    simp only [packFrames, List.append_nil, nextFrame]
  rw [nextFrame] at hstream
  simp only [writeFrame, if_neg hexit, hstream, Buffer.store_eq_some _ hstore,
    Buffer.store_eq_some _ (hpatch _)]
  refine ⟨_, rfl, rfl, ?_, ?_, rfl⟩
  · show s.objectOffset + frameHeaderSize + stream.length = _
    rw [hpack, List.length_append, FrameHeader.length_bytes, Nat.add_assoc]
  · have hback : (writeAt (writeAt s.objectBuffer.data
          (s.objectOffset + (nextFrame raw s stream).header.bytes.length) stream)
          s.objectOffset (nextFrame raw s stream).header.bytes).take
          (s.objectOffset + (nextFrame raw s stream).header.bytes.length + stream.length) =
        s.objectBytes ++ (nextFrame raw s stream).header.bytes ++ stream := by
      apply take_writeAt_backpatch
      rw [FrameHeader.length_bytes, Buffer.length_data]
      exact hstore
    rw [List.append_assoc, ← hpack, FrameHeader.length_bytes, hheader] at hback
    exact hback

/-- A pass of the loop writes the next frame of `raw`. -/
theorem Written.step (hz : z.Encodes Good) (hcap : objectCapacity z ≤ capacity)
    {s : ChunkWriter capacity} {fs : List Frame} (hs : Written z Good raw s fs)
    (hcount : fs.length < MAX_FRAMES) :
    ∃ s' stream, writeFrame z index raw s = .ok s' ∧
      Written z Good raw s' (fs ++ [nextFrame raw s stream]) := by
  obtain ⟨hraw, hle, hoff, ⟨room, hroom, hbytes⟩, hheader, henc⟩ := hs
  have hsize : frameRawSize raw s.rawOffset ≤ FRAME_BYTES ∧
      s.rawOffset + frameRawSize raw s.rawOffset ≤ raw.length := by
    unfold frameRawSize
    split <;> omega
  have hpos := hz.compressBound_frame_pos
  have hspace := henc.room hcount
  have hpiece := length_nextFrame_raw (s := s) [] hle
  obtain ⟨stream, hstream, hstream_le, hgood⟩ :=
    hz.compress2_ok (nextFrame raw s []).raw (capacity - (s.objectOffset + frameHeaderSize))
      (hpiece.trans_le hsize.1) (by
        have := hz.compressBound_mono (hpiece.trans_le hsize.1)
        omega)
  have hfc : s.header.frameCount.toNat = fs.length := by
    rw [hheader]
    exact UInt32.toNat_ofNat_of_lt' (Nat.lt_trans hcount (by decide))
  have hstream' : z.compress2 (capacity - (s.objectOffset + frameHeaderSize))
      (nextFrame raw s stream).raw Z_DEFAULT_COMPRESSION = some stream := hstream
  have hfits : s.objectOffset + frameHeaderSize + stream.length ≤ capacity := by omega
  obtain ⟨s', hok, hroff, hooff, hobytes, hheader'⟩ :=
    writeFrame_spec index hle (by omega) (by omega) hstream' hfits
  refine ⟨s', stream, hok, ?_, ?_, ?_, ⟨room, hroom, ?_⟩, ?_, ?_⟩
  · rw [hroff, framesRaw_append, ← hraw, List.take_add]
    simp [framesRaw, nextFrame, slice]
  · rw [hroff]
    exact hsize.2
  · rw [hooff, hoff, packFrames_append, List.length_append]
    omega
  · rw [hobytes, hbytes, packFrames_append, List.append_assoc]
  · rw [hheader', hheader, streamTotal_append, UInt64.ofNat_add, List.length_append,
      UInt32.ofNat_add]
    simp [streamTotal, nextFrame]
  · exact henc.append_singleton hstream_le hgood

/-- The loop writes all frames that are still to come. -/
theorem Written.run (hz : z.Encodes Good) (hcap : objectCapacity z ≤ capacity)
    {s : ChunkWriter capacity} {fs : List Frame} (hs : Written z Good raw s fs)
    (hcount : fs.length + (rawFrames (raw.drop s.rawOffset)).length ≤ MAX_FRAMES) :
    ∃ s' gs, writeFrames z index raw s = .ok s' ∧ Written z Good raw s' (fs ++ gs) ∧
      s'.rawOffset = raw.length ∧ gs.map Frame.raw = rawFrames (raw.drop s.rawOffset) := by
  by_cases hlt : s.rawOffset < raw.length
  · have hne : raw.drop s.rawOffset ≠ [] := by
      rw [← List.length_pos_iff, List.length_drop]
      omega
    have hcut := frameRawSize_eq_cut raw s.rawOffset
    have hchunks : rawFrames (raw.drop s.rawOffset) =
        slice raw s.rawOffset (frameRawSize raw s.rawOffset) ::
          rawFrames (raw.drop (s.rawOffset + frameRawSize raw s.rawOffset)) := by
      rw [rawFrames, CutRule.chunks_of_ne_nil _ hne, ← hcut, List.drop_drop]
      rfl
    rw [hchunks, List.length_cons] at hcount
    obtain ⟨s₁, stream, hok, hs₁⟩ := hs.step index hz hcap (by omega)
    have hroff := rawOffset_of_writeFrame hok
    obtain ⟨s', gs, hrun, hs', hend, hgs⟩ := hs₁.run hz hcap (by
      rw [hroff, List.length_append, List.length_singleton]
      omega)
    refine ⟨s', nextFrame raw s stream :: gs, ?_, ?_, hend, ?_⟩
    · rw [writeFrames_of_lt hlt hok]
      exact hrun
    · rw [List.append_assoc] at hs'
      exact hs'
    · rw [hchunks, List.map_cons, hgs, hroff]
      rfl
  · have hle := hs.rawOffset_le
    refine ⟨s, [], writeFrames_of_ge hlt, ?_, by omega, ?_⟩
    · rw [List.append_nil]
      exact hs
    · rw [List.drop_eq_nil_of_le (by omega)]
      exact (CutRule.chunks_nil _).symm
  termination_by raw.length - s.rawOffset
  decreasing_by
    have hpos := frameRawSize_pos hlt
    omega

/-! ## The object -/

/-- Before the first pass. -/
theorem Written.start (objectBuffer : Buffer UInt8 capacity)
    (hcap : objectHeaderSize ≤ capacity) :
    Written z Good raw (startChunk z raw objectBuffer) [] where
  raw_eq := rfl
  rawOffset_le := Nat.zero_le _
  objectOffset_eq := rfl
  bytes_eq := by
    refine ⟨objectBuffer.data.take objectHeaderSize, ?_, ?_⟩
    · rw [List.length_take, objectBuffer.length_data, Nat.min_eq_left hcap]
    · rw [packFrames, List.append_nil]
      rfl
  header_eq := rfl
  encoded _ hf := by cases hf

/-- After the last pass, the header goes into its room. -/
theorem Written.finish {s : ChunkWriter capacity} {fs : List Frame}
    (hs : Written z Good raw s fs) (hend : s.rawOffset = raw.length) :
    (writeAt s.objectBuffer.data 0 s.header.bytes).take s.objectOffset =
      packObject z.checksum fs := by
  have hraw : framesRaw fs = raw := by
    rw [← hs.raw_eq, hend, List.take_length]
  have hheader : s.header = frameListHeader z.checksum fs := by
    rw [hs.header_eq, frameListHeader, hraw]
  obtain ⟨room, hroom, hbytes⟩ := hs.bytes_eq
  have hrest : (s.objectBuffer.data.drop objectHeaderSize).take (packFrames fs).length =
      packFrames fs := by
    rw [ChunkWriter.objectBytes] at hbytes
    have hdrop := congrArg (List.drop objectHeaderSize) hbytes
    rw [List.drop_take, ← hroom, List.drop_left, hroom, hs.objectOffset_eq,
      Nat.add_sub_cancel_left] at hdrop
    exact hdrop
  have hlen := s.header.length_bytes
  rw [writeAt, List.take_zero, List.nil_append, Nat.zero_add, hs.objectOffset_eq, ← hlen,
    List.take_length_add_append, hlen, hrest, hheader]
  rfl

/-- `write_chunk` takes neither its capacity nor its `compress2` exit, and the
bytes to store are the packed frames of `raw`. -/
theorem encodeChunk_eq_ok (hz : z.Encodes Good) (hcap : objectCapacity z ≤ capacity)
    (hraw : raw.length ≤ OBJECT_BYTES) (objectBuffer : Buffer UInt8 capacity) :
    ∃ s fs, encodeChunk z index raw objectBuffer = .ok s ∧
      fs.map Frame.raw = rawFrames raw ∧ Encoded z Good fs ∧
      s.objectBytes = packObject z.checksum fs ∧
      s.header.compressedSize = UInt64.ofNat (streamTotal fs) := by
  have hhd : objectHeaderSize ≤ capacity := Nat.le_trans (Nat.le_add_right _ _) hcap
  have hstart : Written z Good raw (startChunk z raw objectBuffer) [] :=
    Written.start objectBuffer hhd
  have hcount : (rawFrames raw).length ≤ MAX_FRAMES := by
    refine length_chunks_fixed_le FRAME_BYTES_pos ?_
    rw [← OBJECT_BYTES_eq]
    exact hraw
  obtain ⟨s, fs, hrun, hs, hend, hfs⟩ :=
    hstart.run index hz hcap (by
      rw [List.length_nil, Nat.zero_add]
      exact hcount)
  have hstore : 0 + s.header.bytes.length ≤ capacity := by
    rw [Nat.zero_add, s.header.length_bytes]
    exact hhd
  refine ⟨{ s with objectBuffer := s.objectBuffer.put 0 s.header.bytes hstore }, fs, ?_, hfs,
    hs.encoded, hs.finish hend, ?_⟩
  · simp only [encodeChunk, hrun, Buffer.store_eq_some _ hstore]
  · rw [hs.header_eq]
    rfl

/-- `write_chunk` stores the packed frames of `raw`, or reports that the pool
did not take them. -/
theorem writeChunk_eq (hz : z.Encodes Good) (hcap : objectCapacity z ≤ capacity)
    (hraw : raw.length ≤ OBJECT_BYTES) (objectBuffer : Buffer UInt8 capacity)
    (rados : Rados) (pfx : List UInt8) (compressedTotal : UInt64) :
    ∃ buffer fs, fs.map Frame.raw = rawFrames raw ∧ Encoded z Good fs ∧
      writeChunk z index raw rados pfx objectBuffer compressedTotal =
        match radosWriteFull rados (objectName pfx index) (packObject z.checksum fs) with
        | (false, rados) => (rados, .error (.radosWriteFull (objectName pfx index)))
        | (true, rados) =>
          (rados, .ok (buffer, compressedTotal + UInt64.ofNat (streamTotal fs))) := by
  obtain ⟨s, fs, hok, hfs, henc, hbytes, htotal⟩ :=
    encodeChunk_eq_ok index hz hcap hraw objectBuffer
  refine ⟨s.objectBuffer, fs, hfs, henc, ?_⟩
  simp only [writeChunk, hok, hbytes, htotal]

end

end DpuTest.ReadBench
