import DpuTest.ReadBench.RoundTrip

/-!
# The packer in Python

`pack_zlib_frames.py` writes the same format as `write_chunk`, in another way:
it collects the frames in a list, computes the header from it and writes the
header first.  Its numbers are Python integers, and `struct.pack` raises when
one does not fit its field.

`packZlibFrames_eq_writeChunk` says that for an object of at most
`OBJECT_BYTES`, also the empty one, the file is byte for byte what `write_chunk`
hands to `rados_write_full`.
-/

namespace DpuTest.ReadBench

open Lib

namespace PackZlibFrames

def OBJECT_MAGIC : Nat := 0x4344424F
def FORMAT_VERSION : Nat := 2
def FRAME_BYTES : Nat := 1024 * 1024

/-- `struct.pack("<I", n)` -/
def packI (n : Nat) : Option (List UInt8) :=
  if n < 2 ^ 32 then some (encodeLE 4 n) else none

/-- `struct.pack("<Q", n)` -/
def packQ (n : Nat) : Option (List UInt8) :=
  if n < 2 ^ 64 then some (encodeLE 8 n) else none

/-- `OBJECT_HEADER.pack`, with the format `<IIQQII`. -/
def objectHeaderPack (magic version rawSize compressedSize crc count : Nat) :
    Option (List UInt8) := do
  let a ← packI magic
  let b ← packI version
  let c ← packQ rawSize
  let d ← packQ compressedSize
  let e ← packI crc
  let f ← packI count
  return a ++ (b ++ (c ++ (d ++ (e ++ f))))

/-- `FRAME_HEADER.pack`, with the format `<II`. -/
def frameHeaderPack (rawSize compressedSize : Nat) : Option (List UInt8) := do
  let a ← packI rawSize
  let b ← packI compressedSize
  return a ++ b

/-- `range(0, stop, step)` -/
def pyRange (stop step : Nat) : List Nat :=
  (List.range ((stop + (step - 1)) / step)).map (· * step)

section

variable (z : Zlib) (compress : List UInt8 → Int → List UInt8)

/-- The list `frames` that the first loop builds. -/
def frames (raw : List UInt8) : List (Nat × List UInt8) :=
  (pyRange raw.length FRAME_BYTES).map fun offset =>
    let frame := slice raw offset FRAME_BYTES
    (frame.length, compress frame 6)

/-- The second loop: a header and the stream for every frame. -/
def writeFrames : List (Nat × List UInt8) → Option (List UInt8)
  | [] => some []
  | (rawSize, compressed) :: rest => do
    let header ← frameHeaderPack rawSize compressed.length
    let rest ← writeFrames rest
    return header ++ (compressed ++ rest)

/-- `main`: the content of the file. -/
def packZlibFrames (raw : List UInt8) : Option (List UInt8) := do
  let frames := frames compress raw
  let compressedSize := (frames.map fun frame => frame.2.length).sum
  let header ← objectHeaderPack OBJECT_MAGIC FORMAT_VERSION raw.length compressedSize
    (z.checksum raw).toNat frames.length
  let body ← writeFrames frames
  return header ++ body

end

/-! ## The same bytes -/

theorem packI_eq {n : Nat} (h : n < 2 ^ 32) : packI n = some (encodeU32 (UInt32.ofNat n)) := by
  rw [packI, if_pos h, encodeU32, UInt32.toNat_ofNat_of_lt' h]

theorem packQ_eq {n : Nat} (h : n < 2 ^ 64) : packQ n = some (encodeU64 (UInt64.ofNat n)) := by
  rw [packQ, if_pos h, encodeU64, UInt64.toNat_ofNat_of_lt' h]

/-- The tuple that Python keeps for a frame. -/
def entry (f : Frame) : Nat × List UInt8 := (f.raw.length, f.stream)

/-- The frames that `write_chunk` encodes are the frames of the list. -/
theorem frames_eq {compress : List UInt8 → Int → List UInt8} {raw : List UInt8} {fs : List Frame}
    (hraw : fs.map Frame.raw = rawFrames raw)
    (hstream : ∀ f ∈ fs, f.stream = compress f.raw 6) :
    frames compress raw = fs.map entry := by
  have hentry : fs.map entry =
      (fs.map Frame.raw).map (fun frame => (frame.length, compress frame 6)) := by
    rw [List.map_map]
    apply List.map_congr_left
    intro f hf
    rw [entry, hstream f hf]
    rfl
  have hsize : FRAME_BYTES = ReadBench.FRAME_BYTES := rfl
  rw [hentry, hraw, rawFrames, ← map_range_eq_chunks_fixed, frames, pyRange, hsize, List.map_map,
    List.map_map]
  apply List.map_congr_left
  intro i _
  simp only [Function.comp_apply, slice]

/-- The second loop writes the packed frames. -/
theorem writeFrames_eq {fs : List Frame} (hraw : ∀ f ∈ fs, f.raw.length < 2 ^ 32)
    (hstream : ∀ f ∈ fs, f.stream.length < 2 ^ 32) :
    writeFrames (fs.map entry) = some (packFrames fs) := by
  induction fs with
  | nil => rfl
  | cons f fs ih =>
    have hrest := ih (fun g hg => hraw g (List.mem_cons_of_mem _ hg))
      (fun g hg => hstream g (List.mem_cons_of_mem _ hg))
    have hheader : frameHeaderPack f.raw.length f.stream.length = some f.header.bytes := by
      rw [frameHeaderPack, packI_eq (hraw f List.mem_cons_self),
        packI_eq (hstream f List.mem_cons_self)]
      rfl
    rw [List.map_cons, entry, writeFrames, hheader, hrest]
    rfl

/-- With every number in the range of its field, the header is that of the
frames. -/
theorem objectHeaderPack_eq {z : Zlib} {raw : List UInt8} {fs : List Frame}
    (hraw : framesRaw fs = raw) (hsize : raw.length < 2 ^ 64) (htotal : streamTotal fs < 2 ^ 64)
    (hcount : fs.length < 2 ^ 32) :
    objectHeaderPack OBJECT_MAGIC FORMAT_VERSION raw.length (streamTotal fs)
      (z.checksum raw).toNat fs.length = some (frameListHeader z.checksum fs).bytes := by
  rw [objectHeaderPack, packI_eq (by decide), packI_eq (by decide), packQ_eq hsize,
    packQ_eq htotal, packI_eq (UInt32.toNat_lt _), packI_eq hcount, UInt32.ofNat_toNat,
    frameListHeader, hraw]
  rfl

/-- The file of a raw object whose numbers are all in range. -/
theorem packZlibFrames_eq {z : Zlib} {compress : List UInt8 → Int → List UInt8}
    {raw : List UInt8} {fs : List Frame} (hz : z.Encodes fun x s => s = compress x 6)
    (hmax : raw.length ≤ OBJECT_BYTES) (hfs : fs.map Frame.raw = rawFrames raw)
    (henc : Encoded z (fun x s => s = compress x 6) fs) :
    packZlibFrames z compress raw = some (packObject z.checksum fs) := by
  have hraw := framesRaw_eq hfs
  have hcount := length_frames_le hfs hmax
  have hbound := hz.compressBound_frame_lt
  have hframe : ∀ f ∈ fs, f.raw.length < 2 ^ 32 := by
    intro f hf
    have hmem : f.raw ∈ rawFrames raw := by
      rw [← hfs]
      exact List.mem_map_of_mem hf
    exact Nat.lt_of_le_of_lt (length_le_of_mem_fixed _ hmem) (by decide)
  have hstream : ∀ f ∈ fs, f.stream.length < 2 ^ 32 := fun f hf =>
    Nat.lt_of_le_of_lt (henc f hf).1 hbound
  have htotal : streamTotal fs < 2 ^ 64 := by
    have hpacked := length_packFrames_le (fun f hf => (henc f hf).1)
    have hmul : fs.length * (frameHeaderSize + z.compressBound ReadBench.FRAME_BYTES) ≤
        MAX_FRAMES * (frameHeaderSize + z.compressBound ReadBench.FRAME_BYTES) :=
      Nat.mul_le_mul_right _ hcount
    rw [length_packFrames, show MAX_FRAMES = 4 from rfl] at *
    unfold frameHeaderSize at *
    omega
  have hsum : ((fs.map entry).map fun frame => frame.2.length).sum = streamTotal fs := by
    rw [List.map_map]
    rfl
  have hheader := objectHeaderPack_eq (z := z) hraw
    (Nat.lt_of_le_of_lt hmax (by decide)) htotal (Nat.lt_of_le_of_lt hcount (by decide))
  simp only [packZlibFrames, frames_eq hfs (fun f hf => (henc f hf).2), List.length_map, hsum,
    hheader, writeFrames_eq hframe hstream]
  rfl

end PackZlibFrames

/-- The packer and `write_chunk` produce the same object. -/
theorem packZlibFrames_eq_writeChunk {z : Zlib} {compress : List UInt8 → Int → List UInt8}
    (hz : z.Encodes fun x s => s = compress x 6) {raw : List UInt8}
    (hmax : raw.length ≤ OBJECT_BYTES) (index : UInt64) (rados : Rados) (pfx : List UInt8)
    (objectBuffer : Buffer UInt8 (objectCapacity z)) (compressedTotal : UInt64) :
    ∃ file buffer added,
      PackZlibFrames.packZlibFrames z compress raw = some file ∧
      writeChunk z index raw rados pfx objectBuffer compressedTotal =
        (match radosWriteFull rados (objectName pfx index) file with
        | (false, rados) => (rados, .error (.radosWriteFull (objectName pfx index)))
        | (true, rados) => (rados, .ok (buffer, compressedTotal + added))) := by
  obtain ⟨buffer, fs, hfs, henc, hwrite⟩ :=
    writeChunk_eq index hz (Nat.le_refl _) hmax objectBuffer rados pfx compressedTotal
  exact ⟨packObject z.checksum fs, buffer, UInt64.ofNat (streamTotal fs),
    PackZlibFrames.packZlibFrames_eq hz hmax hfs henc, hwrite⟩

/-- The object of the one byte `a`. -/
theorem packZlibFrames_eq_writeChunk_a :
    ∃ file buffer added,
      PackZlibFrames.packZlibFrames storedZlib (fun x _ => storedStream x) [0x61] = some file ∧
      writeChunk storedZlib 3 [0x61] ⟨fun _ => none, []⟩ [0x70]
          (.zeroed (objectCapacity storedZlib)) 0 =
        (⟨Function.update (fun _ => none) (objectName [0x70] 3) (some file), []⟩,
          .ok (buffer, 0 + added)) :=
  packZlibFrames_eq_writeChunk storedZlib_encodes (by decide) 3 ⟨fun _ => none, []⟩ [0x70]
    (.zeroed (objectCapacity storedZlib)) 0

end DpuTest.ReadBench
