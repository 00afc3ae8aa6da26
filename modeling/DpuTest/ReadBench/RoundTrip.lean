import DpuTest.ReadBench.ReadMethod
import DpuTest.ReadBench.StoredZlib
import DpuTest.ReadBench.WriteChunk

/-!
# What is written can be read

The frames that `write_chunk` stores are well-formed for both decoders, as long
as both undo the compression (`wellFormed_of_encoded`), so the read loop accepts
the object and gets the raw bytes back (`writeChunk_readNext`).
-/

namespace DpuTest.ReadBench

open Lib

section

variable {z : Zlib} {device : Inflater} {raw : List UInt8} {fs : List Frame}

/-- The frames of a raw object put together are the raw object. -/
theorem framesRaw_eq (hfs : fs.map Frame.raw = rawFrames raw) : framesRaw fs = raw := by
  rw [framesRaw, hfs, rawFrames, CutRule.flatten_chunks]

/-- The frames of a raw object are no more than `MAX_FRAMES`. -/
theorem length_frames_le (hfs : fs.map Frame.raw = rawFrames raw)
    (hmax : raw.length ≤ OBJECT_BYTES) : fs.length ≤ MAX_FRAMES := by
  have hlen : (rawFrames raw).length ≤ MAX_FRAMES := by
    refine length_chunks_fixed_le FRAME_BYTES_pos ?_
    rw [← OBJECT_BYTES_eq]
    exact hmax
  rw [← hfs, List.length_map] at hlen
  exact hlen

/-- A written object fits in the read buffer. -/
theorem length_packObject_le {Good : List UInt8 → List UInt8 → Prop}
    (henc : Encoded z Good fs) (hlen : fs.length ≤ MAX_FRAMES) (crc : List UInt8 → UInt32) :
    (packObject crc fs).length ≤ objectCapacity z := by
  have hle := length_packFrames_le (fun f hf => (henc f hf).1)
  have hmul : fs.length * (frameHeaderSize + z.compressBound FRAME_BYTES) ≤
      MAX_FRAMES * (frameHeaderSize + z.compressBound FRAME_BYTES) :=
    Nat.mul_le_mul_right _ hlen
  rw [length_packObject]
  unfold objectCapacity
  omega

/-- What `write_chunk` stores is well-formed for both methods. -/
theorem wellFormed_of_encoded (hz : z.RoundTrip device) (hpos : 1 ≤ raw.length)
    (hmax : raw.length ≤ OBJECT_BYTES) (hfs : fs.map Frame.raw = rawFrames raw)
    (henc : Encoded z (Decodes z device) fs) (method : ReadMethod) :
    WellFormed (method.decode z device (z.compressBound FRAME_BYTES)) fs where
  ne_nil := by
    rintro rfl
    have hraw := framesRaw_eq hfs
    rw [← hraw] at hpos
    exact absurd hpos (by decide)
  length_le := length_frames_le hfs hmax
  raw_le := by
    rw [framesRaw_eq hfs]
    exact hmax
  frames := by
    intro f hf
    obtain ⟨hlen, hmin, huncompress, hinflate⟩ := henc f hf
    have hmem : f.raw ∈ rawFrames raw := by
      rw [← hfs]
      exact List.mem_map_of_mem hf
    have hne := CutRule.ne_nil_of_mem_chunks _ hmem
    have hlt := hz.compressBound_frame_lt
    refine ⟨List.length_pos_iff.mpr hne, length_le_of_mem_fixed _ hmem, hmin, by omega, ?_⟩
    have hdoca : docaDecoder device (z.compressBound FRAME_BYTES) f.raw.length f.stream =
        some f.raw := docaDecoder_eq_some_iff.mpr ⟨hlen, hinflate⟩
    cases method with
    | cpu => exact huncompress _ (Nat.le_refl _)
    | doca => exact hdoca
    | unknown => exact hdoca

end

/-- One pass of the read loop takes `object` for `raw`, whatever the method, and
counts `added` compressed bytes. -/
def ReadsBack (z : Zlib) (device : Inflater) (pfx : List UInt8) (index : UInt64)
    (object raw : List UInt8) (added : UInt64) : Prop :=
  ∀ (method : ReadMethod) (pool : Pool) (r : Reader (z.compressBound FRAME_BYTES)),
    method = .cpu ∨ method = .doca → pool (objectName pfx index) = some object →
    ∃ r', readNext z device method pool pfx (objectCapacity z) index r = .ok r' ∧
      r'.outputBuffer.data.take raw.length = raw ∧
      r'.delivered = r.delivered ++ [raw] ∧
      r'.result = r.result.addObject (UInt64.ofNat raw.length) added

/-- `write_chunk` fails only if the pool does not take the object, and what it
stores is read back with the same byte counts. -/
theorem writeChunk_readNext {z : Zlib} {device : Inflater} (hz : z.RoundTrip device)
    {raw : List UInt8} (hpos : 1 ≤ raw.length) (hmax : raw.length ≤ OBJECT_BYTES)
    (index : UInt64) (rados : Rados) (pfx : List UInt8)
    (objectBuffer : Buffer UInt8 (objectCapacity z)) (compressedTotal : UInt64) :
    ∃ object buffer added,
      writeChunk z index raw rados pfx objectBuffer compressedTotal =
        (match radosWriteFull rados (objectName pfx index) object with
        | (false, rados) => (rados, .error (.radosWriteFull (objectName pfx index)))
        | (true, rados) => (rados, .ok (buffer, compressedTotal + added))) ∧
      ReadsBack z device pfx index object raw added := by
  obtain ⟨buffer, fs, hfs, henc, hwrite⟩ :=
    writeChunk_eq index hz (Nat.le_refl _) hmax objectBuffer rados pfx compressedTotal
  refine ⟨packObject z.checksum fs, buffer, UInt64.ofNat (streamTotal fs), hwrite, ?_⟩
  intro method pool r hmethod hpool
  have hknown : method ≠ .unknown := by
    rcases hmethod with rfl | rfl
    · decide
    · decide
  have hwf := wellFormed_of_encoded hz hpos hmax hfs henc method
  have hcap := length_packObject_le henc (length_frames_le hfs hmax) z.checksum
  have hread := readNext_packObject hwf hknown hpool hcap r
  rw [framesRaw_eq hfs] at hread
  exact hread

/-- The object of the one byte `a`, in an empty pool. -/
theorem writeChunk_readNext_a :
    ∃ object buffer added,
      writeChunk storedZlib 0 [0x61] ⟨fun _ => none, []⟩ [0x70]
          (.zeroed (objectCapacity storedZlib)) 7 =
        (⟨Function.update (fun _ => none) (objectName [0x70] 0) (some object), []⟩,
          .ok (buffer, 7 + added)) ∧
      ReadsBack storedZlib storedInflater [0x70] 0 object [0x61] added :=
  writeChunk_readNext storedZlib_roundTrip (by decide) (by decide) 0 ⟨fun _ => none, []⟩ [0x70]
    (.zeroed (objectCapacity storedZlib)) 7

end DpuTest.ReadBench
