import DpuTest.ReadBench.Libraries

/-!
# What an object decodes to

This module says what the readers are for, apart from any of them: an object is
good when it is `packObject` of a well-formed list of frames, and then it stands
for the raw bytes of these frames.  A reader enters through its `Decoder`, which
is `uncompress` for the CPU and the device for DOCA.

`FramesAt` is the view of the same frames from inside a loop that walks the
object by offset.  The two views are connected by `framesAt_packObject`, for an
object that is known to be good, and by `eq_packObject`, for an object of which
only the checks of a reader are known.
-/

namespace DpuTest.ReadBench

open Lib

/-- The header check that both readers make. -/
def ObjectHeader.Invalid (h : ObjectHeader) : Prop :=
  h.magic ≠ OBJECT_MAGIC ∨ h.version ≠ FORMAT_VERSION ∨ h.rawSize.toNat > OBJECT_BYTES ∨
    h.frameCount = 0 ∨ h.frameCount.toNat > MAX_FRAMES

instance (h : ObjectHeader) : Decidable h.Invalid :=
  inferInstanceAs (Decidable (_ ∨ _))

/-- The raw bytes of a stream, given the raw size that the frame header says. -/
abbrev Decoder := Nat → List UInt8 → Option (List UInt8)

/-- A frame that the checks of the readers let pass. -/
structure FrameOk (decode : Decoder) (f : Frame) : Prop where
  raw_pos : 0 < f.raw.length
  raw_le : f.raw.length ≤ FRAME_BYTES
  stream_min : ZLIB_COMPATIBILITY_ADDITIONAL_MEMORY ≤ f.stream.length
  stream_lt : f.stream.length < 2 ^ 32
  decode_eq : decode f.raw.length f.stream = some f.raw

/-- The frames of an object. -/
structure WellFormed (decode : Decoder) (fs : List Frame) : Prop where
  ne_nil : fs ≠ []
  length_le : fs.length ≤ MAX_FRAMES
  raw_le : (framesRaw fs).length ≤ OBJECT_BYTES
  frames : ∀ f ∈ fs, FrameOk decode f

section

variable {decode : Decoder} {f : Frame} {fs : List Frame}

theorem FrameOk.rawSize_toNat (h : FrameOk decode f) :
    f.header.rawSize.toNat = f.raw.length :=
  UInt32.toNat_ofNat_of_lt' (Nat.lt_of_le_of_lt h.raw_le (by decide))

theorem FrameOk.rawSize_ne_zero (h : FrameOk decode f) : f.header.rawSize ≠ 0 := by
  intro h0
  have hraw := h.rawSize_toNat
  rw [h0] at hraw
  exact absurd hraw (Nat.ne_of_lt h.raw_pos)

theorem FrameOk.compressedSize_toNat (h : FrameOk decode f) :
    f.header.compressedSize.toNat = f.stream.length :=
  UInt32.toNat_ofNat_of_lt' h.stream_lt

theorem WellFormed.frameCount_toNat (h : WellFormed decode fs) (crc : List UInt8 → UInt32) :
    (frameListHeader crc fs).frameCount.toNat = fs.length :=
  UInt32.toNat_ofNat_of_lt' (Nat.lt_of_le_of_lt h.length_le (by decide))

theorem WellFormed.rawSize_toNat (h : WellFormed decode fs) (crc : List UInt8 → UInt32) :
    (frameListHeader crc fs).rawSize.toNat = (framesRaw fs).length :=
  UInt64.toNat_ofNat_of_lt' (Nat.lt_of_le_of_lt h.raw_le (by decide))

/-- The header of well-formed frames passes the check. -/
theorem WellFormed.not_invalid (h : WellFormed decode fs) (crc : List UInt8 → UInt32) :
    ¬ (frameListHeader crc fs).Invalid := by
  have hcount := h.frameCount_toNat crc
  have hraw := h.rawSize_toNat crc
  have hlen := h.length_le
  have hraw_le := h.raw_le
  have hpos : 0 < fs.length := List.length_pos_iff.mpr h.ne_nil
  rintro (hmagic | hversion | hsize | hzero | hmany)
  · exact hmagic rfl
  · exact hversion rfl
  · omega
  · rw [hzero] at hcount
    exact absurd hcount (Nat.ne_of_lt hpos)
  · omega

theorem framesRaw_cons : framesRaw (f :: fs) = f.raw ++ framesRaw fs := rfl

theorem length_packFrames_cons :
    (packFrames (f :: fs)).length =
      frameHeaderSize + f.stream.length + (packFrames fs).length := by
  simp only [packFrames, List.length_append, FrameHeader.length_bytes]
  omega

@[simp] theorem framesRaw_singleton (f : Frame) : framesRaw [f] = f.raw := by
  simp [framesRaw]

@[simp] theorem streamTotal_singleton (f : Frame) : streamTotal [f] = f.stream.length := by
  simp [streamTotal]

/-- The size that a reader adds to its sum. -/
theorem toUInt64_eq_streamTotal {compressedSize : UInt32}
    (hsize : compressedSize.toNat = f.stream.length) :
    compressedSize.toUInt64 = UInt64.ofNat (streamTotal [f]) := by
  rw [streamTotal_singleton, ← hsize]
  apply UInt64.toNat_inj.mp
  simp

@[simp] theorem length_packFrames_singleton (f : Frame) :
    (packFrames [f]).length = frameHeaderSize + f.stream.length := by
  simp [packFrames]

/-- The size of the output needs no check of its own. -/
theorem length_framesRaw_le (hfs : ∀ f ∈ fs, f.raw.length ≤ FRAME_BYTES)
    (hlen : fs.length ≤ MAX_FRAMES) : (framesRaw fs).length ≤ OBJECT_BYTES := by
  have hraw : ∀ raw ∈ fs.map Frame.raw, raw.length ≤ FRAME_BYTES := by
    intro raw hmem
    obtain ⟨f, hf, rfl⟩ := List.mem_map.mp hmem
    exact hfs f hf
  have hle := length_flatten_le hraw
  rw [List.length_map] at hle
  rw [OBJECT_BYTES_eq]
  exact Nat.le_trans hle (Nat.mul_le_mul_right _ hlen)

/-! ## Frames by offset -/

variable {object : List UInt8} {off : Nat}

/-- A good frame stands at offset `off`. -/
structure FrameAt (decode : Decoder) (object : List UInt8) (off : Nat) (f : Frame) : Prop where
  ok : FrameOk decode f
  le : off + frameHeaderSize + f.stream.length ≤ object.length
  header_eq : slice object off frameHeaderSize = f.header.bytes
  stream_eq : slice object (off + frameHeaderSize) f.stream.length = f.stream

/-- Good frames stand one behind the other from offset `off` on. -/
def FramesAt (decode : Decoder) (object : List UInt8) : Nat → List Frame → Prop
  | _, [] => True
  | off, f :: fs =>
    FrameAt decode object off f ∧
      FramesAt decode object (off + frameHeaderSize + f.stream.length) fs

/-- The header that a reader finds there. -/
theorem FrameAt.ofBytes_slice (h : FrameAt decode object off f) :
    FrameHeader.ofBytes (slice object off frameHeaderSize) = f.header := by
  rw [h.header_eq, FrameHeader.ofBytes_bytes]

/-- What a reader has checked of a frame, and the raw bytes it got. -/
theorem frameAt_of_checks {h : FrameHeader} {raw : List UInt8}
    (hh : FrameHeader.ofBytes (slice object off frameHeaderSize) = h)
    (hpos : h.rawSize ≠ 0) (hraw : h.rawSize.toNat ≤ FRAME_BYTES)
    (hmin : ZLIB_COMPATIBILITY_ADDITIONAL_MEMORY ≤ h.compressedSize.toNat)
    (hle : off + frameHeaderSize + h.compressedSize.toNat ≤ object.length)
    (hdecode : decode h.rawSize.toNat
      (slice object (off + frameHeaderSize) h.compressedSize.toNat) = some raw)
    (hlen : raw.length = h.rawSize.toNat) :
    FrameAt decode object off
      ⟨raw, slice object (off + frameHeaderSize) h.compressedSize.toNat⟩ := by
  have hstream : (slice object (off + frameHeaderSize) h.compressedSize.toNat).length =
      h.compressedSize.toNat := length_slice hle
  have hheader : Frame.header
      ⟨raw, slice object (off + frameHeaderSize) h.compressedSize.toNat⟩ = h := by
    simp only [Frame.header, hstream, hlen, UInt32.ofNat_toNat]
  have hpos' : 0 < raw.length := by
    rw [hlen]
    exact Nat.pos_of_ne_zero (fun h0 => hpos (UInt32.toNat_inj.mp h0))
  refine ⟨⟨hpos', ?_, ?_, ?_, ?_⟩, ?_, ?_, ?_⟩
  · rw [hlen]
    exact hraw
  · rw [hstream]
    exact hmin
  · rw [hstream]
    exact h.compressedSize.toNat_lt
  · rw [hlen]
    exact hdecode
  · rw [hstream]
    exact hle
  · rw [hheader, ← hh, FrameHeader.bytes_ofBytes (length_slice (by omega))]
  · rw [hstream]

/-- The frames of a concatenation. -/
theorem framesAt_packFrames (hfs : ∀ f ∈ fs, FrameOk decode f) (pre : List UInt8) :
    FramesAt decode (pre ++ packFrames fs) pre.length fs := by
  induction fs generalizing pre with
  | nil => trivial
  | cons f fs ih =>
    have hf := hfs f List.mem_cons_self
    have hrest := ih (fun g hg => hfs g (List.mem_cons_of_mem _ hg))
      (pre ++ f.header.bytes ++ f.stream)
    have hobject : pre ++ packFrames (f :: fs) =
        pre ++ f.header.bytes ++ f.stream ++ packFrames fs := by
      simp only [packFrames, List.append_assoc]
    rw [hobject]
    refine ⟨⟨hf, ?_, ?_, ?_⟩, ?_⟩
    · simp only [List.length_append, FrameHeader.length_bytes]
      omega
    · rw [List.append_assoc]
      exact slice_append_middle _ _ _ rfl (FrameHeader.length_bytes _).symm
    · refine slice_append_middle _ _ _ ?_ rfl
      rw [List.length_append, FrameHeader.length_bytes]
    · rw [List.length_append, List.length_append, FrameHeader.length_bytes] at hrest
      exact hrest

/-- The bytes of the frames that stand in an object. -/
theorem FramesAt.slice_eq (h : FramesAt decode object off fs) (hle : off ≤ object.length) :
    off + (packFrames fs).length ≤ object.length ∧
      slice object off (packFrames fs).length = packFrames fs := by
  induction fs generalizing off with
  | nil => exact ⟨hle, by simp [packFrames, slice]⟩
  | cons f fs ih =>
    obtain ⟨hf, hfs⟩ := h
    obtain ⟨hlen, hslice⟩ := ih hfs hf.le
    refine ⟨?_, ?_⟩
    · rw [length_packFrames_cons]
      omega
    · rw [length_packFrames_cons, Nat.add_assoc, slice_add, slice_add, hf.header_eq,
        hf.stream_eq, hslice, packFrames]

theorem FramesAt.frameOk (h : FramesAt decode object off fs) : ∀ f ∈ fs, FrameOk decode f := by
  induction fs generalizing off with
  | nil =>
    intro f hf
    cases hf
  | cons f fs ih =>
    intro g hg
    rcases List.mem_cons.mp hg with heq | hmem
    · rw [heq]
      exact h.1.ok
    · exact ih h.2 g hmem

/-- One frame at most stands at an offset. -/
theorem FrameAt.unique {f' : Frame} (h : FrameAt decode object off f)
    (h' : FrameAt decode object off f') : f = f' := by
  have hheader : f.header = f'.header := by
    rw [← h.ofBytes_slice, ← h'.ofBytes_slice]
  have hstreamLen : f.stream.length = f'.stream.length := by
    rw [← h.ok.compressedSize_toNat, ← h'.ok.compressedSize_toNat, hheader]
  have hrawLen : f.raw.length = f'.raw.length := by
    rw [← h.ok.rawSize_toNat, ← h'.ok.rawSize_toNat, hheader]
  have hstream : f.stream = f'.stream := by
    rw [← h.stream_eq, ← h'.stream_eq, hstreamLen]
  have hraw : f.raw = f'.raw := by
    have hdecode := h.ok.decode_eq
    rw [hrawLen, hstream, h'.ok.decode_eq] at hdecode
    exact (Option.some.inj hdecode).symm
  cases f
  cases f'
  simp only at hstream hraw
  rw [hstream, hraw]

theorem FramesAt.unique {fs' : List Frame} (h : FramesAt decode object off fs)
    (h' : FramesAt decode object off fs') (hlen : fs.length = fs'.length) : fs = fs' := by
  induction fs generalizing off fs' with
  | nil => exact (List.length_eq_zero_iff.mp hlen.symm).symm
  | cons f fs ih =>
    cases fs' with
    | nil => cases hlen
    | cons f' fs' =>
      have hf := h.1.unique h'.1
      subst hf
      rw [ih h.2 h'.2 (Nat.succ.inj hlen)]

/-! ## Whole objects -/

variable {crc : List UInt8 → UInt32}

/-- The frames of a good object stand behind its header. -/
theorem framesAt_packObject (h : WellFormed decode fs) :
    FramesAt decode (packObject crc fs) objectHeaderSize fs := by
  have hat := framesAt_packFrames h.frames (frameListHeader crc fs).bytes
  rw [ObjectHeader.length_bytes] at hat
  exact hat

/-- The header of a good object. -/
theorem ofBytes_packObject (crc : List UInt8 → UInt32) (fs : List Frame) :
    ObjectHeader.ofBytes (slice (packObject crc fs) 0 objectHeaderSize) =
      frameListHeader crc fs := by
  rw [packObject, slice_head (ObjectHeader.length_bytes _), ObjectHeader.ofBytes_bytes]

theorem length_packObject (crc : List UInt8 → UInt32) (fs : List Frame) :
    (packObject crc fs).length = objectHeaderSize + (packFrames fs).length := by
  rw [packObject, List.length_append, ObjectHeader.length_bytes]

/-- An object is never shorter than its header. -/
theorem not_length_packObject_lt (crc : List UInt8 → UInt32) (fs : List Frame) :
    ¬ (packObject crc fs).length < objectHeaderSize := by
  have hlen := length_packObject crc fs
  omega

theorem packObject_ne_nil (crc : List UInt8 → UInt32) (fs : List Frame) :
    packObject crc fs ≠ [] := by
  rw [← List.length_pos_iff, length_packObject]
  exact Nat.lt_add_right _ (by decide)

/-- An object has one list of frames at most. -/
theorem packObject_unique {fs' : List Frame} (h : WellFormed decode fs)
    (h' : WellFormed decode fs') (heq : packObject crc fs = packObject crc fs') : fs = fs' := by
  have hheader : frameListHeader crc fs = frameListHeader crc fs' := by
    rw [← ofBytes_packObject, ← ofBytes_packObject, heq]
  have hlen : fs.length = fs'.length := by
    rw [← h.frameCount_toNat crc, ← h'.frameCount_toNat crc, hheader]
  have hat : FramesAt decode (packObject crc fs') objectHeaderSize fs := heq ▸ framesAt_packObject h
  exact hat.unique (framesAt_packObject h') hlen

/-- An object is its header and the bytes behind it. -/
theorem eq_packObject_of_slice
    (hheader : ObjectHeader.ofBytes (slice object 0 objectHeaderSize) = frameListHeader crc fs)
    (hslice : slice object objectHeaderSize (packFrames fs).length = packFrames fs)
    (hend : objectHeaderSize + (packFrames fs).length = object.length) :
    object = packObject crc fs := by
  have hbytes : (ObjectHeader.ofBytes (slice object 0 objectHeaderSize)).bytes =
      slice object 0 objectHeaderSize := ObjectHeader.bytes_ofBytes (length_slice (by omega))
  have hwhole := slice_add object 0 objectHeaderSize (packFrames fs).length
  rw [slice_whole hend.symm, Nat.zero_add, hslice, ← hbytes, hheader] at hwhole
  exact hwhole

/-- An object whose header and frames agree is good. -/
theorem eq_packObject (hsize : objectHeaderSize ≤ object.length)
    (hheader : ObjectHeader.ofBytes (slice object 0 objectHeaderSize) = frameListHeader crc fs)
    (hat : FramesAt decode object objectHeaderSize fs)
    (hend : objectHeaderSize + (packFrames fs).length = object.length) :
    object = packObject crc fs := by
  obtain ⟨-, hslice⟩ := hat.slice_eq hsize
  exact eq_packObject_of_slice hheader hslice hend

/-- The header fields that a reader has compared. -/
theorem eq_frameListHeader {h : ObjectHeader} (hmagic : h.magic = OBJECT_MAGIC)
    (hversion : h.version = FORMAT_VERSION) (hraw : h.rawSize.toNat = (framesRaw fs).length)
    (hcompressed : h.compressedSize = UInt64.ofNat (streamTotal fs))
    (hcrc : h.rawCrc32 = crc (framesRaw fs)) (hcount : h.frameCount.toNat = fs.length) :
    h = frameListHeader crc fs := by
  cases h
  simp only at hmagic hversion hraw hcompressed hcrc hcount
  simp only [frameListHeader, ← hraw, ← hcount, UInt64.ofNat_toNat, UInt32.ofNat_toNat,
    hmagic, hversion, hcompressed, hcrc]

end

end DpuTest.ReadBench
