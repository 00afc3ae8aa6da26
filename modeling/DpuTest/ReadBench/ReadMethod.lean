import DpuTest.ReadBench.DocaDecompress
import DpuTest.ReadBench.Names
import DpuTest.ReadBench.WellFormed

/-!
# Reading a compressed dataset

`run_read_method` reads the objects of a dataset one after the other, walks the
frames of each and decompresses them into `output_buffer`, with zlib or with
DOCA.  Every check of the source is here in its place, with the error that it
reports; `outOfBounds` stands for an access that no check of the source guards.

* `readObject_packObject` says that an object of well-formed frames is accepted
  and that `output_buffer` then starts with its raw bytes.
* `readObject_accepts` is the converse: whatever is accepted is such an object.
-/

namespace DpuTest.ReadBench

open Lib

/-- `const char *method`, compared with `strcmp`. -/
inductive ReadMethod where
  | cpu
  | doca
  | unknown
  deriving DecidableEq

/-- Why a read pass returns -1. -/
inductive ReadError where
  /-- `rados_read(…)` -/
  | radosRead (oid : List UInt8)
  /-- `Object … is too small` -/
  | tooSmall
  /-- `Invalid object header in …` -/
  | invalidHeader
  /-- `Unknown read method: …` -/
  | unknownMethod
  /-- `Truncated frame header in …` -/
  | truncatedFrameHeader
  /-- `Invalid frame … in …` -/
  | invalidFrame (frameIndex : Nat)
  /-- `zlib uncompress(… frame …)` -/
  | uncompress (frameIndex : Nat)
  /-- `DOCA decompression failed for … frame …` -/
  | docaDecompress (frameIndex : Nat) (error : DocaError)
  /-- `Unexpected decompressed frame size in … frame …` -/
  | unexpectedFrameSize (frameIndex : Nat)
  /-- `Object frame accounting failed for …` -/
  | frameAccounting
  /-- `Data verification failed for … using …` -/
  | dataVerification
  /-- `Unexpected raw object size for …: got=… expected=…` -/
  | unexpectedRawSize (got : Nat) (expected : UInt64)
  /-- `Invalid manifest object …` -/
  | invalidManifest
  | outOfBounds
  deriving DecidableEq

/-- The local variables of the frame loop. -/
structure FrameState (srcCapacity : Nat) where
  inputOffset : Nat
  outputSize : Nat
  compressedSum : UInt64
  outputBuffer : Buffer UInt8 OBJECT_BYTES
  doca : DocaDecompressor srcCapacity

section

variable (z : Zlib) (device : Inflater) (method : ReadMethod) {srcCapacity : Nat}

/-- The decompression of one frame: `frame_output_size` and the state after it. -/
def decompressInto (frameIndex : Nat) (frame : FrameHeader) (stream : List UInt8)
    (s : FrameState srcCapacity) : Except ReadError (Nat × FrameState srcCapacity) :=
  match method with
  | .cpu =>
    match z.uncompress frame.rawSize.toNat stream with
    | none => .error (.uncompress frameIndex)
    | some output =>
      match s.outputBuffer.store s.outputSize output with
      | none => .error .outOfBounds
      | some outputBuffer => .ok (output.length, { s with outputBuffer := outputBuffer })
  | _ =>
    match docaDecompressOne device s.doca stream with
    | .error e => .error (.docaDecompress frameIndex e)
    | .ok (frameOutputSize, doca) =>
      match fetch doca.dstMemory.data 0 frameOutputSize with
      | none => .error .outOfBounds
      | some output =>
        match s.outputBuffer.store s.outputSize output with
        | none => .error .outOfBounds
        | some outputBuffer =>
          .ok (frameOutputSize, { s with outputBuffer := outputBuffer, doca := doca })

/-- One pass of the frame loop over the bytes read. -/
def readFrame (object : List UInt8) (frameIndex : Nat) (s : FrameState srcCapacity) :
    Except ReadError (FrameState srcCapacity) :=
  if s.inputOffset + frameHeaderSize > object.length then .error .truncatedFrameHeader
  else
    let frame := FrameHeader.ofBytes (slice object s.inputOffset frameHeaderSize)
    let inputOffset := s.inputOffset + frameHeaderSize
    if frame.rawSize = 0 ∨ frame.rawSize.toNat > FRAME_BYTES ∨
        frame.compressedSize.toNat < ZLIB_COMPATIBILITY_ADDITIONAL_MEMORY ∨
        inputOffset + frame.compressedSize.toNat > object.length ∨
        s.outputSize + frame.rawSize.toNat > OBJECT_BYTES then
      .error (.invalidFrame frameIndex)
    else
      let stream := slice object inputOffset frame.compressedSize.toNat
      match decompressInto z device method frameIndex frame stream s with
      | .error e => .error e
      | .ok (frameOutputSize, s) =>
        if frameOutputSize ≠ frame.rawSize.toNat then .error (.unexpectedFrameSize frameIndex)
        else
          .ok { s with
            inputOffset := inputOffset + frame.compressedSize.toNat
            compressedSum := s.compressedSum + frame.compressedSize.toUInt64
            outputSize := s.outputSize + frameOutputSize }

/-- `count` passes of the frame loop from `frameIndex` on. -/
def readFrames (object : List UInt8) :
    Nat → Nat → FrameState srcCapacity → Except ReadError (FrameState srcCapacity)
  | 0, _, s => .ok s
  | count + 1, frameIndex, s =>
    match readFrame z device method object frameIndex s with
    | .error e => .error e
    | .ok s => readFrames object count (frameIndex + 1) s

/-- The state before the frame loop. -/
def startFrames (outputBuffer : Buffer UInt8 OBJECT_BYTES)
    (doca : DocaDecompressor srcCapacity) : FrameState srcCapacity where
  inputOffset := objectHeaderSize
  outputSize := 0
  compressedSum := 0
  outputBuffer := outputBuffer
  doca := doca

/-- What becomes of the bytes that `rados_read` returned. -/
def readObject (object : List UInt8) (outputBuffer : Buffer UInt8 OBJECT_BYTES)
    (doca : DocaDecompressor srcCapacity) :
    Except ReadError (ObjectHeader × FrameState srcCapacity) :=
  if object.length < objectHeaderSize then .error .tooSmall
  else
    let header := ObjectHeader.ofBytes (slice object 0 objectHeaderSize)
    if header.Invalid then .error .invalidHeader
    else if method ≠ .cpu ∧ method ≠ .doca then .error .unknownMethod
    else
      match readFrames z device method object header.frameCount.toNat 0
          (startFrames outputBuffer doca) with
      | .error e => .error e
      | .ok s =>
        if s.inputOffset ≠ object.length ∨ s.compressedSum ≠ header.compressedSize then
          .error .frameAccounting
        else if s.outputSize ≠ header.rawSize.toNat ∨
            z.checksum (s.outputBuffer.data.take s.outputSize) ≠ header.rawCrc32 then
          .error .dataVerification
        else .ok (header, s)

end

/-! ## The frame loop -/

/-- The decoder of a method. -/
def ReadMethod.decode (z : Zlib) (device : Inflater) (srcCapacity : Nat) : ReadMethod → Decoder
  | .cpu => z.uncompress
  | _ => docaDecoder device srcCapacity

section

variable {z : Zlib} {device : Inflater} {method : ReadMethod} {srcCapacity : Nat}

theorem decompressInto_ok {frame : FrameHeader} {stream output : List UInt8}
    (frameIndex : Nat) (s : FrameState srcCapacity)
    (hmin : ZLIB_COMPATIBILITY_ADDITIONAL_MEMORY ≤ stream.length)
    (hdecode : method.decode z device srcCapacity frame.rawSize.toNat stream = some output)
    (hroom : s.outputSize + output.length ≤ OBJECT_BYTES) :
    ∃ doca, decompressInto z device method frameIndex frame stream s =
      .ok (output.length, { s with
        outputBuffer := s.outputBuffer.put s.outputSize output hroom, doca := doca }) := by
  have hdoca (hd : docaDecoder device srcCapacity frame.rawSize.toNat stream = some output) :
      ∃ doca, docaDecompressOne device s.doca stream = .ok (output.length, doca) ∧
        fetch doca.dstMemory.data 0 output.length = some output := by
    obtain ⟨hmax, hinflate⟩ := docaDecoder_eq_some_iff.mp hd
    exact inflateOne_ok s.doca hmin hmax hinflate
  cases method with
  | cpu =>
    refine ⟨s.doca, ?_⟩
    simp only [ReadMethod.decode] at hdecode
    simp only [decompressInto, hdecode, Buffer.store_eq_some _ hroom]
  | doca =>
    obtain ⟨doca, hone, hfetch⟩ := hdoca hdecode
    refine ⟨doca, ?_⟩
    simp only [decompressInto, hone, hfetch, Buffer.store_eq_some _ hroom]
  | unknown =>
    obtain ⟨doca, hone, hfetch⟩ := hdoca hdecode
    refine ⟨doca, ?_⟩
    simp only [decompressInto, hone, hfetch, Buffer.store_eq_some _ hroom]

theorem decompressInto_inv {frame : FrameHeader} {stream : List UInt8} {frameIndex : Nat}
    {s s' : FrameState srcCapacity} {outputSize : Nat}
    (h : decompressInto z device method frameIndex frame stream s = .ok (outputSize, s')) :
    ∃ output doca, ∃ hroom : s.outputSize + output.length ≤ OBJECT_BYTES,
      method.decode z device srcCapacity frame.rawSize.toNat stream = some output ∧
      outputSize = output.length ∧
      s' = { s with
        outputBuffer := s.outputBuffer.put s.outputSize output hroom, doca := doca } := by
  unfold decompressInto at h
  split at h
  · split at h
    · cases h
    · rename_i output hdecode
      split at h
      · cases h
      · rename_i outputBuffer hstore
        obtain ⟨hroom, rfl⟩ := Buffer.store_inv hstore
        cases h
        exact ⟨output, s.doca, hroom, hdecode, rfl, rfl⟩
  · rename_i hcpu
    split at h
    · cases h
    · rename_i frameOutputSize doca hone
      split at h
      · cases h
      · rename_i output hfetch
        split at h
        · cases h
        · rename_i outputBuffer hstore
          obtain ⟨hroom, rfl⟩ := Buffer.store_inv hstore
          cases h
          obtain ⟨-, hmax, output', hinflate, rfl, hfetch'⟩ := inflateOne_inv hone
          rw [hfetch] at hfetch'
          cases hfetch'
          refine ⟨output, doca, hroom, ?_, rfl, rfl⟩
          have hd : docaDecoder device srcCapacity frame.rawSize.toNat stream = some output :=
            docaDecoder_eq_some_iff.mpr ⟨hmax, hinflate⟩
          cases method with
          | cpu => exact absurd rfl hcpu
          | doca => exact hd
          | unknown => exact hd

/-- `s'` is `s` after the frames `fs`. -/
structure Reads (s s' : FrameState srcCapacity) (fs : List Frame) : Prop where
  inputOffset_eq : s'.inputOffset = s.inputOffset + (packFrames fs).length
  outputSize_eq : s'.outputSize = s.outputSize + (framesRaw fs).length
  compressedSum_eq : s'.compressedSum = s.compressedSum + UInt64.ofNat (streamTotal fs)
  output_eq : s'.outputBuffer.data.take s'.outputSize =
    s.outputBuffer.data.take s.outputSize ++ framesRaw fs

theorem Reads.refl (s : FrameState srcCapacity) : Reads s s [] where
  inputOffset_eq := rfl
  outputSize_eq := rfl
  compressedSum_eq := by simp [streamTotal]
  output_eq := by simp [framesRaw]

theorem Reads.cons {s s₁ s' : FrameState srcCapacity} {f : Frame} {fs : List Frame}
    (hf : Reads s s₁ [f]) (hfs : Reads s₁ s' fs) : Reads s s' (f :: fs) := by
  have happend : f :: fs = [f] ++ fs := rfl
  constructor
  · rw [hfs.inputOffset_eq, hf.inputOffset_eq, happend, packFrames_append, List.length_append,
      Nat.add_assoc]
  · rw [hfs.outputSize_eq, hf.outputSize_eq, happend, framesRaw_append, List.length_append,
      Nat.add_assoc]
  · rw [hfs.compressedSum_eq, hf.compressedSum_eq, happend, streamTotal_append, UInt64.ofNat_add,
      UInt64.add_assoc]
  · rw [hfs.output_eq, hf.output_eq, happend, framesRaw_append, List.append_assoc]

/-- The state that a pass leaves. -/
theorem reads_frame {s : FrameState srcCapacity} {f : Frame} {compressedSize : UInt32}
    (doca : DocaDecompressor srcCapacity) (hsize : compressedSize.toNat = f.stream.length)
    (hroom : s.outputSize + f.raw.length ≤ OBJECT_BYTES) :
    Reads s
      { inputOffset := s.inputOffset + frameHeaderSize + compressedSize.toNat
        outputSize := s.outputSize + f.raw.length
        compressedSum := s.compressedSum + compressedSize.toUInt64
        outputBuffer := s.outputBuffer.put s.outputSize f.raw hroom
        doca := doca } [f] := by
  constructor
  · rw [length_packFrames_singleton, hsize, Nat.add_assoc]
  · rw [framesRaw_singleton]
  · rw [toUInt64_eq_streamTotal hsize]
  · have hroom' : s.outputSize + f.raw.length ≤ s.outputBuffer.data.length := by
      rw [s.outputBuffer.length_data]
      exact hroom
    rw [Buffer.put_data, take_writeAt_end hroom', framesRaw_singleton]

/-- A good frame passes every check. -/
theorem readFrame_ok {object : List UInt8} {s : FrameState srcCapacity} {f : Frame}
    (frameIndex : Nat)
    (hat : FrameAt (method.decode z device srcCapacity) object s.inputOffset f)
    (hroom : s.outputSize + f.raw.length ≤ OBJECT_BYTES) :
    ∃ s', readFrame z device method object frameIndex s = .ok s' ∧ Reads s s' [f] := by
  have hheader := hat.ofBytes_slice
  obtain ⟨hok, hle, -, hstream⟩ := hat
  have hraw := hok.rawSize_toNat
  have hcompressed := hok.compressedSize_toNat
  have hchecks : ¬ (f.header.rawSize = 0 ∨ f.header.rawSize.toNat > FRAME_BYTES ∨
      f.header.compressedSize.toNat < ZLIB_COMPATIBILITY_ADDITIONAL_MEMORY ∨
      s.inputOffset + frameHeaderSize + f.header.compressedSize.toNat > object.length ∨
      s.outputSize + f.header.rawSize.toNat > OBJECT_BYTES) := by
    have hraw_le := hok.raw_le
    have hmin := hok.stream_min
    simp only [hok.rawSize_ne_zero, false_or, hraw, hcompressed]
    omega
  have hdecode : method.decode z device srcCapacity f.header.rawSize.toNat f.stream =
      some f.raw := by
    rw [hraw]
    exact hok.decode_eq
  obtain ⟨doca, hinto⟩ := decompressInto_ok frameIndex s hok.stream_min hdecode hroom
  rw [← hcompressed] at hstream
  have hfits : ¬ s.inputOffset + frameHeaderSize > object.length := by omega
  refine ⟨_, ?_, reads_frame doca hcompressed hroom⟩
  simp only [readFrame, if_neg hfits, hheader]
  rw [if_neg hchecks]
  simp only [hstream, hinto, hraw, ne_eq, not_true_eq_false, if_false]

/-- A frame that passes every check is good. -/
theorem readFrame_inv {object : List UInt8} {s s' : FrameState srcCapacity} {frameIndex : Nat}
    (h : readFrame z device method object frameIndex s = .ok s') :
    ∃ f, FrameAt (method.decode z device srcCapacity) object s.inputOffset f ∧
      Reads s s' [f] := by
  unfold readFrame at h
  simp only at h
  split at h
  · cases h
  · split at h
    · cases h
    · rename_i hchecks
      split at h
      · cases h
      · rename_i outputSize s₁ hinto
        split at h
        · cases h
        · rename_i hlen
          cases h
          obtain ⟨output, doca, hroom, hdecode, rfl, rfl⟩ := decompressInto_inv hinto
          rw [ne_eq, Decidable.not_not] at hlen
          simp only [not_or] at hchecks
          obtain ⟨hpos, hraw, hmin, hle, -⟩ := hchecks
          have hstream := length_slice (Nat.le_of_not_gt hle)
          exact ⟨⟨output, _⟩, frameAt_of_checks rfl hpos (Nat.le_of_not_gt hraw)
            (Nat.le_of_not_lt hmin) (Nat.le_of_not_gt hle) hdecode hlen,
            reads_frame (f := ⟨output, _⟩) doca hstream.symm hroom⟩

/-- Good frames are all read. -/
theorem readFrames_ok {object : List UInt8} {fs : List Frame} {s : FrameState srcCapacity}
    (frameIndex : Nat)
    (hat : FramesAt (method.decode z device srcCapacity) object s.inputOffset fs)
    (hroom : s.outputSize + (framesRaw fs).length ≤ OBJECT_BYTES) :
    ∃ s', readFrames z device method object fs.length frameIndex s = .ok s' ∧
      Reads s s' fs := by
  induction fs generalizing s frameIndex with
  | nil => exact ⟨s, rfl, Reads.refl s⟩
  | cons f fs ih =>
    rw [framesRaw_cons, List.length_append] at hroom
    obtain ⟨s₁, hone, hs₁⟩ := readFrame_ok frameIndex hat.1 (by omega)
    have hoff : s₁.inputOffset = s.inputOffset + frameHeaderSize + f.stream.length := by
      rw [hs₁.inputOffset_eq, length_packFrames_singleton, Nat.add_assoc]
    have hsize : s₁.outputSize = s.outputSize + f.raw.length := by
      rw [hs₁.outputSize_eq, framesRaw_singleton]
    obtain ⟨s', hrest, hs'⟩ := ih (frameIndex + 1) (by rw [hoff]; exact hat.2) (by omega)
    refine ⟨s', ?_, hs₁.cons hs'⟩
    simp only [List.length_cons, readFrames, hone, hrest]

/-- The frames of a loop that comes to its end are good. -/
theorem readFrames_inv {object : List UInt8} {count frameIndex : Nat}
    {s s' : FrameState srcCapacity}
    (h : readFrames z device method object count frameIndex s = .ok s') :
    ∃ fs, fs.length = count ∧
      FramesAt (method.decode z device srcCapacity) object s.inputOffset fs ∧
      Reads s s' fs := by
  induction count generalizing frameIndex s with
  | zero =>
    cases h
    exact ⟨[], rfl, trivial, Reads.refl _⟩
  | succ count ih =>
    rw [readFrames] at h
    split at h
    · cases h
    · rename_i s₁ hone
      obtain ⟨f, hf, hs₁⟩ := readFrame_inv hone
      obtain ⟨fs, hlen, hfs, hs'⟩ := ih h
      have hoff : s₁.inputOffset = s.inputOffset + frameHeaderSize + f.stream.length := by
        rw [hs₁.inputOffset_eq, length_packFrames_singleton, Nat.add_assoc]
      rw [hoff] at hfs
      exact ⟨f :: fs, by rw [List.length_cons, hlen], ⟨hf, hfs⟩, hs₁.cons hs'⟩

/-! ## The object -/

/-- An object of well-formed frames is accepted, and its raw bytes are in
`output_buffer`. -/
theorem readObject_packObject {fs : List Frame}
    (hfs : WellFormed (method.decode z device srcCapacity) fs) (hmethod : method ≠ .unknown)
    (outputBuffer : Buffer UInt8 OBJECT_BYTES) (doca : DocaDecompressor srcCapacity) :
    ∃ s, readObject z device method (packObject z.checksum fs) outputBuffer doca =
        .ok (frameListHeader z.checksum fs, s) ∧
      s.outputSize = (framesRaw fs).length ∧
      s.outputBuffer.data.take s.outputSize = framesRaw fs := by
  have hlen := length_packObject z.checksum fs
  have hcount := hfs.frameCount_toNat z.checksum
  have hraw := hfs.rawSize_toNat z.checksum
  have hat : FramesAt (method.decode z device srcCapacity) (packObject z.checksum fs)
      objectHeaderSize fs := framesAt_packObject hfs
  obtain ⟨s, hrun, hs⟩ := readFrames_ok 0 (s := startFrames outputBuffer doca) hat (by
    show 0 + (framesRaw fs).length ≤ OBJECT_BYTES
    rw [Nat.zero_add]
    exact hfs.raw_le)
  have hoff : s.inputOffset = (packObject z.checksum fs).length := by
    rw [hs.inputOffset_eq, hlen]
    rfl
  have hsize : s.outputSize = (framesRaw fs).length := by
    rw [hs.outputSize_eq]
    exact Nat.zero_add _
  have hsum : s.compressedSum = (frameListHeader z.checksum fs).compressedSize := by
    rw [hs.compressedSum_eq]
    exact UInt64.zero_add _
  have hout : s.outputBuffer.data.take s.outputSize = framesRaw fs := by
    rw [hs.output_eq]
    exact List.nil_append _
  have hmin : ¬ (packObject z.checksum fs).length < objectHeaderSize := by omega
  have hmethod' : ¬ (method ≠ .cpu ∧ method ≠ .doca) := by
    cases method with
    | cpu => simp
    | doca => simp
    | unknown => exact absurd rfl hmethod
  have hcrc : z.checksum (s.outputBuffer.data.take s.outputSize) =
      (frameListHeader z.checksum fs).rawCrc32 := by
    rw [hout]
    rfl
  refine ⟨s, ?_, hsize, hout⟩
  simp only [readObject, if_neg hmin, ofBytes_packObject, if_neg (hfs.not_invalid z.checksum),
    if_neg hmethod', hcount, hrun, hcrc]
  simp only [hoff, hsum, hraw, hsize, ne_eq, not_true_eq_false, or_self, if_false]

/-- What `readObject` has checked of an object that it accepts. -/
structure Passed (z : Zlib) (device : Inflater) (method : ReadMethod) (object : List UInt8)
    (outputBuffer : Buffer UInt8 OBJECT_BYTES) (doca : DocaDecompressor srcCapacity)
    (header : ObjectHeader) (s : FrameState srcCapacity) : Prop where
  min_length : objectHeaderSize ≤ object.length
  header_eq : header = ObjectHeader.ofBytes (slice object 0 objectHeaderSize)
  magic_eq : header.magic = OBJECT_MAGIC
  version_eq : header.version = FORMAT_VERSION
  rawSize_le : header.rawSize.toNat ≤ OBJECT_BYTES
  frameCount_ne : header.frameCount ≠ 0
  frameCount_le : header.frameCount.toNat ≤ MAX_FRAMES
  method_ne : method ≠ .unknown
  frames : readFrames z device method object header.frameCount.toNat 0
    (startFrames outputBuffer doca) = .ok s
  inputOffset_eq : s.inputOffset = object.length
  compressedSum_eq : s.compressedSum = header.compressedSize
  outputSize_eq : s.outputSize = header.rawSize.toNat
  checksum_eq : z.checksum (s.outputBuffer.data.take s.outputSize) = header.rawCrc32

theorem readObject_passed {object : List UInt8} {outputBuffer : Buffer UInt8 OBJECT_BYTES}
    {doca : DocaDecompressor srcCapacity} {header : ObjectHeader} {s : FrameState srcCapacity}
    (h : readObject z device method object outputBuffer doca = .ok (header, s)) :
    Passed z device method object outputBuffer doca header s := by
  unfold readObject at h
  simp only at h
  split at h
  · cases h
  rename_i hmin
  split at h
  · cases h
  rename_i hheader
  split at h
  · cases h
  rename_i hmethod
  split at h
  · cases h
  rename_i s₁ hrun
  split at h
  · cases h
  rename_i haccount
  split at h
  · cases h
  rename_i hverify
  cases h
  simp only [ObjectHeader.Invalid, not_or, ne_eq, Decidable.not_not] at hheader haccount hverify
  obtain ⟨hmagic, hversion, hraw, hnz, hcount⟩ := hheader
  have hknown : method ≠ .unknown := by
    rintro rfl
    exact hmethod ⟨by decide, by decide⟩
  exact {
    min_length := Nat.le_of_not_lt hmin
    header_eq := rfl
    magic_eq := hmagic
    version_eq := hversion
    rawSize_le := Nat.le_of_not_gt hraw
    frameCount_ne := hnz
    frameCount_le := Nat.le_of_not_gt hcount
    method_ne := hknown
    frames := hrun
    inputOffset_eq := haccount.1
    compressedSum_eq := haccount.2
    outputSize_eq := hverify.1
    checksum_eq := hverify.2 }

/-- Whatever is accepted is an object of well-formed frames. -/
theorem readObject_accepts {object : List UInt8} {outputBuffer : Buffer UInt8 OBJECT_BYTES}
    {doca : DocaDecompressor srcCapacity} {header : ObjectHeader} {s : FrameState srcCapacity}
    (h : readObject z device method object outputBuffer doca = .ok (header, s)) :
    method ≠ .unknown ∧ ∃ fs, WellFormed (method.decode z device srcCapacity) fs ∧
      object = packObject z.checksum fs := by
  have hpassed := readObject_passed h
  obtain ⟨fs, hlen, hat, hs⟩ := readFrames_inv hpassed.frames
  have hoff : objectHeaderSize + (packFrames fs).length = object.length := by
    rw [← hpassed.inputOffset_eq, hs.inputOffset_eq]
    rfl
  have hsize : header.rawSize.toNat = (framesRaw fs).length := by
    rw [← hpassed.outputSize_eq, hs.outputSize_eq]
    exact Nat.zero_add _
  have hout : s.outputBuffer.data.take s.outputSize = framesRaw fs := by
    rw [hs.output_eq]
    exact List.nil_append _
  have hsum : header.compressedSize = UInt64.ofNat (streamTotal fs) := by
    rw [← hpassed.compressedSum_eq, hs.compressedSum_eq]
    exact UInt64.zero_add _
  refine ⟨hpassed.method_ne, fs, ⟨?_, ?_, ?_, hat.frameOk⟩, ?_⟩
  · rintro rfl
    exact hpassed.frameCount_ne (UInt32.toNat_inj.mp hlen.symm)
  · rw [hlen]
    exact hpassed.frameCount_le
  · rw [← hsize]
    exact hpassed.rawSize_le
  · refine eq_packObject hpassed.min_length ?_ hat hoff
    rw [← hpassed.header_eq]
    refine eq_frameListHeader hpassed.magic_eq hpassed.version_eq hsize hsum ?_ hlen.symm
    rw [← hpassed.checksum_eq, hout]

end

/-- `struct method_result` without the times. -/
structure MethodResult where
  objects : UInt64
  rawBytes : UInt64
  compressedBytes : UInt64
  deriving DecidableEq

/-- `memset(result, 0, sizeof(*result))` -/
def MethodResult.zero : MethodResult where
  objects := 0
  rawBytes := 0
  compressedBytes := 0

/-- One object more. -/
def MethodResult.addObject (result : MethodResult) (rawBytes compressedBytes : UInt64) :
    MethodResult where
  objects := result.objects + 1
  rawBytes := result.rawBytes + rawBytes
  compressedBytes := result.compressedBytes + compressedBytes

/-- What a read pass carries from object to object.  `delivered` records the
contents that it has visited. -/
structure Reader (srcCapacity : Nat) where
  outputBuffer : Buffer UInt8 OBJECT_BYTES
  doca : DocaDecompressor srcCapacity
  result : MethodResult
  delivered : List (List UInt8)

section

variable (z : Zlib) (device : Inflater) (method : ReadMethod) {srcCapacity : Nat}
  (pool : Pool) (pfx : List UInt8) (readCapacity : Nat)

/-- One pass of the object loop. -/
def readNext (index : UInt64) (r : Reader srcCapacity) :
    Except ReadError (Reader srcCapacity) :=
  match radosRead pool (objectName pfx index) readCapacity with
  | none => .error (.radosRead (objectName pfx index))
  | some object =>
    match readObject z device method object r.outputBuffer r.doca with
    | .error e => .error e
    | .ok (header, s) =>
      .ok {
        outputBuffer := s.outputBuffer
        doca := s.doca
        result := r.result.addObject header.rawSize header.compressedSize
        delivered := r.delivered ++ [s.outputBuffer.data.take s.outputSize] }

/-- `run_read_method`. -/
def runReadMethod (manifest : Manifest) (outputBuffer : Buffer UInt8 OBJECT_BYTES)
    (doca : DocaDecompressor srcCapacity) : Except ReadError (Reader srcCapacity) :=
  forLoop (readNext z device method pool (cString manifest.pfx) readCapacity)
    manifest.objectCount.toNat 0
    { outputBuffer := outputBuffer, doca := doca, result := .zero, delivered := [] }

variable {z device method pool pfx readCapacity}

/-- An object of well-formed frames is delivered. -/
theorem readNext_packObject {fs : List Frame} {index : UInt64}
    (hfs : WellFormed (method.decode z device srcCapacity) fs) (hmethod : method ≠ .unknown)
    (hpool : pool (objectName pfx index) = some (packObject z.checksum fs))
    (hcap : (packObject z.checksum fs).length ≤ readCapacity) (r : Reader srcCapacity) :
    ∃ r', readNext z device method pool pfx readCapacity index r = .ok r' ∧
      r'.outputBuffer.data.take (framesRaw fs).length = framesRaw fs ∧
      r'.delivered = r.delivered ++ [framesRaw fs] ∧
      r'.result = r.result.addObject (UInt64.ofNat (framesRaw fs).length)
        (UInt64.ofNat (streamTotal fs)) := by
  obtain ⟨s, hread, hsize, hout⟩ := readObject_packObject hfs hmethod r.outputBuffer r.doca
  have hrados : radosRead pool (objectName pfx index) readCapacity =
      some (packObject z.checksum fs) := by
    rw [radosRead, hpool, Option.map_some, List.take_of_length_le hcap]
  rw [hsize] at hout
  refine ⟨{
    outputBuffer := s.outputBuffer
    doca := s.doca
    result := r.result.addObject (UInt64.ofNat (framesRaw fs).length)
      (UInt64.ofNat (streamTotal fs))
    delivered := r.delivered ++ [framesRaw fs] }, ?_, hout, rfl, rfl⟩
  simp only [readNext, hrados, hread, hsize, hout]
  rfl

/-- Whatever is delivered is an object of well-formed frames. -/
theorem readNext_inv {object : List UInt8} {index : UInt64} {r r' : Reader srcCapacity}
    (hpool : pool (objectName pfx index) = some object) (hcap : object.length ≤ readCapacity)
    (h : readNext z device method pool pfx readCapacity index r = .ok r') :
    method ≠ .unknown ∧ ∃ fs, WellFormed (method.decode z device srcCapacity) fs ∧
      object = packObject z.checksum fs := by
  have hrados : radosRead pool (objectName pfx index) readCapacity = some object := by
    rw [radosRead, hpool, Option.map_some, List.take_of_length_le hcap]
  simp only [readNext, hrados] at h
  split at h
  · cases h
  · rename_i header s hread
    exact readObject_accepts hread

end

end DpuTest.ReadBench
