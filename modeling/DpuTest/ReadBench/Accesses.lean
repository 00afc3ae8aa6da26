import DpuTest.ReadBench.ReadMethod
import DpuTest.ReadBench.StoredZlib

/-!
# What the reader touches

`run_read_method` and `doca_decompress_one` walk an object whose bytes may be
anything, with a device that may put out any number of bytes up to the size of
its destination.  This module lists the accesses to the four buffers, in the
order of the source: an access is a buffer, an offset and a length.  A call of a
library counts with all of the memory that it is given.

The list follows the checks of `readFrame` and `readObject`, and takes the
states from them.  In the DOCA path the output is copied before its size is
compared with the one in the frame header.  What keeps that copy inside is the
invariant of `framesAccesses_inBounds`: after `n` frames there are at most
`n * FRAME_BYTES` bytes.  So no copy of `readObject` fails for want of room,
`readObject_ne_outOfBounds`.
-/

namespace DpuTest.ReadBench

open Lib

/-- The buffers: `read_buffer`, of which `bytes_read` bytes hold the object,
`output_buffer`, and the two memories of the decompressor. -/
inductive Memory where
  | readBuffer
  | outputBuffer
  | srcMemory
  | dstMemory
  deriving DecidableEq

/-- How far an access may reach. -/
def Memory.size (bytesRead srcCapacity : Nat) : Memory → Nat
  | .readBuffer => bytesRead
  | .outputBuffer => OBJECT_BYTES
  | .srcMemory => srcCapacity
  | .dstMemory => FRAME_BYTES

structure Access where
  memory : Memory
  off : Nat
  len : Nat
  deriving DecidableEq

def Access.InBounds (bytesRead srcCapacity : Nat) (a : Access) : Prop :=
  a.off + a.len ≤ a.memory.size bytesRead srcCapacity

section

variable (z : Zlib) (device : Nat → Inflater) (method : ReadMethod) {srcCapacity : Nat}

/-- `doca_decompress_one` on the `len` bytes at `off` of `read_buffer`: the copy
into the source memory, and what the device is given. -/
def docaAccesses (srcCapacity off len : Nat) : List Access :=
  if len < ZLIB_COMPATIBILITY_ADDITIONAL_MEMORY ∨ len > srcCapacity then []
  else
    [⟨.readBuffer, off, len⟩, ⟨.srcMemory, 0, len⟩,
      ⟨.srcMemory, ZLIB_HEADER_SIZE, len - ZLIB_COMPATIBILITY_ADDITIONAL_MEMORY⟩,
      ⟨.dstMemory, 0, FRAME_BYTES⟩]

/-- The copy of what the device has put out to `output_buffer`. -/
def copyAccesses (device : Inflater) (stream : List UInt8) (s : FrameState srcCapacity) :
    List Access :=
  match docaDecompressOne device s.doca stream with
  | .error _ => []
  | .ok (frameOutputSize, _) =>
    [⟨.dstMemory, 0, frameOutputSize⟩, ⟨.outputBuffer, s.outputSize, frameOutputSize⟩]

/-- The decompression of a frame whose stream stands at `off`. -/
def decompressAccesses (device : Inflater) (frame : FrameHeader) (off : Nat)
    (stream : List UInt8) (s : FrameState srcCapacity) : List Access :=
  match method with
  | .cpu =>
    [⟨.readBuffer, off, frame.compressedSize.toNat⟩,
      ⟨.outputBuffer, s.outputSize, frame.rawSize.toNat⟩]
  | _ =>
    docaAccesses srcCapacity off frame.compressedSize.toNat ++ copyAccesses device stream s

/-- One pass of the frame loop. -/
def frameAccesses (device : Inflater) (object : List UInt8) (s : FrameState srcCapacity) :
    List Access :=
  if s.inputOffset + frameHeaderSize > object.length then []
  else
    let frame := FrameHeader.ofBytes (slice object s.inputOffset frameHeaderSize)
    let inputOffset := s.inputOffset + frameHeaderSize
    ⟨.readBuffer, s.inputOffset, frameHeaderSize⟩ ::
      if frame.rawSize = 0 ∨ frame.rawSize.toNat > FRAME_BYTES ∨
          frame.compressedSize.toNat < ZLIB_COMPATIBILITY_ADDITIONAL_MEMORY ∨
          inputOffset + frame.compressedSize.toNat > object.length ∨
          s.outputSize + frame.rawSize.toNat > OBJECT_BYTES then []
      else
        decompressAccesses method device frame inputOffset
          (slice object inputOffset frame.compressedSize.toNat) s

/-- `count` passes of the frame loop from `frameIndex` on, with the answer of the
device to each of them: the accesses, and the state after the loop. -/
def framesAccesses (object : List UInt8) :
    Nat → Nat → FrameState srcCapacity → List Access × Except ReadError (FrameState srcCapacity)
  | 0, _, s => ([], .ok s)
  | count + 1, frameIndex, s =>
    let first := frameAccesses method (device frameIndex) object s
    match readFrame z (device frameIndex) method object frameIndex s with
    | .error e => (first, .error e)
    | .ok s =>
      let rest := framesAccesses object count (frameIndex + 1) s
      (first ++ rest.1, rest.2)

/-- One object, as `rados_read` has returned it. -/
def objectAccesses (object : List UInt8) (outputBuffer : Buffer UInt8 OBJECT_BYTES)
    (doca : DocaDecompressor srcCapacity) : List Access :=
  if object.length < objectHeaderSize then []
  else
    let header := ObjectHeader.ofBytes (slice object 0 objectHeaderSize)
    ⟨.readBuffer, 0, objectHeaderSize⟩ ::
      if header.Invalid then []
      else if method ≠ .cpu ∧ method ≠ .doca then []
      else
        let frames := framesAccesses z device method object header.frameCount.toNat 0
          (startFrames outputBuffer doca)
        frames.1 ++
          match frames.2 with
          | .error _ => []
          | .ok s =>
            if s.inputOffset ≠ object.length ∨ s.compressedSum ≠ header.compressedSize then []
            -- `crc32` of the output
            else if s.outputSize ≠ header.rawSize.toNat then []
            else [⟨.outputBuffer, 0, s.outputSize⟩]

end

section

variable {z : Zlib} {device : Nat → Inflater} {method : ReadMethod} {srcCapacity : Nat}

/-- With one device for all frames the loop is that of `readObject`. -/
theorem framesAccesses_snd (device : Inflater) (object : List UInt8) (count frameIndex : Nat)
    (s : FrameState srcCapacity) :
    (framesAccesses z (fun _ => device) method object count frameIndex s).2 =
      readFrames z device method object count frameIndex s := by
  induction count generalizing frameIndex s with
  | zero => rfl
  | succ count ih =>
    rw [framesAccesses, readFrames]
    cases readFrame z device method object frameIndex s with
    | error e => rfl
    | ok s => exact ih (frameIndex + 1) s

/-! ## One frame -/

/-- A frame adds at most `FRAME_BYTES` to the output. -/
theorem readFrame_outputSize {device : Inflater} {object : List UInt8}
    {s s' : FrameState srcCapacity} {frameIndex : Nat}
    (h : readFrame z device method object frameIndex s = .ok s') :
    s'.outputSize ≤ s.outputSize + FRAME_BYTES := by
  obtain ⟨f, hat, hreads⟩ := readFrame_inv h
  have hle := hat.1.raw_le
  rw [hreads.outputSize_eq, framesRaw_singleton]
  omega

theorem docaAccesses_inBounds {object : List UInt8} {off len : Nat}
    (h : off + len ≤ object.length) :
    ∀ a ∈ docaAccesses srcCapacity off len, a.InBounds object.length srcCapacity := by
  intro a ha
  rw [docaAccesses] at ha
  split at ha
  · cases ha
  · rename_i hsize
    rw [ZLIB_COMPATIBILITY_ADDITIONAL_MEMORY, ZLIB_HEADER_SIZE, ZLIB_TRAILER_SIZE] at *
    simp only [List.mem_cons, List.not_mem_nil, or_false] at ha
    rcases ha with rfl | rfl | rfl | rfl
    · exact h
    · show 0 + len ≤ srcCapacity
      omega
    · show 2 + (len - (2 + 4)) ≤ srcCapacity
      omega
    · show 0 + FRAME_BYTES ≤ FRAME_BYTES
      omega

/-- The output of a frame fits wherever another frame may go. -/
theorem copyAccesses_inBounds {device : Inflater} {stream : List UInt8} {bytesRead : Nat}
    {s : FrameState srcCapacity} (hroom : s.outputSize + FRAME_BYTES ≤ OBJECT_BYTES) :
    ∀ a ∈ copyAccesses device stream s, a.InBounds bytesRead srcCapacity := by
  intro a ha
  rw [copyAccesses] at ha
  split at ha
  · cases ha
  · rename_i frameOutputSize doca hone
    obtain ⟨-, -, output, hinflate, hlen, -⟩ := inflateOne_inv hone
    have hmax := device.length_le hinflate
    simp only [List.mem_cons, List.not_mem_nil, or_false] at ha
    rcases ha with rfl | rfl
    · show 0 + frameOutputSize ≤ FRAME_BYTES
      omega
    · show s.outputSize + frameOutputSize ≤ OBJECT_BYTES
      omega

theorem decompressAccesses_inBounds {device : Inflater} {object : List UInt8}
    {frame : FrameHeader} {off : Nat} {stream : List UInt8} {s : FrameState srcCapacity}
    (hstream : off + frame.compressedSize.toNat ≤ object.length)
    (hraw : s.outputSize + frame.rawSize.toNat ≤ OBJECT_BYTES)
    (hroom : s.outputSize + FRAME_BYTES ≤ OBJECT_BYTES) :
    ∀ a ∈ decompressAccesses method device frame off stream s,
      a.InBounds object.length srcCapacity := by
  have hdoca : ∀ a ∈ docaAccesses srcCapacity off frame.compressedSize.toNat ++
      copyAccesses device stream s, a.InBounds object.length srcCapacity := by
    intro a ha
    rcases List.mem_append.mp ha with ha | ha
    · exact docaAccesses_inBounds hstream a ha
    · exact copyAccesses_inBounds hroom a ha
  cases method with
  | cpu =>
    intro a ha
    simp only [decompressAccesses, List.mem_cons, List.not_mem_nil, or_false] at ha
    rcases ha with rfl | rfl
    · exact hstream
    · exact hraw
  | doca => exact hdoca
  | unknown => exact hdoca

theorem frameAccesses_inBounds {device : Inflater} {object : List UInt8}
    {s : FrameState srcCapacity} (hroom : s.outputSize + FRAME_BYTES ≤ OBJECT_BYTES) :
    ∀ a ∈ frameAccesses method device object s, a.InBounds object.length srcCapacity := by
  intro a ha
  rw [frameAccesses] at ha
  split at ha
  · cases ha
  · rename_i hheader
    rcases List.mem_cons.mp ha with rfl | ha
    · show s.inputOffset + frameHeaderSize ≤ object.length
      omega
    · split at ha
      · cases ha
      · rename_i hchecks
        simp only [not_or, gt_iff_lt, Nat.not_lt] at hchecks
        exact decompressAccesses_inBounds hchecks.2.2.2.1 hchecks.2.2.2.2 hroom a ha

/-! ## The object -/

/-- Where the loop goes on there is room for one frame more. -/
theorem outputSize_room {frameIndex count outputSize : Nat}
    (hcount : frameIndex + (count + 1) ≤ MAX_FRAMES)
    (hs : outputSize ≤ frameIndex * FRAME_BYTES) : outputSize + FRAME_BYTES ≤ OBJECT_BYTES := by
  have hnext : (frameIndex + 1) * FRAME_BYTES ≤ MAX_FRAMES * FRAME_BYTES :=
    Nat.mul_le_mul_right _ (by omega)
  rw [Nat.add_mul, Nat.one_mul] at hnext
  rw [OBJECT_BYTES_eq]
  omega

theorem outputSize_next {frameIndex outputSize outputSize' : Nat}
    (hs : outputSize ≤ frameIndex * FRAME_BYTES) (hgrow : outputSize' ≤ outputSize + FRAME_BYTES) :
    outputSize' ≤ (frameIndex + 1) * FRAME_BYTES := by
  rw [Nat.add_mul, Nat.one_mul]
  omega

theorem frameCount_le {header : ObjectHeader} (h : ¬ header.Invalid) :
    0 + header.frameCount.toNat ≤ MAX_FRAMES := by
  simp only [ObjectHeader.Invalid, not_or, gt_iff_lt, Nat.not_lt] at h
  omega

/-- The invariant of the frame loop: `frameIndex` frames have put out at most
`frameIndex * FRAME_BYTES` bytes. -/
theorem framesAccesses_inBounds (z : Zlib) (device : Nat → Inflater) (method : ReadMethod)
    (object : List UInt8) {count frameIndex : Nat} {s : FrameState srcCapacity}
    (hcount : frameIndex + count ≤ MAX_FRAMES) (hs : s.outputSize ≤ frameIndex * FRAME_BYTES) :
    (∀ a ∈ (framesAccesses z device method object count frameIndex s).1,
        a.InBounds object.length srcCapacity) ∧
      ∀ s', (framesAccesses z device method object count frameIndex s).2 = .ok s' →
        s'.outputSize ≤ OBJECT_BYTES := by
  induction count generalizing frameIndex s with
  | zero =>
    refine ⟨fun a ha => ?_, fun s' h => ?_⟩
    · cases ha
    · cases h
      rw [OBJECT_BYTES_eq]
      exact hs.trans (Nat.mul_le_mul_right _ hcount)
  | succ count ih =>
    have hfirst : ∀ a ∈ frameAccesses method (device frameIndex) object s,
        a.InBounds object.length srcCapacity :=
      frameAccesses_inBounds (outputSize_room hcount hs)
    rw [framesAccesses]
    cases hone : readFrame z (device frameIndex) method object frameIndex s with
    | error e =>
      refine ⟨hfirst, fun s' h => ?_⟩
      cases h
    | ok s₁ =>
      have hs₁ := outputSize_next hs (readFrame_outputSize hone)
      obtain ⟨hrest, hend⟩ := ih (by omega) hs₁
      refine ⟨fun a ha => ?_, hend⟩
      rcases List.mem_append.mp ha with ha | ha
      · exact hfirst a ha
      · exact hrest a ha

/-- For every stored object and every device, all accesses are in bounds. -/
theorem objectAccesses_inBounds (z : Zlib) (device : Nat → Inflater) (method : ReadMethod)
    {srcCapacity : Nat} (stored : List UInt8) (readCapacity : Nat)
    (outputBuffer : Buffer UInt8 OBJECT_BYTES) (doca : DocaDecompressor srcCapacity) :
    ∀ a ∈ objectAccesses z device method (stored.take readCapacity) outputBuffer doca,
      a.InBounds (stored.take readCapacity).length srcCapacity := by
  generalize stored.take readCapacity = object
  intro a ha
  rw [objectAccesses] at ha
  split at ha
  · cases ha
  · rename_i hheader
    rcases List.mem_cons.mp ha with rfl | ha
    · show 0 + objectHeaderSize ≤ object.length
      omega
    · split at ha
      · cases ha
      · rename_i hvalid
        split at ha
        · cases ha
        · have hcount := frameCount_le hvalid
          have hstart : (startFrames outputBuffer doca).outputSize ≤ 0 * FRAME_BYTES :=
            Nat.zero_le _
          obtain ⟨hframes, hend⟩ :=
            framesAccesses_inBounds z device method object hcount hstart
          rcases List.mem_append.mp ha with ha | ha
          · exact hframes a ha
          · split at ha
            · cases ha
            · rename_i s hs
              split at ha
              · cases ha
              · split at ha
                · cases ha
                · rw [List.mem_singleton.mp ha]
                  show 0 + s.outputSize ≤ OBJECT_BYTES
                  have hsize := hend s hs
                  omega

/-- A device that fills its destination, whatever it is given. -/
def floodInflater : Inflater where
  inflate _ := some (List.replicate FRAME_BYTES 0)
  length_le h := by
    rw [← Option.some.inj h, List.length_replicate]

theorem mem_copyAccesses_flood {stream : List UInt8} (s : FrameState srcCapacity)
    (hmin : ZLIB_COMPATIBILITY_ADDITIONAL_MEMORY ≤ stream.length)
    (hmax : stream.length ≤ srcCapacity) :
    ⟨.outputBuffer, s.outputSize, FRAME_BYTES⟩ ∈ copyAccesses floodInflater stream s := by
  have hflood : floodInflater.inflate (deflateBody stream) =
      some (List.replicate FRAME_BYTES 0) := rfl
  obtain ⟨doca, hone, -⟩ := inflateOne_ok s.doca hmin hmax hflood
  have hone' : docaDecompressOne floodInflater s.doca stream = .ok (FRAME_BYTES, doca) := by
    rw [List.length_replicate] at hone
    exact hone
  rw [copyAccesses, hone']
  exact List.mem_cons_of_mem _ List.mem_cons_self

/-- The frame of the byte `a` has the raw size 1, and a whole frame is copied. -/
theorem mem_frameAccesses_flood {s : FrameState srcCapacity} (hin : s.inputOffset = objectHeaderSize)
    (hout : s.outputSize = 0) (hsrc : 9 ≤ srcCapacity) :
    ⟨.outputBuffer, 0, FRAME_BYTES⟩ ∈ frameAccesses .doca floodInflater objectOfA s := by
  have hroom : ¬ objectHeaderSize + frameHeaderSize > objectOfA.length := by decide
  have hframe : FrameHeader.ofBytes (slice objectOfA objectHeaderSize frameHeaderSize) =
      { rawSize := 1, compressedSize := 9 } := by
    decide
  have hchecks : ¬ ((1 : UInt32) = 0 ∨ (1 : UInt32).toNat > FRAME_BYTES ∨
      (9 : UInt32).toNat < ZLIB_COMPATIBILITY_ADDITIONAL_MEMORY ∨
      objectHeaderSize + frameHeaderSize + (9 : UInt32).toNat > objectOfA.length ∨
      0 + (1 : UInt32).toNat > OBJECT_BYTES) := by
    decide
  have hlen : (slice objectOfA (objectHeaderSize + frameHeaderSize) (9 : UInt32).toNat).length = 9 := by
    decide
  simp only [frameAccesses, hin, hout, if_neg hroom, hframe, if_neg hchecks]
  refine List.mem_cons_of_mem _ (List.mem_append_right _ ?_)
  rw [← hout]
  refine mem_copyAccesses_flood s ?_ ?_
  · rw [hlen]
    decide
  · rw [hlen]
    exact hsrc

theorem mem_objectAccesses_flood (outputBuffer : Buffer UInt8 OBJECT_BYTES)
    (doca : DocaDecompressor srcCapacity) (hsrc : 9 ≤ srcCapacity) :
    ⟨.outputBuffer, 0, FRAME_BYTES⟩ ∈
      objectAccesses z (fun _ => floodInflater) .doca objectOfA outputBuffer doca := by
  have hmin : ¬ objectOfA.length < objectHeaderSize := by decide
  have hvalid : ¬ (ObjectHeader.ofBytes (slice objectOfA 0 objectHeaderSize)).Invalid := by decide
  have hmethod : ¬ (ReadMethod.doca ≠ .cpu ∧ ReadMethod.doca ≠ .doca) := by decide
  have hcount : (ObjectHeader.ofBytes (slice objectOfA 0 objectHeaderSize)).frameCount.toNat =
      0 + 1 := by
    decide
  have hfirst : ⟨.outputBuffer, 0, FRAME_BYTES⟩ ∈
      frameAccesses .doca floodInflater objectOfA (startFrames outputBuffer doca) :=
    mem_frameAccesses_flood rfl rfl hsrc
  simp only [objectAccesses, if_neg hmin, if_neg hvalid, if_neg hmethod, hcount]
  refine List.mem_cons_of_mem _ (List.mem_append_left _ ?_)
  rw [framesAccesses]
  cases readFrame z floodInflater .doca objectOfA 0 (startFrames outputBuffer doca) with
  | error e => exact hfirst
  | ok s => exact List.mem_append_left _ hfirst

/-- Even then the copy is in bounds. -/
theorem objectAccesses_inBounds_flood :
    (⟨.outputBuffer, 0, FRAME_BYTES⟩ : Access).InBounds (objectOfA.take 49).length 9 :=
  objectAccesses_inBounds storedZlib (fun _ => floodInflater) .doca objectOfA 49
    (.zeroed OBJECT_BYTES) (.init 9) _ (mem_objectAccesses_flood _ _ (Nat.le_refl 9))

/-! ## The copies of the model -/

/-- `uncompress` keeps inside the memory that it is given. -/
def Zlib.OutputFits (z : Zlib) : Prop :=
  ∀ destLen stream output, z.uncompress destLen stream = some output → output.length ≤ destLen

theorem decompressInto_ne_outOfBounds {device : Inflater} {frame : FrameHeader} {frameIndex : Nat}
    {stream : List UInt8} {s : FrameState srcCapacity}
    (hz : z.OutputFits) (hraw : s.outputSize + frame.rawSize.toNat ≤ OBJECT_BYTES)
    (hroom : s.outputSize + FRAME_BYTES ≤ OBJECT_BYTES) :
    decompressInto z device method frameIndex frame stream s ≠ .error .outOfBounds := by
  intro h
  unfold decompressInto at h
  split at h
  · split at h
    · cases h
    · rename_i output houtput
      have hle := hz _ _ _ houtput
      rw [s.outputBuffer.store_eq_some (by omega)] at h
      cases h
  · split at h
    · cases h
    · rename_i frameOutputSize doca hone
      obtain ⟨-, -, output, hinflate, hlen, hfetch⟩ := inflateOne_inv hone
      have hmax := device.length_le hinflate
      simp only [hfetch] at h
      rw [s.outputBuffer.store_eq_some (by omega)] at h
      cases h

theorem readFrame_ne_outOfBounds {device : Inflater} {object : List UInt8} {frameIndex : Nat}
    {s : FrameState srcCapacity}
    (hz : z.OutputFits) (hroom : s.outputSize + FRAME_BYTES ≤ OBJECT_BYTES) :
    readFrame z device method object frameIndex s ≠ .error .outOfBounds := by
  intro h
  unfold readFrame at h
  simp only at h
  split at h
  · cases h
  · split at h
    · cases h
    · rename_i hchecks
      simp only [not_or, gt_iff_lt, Nat.not_lt] at hchecks
      split at h
      · rename_i e hinto
        cases h
        exact decompressInto_ne_outOfBounds hz hchecks.2.2.2.2 hroom hinto
      · split at h
        · cases h
        · cases h

theorem readFrames_ne_outOfBounds {device : Inflater} {object : List UInt8}
    {count frameIndex : Nat} {s : FrameState srcCapacity}
    (hz : z.OutputFits) (hcount : frameIndex + count ≤ MAX_FRAMES)
    (hs : s.outputSize ≤ frameIndex * FRAME_BYTES) :
    readFrames z device method object count frameIndex s ≠ .error .outOfBounds := by
  induction count generalizing frameIndex s with
  | zero =>
    intro h
    cases h
  | succ count ih =>
    have hroom := outputSize_room hcount hs
    intro h
    rw [readFrames] at h
    split at h
    · rename_i e hone
      cases h
      exact readFrame_ne_outOfBounds hz hroom hone
    · rename_i s₁ hone
      exact ih (by omega) (outputSize_next hs (readFrame_outputSize hone)) h

/-- No copy of the reader leaves `output_buffer`. -/
theorem readObject_ne_outOfBounds {device : Inflater} {object : List UInt8}
    {outputBuffer : Buffer UInt8 OBJECT_BYTES} {doca : DocaDecompressor srcCapacity}
    (hz : ∀ destLen stream output, z.uncompress destLen stream = some output →
      output.length ≤ destLen) :
    readObject z device method object outputBuffer doca ≠ .error .outOfBounds := by
  intro h
  unfold readObject at h
  simp only at h
  split at h
  · cases h
  · split at h
    · cases h
    · rename_i hvalid
      have hcount := frameCount_le hvalid
      split at h
      · cases h
      · split at h
        · rename_i e hframes
          cases h
          exact readFrames_ne_outOfBounds hz hcount (Nat.zero_le _) hframes
        · split at h
          · cases h
          · split at h
            · cases h
            · cases h

end

end DpuTest.ReadBench
