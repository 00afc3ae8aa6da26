import DpuTest.ReadBench.ReadMethod
import DpuTest.ReadBench.StoredZlib

/-!
# The two read methods on complete zlib streams

`uncompress` stops at the raw size of the frame header and looks at the framing
of the stream; DOCA gets the deflate body, may write a whole frame, and its
output is compared with the raw size afterwards.  On a stream that is complete,
`CompleteStream`, both come to the same: the output is there exactly when it is
as long as the header says.

`readNext_cpu_iff_doca` is this for whole objects.  It needs nothing of an object
but that its payloads, as the frame headers delimit them, are complete streams
that fit in the source memory of the device.
-/

namespace DpuTest.ReadBench

open Lib

/-! ## Zlib streams -/

/-- The Adler-32 checksum of a zlib trailer. -/
def adler32 (x : List UInt8) : UInt32 :=
  let (a, b) := x.foldl (fun (a, b) byte =>
    let a := (a + byte.toNat) % 65521
    (a, (b + a) % 65521)) (1, 0)
  UInt32.ofNat (b * 2 ^ 16 + a)

/-- The trailer is big-endian. -/
def zlibTrailer (x : List UInt8) : List UInt8 := (encodeU32 (adler32 x)).reverse

/-- The two bytes before the body: deflate with a window of at most 32 KiB, the
check bits, and no preset dictionary. -/
def ZlibHeader (cmf flg : UInt8) : Prop :=
  cmf.toNat % 16 = 8 ∧ cmf.toNat / 16 ≤ 7 ∧ (cmf.toNat * 2 ^ 8 + flg.toNat) % 31 = 0 ∧
    flg.toNat / 32 % 2 = 0

instance (cmf flg : UInt8) : Decidable (ZlibHeader cmf flg) :=
  inferInstanceAs (Decidable (_ ∧ _))

/-- `stream` is a zlib stream of `x` and nothing after it, where `inflate` is the
meaning of a deflate body. -/
def CompleteStream (inflate : List UInt8 → Option (List UInt8)) (x stream : List UInt8) : Prop :=
  ∃ cmf flg body, ZlibHeader cmf flg ∧ inflate body = some x ∧
    stream = [cmf, flg] ++ body ++ zlibTrailer x

/-- What the two decompressors do with a complete stream, given some room. -/
structure Inflates (z : Zlib) (device : Inflater)
    (inflate : List UInt8 → Option (List UInt8)) : Prop where
  uncompress_eq : ∀ {x stream : List UInt8} {destLen : Nat}, CompleteStream inflate x stream →
    0 < destLen → z.uncompress destLen stream = if x.length ≤ destLen then some x else none
  inflate_eq : ∀ {x body : List UInt8}, inflate body = some x →
    device.inflate body = if x.length ≤ FRAME_BYTES then some x else none

section

variable {inflate : List UInt8 → Option (List UInt8)} {x stream : List UInt8}

@[simp] theorem length_zlibTrailer (x : List UInt8) :
    (zlibTrailer x).length = ZLIB_TRAILER_SIZE := by
  simp [zlibTrailer, ZLIB_TRAILER_SIZE]

/-- Without its framing a complete stream is a deflate body. -/
theorem CompleteStream.inflate_deflateBody (h : CompleteStream inflate x stream) :
    inflate (deflateBody stream) = some x := by
  obtain ⟨cmf, flg, body, -, hbody, rfl⟩ := h
  have hslice : deflateBody ([cmf, flg] ++ body ++ zlibTrailer x) = body := by
    refine slice_append_middle _ _ _ rfl ?_
    simp only [List.length_append, length_zlibTrailer, ZLIB_COMPATIBILITY_ADDITIONAL_MEMORY,
      ZLIB_HEADER_SIZE, List.length_cons, List.length_nil]
    omega
  rw [hslice, hbody]

variable {z : Zlib} {device : Inflater} {srcCapacity rawSize : Nat} {output : List UInt8}

/-- On a complete stream the two methods decode the same, up to the raw size that
they are given. -/
theorem decode_cpu_iff_doca (hz : Inflates z device inflate)
    (h : CompleteStream inflate x stream) (hsrc : stream.length ≤ srcCapacity)
    (hpos : 0 < output.length) (hmax : output.length ≤ FRAME_BYTES) :
    ReadMethod.cpu.decode z device srcCapacity output.length stream = some output ↔
      ReadMethod.doca.decode z device srcCapacity output.length stream = some output := by
  have hcpu : ReadMethod.cpu.decode z device srcCapacity output.length stream =
      if x.length ≤ output.length then some x else none := hz.uncompress_eq h hpos
  have hdoca : ReadMethod.doca.decode z device srcCapacity output.length stream =
      if x.length ≤ FRAME_BYTES then some x else none := by
    show docaDecoder device srcCapacity output.length stream = _
    rw [docaDecoder, if_pos hsrc, hz.inflate_eq h.inflate_deflateBody]
  have heq (n : Nat) (hn : output.length ≤ n) :
      (if x.length ≤ n then some x else none) = some output ↔ x = output := by
    constructor
    · intro hsome
      split at hsome
      · exact Option.some.inj hsome
      · cases hsome
    · rintro rfl
      rw [if_pos hn]
  rw [hcpu, hdoca, heq _ (Nat.le_refl _), heq _ hmax]

end

/-! ## The payloads of an object -/

/-- The payloads of `count` frames from offset `off` on, as far as the object
reaches. -/
def payloadsFrom (object : List UInt8) : Nat → Nat → List (List UInt8)
  | 0, _ => []
  | count + 1, off =>
    let frame := FrameHeader.ofBytes (slice object off frameHeaderSize)
    let off := off + frameHeaderSize
    if off + frame.compressedSize.toNat > object.length then []
    else
      slice object off frame.compressedSize.toNat ::
        payloadsFrom object count (off + frame.compressedSize.toNat)

/-- The payloads of an object. -/
def payloads (object : List UInt8) : List (List UInt8) :=
  payloadsFrom object
    (ObjectHeader.ofBytes (slice object 0 objectHeaderSize)).frameCount.toNat objectHeaderSize

section

variable {decode decode' : Decoder} {fs : List Frame}

/-- The payloads of good frames are their streams. -/
theorem payloadsFrom_framesAt {object : List UInt8} {off : Nat}
    (h : FramesAt decode object off fs) :
    payloadsFrom object fs.length off = fs.map Frame.stream := by
  induction fs generalizing off with
  | nil => rfl
  | cons f fs ih =>
    obtain ⟨hf, hfs⟩ := h
    have hsize := hf.ok.compressedSize_toNat
    have hle : ¬ off + frameHeaderSize + f.stream.length > object.length :=
      Nat.not_lt_of_le hf.le
    simp only [List.length_cons, payloadsFrom, hf.ofBytes_slice, hsize, if_neg hle, hf.stream_eq,
      ih hfs, List.map_cons]

theorem payloads_packObject (hfs : WellFormed decode fs) (crc : List UInt8 → UInt32) :
    payloads (packObject crc fs) = fs.map Frame.stream := by
  rw [payloads, ofBytes_packObject, hfs.frameCount_toNat]
  exact payloadsFrom_framesAt (framesAt_packObject hfs)

/-- Frames are well formed for any decoder that decodes their streams. -/
theorem WellFormed.of_decode (hfs : WellFormed decode fs)
    (hdecode : ∀ f ∈ fs, decode' f.raw.length f.stream = some f.raw) :
    WellFormed decode' fs where
  ne_nil := hfs.ne_nil
  length_le := hfs.length_le
  raw_le := hfs.raw_le
  frames f hf :=
    { raw_pos := (hfs.frames f hf).raw_pos
      raw_le := (hfs.frames f hf).raw_le
      stream_min := (hfs.frames f hf).stream_min
      stream_lt := (hfs.frames f hf).stream_lt
      decode_eq := hdecode f hf }

end

/-! ## Whole objects -/

/-- Every payload is a complete stream of at most `bound` bytes. -/
def CompletePayloads (inflate : List UInt8 → Option (List UInt8)) (bound : Nat)
    (object : List UInt8) : Prop :=
  ∀ payload ∈ payloads object, payload.length ≤ bound ∧ ∃ x, CompleteStream inflate x payload

/-- The pool that has one object under every name. -/
def onlyObject (object : List UInt8) : Pool := fun _ => some object

/-- `s` is `r` after an object of the bytes `raw`. -/
structure Delivered {srcCapacity : Nat} (r s : Reader srcCapacity) (raw : List UInt8)
    (compressedSize : UInt64) : Prop where
  output_eq : s.outputBuffer.data.take raw.length = raw
  delivered_eq : s.delivered = r.delivered ++ [raw]
  result_eq : s.result = r.result.addObject (UInt64.ofNat raw.length) compressedSize

section

variable {z : Zlib} {device : Inflater} {inflate : List UInt8 → Option (List UInt8)}
  {srcCapacity : Nat} {pool : Pool} {pfx : List UInt8} {readCapacity : Nat} {index : UInt64}

/-- The frames of one method are the frames of the other. -/
theorem wellFormed_cpu_iff_doca {fs : List Frame} (hz : Inflates z device inflate)
    (hpayloads : CompletePayloads inflate srcCapacity (packObject z.checksum fs)) :
    WellFormed (ReadMethod.cpu.decode z device srcCapacity) fs ↔
      WellFormed (ReadMethod.doca.decode z device srcCapacity) fs := by
  have hagree (decode : Decoder) (hfs : WellFormed decode fs) (f : Frame) (hf : f ∈ fs) :
      ReadMethod.cpu.decode z device srcCapacity f.raw.length f.stream = some f.raw ↔
        ReadMethod.doca.decode z device srcCapacity f.raw.length f.stream = some f.raw := by
    have hmem : f.stream ∈ payloads (packObject z.checksum fs) := by
      rw [payloads_packObject hfs]
      exact List.mem_map_of_mem hf
    obtain ⟨hsrc, x, hstream⟩ := hpayloads f.stream hmem
    exact decode_cpu_iff_doca hz hstream hsrc (hfs.frames f hf).raw_pos (hfs.frames f hf).raw_le
  constructor
  · intro hfs
    exact hfs.of_decode fun f hf => (hagree _ hfs f hf).mp (hfs.frames f hf).decode_eq
  · intro hfs
    exact hfs.of_decode fun f hf => (hagree _ hfs f hf).mpr (hfs.frames f hf).decode_eq

/-- Only the bytes that `rados_read` returns matter. -/
theorem readNext_of_radosRead {method : ReadMethod} {object : List UInt8}
    (h : radosRead pool (objectName pfx index) readCapacity = some object)
    (r : Reader srcCapacity) :
    readNext z device method pool pfx readCapacity index r =
      readNext z device method (onlyObject object) pfx object.length index r := by
  have hwhole : radosRead (onlyObject object) (objectName pfx index) object.length =
      some object := by
    rw [radosRead, onlyObject, Option.map_some, List.take_length]
  rw [readNext, readNext, h, hwhole]

/-- The frames of an object that one pass accepts. -/
theorem exists_frames_of_readNext {method : ReadMethod} {object : List UInt8}
    {r s : Reader srcCapacity}
    (h : radosRead pool (objectName pfx index) readCapacity = some object)
    (hread : readNext z device method pool pfx readCapacity index r = .ok s) :
    ∃ fs, WellFormed (method.decode z device srcCapacity) fs ∧
      object = packObject z.checksum fs := by
  have hpool : onlyObject object (objectName pfx index) = some object := rfl
  rw [readNext_of_radosRead h] at hread
  exact (readNext_inv hpool (Nat.le_refl _) hread).2

/-- One pass over an object of well-formed frames. -/
theorem readNext_delivered_frames {method : ReadMethod} {object : List UInt8} {fs : List Frame}
    (h : radosRead pool (objectName pfx index) readCapacity = some object)
    (hfs : WellFormed (method.decode z device srcCapacity) fs) (hmethod : method ≠ .unknown)
    (hobject : object = packObject z.checksum fs) (r : Reader srcCapacity) :
    ∃ s, readNext z device method pool pfx readCapacity index r = .ok s ∧
      Delivered r s (framesRaw fs) (UInt64.ofNat (streamTotal fs)) := by
  have hpool : onlyObject (packObject z.checksum fs) (objectName pfx index) =
      some (packObject z.checksum fs) := rfl
  rw [readNext_of_radosRead h, hobject]
  obtain ⟨s, hread, hout, hdelivered, hresult⟩ :=
    readNext_packObject hfs hmethod hpool (Nat.le_refl _) r
  exact ⟨s, hread, hout, hdelivered, hresult⟩

/-- The two methods accept the same objects, with the same output and the same
counters. -/
theorem readNext_cpu_iff_doca (hz : Inflates z device inflate)
    (hpayloads : ∀ object, radosRead pool (objectName pfx index) readCapacity = some object →
      CompletePayloads inflate (z.compressBound FRAME_BYTES) object)
    (r₁ r₂ : Reader (z.compressBound FRAME_BYTES)) :
    ((∃ s₁, readNext z device .cpu pool pfx readCapacity index r₁ = .ok s₁) ↔
        ∃ s₂, readNext z device .doca pool pfx readCapacity index r₂ = .ok s₂) ∧
      ∀ s₁ s₂, readNext z device .cpu pool pfx readCapacity index r₁ = .ok s₁ →
        readNext z device .doca pool pfx readCapacity index r₂ = .ok s₂ →
        ∃ raw compressedSize, Delivered r₁ s₁ raw compressedSize ∧
          Delivered r₂ s₂ raw compressedSize := by
  cases hrados : radosRead pool (objectName pfx index) readCapacity with
  | none =>
    have hfails (method : ReadMethod) (r s : Reader (z.compressBound FRAME_BYTES)) :
        ¬ readNext z device method pool pfx readCapacity index r = .ok s := by
      intro hread
      rw [readNext, hrados] at hread
      cases hread
    refine ⟨⟨?_, ?_⟩, ?_⟩
    · rintro ⟨s, hread⟩
      exact absurd hread (hfails .cpu r₁ s)
    · rintro ⟨s, hread⟩
      exact absurd hread (hfails .doca r₂ s)
    · intro s₁ s₂ hread
      exact absurd hread (hfails .cpu r₁ s₁)
  | some object =>
    have hcomplete := hpayloads object hrados
    refine ⟨⟨?_, ?_⟩, ?_⟩
    · rintro ⟨s₁, hread⟩
      obtain ⟨fs, hfs, rfl⟩ := exists_frames_of_readNext hrados hread
      have hfs' := (wellFormed_cpu_iff_doca hz hcomplete).mp hfs
      obtain ⟨s₂, hread₂, -⟩ := readNext_delivered_frames hrados hfs' (by decide) rfl r₂
      exact ⟨s₂, hread₂⟩
    · rintro ⟨s₂, hread⟩
      obtain ⟨fs, hfs, rfl⟩ := exists_frames_of_readNext hrados hread
      have hfs' := (wellFormed_cpu_iff_doca hz hcomplete).mpr hfs
      obtain ⟨s₁, hread₁, -⟩ := readNext_delivered_frames hrados hfs' (by decide) rfl r₁
      exact ⟨s₁, hread₁⟩
    · intro s₁ s₂ hread₁ hread₂
      obtain ⟨fs, hfs, rfl⟩ := exists_frames_of_readNext hrados hread₁
      have hfs' := (wellFormed_cpu_iff_doca hz hcomplete).mp hfs
      obtain ⟨t₁, hcpu, ht₁⟩ := readNext_delivered_frames hrados hfs (by decide) rfl r₁
      obtain ⟨t₂, hdoca, ht₂⟩ := readNext_delivered_frames hrados hfs' (by decide) rfl r₂
      rw [hread₁] at hcpu
      rw [hread₂] at hdoca
      cases hcpu
      cases hdoca
      exact ⟨framesRaw fs, _, ht₁, ht₂⟩

end

/-! ## An instance -/

/-- `storedDecode` taken for the meaning of deflate. -/
theorem storedZlib_inflates : Inflates storedZlib storedInflater storedDecode where
  uncompress_eq := by
    intro x stream destLen h _
    show (storedDecode (deflateBody stream)).bind (fitting destLen) = _
    rw [h.inflate_deflateBody]
    rfl
  inflate_eq := by
    intro x body h
    show (storedDecode body).bind (fitting FRAME_BYTES) = _
    rw [h]
    rfl

theorem completePayloads_objectOfA :
    CompletePayloads storedDecode (storedZlib.compressBound FRAME_BYTES) objectOfA := by
  have hpayloads : payloads objectOfA = [storedStream [0x61]] := by decide
  intro payload hmem
  rw [hpayloads, List.mem_singleton] at hmem
  rw [hmem]
  exact ⟨by decide, [0x61], 0x78, 0x9c, storedBody [0x61], by decide, by decide, by decide⟩

/-- The object of the one byte `a`. -/
theorem readNext_cpu_iff_doca_a :
    ((∃ s, readNext storedZlib storedInflater .cpu poolOfA [0x70] (objectCapacity storedZlib) 0
          ⟨.zeroed OBJECT_BYTES, .init (storedZlib.compressBound FRAME_BYTES), .zero, []⟩ =
            .ok s) ↔
        ∃ s, readNext storedZlib storedInflater .doca poolOfA [0x70] (objectCapacity storedZlib) 0
          ⟨.zeroed OBJECT_BYTES, .init (storedZlib.compressBound FRAME_BYTES), .zero, []⟩ =
            .ok s) := by
  have hpayloads : ∀ object,
      radosRead poolOfA (objectName [0x70] 0) (objectCapacity storedZlib) = some object →
      CompletePayloads storedDecode (storedZlib.compressBound FRAME_BYTES) object := by
    intro object hobject
    have hread : radosRead poolOfA (objectName [0x70] 0) (objectCapacity storedZlib) =
        some objectOfA := by
      rw [radosRead, poolOfA, Option.map_some, List.take_of_length_le (by decide)]
    rw [hread] at hobject
    cases hobject
    exact completePayloads_objectOfA
  exact (readNext_cpu_iff_doca storedZlib_inflates hpayloads _ _).1

end DpuTest.ReadBench
