import DpuTest.ReadBench.DocaDecompress
import DpuTest.ReadBench.WellFormed

/-!
# A library that keeps the laws

The results about the stored format assume `Zlib.RoundTrip` and
`Zlib.Crc32Append`.  `storedZlib` and `storedInflater` keep both, so the
assumptions can be met.  The checksum is CRC-32, and the byte `a` is compressed
the way zlib does it; every other input is stored behind a marker.
-/

namespace DpuTest.ReadBench

open Lib

/-! ## CRC-32 -/

def crcBit (crc : UInt32) : UInt32 :=
  if crc &&& 1 = 1 then (crc >>> 1) ^^^ 0xedb88320 else crc >>> 1

def crcByte (crc : UInt32) (byte : UInt8) : UInt32 :=
  Nat.iterate crcBit 8 (crc ^^^ byte.toUInt32)

def crc32 (crc : UInt32) (bytes : List UInt8) : UInt32 :=
  ~~~ (bytes.foldl crcByte (~~~ crc))

theorem crc32_append (crc : UInt32) (x y : List UInt8) :
    crc32 (crc32 crc x) y = crc32 crc (x ++ y) := by
  rw [crc32, crc32, crc32, UInt32.not_not, List.foldl_append]

/-! ## Streams -/

/-- The deflate body of `a`, and a marked copy of anything else. -/
def storedBody (x : List UInt8) : List UInt8 :=
  if x = [0x61] then [0x4b, 0x04, 0x00] else 0x01 :: x

def storedTrailer (x : List UInt8) : List UInt8 :=
  if x = [0x61] then [0x00, 0x62, 0x00, 0x62] else [0, 0, 0, 0]

def storedStream (x : List UInt8) : List UInt8 := [0x78, 0x9c] ++ storedBody x ++ storedTrailer x

def storedDecode (body : List UInt8) : Option (List UInt8) :=
  match body with
  | 0x01 :: x => some x
  | _ => if body = [0x4b, 0x04, 0x00] then some [0x61] else none

def storedBound (n : Nat) : Nat := n + n / 2 ^ 12 + n / 2 ^ 14 + n / 2 ^ 25 + 13

/-- Anything that does not fit is refused. -/
def fitting (n : Nat) (x : List UInt8) : Option (List UInt8) :=
  if x.length ≤ n then some x else none

def storedZlib : Zlib where
  compressBound := storedBound
  compress2 destLen x _ := fitting destLen (storedStream x)
  uncompress destLen stream := (storedDecode (deflateBody stream)).bind (fitting destLen)
  crc32 := crc32

theorem fitting_eq_some {n : Nat} {x y : List UInt8} (h : fitting n x = some y) :
    y.length ≤ n := by
  unfold fitting at h
  split at h
  · cases h
    assumption
  · cases h

def storedInflater : Inflater where
  inflate body := (storedDecode body).bind (fitting FRAME_BYTES)
  length_le h := by
    obtain ⟨x, -, hx⟩ := Option.bind_eq_some_iff.mp h
    exact fitting_eq_some hx

theorem storedDecode_storedBody (x : List UInt8) : storedDecode (storedBody x) = some x := by
  unfold storedBody
  split
  · rename_i h
    rw [h]
    decide
  · rfl

theorem length_storedTrailer (x : List UInt8) :
    (storedTrailer x).length = ZLIB_TRAILER_SIZE := by
  unfold storedTrailer
  split <;> rfl

theorem deflateBody_storedStream (x : List UInt8) : deflateBody (storedStream x) = storedBody x := by
  have hlen := length_storedTrailer x
  refine slice_append_middle _ _ _ rfl ?_
  rw [storedStream, List.length_append, List.length_append, hlen]
  unfold ZLIB_COMPATIBILITY_ADDITIONAL_MEMORY ZLIB_HEADER_SIZE
  simp
  omega

theorem length_storedStream (x : List UInt8) :
    ZLIB_COMPATIBILITY_ADDITIONAL_MEMORY ≤ (storedStream x).length ∧
      (storedStream x).length ≤ storedBound x.length := by
  have hlen := length_storedTrailer x
  have hbody : (storedBody x).length ≤ x.length + 2 := by
    unfold storedBody
    split
    · rename_i h
      rw [h]
      decide
    · simp
  unfold storedStream storedBound ZLIB_COMPATIBILITY_ADDITIONAL_MEMORY
  rw [List.length_append, List.length_append, hlen]
  unfold ZLIB_HEADER_SIZE ZLIB_TRAILER_SIZE
  simp
  omega

theorem storedBound_mono {m n : Nat} (h : m ≤ n) : storedBound m ≤ storedBound n := by
  have h12 := Nat.div_le_div_right (c := 2 ^ 12) h
  have h14 := Nat.div_le_div_right (c := 2 ^ 14) h
  have h25 := Nat.div_le_div_right (c := 2 ^ 25) h
  unfold storedBound
  omega

/-- Every frame is encoded as its stored stream. -/
theorem storedZlib_encodes : storedZlib.Encodes fun x stream => stream = storedStream x where
  compressBound_mono := storedBound_mono
  compressBound_frame_pos := by decide
  compressBound_frame_lt := by decide
  compress2_ok x destLen hx hdest := by
    have hmax := (length_storedStream x).2
    exact ⟨storedStream x, if_pos (Nat.le_trans hmax hdest),
      Nat.le_trans hmax (storedBound_mono hx), rfl⟩

/-- Both decoders undo it. -/
theorem storedStream_decodes {x : List UInt8} (hx : x.length ≤ FRAME_BYTES) :
    Decodes storedZlib storedInflater x (storedStream x) where
  min_length := (length_storedStream x).1
  uncompress_eq n hn := by
    show (storedDecode (deflateBody (storedStream x))).bind (fitting n) = some x
    rw [deflateBody_storedStream, storedDecode_storedBody]
    exact if_pos hn
  inflate_eq := by
    show (storedDecode (deflateBody (storedStream x))).bind (fitting FRAME_BYTES) = some x
    rw [deflateBody_storedStream, storedDecode_storedBody]
    exact if_pos hx

theorem storedZlib_roundTrip : storedZlib.RoundTrip storedInflater :=
  storedZlib_encodes.imp fun x stream hx hstream => by
    rw [hstream]
    exact storedStream_decodes hx

theorem storedZlib_crc32Append : storedZlib.Crc32Append := crc32_append

/-! ## An object -/

/-- The object of the one byte `a`. -/
def objectOfA : List UInt8 :=
  [0x4f, 0x42, 0x44, 0x43, 2, 0, 0, 0, 1, 0, 0, 0, 0, 0, 0, 0, 9, 0, 0, 0, 0, 0, 0, 0,
    0x43, 0xbe, 0xb7, 0xe8, 1, 0, 0, 0, 1, 0, 0, 0, 9, 0, 0, 0,
    0x78, 0x9c, 0x4b, 0x04, 0x00, 0x00, 0x62, 0x00, 0x62]

/-- The one frame of the object of `a`. -/
def frameOfA : Frame where
  raw := [0x61]
  stream := storedStream [0x61]

theorem wellFormed_frameOfA :
    WellFormed (docaDecoder storedInflater (storedZlib.compressBound FRAME_BYTES)) [frameOfA] where
  ne_nil := List.cons_ne_nil _ _
  length_le := by decide
  raw_le := by decide
  frames f hf := by
    rw [List.mem_singleton.mp hf]
    exact ⟨by decide, by decide, by decide, by decide, by decide⟩

theorem packObject_frameOfA : packObject storedZlib.checksum [frameOfA] = objectOfA := by
  decide

/-- That object under every name. -/
def poolOfA : Pool := fun _ => some objectOfA

end DpuTest.ReadBench
