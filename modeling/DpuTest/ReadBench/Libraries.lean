import DpuTest.ReadBench.Format
import Mathlib.Logic.Function.Basic

/-!
# What the programs call: zlib, DOCA and RADOS

The three libraries are not part of the repository.  `Zlib` and `Inflater` are
parameters of every model that needs them, and the laws that a result relies on
are the fields of a structure: `Zlib.RoundTrip` for a stream that both
decompressors invert, `Zlib.Crc32Append` for the checksum.

A RADOS pool maps object names to bytes.  `rados_write_full` replaces an object
as a whole, or fails and leaves the pool alone; `Rados.outcomes` says which, one
entry for each call to come.
-/

namespace DpuTest.ReadBench

open Lib

/-! ## zlib -/

def Z_DEFAULT_COMPRESSION : Int := -1

/-- The zlib calls.  `none` is any return code other than `Z_OK`. -/
structure Zlib where
  compressBound : Nat → Nat
  /-- `compress2` with the capacity of the destination, the source and the level. -/
  compress2 : Nat → List UInt8 → Int → Option (List UInt8)
  /-- `uncompress` with the capacity of the destination and the source. -/
  uncompress : Nat → List UInt8 → Option (List UInt8)
  crc32 : UInt32 → List UInt8 → UInt32

/-- `crc32(0L, buf, len)`. -/
def Zlib.checksum (z : Zlib) (bytes : List UInt8) : UInt32 := z.crc32 0 bytes

/-- The size of `object_buffer` and of `read_buffer`. -/
def objectCapacity (z : Zlib) : Nat :=
  objectHeaderSize + MAX_FRAMES * (frameHeaderSize + z.compressBound FRAME_BYTES)

def ZLIB_HEADER_SIZE : Nat := 2
def ZLIB_TRAILER_SIZE : Nat := 4
def ZLIB_COMPATIBILITY_ADDITIONAL_MEMORY : Nat := ZLIB_HEADER_SIZE + ZLIB_TRAILER_SIZE

/-- A zlib stream without its header and trailer. -/
def deflateBody (stream : List UInt8) : List UInt8 :=
  slice stream ZLIB_HEADER_SIZE (stream.length - ZLIB_COMPATIBILITY_ADDITIONAL_MEMORY)

/-- The DOCA device: the bytes that it inflates a deflate body to, or `none`
when the task fails.  It ends every task that is submitted to it, and does not
write past its destination buffer, which holds a frame. -/
structure Inflater where
  inflate : List UInt8 → Option (List UInt8)
  length_le : ∀ {body output : List UInt8}, inflate body = some output →
    output.length ≤ FRAME_BYTES

/-- `compress2` encodes every frame, given `compressBound` bytes of room, as a
stream that `Good` accepts and that fits in `compressBound FRAME_BYTES`. -/
structure Zlib.Encodes (z : Zlib) (Good : List UInt8 → List UInt8 → Prop) : Prop where
  compressBound_mono : ∀ {m n : Nat}, m ≤ n → z.compressBound m ≤ z.compressBound n
  compressBound_frame_pos : 0 < z.compressBound FRAME_BYTES
  /-- The bound of a frame is a 32-bit number. -/
  compressBound_frame_lt : z.compressBound FRAME_BYTES < 2 ^ 32
  compress2_ok : ∀ (x : List UInt8) (destLen : Nat), x.length ≤ FRAME_BYTES →
    z.compressBound x.length ≤ destLen →
    ∃ stream, z.compress2 destLen x Z_DEFAULT_COMPRESSION = some stream ∧
      stream.length ≤ z.compressBound FRAME_BYTES ∧ Good x stream

theorem Zlib.Encodes.imp {z : Zlib} {Good Good' : List UInt8 → List UInt8 → Prop}
    (h : z.Encodes Good)
    (himp : ∀ x stream, x.length ≤ FRAME_BYTES → Good x stream → Good' x stream) :
    z.Encodes Good' where
  compressBound_mono := h.compressBound_mono
  compressBound_frame_pos := h.compressBound_frame_pos
  compressBound_frame_lt := h.compressBound_frame_lt
  compress2_ok x destLen hx hdest := by
    obtain ⟨stream, hok, hle, hgood⟩ := h.compress2_ok x destLen hx hdest
    exact ⟨stream, hok, hle, himp x stream hx hgood⟩

/-- `stream` is a zlib stream of `x`: `uncompress` gives `x` back wherever it
fits, and so does the device without the framing bytes. -/
structure Decodes (z : Zlib) (device : Inflater) (x stream : List UInt8) : Prop where
  min_length : ZLIB_COMPATIBILITY_ADDITIONAL_MEMORY ≤ stream.length
  uncompress_eq : ∀ destLen, x.length ≤ destLen → z.uncompress destLen stream = some x
  inflate_eq : device.inflate (deflateBody stream) = some x

/-- Compression can be undone, by zlib and by the device. -/
def Zlib.RoundTrip (z : Zlib) (device : Inflater) : Prop :=
  z.Encodes (Decodes z device)

/-- A checksum can be taken piece by piece. -/
def Zlib.Crc32Append (z : Zlib) : Prop :=
  ∀ (crc : UInt32) (x y : List UInt8), z.crc32 (z.crc32 crc x) y = z.crc32 crc (x ++ y)

/-! ## RADOS -/

/-- The objects of a pool by name. -/
abbrev Pool := List UInt8 → Option (List UInt8)

/-- A pool and how the next calls of `rados_write_full` end; once the list is
used up they succeed. -/
structure Rados where
  pool : Pool
  outcomes : List Bool

/-- `rados_write_full(ioctx, oid, data, len)`: whether it succeeded. -/
def radosWriteFull (rados : Rados) (oid data : List UInt8) : Bool × Rados :=
  match rados.outcomes with
  | false :: later => (false, { rados with outcomes := later })
  | _ => (true, { pool := Function.update rados.pool oid (some data),
                  outcomes := rados.outcomes.tail })

/-- `rados_read(ioctx, oid, buf, len, 0)`: the bytes read, or `none` for a
negative return code. -/
def radosRead (pool : Pool) (oid : List UInt8) (len : Nat) : Option (List UInt8) :=
  (pool oid).map (List.take len)

end DpuTest.ReadBench
