import DpuTest.Lib.Buffer
import DpuTest.Lib.LittleEndian

/-!
# The stored format

`ceph_doca_read_bench.c` stores a raw object of at most `OBJECT_BYTES` as one
RADOS object: an `object_header`, and then for each frame of at most
`FRAME_BYTES` a `frame_header` and a zlib stream.  A dataset has one more
object, its `manifest`.  The three records are packed C structs on a
little-endian host, so their bytes are the bytes of the fields in order.

`packObject` is the stored format itself: the bytes of an object as a function
of its frames, without offsets and buffers.  The writers are shown to produce
it and the readers to accept it.
-/

namespace DpuTest.ReadBench

open Lib

def OBJECT_BYTES : Nat := 4 * 1024 * 1024
def FRAME_BYTES : Nat := 1 * 1024 * 1024
def MAX_FRAMES : Nat := OBJECT_BYTES / FRAME_BYTES
/-- The bytes `CDBO`. -/
def OBJECT_MAGIC : UInt32 := 0x4344424f
/-- The bytes `CDBM`. -/
def MANIFEST_MAGIC : UInt32 := 0x4344424d
def FORMAT_VERSION : UInt32 := 2
def MAX_PREFIX : Nat := 64

theorem FRAME_BYTES_pos : 0 < FRAME_BYTES := by decide

theorem OBJECT_BYTES_eq : OBJECT_BYTES = MAX_FRAMES * FRAME_BYTES := by decide

theorem OBJECT_BYTES_pos : 0 < OBJECT_BYTES := by decide

/-! ## The packed records -/

/-- `struct object_header`. -/
structure ObjectHeader where
  magic : UInt32
  version : UInt32
  rawSize : UInt64
  compressedSize : UInt64
  rawCrc32 : UInt32
  frameCount : UInt32
  deriving DecidableEq

/-- `struct frame_header`. -/
structure FrameHeader where
  rawSize : UInt32
  compressedSize : UInt32
  deriving DecidableEq

/-- `struct manifest`.  `pfx` is the array `char prefix[MAX_PREFIX]`. -/
structure Manifest where
  magic : UInt32
  version : UInt32
  objectSize : UInt64
  objectCount : UInt64
  totalRawSize : UInt64
  totalCompressedSize : UInt64
  pfx : List UInt8
  deriving DecidableEq

def objectHeaderSize : Nat := 32
def frameHeaderSize : Nat := 8
def manifestSize : Nat := 104

def ObjectHeader.bytes (h : ObjectHeader) : List UInt8 :=
  encodeU32 h.magic ++ (encodeU32 h.version ++ (encodeU64 h.rawSize ++
    (encodeU64 h.compressedSize ++ (encodeU32 h.rawCrc32 ++ encodeU32 h.frameCount))))

def ObjectHeader.ofBytes (bs : List UInt8) : ObjectHeader where
  magic := decodeU32 (slice bs 0 4)
  version := decodeU32 (slice bs 4 4)
  rawSize := decodeU64 (slice bs 8 8)
  compressedSize := decodeU64 (slice bs 16 8)
  rawCrc32 := decodeU32 (slice bs 24 4)
  frameCount := decodeU32 (slice bs 28 4)

def FrameHeader.bytes (h : FrameHeader) : List UInt8 :=
  encodeU32 h.rawSize ++ encodeU32 h.compressedSize

def FrameHeader.ofBytes (bs : List UInt8) : FrameHeader where
  rawSize := decodeU32 (slice bs 0 4)
  compressedSize := decodeU32 (slice bs 4 4)

def Manifest.bytes (m : Manifest) : List UInt8 :=
  encodeU32 m.magic ++ (encodeU32 m.version ++ (encodeU64 m.objectSize ++
    (encodeU64 m.objectCount ++ (encodeU64 m.totalRawSize ++
      (encodeU64 m.totalCompressedSize ++ m.pfx)))))

def Manifest.ofBytes (bs : List UInt8) : Manifest where
  magic := decodeU32 (slice bs 0 4)
  version := decodeU32 (slice bs 4 4)
  objectSize := decodeU64 (slice bs 8 8)
  objectCount := decodeU64 (slice bs 16 8)
  totalRawSize := decodeU64 (slice bs 24 8)
  totalCompressedSize := decodeU64 (slice bs 32 8)
  pfx := slice bs 40 MAX_PREFIX

@[simp] theorem ObjectHeader.length_bytes (h : ObjectHeader) :
    h.bytes.length = objectHeaderSize := by
  simp [ObjectHeader.bytes, objectHeaderSize]

@[simp] theorem FrameHeader.length_bytes (h : FrameHeader) :
    h.bytes.length = frameHeaderSize := by
  simp [FrameHeader.bytes, frameHeaderSize]

theorem Manifest.length_bytes (m : Manifest) (hp : m.pfx.length = MAX_PREFIX) :
    m.bytes.length = manifestSize := by
  simp [Manifest.bytes, hp, manifestSize, MAX_PREFIX]

@[simp] theorem ObjectHeader.ofBytes_bytes (h : ObjectHeader) :
    ObjectHeader.ofBytes h.bytes = h := by
  simp [ObjectHeader.ofBytes, ObjectHeader.bytes, slice_append_right, slice_head,
    slice_whole]

@[simp] theorem FrameHeader.ofBytes_bytes (h : FrameHeader) :
    FrameHeader.ofBytes h.bytes = h := by
  simp [FrameHeader.ofBytes, FrameHeader.bytes, slice_append_right, slice_head,
    slice_whole]

theorem Manifest.ofBytes_bytes (m : Manifest) (hp : m.pfx.length = MAX_PREFIX) :
    Manifest.ofBytes m.bytes = m := by
  simp [Manifest.ofBytes, Manifest.bytes, slice_append_right, slice_head,
    slice_whole, hp]

/-- Eight bytes are the header that they spell. -/
theorem FrameHeader.bytes_ofBytes {bs : List UInt8} (h : bs.length = frameHeaderSize) :
    (FrameHeader.ofBytes bs).bytes = bs := by
  unfold frameHeaderSize at h
  have hwhole := slice_add bs 0 4 4
  rw [slice_whole h] at hwhole
  rw [FrameHeader.bytes, FrameHeader.ofBytes, encodeU32_decodeU32 (length_slice (by omega)),
    encodeU32_decodeU32 (length_slice (by omega))]
  exact hwhole.symm

/-- Thirty-two bytes are the header that they spell. -/
theorem ObjectHeader.bytes_ofBytes {bs : List UInt8} (h : bs.length = objectHeaderSize) :
    (ObjectHeader.ofBytes bs).bytes = bs := by
  unfold objectHeaderSize at h
  have hwhole : bs = slice bs 0 4 ++ (slice bs 4 4 ++ (slice bs 8 8 ++ (slice bs 16 8 ++
      (slice bs 24 4 ++ slice bs 28 4)))) := by
    rw [← slice_add bs 24 4 4, ← slice_add bs 16 8 8, ← slice_add bs 8 8 16,
      ← slice_add bs 4 4 24, ← slice_add bs 0 4 28, slice_whole h]
  rw [ObjectHeader.bytes, ObjectHeader.ofBytes, encodeU32_decodeU32 (length_slice (by omega)),
    encodeU32_decodeU32 (length_slice (by omega)), encodeU64_decodeU64 (length_slice (by omega)),
    encodeU64_decodeU64 (length_slice (by omega)), encodeU32_decodeU32 (length_slice (by omega)),
    encodeU32_decodeU32 (length_slice (by omega))]
  exact hwhole.symm

/-! ## The bytes of an object -/

/-- A frame: its raw bytes and their zlib stream. -/
structure Frame where
  raw : List UInt8
  stream : List UInt8

/-- The header that belongs to a frame. -/
def Frame.header (f : Frame) : FrameHeader where
  rawSize := UInt32.ofNat f.raw.length
  compressedSize := UInt32.ofNat f.stream.length

/-- The frames behind the object header. -/
def packFrames : List Frame → List UInt8
  | [] => []
  | f :: fs => f.header.bytes ++ (f.stream ++ packFrames fs)

/-- The bytes that the frames decompress to. -/
def framesRaw (fs : List Frame) : List UInt8 := (fs.map Frame.raw).flatten

/-- The sum of the stream lengths. -/
def streamTotal (fs : List Frame) : Nat := (fs.map (fun f => f.stream.length)).sum

/-- The object header of a list of frames. -/
def frameListHeader (crc32 : List UInt8 → UInt32) (fs : List Frame) : ObjectHeader where
  magic := OBJECT_MAGIC
  version := FORMAT_VERSION
  rawSize := UInt64.ofNat (framesRaw fs).length
  compressedSize := UInt64.ofNat (streamTotal fs)
  rawCrc32 := crc32 (framesRaw fs)
  frameCount := UInt32.ofNat fs.length

/-- The bytes of an object. -/
def packObject (crc32 : List UInt8 → UInt32) (fs : List Frame) : List UInt8 :=
  (frameListHeader crc32 fs).bytes ++ packFrames fs

theorem length_packFrames (fs : List Frame) :
    (packFrames fs).length = fs.length * frameHeaderSize + streamTotal fs := by
  induction fs with
  | nil => rfl
  | cons f fs ih =>
    simp only [packFrames, List.length_append, FrameHeader.length_bytes, ih, streamTotal,
      List.map_cons, List.sum_cons, List.length_cons]
    ring

theorem packFrames_append (fs gs : List Frame) :
    packFrames (fs ++ gs) = packFrames fs ++ packFrames gs := by
  induction fs with
  | nil => rfl
  | cons f fs ih => simp only [List.cons_append, packFrames, ih, List.append_assoc]

theorem streamTotal_append (fs gs : List Frame) :
    streamTotal (fs ++ gs) = streamTotal fs + streamTotal gs := by
  simp [streamTotal]

theorem framesRaw_append (fs gs : List Frame) :
    framesRaw (fs ++ gs) = framesRaw fs ++ framesRaw gs := by
  simp [framesRaw]

/-- A bound on every stream bounds the frames. -/
theorem length_packFrames_le {fs : List Frame} {bound : Nat}
    (h : ∀ f ∈ fs, f.stream.length ≤ bound) :
    (packFrames fs).length ≤ fs.length * (frameHeaderSize + bound) := by
  induction fs with
  | nil => exact Nat.zero_le _
  | cons f fs ih =>
    have hf := h f List.mem_cons_self
    have hrest := ih (fun g hg => h g (List.mem_cons_of_mem _ hg))
    rw [packFrames, List.length_append, List.length_append, FrameHeader.length_bytes,
      List.length_cons, Nat.add_mul, Nat.one_mul]
    omega

end DpuTest.ReadBench
