import DpuTest.ReadBench.WriteChunk

/-!
# Writing a dataset

`write_compressed_dataset` and `write_raw_dataset` read the files of a dataset
one after the other into a buffer of `OBJECT_BYTES`, and send the buffer to the
pool whenever it is full.  What is left at the end is one more object.  The
manifest comes last, and only if everything before it succeeded.

The two programs differ in how an object is sent, so the loops take that as a
`Sink`.  `writeObjects_spec` says what a sink has been sent: the `OBJECT_BYTES`
blocks of the content of the files, whatever way `read` has split it, and after
a failure the first few of them.
-/

namespace DpuTest.ReadBench

open Lib

/-! ## Files -/

/-- How a call of `read` ends. -/
inductive ReadEvent where
  /-- At most `n + 1` bytes. -/
  | short (n : Nat)
  /-- -1 with `EINTR`. -/
  | interrupted
  /-- -1 with another error. -/
  | failed

/-- A file of the list: whether `open` succeeds, what it holds, and how the
calls of `read` will end.  Once the events are used up, a call returns all that
was asked for. -/
structure LogFile where
  canOpen : Bool
  content : List UInt8
  events : List ReadEvent

/-- An open file: what is left to read. -/
structure OpenFile where
  rest : List UInt8
  events : List ReadEvent

inductive ReadResult where
  | bytes (bs : List UInt8)
  | interrupted
  | failed

/-- `read(fd, buf, count)`.  No bytes means the end of the file. -/
def OpenFile.read (f : OpenFile) (count : Nat) : ReadResult × OpenFile :=
  match f.events with
  | [] => (.bytes (f.rest.take count), { rest := f.rest.drop count, events := [] })
  | .short n :: events =>
    (.bytes (f.rest.take (min (n + 1) count)),
      { rest := f.rest.drop (min (n + 1) count), events := events })
  | .interrupted :: events => (.interrupted, { f with events := events })
  | .failed :: events => (.failed, { f with events := events })

/-- A measure of the calls to come. -/
def OpenFile.size (f : OpenFile) : Nat := f.rest.length + f.events.length

theorem OpenFile.read_bytes {f f' : OpenFile} {count : Nat} {bs : List UInt8}
    (h : f.read count = (.bytes bs, f')) :
    f.rest = bs ++ f'.rest ∧ bs.length ≤ count ∧ f'.events.length ≤ f.events.length ∧
      (bs = [] → 0 < count → f.rest = []) := by
  have htake (n : Nat) (hn : n ≤ count) (hpos : 0 < count → 0 < n) :
      f.rest = f.rest.take n ++ f.rest.drop n ∧ (f.rest.take n).length ≤ count ∧
        (f.rest.take n = [] → 0 < count → f.rest = []) := by
    refine ⟨(List.take_append_drop _ _).symm, ?_, ?_⟩
    · rw [List.length_take]
      omega
    · intro hnil hcount
      rcases List.take_eq_nil_iff.mp hnil with h0 | h0
      · exact absurd h0 (Nat.ne_of_gt (hpos hcount))
      · exact h0
  unfold read at h
  split at h
  · cases h
    obtain ⟨heq, hlen, hnil⟩ := htake count (Nat.le_refl _) id
    exact ⟨heq, hlen, Nat.zero_le _, hnil⟩
  · rename_i n events hevents
    cases h
    obtain ⟨heq, hlen, hnil⟩ := htake (min (n + 1) count) (Nat.min_le_right _ _) (by omega)
    exact ⟨heq, hlen, by rw [hevents]; exact Nat.le_succ _, hnil⟩
  · cases h
  · cases h

theorem OpenFile.read_interrupted {f f' : OpenFile} {count : Nat}
    (h : f.read count = (.interrupted, f')) :
    f'.rest = f.rest ∧ f'.events.length < f.events.length := by
  unfold read at h
  split at h
  · cases h
  · cases h
  · rename_i events hevents
    cases h
    exact ⟨rfl, by rw [hevents]; exact Nat.lt_succ_self _⟩
  · cases h

/-! ## The loops -/

/-- How a writer sends the object with an index: whether it succeeded. -/
abbrev Sink (S : Type) := UInt64 → List UInt8 → S → Bool × S

/-- The local variables of a writer.  `fill` is the part `raw[0..fill)` of the
buffer. -/
structure WriterState (S : Type) where
  sink : S
  fill : List UInt8
  objectCount : UInt64
  totalRaw : UInt64

/-- The bytes that a call of `read` has put into the buffer. -/
def WriterState.push {S : Type} (s : WriterState S) (bs : List UInt8) : WriterState S :=
  { s with fill := s.fill ++ bs, totalRaw := s.totalRaw + UInt64.ofNat bs.length }

section

variable {S : Type} (write : Sink S)

/-- The buffer goes out as the next object. -/
def WriterState.send (s : WriterState S) : Bool × WriterState S :=
  match write s.objectCount s.fill s.sink with
  | (false, sink) => (false, { s with sink := sink })
  | (true, sink) => (true, { s with sink := sink, objectCount := s.objectCount + 1 })

/-- The `read` loop over one file: whether `status` is still `EXIT_SUCCESS`. -/
def readLoop (file : OpenFile) (s : WriterState S) : Bool × WriterState S :=
  match _hread : file.read (OBJECT_BYTES - s.fill.length) with
  | (.failed, _) => (false, s)
  | (.interrupted, file') => readLoop file' s
  | (.bytes bs, file') =>
    if _hbs : bs = [] then (true, s)
    else if (s.push bs).fill.length = OBJECT_BYTES then
      match (s.push bs).send write with
      | (false, s) => (false, s)
      | (true, s) => readLoop file' { s with fill := [] }
    else readLoop file' (s.push bs)
  termination_by file.size
  decreasing_by
    · obtain ⟨hrest, hevents⟩ := OpenFile.read_interrupted _hread
      unfold OpenFile.size
      rw [hrest]
      omega
    all_goals
      obtain ⟨hrest, -, hevents, -⟩ := OpenFile.read_bytes _hread
      have hpos : 0 < bs.length := List.length_pos_iff.mpr _hbs
      unfold OpenFile.size
      rw [hrest, List.length_append]
      omega

/-- One call of `read` and what follows it. -/
theorem readLoop_eq (file : OpenFile) (s : WriterState S) :
    readLoop write file s =
      match file.read (OBJECT_BYTES - s.fill.length) with
      | (.failed, _) => (false, s)
      | (.interrupted, file') => readLoop write file' s
      | (.bytes bs, file') =>
        if bs = [] then (true, s)
        else if (s.push bs).fill.length = OBJECT_BYTES then
          match (s.push bs).send write with
          | (false, s) => (false, s)
          | (true, s) => readLoop write file' { s with fill := [] }
        else readLoop write file' (s.push bs) := by
  rw [readLoop]
  split
  · rename_i h
    rw [h]
  · rename_i h
    rw [h]
  · rename_i h
    rw [h]
    simp only [dite_eq_ite]

/-- The loop over the files. -/
def fileLoop : List LogFile → WriterState S → Bool × WriterState S
  | [], s => (true, s)
  | f :: fs, s =>
    if f.canOpen then
      match readLoop write { rest := f.content, events := f.events } s with
      | (false, s) => (false, s)
      | (true, s) => fileLoop fs s
    else (false, s)

/-- The files, and then what is left in the buffer. -/
def writeObjects (files : List LogFile) (s : WriterState S) : Bool × WriterState S :=
  match fileLoop write files s with
  | (false, s) => (false, s)
  | (true, s) =>
    if s.fill = [] then (true, s) else s.send write

end

/-! ## The two programs -/

/-- What a run leaves: `status`, the number of objects it has written, and the
pool. -/
structure WriteResult where
  status : Bool
  objectCount : UInt64
  rados : Rados

/-- The manifest that a run writes last. -/
def newManifest (pfx : List UInt8) (objectCount totalRaw totalCompressed : UInt64) : Manifest where
  magic := MANIFEST_MAGIC
  version := FORMAT_VERSION
  objectSize := UInt64.ofNat OBJECT_BYTES
  objectCount := objectCount
  totalRawSize := totalRaw
  totalCompressedSize := totalCompressed
  pfx := prefixArray pfx

def writeManifest (rados : Rados) (pfx : List UInt8)
    (objectCount totalRaw totalCompressed : UInt64) : WriteResult :=
  let manifest := newManifest pfx objectCount totalRaw totalCompressed
  match radosWriteFull rados (manifestName pfx) manifest.bytes with
  | (status, rados) => { status := status, objectCount := objectCount, rados := rados }

/-- What `write_chunk` changes: the pool, `object_buffer`, `*compressed_total`. -/
structure ChunkSink (capacity : Nat) where
  rados : Rados
  objectBuffer : Buffer UInt8 capacity
  compressedTotal : UInt64

def ChunkSink.pool {capacity : Nat} (s : ChunkSink capacity) : Pool := s.rados.pool

def chunkSink (z : Zlib) (pfx : List UInt8) {capacity : Nat} : Sink (ChunkSink capacity) :=
  fun index raw s =>
    match writeChunk z index raw s.rados pfx s.objectBuffer s.compressedTotal with
    | (rados, .error _) => (false, { s with rados := rados })
    | (rados, .ok (objectBuffer, compressedTotal)) =>
      (true, { rados := rados, objectBuffer := objectBuffer, compressedTotal := compressedTotal })

/-- `write_compressed_dataset`, with what `malloc` left in `object_buffer`.  An
empty list is what `build_file_list` refuses. -/
def writeCompressedDataset (z : Zlib) (memory : Buffer UInt8 (objectCapacity z)) (rados : Rados)
    (pfx : List UInt8) (files : List LogFile) : WriteResult :=
  if files = [] then { status := false, objectCount := 0, rados := rados }
  else
    match writeObjects (chunkSink z pfx) files
        { sink := { rados := rados, objectBuffer := memory, compressedTotal := 0 }
          fill := [], objectCount := 0, totalRaw := 0 } with
    | (false, s) => { status := false, objectCount := s.objectCount, rados := s.sink.rados }
    | (true, s) =>
      writeManifest s.sink.rados pfx s.objectCount s.totalRaw s.sink.compressedTotal

def rawSink (pfx : List UInt8) : Sink Rados :=
  fun index raw rados => radosWriteFull rados (objectName pfx index) raw

/-- `write_raw_dataset`. -/
def writeRawDataset (rados : Rados) (pfx : List UInt8) (files : List LogFile) : WriteResult :=
  if files = [] then { status := false, objectCount := 0, rados := rados }
  else
    match writeObjects (rawSink pfx) files
        { sink := rados, fill := [], objectCount := 0, totalRaw := 0 } with
    | (false, s) => { status := false, objectCount := s.objectCount, rados := s.sink }
    | (true, s) => writeManifest s.sink pfx s.objectCount s.totalRaw s.totalRaw

end DpuTest.ReadBench
