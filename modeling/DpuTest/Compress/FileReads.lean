import DpuTest.Lib.Buffer
import DpuTest.Lib.CInt

/-!
# The reads of the compress tests

The tests read a file in a loop, `_blob_size*_batch_size` bytes at a time, until
`read` returns 0.  A `ReadHistory` is what the calls of `read` return for one file:
some bytes a number of times, and then 0 at the end of the file, or -1 from some call
on.  `FileReads` are the histories of a file that is read to its end.

`padded` is what a piece is in the buffer, which is cleared before each read.
`flatten_padded_eq_iff` says when the padded pieces are the file.
-/

namespace DpuTest.Compress

open Lib

/-- The batch size and the blob size of the arguments of `main`, two values of an
`int`. -/
structure BenchSizes where
  batchSize : Nat
  blobSizeKB : Nat
  batchSize_pos : 0 < batchSize
  blobSizeKB_pos : 0 < blobSizeKB
  batchSize_lt : batchSize < 2 ^ 31
  blobSizeKB_lt : blobSizeKB < 2 ^ 31

namespace BenchSizes

variable (b : BenchSizes)

/-- `blob_size` -/
@[irreducible] def blobSize : Nat := b.blobSizeKB * 1024

/-- The size of `cpu_src_buffer_compress`, and of what is read at once. -/
def readSize : Nat := b.batchSize * b.blobSize

/-- The size of `src_buffer_decompress` and of `dst_buffer_decompress`. -/
def decompressSize : Nat := b.blobSize * b.batchSize * 2

/-- `max_bufs`, `blob_size` and the size of the two buffers, which
`initDecompressionResources` computes in this order as values of an `int`. -/
def decompressionSizes : Option (Int × Int × Int) := do
  let maxBufs ← mulInt b.batchSize 2
  let blobSize ← mulInt b.blobSizeKB 1024
  let readSize ← mulInt blobSize b.batchSize
  let decompressSize ← mulInt readSize 2
  return (maxBufs, blobSize, decompressSize)

/-- The sizes are values of an `int`. -/
def Fits : Prop := b.decompressSize < 2 ^ 31

theorem le_blobSize : 1024 ≤ b.blobSize := by
  rw [blobSize]
  exact Nat.le_mul_of_pos_left _ b.blobSizeKB_pos

theorem readSize_pos : 0 < b.readSize := by
  have hblob := b.le_blobSize
  exact Nat.mul_pos b.batchSize_pos (by omega)

/-- The largest of the sizes decides. -/
theorem isSome_decompressionSizes : b.decompressionSizes.isSome = true ↔ b.Fits := by
  have hblob := b.le_blobSize
  have hbufs : b.batchSize * 2 ≤ b.decompressSize :=
    Nat.mul_le_mul_right 2 (Nat.le_mul_of_pos_left _ (by omega))
  have hread : b.blobSize ≤ b.blobSize * b.batchSize :=
    Nat.le_mul_of_pos_right _ b.batchSize_pos
  have hdouble : b.blobSize * b.batchSize * 2 = b.decompressSize := rfl
  have hKB : b.blobSizeKB * 1024 = b.blobSize := by rw [blobSize]
  have hsizes : b.decompressionSizes.isSome = true ↔ b.batchSize * 2 < 2 ^ 31 ∧
      b.blobSizeKB * 1024 < 2 ^ 31 ∧ b.blobSizeKB * 1024 * b.batchSize < 2 ^ 31 ∧
        b.blobSizeKB * 1024 * b.batchSize * 2 < 2 ^ 31 := by
    refine (isSome_mulInt_bind b.batchSize 2).trans (and_congr_right' ?_)
    refine (isSome_mulInt_bind b.blobSizeKB 1024).trans (and_congr_right' ?_)
    refine (isSome_mulInt_bind (b.blobSizeKB * 1024) b.batchSize).trans (and_congr_right' ?_)
    exact (isSome_mulInt_bind (b.blobSizeKB * 1024 * b.batchSize) 2).trans (and_iff_left rfl)
  rw [hsizes, hKB, Fits]
  omega

theorem decompressSize_eq : b.decompressSize = b.batchSize * (b.blobSize * 2) := by
  rw [decompressSize, Nat.mul_comm b.blobSize, Nat.mul_assoc]

/-- The doubled blob `i` lies in the buffers. -/
theorem blob_le {i : Nat} (h : i < b.batchSize) :
    i * b.blobSize * 2 + b.blobSize * 2 ≤ b.decompressSize := by
  rw [decompressSize_eq, Nat.mul_assoc]
  exact Buffer.segment_bound _ h

/-- `size_t` holds the number of tasks. -/
theorem batchSize_lt_size_t : b.batchSize < 2 ^ 64 := by
  have hint := b.batchSize_lt
  omega

end BenchSizes

/-- What a call of `read` returns. -/
inductive ReadResult where
  /-- -1 -/
  | error
  | data (bytes : List UInt8)

namespace ReadResult

/-- `n` -/
def count : ReadResult → Int
  | .error => -1
  | .data bytes => bytes.length

/-- What it has put into the buffer. -/
def bytes : ReadResult → List UInt8
  | .error => []
  | .data bytes => bytes

end ReadResult

inductive ReadEnd where
  | endOfFile
  | error

/-- What the calls of `read` return for one file. -/
structure ReadHistory (capacity : Nat) where
  pieces : List (List UInt8)
  ending : ReadEnd
  ne_nil : ∀ piece ∈ pieces, piece ≠ []
  length_le : ∀ piece ∈ pieces, piece.length ≤ capacity
  /-- The size of a file is a signed 64-bit number. -/
  length_lt : pieces.flatten.length < 2 ^ 63

namespace ReadHistory

variable {capacity : Nat} (history : ReadHistory capacity)

/-- Call number `turn`. -/
def read (turn : Nat) : ReadResult :=
  match history.pieces[turn]? with
  | some piece => .data piece
  | none =>
    match history.ending with
    | .endOfFile => .data []
    | .error => .error

/-- The bytes actually read. -/
def bytesRead : Nat := history.pieces.flatten.length

theorem read_of_piece {turn : Nat} {piece : List UInt8}
    (h : history.pieces[turn]? = some piece) : history.read turn = .data piece := by
  rw [read, h]

/-- Nothing is left. -/
theorem read_at_end {turn : Nat} (h : history.pieces.drop turn = [])
    (hend : history.ending = .endOfFile) : history.read turn = .data [] := by
  rw [read, List.getElem?_eq_none (List.drop_eq_nil_iff.mp h), hend]

/-- The next of the pieces that are left. -/
theorem getElem?_of_drop {turn : Nat} {piece : List UInt8} {pieces : List (List UInt8)}
    (h : history.pieces.drop turn = piece :: pieces) : history.pieces[turn]? = some piece := by
  rw [← List.head?_drop, h, List.head?_cons]

theorem drop_succ_of_drop {turn : Nat} {piece : List UInt8} {pieces : List (List UInt8)}
    (h : history.pieces.drop turn = piece :: pieces) : history.pieces.drop (turn + 1) = pieces := by
  rw [← List.tail_drop, h, List.tail_cons]

/-- A piece has a count that is not 0. -/
theorem count_of_piece {turn : Nat} {piece : List UInt8}
    (h : history.pieces[turn]? = some piece) :
    ((history.read turn).count != 0) = true ∧ (history.read turn).count = piece.length := by
  have hne := List.length_pos_iff.mpr (history.ne_nil piece (List.mem_of_getElem? h))
  have hcount : (history.read turn).count = piece.length := by
    rw [history.read_of_piece h]
    rfl
  refine ⟨?_, hcount⟩
  rw [hcount, bne_iff_ne]
  omega

/-- What is read fits in the buffer. -/
theorem length_bytes_le (turn : Nat) : (history.read turn).bytes.length ≤ capacity := by
  unfold read
  split
  · rename_i piece hpiece
    exact history.length_le piece (List.mem_of_getElem? hpiece)
  · split
    · exact Nat.zero_le _
    · exact Nat.zero_le _

/-- The count that ends the loop is that of the end of the file. -/
theorem count_ne_zero (hend : history.ending = .error) (turn : Nat) :
    (history.read turn).count ≠ 0 := by
  unfold read
  split
  · rename_i piece hpiece
    have hne := List.length_pos_iff.mpr (history.ne_nil piece (List.mem_of_getElem? hpiece))
    show (piece.length : Int) ≠ 0
    omega
  · rw [hend]
    show (-1 : Int) ≠ 0
    omega

end ReadHistory

/-- The file is read to its end. -/
structure FileReads (capacity : Nat) (file : List UInt8) extends ReadHistory capacity where
  flatten_eq : pieces.flatten = file
  ending_eq : ending = .endOfFile

/-! ## The buffer -/

/-- A piece in the cleared buffer. -/
def padded (capacity : Nat) (piece : List UInt8) : List UInt8 :=
  piece ++ List.replicate (capacity - piece.length) 0

section

variable {capacity : Nat} {piece : List UInt8}

theorem length_padded (h : piece.length ≤ capacity) : (padded capacity piece).length = capacity := by
  rw [padded, List.length_append, List.length_replicate]
  omega

theorem padded_of_full (h : piece.length = capacity) : padded capacity piece = piece := by
  rw [padded, h, Nat.sub_self, List.replicate_zero, List.append_nil]

/-- `memset` and `read`. -/
theorem store_zeroed (h : piece.length ≤ capacity) :
    ∃ buf : Buffer UInt8 capacity,
      (Buffer.zeroed capacity).store 0 piece = some buf ∧ buf.data = padded capacity piece := by
  have hroom : 0 + piece.length ≤ capacity := by omega
  refine ⟨_, Buffer.store_eq_some _ hroom, ?_⟩
  rw [Buffer.put_data, writeAt, Nat.zero_add, List.take_zero, List.nil_append, Buffer.zeroed,
    List.drop_replicate]
  rfl

/-- The padded pieces are the pieces if and only if no piece is short. -/
theorem flatten_padded_eq_iff {pieces : List (List UInt8)}
    (h : ∀ piece ∈ pieces, piece.length ≤ capacity) :
    (pieces.map (padded capacity)).flatten = pieces.flatten ↔
      ∀ piece ∈ pieces, piece.length = capacity := by
  constructor
  · intro heq
    have hlen := congrArg List.length heq
    induction pieces with
    | nil => simp
    | cons p ps ih =>
      have hp := h p List.mem_cons_self
      have hps := fun q hq => h q (List.mem_cons_of_mem _ hq)
      have hrest : (ps.map (padded capacity)).flatten.length = ps.length * capacity := by
        rw [length_flatten_of_forall, List.length_map]
        intro q hq
        obtain ⟨piece, hpiece, rfl⟩ := List.mem_map.mp hq
        exact length_padded (hps piece hpiece)
      have hle := length_flatten_le hps
      rw [List.map_cons, List.flatten_cons, List.flatten_cons, List.length_append,
        List.length_append, length_padded hp] at hlen
      have hfull : p.length = capacity := by omega
      rw [List.map_cons, List.flatten_cons, List.flatten_cons, padded_of_full hfull,
        List.append_cancel_left_eq] at heq
      intro q hq
      rcases List.mem_cons.mp hq with rfl | hmem
      · exact hfull
      · exact ih hps heq (congrArg List.length heq) q hmem
  · intro hfull
    have hmap : pieces.map (padded capacity) = pieces := by
      conv_rhs => rw [← List.map_id pieces]
      exact List.map_congr_left fun piece hpiece => padded_of_full (hfull piece hpiece)
    rw [hmap]

end

/-- One blob of 1 KiB at a time. -/
def oneBlob : BenchSizes where
  batchSize := 1
  blobSizeKB := 1
  batchSize_pos := Nat.one_pos
  blobSizeKB_pos := Nat.one_pos
  batchSize_lt := Nat.one_lt_two_pow_iff.mpr (Nat.succ_ne_zero 30)
  blobSizeKB_lt := Nat.one_lt_two_pow_iff.mpr (Nat.succ_ne_zero 30)

/-- A file of one byte, which one read returns. -/
def oneByteReads : FileReads oneBlob.readSize [7] where
  pieces := [[7]]
  ending := .endOfFile
  ne_nil piece h := by
    rw [List.mem_singleton.mp h]
    exact List.cons_ne_nil _ _
  length_le piece h := by
    rw [List.mem_singleton.mp h]
    exact oneBlob.readSize_pos
  length_lt := Nat.one_lt_two_pow_iff.mpr (Nat.succ_ne_zero 62)
  flatten_eq := rfl
  ending_eq := rfl

end DpuTest.Compress
