import DpuTest.Compress.Test3
import DpuTest.Lib.Chunking
import Mathlib.Data.Set.List

/-!
# The totals of the compress bench

`test3` adds to three totals, which are those of all files of a directory.  `fileTotals`
is what a file adds, by its content alone: a regular file is read in blocks, of which
only the last one is short (`pieces_eq_chunks`), and every block is padded to a batch.

`RunsFiles` are the calls of `test3` for some files, one after the other, on the same
buffers.  They all return if and only if every file can be read (`exists_runsFiles_iff`),
and each file adds what it adds alone (`RunsFiles.totals_eq`).
-/

namespace DpuTest.Compress

open Lib

/-- `total_size_before_compression`, `total_size_after_compression` and
`total_size_after_decompression` -/
@[ext] structure Totals where
  before : UInt64
  afterCompression : UInt64
  afterDecompression : UInt64
  deriving DecidableEq

instance : Zero Totals where
  zero := { before := 0, afterCompression := 0, afterDecompression := 0 }

instance : Add Totals where
  add x y :=
    { before := x.before + y.before
      afterCompression := x.afterCompression + y.afterCompression
      afterDecompression := x.afterDecompression + y.afterDecompression }

instance : AddCommMonoid Totals where
  add_assoc _ _ _ := Totals.ext (add_assoc _ _ _) (add_assoc _ _ _) (add_assoc _ _ _)
  zero_add _ := Totals.ext (zero_add _) (zero_add _) (zero_add _)
  add_zero _ := Totals.ext (add_zero _) (add_zero _) (add_zero _)
  add_comm _ _ := Totals.ext (add_comm _ _) (add_comm _ _) (add_comm _ _)
  nsmul := nsmulRec

/-- What `read` may return for a regular file: less than was asked for only at its end,
and an error if the file cannot be opened, or not be read. -/
def ReadHistory.Of {capacity : Nat} (history : ReadHistory capacity) : Option (List UInt8) → Prop
  | some file =>
    history.ending = .endOfFile ∧ history.pieces.flatten = file ∧
      ∀ piece ∈ history.pieces.dropLast, piece.length = capacity
  | none => history.ending = .error

section

variable {b : BenchSizes}

def Test3State.totals (s : Test3State b) : Totals where
  before := s.totalBefore
  afterCompression := s.cpu.totalAfterCompression
  afterDecompression := s.totalAfterDecompression

variable (z : ZlibAndDevice b.blobSize)

/-- A call of `test3` for a file with this content, or for one that cannot be read. -/
def Test3Call (file : Option (List UInt8)) (s t : Test3State b) : Prop :=
  ∃ (history : ReadHistory b.readSize) (orders : Nat → CompletionOrder b.batchSize),
    history.Of file ∧ Test3Returns z history.read orders { s with turn := 0, outputs := [] } t

/-- Calls of `test3` for some files. -/
inductive RunsFiles : List (Option (List UInt8)) → Test3State b → Test3State b → Prop where
  | nil (s : Test3State b) : RunsFiles [] s s
  | cons {file : Option (List UInt8)} {files : List (Option (List UInt8))} {s t u : Test3State b}
      (hcall : Test3Call z file s t) (hrest : RunsFiles files t u) : RunsFiles (file :: files) s u

/-- The compressed sizes of the blobs of a batch. -/
def compressedSize (data : List UInt8) : UInt64 :=
  ((List.range b.batchSize).map fun i =>
    UInt64.ofNat (z.compress (slice data (i * b.blobSize) b.blobSize)).length).sum

/-- What a read of some bytes adds. -/
def pieceTotals (piece : List UInt8) : Totals where
  before := UInt64.ofNat piece.length
  afterCompression := compressedSize z (padded b.readSize piece)
  afterDecompression := UInt64.ofNat b.readSize

/-- The blocks in which a regular file is read. -/
def fileBlocks (b : BenchSizes) (file : List UInt8) : List (List UInt8) :=
  (fixedRule b.readSize b.readSize_pos).chunks file

/-- What a file adds. -/
def fileTotals (file : List UInt8) : Totals := ((fileBlocks b file).map (pieceTotals z)).sum

/-- The totals of some files: their sizes; the compressed sizes of their blocks, each
padded to a batch; and a batch for every block that is begun. -/
def benchTotals (files : List (List UInt8)) : Totals where
  before := UInt64.ofNat files.flatten.length
  afterCompression :=
    ((files.flatMap (fileBlocks b)).map fun block =>
      compressedSize z (padded b.readSize block)).sum
  afterDecompression :=
    UInt64.ofNat ((files.map fun file => (file.length + (b.readSize - 1)) / b.readSize).sum *
      b.readSize)

end

/-! ## Reads of a regular file -/

section

variable {capacity : Nat} {file : List UInt8}

theorem pieces_eq_chunks (hpos : 0 < capacity) {reads : ReadHistory capacity}
    (h : reads.Of (some file)) : reads.pieces = (fixedRule capacity hpos).chunks file := by
  obtain ⟨-, hflatten, hregular⟩ := h
  refine Eq.trans ?_ (congrArg _ hflatten)
  by_cases hnil : reads.pieces = []
  · rw [hnil, List.flatten_nil, CutRule.chunks_nil]
  · have hlast := List.getLast_mem hnil
    have hsplit := List.dropLast_append_getLast hnil
    have hflat : reads.pieces.flatten =
        reads.pieces.dropLast.flatten ++ reads.pieces.getLast hnil := by
      conv_lhs => rw [← hsplit]
      rw [List.flatten_append, List.flatten_singleton]
    rw [hflat, chunks_fixed_flatten_append hpos hregular, chunks_fixed_of_le hpos
      (reads.ne_nil _ hlast) (reads.length_le _ hlast), hsplit]

/-- The reads of a regular file, as long as its size is a signed 64-bit number. -/
def regularReads (hpos : 0 < capacity) (file : List UInt8) (hlt : file.length < 2 ^ 63) :
    ReadHistory capacity where
  pieces := (fixedRule capacity hpos).chunks file
  ending := .endOfFile
  ne_nil _ h := CutRule.ne_nil_of_mem_chunks _ h
  length_le _ h := length_le_of_mem_fixed hpos h
  length_lt := by rwa [CutRule.flatten_chunks]

theorem regularReads_of (hpos : 0 < capacity) (hlt : file.length < 2 ^ 63) :
    (regularReads hpos file hlt).Of (some file) :=
  ⟨rfl, CutRule.flatten_chunks _ file, fun _ h => length_of_mem_dropLast_fixed hpos h⟩

end

/-! ## One call -/

section

variable {b : BenchSizes} {z : ZlibAndDevice b.blobSize} {s t : Test3State b}

/-- `compress` adds the size of every stream. -/
theorem compressLoop_total {cpuSrc : Buffer UInt8 b.readSize} {out out' : CpuOutput b}
    (h : (List.range b.batchSize).foldlM (compressBlob z cpuSrc) out = some out') :
    out'.totalAfterCompression = out.totalAfterCompression + compressedSize z cpuSrc.data := by
  refine foldlM_range_inv (P := fun n o => CpuOutput.totalAfterCompression o =
    out.totalAfterCompression + ((List.range n).map fun i =>
      UInt64.ofNat (z.compress (slice cpuSrc.data (i * b.blobSize) b.blobSize)).length).sum)
    ?_ ?_ h
  · intro i o o' hi ho hpass
    have hin : i * b.blobSize + b.blobSize ≤ cpuSrc.data.length := by
      rw [cpuSrc.length_data]
      exact Buffer.segment_bound _ hi
    rw [compressBlob, fetch_eq_some hin, Option.bind_some] at hpass
    obtain ⟨dst, -, rfl⟩ := Option.map_eq_some_iff.mp hpass
    rw [List.range_succ, List.map_append, List.sum_append, ← add_assoc, ← ho]
    simp
  · simp

/-- A turn adds what its read adds. -/
theorem test3Pass_totals {reads : Nat → ReadResult} {piece : List UInt8}
    (orders : Nat → CompletionOrder b.batchSize) (hs : Descriptors s.device)
    (hread : reads s.turn = .data piece) (hle : piece.length ≤ b.readSize) :
    ∃ s', test3Pass z reads orders s = some s' ∧ Descriptors s'.device ∧
      s'.turn = s.turn + 1 ∧ s'.totals = s.totals + pieceTotals z piece := by
  have hbytes : (reads s.turn).bytes.length ≤ b.readSize := by rwa [hread]
  obtain ⟨s', hpass, hs', hturn, hbefore, hafter, -⟩ := test3Pass_spec z orders hs hbytes
  refine ⟨s', hpass, hs', hturn, Totals.ext ?_ ?_ hafter⟩
  · rw [hread] at hbefore
    exact hbefore.trans (congrArg _ (uint64_ofInt_natCast _))
  · obtain ⟨cpuSrc, hstore, hdata⟩ := store_zeroed hbytes
    rw [test3Pass, hstore, Option.bind_some] at hpass
    obtain ⟨cpu, hcpu, hrest⟩ := Option.bind_eq_some_iff.mp hpass
    obtain ⟨src, -, hrest⟩ := Option.bind_eq_some_iff.mp hrest
    obtain ⟨device, -, rfl⟩ := Option.map_eq_some_iff.mp hrest
    rw [hread] at hdata
    have htotal := compressLoop_total hcpu
    rw [hdata] at htotal
    exact htotal

/-- The turns that are left add what their reads add. -/
theorem test3_totals {history : ReadHistory b.readSize}
    (orders : Nat → CompletionOrder b.batchSize) (hend : history.ending = .endOfFile)
    {pieces : List (List UInt8)} (hs : Descriptors s.device)
    (hpieces : history.pieces.drop s.turn = pieces) :
    ∃ t, LoopEnds (test3Reads history.read) (test3Pass z history.read orders) s t ∧
      Descriptors t.device ∧ t.totals = s.totals + (pieces.map (pieceTotals z)).sum := by
  induction pieces generalizing s with
  | nil =>
    have hstop : test3Reads history.read s = false := by
      rw [test3Reads, history.read_at_end hpieces hend]
      rfl
    exact ⟨s, (loopEnds_of_false hstop).mpr rfl, hs, (add_zero _).symm⟩
  | cons piece pieces ih =>
    have hpiece := history.getElem?_of_drop hpieces
    have hgo : test3Reads history.read s = true := (history.count_of_piece hpiece).1
    obtain ⟨s', hpass, hs', hturn, hadds⟩ := test3Pass_totals (z := z) orders hs
      (history.read_of_piece hpiece) (history.length_le _ (List.mem_of_getElem? hpiece))
    have hrest : history.pieces.drop s'.turn = pieces := by
      rw [hturn]
      exact history.drop_succ_of_drop hpieces
    obtain ⟨t, hends, ht, htotals⟩ := ih hs' hrest
    refine ⟨t, (loopEnds_of_true hgo hpass).mpr hends, ht, ?_⟩
    rw [htotals, hadds, List.map_cons, List.sum_cons, add_assoc]

/-- Whatever the order of the completions, a file adds its totals. -/
theorem test3Call_spec {file : List UInt8} (hs : Descriptors s.device)
    (h : Test3Call z (some file) s t) :
    Descriptors t.device ∧ t.totals = s.totals + fileTotals z file := by
  obtain ⟨history, orders, hof, -, hends⟩ := h
  obtain ⟨t', hends', ht', htotals⟩ := test3_totals (z := z) orders
    (s := { s with turn := 0, outputs := [] }) hof.1 hs List.drop_zero
  rw [hends.unique hends']
  refine ⟨ht', htotals.trans ?_⟩
  rw [pieces_eq_chunks b.readSize_pos hof]
  rfl

theorem exists_test3Call {file : List UInt8} (hfits : b.Fits) (hs : Descriptors s.device)
    (hlt : file.length < 2 ^ 63) : ∃ t, Test3Call z (some file) s t := by
  have hof := regularReads_of b.readSize_pos hlt
  obtain ⟨t, hends, -⟩ := test3_totals (z := z) (fun _ => .inOrder _)
    (s := { s with turn := 0, outputs := [] }) hof.1 hs List.drop_zero
  exact ⟨t, _, _, hof, b.isSome_decompressionSizes.mpr hfits, hends⟩

/-- For a file that cannot be read `test3` does not return. -/
theorem not_test3Call_none : ¬ Test3Call z none s t := by
  rintro ⟨history, orders, hof, hreturns⟩
  exact not_test3Returns_of_error z orders hof _ t hreturns

/-! ## All calls -/

/-- The files of calls that have all returned can be read. -/
theorem RunsFiles.none_notMem {files : List (Option (List UInt8))} (h : RunsFiles z files s t) :
    none ∉ files := by
  induction h with
  | nil s => exact List.not_mem_nil
  | @cons file _ _ _ _ hcall _ ih =>
    cases file with
    | none => exact absurd hcall not_test3Call_none
    | some file => simpa using ih

/-- Each file adds what it adds alone. -/
theorem RunsFiles.totals_eq {files : List (List UInt8)} (h : RunsFiles z (files.map some) s t)
    (hs : Descriptors s.device) :
    Descriptors t.device ∧ t.totals = s.totals + (files.map (fileTotals z)).sum := by
  induction files generalizing s with
  | nil =>
    cases h
    exact ⟨hs, (add_zero _).symm⟩
  | cons file files ih =>
    cases h with
    | cons hcall hrest =>
      obtain ⟨ht, hadds⟩ := test3Call_spec hs hcall
      obtain ⟨hu, htotals⟩ := ih hrest ht
      refine ⟨hu, ?_⟩
      rw [htotals, hadds, List.map_cons, List.sum_cons, add_assoc]

theorem exists_runsFiles {files : List (List UInt8)} (hfits : b.Fits)
    (hs : Descriptors s.device) (hlt : ∀ file ∈ files, file.length < 2 ^ 63) :
    ∃ t, RunsFiles z (files.map some) s t := by
  induction files generalizing s with
  | nil => exact ⟨s, .nil s⟩
  | cons file files ih =>
    obtain ⟨t, hcall⟩ := exists_test3Call (z := z) hfits hs (hlt file List.mem_cons_self)
    obtain ⟨u, hrest⟩ := ih (test3Call_spec hs hcall).1
      fun f hf => hlt f (List.mem_cons_of_mem _ hf)
    exact ⟨u, .cons hcall hrest⟩

/-- Files that can all be read. -/
theorem exists_eq_map_some {files : List (Option (List UInt8))} (hnone : none ∉ files) :
    ∃ contents : List (List UInt8), contents.map some = files := by
  show files ∈ Set.range (List.map some)
  rw [Set.range_list_map]
  intro file hfile
  cases file with
  | none => exact absurd hfile hnone
  | some content => exact ⟨content, rfl⟩

/-- All calls return if and only if all files can be read. -/
theorem exists_runsFiles_iff {files : List (Option (List UInt8))} (hfits : b.Fits)
    (hs : Descriptors s.device) (hlt : ∀ file, some file ∈ files → file.length < 2 ^ 63) :
    (∃ t, RunsFiles z files s t) ↔ none ∉ files := by
  refine ⟨fun ⟨t, h⟩ => h.none_notMem, fun hnone => ?_⟩
  obtain ⟨contents, rfl⟩ := exists_eq_map_some hnone
  exact exists_runsFiles hfits hs fun file hfile => hlt file (List.mem_map_of_mem hfile)

/-! ## The sums -/

theorem sum_pieceTotals (pieces : List (List UInt8)) :
    (pieces.map (pieceTotals z)).sum =
      { before := UInt64.ofNat pieces.flatten.length
        afterCompression :=
          (pieces.map fun piece => compressedSize z (padded b.readSize piece)).sum
        afterDecompression := UInt64.ofNat (pieces.length * b.readSize) } := by
  induction pieces with
  | nil =>
    refine Totals.ext rfl rfl ?_
    rw [List.length_nil, Nat.zero_mul]
    rfl
  | cons piece pieces ih =>
    rw [List.map_cons, List.sum_cons, ih]
    refine Totals.ext ?_ rfl ?_
    · rw [List.flatten_cons, List.length_append, UInt64.ofNat_add]
      rfl
    · rw [List.length_cons, Nat.add_mul, Nat.one_mul, Nat.add_comm, UInt64.ofNat_add]
      rfl

theorem flatten_fileBlocks (files : List (List UInt8)) :
    (files.flatMap (fileBlocks b)).flatten = files.flatten := by
  induction files with
  | nil => rfl
  | cons file files ih =>
    rw [List.flatMap_cons, List.flatten_append, ih, List.flatten_cons, fileBlocks,
      CutRule.flatten_chunks]

theorem length_flatMap_fileBlocks (files : List (List UInt8)) :
    (files.flatMap (fileBlocks b)).length =
      (files.map fun file => (file.length + (b.readSize - 1)) / b.readSize).sum := by
  rw [List.length_flatMap]
  congr 1
  exact List.map_congr_left fun file _ => length_chunks_fixed b.readSize_pos file

theorem sum_fileTotals (files : List (List UInt8)) :
    (files.map (fileTotals z)).sum = benchTotals z files := by
  have hblocks : (files.map (fileTotals z)).sum =
      ((files.flatMap (fileBlocks b)).map (pieceTotals z)).sum := by
    induction files with
    | nil => rfl
    | cons file files ih =>
      rw [List.map_cons, List.sum_cons, ih, List.flatMap_cons, List.map_append, List.sum_append,
        fileTotals]
  rw [hblocks, sum_pieceTotals, flatten_fileBlocks, length_flatMap_fileBlocks]
  rfl

end

end DpuTest.Compress
