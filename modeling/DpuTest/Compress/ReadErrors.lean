import DpuTest.Compress.CompressFile
import DpuTest.Compress.Test3

/-!
# Read errors in the compress tests

The loops of `test3` and of `compressFileDOCA` are left when `read` has returned 0.
With a file that can be read and tasks that succeed they end, and count its bytes.
After a read error `read` goes on returning -1, and no turn is the last
(`test3Counts_iff`, `compressFileCounts_iff`, `endsOnReads_iff`).
-/

namespace DpuTest.Compress

open Lib

section

variable {b : BenchSizes} (z : ZlibAndDevice b.blobSize) (history : ReadHistory b.readSize)
  (orders : Nat → CompletionOrder b.batchSize) (sdk : StoppedContext)
  (outcomes : Nat → TurnOutcome b.batchSize) (mem : BenchMemory b) (s : CompressFileState)

/-- `test3` returns, and `total_size_before_compression` has grown by the number of
bytes that were read. -/
def Test3Counts : Prop :=
  ∃ t, Test3Returns z history.read orders mem.start t ∧
    (t.totalBefore - mem.totalBefore).toNat = history.bytesRead

/-- The same for `compressFileDOCA`. -/
def CompressFileCounts : Prop :=
  ∃ t,
    LoopEnds (compressFileReads history.read) (compressFilePass sdk history.read outcomes) s t ∧
      (t.totalBefore - s.totalBefore).toNat = history.bytesRead

/-- Both loops end, with the bytes counted. -/
def EndsOnReads : Prop :=
  Test3Counts z history orders mem ∧ CompressFileCounts history sdk outcomes s

/-- All tasks of all turns succeed. -/
def AllSucceed : Prop := ∀ turn, (outcomes turn).Succeeds

end

/-! ## The first loop -/

section

variable {b : BenchSizes} {history : ReadHistory b.readSize}

theorem toNat_bytesRead (x : UInt64) :
    (x + UInt64.ofNat history.pieces.flatten.length - x).toNat = history.bytesRead := by
  have hlt : history.pieces.flatten.length < UInt64.size :=
    Nat.lt_of_lt_of_le history.length_lt (by decide)
  rw [add_sub_cancel_left]
  exact UInt64.toNat_ofNat_of_lt' hlt

theorem eq_endOfFile_iff : history.ending = .endOfFile ↔ history.ending ≠ .error := by
  cases history.ending with
  | endOfFile => simp
  | error => simp

/-- After a read error the loop of `test3` does not end. -/
theorem test3Counts_iff (z : ZlibAndDevice b.blobSize)
    (orders : Nat → CompletionOrder b.batchSize) (mem : BenchMemory b) :
    Test3Counts z history orders mem ↔ b.Fits ∧ history.ending = .endOfFile := by
  constructor
  · rintro ⟨t, hreturns, -⟩
    refine ⟨b.isSome_decompressionSizes.mp hreturns.1, eq_endOfFile_iff.mpr fun herror => ?_⟩
    exact not_test3Returns_of_error z orders herror _ t hreturns
  · rintro ⟨hfits, hend⟩
    obtain ⟨t, hends, ht⟩ := test3_ends z orders hend (descriptors_start mem) List.drop_zero
    refine ⟨t, ⟨b.isSome_decompressionSizes.mpr hfits, hends⟩, ?_⟩
    rw [ht.totalBefore_eq]
    exact toNat_bytesRead _

end

/-! ## The second loop -/

section

variable {b : BenchSizes} {history : ReadHistory b.readSize} {sdk : StoppedContext}
  {outcomes : Nat → TurnOutcome b.batchSize} {s : CompressFileState}

/-- A turn in which all tasks succeed. -/
theorem compressFilePass_succeeds (sdk : StoppedContext) (hall : AllSucceed outcomes)
    (hs : NothingFailed s) :
    ∃ t, compressFilePass sdk history.read outcomes s = some t ∧ NothingFailed t ∧
      t.turn = s.turn + 1 ∧
      t.totalBefore = s.totalBefore + UInt64.ofInt (history.read s.turn).count := by
  obtain ⟨t, hpass, hdone⟩ := compressFilePass_of_nothingFailed sdk history.read outcomes
    b.batchSize_pos b.batchSize_lt_size_t hs
  obtain ⟨hcompress, hdecompress⟩ := hall s.turn
  exact ⟨t, hpass, ⟨hdone.compress.ready hcompress, hdone.decompress.ready hdecompress,
    hdone.taskResult_eq, hdone.exit_eq⟩, hdone.turn_eq, hdone.totalBefore_eq⟩

/-- From turn `s.turn` on, the loop reads the pieces that are left. -/
theorem compressFile_ends (hend : history.ending = .endOfFile) (hall : AllSucceed outcomes)
    {pieces : List (List UInt8)} (hs : NothingFailed s)
    (hpieces : history.pieces.drop s.turn = pieces) :
    ∃ t, LoopEnds (compressFileReads history.read) (compressFilePass sdk history.read outcomes)
        s t ∧
      t.totalBefore = s.totalBefore + UInt64.ofNat pieces.flatten.length := by
  induction pieces generalizing s with
  | nil =>
    have hstop : compressFileReads history.read s = false :=
      compressFileReads_at_end hend hpieces
    exact ⟨s, (loopEnds_of_false hstop).mpr rfl, by simp⟩
  | cons piece pieces ih =>
    have hcount := (history.count_of_piece (history.getElem?_of_drop hpieces)).2
    have hgo : compressFileReads history.read s = true :=
      compressFileReads_of_drop hs.exit_eq hpieces
    obtain ⟨s', hpass, hs', hturn, htotal⟩ := compressFilePass_succeeds sdk hall hs
    have hrest : history.pieces.drop s'.turn = pieces := by
      rw [hturn]
      exact history.drop_succ_of_drop hpieces
    obtain ⟨t, hends, ht⟩ := ih hs' hrest
    refine ⟨t, (loopEnds_of_true hgo hpass).mpr hends, ?_⟩
    rw [ht, htotal, hcount, uint64_ofInt_natCast, List.flatten_cons, List.length_append,
      UInt64.ofNat_add, UInt64.add_assoc]

/-- After a read error the loop of `compressFileDOCA` does not end. -/
theorem compressFileCounts_iff (hall : AllSucceed outcomes) (hs : NothingFailed s)
    (hturn : s.turn = 0) :
    CompressFileCounts history sdk outcomes s ↔ history.ending = .endOfFile := by
  constructor
  · rintro ⟨t, hends, -⟩
    refine eq_endOfFile_iff.mpr fun herror => ?_
    have hcond : ∀ s, NothingFailed s → compressFileReads history.read s = true := by
      intro s hs
      rw [compressFileReads, hs.exit_eq, bne_iff_ne.mpr (history.count_ne_zero herror s.turn)]
      rfl
    refine not_loopEnds hcond (fun u u' hu hpass => ?_) hs t hends
    obtain ⟨v, hpass', hv, -, -⟩ := compressFilePass_succeeds sdk hall hu
    rw [hpass] at hpass'
    cases hpass'
    exact hv
  · intro hend
    have hpieces : history.pieces.drop s.turn = history.pieces := by rw [hturn, List.drop_zero]
    obtain ⟨t, hends, ht⟩ := compressFile_ends hend hall hs hpieces
    refine ⟨t, hends, ?_⟩
    rw [ht]
    exact toNat_bytesRead _

end

/-- The loops end, with the bytes counted, if and only if the sizes fit and no call of
`read` fails. -/
theorem endsOnReads_iff {b : BenchSizes} (z : ZlibAndDevice b.blobSize)
    (history : ReadHistory b.readSize) (orders : Nat → CompletionOrder b.batchSize)
    (sdk : StoppedContext) {outcomes : Nat → TurnOutcome b.batchSize}
    (hall : AllSucceed outcomes) (mem : BenchMemory b)
    (totalBefore totalAfterCompression totalAfterDecompression : UInt64) :
    EndsOnReads z history orders sdk outcomes mem
        (compressFileStart totalBefore totalAfterCompression totalAfterDecompression) ↔
      b.Fits ∧ history.ending = .endOfFile := by
  rw [EndsOnReads, test3Counts_iff, compressFileCounts_iff hall (nothingFailed_start _ _ _) rfl,
    and_assoc, and_self]

/-- A task that succeeds. -/
def succeeds : BatchOutcome oneBlob.batchSize where
  order := .inOrder _
  report _ := { status := .success, crcCs := 0, adlerCs := 0 }
  dataLen _ := 0

theorem endsOnReads_oneByte :
    EndsOnReads (storedDevice oneBlob) oneByteReads.toReadHistory (fun _ => .inOrder _)
        stoppedContext (fun _ => ⟨succeeds, succeeds⟩) (clearMemory oneBlob)
        (compressFileStart 0 0 0) ↔
      oneBlob.Fits ∧ oneByteReads.ending = .endOfFile :=
  endsOnReads_iff (storedDevice oneBlob) oneByteReads.toReadHistory (fun _ => .inOrder _)
    stoppedContext (fun _ => ⟨fun _ _ => rfl, fun _ _ => rfl⟩) (clearMemory oneBlob) 0 0 0

/-- The file could not be opened. -/
def unreadable : ReadHistory oneBlob.readSize where
  pieces := []
  ending := .error
  ne_nil := nofun
  length_le := nofun
  length_lt := Nat.two_pow_pos 63

/-- Neither loop is ever left. -/
theorem not_endsOnReads_unreadable :
    ¬ EndsOnReads (storedDevice oneBlob) unreadable (fun _ => .inOrder _) stoppedContext
      (fun _ => ⟨succeeds, succeeds⟩) (clearMemory oneBlob) (compressFileStart 0 0 0) := by
  rintro ⟨htest3, -⟩
  cases (test3Counts_iff _ _ _).mp htest3 with
  | intro _ hend => cases hend

end DpuTest.Compress
