import DpuTest.Lib.Loop
import DpuTest.Sha.FastCdc

/-!
# The chunking loop of `sha_create_CDC`

The loop calls `fastcdc` on the rest of the data, records offset and length of
the chunk, and goes on behind it while `rest_size` is not zero.  The test is
`!= 0` on an `int`, so a chunk that overshoots the end, or an empty one, would
keep it running.  `rest_size` is therefore an `Int` here, and the loop is a
`whileLoop` with fuel.

`chunkLoop_refines` connects it to the chunking rule of `fastcdc`: with the
data length as fuel the loop ends, and the pairs that it records are the spans
of `(cdcRule avg havg).chunks data`.  The partition and locality theorems are
then the theorems of the rule.

The products `8 * avg_chunk_size_` and the sizes are taken to fit in `int`.
-/

namespace DpuTest.Sha

open Lib

/-- The variables of the chunking loop. -/
structure ChunkState where
  restSize : Int
  off : Int
  /-- <off, len> -/
  chunks : List (Int × Int)

/-- The state before the loop. -/
def chunkStart (data : List UInt8) : ChunkState where
  restSize := data.length
  off := 0
  chunks := []

/-- One pass of the loop. -/
def chunkStep (s : CdcSizes) (data : List UInt8) (st : ChunkState) : ChunkState :=
  let chunkLen := fastcdc s (data.drop st.off.toNat) st.restSize
  { restSize := st.restSize - chunkLen
    off := st.off + chunkLen
    chunks := st.chunks ++ [(st.off, chunkLen)] }

/-- `while(rest_size)`, for at most `fuel` passes. -/
def chunkLoop (s : CdcSizes) (data : List UInt8) (fuel : Nat) (st : ChunkState) :
    Option ChunkState :=
  whileLoop (fun st => st.restSize != 0) (fun st => some (chunkStep s data st)) fuel st

theorem chunkLoop_of_rest_zero (s : CdcSizes) (data : List UInt8) (fuel : Nat)
    {st : ChunkState} (h : st.restSize = 0) : chunkLoop s data fuel st = some st :=
  whileLoop_of_false fuel (by simp [h])

theorem chunkLoop_of_rest_ne_zero (s : CdcSizes) (data : List UInt8) (fuel : Nat)
    {st : ChunkState} (h : st.restSize ≠ 0) :
    chunkLoop s data (fuel + 1) st = chunkLoop s data fuel (chunkStep s data st) :=
  whileLoop_of_true fuel (by simp [h])

/-- The loop of `sha_create_CDC(data, _, _, avg_chunk_size_)` ends with the
chunk list `chunks`. -/
def ChunksOf (avg : Nat) (data : List UInt8) (chunks : List (Int × Int)) : Prop :=
  ∃ fuel st, chunkLoop (cdcSizes avg) data fuel (chunkStart data) = some st ∧
    st.chunks = chunks

/-- The loop ends with one chunk list only. -/
theorem ChunksOf.unique {avg : Nat} {data : List UInt8} {chunks chunks' : List (Int × Int)}
    (h : ChunksOf avg data chunks) (h' : ChunksOf avg data chunks') : chunks = chunks' := by
  obtain ⟨fuel, st, hst, rfl⟩ := h
  obtain ⟨fuel', st', hst', rfl⟩ := h'
  rw [LoopEnds.unique ⟨fuel, hst⟩ ⟨fuel', hst'⟩]

/-- The pairs that the loop records for a list of chunks. -/
def recorded (off : Nat) (cs : List (List UInt8)) : List (Int × Int) :=
  (spansFrom off cs).map (fun span => ((span.1 : Int), (span.2 : Int)))

theorem recorded_cons (off : Nat) (c : List UInt8) (cs : List (List UInt8)) :
    recorded off (c :: cs) = ((off : Int), (c.length : Int)) :: recorded (off + c.length) cs :=
  rfl

/-! ## The loop follows the chunking rule -/

section Refinement

variable {avg : Nat} (havg : 4 ≤ avg) (data : List UInt8)

/-- `fastcdc` on what is left of the data is the cut of the rule. -/
theorem fastcdc_eq_cut (xs : List UInt8) :
    fastcdc (cdcSizes avg) xs xs.length = (cdcRule avg havg).cut xs := by
  show _ = ((fastcdc (cdcSizes avg) xs xs.length).toNat : Int)
  rcases Nat.lt_or_ge (cdcSizes avg).minChunkSize xs.length with hlt | hge
  · obtain ⟨c, heq, _⟩ := fastcdc_firstHit (cdcSizes avg) xs
      (cdcSizes_min_le avg) (cdcSizes_le_max avg) hlt
    rw [heq, Int.toNat_natCast]
  · rw [fastcdc_of_le _ _ hge, Int.toNat_natCast]

/-- The loop from an offset on records the chunks of what is left.  The
induction is along the cuts of the rest. -/
private theorem chunkLoop_from (rest : List UInt8) :
    ∀ (off : Nat) (acc : List (Int × Int)), data.drop off = rest →
      off + rest.length = data.length →
      ∀ fuel, rest.length ≤ fuel →
        chunkLoop (cdcSizes avg) data fuel
            { restSize := rest.length, off := off, chunks := acc }
          = some { restSize := 0, off := data.length,
                   chunks := acc ++ recorded off ((cdcRule avg havg).chunks rest) } := by
  induction rest using (cdcRule avg havg).induction with
  | nil =>
    intro off acc _ hlen fuel _
    rw [List.length_nil, Nat.add_zero] at hlen
    rw [CutRule.chunks_nil, chunkLoop_of_rest_zero _ _ _ rfl, hlen]
    simp [recorded, spansFrom]
  | step xs hne ih =>
    intro off acc hdrop hlen fuel hfuel
    have hpos := (cdcRule avg havg).cut_pos hne
    have hle := (cdcRule avg havg).cut_le xs
    have hxs : 0 < xs.length := List.length_pos_iff.mpr hne
    obtain ⟨f, rfl⟩ : ∃ f, fuel = f + 1 := ⟨fuel - 1, by omega⟩
    have hstep : chunkStep (cdcSizes avg) data
          { restSize := xs.length, off := off, chunks := acc }
        = { restSize := (xs.drop ((cdcRule avg havg).cut xs)).length,
            off := (off + (cdcRule avg havg).cut xs : Nat),
            chunks := acc ++ [((off : Int), ((cdcRule avg havg).cut xs : Int))] } := by
      simp only [chunkStep, Int.toNat_natCast, hdrop, fastcdc_eq_cut havg xs,
        List.length_drop, ChunkState.mk.injEq, and_true]
      omega
    have hrec := ih (off + (cdcRule avg havg).cut xs)
      (acc ++ [((off : Int), ((cdcRule avg havg).cut xs : Int))])
      (by rw [← List.drop_drop, hdrop]) (by rw [List.length_drop]; omega) f
      (by rw [List.length_drop]; omega)
    rw [chunkLoop_of_rest_ne_zero _ _ _ (by simpa using hne), hstep, hrec,
      CutRule.chunks_of_ne_nil _ hne, recorded_cons, CutRule.length_take_cut,
      List.append_assoc, List.singleton_append]

/-- The data length is fuel enough, and the loop records the chunks that the
rule cuts. -/
theorem chunkLoop_refines :
    chunkLoop (cdcSizes avg) data data.length (chunkStart data)
      = some { restSize := 0, off := data.length,
               chunks := recorded 0 ((cdcRule avg havg).chunks data) } :=
  chunkLoop_from havg data data 0 [] List.drop_zero (Nat.zero_add _) data.length
    (Nat.le_refl _)

theorem chunksOf_recorded :
    ChunksOf avg data (recorded 0 ((cdcRule avg havg).chunks data)) :=
  ⟨data.length, _, chunkLoop_refines havg data, rfl⟩

end Refinement

/-! ## Partition -/

/-- The chunks are non-empty, each starts where the one before ends, the first
starts at `start` and the last ends at `stop`. -/
def Tiles (start stop : Int) : List (Int × Int) → Prop
  | [] => start = stop
  | (off, len) :: rest => off = start ∧ 0 < len ∧ Tiles (start + len) stop rest

theorem tiles_recorded (off : Nat) {cs : List (List UInt8)} (hne : ∀ c ∈ cs, c ≠ []) :
    Tiles off (off + cs.flatten.length : Nat) (recorded off cs) := by
  induction cs generalizing off with
  | nil => simp [recorded, spansFrom, Tiles]
  | cons c cs ih =>
    have hc : 0 < c.length := List.length_pos_iff.mpr (hne c List.mem_cons_self)
    have hrec := ih (off + c.length) (fun x hx => hne x (List.mem_cons_of_mem _ hx))
    rw [recorded_cons]
    refine ⟨rfl, by omega, ?_⟩
    rw [List.flatten_cons, List.length_append, ← Nat.add_assoc, ← Int.natCast_add]
    exact hrec

/-- Each position of a tiled range lies in one chunk, and in no other. -/
theorem Tiles.existsUnique_mem {start stop : Int} {chunks : List (Int × Int)}
    (h : Tiles start stop chunks) {x : Int} (hx : start ≤ x) (hxs : x < stop) :
    ∃! c, c ∈ chunks ∧ c.1 ≤ x ∧ x < c.1 + c.2 := by
  have hge : ∀ {a b : Int} {cs : List (Int × Int)}, Tiles a b cs → ∀ c ∈ cs, a ≤ c.1 := by
    intro a b cs htiles
    induction cs generalizing a with
    | nil => intro c hc; cases hc
    | cons d ds ih =>
      intro c hc
      obtain ⟨hoff, hlen, hrest⟩ := htiles
      rcases List.mem_cons.mp hc with rfl | hmem
      · omega
      · have := ih hrest c hmem
        omega
  induction chunks generalizing start with
  | nil =>
    have : start = stop := h
    omega
  | cons d ds ih =>
    obtain ⟨hoff, hlen, hrest⟩ := h
    by_cases hin : x < start + d.2
    · refine ⟨d, ⟨List.mem_cons_self, by omega, by omega⟩, ?_⟩
      rintro c ⟨hc, hcx, _⟩
      rcases List.mem_cons.mp hc with heq | hmem
      · exact heq
      · have := hge hrest c hmem
        omega
    · obtain ⟨c, ⟨hc, hcx, hxc⟩, huniq⟩ := ih hrest (by omega)
      refine ⟨c, ⟨List.mem_cons_of_mem _ hc, hcx, hxc⟩, ?_⟩
      rintro c' ⟨hc', hcx', hxc'⟩
      rcases List.mem_cons.mp hc' with rfl | hmem
      · omega
      · exact huniq c' ⟨hmem, hcx', hxc'⟩

theorem recorded_dropLast (off : Nat) (cs : List (List UInt8)) :
    (recorded off cs).dropLast = recorded off cs.dropLast := by
  induction cs generalizing off with
  | nil => rfl
  | cons c cs ih =>
    cases cs with
    | nil => rfl
    | cons d ds =>
      have hne : recorded (off + c.length) (d :: ds) ≠ [] := by
        rw [recorded_cons]
        exact List.cons_ne_nil _ _
      rw [recorded_cons, List.dropLast_cons_of_ne_nil hne, ih,
        List.dropLast_cons_of_ne_nil (List.cons_ne_nil d ds), recorded_cons]

/-- A recorded length is the length of a chunk. -/
theorem exists_of_mem_recorded {off : Nat} {cs : List (List UInt8)} {c : Int × Int}
    (h : c ∈ recorded off cs) : ∃ chunk ∈ cs, c.2 = chunk.length := by
  induction cs generalizing off with
  | nil => cases h
  | cons d ds ih =>
    rw [recorded_cons] at h
    rcases List.mem_cons.mp h with rfl | hmem
    · exact ⟨d, List.mem_cons_self, rfl⟩
    · obtain ⟨chunk, hchunk, hlen⟩ := ih hmem
      exact ⟨chunk, List.mem_cons_of_mem _ hchunk, hlen⟩

/-- There are as many chunks as the bytes need. -/
theorem length_le_recorded {avg : Nat} (havg : 4 ≤ avg) (data : List UInt8) :
    data.length ≤ (recorded 0 ((cdcRule avg havg).chunks data)).length * (avg * 8) := by
  have hmax : ∀ c ∈ (cdcRule avg havg).chunks data, c.length ≤ avg * 8 :=
    fun c hc => CutRule.length_le_of_mem_chunks _ cdcRule_cut_le_max hc
  have hle := length_flatten_le hmax
  rw [CutRule.flatten_chunks] at hle
  rwa [recorded, List.length_map, length_spansFrom]

/-- The chunking loop ends, with the data length as fuel, and its chunks are a
partition of the data: they tile `[0, total_size)`, every byte lies in one of
them only, every chunk but the last is between a quarter of the average and
eight averages long, and the last is at most eight averages long. -/
theorem chunkLoop_partition (avg : Nat) (havg : 4 ≤ avg) (data : List UInt8) :
    ∃ st, chunkLoop (cdcSizes avg) data data.length (chunkStart data) = some st ∧
      Tiles 0 data.length st.chunks ∧
      (∀ x : Int, 0 ≤ x → x < data.length →
        ∃! c, c ∈ st.chunks ∧ c.1 ≤ x ∧ x < c.1 + c.2) ∧
      (∀ c ∈ st.chunks.dropLast, (avg / 4 : Nat) ≤ c.2 ∧ c.2 ≤ 8 * avg) ∧
      ∀ c ∈ st.chunks, c.2 ≤ 8 * avg := by
  have hmax : ∀ c ∈ recorded 0 ((cdcRule avg havg).chunks data), c.2 ≤ 8 * avg := by
    intro c hc
    obtain ⟨chunk, hchunk, hlen⟩ := exists_of_mem_recorded hc
    have := CutRule.length_le_of_mem_chunks _ cdcRule_cut_le_max hchunk
    omega
  have htiles : Tiles 0 data.length (recorded 0 ((cdcRule avg havg).chunks data)) := by
    have hne : ∀ c ∈ (cdcRule avg havg).chunks data, c ≠ [] :=
      fun _ hc => CutRule.ne_nil_of_mem_chunks _ hc
    have h := tiles_recorded 0 hne
    rw [CutRule.flatten_chunks, Nat.zero_add] at h
    exact h
  refine ⟨_, chunkLoop_refines havg data, htiles, ?_, ?_, hmax⟩
  · intro x hx hxs
    exact htiles.existsUnique_mem hx hxs
  · intro c hc
    refine ⟨?_, hmax c (List.dropLast_subset _ hc)⟩
    rw [recorded_dropLast] at hc
    obtain ⟨chunk, hchunk, hlen⟩ := exists_of_mem_recorded hc
    have := CutRule.le_length_of_mem_dropLast _ cdcRule_min_le_cut hchunk
    omega

/-- The bytes 0, 1, ... -/
def countingBytes (n : Nat) : List UInt8 := (List.range n).map UInt8.ofNat

theorem length_countingBytes (n : Nat) : (countingBytes n).length = n := by
  rw [countingBytes, List.length_map, List.length_range]

/-- Forty bytes are at least two chunks of the smallest average. -/
theorem chunkLoop_partition_forty :
    ∃ st, chunkLoop (cdcSizes 4) (countingBytes 40) 40 (chunkStart (countingBytes 40)) = some st ∧
      Tiles 0 40 st.chunks ∧ 2 ≤ st.chunks.length := by
  obtain ⟨st, hst, htiles, -⟩ := chunkLoop_partition 4 (Nat.le_refl 4) (countingBytes 40)
  have hlen := length_le_recorded (Nat.le_refl 4) (countingBytes 40)
  have hchunks : st.chunks = _ :=
    ChunksOf.unique ⟨_, st, hst, rfl⟩ (chunksOf_recorded (Nat.le_refl 4) (countingBytes 40))
  rw [length_countingBytes, ← hchunks] at hlen
  rw [length_countingBytes] at hst htiles
  exact ⟨st, hst, htiles, by omega⟩

/-! ## Locality -/

theorem mem_recorded_iff {off : Nat} {cs : List (List UInt8)} {c : Int × Int} :
    c ∈ recorded off cs ↔ ∃ o n : Nat, (o, n) ∈ spansFrom off cs ∧ c = ((o : Int), (n : Int)) := by
  simp only [recorded, List.mem_map, Prod.exists]
  constructor
  · rintro ⟨o, n, hmem, rfl⟩
    exact ⟨o, n, hmem, rfl⟩
  · rintro ⟨o, n, hmem, rfl⟩
    exact ⟨o, n, hmem, rfl⟩

/-- The recorded lengths are the lengths of the chunks. -/
theorem recorded_lengths (off : Nat) (cs : List (List UInt8)) :
    (recorded off cs).map Prod.snd = cs.map (fun c => (c.length : Int)) := by
  induction cs generalizing off with
  | nil => rfl
  | cons c cs ih => rw [recorded_cons, List.map_cons, ih, List.map_cons]

/-- The first `k` recorded lengths add up to the bytes of the first `k`
chunks. -/
theorem sum_take_recorded (off : Nat) (cs : List (List UInt8)) (k : Nat) :
    (((recorded off cs).take k).map Prod.snd).sum = ((cs.take k).flatten.length : Int) := by
  rw [List.map_take, recorded_lengths, ← List.map_take]
  induction cs.take k with
  | nil => rfl
  | cons c cs ih =>
    rw [List.map_cons, List.sum_cons, ih, List.flatten_cons, List.length_append, Int.natCast_add]

/-- `n` bytes are a chunk boundary: the first `k` chunks are `n` bytes long. -/
def BoundaryAt (chunks : List (Int × Int)) (k n : Nat) : Prop :=
  ((chunks.take k).map Prod.snd).sum = n

/-- The lengths after a boundary are those of the rest alone. -/
theorem lengths_after_boundary {avg : Nat} (havg : 4 ≤ avg) {a s : List UInt8} {k : Nat}
    (h : BoundaryAt (recorded 0 ((cdcRule avg havg).chunks (a ++ s))) k a.length) :
    ((recorded 0 ((cdcRule avg havg).chunks (a ++ s))).drop k).map Prod.snd
      = ((cdcRule avg havg).chunks s).map (fun c => (c.length : Int)) := by
  have hk : (((cdcRule avg havg).chunks (a ++ s)).take k).flatten.length = a.length := by
    have := (sum_take_recorded 0 ((cdcRule avg havg).chunks (a ++ s)) k).symm.trans h
    omega
  rw [List.map_drop, recorded_lengths, ← List.map_drop, CutRule.drop_chunks_of_boundary _ hk]

/-- Edit locality of the chunking loop.  (a) A chunk that ends strictly inside
a prefix stays a chunk, whatever follows the prefix.  (b) After a boundary the
chunk lengths depend on the bytes after it only. -/
theorem chunksOf_edit_local (avg : Nat) (havg : 4 ≤ avg) :
    (∀ a s s' : List UInt8, ∃ chunks chunks', ChunksOf avg (a ++ s) chunks ∧
      ChunksOf avg (a ++ s') chunks' ∧
      ∀ c ∈ chunks, c.1 + c.2 < a.length → c ∈ chunks') ∧
    (∀ a b s : List UInt8, ∃ chunks chunks', ChunksOf avg (a ++ s) chunks ∧
      ChunksOf avg (b ++ s) chunks' ∧
      ∀ i j, BoundaryAt chunks i a.length → BoundaryAt chunks' j b.length →
        (chunks.drop i).map Prod.snd = (chunks'.drop j).map Prod.snd) := by
  refine ⟨fun a s s' => ?_, fun a b s => ?_⟩
  · refine ⟨_, _, chunksOf_recorded havg (a ++ s), chunksOf_recorded havg (a ++ s'), ?_⟩
    intro c hc hend
    obtain ⟨o, n, hspan, rfl⟩ := mem_recorded_iff.mp hc
    refine mem_recorded_iff.mpr ⟨o, n, ?_, rfl⟩
    exact cdcRule_local.mem_spansFrom hspan (by simp only at hend; omega)
  · refine ⟨_, _, chunksOf_recorded havg (a ++ s), chunksOf_recorded havg (b ++ s), ?_⟩
    intro i j hi hj
    rw [lengths_after_boundary havg hi, lengths_after_boundary havg hj]

/-- The first chunk of some bytes that are longer than a chunk can be. -/
theorem recorded_eq_cons {avg : Nat} (havg : 4 ≤ avg) (data : List UInt8)
    (h : avg * 8 < data.length) :
    ∃ first rest, data = first ++ rest ∧ first ≠ [] ∧ rest ≠ [] ∧ first.length ≤ avg * 8 ∧
      recorded 0 ((cdcRule avg havg).chunks data) = ((0 : Int), (first.length : Int)) ::
        recorded (0 + first.length) ((cdcRule avg havg).chunks rest) := by
  have hne : data ≠ [] := List.ne_nil_of_length_pos (by omega)
  have hcut := (cdcRule avg havg).length_take_cut data
  have hpos := (cdcRule avg havg).cut_pos hne
  have hle : (cdcRule avg havg).cut data ≤ avg * 8 := cdcRule_cut_le_max data
  refine ⟨data.take ((cdcRule avg havg).cut data), data.drop ((cdcRule avg havg).cut data),
    (List.take_append_drop _ data).symm, ?_, ?_, ?_, ?_⟩
  · exact List.ne_nil_of_length_pos (by omega)
  · apply List.ne_nil_of_length_pos
    rw [List.length_drop]
    omega
  · omega
  · rw [CutRule.chunks_of_ne_nil _ hne, recorded_cons]
    rfl

/-- Forty bytes with a tail of one byte replaced by two, and the forty bytes without their
first chunk. -/
theorem chunksOf_edit_local_forty :
    (∃ chunks chunks' c, ChunksOf 4 (countingBytes 40 ++ [99]) chunks ∧
      ChunksOf 4 (countingBytes 40 ++ [100, 101]) chunks' ∧
      c ∈ chunks ∧ c.1 + c.2 < 40 ∧ c ∈ chunks') ∧
    ∃ first rest chunks chunks', countingBytes 40 = first ++ rest ∧ first ≠ [] ∧ rest ≠ [] ∧
      ChunksOf 4 rest chunks ∧ ChunksOf 4 (countingBytes 40) chunks' ∧
      chunks.map Prod.snd = (chunks'.drop 1).map Prod.snd := by
  have hlen := length_countingBytes 40
  constructor
  · obtain ⟨chunks, chunks', hchunks, hchunks', hkept⟩ :=
      (chunksOf_edit_local 4 (Nat.le_refl 4)).1 (countingBytes 40) [99] [100, 101]
    obtain ⟨first, rest, -, -, -, hfirst, hcons⟩ :=
      recorded_eq_cons (Nat.le_refl 4) (countingBytes 40 ++ [99])
        (by rw [List.length_append, hlen]; decide)
    have hmem : ((0 : Int), (first.length : Int)) ∈ chunks := by
      rw [hchunks.unique (chunksOf_recorded (Nat.le_refl 4) _), hcons]
      exact List.mem_cons_self
    have hend : (0 : Int) + first.length < 40 := by omega
    exact ⟨chunks, chunks', _, hchunks, hchunks', hmem, hend,
      hkept _ hmem (by rw [hlen]; exact hend)⟩
  · obtain ⟨first, rest, hsplit, hfirst, hrest, -, hcons⟩ :=
      recorded_eq_cons (Nat.le_refl 4) (countingBytes 40) (by rw [hlen]; decide)
    obtain ⟨chunks, chunks', hchunks, hchunks', hsame⟩ :=
      (chunksOf_edit_local 4 (Nat.le_refl 4)).2 [] first rest
    rw [← hsplit] at hchunks'
    have hboundary : BoundaryAt chunks' 1 first.length := by
      rw [hchunks'.unique (chunksOf_recorded (Nat.le_refl 4) _), hcons, BoundaryAt]
      simp
    exact ⟨first, rest, chunks, chunks', hsplit, hfirst, hrest, hchunks, hchunks',
      hsame 0 1 rfl hboundary⟩

end DpuTest.Sha
