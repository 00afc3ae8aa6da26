import DpuTest.ReadBench.Dataset

/-!
# What a writer leaves in the pool

However `read` splits the files, a writer sends the blocks of `OBJECT_BYTES` of
their content: all of them when it succeeds, the first few when it fails.  This
is the invariant of its loops, `Filled`, and what is left of it after a failure,
`Failed`.

`Wrote` is the effect of a whole run on the pool: the objects, and after them
the manifest if the run succeeded.  Both programs have it, with their own
relation between a block and the stored object (`writeCompressedDataset_wrote`,
`writeRawDataset_wrote`).  A run that meets no error succeeds
(`writeCompressedDataset_succeeds`, `writeRawDataset_succeeds`).
-/

namespace DpuTest.ReadBench

open Lib

/-! ## What a sink has been sent -/

/-- The objects of a prefix hold `chunks`, from index 0 on, and nothing else has
changed. -/
structure Holds (Stored : List UInt8 → List UInt8 → Prop) (pfx : Prefix) (before after : Pool)
    (chunks : List (List UInt8)) : Prop where
  object : ∀ {i : Nat} {chunk : List UInt8}, chunks[i]? = some chunk →
    ∃ object, after (objectName pfx.chars (UInt64.ofNat i)) = some object ∧ Stored chunk object
  other : ∀ oid, (∀ i < chunks.length, oid ≠ objectName pfx.chars (UInt64.ofNat i)) →
    after oid = before oid

/-- A sink stores an object under its name, or fails and changes nothing. -/
structure SinkSpec {S : Type} (write : Sink S) (poolOf : S → Pool)
    (Stored : List UInt8 → List UInt8 → Prop) (pfx : Prefix) : Prop where
  ok : ∀ {index raw s s'}, raw.length ≤ OBJECT_BYTES → write index raw s = (true, s') →
    ∃ object, Stored raw object ∧
      poolOf s' = Function.update (poolOf s) (objectName pfx.chars index) (some object)
  failed : ∀ {index raw s s'}, raw.length ≤ OBJECT_BYTES → write index raw s = (false, s') →
    poolOf s' = poolOf s

section

variable {Stored : List UInt8 → List UInt8 → Prop} {pfx : Prefix} {before after : Pool}
  {chunks : List (List UInt8)}

theorem Holds.nil : Holds Stored pfx before before [] where
  object h := by simp at h
  other _ _ := rfl

/-- One object more. -/
theorem Holds.snoc (h : Holds Stored pfx before after chunks) (hcount : chunks.length < 2 ^ 64)
    {chunk object : List UInt8} (hstored : Stored chunk object) :
    Holds Stored pfx before
      (Function.update after (objectName pfx.chars (UInt64.ofNat chunks.length)) (some object))
      (chunks ++ [chunk]) where
  object := by
    intro i c hi
    by_cases hlt : i < chunks.length
    · rw [List.getElem?_append_left hlt] at hi
      obtain ⟨o, ho, hc⟩ := h.object hi
      have hne : objectName pfx.chars (UInt64.ofNat i) ≠
          objectName pfx.chars (UInt64.ofNat chunks.length) := by
        intro heq
        have hidx := congrArg UInt64.toNat (objectName_inj heq).2
        rw [UInt64.toNat_ofNat_of_lt' (Nat.lt_trans hlt hcount),
          UInt64.toNat_ofNat_of_lt' hcount] at hidx
        exact absurd hidx (Nat.ne_of_lt hlt)
      exact ⟨o, by rw [Function.update_of_ne hne]; exact ho, hc⟩
    · have hieq : i = chunks.length := by
        have hbound := (List.getElem?_eq_some_iff.mp hi).1
        rw [List.length_append, List.length_singleton] at hbound
        omega
      subst hieq
      rw [List.getElem?_append_right (Nat.le_refl _), Nat.sub_self] at hi
      cases hi
      exact ⟨object, Function.update_self .., hstored⟩
  other := by
    intro oid hoid
    rw [List.length_append, List.length_singleton] at hoid
    rw [Function.update_of_ne (hoid _ (Nat.lt_succ_self _))]
    exact h.other oid (fun i hi => hoid i (Nat.lt_succ_of_lt hi))

end

/-- The number of objects that a `uint64_t` can count, in bytes. -/
def CONTENT_LIMIT : Nat := (2 ^ 64 - 1) * OBJECT_BYTES

/-- The writer has read `input`, sent the blocks `done`, and holds the rest. -/
structure Filled {S : Type} (poolOf : S → Pool) (Stored : List UInt8 → List UInt8 → Prop)
    (pfx : Prefix) (before : Pool) (input : List UInt8) (s : WriterState S)
    (done : List (List UInt8)) : Prop where
  filling : Filling OBJECT_BYTES input done s.fill
  holds : Holds Stored pfx before (poolOf s.sink) done
  count_eq : s.objectCount = UInt64.ofNat done.length
  total_eq : s.totalRaw = UInt64.ofNat input.length

/-- The writer has failed after it had sent the blocks `done` of `input`. -/
structure Failed {S : Type} (poolOf : S → Pool) (Stored : List UInt8 → List UInt8 → Prop)
    (pfx : Prefix) (before : Pool) (input : List UInt8) (s : WriterState S)
    (done : List (List UInt8)) : Prop where
  full : ∀ b ∈ done, b.length = OBJECT_BYTES
  input_eq : ∃ tail, input = done.flatten ++ tail
  holds : Holds Stored pfx before (poolOf s.sink) done
  count_eq : s.objectCount = UInt64.ofNat done.length

section

variable {S : Type} {write : Sink S} {poolOf : S → Pool}
  {Stored : List UInt8 → List UInt8 → Prop} {pfx : Prefix} {before : Pool}
  {input : List UInt8} {s s' : WriterState S} {done : List (List UInt8)}

theorem Filled.failed (h : Filled poolOf Stored pfx before input s done) (more : List UInt8) :
    Failed poolOf Stored pfx before (input ++ more) s done where
  full := h.filling.full
  input_eq := ⟨s.fill ++ more, by rw [h.filling.input_eq, List.append_assoc]⟩
  holds := h.holds
  count_eq := h.count_eq

theorem Failed.append (h : Failed poolOf Stored pfx before input s done) (more : List UInt8) :
    Failed poolOf Stored pfx before (input ++ more) s done where
  full := h.full
  input_eq := by
    obtain ⟨tail, htail⟩ := h.input_eq
    exact ⟨tail ++ more, by rw [htail, List.append_assoc]⟩
  holds := h.holds
  count_eq := h.count_eq

/-- Bytes that do not fill the buffer. -/
theorem Filled.push (h : Filled poolOf Stored pfx before input s done) {bs : List UInt8}
    (hlt : s.fill.length + bs.length < OBJECT_BYTES) :
    Filled poolOf Stored pfx before (input ++ bs) (s.push bs) done where
  filling := h.filling.push hlt
  holds := h.holds
  count_eq := h.count_eq
  total_eq := by
    show s.totalRaw + UInt64.ofNat bs.length = _
    rw [h.total_eq, List.length_append, UInt64.ofNat_add]

/-- A send that succeeds. -/
theorem send_ok (hw : SinkSpec write poolOf Stored pfx) (hfill : s.fill.length ≤ OBJECT_BYTES)
    (hholds : Holds Stored pfx before (poolOf s.sink) done)
    (hcount : s.objectCount = UInt64.ofNat done.length) (hlt : done.length < 2 ^ 64)
    (h : s.send write = (true, s')) :
    Holds Stored pfx before (poolOf s'.sink) (done ++ [s.fill]) ∧
      s'.objectCount = UInt64.ofNat (done ++ [s.fill]).length ∧
      s'.fill = s.fill ∧ s'.totalRaw = s.totalRaw := by
  unfold WriterState.send at h
  split at h
  · cases h
  · rename_i sink hwrite
    cases h
    obtain ⟨object, hstored, hsink⟩ := hw.ok hfill hwrite
    refine ⟨?_, ?_, rfl, rfl⟩
    · rw [hsink, hcount]
      exact hholds.snoc hlt hstored
    · rw [List.length_append, UInt64.ofNat_add, ← hcount]
      rfl

/-- A send that fails. -/
theorem send_failed (hw : SinkSpec write poolOf Stored pfx)
    (hfill : s.fill.length ≤ OBJECT_BYTES) (h : s.send write = (false, s')) :
    poolOf s'.sink = poolOf s.sink ∧ s'.objectCount = s.objectCount := by
  unfold WriterState.send at h
  split at h
  · rename_i sink hwrite
    cases h
    exact ⟨hw.failed hfill hwrite, rfl⟩
  · cases h

/-- The index of an object of the content is a `uint64_t`. -/
theorem length_done_lt (h : done.length * OBJECT_BYTES ≤ input.length)
    (hlimit : input.length ≤ CONTENT_LIMIT) : done.length < 2 ^ 64 := by
  have hmul := Nat.le_trans h hlimit
  have hle : done.length ≤ 2 ^ 64 - 1 := Nat.le_of_mul_le_mul_right hmul OBJECT_BYTES_pos
  omega

/-- The loop over one file. -/
theorem readLoop_spec (hw : SinkSpec write poolOf Stored pfx) {file : OpenFile} {ok : Bool}
    (hs : Filled poolOf Stored pfx before input s done)
    (hlimit : (input ++ file.rest).length ≤ CONTENT_LIMIT)
    (hrun : readLoop write file s = (ok, s')) :
    if ok then ∃ done', Filled poolOf Stored pfx before (input ++ file.rest) s' done'
    else ∃ done', Failed poolOf Stored pfx before (input ++ file.rest) s' done' := by
  induction file, s using readLoop.induct write generalizing input done with
  | case1 file s f' hread =>
    rw [readLoop_eq, hread] at hrun
    cases hrun
    exact ⟨done, hs.failed _⟩
  | case2 file s f' hread ih =>
    rw [readLoop_eq, hread] at hrun
    have hrest := (OpenFile.read_interrupted hread).1
    rw [← hrest] at hlimit ⊢
    exact ih hs hlimit hrun
  | case3 file s f' hread =>
    rw [readLoop_eq, hread] at hrun
    cases hrun
    have hroom := hs.filling.room
    have hrest := (OpenFile.read_bytes hread).2.2.2 rfl (by omega)
    rw [hrest, List.append_nil]
    exact ⟨done, hs⟩
  | case4 file s bs f' hread hbs hfull s₁ hsend =>
    rw [readLoop_eq, hread] at hrun
    simp only [if_neg hbs, if_pos hfull, hsend] at hrun
    cases hrun
    obtain ⟨hpool, hcount⟩ := send_failed hw (Nat.le_of_eq hfull) hsend
    obtain ⟨hf, hi, hh, hc⟩ := hs.failed file.rest
    refine ⟨done, hf, hi, ?_, hcount.trans hc⟩
    rw [hpool]
    exact hh
  | case5 file s bs f' hread hbs hfull s₁ hsend ih =>
    rw [readLoop_eq, hread] at hrun
    simp only [if_neg hbs, if_pos hfull, hsend] at hrun
    obtain ⟨hrest, -⟩ := OpenFile.read_bytes hread
    have hfill : s.fill.length + bs.length = OBJECT_BYTES := by
      rw [← List.length_append]
      exact hfull
    have hflush := hs.filling.flush hfill
    rw [hrest, ← List.append_assoc] at hlimit ⊢
    have hlt : done.length < 2 ^ 64 := by
      refine length_done_lt hs.filling.length_done_mul_le ?_
      rw [List.append_assoc, List.length_append] at hlimit
      omega
    obtain ⟨hholds, hcount, -, htotal⟩ :=
      send_ok hw (Nat.le_of_eq hfull) hs.holds hs.count_eq hlt hsend
    refine ih ⟨hflush, hholds, hcount, ?_⟩ hlimit hrun
    show s₁.totalRaw = _
    rw [htotal]
    show s.totalRaw + UInt64.ofNat bs.length = _
    rw [hs.total_eq, List.length_append, UInt64.ofNat_add]
  | case6 file s bs f' hread hbs hfull ih =>
    rw [readLoop_eq, hread] at hrun
    simp only [if_neg hbs, if_neg hfull] at hrun
    obtain ⟨hrest, hle, -⟩ := OpenFile.read_bytes hread
    have hroom := hs.filling.room
    have hfill : s.fill.length + bs.length < OBJECT_BYTES := by
      have hne : s.fill.length + bs.length ≠ OBJECT_BYTES := by
        rw [← List.length_append]
        exact hfull
      omega
    rw [hrest, ← List.append_assoc] at hlimit ⊢
    exact ih (hs.push hfill) hlimit hrun

/-- What the files of a dataset hold, one after the other. -/
def contentOf (files : List LogFile) : List UInt8 := (files.map LogFile.content).flatten

/-- The raw objects of a dataset. -/
def rawObjects (content : List UInt8) : List (List UInt8) :=
  (fixedRule OBJECT_BYTES OBJECT_BYTES_pos).chunks content

/-- The loop over the files. -/
theorem fileLoop_spec (hw : SinkSpec write poolOf Stored pfx) {files : List LogFile} {ok : Bool}
    (hs : Filled poolOf Stored pfx before input s done)
    (hlimit : (input ++ contentOf files).length ≤ CONTENT_LIMIT)
    (hrun : fileLoop write files s = (ok, s')) :
    if ok then ∃ done', Filled poolOf Stored pfx before (input ++ contentOf files) s' done'
    else ∃ done', Failed poolOf Stored pfx before (input ++ contentOf files) s' done' := by
  induction files generalizing s input done with
  | nil =>
    cases hrun
    rw [contentOf, List.map_nil, List.flatten_nil, List.append_nil]
    exact ⟨done, hs⟩
  | cons f fs ih =>
    have hcontent : input ++ contentOf (f :: fs) = input ++ f.content ++ contentOf fs := by
      rw [List.append_assoc]
      rfl
    rw [hcontent] at hlimit ⊢
    have hlimit' : (input ++ f.content).length ≤ CONTENT_LIMIT := by
      rw [List.length_append] at hlimit
      omega
    rw [fileLoop] at hrun
    split at hrun
    · split at hrun
      · rename_i s₁ hloop
        cases hrun
        obtain ⟨done', hfailed⟩ := readLoop_spec hw hs hlimit' hloop
        exact ⟨done', hfailed.append _⟩
      · rename_i s₁ hloop
        obtain ⟨done', hfilled⟩ := readLoop_spec hw hs hlimit' hloop
        exact ih hfilled hlimit hrun
    · cases hrun
      rw [List.append_assoc]
      exact ⟨done, hs.failed _⟩

/-- After a failure, the blocks that were sent are the first of the content. -/
theorem Failed.prefix_rawObjects (h : Failed poolOf Stored pfx before input s done) :
    done <+: rawObjects input := by
  obtain ⟨tail, htail⟩ := h.input_eq
  rw [rawObjects, htail, chunks_fixed_flatten_append OBJECT_BYTES_pos h.full]
  exact List.prefix_append _ _

/-- All objects, when nothing fails; the first few, when something does. -/
theorem writeObjects_spec (hw : SinkSpec write poolOf Stored pfx) {files : List LogFile}
    {ok : Bool} (hlimit : (contentOf files).length ≤ CONTENT_LIMIT)
    (hs : Filled poolOf Stored pfx before [] s [])
    (hrun : writeObjects write files s = (ok, s')) :
    ∃ done, done <+: rawObjects (contentOf files) ∧
      Holds Stored pfx before (poolOf s'.sink) done ∧
      s'.objectCount = UInt64.ofNat done.length ∧
      (ok = true → done = rawObjects (contentOf files) ∧
        s'.totalRaw = UInt64.ofNat (contentOf files).length) := by
  unfold writeObjects at hrun
  split at hrun
  · rename_i s₁ hloop
    cases hrun
    obtain ⟨done, hfailed⟩ := fileLoop_spec hw hs hlimit hloop
    exact ⟨done, hfailed.prefix_rawObjects, hfailed.holds, hfailed.count_eq, fun h => by cases h⟩
  · rename_i s₁ hloop
    obtain ⟨done, hfilled⟩ := fileLoop_spec hw hs hlimit hloop
    rw [List.nil_append] at hfilled
    have hchunks : rawObjects (contentOf files) = done ++ if s₁.fill = [] then [] else [s₁.fill] :=
      hfilled.filling.chunks_eq OBJECT_BYTES_pos
    have hroom := hfilled.filling.room
    split at hrun
    · rename_i hnil
      cases hrun
      rw [if_pos hnil, List.append_nil] at hchunks
      rw [hchunks]
      exact ⟨done, List.prefix_refl _, hfilled.holds, hfilled.count_eq,
        fun _ => ⟨rfl, hfilled.total_eq⟩⟩
    · rename_i hne
      rw [if_neg hne] at hchunks
      cases ok with
      | false =>
        obtain ⟨hpool, hcount⟩ := send_failed hw (Nat.le_of_lt hroom) hrun
        refine ⟨done, ?_, ?_, hcount.trans hfilled.count_eq, fun h => by cases h⟩
        · rw [hchunks]
          exact List.prefix_append _ _
        · rw [hpool]
          exact hfilled.holds
      | true =>
        have hlt := length_done_lt hfilled.filling.length_done_mul_le hlimit
        obtain ⟨hholds, hcount, -, htotal⟩ :=
          send_ok hw (Nat.le_of_lt hroom) hfilled.holds hfilled.count_eq hlt hrun
        refine ⟨done ++ [s₁.fill], ?_, hholds, hcount, fun _ => ⟨hchunks.symm, ?_⟩⟩
        · rw [hchunks]
        · rw [htotal, hfilled.total_eq]

end

/-! ## Whole runs -/

/-- The effect of a run on the pool. -/
structure Wrote (Stored : List UInt8 → List UInt8 → Prop) (pfx : Prefix) (content : List UInt8)
    (before : Pool) (r : WriteResult) (done : List (List UInt8)) (middle : Pool) : Prop where
  done_prefix : done <+: rawObjects content
  count_eq : r.objectCount = UInt64.ofNat done.length
  holds : Holds Stored pfx before middle done
  failed : r.status = false → r.rados.pool = middle
  ok : r.status = true → done = rawObjects content ∧ ∃ totalCompressed, r.rados.pool =
    Function.update middle (manifestName pfx.chars) (some (newManifest pfx.chars
      (UInt64.ofNat done.length) (UInt64.ofNat content.length) totalCompressed).bytes)

/-- The two ways a call of `rados_write_full` ends. -/
theorem radosWriteFull_pool (rados : Rados) (oid data : List UInt8) :
    (radosWriteFull rados oid data).2.pool =
      if (radosWriteFull rados oid data).1 then Function.update rados.pool oid (some data)
      else rados.pool := by
  unfold radosWriteFull
  split <;> rfl

theorem radosWriteFull_true {rados rados' : Rados} {oid data : List UInt8}
    (h : radosWriteFull rados oid data = (true, rados')) :
    rados'.pool = Function.update rados.pool oid (some data) := by
  have hpool := radosWriteFull_pool rados oid data
  rw [h] at hpool
  exact hpool

theorem radosWriteFull_false {rados rados' : Rados} {oid data : List UInt8}
    (h : radosWriteFull rados oid data = (false, rados')) : rados'.pool = rados.pool := by
  have hpool := radosWriteFull_pool rados oid data
  rw [h] at hpool
  exact hpool

/-- The object that a compressed dataset has for a block. -/
def StoredChunk (z : Zlib) (Good : List UInt8 → List UInt8 → Prop) (raw object : List UInt8) :
    Prop :=
  ∃ fs, fs.map Frame.raw = rawFrames raw ∧ Encoded z Good fs ∧ object = packObject z.checksum fs

section

variable {z : Zlib} {Good : List UInt8 → List UInt8 → Prop} (pfx : Prefix)

theorem rawSink_spec :
    SinkSpec (rawSink pfx.chars) Rados.pool (fun raw object => object = raw) pfx where
  ok _ h := ⟨_, rfl, radosWriteFull_true h⟩
  failed _ h := radosWriteFull_false h

/-- The call of `rados_write_full` in a chunk. -/
theorem chunkSink_write (hz : z.Encodes Good) {capacity : Nat} {index : UInt64}
    (hcap : objectCapacity z ≤ capacity) {raw : List UInt8} (hraw : raw.length ≤ OBJECT_BYTES)
    {s s' : ChunkSink capacity} {status : Bool}
    (h : chunkSink z pfx.chars index raw s = (status, s')) :
    ∃ fs, fs.map Frame.raw = rawFrames raw ∧ Encoded z Good fs ∧
      radosWriteFull s.rados (objectName pfx.chars index) (packObject z.checksum fs) =
        (status, s'.rados) := by
  obtain ⟨buffer, fs, hfs, henc, hwrite⟩ :=
    writeChunk_eq index hz hcap hraw s.objectBuffer s.rados pfx.chars s.compressedTotal
  refine ⟨fs, hfs, henc, ?_⟩
  unfold chunkSink at h
  rw [hwrite] at h
  cases hrados : radosWriteFull s.rados (objectName pfx.chars index)
      (packObject z.checksum fs) with
  | mk written rados =>
    rw [hrados] at h
    cases written with
    | false =>
      cases h
      rfl
    | true =>
      cases h
      rfl

theorem chunkSink_spec (hz : z.Encodes Good) {capacity : Nat} (hcap : objectCapacity z ≤ capacity) :
    SinkSpec (chunkSink z pfx.chars) (ChunkSink.pool : ChunkSink capacity → Pool)
      (StoredChunk z Good) pfx where
  ok := by
    intro index raw s s' hraw h
    obtain ⟨fs, hfs, henc, hwrite⟩ := chunkSink_write pfx hz hcap hraw h
    exact ⟨_, ⟨fs, hfs, henc, rfl⟩, radosWriteFull_true hwrite⟩
  failed := by
    intro index raw s s' hraw h
    obtain ⟨fs, -, -, hwrite⟩ := chunkSink_write pfx hz hcap hraw h
    exact radosWriteFull_false hwrite

/-- A writer before the first file. -/
theorem Filled.start {S : Type} (poolOf : S → Pool) (Stored : List UInt8 → List UInt8 → Prop)
    (sink : S) :
    Filled poolOf Stored pfx (poolOf sink) []
      { sink := sink, fill := [], objectCount := 0, totalRaw := 0 } [] where
  filling := Filling.start OBJECT_BYTES_pos
  holds := Holds.nil
  count_eq := rfl
  total_eq := rfl

/-- The manifest after the objects. -/
theorem writeManifest_wrote {Stored : List UInt8 → List UInt8 → Prop} {content : List UInt8}
    {before : Pool} {rados : Rados} {done : List (List UInt8)}
    (hdone : done = rawObjects content) (hholds : Holds Stored pfx before rados.pool done)
    (totalCompressed : UInt64) :
    Wrote Stored pfx content before
      (writeManifest rados pfx.chars (UInt64.ofNat done.length) (UInt64.ofNat content.length)
        totalCompressed) done rados.pool := by
  have hfirst : done <+: rawObjects content := by rw [hdone]
  unfold writeManifest
  cases h : radosWriteFull rados (manifestName pfx.chars) (newManifest pfx.chars
      (UInt64.ofNat done.length) (UInt64.ofNat content.length) totalCompressed).bytes with
  | mk status rados' =>
    simp only [h]
    refine ⟨hfirst, rfl, hholds, ?_, ?_⟩
    · intro hstatus
      cases hstatus
      exact radosWriteFull_false h
    · intro hstatus
      cases hstatus
      exact ⟨hdone, totalCompressed, radosWriteFull_true h⟩

/-- A run that fails before the manifest. -/
theorem wrote_of_failed {Stored : List UInt8 → List UInt8 → Prop} {content : List UInt8}
    {before : Pool} {rados : Rados} {done : List (List UInt8)} {objectCount : UInt64}
    (hdone : done <+: rawObjects content) (hcount : objectCount = UInt64.ofNat done.length)
    (hholds : Holds Stored pfx before rados.pool done) :
    Wrote Stored pfx content before
      { status := false, objectCount := objectCount, rados := rados } done rados.pool where
  done_prefix := hdone
  count_eq := hcount
  holds := hholds
  failed _ := rfl
  ok h := by cases h

theorem writeRawDataset_wrote {files : List LogFile}
    (hlimit : (contentOf files).length ≤ CONTENT_LIMIT) (rados : Rados) :
    ∃ done middle, Wrote (fun raw object => object = raw) pfx (contentOf files) rados.pool
      (writeRawDataset rados pfx.chars files) done middle := by
  unfold writeRawDataset
  split
  · exact ⟨[], _, wrote_of_failed pfx List.nil_prefix rfl Holds.nil⟩
  · split
    · rename_i s hrun
      obtain ⟨done, hdone, hholds, hcount, -⟩ := writeObjects_spec (rawSink_spec pfx) hlimit
        (Filled.start pfx Rados.pool _ rados) hrun
      exact ⟨done, _, wrote_of_failed pfx hdone hcount hholds⟩
    · rename_i s hrun
      obtain ⟨done, -, hholds, hcount, hok⟩ := writeObjects_spec (rawSink_spec pfx) hlimit
        (Filled.start pfx Rados.pool _ rados) hrun
      obtain ⟨hdone, htotal⟩ := hok rfl
      rw [hcount, htotal]
      exact ⟨done, _, writeManifest_wrote pfx hdone hholds _⟩

theorem writeCompressedDataset_wrote (hz : z.Encodes Good) {files : List LogFile}
    (hlimit : (contentOf files).length ≤ CONTENT_LIMIT)
    (memory : Buffer UInt8 (objectCapacity z)) (rados : Rados) :
    ∃ done middle, Wrote (StoredChunk z Good) pfx (contentOf files) rados.pool
      (writeCompressedDataset z memory rados pfx.chars files) done middle := by
  have hsink := chunkSink_spec pfx hz (Nat.le_refl (objectCapacity z))
  unfold writeCompressedDataset
  split
  · exact ⟨[], _, wrote_of_failed pfx List.nil_prefix rfl Holds.nil⟩
  · split
    · rename_i s hrun
      obtain ⟨done, hdone, hholds, hcount, -⟩ := writeObjects_spec hsink hlimit
        (Filled.start pfx ChunkSink.pool _ _) hrun
      exact ⟨done, _, wrote_of_failed pfx hdone hcount hholds⟩
    · rename_i s hrun
      obtain ⟨done, -, hholds, hcount, hok⟩ := writeObjects_spec hsink hlimit
        (Filled.start pfx ChunkSink.pool _ _) hrun
      obtain ⟨hdone, htotal⟩ := hok rfl
      rw [hcount, htotal]
      exact ⟨done, _, writeManifest_wrote pfx hdone hholds _⟩

end

/-! ## Runs that meet no error -/

/-- A file that can be opened and read. -/
def LogFile.Readable (f : LogFile) : Prop := f.canOpen = true ∧ ReadEvent.failed ∉ f.events

/-- A sink that is ready for an object takes it, and is ready for the next. -/
def Takes {S : Type} (write : Sink S) (Ready : S → Prop) : Prop :=
  ∀ index raw s, raw.length ≤ OBJECT_BYTES → Ready s →
    ∃ s', write index raw s = (true, s') ∧ Ready s'

/-- A call of `read` uses up one event. -/
theorem OpenFile.read_events (f : OpenFile) (count : Nat) :
    (f.read count).2.events = f.events.tail := by
  unfold read
  split <;> simp_all

theorem OpenFile.read_failed {f f' : OpenFile} {count : Nat}
    (h : f.read count = (.failed, f')) : ReadEvent.failed ∈ f.events := by
  unfold read at h
  split at h
  · cases h
  · cases h
  · cases h
  · rename_i events hevents
    rw [hevents]
    exact List.mem_cons_self

section

variable {S : Type} {write : Sink S} {Ready : S → Prop} {s : WriterState S}

theorem send_succeeds (hw : Takes write Ready) (hfill : s.fill.length ≤ OBJECT_BYTES)
    (hs : Ready s.sink) : ∃ s', s.send write = (true, s') ∧ Ready s'.sink := by
  obtain ⟨sink, hwrite, hready⟩ := hw s.objectCount s.fill s.sink hfill hs
  refine ⟨{ s with sink := sink, objectCount := s.objectCount + 1 }, ?_, hready⟩
  simp only [WriterState.send, hwrite]

theorem readLoop_succeeds (hw : Takes write Ready) (file : OpenFile)
    (hfile : ReadEvent.failed ∉ file.events) (hfill : s.fill.length < OBJECT_BYTES)
    (hs : Ready s.sink) :
    ∃ s', readLoop write file s = (true, s') ∧ s'.fill.length < OBJECT_BYTES ∧ Ready s'.sink := by
  have hnext {f' : OpenFile} {result : ReadResult} {file : OpenFile} {count : Nat}
      (hfile : ReadEvent.failed ∉ file.events) (hread : file.read count = (result, f')) :
      ReadEvent.failed ∉ f'.events := by
    have hevents := file.read_events count
    rw [hread] at hevents
    intro hmem
    exact hfile (List.mem_of_mem_tail (by rw [← hevents]; exact hmem))
  induction file, s using readLoop.induct write with
  | case1 file s f' hread => exact absurd (OpenFile.read_failed hread) hfile
  | case2 file s f' hread ih =>
    rw [readLoop_eq, hread]
    exact ih (hnext hfile hread) hfill hs
  | case3 file s f' hread =>
    rw [readLoop_eq, hread]
    exact ⟨s, rfl, hfill, hs⟩
  | case4 file s bs f' hread hbs hfull s₁ hsend =>
    obtain ⟨s', hsent, -⟩ := send_succeeds (s := s.push bs) hw (Nat.le_of_eq hfull) hs
    rw [hsend] at hsent
    cases hsent
  | case5 file s bs f' hread hbs hfull s₁ hsend ih =>
    rw [readLoop_eq, hread]
    simp only [if_neg hbs, if_pos hfull, hsend]
    obtain ⟨s', hsent, hready⟩ := send_succeeds (s := s.push bs) hw (Nat.le_of_eq hfull) hs
    rw [hsend] at hsent
    cases hsent
    exact ih (hnext hfile hread) OBJECT_BYTES_pos hready
  | case6 file s bs f' hread hbs hfull ih =>
    rw [readLoop_eq, hread]
    simp only [if_neg hbs, if_neg hfull]
    obtain ⟨-, hle, -⟩ := OpenFile.read_bytes hread
    refine ih (hnext hfile hread) (Nat.lt_of_le_of_ne ?_ hfull) hs
    show (s.fill ++ bs).length ≤ OBJECT_BYTES
    rw [List.length_append]
    omega

theorem fileLoop_succeeds (hw : Takes write Ready) {files : List LogFile}
    (hfiles : ∀ f ∈ files, f.Readable) (hfill : s.fill.length < OBJECT_BYTES) (hs : Ready s.sink) :
    ∃ s', fileLoop write files s = (true, s') ∧ s'.fill.length < OBJECT_BYTES ∧ Ready s'.sink := by
  induction files generalizing s with
  | nil => exact ⟨s, rfl, hfill, hs⟩
  | cons f fs ih =>
    obtain ⟨hopen, hread⟩ := hfiles f List.mem_cons_self
    obtain ⟨s₁, hloop, hfill₁, hs₁⟩ :=
      readLoop_succeeds hw { rest := f.content, events := f.events } hread hfill hs
    rw [fileLoop, if_pos hopen, hloop]
    exact ih (fun g hg => hfiles g (List.mem_cons_of_mem _ hg)) hfill₁ hs₁

theorem writeObjects_succeeds (hw : Takes write Ready) {files : List LogFile}
    (hfiles : ∀ f ∈ files, f.Readable) (hfill : s.fill.length < OBJECT_BYTES) (hs : Ready s.sink) :
    ∃ s', writeObjects write files s = (true, s') ∧ Ready s'.sink := by
  obtain ⟨s₁, hloop, hfill₁, hs₁⟩ := fileLoop_succeeds hw hfiles hfill hs
  unfold writeObjects
  rw [hloop]
  by_cases hnil : s₁.fill = []
  · exact ⟨s₁, if_pos hnil, hs₁⟩
  · obtain ⟨s', hsend, hs'⟩ := send_succeeds hw (Nat.le_of_lt hfill₁) hs₁
    exact ⟨s', by simp only [if_neg hnil, hsend], hs'⟩

end

/-- No call of `rados_write_full` fails. -/
def Rados.Up (rados : Rados) : Prop := false ∉ rados.outcomes

theorem radosWriteFull_up {rados : Rados} (h : rados.Up) (oid data : List UInt8) :
    ∃ rados', radosWriteFull rados oid data = (true, rados') ∧ rados'.Up := by
  unfold radosWriteFull
  split
  · rename_i later hlater
    exact absurd (by rw [hlater]; exact List.mem_cons_self) h
  · exact ⟨_, rfl, fun hmem => h (List.mem_of_mem_tail hmem)⟩

theorem rawSink_takes (pfx : List UInt8) : Takes (rawSink pfx) Rados.Up :=
  fun _ _ _ _ hs => radosWriteFull_up hs _ _

theorem chunkSink_takes {z : Zlib} {Good : List UInt8 → List UInt8 → Prop} (hz : z.Encodes Good)
    (pfx : List UInt8) :
    Takes (chunkSink z pfx) (fun s : ChunkSink (objectCapacity z) => s.rados.Up) := by
  intro index raw s hraw hs
  obtain ⟨buffer, fs, -, -, hwrite⟩ := writeChunk_eq index hz (Nat.le_refl (objectCapacity z)) hraw
    s.objectBuffer s.rados pfx s.compressedTotal
  obtain ⟨rados, hrados, hup⟩ :=
    radosWriteFull_up hs (objectName pfx index) (packObject z.checksum fs)
  unfold chunkSink
  rw [hwrite, hrados]
  exact ⟨_, rfl, hup⟩

theorem writeManifest_succeeds {rados : Rados} (h : rados.Up) (pfx : List UInt8)
    (objectCount totalRaw totalCompressed : UInt64) :
    (writeManifest rados pfx objectCount totalRaw totalCompressed).status = true := by
  obtain ⟨rados', hrados, -⟩ := radosWriteFull_up h (manifestName pfx)
    (newManifest pfx objectCount totalRaw totalCompressed).bytes
  simp only [writeManifest, hrados]

theorem writeRawDataset_succeeds {rados : Rados} (h : rados.Up) (pfx : List UInt8)
    {files : List LogFile} (hne : files ≠ []) (hfiles : ∀ f ∈ files, f.Readable) :
    (writeRawDataset rados pfx files).status = true := by
  obtain ⟨s, hrun, hs⟩ := writeObjects_succeeds (rawSink_takes pfx) hfiles
    (s := { sink := rados, fill := [], objectCount := 0, totalRaw := 0 }) OBJECT_BYTES_pos h
  unfold writeRawDataset
  rw [if_neg hne, hrun]
  exact writeManifest_succeeds hs _ _ _ _

theorem writeCompressedDataset_succeeds {z : Zlib} {Good : List UInt8 → List UInt8 → Prop}
    (hz : z.Encodes Good) (memory : Buffer UInt8 (objectCapacity z)) {rados : Rados}
    (h : rados.Up) (pfx : List UInt8) {files : List LogFile} (hne : files ≠ [])
    (hfiles : ∀ f ∈ files, f.Readable) :
    (writeCompressedDataset z memory rados pfx files).status = true := by
  obtain ⟨s, hrun, hs⟩ := writeObjects_succeeds (chunkSink_takes hz pfx) hfiles
    (s := { sink := { rados := rados, objectBuffer := memory, compressedTotal := 0 }
            fill := [], objectCount := 0, totalRaw := 0 }) OBJECT_BYTES_pos h
  unfold writeCompressedDataset
  rw [if_neg hne, hrun]
  exact writeManifest_succeeds hs _ _ _ _

end DpuTest.ReadBench
