import DpuTest.ReadBench.ReadPass

/-!
# Histories of runs

All datasets live in one pool, and any number of runs of the two programs, on
any prefixes, may have gone over it before a pass reads a prefix.  A `Cluster`
is the pool together with the log of the runs so far.

The log says what a prefix holds.  Its manifest is that of `lastSuccess`, the
last run on the prefix that returned success.  Its object `index` is that of
`owner`, the last run on the prefix that got as far as this object.
`Represents` states this of a cluster, `represents_step` is the step of one
run, and `represents_runAll` carries it along a history.

* `readPass_of_successes`: if all runs succeeded, a pass by the method of the
  last run on a prefix delivers the files of that run.
* `readPass_of_history`: with failed runs in between, a pass that returns 0
  delivers, object by object, what the owners wrote.  `readPass_torn` is a
  history where this is not a dataset that any run has written.
-/

namespace DpuTest.ReadBench

open Lib

/-! ## Runs -/

/-- A run of `write_compressed_dataset` or `write_raw_dataset`. -/
structure Run (z : Zlib) where
  kind : DatasetKind
  pfx : Prefix
  files : List LogFile
  /-- The counters of a run are of type `uint64_t`. -/
  content_le : (contentOf files).length ≤ CONTENT_LIMIT
  /-- How its calls of `rados_write_full` end. -/
  outcomes : List Bool
  /-- What `malloc` left in `object_buffer`. -/
  memory : Buffer UInt8 (objectCapacity z)

def Run.execute {z : Zlib} (run : Run z) (pool : Pool) : WriteResult :=
  match run.kind with
  | .compressed =>
    writeCompressedDataset z run.memory { pool := pool, outcomes := run.outcomes } run.pfx.chars
      run.files
  | .raw => writeRawDataset { pool := pool, outcomes := run.outcomes } run.pfx.chars run.files

/-- A run with what it returned, and how many objects it had written by then. -/
structure Finished (z : Zlib) where
  run : Run z
  status : Bool
  objectCount : UInt64

/-- The raw blocks of the files of a run. -/
def Finished.blocks {z : Zlib} (f : Finished z) : List (List UInt8) :=
  rawObjects (contentOf f.run.files)

/-- A pool, and the runs that have gone over it, the last one first. -/
structure Cluster (z : Zlib) where
  pool : Pool
  log : List (Finished z)

def Cluster.step {z : Zlib} (c : Cluster z) (run : Run z) : Cluster z where
  pool := (run.execute c.pool).rados.pool
  log :=
    { run := run
      status := (run.execute c.pool).status
      objectCount := (run.execute c.pool).objectCount } :: c.log

/-- The runs one after the other. -/
def runAll {z : Zlib} (pool : Pool) (runs : List (Run z)) : Cluster z :=
  runs.foldl Cluster.step { pool := pool, log := [] }

/-- What holds at first and is kept by every run holds after a history. -/
theorem runAll_induction {z : Zlib} {Inv : Cluster z → Prop} {pool : Pool}
    (hstart : Inv { pool := pool, log := [] }) (hstep : ∀ c run, Inv c → Inv (c.step run))
    (runs : List (Run z)) : Inv (runAll pool runs) := by
  unfold runAll
  induction runs using List.reverseRecOn with
  | nil => exact hstart
  | append_singleton runs run ih =>
    rw [List.foldl_append]
    exact hstep _ run ih

/-- The log has the runs of the history. -/
theorem runAll_log_runs {z : Zlib} (pool : Pool) (runs : List (Run z)) :
    (runAll pool runs).log.map Finished.run = runs.reverse := by
  unfold runAll
  induction runs using List.reverseRecOn with
  | nil => rfl
  | append_singleton runs run ih =>
    rw [List.foldl_append, List.reverse_append]
    exact congrArg (run :: ·) ih

/-! ## The effect of one run -/

section

variable {Stored : List UInt8 → List UInt8 → Prop} {pfx : Prefix} {content : List UInt8}
  {before middle : Pool} {r : WriteResult} {done : List (List UInt8)}

/-- The number of objects that a run has written is a `uint64_t`. -/
theorem Wrote.toNat_count (h : Wrote Stored pfx content before r done middle)
    (hlimit : content.length ≤ CONTENT_LIMIT) : r.objectCount.toNat = done.length := by
  have hlt := length_rawObjects_lt hlimit
  rw [h.count_eq, UInt64.toNat_ofNat_of_lt' (Nat.lt_of_le_of_lt h.done_prefix.length_le hlt)]

/-- The manifest comes after the objects, and changes none of them. -/
theorem Wrote.pool_eq_middle (h : Wrote Stored pfx content before r done middle)
    {oid : List UInt8} (hoid : oid ≠ manifestName pfx.chars) : r.rados.pool oid = middle oid := by
  cases hstatus : r.status with
  | false => rw [h.failed hstatus]
  | true =>
    obtain ⟨-, totalCompressed, hpool⟩ := h.ok hstatus
    rw [hpool, Function.update_of_ne hoid]

/-- The objects that a run has written hold the first blocks. -/
theorem Wrote.object (h : Wrote Stored pfx content before r done middle)
    (hlimit : content.length ≤ CONTENT_LIMIT) {index : UInt64} (hindex : index < r.objectCount) :
    ∃ chunk object, (rawObjects content)[index.toNat]? = some chunk ∧ Stored chunk object ∧
      r.rados.pool (objectName pfx.chars index) = some object := by
  have hlt : index.toNat < done.length := by
    rw [← h.toNat_count hlimit]
    exact hindex
  obtain ⟨object, hobject, hstored⟩ := h.holds.object (List.getElem?_eq_getElem hlt)
  rw [UInt64.ofNat_toNat] at hobject
  refine ⟨done[index.toNat], object, ?_, hstored, ?_⟩
  · obtain ⟨more, hmore⟩ := h.done_prefix
    rw [← hmore, List.getElem?_append_left hlt]
    exact List.getElem?_eq_getElem hlt
  · rw [h.pool_eq_middle (objectName_ne_manifestName _ _ _)]
    exact hobject

/-- The objects that a run has not got to are as before. -/
theorem Wrote.later_object (h : Wrote Stored pfx content before r done middle)
    (hlimit : content.length ≤ CONTENT_LIMIT) {index : UInt64} (hindex : ¬ index < r.objectCount) :
    r.rados.pool (objectName pfx.chars index) = before (objectName pfx.chars index) := by
  rw [h.pool_eq_middle (objectName_ne_manifestName _ _ _)]
  refine h.holds.other _ ?_
  intro i hi heq
  apply hindex
  rw [(objectName_inj heq).2, UInt64.lt_iff_toNat_lt, h.toNat_count hlimit]
  exact Nat.lt_of_le_of_lt (UInt64.toNat_ofNat'.trans_le (Nat.mod_le _ _)) hi

/-- A run that fails leaves the manifest as it was. -/
theorem Wrote.failed_manifest (h : Wrote Stored pfx content before r done middle)
    (hstatus : r.status = false) :
    r.rados.pool (manifestName pfx.chars) = before (manifestName pfx.chars) := by
  rw [h.failed hstatus]
  exact h.holds.other _ (fun i _ heq => objectName_ne_manifestName _ _ _ heq.symm)

/-- On another prefix a run leaves everything as it was. -/
theorem Wrote.other_prefix (h : Wrote Stored pfx content before r done middle) {p : Prefix}
    (hp : pfx ≠ p) :
    r.rados.pool (manifestName p.chars) = before (manifestName p.chars) ∧
      ∀ index, r.rados.pool (objectName p.chars index) = before (objectName p.chars index) := by
  constructor
  · have hne : manifestName p.chars ≠ manifestName pfx.chars := by
      intro heq
      exact hp (manifestName_inj heq).symm
    rw [h.pool_eq_middle hne]
    exact h.holds.other _ (fun i _ heq => objectName_ne_manifestName _ _ _ heq.symm)
  · intro index
    rw [h.pool_eq_middle (objectName_ne_manifestName _ _ _)]
    exact h.holds.other _ (fun i _ heq => hp (objectName_inj heq).1.symm)

end

section

variable {z : Zlib} {device : Inflater}

theorem execute_wrote (hz : z.RoundTrip device) (run : Run z) (pool : Pool) :
    ∃ done middle, Wrote (StoredBy z device run.kind) run.pfx (contentOf run.files) pool
      (run.execute pool) done middle := by
  have hlimit := run.content_le
  unfold Run.execute
  cases run.kind with
  | raw => exact writeRawDataset_wrote run.pfx hlimit { pool := pool, outcomes := run.outcomes }
  | compressed =>
    exact writeCompressedDataset_wrote run.pfx hz hlimit run.memory
      { pool := pool, outcomes := run.outcomes }

/-- A run that meets no error succeeds. -/
theorem execute_succeeds (hz : z.RoundTrip device) {run : Run z} (hne : run.files ≠ [])
    (hfiles : ∀ f ∈ run.files, f.Readable) (hup : false ∉ run.outcomes) (pool : Pool) :
    (run.execute pool).status = true := by
  unfold Run.execute
  have hrados : Rados.Up { pool := pool, outcomes := run.outcomes } := hup
  cases run.kind with
  | raw => exact writeRawDataset_succeeds hrados _ hne hfiles
  | compressed => exact writeCompressedDataset_succeeds hz _ hrados _ hne hfiles

end

/-! ## What the log says of a prefix -/

section

variable {z : Zlib}

/-- The last run on a prefix that returned success. -/
def lastSuccess (p : Prefix) (log : List (Finished z)) : Option (Finished z) :=
  log.find? (fun f => f.run.pfx = p ∧ f.status = true)

/-- The last run on a prefix that wrote the object with this index. -/
def owner (p : Prefix) (index : UInt64) (log : List (Finished z)) : Option (Finished z) :=
  log.find? (fun f => f.run.pfx = p ∧ index < f.objectCount)

/-- The pool holds what the log says; `start` is the pool before the first run. -/
structure Represents (device : Inflater) (start : Pool) (p : Prefix) (c : Cluster z) : Prop where
  count : ∀ f ∈ c.log, f.status = true → f.objectCount.toNat = f.blocks.length
  manifest : match lastSuccess p c.log with
    | none => c.pool (manifestName p.chars) = start (manifestName p.chars)
    | some f => ∃ totalCompressed, c.pool (manifestName p.chars) =
        some (newManifest p.chars (UInt64.ofNat f.blocks.length)
          (UInt64.ofNat (contentOf f.run.files).length) totalCompressed).bytes
  object : ∀ index f, owner p index c.log = some f → ∃ chunk object,
    f.blocks[index.toNat]? = some chunk ∧ StoredBy z device f.run.kind chunk object ∧
      c.pool (objectName p.chars index) = some object

variable {device : Inflater} {start : Pool} {p : Prefix} {c : Cluster z}

theorem represents_start (device : Inflater) (start : Pool) (p : Prefix) :
    Represents device start p ({ pool := start, log := [] } : Cluster z) where
  count f hf := by cases hf
  manifest := rfl
  object index f h := by cases h

/-- The manifest after one run more. -/
theorem step_manifest (hz : z.RoundTrip device) (h : Represents device start p c) (run : Run z) :
    match lastSuccess p (c.step run).log with
    | none => (c.step run).pool (manifestName p.chars) = start (manifestName p.chars)
    | some f => ∃ totalCompressed, (c.step run).pool (manifestName p.chars) =
        some (newManifest p.chars (UInt64.ofNat f.blocks.length)
          (UInt64.ofNat (contentOf f.run.files).length) totalCompressed).bytes := by
  obtain ⟨done, middle, hw⟩ := execute_wrote hz run c.pool
  by_cases hwritten : run.pfx = p ∧ (run.execute c.pool).status = true
  · obtain ⟨rfl, hstatus⟩ := hwritten
    obtain ⟨hdone, totalCompressed, hpool⟩ := hw.ok hstatus
    have hlast : lastSuccess run.pfx (c.step run).log = some
        { run := run, status := true, objectCount := (run.execute c.pool).objectCount } := by
      simp [lastSuccess, Cluster.step, hstatus]
    rw [hlast]
    refine ⟨totalCompressed, ?_⟩
    show (run.execute c.pool).rados.pool _ = _
    rw [hpool, Function.update_self, hdone]
    rfl
  · have hlast : lastSuccess p (c.step run).log = lastSuccess p c.log := by
      simp only [lastSuccess, Cluster.step]
      rw [List.find?_cons_of_neg (by simpa using hwritten)]
    have hsame : (c.step run).pool (manifestName p.chars) = c.pool (manifestName p.chars) := by
      by_cases hp : run.pfx = p
      · subst hp
        apply hw.failed_manifest
        rw [← Bool.not_eq_true]
        exact fun hstatus => hwritten ⟨rfl, hstatus⟩
      · exact (hw.other_prefix hp).1
    rw [hlast, hsame]
    exact h.manifest

/-- The objects after one run more. -/
theorem step_object (hz : z.RoundTrip device) (h : Represents device start p c) (run : Run z)
    {index : UInt64} {f : Finished z} (howner : owner p index (c.step run).log = some f) :
    ∃ chunk object, f.blocks[index.toNat]? = some chunk ∧
      StoredBy z device f.run.kind chunk object ∧
      (c.step run).pool (objectName p.chars index) = some object := by
  obtain ⟨done, middle, hw⟩ := execute_wrote hz run c.pool
  by_cases hwritten : run.pfx = p ∧ index < (run.execute c.pool).objectCount
  · obtain ⟨rfl, hindex⟩ := hwritten
    have hself : owner run.pfx index (c.step run).log = some
        { run := run, status := (run.execute c.pool).status
          objectCount := (run.execute c.pool).objectCount } := by
      simp [owner, Cluster.step, hindex]
    rw [hself] at howner
    cases howner
    exact hw.object run.content_le hindex
  · have hold : owner p index (c.step run).log = owner p index c.log := by
      simp only [owner, Cluster.step]
      rw [List.find?_cons_of_neg (by simpa using hwritten)]
    have hsame : (c.step run).pool (objectName p.chars index) =
        c.pool (objectName p.chars index) := by
      by_cases hp : run.pfx = p
      · subst hp
        exact hw.later_object run.content_le (fun hindex => hwritten ⟨rfl, hindex⟩)
      · exact (hw.other_prefix hp).2 index
    rw [hold] at howner
    rw [hsame]
    exact h.object index f howner

/-- One run more. -/
theorem represents_step (hz : z.RoundTrip device) (h : Represents device start p c)
    (run : Run z) : Represents device start p (c.step run) where
  count := by
    intro f hf hstatus
    rcases List.mem_cons.mp hf with rfl | hf
    · obtain ⟨done, middle, hw⟩ := execute_wrote hz run c.pool
      rw [hw.toNat_count run.content_le, (hw.ok hstatus).1]
      rfl
    · exact h.count f hf hstatus
  manifest := step_manifest hz h run
  object _ _ howner := step_object hz h run howner

/-- The pool after a history holds what the log says. -/
theorem represents_runAll (hz : z.RoundTrip device) (start : Pool) (p : Prefix)
    (runs : List (Run z)) : Represents device start p (runAll start runs) :=
  runAll_induction (represents_start device start p) (fun _ run h => represents_step hz h run) runs

end

/-! ## Runs over one small file -/

/-- A raw run over one file that fits into an object. -/
theorem writeRawDataset_single (rados : Rados) (pfx : List UInt8) {content : List UInt8}
    (hne : content ≠ []) (hlt : content.length < OBJECT_BYTES) :
    writeRawDataset rados pfx [{ canOpen := true, content := content, events := [] }] =
      match radosWriteFull rados (objectName pfx 0) content with
      | (false, rados) => { status := false, objectCount := 0, rados := rados }
      | (true, rados) =>
        writeManifest rados pfx 1 (UInt64.ofNat content.length) (UInt64.ofNat content.length) := by
  have htake : content.take OBJECT_BYTES = content := List.take_of_length_le (Nat.le_of_lt hlt)
  have hdrop : content.drop OBJECT_BYTES = [] := List.drop_of_length_le (Nat.le_of_lt hlt)
  have hnot : content.length ≠ OBJECT_BYTES := Nat.ne_of_lt hlt
  have hloop : readLoop (rawSink pfx) { rest := content, events := [] }
      { sink := rados, fill := [], objectCount := 0, totalRaw := 0 } =
      (true, { sink := rados, fill := content, objectCount := 0
               totalRaw := UInt64.ofNat content.length }) := by
    rw [readLoop_eq]
    simp only [OpenFile.read, List.length_nil, Nat.sub_zero, htake, hdrop, if_neg hne,
      WriterState.push, List.nil_append, if_neg hnot, UInt64.zero_add]
    rw [readLoop_eq]
    simp only [OpenFile.read, List.take_nil, if_true]
  simp only [writeRawDataset, writeObjects, fileLoop, hloop, if_true, List.cons_ne_nil, if_false,
    if_neg hne, WriterState.send, rawSink]
  cases radosWriteFull rados (objectName pfx 0) content with
  | mk status rados' =>
    cases status with
    | false => rfl
    | true => rfl

def fileRun (kind : DatasetKind) (pfx : Prefix) (content : List UInt8)
    (hcontent : content.length < OBJECT_BYTES) (outcomes : List Bool) : Run storedZlib where
  kind := kind
  pfx := pfx
  files := [{ canOpen := true, content := content, events := [] }]
  content_le := by
    have hlimit : OBJECT_BYTES ≤ CONTENT_LIMIT := Nat.le_mul_of_pos_left _ (by decide)
    rw [contentOf, List.map_singleton, List.flatten_singleton]
    exact Nat.le_trans (Nat.le_of_lt hcontent) hlimit
  outcomes := outcomes
  memory := .zeroed (objectCapacity storedZlib)

section

variable (kind : DatasetKind) (pfx : Prefix) {content : List UInt8}
  (hcontent : content.length < OBJECT_BYTES)

theorem contentOf_fileRun (outcomes : List Bool) :
    contentOf (fileRun kind pfx content hcontent outcomes).files = content := by
  rw [contentOf, fileRun, List.map_singleton, List.flatten_singleton]

theorem rawObjects_fileRun (outcomes : List Bool) (hne : content ≠ []) :
    rawObjects (contentOf (fileRun kind pfx content hcontent outcomes).files) = [content] := by
  rw [contentOf_fileRun]
  exact chunks_fixed_of_le OBJECT_BYTES_pos hne (Nat.le_of_lt hcontent)

theorem fileRun_succeeds (pool : Pool) :
    ((fileRun kind pfx content hcontent []).execute pool).status = true := by
  refine execute_succeeds storedZlib_roundTrip (List.cons_ne_nil _ _) ?_ List.not_mem_nil pool
  intro f hf
  rw [List.mem_singleton.mp hf]
  exact ⟨rfl, List.not_mem_nil⟩

/-- A raw run that fails on the manifest has replaced its object. -/
theorem fileRun_torn (hne : content ≠ []) (pool : Pool) :
    ((fileRun .raw pfx content hcontent [true, false]).execute pool).status = false ∧
      ((fileRun .raw pfx content hcontent [true, false]).execute pool).objectCount = 1 := by
  have hrun := writeRawDataset_single { pool := pool, outcomes := [true, false] } pfx.chars hne
    hcontent
  simp only [Run.execute, fileRun, hrun]
  constructor
  · rfl
  · rfl

end

/-- The prefix `p`. -/
def prefixP : Prefix where
  chars := [0x70]
  nul_notMem := by decide
  length_lt := by decide

/-- The prefix `q`. -/
def prefixQ : Prefix where
  chars := [0x71]
  nul_notMem := by decide
  length_lt := by decide

def emptyPool : Pool := fun _ => none

/-! ## Passes after a history -/

section

variable {z : Zlib} {device : Inflater} {start : Pool} {p : Prefix} {c : Cluster z}
  {f : Finished z} {newer older : List (Finished z)} {index : UInt64}

/-- A success is the last one when all newer runs on the prefix have failed. -/
theorem lastSuccess_eq (hlog : c.log = newer ++ f :: older) (hp : f.run.pfx = p)
    (hstatus : f.status = true) (hnewer : ∀ g ∈ newer, g.run.pfx = p → g.status = false) :
    lastSuccess p c.log = some f := by
  rw [lastSuccess, hlog, List.find?_append, List.find?_eq_none.mpr, Option.none_or,
    List.find?_cons_of_pos]
  · simp [hp, hstatus]
  · intro g hg
    simp only [decide_eq_true_eq, not_and, Bool.not_eq_true]
    exact hnewer g hg

/-- After the last success, all runs on the prefix have failed. -/
theorem lastSuccess_inv (h : lastSuccess p c.log = some f) :
    ∃ newer older, c.log = newer ++ f :: older ∧ f.run.pfx = p ∧ f.status = true ∧
      ∀ g ∈ newer, g.run.pfx = p → g.status = false := by
  obtain ⟨hf, newer, older, hlog, hnewer⟩ := List.find?_eq_some_iff_append.mp h
  simp only [decide_eq_true_eq] at hf
  refine ⟨newer, older, hlog, hf.1, hf.2, ?_⟩
  intro g hg hgp
  have hneg := hnewer g hg
  simp only [Bool.not_eq_eq_eq_not, Bool.not_true, decide_eq_false_iff_not, not_and,
    Bool.not_eq_true] at hneg
  exact hneg hgp

theorem owner_eq (hlog : c.log = newer ++ f :: older) (hp : f.run.pfx = p)
    (hindex : index < f.objectCount)
    (hnewer : ∀ g ∈ newer, g.run.pfx = p → ¬ index < g.objectCount) :
    owner p index c.log = some f := by
  rw [owner, hlog, List.find?_append, List.find?_eq_none.mpr, Option.none_or,
    List.find?_cons_of_pos]
  · simp [hp, hindex]
  · intro g hg
    simp only [decide_eq_true_eq, not_and]
    exact hnewer g hg

/-- An object of `f` has an owner, which is `f` or a later run. -/
theorem exists_owner (hlog : c.log = newer ++ f :: older) (hp : f.run.pfx = p)
    (hindex : index < f.objectCount) :
    ∃ g, owner p index (newer ++ [f]) = some g ∧ owner p index c.log = some g := by
  cases howner : owner p index (newer ++ [f]) with
  | none =>
    have hnone := List.find?_eq_none.mp howner f (List.mem_append_right _ List.mem_cons_self)
    simp [hp, hindex] at hnone
  | some g =>
    refine ⟨g, rfl, ?_⟩
    rw [hlog, ← List.singleton_append, ← List.append_assoc, owner, List.find?_append]
    rw [owner] at howner
    rw [howner, Option.some_or]

theorem length_blocks_lt (f : Finished z) : f.blocks.length < 2 ^ 64 :=
  length_rawObjects_lt f.run.content_le

theorem ofNat_lt_objectCount {i : Nat} (hcount : f.objectCount.toNat = f.blocks.length)
    (hi : i < f.blocks.length) : UInt64.ofNat i < f.objectCount := by
  rw [UInt64.lt_iff_toNat_lt, hcount,
    UInt64.toNat_ofNat_of_lt' (Nat.lt_trans hi (length_blocks_lt f))]
  exact hi

variable {method : ReadMethod} {kind : DatasetKind} {outputBuffer : Buffer UInt8 OBJECT_BYTES}
  {doca : DocaDecompressor (z.compressBound FRAME_BYTES)}

/-- A pass over a dataset of which nothing has been replaced. -/
theorem readPass_of_owned (hz : z.RoundTrip device) (hmethod : method ≠ .unknown)
    (h : Represents device start p c) (hlast : lastSuccess p c.log = some f)
    (howner : ∀ index, index < f.objectCount → owner p index c.log = some f)
    (outputBuffer : Buffer UInt8 OBJECT_BYTES)
    (doca : DocaDecompressor (z.compressBound FRAME_BYTES)) :
    ∃ pass, readPass z device method f.run.kind c.pool p.chars outputBuffer doca = .ok pass ∧
      pass.delivered = f.blocks := by
  have hmanifest := h.manifest
  rw [hlast] at hmanifest
  obtain ⟨totalCompressed, hmanifest⟩ := hmanifest
  have hstatus : f.status = true := by
    have hf := List.find?_some hlast
    simp only [decide_eq_true_eq] at hf
    exact hf.2
  have hcount := h.count f (List.mem_of_find?_eq_some hlast) hstatus
  refine readPass_delivers hz hmethod f.run.content_le hmanifest (fun _ => rfl) ?_
  intro i chunk hi
  have hlt : i < f.blocks.length := (List.getElem?_eq_some_iff.mp hi).1
  obtain ⟨chunk', object, hchunk, hstored, hpool⟩ :=
    h.object _ f (howner (UInt64.ofNat i) (ofNat_lt_objectCount hcount hlt))
  rw [UInt64.toNat_ofNat_of_lt' (Nat.lt_trans hlt (length_blocks_lt f))] at hchunk
  have heq : chunk' = chunk := Option.some.inj (hchunk.symm.trans hi)
  rw [heq] at hstored
  exact ⟨object, hpool, hstored⟩

/-- The sizes of the contents that a pass has delivered. -/
def Split (delivered : List (List UInt8)) : Prop :=
  ∀ i d, delivered[i]? = some d → 1 ≤ d.length ∧ d.length ≤ OBJECT_BYTES ∧
    (i + 1 < delivered.length → d.length = OBJECT_BYTES)

theorem split_rawObjects (content : List UInt8) : Split (rawObjects content) := by
  intro i d hi
  obtain ⟨hpos, hmax⟩ := length_of_mem_rawObjects (List.mem_of_getElem? hi)
  exact ⟨hpos, hmax, length_of_getElem?_fixed OBJECT_BYTES_pos hi⟩

/-- After any history of successful runs, a pass by the method of the last run
on a prefix delivers the files of that run, and a run on another prefix does not
change it. -/
theorem readPass_of_successes (hz : z.RoundTrip device) (start : Pool) (runs : List (Run z))
    (hsuccess : ∀ g ∈ (runAll start runs).log, g.status = true)
    (hlog : (runAll start runs).log = newer ++ f :: older)
    (hlast : ∀ g ∈ newer, g.run.pfx ≠ f.run.pfx)
    (method : ReadMethod) (hmethod : method ≠ .unknown) (outputBuffer : Buffer UInt8 OBJECT_BYTES)
    (doca : DocaDecompressor (z.compressBound FRAME_BYTES)) :
    ∃ pass manifest,
      readPass z device method f.run.kind (runAll start runs).pool f.run.pfx.chars outputBuffer
        doca = .ok pass ∧
      pass.delivered.flatten = contentOf f.run.files ∧
      Split pass.delivered ∧
      readManifest (runAll start runs).pool f.run.pfx.chars = .ok manifest ∧
      manifest.objectCount.toNat = pass.delivered.length ∧
      manifest.totalRawSize = UInt64.ofNat (contentOf f.run.files).length ∧
      ∀ run : Run z, run.pfx ≠ f.run.pfx →
        readPass z device method f.run.kind ((runAll start runs).step run).pool f.run.pfx.chars
          outputBuffer doca = .ok pass := by
  have h := represents_runAll hz start f.run.pfx runs
  have hstatus : f.status = true := by
    apply hsuccess
    rw [hlog]
    exact List.mem_append_right _ List.mem_cons_self
  have hfind : lastSuccess f.run.pfx (runAll start runs).log = some f :=
    lastSuccess_eq hlog rfl hstatus (fun g hg hp => absurd hp (hlast g hg))
  obtain ⟨pass, hpass, hdelivered⟩ :=
    readPass_of_owned hz hmethod h hfind
      (fun index hindex => owner_eq hlog rfl hindex (fun g hg hp => absurd hp (hlast g hg)))
      outputBuffer doca
  have hmanifest := h.manifest
  rw [hfind] at hmanifest
  obtain ⟨totalCompressed, hmanifest⟩ := hmanifest
  refine ⟨pass, _, hpass, ?_, ?_, readManifest_newManifest hmanifest, ?_, rfl, ?_⟩
  · rw [hdelivered]
    exact CutRule.flatten_chunks _ _
  · rw [hdelivered]
    exact split_rawObjects _
  · rw [hdelivered]
    exact UInt64.toNat_ofNat_of_lt' (length_blocks_lt f)
  · intro run hp
    obtain ⟨done, middle, hw⟩ := execute_wrote hz run (runAll start runs).pool
    obtain ⟨hsame, hobjects⟩ := hw.other_prefix hp
    rw [← hpass]
    exact readPass_congr hmanifest hsame hobjects

/-- The byte 1 is written to `p`, and then the byte 2 to `q`. -/
def twoRuns : List (Run storedZlib) :=
  [fileRun .compressed prefixP [1] (by decide) [], fileRun .raw prefixQ [2] (by decide) []]

theorem readPass_of_successes_two :
    ∃ pass manifest,
      readPass storedZlib storedInflater .doca .compressed (runAll emptyPool twoRuns).pool
        prefixP.chars (.zeroed OBJECT_BYTES) (.init (storedZlib.compressBound FRAME_BYTES)) =
        .ok pass ∧
      pass.delivered.flatten = contentOf (fileRun .compressed prefixP [1] (by decide) []).files ∧
      Split pass.delivered ∧
      readManifest (runAll emptyPool twoRuns).pool prefixP.chars = .ok manifest ∧
      manifest.objectCount.toNat = pass.delivered.length ∧
      manifest.totalRawSize = 1 ∧
      ∀ run : Run storedZlib, run.pfx ≠ prefixP →
        readPass storedZlib storedInflater .doca .compressed
          ((runAll emptyPool twoRuns).step run).pool prefixP.chars (.zeroed OBJECT_BYTES)
          (.init (storedZlib.compressBound FRAME_BYTES)) = .ok pass := by
  obtain ⟨f, g, hlog, hf, hg, hfs, hgs⟩ : ∃ f g, (runAll emptyPool twoRuns).log = [g] ++ f :: [] ∧
      f.run = fileRun .compressed prefixP [1] (by decide) [] ∧
      g.run = fileRun .raw prefixQ [2] (by decide) [] ∧ f.status = true ∧ g.status = true :=
    ⟨_, _, rfl, rfl, rfl, fileRun_succeeds _ _ _ _, fileRun_succeeds _ _ _ _⟩
  have hsuccess : ∀ h ∈ (runAll emptyPool twoRuns).log, h.status = true := by
    rw [hlog]
    simp [hfs, hgs]
  have hlast : ∀ h ∈ [g], h.run.pfx ≠ f.run.pfx := by
    intro h hh
    rw [List.mem_singleton.mp hh, hf, hg]
    show prefixQ ≠ prefixP
    decide
  have hpass := readPass_of_successes storedZlib_roundTrip emptyPool twoRuns hsuccess hlog hlast
    .doca (by decide) (.zeroed OBJECT_BYTES) (.init (storedZlib.compressBound FRAME_BYTES))
  rw [hf] at hpass
  exact hpass

/-- What a pass that returns 0 has delivered, when `f` is the last successful run
on the prefix and `newer` are the runs after it.

The pass visits as many objects as `f` has written.  What it delivers for an
object is the block of the last run that has written this object, `f` or a later
one that failed, if that run is of the kind that the pass reads.  If no later run
on the prefix has written an object, the pass delivers the files of `f`. -/
structure DeliversOwned (p : Prefix) (kind : DatasetKind) (newer : List (Finished z))
    (f : Finished z) (delivered : List (List UInt8)) : Prop where
  pfx_eq : f.run.pfx = p
  success : f.status = true
  newer_failed : ∀ g ∈ newer, g.run.pfx = p → g.status = false
  count : delivered.length = f.blocks.length
  block : ∀ i < delivered.length, ∃ g, owner p (UInt64.ofNat i) (newer ++ [f]) = some g ∧
    (g.run.kind = kind → delivered[i]? = g.blocks[i]?)
  whole : f.run.kind = kind → (∀ g ∈ newer, g.run.pfx = p → g.objectCount = 0) →
    delivered.flatten = contentOf f.run.files

/-- After any history, with failed runs in it. -/
theorem readPass_of_history (hz : z.RoundTrip device) (start : Pool) (runs : List (Run z))
    (hstart : start (manifestName p.chars) = none ∨
      ∃ g ∈ (runAll start runs).log, g.run.pfx = p ∧ g.status = true)
    (method : ReadMethod) (hmethod : method ≠ .unknown) {pass : Pass}
    (hpass : readPass z device method kind (runAll start runs).pool p.chars outputBuffer doca =
      .ok pass) :
    ∃ newer f older, (runAll start runs).log = newer ++ f :: older ∧
      DeliversOwned p kind newer f pass.delivered := by
  have h := represents_runAll hz start p runs
  have hmanifest := h.manifest
  cases hlast : lastSuccess p (runAll start runs).log with
  | none =>
    rw [hlast] at hmanifest
    have hnone := List.find?_eq_none.mp hlast
    rcases hstart with hstart | ⟨g, hg, hp, hstatus⟩
    · exact absurd hpass (readPass_of_no_manifest (hmanifest.trans hstart) pass)
    · exact absurd (by simp [hp, hstatus]) (hnone g hg)
  | some f =>
    rw [hlast] at hmanifest
    obtain ⟨totalCompressed, hmanifest⟩ := hmanifest
    obtain ⟨newer, older, hlog, hp, hstatus, hfailed⟩ := lastSuccess_inv hlast
    have hmem : f ∈ (runAll start runs).log := by
      rw [hlog]
      exact List.mem_append_right _ List.mem_cons_self
    have hcount := h.count f hmem hstatus
    obtain ⟨hlen, hitems⟩ := readPass_inv hz hmanifest hmethod hpass
    rw [UInt64.toNat_ofNat_of_lt' (length_blocks_lt f)] at hlen
    refine ⟨newer, f, older, hlog, hp, hstatus, hfailed, hlen, ?_, ?_⟩
    · intro i hi
      have hi' : i < f.blocks.length := by
        rw [← hlen]
        exact hi
      obtain ⟨g, hg, howner⟩ := exists_owner hlog hp (ofNat_lt_objectCount hcount hi')
      refine ⟨g, hg, ?_⟩
      intro hkind
      obtain ⟨chunk, object, hchunk, hstored, hpool⟩ := h.object _ g howner
      rw [UInt64.toNat_ofNat_of_lt' (Nat.lt_trans hi' (length_blocks_lt f))] at hchunk
      rw [hkind] at hstored
      obtain ⟨hpos, hmax⟩ := length_of_mem_rawObjects (List.mem_of_getElem? hchunk)
      rw [hchunk, List.getElem?_eq_getElem hi]
      exact congrArg some
        (hitems i _ (List.getElem?_eq_getElem hi) chunk object hpool hstored hpos hmax)
    · intro hkind hnone
      obtain ⟨pass', hpass', hdelivered⟩ :=
        readPass_of_owned hz hmethod h hlast
          (fun index hindex => owner_eq hlog hp hindex (fun g hg hgp => by
            rw [hnone g hg hgp]
            exact UInt64.not_lt_zero))
          outputBuffer doca
      rw [hkind, hpass] at hpass'
      cases hpass'
      rw [hdelivered]
      exact CutRule.flatten_chunks _ _

end

/-! ## A torn dataset -/

section

variable {z : Zlib} {device : Inflater} {start : Pool} {p : Prefix} {c : Cluster z}
  {f g : Finished z} {kind : DatasetKind}

/-- A pass over one object, which a raw run has written, delivers the block that
its method sees in the object. -/
theorem readPass_of_raw_object (hz : z.RoundTrip device) (h : Represents device start p c)
    (hlast : lastSuccess p c.log = some f) (hcount : f.blocks.length = 1)
    (howner : owner p 0 c.log = some g) (hraw : g.run.kind = .raw) {object block : List UInt8}
    (hobject : g.blocks = [object]) (hstored : StoredBy z device kind block object)
    (hne : block ≠ []) (hmax : block.length ≤ OBJECT_BYTES)
    (htotal : kind = .raw → (contentOf f.run.files).length = block.length)
    (method : ReadMethod) (hmethod : method ≠ .unknown) (outputBuffer : Buffer UInt8 OBJECT_BYTES)
    (doca : DocaDecompressor (z.compressBound FRAME_BYTES)) :
    ∃ pass, readPass z device method kind c.pool p.chars outputBuffer doca = .ok pass ∧
      pass.delivered = [block] := by
  have hblocks : rawObjects block = [block] := chunks_fixed_of_le OBJECT_BYTES_pos hne hmax
  have hlimit : OBJECT_BYTES ≤ CONTENT_LIMIT := Nat.le_mul_of_pos_left _ (by decide)
  have hmanifest := h.manifest
  rw [hlast] at hmanifest
  obtain ⟨totalCompressed, hmanifest⟩ := hmanifest
  have hlen : (rawObjects block).length = f.blocks.length := by
    rw [hblocks, hcount]
    rfl
  rw [← hlen] at hmanifest
  obtain ⟨object', stored, hobject', hstored', hpool⟩ := h.object 0 g howner
  rw [hobject] at hobject'
  cases hobject'
  rw [hraw] at hstored'
  obtain rfl : stored = object := hstored'
  rw [← hblocks]
  refine readPass_delivers hz hmethod (Nat.le_trans hmax hlimit) hmanifest
    (fun hkind => by rw [htotal hkind]) ?_
  intro i chunk hi
  rw [hblocks] at hi
  cases i with
  | zero =>
    cases hi
    exact ⟨stored, hpool, hstored⟩
  | succ i => cases hi

end

/-- The byte 1 is written, and then a run with the byte 2 fails on the manifest. -/
def tornRuns : List (Run storedZlib) :=
  [fileRun .raw prefixP [1] (by decide) [], fileRun .raw prefixP [2] (by decide) [true, false]]

theorem tornRuns_log :
    ∃ f g, (runAll emptyPool tornRuns).log = [g, f] ∧
      f.run = fileRun .raw prefixP [1] (by decide) [] ∧ f.status = true ∧
      g.run = fileRun .raw prefixP [2] (by decide) [true, false] ∧ g.status = false ∧
      g.objectCount = 1 := by
  have hsmall : ([2] : List UInt8).length < OBJECT_BYTES := by decide
  obtain ⟨hstatus, hcount⟩ := fileRun_torn prefixP hsmall (by decide)
    (runAll emptyPool (tornRuns.take 1)).pool
  exact ⟨_, _, rfl, rfl, fileRun_succeeds _ _ _ _, rfl, hstatus, hcount⟩

/-- The object of the failed run is read under the manifest of the first run. -/
theorem readPass_tornRuns :
    ∃ f pass, lastSuccess prefixP (runAll emptyPool tornRuns).log = some f ∧
      contentOf f.run.files = [1] ∧
      readPass storedZlib storedInflater .doca .raw (runAll emptyPool tornRuns).pool prefixP.chars
        (.zeroed OBJECT_BYTES) (.init (storedZlib.compressBound FRAME_BYTES)) = .ok pass ∧
      pass.delivered = [[2]] := by
  obtain ⟨f, g, hlog, hf, hfs, hg, hgs, hcount⟩ := tornRuns_log
  have h := represents_runAll storedZlib_roundTrip emptyPool prefixP tornRuns
  have hfp : f.run.pfx = prefixP := by rw [hf]; rfl
  have hgp : g.run.pfx = prefixP := by rw [hg]; rfl
  have hindex : 0 < g.objectCount := by
    rw [hcount]
    decide
  have hlog_f : (runAll emptyPool tornRuns).log = [g] ++ f :: [] := hlog
  have hlog_g : (runAll emptyPool tornRuns).log = [] ++ g :: [f] := hlog
  have hlast := lastSuccess_eq hlog_f hfp hfs (by simp [hgs])
  have howner := owner_eq hlog_g hgp hindex (by simp)
  have hcontent : contentOf f.run.files = [1] := by rw [hf, contentOf_fileRun]
  have hfblocks : f.blocks.length = 1 := by
    rw [Finished.blocks, hf, rawObjects_fileRun _ _ _ _ (by decide)]
    rfl
  have hgblocks : g.blocks = [[2]] := by
    rw [Finished.blocks, hg, rawObjects_fileRun _ _ _ _ (by decide)]
  have hstored : StoredBy storedZlib storedInflater .raw [2] [2] := rfl
  obtain ⟨pass, hpass, hdelivered⟩ := readPass_of_raw_object storedZlib_roundTrip h
    hlast hfblocks howner (by rw [hg]; rfl) hgblocks hstored (by decide) (by decide)
    (fun _ => by rw [hcontent]; rfl) .doca (by decide) (.zeroed OBJECT_BYTES)
    (.init (storedZlib.compressBound FRAME_BYTES))
  exact ⟨f, pass, hlast, hcontent, hpass, hdelivered⟩

def frameTwo : Frame where
  raw := [2]
  stream := storedStream [2]

/-- The object that a compressed dataset has for the byte 2. -/
def objectTwo : List UInt8 := packObject storedZlib.checksum [frameTwo]

theorem storedBy_objectTwo : StoredBy storedZlib storedInflater .compressed [2] objectTwo := by
  refine ⟨[frameTwo], ?_, ?_, rfl⟩
  · exact (chunks_fixed_of_le FRAME_BYTES_pos (by decide) (by decide)).symm
  · intro f hf
    rw [List.mem_singleton.mp hf]
    exact ⟨by decide, storedStream_decodes (by decide)⟩

theorem length_objectTwo : objectTwo.length < OBJECT_BYTES := by
  decide

/-- The bytes of a compressed object are the content of a raw dataset. -/
def disguisedRuns : List (Run storedZlib) :=
  [fileRun .raw prefixP objectTwo length_objectTwo []]

/-- The compressed method takes the raw dataset for one of its own. -/
theorem readPass_disguisedRuns :
    ∃ f pass, lastSuccess prefixP (runAll emptyPool disguisedRuns).log = some f ∧
      contentOf f.run.files = objectTwo ∧
      readPass storedZlib storedInflater .doca .compressed (runAll emptyPool disguisedRuns).pool
        prefixP.chars (.zeroed OBJECT_BYTES) (.init (storedZlib.compressBound FRAME_BYTES)) =
        .ok pass ∧
      pass.delivered = [[2]] := by
  obtain ⟨f, hlog, hf, hfs⟩ : ∃ f, (runAll emptyPool disguisedRuns).log = [] ++ f :: [] ∧
      f.run = fileRun .raw prefixP objectTwo length_objectTwo [] ∧ f.status = true :=
    ⟨_, rfl, rfl, fileRun_succeeds _ _ _ _⟩
  have h := represents_runAll storedZlib_roundTrip emptyPool prefixP disguisedRuns
  have hfp : f.run.pfx = prefixP := by rw [hf]; rfl
  have hblocks : f.blocks = [objectTwo] := by
    rw [Finished.blocks, hf, rawObjects_fileRun _ _ _ _ (by decide)]
  have hlen : f.blocks.length = 1 := by
    rw [hblocks]
    rfl
  have hcount := h.count f (by rw [hlog]; exact List.mem_cons_self) hfs
  have hindex : UInt64.ofNat 0 < f.objectCount := ofNat_lt_objectCount hcount (by rw [hlen]; decide)
  have hlast := lastSuccess_eq hlog hfp hfs (by simp)
  have howner := owner_eq hlog hfp hindex (by simp)
  obtain ⟨pass, hpass, hdelivered⟩ := readPass_of_raw_object storedZlib_roundTrip h hlast hlen
    howner (by rw [hf]; rfl) hblocks storedBy_objectTwo (by decide) (by decide)
    (fun hkind => by cases hkind) .doca (by decide) (.zeroed OBJECT_BYTES)
    (.init (storedZlib.compressBound FRAME_BYTES))
  exact ⟨f, pass, hlast, by rw [hf, contentOf_fileRun], hpass, hdelivered⟩

/-- A pass that returns 0 need not deliver what the last successful run has
written: a later run may have failed midway, and the dataset may be of the other
kind. -/
theorem readPass_torn :
    (∃ f pass, lastSuccess prefixP (runAll emptyPool tornRuns).log = some f ∧
      readPass storedZlib storedInflater .doca .raw (runAll emptyPool tornRuns).pool prefixP.chars
        (.zeroed OBJECT_BYTES) (.init (storedZlib.compressBound FRAME_BYTES)) = .ok pass ∧
      pass.delivered.flatten ≠ contentOf f.run.files) ∧
    ∃ f pass, lastSuccess prefixP (runAll emptyPool disguisedRuns).log = some f ∧
      readPass storedZlib storedInflater .doca .compressed (runAll emptyPool disguisedRuns).pool
        prefixP.chars (.zeroed OBJECT_BYTES) (.init (storedZlib.compressBound FRAME_BYTES)) =
        .ok pass ∧
      pass.delivered.flatten ≠ contentOf f.run.files := by
  constructor
  · obtain ⟨f, pass, hlast, hcontent, hpass, hdelivered⟩ := readPass_tornRuns
    refine ⟨f, pass, hlast, hpass, ?_⟩
    rw [hdelivered, hcontent]
    decide
  · obtain ⟨f, pass, hlast, hcontent, hpass, hdelivered⟩ := readPass_disguisedRuns
    refine ⟨f, pass, hlast, hpass, ?_⟩
    rw [hdelivered, hcontent]
    intro heq
    exact absurd (congrArg List.length heq) (by decide)

/-- The torn dataset is delivered as the log says. -/
theorem readPass_of_history_torn :
    ∃ pass, readPass storedZlib storedInflater .doca .raw (runAll emptyPool tornRuns).pool
        prefixP.chars (.zeroed OBJECT_BYTES) (.init (storedZlib.compressBound FRAME_BYTES)) =
        .ok pass ∧
      ∃ newer f older, (runAll emptyPool tornRuns).log = newer ++ f :: older ∧
        DeliversOwned prefixP .raw newer f pass.delivered := by
  obtain ⟨f, pass, -, -, hpass, -⟩ := readPass_tornRuns
  exact ⟨pass, hpass, readPass_of_history storedZlib_roundTrip emptyPool tornRuns (.inl rfl) .doca
    (by decide) hpass⟩

end DpuTest.ReadBench
