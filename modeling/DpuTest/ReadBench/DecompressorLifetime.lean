import DpuTest.Compress.Resources
import DpuTest.ReadBench.Format
import DpuTest.ReadBench.TaskLifecycle
import Mathlib.Tactic.IntervalCases

/-!
# The lifetime of a decompressor

`doca_decompressor_init` of the benchmark and `decompressor_init` of the local
decompressor have the same text: two buffers, the compress resources, and then
the mappings, the buffers and the one task on them.  They give up at the first
call that fails and leave what they have to the destroy function.

Between the two, the frames are read by the calls of `TaskLifecycle`.  The error
callback frees the task, and the destroy function does not know.

* `localDecompress_ledger` says that the local decompressor, which destroys in
  any case, ends with nothing alive, and which task it frees twice.
* `benchmarkReads_ledger` says what the benchmark leaves, which returns without
  destroying when the initialisation fails.
-/

namespace DpuTest.ReadBench.Lifetime

open Lib Compress

/-- The calls of the initialisation after the allocation. -/
inductive InitCall where
  | ctxStart
  | srcSetMemrange
  | srcMmapStart
  | dstSetMemrange
  | dstMmapStart
  | srcBufGet
  | dstBufGet
  | taskAllocInit
  deriving DecidableEq

/-- What the SDK and the allocator answer. -/
structure InitSdk extends Sdk where
  posixMemalign : Object → Bool
  /-- `doca_compress_cap_task_decompress_deflate_get_max_buf_size` -/
  maxBufSize : DocaStatus × Nat
  init : InitCall → DocaStatus

/-- The pointers in a decompressor that `memset` clears. -/
def decompressorFields : List Object :=
  [.srcMemory, .dstMemory, .state, .compress, .srcBuf, .dstBuf, .task]

/-- The handles that the initialisation takes last. -/
def handles : List Object := [.srcBuf, .dstBuf, .task]

section

variable (sdk : InitSdk)

/-- `result = first; if (result == DOCA_SUCCESS) result = second`. -/
def bothCalls (first second : InitCall) : DocaStatus :=
  if sdk.init first = .success then sdk.init second else sdk.init first

/-- The initialisation from the buffer size on. -/
def startDecompressor (srcCapacity dstCapacity : Nat) (m : Owner Object) : Owner Object × Bool :=
  if sdk.maxBufSize.1 ≠ .success ∨ srcCapacity > sdk.maxBufSize.2 ∨
      dstCapacity > sdk.maxBufSize.2 then
    (m, false)
  else if sdk.init .ctxStart ≠ .success then
    (m, false)
  else if bothCalls sdk .srcSetMemrange .srcMmapStart ≠ .success then
    (m, false)
  else if bothCalls sdk .dstSetMemrange .dstMmapStart ≠ .success then
    (m, false)
  else if sdk.init .srcBufGet ≠ .success then
    (m, false)
  else if sdk.init .dstBufGet ≠ .success then
    (m.acquire .srcBuf, false)
  else if sdk.init .taskAllocInit ≠ .success then
    ((m.acquire .srcBuf).acquire .dstBuf, false)
  else
    (((m.acquire .srcBuf).acquire .dstBuf).acquire .task, true)

/-- `doca_decompressor_init`; the flag is false for -1. -/
def docaDecompressorInit (pciAddr : String) (srcCapacity dstCapacity : Nat) (m : Owner Object) :
    Owner Object × Bool :=
  let m := decompressorFields.foldl .forget m
  if sdk.posixMemalign .srcMemory = false then
    (m, false)
  else if sdk.posixMemalign .dstMemory = false then
    (m.acquire .srcMemory, false)
  else
    let allocated := allocateCompressResources sdk.toSdk (some pciAddr) 2 .decompressDeflate
      ((m.acquire .srcMemory).acquire .dstMemory)
    if allocated.2 ≠ .success then
      (allocated.1, false)
    else
      startDecompressor sdk srcCapacity dstCapacity allocated.1

/-- `if (o != NULL) … (o)`. -/
def releaseIfSet (m : Owner Object) (o : Object) : Owner Object :=
  if m.ptr o ≠ .null then m.release o else m

/-- `doca_decompressor_destroy`. -/
def docaDecompressorDestroy (m : Owner Object) : Owner Object :=
  let m := handles.reverse.foldl releaseIfSet m
  let m := if m.ptr .state ≠ .null then (destroyCompressResources sdk.toSdk m).1 else m
  (m.release .srcMemory).release .dstMemory

/-- What the calls for the frames do to the objects: a task that is freed in them is freed
by the error callback.  `none` is a wait that does not end. -/
def readFrames (srcCapacity : Nat) (calls : List FrameCall) (m : Owner Object) :
    Option (Owner Object) :=
  (decompressCalls calls { srcCapacity := srcCapacity, task := true, trace := [] }).map fun s =>
    (s.trace.filter (· = .free)).foldl (fun m _ => m.release .task) m

/-- `main` of the local decompressor, with the calls of its loop over the objects and what
the loop says. -/
def localDecompress (pciAddr : String) (srcCapacity dstCapacity : Nat) (calls : List FrameCall)
    (objectsOk : Bool) (m : Owner Object) : Option (Owner Object × Bool) :=
  let initialised := docaDecompressorInit sdk pciAddr srcCapacity dstCapacity m
  if initialised.2 = false then
    some (docaDecompressorDestroy sdk initialised.1, false)
  else
    (readFrames srcCapacity calls initialised.1).map fun m =>
      (docaDecompressorDestroy sdk m, objectsOk)

end

/-- What the cluster, the allocator and the passes of `benchmark_reads` answer. -/
structure BenchSdk extends InitSdk where
  radosCreate : Bool
  confReadFile : Bool
  connect : Bool
  ioctxCreate : Bool
  /-- both manifests can be read and belong together -/
  manifestsMatch : Bool
  malloc : Object → Bool
  /-- the calls of `doca_decompress_one` in the warm-up and the rounds -/
  calls : List FrameCall
  /-- none of them fails, and nothing else in the passes does -/
  passesSucceed : Bool

section

variable (sdk : BenchSdk)

/-- `connect_rados`; its label is `fail`. -/
def connectRados (m : Owner Object) : Owner Object × Bool :=
  if sdk.radosCreate = false then
    (m, false)
  else if sdk.confReadFile = false ∨ sdk.connect = false ∨ sdk.ioctxCreate = false then
    ((m.acquire .cluster).release .cluster, false)
  else
    ((m.acquire .cluster).acquire .ioctx, true)

/-- `close_rados`. -/
def closeRados (m : Owner Object) : Owner Object :=
  (m.release .ioctx).release .cluster

/-- `o = malloc(…)`. -/
def mallocTo (m : Owner Object) (o : Object) : Owner Object :=
  if sdk.malloc o then m.acquire o else m.forget o

/-- `free(read_buffer); free(output_buffer); close_rados(cluster, ioctx)`. -/
def freeAndClose (m : Owner Object) : Owner Object :=
  closeRados ((m.release .readBuffer).release .outputBuffer)

/-- `benchmark_reads`, as far as its objects go; the flag is false for
`EXIT_FAILURE`. -/
def benchmarkReadsObjects (pciAddr : String) (srcCapacity : Nat) (m : Owner Object) :
    Option (Owner Object × Bool) :=
  let connected := connectRados sdk m
  if connected.2 = false then
    some (connected.1, false)
  else if sdk.manifestsMatch = false then
    some (closeRados connected.1, false)
  else
    let buffers := mallocTo sdk (mallocTo sdk connected.1 .readBuffer) .outputBuffer
    if sdk.malloc .readBuffer = false ∨ sdk.malloc .outputBuffer = false then
      some (freeAndClose buffers, false)
    else
      let doca := docaDecompressorInit sdk.toInitSdk pciAddr srcCapacity FRAME_BYTES buffers
      if doca.2 = false then
        -- no `doca_decompressor_destroy` here
        some (freeAndClose doca.1, false)
      else
        (readFrames srcCapacity sdk.calls doca.1).map fun m =>
          (freeAndClose (docaDecompressorDestroy sdk.toInitSdk m), sdk.passesSucceed)

end

section

variable (sdk : InitSdk)

/-! ## What the initialisation leaves -/

/-- Everything after the allocation succeeds. -/
def Starts (srcCapacity dstCapacity : Nat) : Prop :=
  sdk.maxBufSize.1 = .success ∧ srcCapacity ≤ sdk.maxBufSize.2 ∧
    dstCapacity ≤ sdk.maxBufSize.2 ∧ ∀ call, sdk.init call = .success

theorem bothCalls_success {first second : InitCall} :
    bothCalls sdk first second = .success ↔
      sdk.init first = .success ∧ sdk.init second = .success := by
  unfold bothCalls
  split_ifs with h <;> simp [h]

/-- Past the allocation the initialisation takes some of its handles, all of them
exactly when it succeeds. -/
theorem startDecompressor_cases (srcCapacity dstCapacity : Nat) (m : Owner Object) :
    ∃ k ≤ handles.length, (k = handles.length ↔ Starts sdk srcCapacity dstCapacity) ∧
      startDecompressor sdk srcCapacity dstCapacity m =
        ((handles.take k).foldl .acquire m, decide (k = handles.length)) := by
  unfold startDecompressor Starts
  split_ifs with hcap hctx hsrc hdst hget hget' htask
  · refine ⟨0, by decide, iff_of_false (by decide) ?_, rfl⟩
    rintro ⟨hok, hle, hle', -⟩
    rcases hcap with h | h | h
    · exact h hok
    · omega
    · omega
  · exact ⟨0, by decide, iff_of_false (by decide) (fun h => hctx (h.2.2.2 _)), rfl⟩
  · refine ⟨0, by decide, iff_of_false (by decide) (fun h => hsrc ?_), rfl⟩
    exact (bothCalls_success sdk).mpr ⟨h.2.2.2 _, h.2.2.2 _⟩
  · refine ⟨0, by decide, iff_of_false (by decide) (fun h => hdst ?_), rfl⟩
    exact (bothCalls_success sdk).mpr ⟨h.2.2.2 _, h.2.2.2 _⟩
  · exact ⟨0, by decide, iff_of_false (by decide) (fun h => hget (h.2.2.2 _)), rfl⟩
  · exact ⟨1, by decide, iff_of_false (by decide) (fun h => hget' (h.2.2.2 _)), rfl⟩
  · exact ⟨2, by decide, iff_of_false (by decide) (fun h => htask (h.2.2.2 _)), rfl⟩
  · refine ⟨3, by decide, iff_of_true rfl ?_, rfl⟩
    simp only [ne_eq, not_not, bothCalls_success] at hctx hsrc hdst hget hget' htask
    simp only [not_or, ne_eq, not_not, not_lt] at hcap
    refine ⟨hcap.1, by omega, by omega, ?_⟩
    intro call
    cases call
    · exact hctx
    · exact hsrc.1
    · exact hsrc.2
    · exact hdst.1
    · exact hdst.2
    · exact hget
    · exact hget'
    · exact htask

/-- The allocation inside the initialisation succeeds. -/
def Allocates (pciAddr : String) : Prop :=
  CoreCreated sdk.toSdk (some pciAddr) 2 .decompressDeflate ∧
    Configured sdk.toSdk 2 .decompressDeflate

/-- The ledger of an initialisation that gets past the allocation, with the number
of handles that it takes. -/
def initLedger (k : Nat) : List (LedgerEntry Object) :=
  created [.srcMemory, .dstMemory] ++ acquireLedger ++ created (handles.take k)

/-- How far an initialisation comes, and what it leaves. -/
inductive InitOutcome (pciAddr : String) (srcCapacity dstCapacity : Nat) (m : Owner Object) :
    Owner Object → Bool → Prop where
  | noSrcMemory {r : Owner Object} (hsrc : sdk.posixMemalign .srcMemory = false)
      (hledger : r.ledger = m.ledger) (hptr : ∀ o ∈ decompressorFields, r.ptr o = .null) :
      InitOutcome pciAddr srcCapacity dstCapacity m r false
  | noDstMemory {r : Owner Object} (hsrc : sdk.posixMemalign .srcMemory = true)
      (hdst : sdk.posixMemalign .dstMemory = false)
      (hledger : r.ledger = m.ledger ++ created [.srcMemory])
      (hmemory : r.ptr .srcMemory = .obj .srcMemory)
      (hptr : ∀ o ∈ decompressorFields, o ≠ .srcMemory → r.ptr o = .null) :
      InitOutcome pciAddr srcCapacity dstCapacity m r false
  | notAllocated {r : Owner Object} {s : List (LedgerEntry Object)}
      (hmem : ∀ o ∈ [Object.srcMemory, .dstMemory], sdk.posixMemalign o = true)
      (hnot : ¬ Allocates sdk pciAddr) (hs : s ∈ failedLedgers)
      (hback : RolledBack (CoreCreated sdk.toSdk (some pciAddr) 2 .decompressDeflate) s)
      (hledger : r.ledger = m.ledger ++ created [.srcMemory, .dstMemory] ++ s)
      (hmemory : ∀ o ∈ [Object.srcMemory, .dstMemory], r.ptr o = .obj o)
      (hptr : ∀ o ∈ Object.state :: handles, r.ptr o = .null) :
      InitOutcome pciAddr srcCapacity dstCapacity m r false
  | allocated {r : Owner Object} {k : Nat} (hk : k ≤ handles.length)
      (hmem : ∀ o ∈ [Object.srcMemory, .dstMemory], sdk.posixMemalign o = true)
      (halloc : Allocates sdk pciAddr)
      (hstarts : k = handles.length ↔ Starts sdk srcCapacity dstCapacity)
      (hledger : r.ledger = m.ledger ++ initLedger k)
      (hset : ∀ o ∈ .srcMemory :: .dstMemory :: resourceObjects ++ handles.take k,
        r.ptr o = .obj o)
      (hnull : ∀ o ∈ handles.drop k, r.ptr o = .null) :
      InitOutcome pciAddr srcCapacity dstCapacity m r (decide (k = handles.length))

theorem docaDecompressorInit_outcome (pciAddr : String) (srcCapacity dstCapacity : Nat)
    (m : Owner Object) :
    InitOutcome sdk pciAddr srcCapacity dstCapacity m
      (docaDecompressorInit sdk pciAddr srcCapacity dstCapacity m).1
      (docaDecompressorInit sdk pciAddr srcCapacity dstCapacity m).2 := by
  have hcleared : ∀ o ∈ decompressorFields,
      (decompressorFields.foldl Owner.forget m).ptr o = .null := by
    intro o ho
    rw [Owner.foldl_forget_ptr, if_pos ho]
  have hledger : (decompressorFields.foldl Owner.forget m).ledger = m.ledger :=
    Owner.foldl_forget_ledger decompressorFields m
  unfold docaDecompressorInit
  generalize decompressorFields.foldl Owner.forget m = m₀ at hcleared hledger
  dsimp only
  split_ifs with hsrc hdst hfail
  · exact .noSrcMemory hsrc hledger hcleared
  · refine .noDstMemory (by simpa using hsrc) hdst ?_ ?_ ?_
    · simp [hledger, created]
    · simp
    · intro o ho hne
      simp [hne, hcleared o ho]
  all_goals
    have hmem : ∀ o ∈ [Object.srcMemory, .dstMemory], sdk.posixMemalign o = true := by
      simp [hsrc, hdst]
    have hframe : ∀ o ∉ touched, (allocateCompressResources sdk.toSdk (some pciAddr) 2
        .decompressDeflate ((m₀.acquire .srcMemory).acquire .dstMemory)).1.ptr o =
          if o ∈ [Object.srcMemory, .dstMemory] then .obj o else m₀.ptr o := by
      intro o ho
      rw [allocateCompressResources_ptr sdk.toSdk _ (by decide) _ _ ho]
      exact Owner.foldl_acquire_ptr [.srcMemory, .dstMemory] m₀ o
    have hmemory : ∀ o ∈ [Object.srcMemory, .dstMemory],
        o ∉ touched ∧ o ∈ [Object.srcMemory, .dstMemory] := by decide
    have hhandles : ∀ o ∈ handles,
        o ∉ touched ∧ o ∉ [Object.srcMemory, .dstMemory] ∧ o ∈ decompressorFields := by decide
    have hbefore : ((m₀.acquire .srcMemory).acquire .dstMemory).ledger =
        m.ledger ++ created [.srcMemory, .dstMemory] := by
      simp [hledger, created]
    have houtcome := allocateCompressResources_outcome sdk.toSdk (some pciAddr)
      (show 2 ≠ 0 by decide) .decompressDeflate ((m₀.acquire .srcMemory).acquire .dstMemory)
    rw [hbefore] at houtcome
  · obtain ⟨-, hok, -⟩ | ⟨hnot, -, hnull, s, hs, hl, hback⟩ := houtcome
    · exact absurd hok hfail
    refine .notAllocated hmem hnot hs hback hl ?_ ?_
    · intro o ho
      rw [hframe o (hmemory o ho).1, if_pos ho]
    · intro o ho
      rcases List.mem_cons.mp ho with rfl | ho
      · exact hnull
      · obtain ⟨htouched, hneither, hfield⟩ := hhandles o ho
        rw [hframe o htouched, if_neg hneither, hcleared o hfield]
  · obtain ⟨halloc, -, hl, hset⟩ | ⟨-, hfailed, -⟩ := houtcome
    swap
    · exact absurd hfailed hfail
    obtain ⟨k, hk, hstarts, hstart⟩ := startDecompressor_cases sdk srcCapacity dstCapacity
      (allocateCompressResources sdk.toSdk (some pciAddr) 2 .decompressDeflate
        ((m₀.acquire .srcMemory).acquire .dstMemory)).1
    rw [hstart]
    refine .allocated hk hmem halloc hstarts ?_ ?_ ?_
    · rw [Owner.foldl_acquire_ledger, hl, initLedger, List.append_assoc, List.append_assoc,
        List.append_assoc]
    · intro o ho
      rw [Owner.foldl_acquire_ptr]
      split_ifs with htaken
      · rfl
      · simp only [List.cons_append, List.mem_cons, List.mem_append] at ho
        rcases ho with rfl | rfl | ho | ho
        · exact hframe _ (by decide)
        · exact hframe _ (by decide)
        · exact hset o ho
        · exact absurd ho htaken
    · intro o ho
      have hin : o ∈ handles := List.mem_of_mem_drop ho
      obtain ⟨htouched, hneither, hfield⟩ := hhandles o hin
      have hlater : o ∉ handles.take k := by
        have hnodup : (handles.take k ++ handles.drop k).Nodup := by
          rw [List.take_append_drop]
          decide
        exact fun htake => List.disjoint_of_nodup_append hnodup htake ho
      rw [Owner.foldl_acquire_ptr, if_neg hlater, hframe o htouched, if_neg hneither,
        hcleared o hfield]

/-! ## What the destroy function does -/

theorem releaseIfSet_ledger (m : Owner Object) (o : Object) :
    (releaseIfSet m o).ledger =
      m.ledger ++ if m.ptr o ≠ .null then [.destroy (m.ptr o)] else [] := by
  unfold releaseIfSet
  split_ifs <;> simp

@[simp] theorem releaseIfSet_ptr (m : Owner Object) (o : Object) :
    (releaseIfSet m o).ptr = m.ptr := by
  unfold releaseIfSet
  split_ifs <;> rfl

/-- Without a state only the memory is freed. -/
theorem docaDecompressorDestroy_noState {m : Owner Object}
    (hptr : ∀ o ∈ Object.state :: handles, m.ptr o = .null) :
    (docaDecompressorDestroy sdk m).ledger =
      m.ledger ++ [.destroy (m.ptr .srcMemory), .destroy (m.ptr .dstMemory)] := by
  simp only [handles, List.mem_cons, List.not_mem_nil, or_false, forall_eq_or_imp,
    forall_eq] at hptr
  simp [docaDecompressorDestroy, handles, releaseIfSet, hptr]

/-- The order in which everything goes, with the handles that were taken. -/
def teardown (k : Nat) : List Object :=
  (handles.take k).reverse ++
    [.compress, .pe, .bufInv, .dstMmap, .srcMmap, .dev, .state, .srcMemory, .dstMemory]

/-- The handles that were taken are given back, the last one first. -/
theorem releaseHandles {m : Owner Object} {k : Nat} (hk : k ≤ handles.length)
    (hset : ∀ o ∈ handles.take k, m.ptr o = .obj o)
    (hnull : ∀ o ∈ handles.drop k, m.ptr o = .null) :
    (handles.reverse.foldl releaseIfSet m).ledger =
        m.ledger ++ destroyed (handles.take k).reverse ∧
      (handles.reverse.foldl releaseIfSet m).ptr = m.ptr := by
  change k ≤ 3 at hk
  interval_cases k <;> simp [handles] at hset hnull <;>
    simp [handles, releaseIfSet_ledger, destroyed, hset, hnull]

theorem docaDecompressorDestroy_ledger {m : Owner Object} {k : Nat} (hk : k ≤ handles.length)
    (hset : ∀ o ∈ .srcMemory :: .dstMemory :: resourceObjects ++ handles.take k,
      m.ptr o = .obj o)
    (hnull : ∀ o ∈ handles.drop k, m.ptr o = .null) :
    (docaDecompressorDestroy sdk m).ledger = m.ledger ++ destroyed (teardown k) := by
  obtain ⟨hledger, hptr⟩ := releaseHandles hk
    (fun o ho => hset o (List.mem_append_right _ ho)) hnull
  have hsub : ∀ o ∈ resourceObjects, o ∈ .srcMemory :: .dstMemory :: resourceObjects := by
    decide
  have hresource : ∀ o ∈ resourceObjects,
      (handles.reverse.foldl releaseIfSet m).ptr o = .obj o := by
    intro o ho
    rw [hptr]
    exact hset o (List.mem_append_left _ (hsub o ho))
  have hstate := hresource .state (by decide)
  have hmemory : ∀ o ∈ [Object.srcMemory, .dstMemory], m.ptr o = .obj o := by
    intro o ho
    exact hset o (List.mem_append_left _ (List.mem_append_left resourceObjects ho))
  unfold docaDecompressorDestroy
  generalize hm : handles.reverse.foldl releaseIfSet m = m' at *
  have hkept : ∀ o ∈ [Object.srcMemory, .dstMemory],
      (destroyCompressResources sdk.toSdk m').1.ptr o = .obj o := by
    intro o ho
    have hout : ∀ o ∈ [Object.srcMemory, .dstMemory], o ∉ touched := by decide
    rw [destroyCompressResources_ptr sdk.toSdk m' (hout o ho), hptr, hmemory o ho]
  simp only [hstate, ne_eq, reduceCtorEq, not_false_eq_true, if_true]
  simp [destroyCompressResources_ledger sdk.toSdk hresource, hledger, hkept, teardown, destroyed]

/-! ## The frames -/

/-- The callback of a task that fails frees it, and there is no other. -/
theorem readFrames_eq {srcCapacity : Nat} {calls : List FrameCall} {m r : Owner Object}
    (h : readFrames srcCapacity calls m = some r) :
    NoTaskFails srcCapacity calls ∧ r = m ∨
      ¬ NoTaskFails srcCapacity calls ∧ r = m.release .task := by
  obtain ⟨t, hcalls, rfl⟩ := Option.map_eq_some_iff.mp h
  obtain ⟨k, ⟨hnone, rfl⟩ | ⟨hsome, rfl⟩⟩ := decompressCalls_spec hcalls
  · refine Or.inl ⟨hnone, ?_⟩
    simp [TaskSession.also]
  · refine Or.inr ⟨hsome, ?_⟩
    simp [TaskSession.also, List.filter_append]

/-- The task is freed in its callback, and then everything is destroyed. -/
theorem docaDecompressorDestroy_release {m : Owner Object}
    (hset : ∀ o ∈ .srcMemory :: .dstMemory :: resourceObjects ++ handles, m.ptr o = .obj o) :
    (docaDecompressorDestroy sdk (m.release .task)).ledger =
      m.ledger ++ destroyed [.task] ++ destroyed (teardown handles.length) := by
  have htask : m.ptr .task = .obj .task := hset _ (by decide)
  have hall := docaDecompressorDestroy_ledger sdk (m := m.release .task) le_rfl
    (by rwa [List.take_length]) (by simp)
  rw [hall, Owner.release_ledger, htask]
  rfl

/-! ## The two programs -/

/-- The decompressor gets its memory and its core objects, and the engine cannot be
configured. -/
def FailsLate (pciAddr : String) : Prop :=
  (∀ o ∈ [Object.srcMemory, .dstMemory], sdk.posixMemalign o = true) ∧
    CoreCreated sdk.toSdk (some pciAddr) 2 .decompressDeflate ∧
    ¬ Configured sdk.toSdk 2 .decompressDeflate

/-- What the benchmark holds beside its decompressor. -/
def callerObjects : Finset Object := {.cluster, .ioctx, .readBuffer, .outputBuffer}

/-- The ledger of a piece of the program that leaves nothing alive and that keeps
away from the objects of its caller. -/
structure Session (late : Prop) (s : List (LedgerEntry Object)) : Prop where
  replays : run ledgerStep s ∅ = some ∅
  ordered : Guarded ledgerStep (ChildrenFirst (dependsOn · ·)) s ∅ ↔ ¬ late
  apart : ∀ o ∈ callerObjects, .create o ∉ s

theorem failedLedgers_framed :
    ∀ s ∈ failedLedgers,
      run ledgerStep (created [.srcMemory, .dstMemory] ++ s ++ destroyed [.srcMemory, .dstMemory])
          ∅ = some ∅ ∧
        (Guarded ledgerStep (ChildrenFirst (dependsOn · ·))
            (created [.srcMemory, .dstMemory] ++ s ++ destroyed [.srcMemory, .dstMemory]) ∅ ↔
          Guarded ledgerStep (ChildrenFirst (dependsOn · ·)) s ∅) ∧
        ∀ o ∈ callerObjects, .create o ∉
          created [.srcMemory, .dstMemory] ++ s ++ destroyed [.srcMemory, .dstMemory] := by
  decide

theorem initLedger_teardown :
    ∀ k < handles.length + 1,
      run ledgerStep (initLedger k ++ destroyed (teardown k)) ∅ = some ∅ ∧
        Guarded ledgerStep (ChildrenFirst (dependsOn · ·))
          (initLedger k ++ destroyed (teardown k)) ∅ ∧
        ∀ o ∈ callerObjects, .create o ∉ initLedger k ++ destroyed (teardown k) := by
  decide

/-- Initialising and destroying a decompressor, whatever the calls answer. -/
theorem decompressor_session (pciAddr : String) (srcCapacity dstCapacity : Nat)
    (m : Owner Object) :
    ∃ s, (docaDecompressorDestroy sdk
          (docaDecompressorInit sdk pciAddr srcCapacity dstCapacity m).1).ledger =
        m.ledger ++ s ∧ Session (FailsLate sdk pciAddr) s := by
  have houtcome := docaDecompressorInit_outcome sdk pciAddr srcCapacity dstCapacity m
  generalize (docaDecompressorInit sdk pciAddr srcCapacity dstCapacity m).1 = r at houtcome ⊢
  generalize (docaDecompressorInit sdk pciAddr srcCapacity dstCapacity m).2 = ok at houtcome
  have hfields : ∀ o ∈ Object.state :: handles, o ∈ decompressorFields ∧ o ≠ .srcMemory := by
    decide
  cases houtcome with
  | noSrcMemory hsrc hledger hptr =>
    have hsession : run ledgerStep [.destroy .null, .destroy .null] (∅ : Finset Object) = some ∅ ∧
        Guarded ledgerStep (ChildrenFirst (dependsOn · ·)) [.destroy .null, .destroy .null] ∅ := by
      decide
    have hnever : ¬ FailsLate sdk pciAddr := by
      intro h
      rw [h.1 .srcMemory (by decide)] at hsrc
      cases hsrc
    refine ⟨_, ?_, hsession.1, iff_of_true hsession.2 hnever, by simp⟩
    rw [docaDecompressorDestroy_noState sdk (fun o ho => hptr o (hfields o ho).1),
      hledger, hptr .srcMemory (by decide), hptr .dstMemory (by decide)]
  | noDstMemory hsrc hdst hledger hmemory hptr =>
    have hsession : run ledgerStep
          [.create .srcMemory, .destroy (.obj .srcMemory), .destroy .null] (∅ : Finset Object) =
            some ∅ ∧
        Guarded ledgerStep (ChildrenFirst (dependsOn · ·))
          [.create .srcMemory, .destroy (.obj .srcMemory), .destroy .null] ∅ := by
      decide
    have hnever : ¬ FailsLate sdk pciAddr := by
      intro h
      rw [h.1 .dstMemory (by decide)] at hdst
      cases hdst
    refine ⟨_, ?_, hsession.1, iff_of_true hsession.2 hnever, by decide⟩
    rw [docaDecompressorDestroy_noState sdk
      (fun o ho => hptr o (hfields o ho).1 (hfields o ho).2), hledger, hmemory,
      hptr .dstMemory (by decide) (by decide)]
    simp [created]
  | @notAllocated s hmem hnot hs hback hledger hmemory hptr =>
    obtain ⟨hrun, hframe, hapart⟩ := failedLedgers_framed s hs
    refine ⟨_, ?_, hrun, ?_, hapart⟩
    · rw [docaDecompressorDestroy_noState sdk hptr, hledger, hmemory .srcMemory (by decide),
        hmemory .dstMemory (by decide)]
      simp [destroyed]
    · rw [hframe, hback.ordered]
      apply not_congr
      exact ⟨fun hcore => ⟨hmem, hcore, fun hconf => hnot ⟨hcore, hconf⟩⟩, fun h => h.2.1⟩
  | @allocated k hk hmem halloc hstarts hledger hset hnull =>
    obtain ⟨hrun, hordered, hapart⟩ := initLedger_teardown k (Nat.lt_succ_of_le hk)
    refine ⟨_, ?_, hrun, iff_of_true hordered (fun h => h.2.2 halloc.2), hapart⟩
    rw [docaDecompressorDestroy_ledger sdk hk hset hnull, hledger, List.append_assoc]

theorem failedLedgers_left :
    ∀ s ∈ failedLedgers,
      run ledgerStep (created [.srcMemory, .dstMemory] ++ s) ∅ =
          some {.srcMemory, .dstMemory} ∧
        ∀ o ∈ callerObjects, .create o ∉ created [.srcMemory, .dstMemory] ++ s := by
  decide

theorem initLedger_left :
    ∀ k < handles.length + 1,
      run ledgerStep (initLedger k) ∅ =
          some (.srcMemory :: .dstMemory :: resourceObjects ++ handles.take k).toFinset ∧
        Disjoint (.srcMemory :: .dstMemory :: resourceObjects ++ handles.take k).toFinset
          callerObjects ∧
        ∀ o ∈ callerObjects, .create o ∉ initLedger k := by
  decide

/-- What an initialisation leaves alive. -/
theorem docaDecompressorInit_ledger (pciAddr : String) (srcCapacity dstCapacity : Nat)
    (m : Owner Object) :
    ∃ s left, (docaDecompressorInit sdk pciAddr srcCapacity dstCapacity m).1.ledger =
        m.ledger ++ s ∧
      run ledgerStep s ∅ = some left ∧ (∀ o ∈ callerObjects, .create o ∉ s) ∧
      Disjoint left callerObjects ∧
      (left = ∅ ↔ sdk.posixMemalign .srcMemory = false) ∧
      (sdk.posixMemalign .srcMemory = true → sdk.posixMemalign .dstMemory = true →
        Allocates sdk pciAddr → ∀ o ∈ resourceObjects, o ∈ left) := by
  have houtcome := docaDecompressorInit_outcome sdk pciAddr srcCapacity dstCapacity m
  generalize (docaDecompressorInit sdk pciAddr srcCapacity dstCapacity m).1 = r at houtcome ⊢
  generalize (docaDecompressorInit sdk pciAddr srcCapacity dstCapacity m).2 = ok at houtcome
  cases houtcome with
  | noSrcMemory hsrc hledger hptr =>
    refine ⟨[], ∅, by simp [hledger], rfl, by simp, by simp, iff_of_true rfl hsrc, ?_⟩
    intro hmem
    rw [hsrc] at hmem
    cases hmem
  | noDstMemory hsrc hdst hledger hmemory hptr =>
    refine ⟨_, {.srcMemory}, hledger, by decide, by decide, by decide,
      iff_of_false (by decide) (by simp [hsrc]), ?_⟩
    intro _ hmem
    rw [hdst] at hmem
    cases hmem
  | @notAllocated s hmem hnot hs hback hledger hmemory hptr =>
    obtain ⟨hrun, hapart⟩ := failedLedgers_left s hs
    refine ⟨_, _, by rw [hledger, List.append_assoc], hrun, hapart, by decide,
      iff_of_false (by decide) ?_, fun _ _ halloc => absurd halloc hnot⟩
    simp [hmem .srcMemory (by decide)]
  | @allocated k hk hmem halloc hstarts hledger hset hnull =>
    obtain ⟨hrun, hdisjoint, hapart⟩ := initLedger_left k (Nat.lt_succ_of_le hk)
    refine ⟨_, _, hledger, hrun, hapart, hdisjoint, iff_of_false ?_ ?_, ?_⟩
    · simp
    · simp [hmem .srcMemory (by decide)]
    · intro _ _ _ o ho
      rw [List.mem_toFinset]
      exact List.mem_append_left _ (List.mem_cons_of_mem _ (List.mem_cons_of_mem _ ho))

/-- All calls of the initialisation succeed. -/
def Initialises (pciAddr : String) (srcCapacity dstCapacity : Nat) : Prop :=
  sdk.posixMemalign .srcMemory = true ∧ sdk.posixMemalign .dstMemory = true ∧
    Allocates sdk pciAddr ∧ Starts sdk srcCapacity dstCapacity

theorem docaDecompressorInit_ok (pciAddr : String) (srcCapacity dstCapacity : Nat)
    (m : Owner Object) :
    (docaDecompressorInit sdk pciAddr srcCapacity dstCapacity m).2 = true ↔
      Initialises sdk pciAddr srcCapacity dstCapacity := by
  unfold Initialises
  have houtcome := docaDecompressorInit_outcome sdk pciAddr srcCapacity dstCapacity m
  generalize (docaDecompressorInit sdk pciAddr srcCapacity dstCapacity m).1 = r at houtcome
  generalize (docaDecompressorInit sdk pciAddr srcCapacity dstCapacity m).2 = ok at houtcome ⊢
  cases houtcome with
  | noSrcMemory hsrc => simp [hsrc]
  | noDstMemory hsrc hdst => simp [hdst]
  | notAllocated hmem hnot => simp [hnot]
  | allocated hk hmem halloc hstarts => simp [hmem, halloc, hstarts]

/-- The objects of the caller stay where they are. -/
theorem docaDecompressorInit_ptr (pciAddr : String) (srcCapacity dstCapacity : Nat)
    (m : Owner Object) {o : Object} (ho : o ∈ callerObjects) :
    (docaDecompressorInit sdk pciAddr srcCapacity dstCapacity m).1.ptr o = m.ptr o := by
  have hapart : ∀ o ∈ callerObjects, o ∉ touched ∧ o ∉ decompressorFields ∧
      o ∉ [Object.srcMemory, .dstMemory] ∧ o ∉ handles := by decide
  obtain ⟨htouched, hfields, hmemory, hhandles⟩ := hapart o ho
  have hcleared : (decompressorFields.foldl Owner.forget m).ptr o = m.ptr o := by
    rw [Owner.foldl_forget_ptr, if_neg hfields]
  simp only [List.mem_cons, List.not_mem_nil, or_false, not_or] at hmemory
  have hallocated : (allocateCompressResources sdk.toSdk (some pciAddr) 2 .decompressDeflate
      (((decompressorFields.foldl Owner.forget m).acquire .srcMemory).acquire
        .dstMemory)).1.ptr o = m.ptr o := by
    rw [allocateCompressResources_ptr sdk.toSdk _ (by decide) _ _ htouched]
    simp [hmemory, hcleared]
  unfold docaDecompressorInit
  dsimp only
  split_ifs
  · exact hcleared
  · simp [hmemory, hcleared]
  · exact hallocated
  · obtain ⟨k, -, -, hstart⟩ := startDecompressor_cases sdk srcCapacity dstCapacity
      (allocateCompressResources sdk.toSdk (some pciAddr) 2 .decompressDeflate
        (((decompressorFields.foldl Owner.forget m).acquire .srcMemory).acquire .dstMemory)).1
    rw [hstart, Owner.foldl_acquire_ptr, if_neg (fun h => hhandles (List.mem_of_mem_take h)),
      hallocated]

theorem docaDecompressorDestroy_ptr (m : Owner Object) {o : Object} (ho : o ∈ callerObjects) :
    (docaDecompressorDestroy sdk m).ptr o = m.ptr o := by
  have hapart : ∀ o ∈ callerObjects, o ∉ touched := by decide
  unfold docaDecompressorDestroy
  simp only [Owner.release_ptr, handles, List.reverse_cons, List.reverse_nil, List.nil_append,
    List.cons_append, List.foldl_cons, List.foldl_nil, releaseIfSet_ptr]
  split_ifs
  · rw [destroyCompressResources_ptr sdk.toSdk _ (hapart o ho)]
    simp
  · simp

/-! ## A frame that is rejected -/

/-- The task of a frame fails. -/
def Rejects (pciAddr : String) (srcCapacity dstCapacity : Nat) (calls : List FrameCall) : Prop :=
  Initialises sdk pciAddr srcCapacity dstCapacity ∧ ¬ NoTaskFails srcCapacity calls

/-- What is created and destroyed then. -/
def rejectedLedger : List (LedgerEntry Object) :=
  initLedger handles.length ++ destroyed [.task] ++ destroyed (teardown handles.length)

theorem decompressor_rejected (pciAddr : String) (srcCapacity dstCapacity : Nat)
    (m : Owner Object) (h : (docaDecompressorInit sdk pciAddr srcCapacity dstCapacity m).2 = true) :
    (docaDecompressorDestroy sdk ((docaDecompressorInit sdk pciAddr srcCapacity dstCapacity
      m).1.release .task)).ledger = m.ledger ++ rejectedLedger := by
  have houtcome := docaDecompressorInit_outcome sdk pciAddr srcCapacity dstCapacity m
  generalize (docaDecompressorInit sdk pciAddr srcCapacity dstCapacity m).1 = r at houtcome ⊢
  rw [h] at houtcome
  generalize hok : true = ok at houtcome
  cases houtcome with
  | noSrcMemory => cases hok
  | noDstMemory => cases hok
  | notAllocated => cases hok
  | @allocated k hk hmem halloc hstarts hledger hset hnull =>
    have hall : k = handles.length := of_decide_eq_true hok.symm
    rw [hall] at hledger hset
    rw [List.take_length] at hset
    rw [docaDecompressorDestroy_release sdk hset, hledger, rejectedLedger]
    simp only [List.append_assoc]

/-- The second free is one of a task that is not alive.  But for the first one everything is
destroyed once and in order. -/
theorem rejectedLedger_erase :
    run ledgerStep rejectedLedger ∅ = none ∧
      run ledgerStep (rejectedLedger.erase (.destroy (.obj .task))) ∅ = some ∅ ∧
      Guarded ledgerStep (ChildrenFirst (dependsOn · ·))
        (rejectedLedger.erase (.destroy (.obj .task))) ∅ := by
  decide

/-- **What the local decompressor leaves.**  When `main` ends, it has destroyed exactly what it
created, everything once, and it has closed an object under one that needs it exactly when
the engine cannot be configured.  Only a task that has failed is freed twice. -/
theorem localDecompress_ledger {pciAddr : String} {srcCapacity dstCapacity : Nat}
    {calls : List FrameCall} {objectsOk : Bool} {ptr : Object → Pointer Object}
    {r : Owner Object × Bool}
    (h : localDecompress sdk pciAddr srcCapacity dstCapacity calls objectsOk ⟨ptr, []⟩ = some r) :
    let s := r.1.ledger
    (¬ Rejects sdk pciAddr srcCapacity dstCapacity calls →
      run ledgerStep s ∅ = some ∅ ∧
        (∀ o, s.count (.create o) = s.count (.destroy (.obj o))) ∧
        (Guarded ledgerStep (ChildrenFirst (dependsOn · ·)) s ∅ ↔ ¬ FailsLate sdk pciAddr)) ∧
    (Rejects sdk pciAddr srcCapacity dstCapacity calls →
      run ledgerStep s ∅ = none ∧
        run ledgerStep (s.erase (.destroy (.obj .task))) ∅ = some ∅ ∧
        Guarded ledgerStep (ChildrenFirst (dependsOn · ·))
          (s.erase (.destroy (.obj .task))) ∅) := by
  intro s
  have hok := docaDecompressorInit_ok sdk pciAddr srcCapacity dstCapacity ⟨ptr, []⟩
  -- Without a task that fails, what is left is that of the initialisation.
  have hplain : s = (docaDecompressorDestroy sdk
        (docaDecompressorInit sdk pciAddr srcCapacity dstCapacity ⟨ptr, []⟩).1).ledger →
      run ledgerStep s ∅ = some ∅ ∧
        (∀ o, s.count (.create o) = s.count (.destroy (.obj o))) ∧
        (Guarded ledgerStep (ChildrenFirst (dependsOn · ·)) s ∅ ↔ ¬ FailsLate sdk pciAddr) := by
    intro hs
    obtain ⟨s', hledger, hsession⟩ :=
      decompressor_session sdk pciAddr srcCapacity dstCapacity ⟨ptr, []⟩
    rw [hs, hledger, List.nil_append]
    refine ⟨hsession.replays, ?_, hsession.ordered⟩
    intro o
    have hcount := ledger_count hsession.replays o
    simpa using hcount
  rw [localDecompress] at h
  cases hinit : (docaDecompressorInit sdk pciAddr srcCapacity dstCapacity ⟨ptr, []⟩).2 with
  | false =>
    rw [hinit] at hok
    have hnot : ¬ Initialises sdk pciAddr srcCapacity dstCapacity :=
      fun hall => Bool.false_ne_true (hok.mpr hall)
    simp only [hinit, if_true] at h
    cases h
    exact ⟨fun _ => hplain rfl, fun hrejects => absurd hrejects.1 hnot⟩
  | true =>
    simp only [hinit, Bool.true_eq_false, if_false] at h
    obtain ⟨m, hread, rfl⟩ := Option.map_eq_some_iff.mp h
    rcases readFrames_eq hread with ⟨hnone, rfl⟩ | ⟨hsome, rfl⟩
    · exact ⟨fun _ => hplain rfl, fun hrejects => absurd hnone hrejects.2⟩
    · have hs : s = rejectedLedger :=
        decompressor_rejected sdk pciAddr srcCapacity dstCapacity ⟨ptr, []⟩ hinit
      refine ⟨fun hnot => absurd ⟨hok.mp hinit, hsome⟩ hnot, fun _ => ?_⟩
      rw [hs]
      exact rejectedLedger_erase

/-- Everything is available, and the device of the session is the one that is asked for. -/
def readySdk : InitSdk where
  createList := .success
  devices := [⟨fun _ => (.success, true), fun _ => .success, .success⟩]
  call _ := .success
  destroy _ := .success
  posixMemalign _ := true
  maxBufSize := (.success, 2097152)
  init _ := .success

theorem allocates_readySdk (pciAddr : String) : Allocates readySdk pciAddr := by
  simp [Allocates, CoreCreated, Configured, DeviceOpens, CoreReady, Compress.passes, readySdk]

theorem not_noTaskFails_badFrame (calls : List FrameCall) :
    ¬ NoTaskFails 100 (frameCall (.other 5) :: calls) :=
  fun h => h.1 ⟨⟨by decide, rfl, rfl⟩, rfl, ⟨.other 5, 0, 0⟩, rfl, nofun⟩

theorem localDecompress_ledger_badFrame :
    ∃ r, localDecompress readySdk "b1:00.0" 100 100 [frameCall (.other 5)] false
        ⟨fun _ => .null, []⟩ = some r ∧
      run ledgerStep r.1.ledger ∅ = none ∧
      run ledgerStep (r.1.ledger.erase (.destroy (.obj .task))) ∅ = some ∅ := by
  have hready : Initialises readySdk "b1:00.0" 100 100 :=
    ⟨rfl, rfl, allocates_readySdk _, rfl, by decide, by decide, fun _ => rfl⟩
  obtain ⟨r, hr⟩ : ∃ r, localDecompress readySdk "b1:00.0" 100 100 [frameCall (.other 5)] false
      ⟨fun _ => .null, []⟩ = some r := ⟨_, rfl⟩
  obtain ⟨hnone, hrun, -⟩ :=
    (localDecompress_ledger readySdk hr).2 ⟨hready, not_noTaskFails_badFrame []⟩
  exact ⟨r, hr, hnone, hrun⟩

/-! ## `benchmark_reads` -/

/-- A piece of the program between acquiring the caller's objects and giving them
back. -/
theorem run_framed {s : List (LedgerEntry Object)} {left : Finset Object}
    (hrun : run ledgerStep s ∅ = some left) (hapart : ∀ o ∈ callerObjects, .create o ∉ s)
    (hdisjoint : Disjoint left callerObjects) :
    run ledgerStep (created [.cluster, .ioctx, .readBuffer, .outputBuffer] ++ s ++
      destroyed [.readBuffer, .outputBuffer, .ioctx, .cluster]) ∅ = some left := by
  have hcreate : run ledgerStep (created [Object.cluster, .ioctx, .readBuffer, .outputBuffer])
      ∅ = some (∅ ∪ callerObjects) := by decide
  have hmiddle : run ledgerStep s (∅ ∪ callerObjects) = some (left ∪ callerObjects) :=
    run_ledger_frame hrun (Finset.disjoint_empty_left _) hapart
  have hdestroy : run ledgerStep
      (destroyed [Object.readBuffer, .outputBuffer, .ioctx, .cluster]) callerObjects = some ∅ := by
    decide
  have hlast := run_ledger_frame hdestroy hdisjoint.symm
    (fun o _ => by simp [destroyed])
  rw [run_append, run_append, hcreate, Option.bind_some, hmiddle, Option.bind_some,
    Finset.union_comm, hlast, Finset.empty_union]

end

section

variable (sdk : BenchSdk)

/-- Everything before the decompressor succeeds. -/
def ReachesInit : Prop :=
  (sdk.radosCreate = true ∧ sdk.confReadFile = true ∧ sdk.connect = true ∧
      sdk.ioctxCreate = true) ∧
    sdk.manifestsMatch = true ∧ sdk.malloc .readBuffer = true ∧ sdk.malloc .outputBuffer = true

/-- `connect_rados` has both of its objects, or undoes the first. -/
theorem connectRados_cases (m : Owner Object) :
    (sdk.radosCreate = true ∧ sdk.confReadFile = true ∧ sdk.connect = true ∧
        sdk.ioctxCreate = true) ∧
        connectRados sdk m = ((m.acquire .cluster).acquire .ioctx, true) ∨
      ¬ (sdk.radosCreate = true ∧ sdk.confReadFile = true ∧ sdk.connect = true ∧
        sdk.ioctxCreate = true) ∧ (connectRados sdk m).2 = false ∧
        ∃ s ∈ [[], unwind [Object.cluster]],
          (connectRados sdk m).1.ledger = m.ledger ++ s := by
  unfold connectRados
  split_ifs with hcreate hconnect
  · exact Or.inr ⟨by simp [hcreate], rfl, [], by simp, by simp⟩
  · refine Or.inr ⟨?_, rfl, unwind [.cluster], by simp, by simp [unwind, created, destroyed]⟩
    rintro ⟨-, h, h', h''⟩
    simp [h, h', h''] at hconnect
  · simp only [not_or, Bool.not_eq_false] at hcreate hconnect
    exact Or.inl ⟨⟨hcreate, hconnect⟩, rfl⟩

/-- Giving up before the decompressor leaves nothing. -/
theorem benchmarkReads_early (h : ¬ ReachesInit sdk) (pciAddr : String) (srcCapacity : Nat)
    (ptr : Object → Pointer Object) :
    ∃ r, benchmarkReadsObjects sdk pciAddr srcCapacity ⟨ptr, []⟩ = some r ∧
      run ledgerStep r.1.ledger ∅ = some ∅ := by
  rcases connectRados_cases sdk ⟨ptr, []⟩ with ⟨hall, hconnect⟩ | ⟨-, hfail, s, hs, hledger⟩
  · cases hmanifest : sdk.manifestsMatch with
    | false =>
      simp only [benchmarkReadsObjects, hconnect, hmanifest, Bool.true_eq_false, if_false, if_true]
      refine ⟨_, rfl, ?_⟩
      simp only [closeRados, Owner.release_ledger, Owner.acquire_ledger, Owner.release_ptr,
        Owner.acquire_ptr, if_true, reduceCtorEq, if_false]
      decide
    | true =>
      have hmalloc : sdk.malloc .readBuffer = false ∨ sdk.malloc .outputBuffer = false := by
        by_contra hboth
        rw [not_or, Bool.not_eq_false, Bool.not_eq_false] at hboth
        exact h ⟨hall, hmanifest, hboth⟩
      simp only [benchmarkReadsObjects, hconnect, hmanifest, hmalloc, Bool.true_eq_false, if_false,
        if_true]
      refine ⟨_, rfl, ?_⟩
      cases hread : sdk.malloc .readBuffer <;> cases houtput : sdk.malloc .outputBuffer
      · simp [freeAndClose, closeRados, mallocTo, hread, houtput]
        decide
      · simp [freeAndClose, closeRados, mallocTo, hread, houtput]
        decide
      · simp [freeAndClose, closeRados, mallocTo, hread, houtput]
        decide
      · simp [hread, houtput] at hmalloc
  · have hrun : ∀ s ∈ [[], unwind [Object.cluster]], run ledgerStep s ∅ = some ∅ := by decide
    simp only [benchmarkReadsObjects, hfail, if_true]
    refine ⟨_, rfl, ?_⟩
    rw [hledger, List.nil_append]
    exact hrun s hs

/-- The objects of the caller around what the decompressor does to its own. -/
theorem freeAndClose_ledger {m : Owner Object} {s : List (LedgerEntry Object)}
    (hledger : m.ledger = created [.cluster, .ioctx, .readBuffer, .outputBuffer] ++ s)
    (hptr : ∀ o ∈ callerObjects, m.ptr o = .obj o) :
    (freeAndClose m).ledger = created [.cluster, .ioctx, .readBuffer, .outputBuffer] ++ s ++
      destroyed [.readBuffer, .outputBuffer, .ioctx, .cluster] := by
  simp only [callerObjects, Finset.mem_insert, Finset.mem_singleton, forall_eq_or_imp,
    forall_eq] at hptr
  simp [freeAndClose, closeRados, hledger, hptr, destroyed]

/-- The ledger around a task that has failed. -/
def rejectedBenchLedger : List (LedgerEntry Object) :=
  created [.cluster, .ioctx, .readBuffer, .outputBuffer] ++ rejectedLedger ++
    destroyed [.readBuffer, .outputBuffer, .ioctx, .cluster]

theorem rejectedBenchLedger_erase :
    run ledgerStep rejectedBenchLedger ∅ = none ∧
      run ledgerStep (rejectedBenchLedger.erase (.destroy (.obj .task))) ∅ = some ∅ := by
  decide

/-- **What the benchmark leaves.**  When `benchmark_reads` returns, it has destroyed what it
created, once each, unless the decompressor cannot be initialised or a task fails.  In the
first case it keeps what the initialisation has: the memory, and behind the allocation the
open device with its engine as well.  In the second the task is freed twice. -/
theorem benchmarkReads_ledger {pciAddr : String} {srcCapacity : Nat}
    {ptr : Object → Pointer Object} {r : Owner Object × Bool}
    (h : benchmarkReadsObjects sdk pciAddr srcCapacity ⟨ptr, []⟩ = some r) :
    let s := r.1.ledger
    let rejects := ReachesInit sdk ∧
      Rejects sdk.toInitSdk pciAddr srcCapacity FRAME_BYTES sdk.calls
    (rejects → run ledgerStep s ∅ = none ∧
      run ledgerStep (s.erase (.destroy (.obj .task))) ∅ = some ∅) ∧
    (¬ rejects → ∃ left, run ledgerStep s ∅ = some left ∧ Disjoint left callerObjects ∧
      (left ≠ ∅ ↔ ReachesInit sdk ∧ sdk.posixMemalign .srcMemory = true ∧
        ¬ Initialises sdk.toInitSdk pciAddr srcCapacity FRAME_BYTES) ∧
      (ReachesInit sdk → sdk.posixMemalign .srcMemory = true →
        sdk.posixMemalign .dstMemory = true → Allocates sdk.toInitSdk pciAddr →
        ¬ Starts sdk.toInitSdk srcCapacity FRAME_BYTES → ∀ o ∈ resourceObjects, o ∈ left)) := by
  intro s rejects
  by_cases hreach : ReachesInit sdk
  swap
  · obtain ⟨r', hr', hrun⟩ := benchmarkReads_early sdk hreach pciAddr srcCapacity ptr
    cases h.symm.trans hr'
    exact ⟨fun hrejects => absurd hrejects.1 hreach, fun _ => ⟨∅, hrun, by simp,
      iff_of_false (by simp) (fun h => hreach h.1), fun h => absurd h hreach⟩⟩
  obtain ⟨hconnected, hmanifest, hread, houtput⟩ := id hreach
  let m : Owner Object := [Object.cluster, .ioctx, .readBuffer, .outputBuffer].foldl
    Owner.acquire ⟨ptr, []⟩
  have hconnect : connectRados sdk ⟨ptr, []⟩ =
      (((⟨ptr, []⟩ : Owner Object).acquire .cluster).acquire .ioctx, true) := by
    simp [connectRados, hconnected]
  have hm : mallocTo sdk (mallocTo sdk
      (((⟨ptr, []⟩ : Owner Object).acquire .cluster).acquire .ioctx) .readBuffer)
        .outputBuffer = m := by
    simp only [mallocTo, hread, houtput, if_true]
    rfl
  simp only [benchmarkReadsObjects, hconnect, hmanifest, hread, houtput, hm,
    Bool.true_eq_false, or_self, if_false] at h
  have hbefore : m.ledger = created [.cluster, .ioctx, .readBuffer, .outputBuffer] := by
    rw [Owner.foldl_acquire_ledger, List.nil_append]
  have hptr : ∀ o ∈ callerObjects, m.ptr o = .obj o := by
    intro o ho
    have hin : ∀ o ∈ callerObjects,
        o ∈ [Object.cluster, .ioctx, .readBuffer, .outputBuffer] := by decide
    rw [Owner.foldl_acquire_ptr, if_pos (hin o ho)]
  have hok := docaDecompressorInit_ok sdk.toInitSdk pciAddr srcCapacity FRAME_BYTES m
  cases hinit : (docaDecompressorInit sdk.toInitSdk pciAddr srcCapacity FRAME_BYTES m).2 with
  | false =>
    rw [hinit] at hok
    have hnot : ¬ Initialises sdk.toInitSdk pciAddr srcCapacity FRAME_BYTES :=
      fun hall => Bool.false_ne_true (hok.mpr hall)
    obtain ⟨s', left, hledger, hrun, hapart, hdisjoint, hempty, hresources⟩ :=
      docaDecompressorInit_ledger sdk.toInitSdk pciAddr srcCapacity FRAME_BYTES m
    rw [hbefore] at hledger
    rw [hinit, if_pos rfl] at h
    cases h
    have hs := freeAndClose_ledger hledger (fun o ho => by
      rw [docaDecompressorInit_ptr _ _ _ _ _ ho, hptr o ho])
    refine ⟨fun hrejects => absurd hrejects.2.1 hnot, fun _ =>
      ⟨left, ?_, hdisjoint, ?_, fun _ hsrc hdst halloc _ => hresources hsrc hdst halloc⟩⟩
    · rw [← run_framed hrun hapart hdisjoint, ← hs]
    · rw [ne_eq, hempty, Bool.not_eq_false]
      exact ⟨fun hsrc => ⟨hreach, hsrc, hnot⟩, fun h => h.2.1⟩
  | true =>
    have hall := hok.mp hinit
    rw [hinit, if_neg (by decide)] at h
    obtain ⟨m', hframes, rfl⟩ := Option.map_eq_some_iff.mp h
    rcases readFrames_eq hframes with ⟨hnone, rfl⟩ | ⟨hsome, rfl⟩
    · obtain ⟨s', hledger, hsession⟩ :=
        decompressor_session sdk.toInitSdk pciAddr srcCapacity FRAME_BYTES m
      rw [hbefore] at hledger
      have hs := freeAndClose_ledger hledger (fun o ho => by
        rw [docaDecompressorDestroy_ptr _ _ ho, docaDecompressorInit_ptr _ _ _ _ _ ho,
          hptr o ho])
      refine ⟨fun hrejects => absurd hnone hrejects.2.2, fun _ => ⟨∅, ?_, by simp,
        iff_of_false (by simp) (fun h => h.2.2 hall),
        fun _ _ _ _ hnot => absurd hall.2.2.2 hnot⟩⟩
      rw [← run_framed hsession.replays hsession.apart (by simp), ← hs]
    · have hledger :=
        decompressor_rejected sdk.toInitSdk pciAddr srcCapacity FRAME_BYTES m hinit
      rw [hbefore] at hledger
      have hs : s = rejectedBenchLedger := freeAndClose_ledger hledger (fun o ho => by
        rw [docaDecompressorDestroy_ptr _ _ ho, Owner.release_ptr,
          docaDecompressorInit_ptr _ _ _ _ _ ho, hptr o ho])
      refine ⟨fun _ => ?_, fun hnot => absurd ⟨hreach, hall, hsome⟩ hnot⟩
      rw [hs]
      exact rejectedBenchLedger_erase

end

/-- The cluster is there as well, and the second frame is bad. -/
def readyBenchSdk : BenchSdk where
  toInitSdk := readySdk
  radosCreate := true
  confReadFile := true
  connect := true
  ioctxCreate := true
  manifestsMatch := true
  malloc _ := true
  calls := [frameCall .success, frameCall (.other 5)]
  passesSucceed := false

theorem benchmarkReads_ledger_badFrame :
    ∃ r, benchmarkReadsObjects readyBenchSdk "b1:00.0" 100 ⟨fun _ => .null, []⟩ = some r ∧
      run ledgerStep r.1.ledger ∅ = none ∧
      run ledgerStep (r.1.ledger.erase (.destroy (.obj .task))) ∅ = some ∅ := by
  have hready : Initialises readySdk "b1:00.0" 100 FRAME_BYTES :=
    ⟨rfl, rfl, allocates_readySdk _, rfl, by decide, by decide, fun _ => rfl⟩
  have hfirst : (frameCall .success).Succeeds 100 :=
    ⟨⟨by decide, rfl, rfl⟩, rfl, ⟨⟨.success, 0, 0⟩, rfl, rfl⟩, rfl⟩
  have hsecond : ¬ NoTaskFails 100 readyBenchSdk.calls :=
    fun h => not_noTaskFails_badFrame [] (h.2 hfirst)
  obtain ⟨r, hr⟩ : ∃ r, benchmarkReadsObjects readyBenchSdk "b1:00.0" 100
      ⟨fun _ => .null, []⟩ = some r := ⟨_, rfl⟩
  obtain ⟨hnone, hrun⟩ := (benchmarkReads_ledger readyBenchSdk hr).1
    ⟨⟨⟨rfl, rfl, rfl, rfl⟩, rfl, rfl, rfl⟩, hready, hsecond⟩
  exact ⟨r, hr, hnone, hrun⟩

end DpuTest.ReadBench.Lifetime
