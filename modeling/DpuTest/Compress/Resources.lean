import DpuTest.Doca
import DpuTest.Lib.Ledger

/-!
# Creating and destroying the compress resources

`allocate_compress_resources` opens a device, creates the compress engine and
the core objects on it and configures the engine.  Each call of the SDK can
fail, and a chain of labels undoes what was created so far.
`destroy_compress_resources` takes everything down at the end.

A label is a function here, and `goto` calls it.  What the calls answer is a
parameter, and what the code creates and destroys is its ledger.

* `createCoreObjects_failed` and `createCoreObjects_succeeded` are the chain of
  `create_core_objects`.
* `allocateCompressResources_ledger` says that a failed allocation leaves nothing
  alive and destroys nothing twice.  It also says when the order is wrong: after
  `create_core_objects` the chain closes the device while the compress engine
  that was created on it is still there, and then closes a null device.
* `destroyCompressResources_zero` is about a `max_bufs` of 0, for which no inventory
  is created: the one that is destroyed at the end was never set.
-/

namespace DpuTest.Compress

open Lib

/-- What the two programs around the compress resources create. -/
inductive Object where
  /-- `resources->state`, the memory of `struct program_core_objects` -/
  | state
  /-- the list of `doca_devinfo_create_list` -/
  | devList
  | dev
  | compress
  | srcMmap
  | dstMmap
  | bufInv
  | pe
  /-- the memory and the handles of a decompressor -/
  | srcMemory
  | dstMemory
  | srcBuf
  | dstBuf
  | task
  /-- what `benchmark_reads` holds beside its decompressor -/
  | cluster
  | ioctx
  | readBuffer
  | outputBuffer
  deriving DecidableEq

/-- An object needs those that were handed to the calls that set it up, and the
handles in `program_core_objects` need its memory. -/
def dependsOn : Object → Object → Bool
  | .dev, .state => true
  | .compress, .dev | .compress, .pe => true
  | .srcMmap, .state | .srcMmap, .dev | .srcMmap, .srcMemory => true
  | .dstMmap, .state | .dstMmap, .dev | .dstMmap, .dstMemory => true
  | .bufInv, .state => true
  | .pe, .state => true
  | .srcBuf, .bufInv | .srcBuf, .srcMmap => true
  | .dstBuf, .bufInv | .dstBuf, .dstMmap => true
  | .task, .compress | .task, .srcBuf | .task, .dstBuf => true
  | .ioctx, .cluster => true
  | _, _ => false

/-- `enum compress_mode`, which can hold other numbers as well. -/
inductive CompressMode where
  | compressDeflate
  | decompressDeflate
  | decompressLz4Stream
  | other (n : Nat)
  deriving DecidableEq

/-- The calls whose answers steer the code. -/
inductive Call where
  | mallocState
  | compressCreate
  | srcMmapCreate
  | srcMmapAddDev
  | dstMmapCreate
  | dstMmapAddDev
  | bufInventoryCreate (maxBufs : Nat)
  | bufInventoryStart
  | peCreate
  | peConnectCtx
  | ctxSetStateChangedCb
  /-- the `set_conf` of the mode, with its number of tasks -/
  | taskSetConf (mode : CompressMode) (numTasks : Nat)
  | ctxStop
  deriving DecidableEq

/-- A device that the SDK lists. -/
structure DevInfo where
  /-- `doca_devinfo_is_equal_pci_addr` -/
  isEqualPciAddr : String → DocaStatus × Bool
  /-- the `compress_task_…_is_supported` of the mode -/
  isSupported : CompressMode → DocaStatus
  /-- `doca_dev_open` -/
  open' : DocaStatus

/-- The answers of the SDK. -/
structure Sdk where
  /-- `doca_devinfo_create_list`, and the list when it succeeds -/
  createList : DocaStatus
  devices : List DevInfo
  call : Call → DocaStatus
  destroy : Pointer Object → DocaStatus

/-- `DOCA_ERROR_INVALID_VALUE`, `DOCA_ERROR_NO_MEMORY`, `DOCA_ERROR_NOT_FOUND` by
their numbers in the SDK. -/
def DOCA_ERROR_INVALID_VALUE : DocaStatus := .other 6

def DOCA_ERROR_NO_MEMORY : DocaStatus := .other 7

def DOCA_ERROR_NOT_FOUND : DocaStatus := .other 16

def NUM_COMPRESS_TASKS : Nat := 1

/-- `DOCA_ERROR_PROPAGATE`: the first error stays. -/
def propagate (result tmpResult : DocaStatus) : DocaStatus :=
  if result = .success then tmpResult else result

theorem propagate_ne_success {result : DocaStatus} (h : result ≠ .success)
    (tmpResult : DocaStatus) : propagate result tmpResult ≠ .success := by
  rw [propagate, if_neg h]
  exact h

section

variable (sdk : Sdk)

/-! ## `create_core_objects` -/

/-- The label `destroy_src_mmap`. -/
def destroySrcMmap (m : Owner Object) : Owner Object :=
  (m.release .srcMmap).forget .srcMmap

/-- The label `destroy_dst_mmap`. -/
def destroyDstMmap (m : Owner Object) : Owner Object :=
  destroySrcMmap ((m.release .dstMmap).forget .dstMmap)

/-- The label `destroy_buf_inv`. -/
def destroyBufInv (m : Owner Object) : Owner Object :=
  destroyDstMmap (if m.ptr .bufInv ≠ .null then (m.release .bufInv).forget .bufInv else m)

/-- The end of `create_core_objects`: the progress engine. -/
def createPe (m : Owner Object) : Owner Object × DocaStatus :=
  if sdk.call .peCreate ≠ .success then
    (destroyBufInv m, sdk.call .peCreate)
  else
    (m.acquire .pe, .success)

/-- The middle of `create_core_objects`: the inventory, unless `max_bufs` is 0. -/
def createBufInv (maxBufs : Nat) (m : Owner Object) : Owner Object × DocaStatus :=
  if maxBufs ≠ 0 then
    if sdk.call (.bufInventoryCreate maxBufs) ≠ .success then
      (destroyDstMmap m, sdk.call (.bufInventoryCreate maxBufs))
    else if sdk.call .bufInventoryStart ≠ .success then
      (destroyBufInv (m.acquire .bufInv), sdk.call .bufInventoryStart)
    else
      createPe sdk (m.acquire .bufInv)
  else
    createPe sdk m

def createCoreObjects (maxBufs : Nat) (m : Owner Object) : Owner Object × DocaStatus :=
  if sdk.call .srcMmapCreate ≠ .success then
    (m, sdk.call .srcMmapCreate)
  else if sdk.call .srcMmapAddDev ≠ .success then
    (destroySrcMmap (m.acquire .srcMmap), sdk.call .srcMmapAddDev)
  else if sdk.call .dstMmapCreate ≠ .success then
    (destroySrcMmap (m.acquire .srcMmap), sdk.call .dstMmapCreate)
  else if sdk.call .dstMmapAddDev ≠ .success then
    (destroyDstMmap ((m.acquire .srcMmap).acquire .dstMmap), sdk.call .dstMmapAddDev)
  else
    createBufInv sdk maxBufs ((m.acquire .srcMmap).acquire .dstMmap)

/-- One block of `destroy_core_objects`. -/
def destroyIfSet (o : Object) (s : Owner Object × DocaStatus) : Owner Object × DocaStatus :=
  if s.1.ptr o ≠ .null then
    ((s.1.release o).forget o, propagate s.2 (sdk.destroy (s.1.ptr o)))
  else
    s

def destroyCoreObjects (m : Owner Object) : Owner Object × DocaStatus :=
  [.pe, .bufInv, .dstMmap, .srcMmap, .dev].foldl (fun s o => destroyIfSet sdk o s) (m, .success)

/-! ## Opening the device -/

/-- The body of `doca_devinfo_create_list` to `doca_devinfo_destroy_list` in both
open functions: the first device that passes and that can be opened. -/
def openFirst (passes : DevInfo → Bool) (m : Owner Object) :
    List DevInfo → Owner Object × DocaStatus
  | [] => (m, DOCA_ERROR_NOT_FOUND)
  | d :: ds =>
    if passes d ∧ d.open' = .success then
      (m.acquire .dev, .success)
    else
      openFirst passes m ds

/-- The common text of the two open functions. -/
def openDocaDevice (passes : DevInfo → Bool) (m : Owner Object) : Owner Object × DocaStatus :=
  if sdk.createList ≠ .success then
    (m.forget .dev, sdk.createList)
  else
    let opened := openFirst passes ((m.forget .dev).acquire .devList) sdk.devices
    (opened.1.release .devList, opened.2)

def openDocaDeviceWithPci (pciAddr : String) (mode : CompressMode) :
    Owner Object → Owner Object × DocaStatus :=
  openDocaDevice sdk
    (fun d => d.isEqualPciAddr pciAddr = (.success, true) ∧ d.isSupported mode = .success)

def openDocaDeviceWithCapabilities (mode : CompressMode) :
    Owner Object → Owner Object × DocaStatus :=
  openDocaDevice sdk (fun d => d.isSupported mode = .success)

/-! ## `allocate_compress_resources` -/

/-- The label `free_state`. -/
def freeState (s : Owner Object × DocaStatus) : Owner Object × DocaStatus :=
  ((s.1.release .state).forget .state, s.2)

/-- The label `close_device`. -/
def closeDevice (s : Owner Object × DocaStatus) : Owner Object × DocaStatus :=
  freeState (s.1.release .dev, propagate s.2 (sdk.destroy (s.1.ptr .dev)))

/-- The label `destroy_compress`. -/
def destroyCompress (s : Owner Object × DocaStatus) : Owner Object × DocaStatus :=
  closeDevice sdk (s.1.release .compress, propagate s.2 (sdk.destroy (s.1.ptr .compress)))

/-- The label `destroy_core_objects`. -/
def destroyCore (s : Owner Object × DocaStatus) : Owner Object × DocaStatus :=
  destroyCompress sdk
    ((destroyCoreObjects sdk s.1).1, propagate s.2 (destroyCoreObjects sdk s.1).2)

/-- Opening the device in the way that `pci_addr` asks for.  The first `switch`
picks the check of the mode, and gives up on a mode that it does not know. -/
def openForMode (pciAddr : Option String) (mode : CompressMode) (m : Owner Object) :
    Owner Object × DocaStatus :=
  match mode with
  | .other _ => (m, DOCA_ERROR_INVALID_VALUE)
  | mode =>
    match pciAddr with
    | some pciAddr => openDocaDeviceWithPci sdk pciAddr mode m
    | none => openDocaDeviceWithCapabilities sdk mode m

/-- The test behind the second `switch`. -/
def checkConf (result : DocaStatus) (m : Owner Object) : Owner Object × DocaStatus :=
  if result ≠ .success then destroyCore sdk (m, result) else (m, result)

/-- The second `switch`.  Its default goes to `free_state`. -/
def setConf (maxBufs : Nat) (mode : CompressMode) (m : Owner Object) :
    Owner Object × DocaStatus :=
  match mode with
  | .compressDeflate | .decompressDeflate =>
    checkConf sdk (sdk.call (.taskSetConf mode (maxBufs / 2))) m
  | .decompressLz4Stream => checkConf sdk (sdk.call (.taskSetConf mode NUM_COMPRESS_TASKS)) m
  | .other _ => freeState (m, DOCA_ERROR_INVALID_VALUE)

/-- From `doca_pe_connect_ctx` to the end. -/
def configure (maxBufs : Nat) (mode : CompressMode) (m : Owner Object) :
    Owner Object × DocaStatus :=
  if sdk.call .peConnectCtx ≠ .success then
    destroyCore sdk (m, sdk.call .peConnectCtx)
  else if sdk.call .ctxSetStateChangedCb ≠ .success then
    destroyCore sdk (m, sdk.call .ctxSetStateChangedCb)
  else
    setConf sdk maxBufs mode m

/-- From `doca_compress_create` on. -/
def createCompress (maxBufs : Nat) (mode : CompressMode) (m : Owner Object) :
    Owner Object × DocaStatus :=
  if sdk.call .compressCreate ≠ .success then
    closeDevice sdk (m, sdk.call .compressCreate)
  else
    let created := createCoreObjects sdk maxBufs (m.acquire .compress)
    if created.2 ≠ .success then
      destroyCompress sdk created
    else
      configure sdk maxBufs mode created.1

/-- The fields of `struct program_core_objects`, which `malloc` does not set. -/
def stateFields : List Object := [.dev, .srcMmap, .dstMmap, .bufInv, .pe]

def allocateCompressResources (pciAddr : Option String) (maxBufs : Nat) (mode : CompressMode)
    (m : Owner Object) : Owner Object × DocaStatus :=
  if sdk.call .mallocState ≠ .success then
    (m.forget .state, DOCA_ERROR_NO_MEMORY)
  else
    let opened := openForMode sdk pciAddr mode ((m.acquire .state).scramble stateFields)
    if opened.2 ≠ .success then
      freeState opened
    else
      createCompress sdk maxBufs mode opened.1

/-! ## `destroy_compress_resources` -/

def destroyCompressResources (m : Owner Object) : Owner Object × DocaStatus :=
  let stopped : Owner Object × DocaStatus :=
    if m.ptr .compress ≠ .null then
      (m.release .compress,
        propagate (sdk.call .ctxStop) (sdk.destroy (m.ptr .compress)))
    else
      (m, .success)
  if stopped.1.ptr .state ≠ .null then
    let core := destroyCoreObjects sdk stopped.1
    ((core.1.release .state).forget .state, propagate stopped.2 core.2)
  else
    stopped

/-! ## What the chains leave in the ledger -/

/-- What `create_core_objects` creates, in its order. -/
def coreObjects : List Object := [.srcMmap, .dstMmap, .bufInv, .pe]

/-- What is alive after an allocation. -/
def resourceObjects : List Object := .state :: .dev :: .compress :: coreObjects

/-- Every call of `create_core_objects` succeeds. -/
def CoreReady (maxBufs : Nat) : Prop :=
  sdk.call .srcMmapCreate = .success ∧ sdk.call .srcMmapAddDev = .success ∧
    sdk.call .dstMmapCreate = .success ∧ sdk.call .dstMmapAddDev = .success ∧
    sdk.call (.bufInventoryCreate maxBufs) = .success ∧
    sdk.call .bufInventoryStart = .success ∧ sdk.call .peCreate = .success

@[simp] theorem destroySrcMmap_ledger (m : Owner Object) :
    (destroySrcMmap m).ledger = m.ledger ++ [.destroy (m.ptr .srcMmap)] := rfl

@[simp] theorem destroyDstMmap_ledger (m : Owner Object) :
    (destroyDstMmap m).ledger =
      m.ledger ++ [.destroy (m.ptr .dstMmap), .destroy (m.ptr .srcMmap)] := by
  simp [destroyDstMmap]

theorem destroyBufInv_ledger {m : Owner Object} (h : m.ptr .bufInv = .obj .bufInv) :
    (destroyBufInv m).ledger = m.ledger ++
      [.destroy (.obj .bufInv), .destroy (m.ptr .dstMmap), .destroy (m.ptr .srcMmap)] := by
  simp [destroyBufInv, h]

/-- `create_core_objects` sets its own four pointers only. -/
theorem createCoreObjects_ptr {maxBufs : Nat} (hmax : maxBufs ≠ 0) (m : Owner Object)
    {o : Object} (ho : o ∉ coreObjects) :
    (createCoreObjects sdk maxBufs m).1.ptr o = m.ptr o := by
  simp only [coreObjects, List.mem_cons, List.not_mem_nil, or_false, not_or] at ho
  unfold createCoreObjects createBufInv createPe
  rw [if_pos hmax]
  split_ifs <;> simp [destroyBufInv, destroyDstMmap, destroySrcMmap, ho]

/-- It either creates its four objects or undoes a prefix of them, the last one
first. -/
theorem createCoreObjects_cases {maxBufs : Nat} (hmax : maxBufs ≠ 0) (m : Owner Object) :
    CoreReady sdk maxBufs ∧ (createCoreObjects sdk maxBufs m).2 = .success ∧
        (createCoreObjects sdk maxBufs m).1.ledger = m.ledger ++ created coreObjects ∧
        (∀ o ∈ coreObjects, (createCoreObjects sdk maxBufs m).1.ptr o = .obj o) ∨
      ¬ CoreReady sdk maxBufs ∧ (createCoreObjects sdk maxBufs m).2 ≠ .success ∧
        ∃ k < coreObjects.length,
          (createCoreObjects sdk maxBufs m).1.ledger =
            m.ledger ++ unwind (coreObjects.take k) := by
  unfold createCoreObjects createBufInv createPe CoreReady
  rw [if_pos hmax]
  split_ifs with h1 h2 h3 h4 h5 h6 h7
  · exact Or.inr ⟨fun h => h1 h.1, h1, 0, by decide, by simp [unwind, created, destroyed]⟩
  · refine Or.inr ⟨fun h => h2 h.2.1, h2, 1, by decide, ?_⟩
    simp [unwind, created, destroyed, coreObjects]
  · refine Or.inr ⟨fun h => h3 h.2.2.1, h3, 1, by decide, ?_⟩
    simp [unwind, created, destroyed, coreObjects]
  · refine Or.inr ⟨fun h => h4 h.2.2.2.1, h4, 2, by decide, ?_⟩
    simp [unwind, created, destroyed, coreObjects]
  · refine Or.inr ⟨fun h => h5 h.2.2.2.2.1, h5, 2, by decide, ?_⟩
    simp [unwind, created, destroyed, coreObjects]
  · refine Or.inr ⟨fun h => h6 h.2.2.2.2.2.1, h6, 3, by decide, ?_⟩
    simp [destroyBufInv_ledger, unwind, created, destroyed, coreObjects]
  · refine Or.inr ⟨fun h => h7 h.2.2.2.2.2.2, h7, 3, by decide, ?_⟩
    simp [destroyBufInv_ledger, unwind, created, destroyed, coreObjects]
  · simp only [ne_eq, not_not] at h1 h2 h3 h4 h5 h6 h7
    refine Or.inl ⟨⟨h1, h2, h3, h4, h5, h6, h7⟩, rfl, ?_, ?_⟩
    · simp [created, coreObjects]
    · intro o ho
      simp only [coreObjects, List.mem_cons, List.not_mem_nil, or_false] at ho
      rcases ho with rfl | rfl | rfl | rfl <;> simp

/-- `destroy_core_objects` where every pointer is set. -/
theorem destroyCoreObjects_ledger {m : Owner Object}
    (h : ∀ o ∈ stateFields, m.ptr o = .obj o) :
    (destroyCoreObjects sdk m).1.ledger =
      m.ledger ++ destroyed [.pe, .bufInv, .dstMmap, .srcMmap, .dev] := by
  simp only [stateFields, List.mem_cons, List.not_mem_nil, or_false] at h
  simp [destroyCoreObjects, destroyIfSet, destroyed, h]

theorem destroyIfSet_ptr (c : Object) (s : Owner Object × DocaStatus) (o : Object) :
    (destroyIfSet sdk c s).1.ptr o = if o = c then .null else s.1.ptr o := by
  unfold destroyIfSet
  split_ifs with hset heq heq
  · simp [heq]
  · simp [heq]
  · rw [heq]
    exact not_not.mp hset
  · rfl

theorem destroyCoreObjects_ptr (m : Owner Object) {o : Object} (ho : o ∉ stateFields) :
    (destroyCoreObjects sdk m).1.ptr o = m.ptr o := by
  simp only [stateFields, List.mem_cons, List.not_mem_nil, or_false, not_or] at ho
  simp [destroyCoreObjects, destroyIfSet_ptr, ho]

/-- The test that the open function of `pci_addr` puts to a device. -/
def passes (pciAddr : Option String) (mode : CompressMode) (d : DevInfo) : Bool :=
  match pciAddr with
  | some pciAddr => d.isEqualPciAddr pciAddr = (.success, true) ∧ d.isSupported mode = .success
  | none => d.isSupported mode = .success

/-- The mode is one of the three, and a device that is listed passes the test and
can be opened. -/
def DeviceOpens (pciAddr : Option String) (mode : CompressMode) : Prop :=
  (∀ n, mode ≠ .other n) ∧ sdk.createList = .success ∧
    ∃ d ∈ sdk.devices, passes pciAddr mode d ∧ d.open' = .success

/-- The search opens the first device that it can, or says that there is none. -/
theorem openFirst_eq (test : DevInfo → Bool) (m : Owner Object) (ds : List DevInfo) :
    openFirst test m ds =
      if ∃ d ∈ ds, test d ∧ d.open' = .success then (m.acquire .dev, .success)
      else (m, DOCA_ERROR_NOT_FOUND) := by
  induction ds with
  | nil => simp [openFirst]
  | cons d ds ih =>
    rw [openFirst, ih]
    by_cases h : test d = true ∧ d.open' = .success
    · simp [h]
    · rw [if_neg h]
      simp only [List.mem_cons, exists_eq_or_imp, h, false_or]

/-- What is in the ledger after a device was opened. -/
def openLedger : List (LedgerEntry Object) :=
  created [.devList, .dev] ++ destroyed [.devList]

theorem openDocaDevice_cases (test : DevInfo → Bool) (m : Owner Object) :
    (sdk.createList = .success ∧ ∃ d ∈ sdk.devices, test d ∧ d.open' = .success) ∧
        (openDocaDevice sdk test m).2 = .success ∧
        (openDocaDevice sdk test m).1.ledger = m.ledger ++ openLedger ∧
        (openDocaDevice sdk test m).1.ptr .dev = .obj .dev ∨
      ¬ (sdk.createList = .success ∧ ∃ d ∈ sdk.devices, test d ∧ d.open' = .success) ∧
        (openDocaDevice sdk test m).2 ≠ .success ∧
        ∃ s ∈ [[], unwind [Object.devList]],
          (openDocaDevice sdk test m).1.ledger = m.ledger ++ s := by
  unfold openDocaDevice
  rw [openFirst_eq]
  split_ifs with hlist hfound
  · exact Or.inr ⟨fun h => hlist h.1, hlist, [], List.mem_cons_self, by simp⟩
  · refine Or.inl ⟨⟨not_not.mp hlist, hfound⟩, rfl, ?_, ?_⟩
    · simp [openLedger, created, destroyed]
    · simp
  · refine Or.inr ⟨fun h => hfound h.2, by simp [DOCA_ERROR_NOT_FOUND], unwind [.devList],
      by simp, ?_⟩
    simp [unwind, created, destroyed]

theorem openDocaDevice_ptr (test : DevInfo → Bool) (m : Owner Object) {o : Object}
    (hdev : o ≠ .dev) (hlist : o ≠ .devList) :
    (openDocaDevice sdk test m).1.ptr o = m.ptr o := by
  unfold openDocaDevice
  rw [openFirst_eq]
  split_ifs <;> simp [hdev, hlist]

/-- Both open functions, by the one test. -/
theorem openForMode_eq (pciAddr : Option String) {mode : CompressMode}
    (h : ∀ n, mode ≠ .other n) (m : Owner Object) :
    openForMode sdk pciAddr mode m = openDocaDevice sdk (passes pciAddr mode) m := by
  cases mode with
  | other n => exact absurd rfl (h n)
  | compressDeflate | decompressDeflate | decompressLz4Stream => cases pciAddr <;> rfl

theorem openForMode_cases (pciAddr : Option String) (mode : CompressMode) (m : Owner Object) :
    DeviceOpens sdk pciAddr mode ∧ (openForMode sdk pciAddr mode m).2 = .success ∧
        (openForMode sdk pciAddr mode m).1.ledger = m.ledger ++ openLedger ∧
        (openForMode sdk pciAddr mode m).1.ptr .dev = .obj .dev ∨
      ¬ DeviceOpens sdk pciAddr mode ∧ (openForMode sdk pciAddr mode m).2 ≠ .success ∧
        ∃ s ∈ [[], unwind [Object.devList]],
          (openForMode sdk pciAddr mode m).1.ledger = m.ledger ++ s := by
  by_cases hmode : ∀ n, mode ≠ .other n
  · rw [openForMode_eq sdk pciAddr hmode]
    rcases openDocaDevice_cases sdk (passes pciAddr mode) m with ⟨hopens, hrest⟩ | ⟨hnot, hrest⟩
    · exact Or.inl ⟨⟨hmode, hopens⟩, hrest⟩
    · exact Or.inr ⟨fun h => hnot h.2, hrest⟩
  · refine Or.inr ⟨fun h => hmode h.1, ?_⟩
    simp only [not_forall, not_not] at hmode
    obtain ⟨n, rfl⟩ := hmode
    exact ⟨by simp [openForMode, DOCA_ERROR_INVALID_VALUE], [], by simp, by simp [openForMode]⟩

theorem openForMode_ptr (pciAddr : Option String) (mode : CompressMode) (m : Owner Object)
    {o : Object} (hdev : o ≠ .dev) (hlist : o ≠ .devList) :
    (openForMode sdk pciAddr mode m).1.ptr o = m.ptr o := by
  by_cases hmode : ∀ n, mode ≠ .other n
  · rw [openForMode_eq sdk pciAddr hmode]
    exact openDocaDevice_ptr sdk _ m hdev hlist
  · simp only [not_forall, not_not] at hmode
    obtain ⟨n, rfl⟩ := hmode
    rfl

/-! ## `allocate_compress_resources` -/

/-- The pointers that the allocation may set. -/
def touched : List Object := .devList :: resourceObjects

/-- Everything up to `create_core_objects` succeeds. -/
def CoreCreated (pciAddr : Option String) (maxBufs : Nat) (mode : CompressMode) : Prop :=
  sdk.call .mallocState = .success ∧ DeviceOpens sdk pciAddr mode ∧
    sdk.call .compressCreate = .success ∧ CoreReady sdk maxBufs

/-- The number of tasks that the mode configures. -/
def confTasks (maxBufs : Nat) : CompressMode → Nat
  | .decompressLz4Stream => NUM_COMPRESS_TASKS
  | _ => maxBufs / 2

/-- Everything from `doca_pe_connect_ctx` on succeeds. -/
def Configured (maxBufs : Nat) (mode : CompressMode) : Prop :=
  sdk.call .peConnectCtx = .success ∧ sdk.call .ctxSetStateChangedCb = .success ∧
    sdk.call (.taskSetConf mode (confTasks maxBufs mode)) = .success

/-- The ledger of an allocation that succeeds. -/
def acquireLedger : List (LedgerEntry Object) :=
  created [.state] ++ openLedger ++ created (.compress :: coreObjects)

/-- The ledgers of an allocation that gives up in `create_core_objects` or
before. -/
def rollbackLedgers : List (List (LedgerEntry Object)) :=
  [[], unwind [.state], created [.state] ++ unwind [.devList] ++ destroyed [.state],
    created [.state] ++ openLedger ++ destroyed [.dev, .state]] ++
  (List.range coreObjects.length).map fun k =>
    created [.state] ++ openLedger ++ created [.compress] ++ unwind (coreObjects.take k) ++
      destroyed [.compress, .dev, .state]

/-- What the label `destroy_core_objects` adds. -/
def destroyCoreLedger : List (LedgerEntry Object) :=
  destroyed [.pe, .bufInv, .dstMmap, .srcMmap, .dev, .compress] ++ [.destroy .null] ++
    destroyed [.state]

theorem destroyCompress_ptr (s : Owner Object × DocaStatus) (o : Object) :
    (destroyCompress sdk s).1.ptr o = if o = .state then .null else s.1.ptr o := by
  simp [destroyCompress, closeDevice, freeState]

theorem destroyCompress_ledger (s : Owner Object × DocaStatus) :
    (destroyCompress sdk s).1.ledger = s.1.ledger ++
      [.destroy (s.1.ptr .compress), .destroy (s.1.ptr .dev), .destroy (s.1.ptr .state)] := by
  simp [destroyCompress, closeDevice, freeState]

theorem destroyCompress_failed {s : Owner Object × DocaStatus} (h : s.2 ≠ .success) :
    (destroyCompress sdk s).2 ≠ .success :=
  propagate_ne_success (propagate_ne_success h _) _

/-- The label `destroy_core_objects`, with everything created. -/
theorem destroyCore_cases {m : Owner Object} {result : DocaStatus} (hfail : result ≠ .success)
    (hptr : ∀ o ∈ resourceObjects, m.ptr o = .obj o) :
    (destroyCore sdk (m, result)).2 ≠ .success ∧
      (destroyCore sdk (m, result)).1.ptr .state = .null ∧
      (destroyCore sdk (m, result)).1.ledger = m.ledger ++ destroyCoreLedger := by
  have hsub : ∀ o ∈ stateFields, o ∈ resourceObjects := by decide
  have hfields : ∀ o ∈ stateFields, m.ptr o = .obj o := fun o ho => hptr o (hsub o ho)
  have hdev : (destroyCoreObjects sdk m).1.ptr .dev = .null := by
    simp [destroyCoreObjects, destroyIfSet_ptr]
  refine ⟨destroyCompress_failed sdk (propagate_ne_success hfail _), ?_, ?_⟩
  · simp [destroyCore, destroyCompress_ptr]
  · rw [destroyCore, destroyCompress_ledger, destroyCoreObjects_ledger sdk hfields, hdev,
      destroyCoreObjects_ptr sdk m (by decide), destroyCoreObjects_ptr sdk m (by decide),
      hptr .compress (by decide), hptr .state (by decide)]
    simp [destroyCoreLedger, destroyed]

theorem checkConf_cases (result : DocaStatus) (m : Owner Object) :
    result = .success ∧ checkConf sdk result m = (m, .success) ∨
      result ≠ .success ∧ checkConf sdk result m = destroyCore sdk (m, result) := by
  unfold checkConf
  split_ifs with hconf
  · exact Or.inr ⟨hconf, rfl⟩
  · exact Or.inl ⟨not_not.mp hconf, by rw [not_not.mp hconf]⟩

/-- From `doca_pe_connect_ctx` on: nothing changes, or the chain runs from its
first label. -/
theorem configure_cases {mode : CompressMode} (hmode : ∀ n, mode ≠ .other n) (maxBufs : Nat)
    (m : Owner Object) :
    Configured sdk maxBufs mode ∧ configure sdk maxBufs mode m = (m, .success) ∨
      ¬ Configured sdk maxBufs mode ∧
        ∃ result ≠ .success, configure sdk maxBufs mode m = destroyCore sdk (m, result) := by
  unfold configure
  split_ifs with hpe hcb
  · exact Or.inr ⟨fun h => hpe h.1, _, hpe, rfl⟩
  · exact Or.inr ⟨fun h => hcb h.2.1, _, hcb, rfl⟩
  · have hset : setConf sdk maxBufs mode m =
        checkConf sdk (sdk.call (.taskSetConf mode (confTasks maxBufs mode))) m := by
      cases mode with
      | other n => exact absurd rfl (hmode n)
      | compressDeflate | decompressDeflate | decompressLz4Stream => rfl
    rw [hset]
    rcases checkConf_cases sdk (sdk.call (.taskSetConf mode (confTasks maxBufs mode))) m with
      ⟨hconf, heq⟩ | ⟨hconf, heq⟩
    · exact Or.inl ⟨⟨not_not.mp hpe, not_not.mp hcb, hconf⟩, heq⟩
    · exact Or.inr ⟨fun h => hconf h.2.2, _, hconf, heq⟩

theorem destroyCore_ptr (s : Owner Object × DocaStatus) {o : Object} (ho : o ∉ touched) :
    (destroyCore sdk s).1.ptr o = s.1.ptr o := by
  have hstate : o ≠ .state := by
    rintro rfl
    exact ho (by decide)
  have hsub : ∀ c ∈ stateFields, c ∈ touched := by decide
  have hfields : o ∉ stateFields := fun h => ho (hsub o h)
  rw [destroyCore, destroyCompress_ptr, if_neg hstate, destroyCoreObjects_ptr sdk _ hfields]

theorem configure_ptr (maxBufs : Nat) (mode : CompressMode) (m : Owner Object) {o : Object}
    (ho : o ∉ touched) : (configure sdk maxBufs mode m).1.ptr o = m.ptr o := by
  by_cases hmode : ∀ n, mode ≠ .other n
  · rcases configure_cases sdk hmode maxBufs m with ⟨-, heq⟩ | ⟨-, result, -, heq⟩
    · rw [heq]
    · rw [heq, destroyCore_ptr sdk _ ho]
  · have hstate : o ≠ .state := by
      rintro rfl
      exact ho (by decide)
    simp only [not_forall, not_not] at hmode
    obtain ⟨n, rfl⟩ := hmode
    unfold configure
    split_ifs
    · exact destroyCore_ptr sdk _ ho
    · exact destroyCore_ptr sdk _ ho
    · simp [setConf, freeState, hstate]

/-- From `doca_compress_create` on, on a device that was opened for its mode. -/
theorem createCompress_cases {maxBufs : Nat} (hmax : maxBufs ≠ 0) {mode : CompressMode}
    (hmode : ∀ n, mode ≠ .other n) {m : Owner Object} (hstate : m.ptr .state = .obj .state)
    (hdev : m.ptr .dev = .obj .dev) :
    let r := createCompress sdk maxBufs mode m
    (sdk.call .compressCreate = .success ∧ CoreReady sdk maxBufs ∧
        (Configured sdk maxBufs mode ∧ r.2 = .success ∧
            r.1.ledger = m.ledger ++ created (.compress :: coreObjects) ∧
            (∀ o ∈ resourceObjects, r.1.ptr o = .obj o) ∨
          ¬ Configured sdk maxBufs mode ∧ r.2 ≠ .success ∧ r.1.ptr .state = .null ∧
            r.1.ledger = m.ledger ++ created (.compress :: coreObjects) ++ destroyCoreLedger)) ∨
      ¬ (sdk.call .compressCreate = .success ∧ CoreReady sdk maxBufs) ∧
        r.2 ≠ .success ∧ r.1.ptr .state = .null ∧
        (r.1.ledger = m.ledger ++ destroyed [.dev, .state] ∨
          ∃ k < coreObjects.length, r.1.ledger = m.ledger ++ created [.compress] ++
            unwind (coreObjects.take k) ++ destroyed [.compress, .dev, .state]) := by
  intro r
  by_cases hcreate : sdk.call .compressCreate = .success
  · rcases createCoreObjects_cases sdk hmax (m.acquire .compress) with
      ⟨hready, hok, hledger, hcore⟩ | ⟨hready, hfail, k, hk, hledger⟩
    · have hr : r = configure sdk maxBufs mode
          (createCoreObjects sdk maxBufs (m.acquire .compress)).1 := by
        simp only [r, createCompress, hcreate, hok, ne_eq, not_true_eq_false, if_false]
      have hptr : ∀ o ∈ resourceObjects,
          (createCoreObjects sdk maxBufs (m.acquire .compress)).1.ptr o = .obj o := by
        intro o ho
        by_cases hin : o ∈ coreObjects
        · exact hcore o hin
        · rw [createCoreObjects_ptr sdk hmax _ hin]
          have hthree : ∀ o ∈ resourceObjects, o ∉ coreObjects →
            o = .state ∨ o = .dev ∨ o = .compress := by decide
          rcases hthree o ho hin with rfl | rfl | rfl <;> simp [hstate, hdev]
      refine Or.inl ⟨hcreate, hready, ?_⟩
      have hall : (createCoreObjects sdk maxBufs (m.acquire .compress)).1.ledger =
          m.ledger ++ created (.compress :: coreObjects) := by
        rw [hledger]
        simp [created]
      rcases configure_cases sdk hmode maxBufs _ with
        ⟨hconf, heq⟩ | ⟨hconf, result, hfail, heq⟩
      · left
        rw [hr, heq]
        exact ⟨hconf, rfl, hall, hptr⟩
      · right
        rw [hr, heq, ← hall]
        exact ⟨hconf, destroyCore_cases sdk hfail hptr⟩
    · have hr : r = destroyCompress sdk
          (createCoreObjects sdk maxBufs (m.acquire .compress)) := by
        simp only [r, createCompress, hcreate, hfail, ne_eq, not_true_eq_false, if_false,
          not_false_eq_true, if_true]
      refine Or.inr ⟨fun h => hready h.2, ?_, ?_, Or.inr ⟨k, hk, ?_⟩⟩
      · rw [hr]
        exact destroyCompress_failed sdk hfail
      · rw [hr, destroyCompress_ptr, if_pos rfl]
      · rw [hr, destroyCompress_ledger, hledger, createCoreObjects_ptr sdk hmax _ (by decide),
          createCoreObjects_ptr sdk hmax _ (by decide),
          createCoreObjects_ptr sdk hmax _ (by decide)]
        simp [hstate, hdev, created, destroyed]
  · have hr : r = closeDevice sdk (m, sdk.call .compressCreate) := by
      simp only [r, createCompress, ne_eq, hcreate, not_false_eq_true, if_true]
    refine Or.inr ⟨fun h => hcreate h.1, ?_, ?_, Or.inl ?_⟩
    · rw [hr]
      exact propagate_ne_success hcreate _
    · rw [hr]
      simp [closeDevice, freeState]
    · rw [hr]
      simp [closeDevice, freeState, hdev, hstate, destroyed]

/-- The allocation: what it needs is alive and its pointers are set, or it left a
ledger of the rollback and no state. -/
theorem allocateCompressResources_cases (pciAddr : Option String) {maxBufs : Nat}
    (hmax : maxBufs ≠ 0) (mode : CompressMode) (m : Owner Object) :
    let r := allocateCompressResources sdk pciAddr maxBufs mode m
    (CoreCreated sdk pciAddr maxBufs mode ∧
        (Configured sdk maxBufs mode ∧ r.2 = .success ∧ r.1.ledger = m.ledger ++ acquireLedger ∧
            (∀ o ∈ resourceObjects, r.1.ptr o = .obj o) ∨
          ¬ Configured sdk maxBufs mode ∧ r.2 ≠ .success ∧ r.1.ptr .state = .null ∧
            r.1.ledger = m.ledger ++ (acquireLedger ++ destroyCoreLedger))) ∨
      ¬ CoreCreated sdk pciAddr maxBufs mode ∧ r.2 ≠ .success ∧ r.1.ptr .state = .null ∧
        ∃ s ∈ rollbackLedgers, r.1.ledger = m.ledger ++ s := by
  intro r
  by_cases hmalloc : sdk.call .mallocState = .success
  swap
  · have hr : r = (m.forget .state, DOCA_ERROR_NO_MEMORY) := by
      simp only [r, allocateCompressResources, ne_eq, hmalloc, not_false_eq_true, if_true]
    refine Or.inr ⟨fun h => hmalloc h.1, ?_, ?_, [], by simp [rollbackLedgers], ?_⟩
    · rw [hr]
      simp [DOCA_ERROR_NO_MEMORY]
    · simp [hr]
    · simp [hr]
  have hstate : (openForMode sdk pciAddr mode
      ((m.acquire .state).scramble stateFields)).1.ptr .state = .obj .state := by
    rw [openForMode_ptr sdk _ _ _ (by decide) (by decide)]
    simp [stateFields]
  rcases openForMode_cases sdk pciAddr mode ((m.acquire .state).scramble stateFields) with
    ⟨hopens, hok, hledger, hdev⟩ | ⟨hnot, hfail, s, hs, hledger⟩
  · have hr : r = createCompress sdk maxBufs mode
        (openForMode sdk pciAddr mode ((m.acquire .state).scramble stateFields)).1 := by
      simp only [r, allocateCompressResources, hmalloc, hok, ne_eq, not_true_eq_false, if_false]
    have hopened : (openForMode sdk pciAddr mode
        ((m.acquire .state).scramble stateFields)).1.ledger =
          m.ledger ++ (created [.state] ++ openLedger) := by
      rw [hledger]
      simp [created]
    rcases createCompress_cases sdk hmax hopens.1 hstate hdev with
      ⟨hcreate, hready, hdone⟩ | ⟨hnot, hfail, hnull, hdone⟩
    · rw [hopened] at hdone
      refine Or.inl ⟨⟨hmalloc, hopens, hcreate, hready⟩, ?_⟩
      rw [hr]
      rcases hdone with ⟨hconf, hok, hl, hptr⟩ | ⟨hconf, hfail, hnull, hl⟩
      · refine Or.inl ⟨hconf, hok, ?_, hptr⟩
        rw [hl, acquireLedger]
        simp only [List.append_assoc]
      · refine Or.inr ⟨hconf, hfail, hnull, ?_⟩
        rw [hl, acquireLedger]
        simp only [List.append_assoc]
    · rw [hopened] at hdone
      refine Or.inr ⟨fun h => hnot h.2.2, hr ▸ hfail, hr ▸ hnull, ?_⟩
      rw [hr]
      rcases hdone with hl | ⟨k, hk, hl⟩
      · refine ⟨created [.state] ++ openLedger ++ destroyed [.dev, .state], ?_, ?_⟩
        · simp [rollbackLedgers]
        · rw [hl]
          simp only [List.append_assoc]
      · refine ⟨created [.state] ++ openLedger ++ created [.compress] ++
          unwind (coreObjects.take k) ++ destroyed [.compress, .dev, .state], ?_, ?_⟩
        · rw [rollbackLedgers]
          apply List.mem_append_right
          exact List.mem_map.mpr ⟨k, List.mem_range.mpr hk, rfl⟩
        · rw [hl]
          simp only [List.append_assoc]
  · have hr : r = freeState
        (openForMode sdk pciAddr mode ((m.acquire .state).scramble stateFields)) := by
      simp only [r, allocateCompressResources, hmalloc, hfail, ne_eq, not_true_eq_false, if_false,
        not_false_eq_true, if_true]
    refine Or.inr ⟨fun h => hnot h.2.1, hr ▸ hfail, ?_,
      created [.state] ++ s ++ destroyed [.state], ?_, ?_⟩
    · rw [hr]
      simp [freeState]
    · simp only [List.mem_cons, List.not_mem_nil, or_false] at hs
      rcases hs with rfl | rfl <;> simp [rollbackLedgers, unwind]
    · rw [hr, freeState, Owner.forget_ledger, Owner.release_ledger, hledger, hstate]
      simp [created, destroyed]

theorem createCompress_ptr {maxBufs : Nat} (hmax : maxBufs ≠ 0) (mode : CompressMode)
    (m : Owner Object) {o : Object} (ho : o ∉ touched) :
    (createCompress sdk maxBufs mode m).1.ptr o = m.ptr o := by
  have hsub : ∀ c ∈ .state :: .compress :: coreObjects, c ∈ touched := by decide
  have hcore : o ∉ coreObjects := fun h => ho (hsub o (by simp [h]))
  have hstate : o ≠ .state := fun h => ho (hsub o (by simp [h]))
  have hcompress : o ≠ .compress := fun h => ho (hsub o (by simp [h]))
  have hcreated : (createCoreObjects sdk maxBufs (m.acquire .compress)).1.ptr o = m.ptr o := by
    rw [createCoreObjects_ptr sdk hmax _ hcore]
    simp [hcompress]
  unfold createCompress
  dsimp only
  split_ifs
  · simp [closeDevice, freeState, hstate]
  · rw [destroyCompress_ptr, if_neg hstate, hcreated]
  · rw [configure_ptr sdk maxBufs mode _ ho, hcreated]

/-- The allocation sets its own pointers only. -/
theorem allocateCompressResources_ptr (pciAddr : Option String) {maxBufs : Nat}
    (hmax : maxBufs ≠ 0) (mode : CompressMode) (m : Owner Object) {o : Object}
    (ho : o ∉ touched) :
    (allocateCompressResources sdk pciAddr maxBufs mode m).1.ptr o = m.ptr o := by
  have hmem := ho
  simp only [touched, resourceObjects, coreObjects, List.mem_cons, List.not_mem_nil, or_false,
    not_or] at ho
  obtain ⟨hlist, hstate, hdev, -, hsrc, hdst, hinv, hpe⟩ := ho
  have hopened : (openForMode sdk pciAddr mode
      ((m.acquire .state).scramble stateFields)).1.ptr o = m.ptr o := by
    rw [openForMode_ptr sdk _ _ _ hdev hlist]
    simp [stateFields, hstate, hdev, hsrc, hdst, hinv, hpe]
  unfold allocateCompressResources
  dsimp only
  split_ifs
  · simp [hstate]
  · rw [freeState]
    simp [hstate, hopened]
  · rw [createCompress_ptr sdk hmax mode _ hmem, hopened]

theorem destroyCompressResources_ptr (m : Owner Object) {o : Object} (ho : o ∉ touched) :
    (destroyCompressResources sdk m).1.ptr o = m.ptr o := by
  have hstate : o ≠ .state := by
    rintro rfl
    exact ho (by decide)
  have hsub : ∀ c ∈ stateFields, c ∈ touched := by decide
  have hfields : o ∉ stateFields := fun h => ho (hsub o h)
  unfold destroyCompressResources
  dsimp only
  split_ifs <;> simp [hstate, destroyCoreObjects_ptr sdk _ hfields]

theorem destroyCompressResources_ledger {m : Owner Object}
    (hptr : ∀ o ∈ resourceObjects, m.ptr o = .obj o) :
    (destroyCompressResources sdk m).1.ledger =
      m.ledger ++ destroyed [.compress, .pe, .bufInv, .dstMmap, .srcMmap, .dev, .state] := by
  have hfields : ∀ o ∈ stateFields, (m.release .compress).ptr o = .obj o := by
    have hsub : ∀ o ∈ stateFields, o ∈ resourceObjects := by decide
    exact fun o ho => hptr o (hsub o ho)
  have hcompress := hptr .compress (by decide)
  have hstate := hptr .state (by decide)
  simp [destroyCompressResources, hcompress, hstate, destroyCoreObjects_ledger sdk hfields,
    destroyCoreObjects_ptr sdk (m.release .compress) (o := .state) (by decide), destroyed]

/-- The ledger of an allocation that fails.  All that was created is destroyed again
and nothing twice.  When it is `late`, and only then, an object is destroyed before
one that needs it, and a null pointer is closed. -/
structure RolledBack (late : Prop) (s : List (LedgerEntry Object)) : Prop where
  replays : run ledgerStep s ∅ = some ∅
  ordered : Guarded ledgerStep (ChildrenFirst (dependsOn · ·)) s ∅ ↔ ¬ late
  nullClosed : .destroy .null ∈ s ↔ late

theorem rollbackLedgers_rolledBack :
    ∀ s ∈ rollbackLedgers, run ledgerStep s ∅ = some ∅ ∧
      Guarded ledgerStep (ChildrenFirst (dependsOn · ·)) s ∅ ∧ .destroy .null ∉ s := by
  decide

/-- The chain from its first label closes the device under the engine. -/
theorem destroyCoreLedger_rolledBack :
    run ledgerStep (acquireLedger ++ destroyCoreLedger) ∅ = some ∅ ∧
      ¬ Guarded ledgerStep (ChildrenFirst (dependsOn · ·)) (acquireLedger ++ destroyCoreLedger)
        ∅ ∧
      .destroy .null ∈ acquireLedger ++ destroyCoreLedger := by
  decide

/-- The ledgers of an allocation that fails. -/
def failedLedgers : List (List (LedgerEntry Object)) :=
  (acquireLedger ++ destroyCoreLedger) :: rollbackLedgers

/-- The two ways an allocation ends, for its callers. -/
theorem allocateCompressResources_outcome (pciAddr : Option String) {maxBufs : Nat}
    (hmax : maxBufs ≠ 0) (mode : CompressMode) (m : Owner Object) :
    let r := allocateCompressResources sdk pciAddr maxBufs mode m
    (CoreCreated sdk pciAddr maxBufs mode ∧ Configured sdk maxBufs mode) ∧ r.2 = .success ∧
        r.1.ledger = m.ledger ++ acquireLedger ∧ (∀ o ∈ resourceObjects, r.1.ptr o = .obj o) ∨
      ¬ (CoreCreated sdk pciAddr maxBufs mode ∧ Configured sdk maxBufs mode) ∧
        r.2 ≠ .success ∧ r.1.ptr .state = .null ∧
        ∃ s ∈ failedLedgers, r.1.ledger = m.ledger ++ s ∧
          RolledBack (CoreCreated sdk pciAddr maxBufs mode) s := by
  intro r
  rcases allocateCompressResources_cases sdk pciAddr hmax mode m with
    ⟨hcore, ⟨hconf, hok, hl, hptr⟩ | ⟨hconf, hfail, hnull, hl⟩⟩ | ⟨hnot, hfail, hnull, s, hs, hl⟩
  · exact Or.inl ⟨⟨hcore, hconf⟩, hok, hl, hptr⟩
  · obtain ⟨hrun, hwrong, hclosed⟩ := destroyCoreLedger_rolledBack
    exact Or.inr ⟨fun h => hconf h.2, hfail, hnull, _, List.mem_cons_self, hl, hrun,
      iff_of_false hwrong (not_not_intro hcore), iff_of_true hclosed hcore⟩
  · obtain ⟨hrun, hordered, hclosed⟩ := rollbackLedgers_rolledBack s hs
    exact Or.inr ⟨fun h => hnot h.1, hfail, hnull, s, List.mem_cons_of_mem _ hs, hl, hrun,
      iff_of_true hordered hnot, iff_of_false hclosed hnot⟩

theorem createCoreObjects_zero {m : Owner Object}
    (h : (createCoreObjects sdk 0 m).2 = .success) {o : Object}
    (ho : o ∈ [Object.state, .bufInv]) :
    (createCoreObjects sdk 0 m).1.ptr o = m.ptr o := by
  have hothers : ∀ o ∈ [Object.state, .bufInv],
      o ≠ .srcMmap ∧ o ≠ .dstMmap ∧ o ≠ .pe := by decide
  obtain ⟨hsrc, hdst, hpe⟩ := hothers o ho
  unfold createCoreObjects createBufInv createPe at h ⊢
  rw [if_neg (not_not_intro rfl)] at h ⊢
  split_ifs at h ⊢
  -- All branches but the last end with the status of a call that failed.
  all_goals first
    | exact absurd h (by assumption)
    | simp [hsrc, hdst, hpe]

/-- An allocation that succeeds has configured what it created. -/
theorem createCompress_success {maxBufs : Nat} {mode : CompressMode}
    (hmode : ∀ n, mode ≠ .other n) {m : Owner Object}
    (h : (createCompress sdk maxBufs mode m).2 = .success) :
    (createCoreObjects sdk maxBufs (m.acquire .compress)).2 = .success ∧
      (createCompress sdk maxBufs mode m).1 =
        (createCoreObjects sdk maxBufs (m.acquire .compress)).1 := by
  unfold createCompress at h ⊢
  dsimp only at h ⊢
  split_ifs at h ⊢ with hcreate hcore
  · exact absurd h (propagate_ne_success hcreate _)
  · exact absurd h (destroyCompress_failed sdk hcore)
  · refine ⟨not_not.mp hcore, ?_⟩
    rcases configure_cases sdk hmode maxBufs
        (createCoreObjects sdk maxBufs (m.acquire .compress)).1 with
      ⟨-, heq⟩ | ⟨-, result, hfail, heq⟩
    · rw [heq]
    · rw [heq] at h
      exact absurd h (destroyCompress_failed sdk (propagate_ne_success hfail _))

theorem destroyIfSet_ledger (c : Object) (s : Owner Object × DocaStatus) :
    (destroyIfSet sdk c s).1.ledger =
      s.1.ledger ++ if s.1.ptr c ≠ .null then [.destroy (s.1.ptr c)] else [] := by
  unfold destroyIfSet
  split_ifs
  · rfl
  · exact (List.append_nil _).symm

/-- The end destroys what the pointer to the inventory holds. -/
theorem wild_mem_destroyCompressResources {m : Owner Object} (hstate : m.ptr .state ≠ .null)
    (hinv : m.ptr .bufInv = .wild) :
    .destroy .wild ∈ (destroyCompressResources sdk m).1.ledger := by
  have hcore (m : Owner Object) (hinv : m.ptr .bufInv = .wild) :
      .destroy .wild ∈ (destroyCoreObjects sdk m).1.ledger := by
    simp [destroyCoreObjects, destroyIfSet_ledger, destroyIfSet_ptr, hinv]
  unfold destroyCompressResources
  dsimp only
  split_ifs with hcompress hset
  · simp [hcore (m.release .compress) hinv]
  · exact absurd hstate hset
  · simp [hcore m hinv]

/-- Without an inventory the end destroys a pointer that was never set. -/
theorem destroyCompressResources_zero (pciAddr : Option String) (mode : CompressMode)
    (m : Owner Object)
    (h : (allocateCompressResources sdk pciAddr 0 mode m).2 = .success) (live : Finset Object) :
    run ledgerStep (destroyCompressResources sdk
      (allocateCompressResources sdk pciAddr 0 mode m).1).1.ledger live = none := by
  refine run_of_wild ?_ live
  unfold allocateCompressResources at h ⊢
  dsimp only at h ⊢
  have hopen := openForMode_cases sdk pciAddr mode ((m.acquire .state).scramble stateFields)
  have hptr (o : Object) (hdev : o ≠ .dev) (hlist : o ≠ .devList) :=
    openForMode_ptr sdk pciAddr mode ((m.acquire .state).scramble stateFields) hdev hlist
  split_ifs at h ⊢ with hmalloc hfail
  · cases h
  · exact absurd h hfail
  · obtain ⟨hopens, -⟩ | ⟨-, hfailed, -⟩ := hopen
    swap
    · exact absurd (not_not.mp hfail) hfailed
    obtain ⟨hcore, hsame⟩ := createCompress_success sdk hopens.1 h
    rw [hsame]
    refine wild_mem_destroyCompressResources sdk ?_ ?_
    · rw [createCoreObjects_zero sdk hcore (by decide), Owner.acquire_ptr, if_neg (by decide),
        hptr .state (by decide) (by decide)]
      simp [stateFields]
    · rw [createCoreObjects_zero sdk hcore (by decide), Owner.acquire_ptr, if_neg (by decide),
        hptr .bufInv (by decide) (by decide)]
      simp [stateFields]

end

/-- One device, and an engine that cannot be configured. -/
def unconfigurableSdk : Sdk where
  createList := .success
  devices := [⟨fun _ => (.success, true), fun _ => .success, .success⟩]
  call
    | .taskSetConf _ _ => .other 4
    | _ => .success
  destroy := fun _ => .success

end DpuTest.Compress
