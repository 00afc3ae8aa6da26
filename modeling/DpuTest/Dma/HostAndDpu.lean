import DpuTest.Compress.Resources
import DpuTest.Dma.DpuBuffer
import DpuTest.Dma.HandOver

/-!
# The host and the DPU of a remote copy

`dma_copy_host` exports its buffer, writes the two files and waits for a key.  While it
waits, `dma_copy_dpu` reads the files and copies the buffer in batches of 32 times 256 KiB
to one `dpu_buffer`.

`copied_of_host` is what a successful copy has: the last whole batch, when there are at
most 256 of them, and nothing of a buffer that is shorter than a batch.  From batch 256 on
the offsets are negative.  The text that `main` of the host exports is always shorter than
a batch, so the two programs together copy nothing (`dmaCopyDpuProgram_of_text`).
-/

namespace DpuTest.Dma

open Lib
open Compress (propagate DOCA_ERROR_NO_MEMORY)

/-- By its number in the SDK. -/
def DOCA_ERROR_IO_FAILED : DocaStatus := .other 17

/-- A sequence of calls, up to the first one that fails. -/
def firstFailure {α : Type} (call : α → DocaStatus) : List α → DocaStatus
  | [] => .success
  | c :: cs => if call c = .success then firstFailure call cs else call c

/-! ## The host -/

/-- A buffer in the address space.  The address behind it is one, too. -/
structure HostBuffer where
  addr : UInt64
  content : List UInt8
  content_ne_nil : content ≠ []
  addr_ne_zero : addr ≠ 0
  end_lt : addr.toNat + content.length < 2 ^ 64

def HostBuffer.size (buf : HostBuffer) : UInt64 := UInt64.ofNat buf.content.length

inductive HostCall where
  | openDevice
  | mmapCreate
  | mmapAddDev
  | setPermissions
  | setMemrange
  | mmapStart
  | exportPci
  | mmapDestroy
  | devClose
  deriving DecidableEq

/-- The answers of the SDK with the exported descriptor, the calls on the files, and what
is typed. -/
structure HostEnv where
  call : HostCall → DocaStatus
  exportDesc : List UInt8
  files : FileCalls
  keys : List Char

/-- `while (enter != '\r' && enter != '\n') enter = getchar();`  At the end of the input
`getchar` returns `EOF`, again and again. -/
def waitForEnter : List Char → Option (List Char)
  | [] => none
  | key :: keys => if key = '\r' ∨ key = '\n' then some keys else waitForEnter keys

section

variable (env : HostEnv)

/-- `allocate_dma_host_resources` -/
def allocateDmaHostResources : DocaStatus :=
  firstFailure env.call [.openDevice, .mmapCreate, .mmapAddDev]

/-- `destroy_dma_host_resources` -/
def destroyDmaHostResources : DocaStatus := propagate (env.call .mmapDestroy) (env.call .devClose)

/-- `dma_copy_host`, from the permissions of the memory map to the files. -/
def exportBuffer (buf : HostBuffer) : Except DocaStatus ConfigFiles :=
  match firstFailure env.call [.setPermissions, .setMemrange, .mmapStart, .exportPci] with
  | .success =>
    match saveConfigInfoToFiles env.files env.exportDesc buf.addr buf.size with
    | .ok files => .ok files
    | .error _ => .error DOCA_ERROR_IO_FAILED
  | status => .error status

/-- The files that the host leaves before it waits. -/
def filesOfHost (buf : HostBuffer) : Option ConfigFiles :=
  if allocateDmaHostResources env = .success then (exportBuffer env buf).toOption else none

/-- `dma_copy_host`.  `none` is a call that does not return. -/
def dmaCopyHost (buf : HostBuffer) : Option DocaStatus :=
  match allocateDmaHostResources env with
  | .success =>
    match exportBuffer env buf with
    | .error status => some (propagate status (destroyDmaHostResources env))
    | .ok _ =>
      (waitForEnter env.keys).map fun _ => propagate .success (destroyDmaHostResources env)
  | status => some status

end

def MAX_USER_TXT_SIZE : Nat := 4096

/-- `cpy_txt`, as `text_callback` accepts it. -/
structure CpyTxt where
  chars : List UInt8
  nul_notMem : 0 ∉ chars
  length_le : chars.length ≤ MAX_USER_TXT_SIZE

/-- The `src_buffer` of `main`: the text and its terminator. -/
def CpyTxt.srcBuffer (txt : CpyTxt) (addr : UInt64) (haddr : addr ≠ 0)
    (hend : addr.toNat + (txt.chars ++ [0]).length < 2 ^ 64) : HostBuffer where
  addr := addr
  content := txt.chars ++ [0]
  content_ne_nil := List.append_ne_nil_of_right_ne_nil _ (List.cons_ne_nil 0 [])
  addr_ne_zero := haddr
  end_lt := hend

/-! ## The DPU -/

/-- `payload_size` and `batch_size` -/
def dpuSizes : DmaSizes where
  payloadSize := 256 * 1024
  batchSize := 32
  payloadSize_pos := by decide
  batchSize_pos := by decide
  payloadSize_lt := by decide
  batchSize_lt := by decide

inductive DpuCall where
  | openDevice
  | createCoreObjects
  | dmaCreate
  | setStateChangedCb
  | setConf
  | connectCtx
  | ctxStart
  | setMemrange
  | mmapStart
  | srcBuf (i : Nat)
  | dstBuf (i : Nat)
  | allocTask (i : Nat)
  /-- `DOCA_ERROR_UNEXPECTED` for a null pointer -/
  | asTask (i : Nat)

/-- What happens around `dma_copy_dpu`, with what `malloc` has put into `dpu_buffer`.  The
SDK accepts a descriptor or not. -/
structure DpuEnv extends CopyEnv dpuSizes where
  call : DpuCall → DocaStatus
  exportDescFilePath : String
  bufferInfoFilePath : String
  files : FileCalls
  malloc : Bool
  dpuBuffer : Buffer UInt8 (dpuSizes.batchSize * dpuSizes.payloadSize)
  createFromExport : List UInt8 → DocaStatus

section

variable (env : DpuEnv)

/-- `allocate_dma_resources` and the start of the context. -/
def openCalls : List DpuCall :=
  [.openDevice, .createCoreObjects, .dmaCreate, .setStateChangedCb, .setConf, .connectCtx,
    .ctxStart]

/-- The loops over the buffers and the tasks. -/
def taskCalls : List DpuCall :=
  (List.range dpuSizes.batchSize).flatMap (fun i => [.srcBuf i, .dstBuf i]) ++
    (List.range dpuSizes.batchSize).flatMap fun i => [.allocTask i, .asTask i]

/-- `dma_copy_dpu` before the first batch: the first error, or `remote_addr_len`. -/
def prepareDma (files : ConfigFiles) : Except DocaStatus UInt64 :=
  match firstFailure env.call openCalls with
  | .success =>
    match saveConfigInfoToBuffers env.files env.exportDescFilePath env.bufferInfoFilePath files
        (.zeroed EXPORT_DESC_SIZE) with
    | .error _ => .error DOCA_ERROR_IO_FAILED
    | .ok config =>
      if !env.malloc then .error DOCA_ERROR_NO_MEMORY
      else
        match firstFailure env.call [.setMemrange, .mmapStart] with
        | .success =>
          match env.createFromExport (config.exportDesc.data.take config.exportDescLen) with
          | .success =>
            match firstFailure env.call taskCalls with
            | .success => .ok config.remoteAddrLen
            | status => .error status
          | status => .error status
        | status => .error status
  | status => .error status

/-- Before the first batch. -/
def DpuEnv.start : CopyState dpuSizes where
  dma := .init env.toDmaEnv
  dpuBuffer := env.dpuBuffer

/-- `dma_copy_dpu` -/
def dmaCopyDpuProgram (files : ConfigFiles) : Option (DocaStatus × CopyState dpuSizes) :=
  match prepareDma env files with
  | .error status => some (status, env.start)
  | .ok remoteAddrLen =>
    match batchNum dpuSizes remoteAddrLen with
    | none => none
    | some batchNum => runCopies dpuSizes env.toCopyEnv (List.range batchNum.toNat) env.start

end

section

variable {host : HostEnv} {dpu : DpuEnv} {buf : HostBuffer} {files : ConfigFiles}

theorem firstFailure_eq_success_iff {α : Type} {call : α → DocaStatus} {cs : List α} :
    firstFailure call cs = .success ↔ ∀ c ∈ cs, call c = .success := by
  induction cs with
  | nil => simp [firstFailure]
  | cons c cs ih =>
    rw [firstFailure, List.forall_mem_cons, ← ih]
    split
    · rename_i hok
      rw [and_iff_right hok]
    · rename_i hfail
      exact iff_of_false hfail (fun h => hfail h.1)

/-! ## The files -/

/-- The files are complete. -/
theorem filesOfHost_eq (h : filesOfHost host buf = some files) :
    files = writtenFiles host.exportDesc buf.addr buf.size := by
  rw [filesOfHost] at h
  split at h
  · rw [exportBuffer] at h
    split at h
    · split at h
      · rename_i written hwritten
        cases h
        rw [saveConfigInfoToFiles] at hwritten
        split at hwritten
        · cases hwritten
        · split at hwritten
          · cases hwritten
          · split at hwritten
            · cases hwritten
            · cases hwritten
              rfl
      · cases h
    · cases h
  · cases h

/-- A host that has left its files waits for a key, and returns what the end of its
resources returns. -/
theorem dmaCopyHost_of_files (h : filesOfHost host buf = some files) :
    dmaCopyHost host buf = if '\r' ∈ host.keys ∨ '\n' ∈ host.keys
      then some (destroyDmaHostResources host) else none := by
  have hwait : ∀ keys : List Char,
      (waitForEnter keys).isSome ↔ '\r' ∈ keys ∨ '\n' ∈ keys := by
    intro keys
    induction keys with
    | nil => simp [waitForEnter]
    | cons key keys ih =>
      rw [waitForEnter]
      split
      · rename_i hkey
        refine iff_of_true rfl ?_
        rcases hkey with rfl | rfl
        · exact Or.inl List.mem_cons_self
        · exact Or.inr List.mem_cons_self
      · rename_i hkey
        rw [not_or] at hkey
        rw [ih, List.mem_cons, List.mem_cons, or_iff_right (Ne.symm hkey.1),
          or_iff_right (Ne.symm hkey.2)]
  rw [filesOfHost] at h
  split at h
  · rename_i halloc
    cases hexport : exportBuffer host buf with
    | error status =>
      rw [hexport] at h
      cases h
    | ok written =>
      rw [dmaCopyHost, halloc, hexport]
      show (waitForEnter host.keys).map _ = _
      split
      · rename_i hkey
        obtain ⟨keys, hkeys⟩ := Option.isSome_iff_exists.mp ((hwait host.keys).mpr hkey)
        rw [hkeys]
        rfl
      · rename_i hkey
        rw [← hwait, Option.not_isSome_iff_eq_none] at hkey
        rw [hkey]
        rfl
  · cases h

/-- A configuration is read when no call on the files fails. -/
theorem saveConfigInfoToBuffers_calls {calls : FileCalls} {descPath infoPath : String}
    {exportDesc : Buffer UInt8 EXPORT_DESC_SIZE} {config : Config}
    (h : saveConfigInfoToBuffers calls descPath infoPath files exportDesc = .ok config) :
    calls = .good := by
  rcases calls with ⟨openDesc, seekEnd, tell, seekSet, transfer, openInfo⟩
  cases openDesc with
  | false => cases h
  | true =>
    cases seekEnd with
    | false => cases h
    | true =>
      cases tell with
      | false => cases h
      | true =>
        cases seekSet with
        | false => cases h
        | true =>
          cases transfer with
          | false => cases h
          | true =>
            cases openInfo with
            | false => cases h
            | true => rfl

/-! ## Before the first batch -/

theorem prepareDma_error {status : DocaStatus} (h : prepareDma dpu files = .error status) :
    status ≠ .success := by
  rw [prepareDma] at h
  split at h
  · split at h
    · cases h
      decide
    · split at h
      · cases h
        decide
      · split at h
        · split at h
          · split at h
            · cases h
            · rename_i hfail
              cases h
              exact hfail
          · rename_i hfail
            cases h
            exact hfail
        · rename_i hfail
          cases h
          exact hfail
  · rename_i hfail
    cases h
    exact hfail

/-- What the DPU has when its preparations succeed. -/
theorem prepareDma_ok {remoteAddrLen : UInt64} (h : prepareDma dpu files = .ok remoteAddrLen) :
    ∃ config, saveConfigInfoToBuffers dpu.files dpu.exportDescFilePath dpu.bufferInfoFilePath
        files (.zeroed EXPORT_DESC_SIZE) = .ok config ∧
      dpu.createFromExport (config.exportDesc.data.take config.exportDescLen) = .success ∧
      remoteAddrLen = config.remoteAddrLen := by
  rw [prepareDma] at h
  split at h
  · split at h
    · cases h
    · rename_i config hconfig
      split at h
      · cases h
      · split at h
        · split at h
          · rename_i hcreate
            split at h
            · cases h
              exact ⟨config, hconfig, hcreate, rfl⟩
            · cases h
          · cases h
        · cases h
  · cases h

theorem HostBuffer.size_toNat (buf : HostBuffer) : buf.size.toNat = buf.content.length := by
  have hend := buf.end_lt
  have hsize : UInt64.size = 2 ^ 64 := rfl
  exact UInt64.toNat_ofNat_of_lt' (by omega)

/-- Neither number is taken for an error. -/
theorem HostBuffer.ne_max (buf : HostBuffer) :
    buf.addr ≠ UInt64.ofNat ULLONG_MAX ∧ buf.size ≠ UInt64.ofNat ULLONG_MAX := by
  have hend := buf.end_lt
  have hpos := List.length_pos_of_ne_nil buf.content_ne_nil
  have haddr : buf.addr.toNat ≠ 0 := by
    intro h0
    exact buf.addr_ne_zero (UInt64.toNat_inj.mp h0)
  have hmax : (UInt64.ofNat ULLONG_MAX).toNat = 2 ^ 64 - 1 := by decide
  constructor
  · intro heq
    rw [heq, hmax] at hend
    omega
  · intro heq
    have hsize := buf.size_toNat
    rw [heq, hmax] at hsize
    omega

/-- The DPU has the length of the buffer, and the SDK has accepted what fits of the
descriptor. -/
theorem prepareDma_of_host (hfiles : filesOfHost host buf = some files) {remoteAddrLen : UInt64}
    (h : prepareDma dpu files = .ok remoteAddrLen) :
    remoteAddrLen = buf.size ∧
      dpu.createFromExport (host.exportDesc.take RECV_BUF_SIZE) = .success := by
  obtain ⟨config, hconfig, hcreate, rfl⟩ := prepareDma_ok h
  rw [saveConfigInfoToBuffers_calls hconfig, filesOfHost_eq hfiles,
    saveConfigInfoToBuffers_written, if_neg buf.ne_max.1, if_neg buf.ne_max.2] at hconfig
  cases hconfig
  refine ⟨rfl, ?_⟩
  have htake : (received host.exportDesc buf.addr buf.size
      (.zeroed EXPORT_DESC_SIZE)).exportDesc.data.take (readSize host.exportDesc.length) =
        host.exportDesc.take RECV_BUF_SIZE := received_take _
  rw [← htake]
  exact hcreate

/-! ## The copy -/

/-- The number of batches of a buffer, an `int`. -/
def HostBuffer.batches (buf : HostBuffer) : Nat :=
  (int32 ((buf.content.length / (dpuSizes.payloadSize * dpuSizes.batchSize) : Nat) : Int)).toNat

theorem HostBuffer.batches_le (buf : HostBuffer) :
    dpuSizes.payloadSize * dpuSizes.batchSize * buf.batches ≤ buf.content.length := by
  have hbatches : buf.batches ≤
      buf.content.length / (dpuSizes.payloadSize * dpuSizes.batchSize) := toNat_int32_le _
  exact (Nat.mul_le_mul_left _ hbatches).trans (Nat.mul_div_le _ _)

/-- The program, with its preparations out of the way. -/
theorem dmaCopyDpuProgram_of_host (hfiles : filesOfHost host buf = some files) :
    dmaCopyDpuProgram dpu files =
      match prepareDma dpu files with
      | .error status => some (status, dpu.start)
      | .ok _ => runCopies dpuSizes dpu.toCopyEnv (List.range buf.batches) dpu.start := by
  rw [dmaCopyDpuProgram]
  cases hprepare : prepareDma dpu files with
  | error status => rfl
  | ok remoteAddrLen =>
    rw [(prepareDma_of_host hfiles hprepare).1]
    simp only [batchNum_of_fits buf.size (show dpuSizes.payloadSize * dpuSizes.batchSize < 2 ^ 31
      by decide), buf.size_toNat]
    rfl

/-- The status of the preparations. -/
def prepareStatus (dpu : DpuEnv) (files : ConfigFiles) : DocaStatus :=
  match prepareDma dpu files with
  | .error status => status
  | .ok _ => .success

/-- Without the bytes it is `dmaCopyDpu`, for the environment whose `prepare` is the status
of the preparations. -/
theorem dmaCopyDpuProgram_dmaCopyDpu {status : DocaStatus} {t : CopyState dpuSizes}
    (hprepare : dpu.prepare = prepareStatus dpu files)
    (h : dmaCopyDpuProgram dpu files = some (status, t)) :
    ∃ remoteAddrLen, dmaCopyDpu dpuSizes dpu.toDmaEnv remoteAddrLen = some (status, t.dma) := by
  rw [prepareStatus] at hprepare
  rw [dmaCopyDpuProgram] at h
  cases hcalls : prepareDma dpu files with
  | error error =>
    rw [hcalls] at h hprepare
    cases h
    refine ⟨0, ?_⟩
    rw [dmaCopyDpu, hprepare, if_pos (prepareDma_error hcalls)]
    rfl
  | ok remoteAddrLen =>
    rw [hcalls] at h hprepare
    refine ⟨remoteAddrLen, ?_⟩
    rw [dmaCopyDpu, hprepare, if_neg (not_not_intro rfl)]
    cases hnum : batchNum dpuSizes remoteAddrLen with
    | none =>
      simp only [hnum] at h
      cases h
    | some num =>
      simp only [hnum] at h
      exact runCopies_runBatches h

/-- The preparations succeed when all calls do and the SDK accepts what fits of the
descriptor. -/
theorem prepareDma_of_good (hfiles : filesOfHost host buf = some files)
    (hcall : ∀ c, dpu.call c = .success) (hgood : dpu.files = .good)
    (hmalloc : dpu.malloc = true)
    (hcreate : dpu.createFromExport (host.exportDesc.take RECV_BUF_SIZE) = .success) :
    prepareDma dpu files = .ok buf.size := by
  have hall : ∀ cs, firstFailure dpu.call cs = .success :=
    fun cs => firstFailure_eq_success_iff.mpr fun c _ => hcall c
  have hconfig : saveConfigInfoToBuffers dpu.files dpu.exportDescFilePath
      dpu.bufferInfoFilePath files (.zeroed EXPORT_DESC_SIZE) =
        .ok (received host.exportDesc buf.addr buf.size (.zeroed EXPORT_DESC_SIZE)) := by
    rw [hgood, filesOfHost_eq hfiles, saveConfigInfoToBuffers_written, if_neg buf.ne_max.1,
      if_neg buf.ne_max.2]
  have htake : (received host.exportDesc buf.addr buf.size
      (.zeroed EXPORT_DESC_SIZE)).exportDesc.data.take
        (received host.exportDesc buf.addr buf.size (.zeroed EXPORT_DESC_SIZE)).exportDescLen =
          host.exportDesc.take RECV_BUF_SIZE := received_take _
  simp only [prepareDma, hall, hconfig, hmalloc, htake, hcreate]
  rfl

theorem quiet_start (dpu : DpuEnv) : Quiet [] [] dpu.start.dma :=
  ⟨rfl, rfl, List.Perm.refl _, rfl⟩

/-- With calls that succeed and a device that works, a buffer with a batch is copied. -/
theorem exists_copy_of_works (hfiles : filesOfHost host buf = some files)
    (hprepare : prepareDma dpu files = .ok buf.size) (hworks : Works dpuSizes dpu.toDmaEnv)
    (hpos : 0 < buf.batches) : ∃ t, dmaCopyDpuProgram dpu files = some (.success, t) := by
  have hne : List.range buf.batches ≠ [] := by
    intro hnil
    rw [List.range_eq_nil] at hnil
    omega
  obtain ⟨t, ht⟩ := exists_runCopies hworks (quiet_start dpu) _ (Or.inl hne)
  refine ⟨t, ?_⟩
  rw [dmaCopyDpuProgram_of_host hfiles, hprepare]
  exact ht

/-- What a success has copied.  The SDK has accepted the first 512 bytes of the descriptor.
Of a buffer without a whole batch nothing is copied, and the success is what `task_result`
happened to hold.  Of up to 256 whole batches `dpu_buffer` has the last one, when its tasks
have succeeded.  Of more than 256, a task has read in front of the buffer. -/
theorem copied_of_host (hfiles : filesOfHost host buf = some files)
    (hmem : Holds dpu.mem buf.content) {t : CopyState dpuSizes}
    (h : dmaCopyDpuProgram dpu files = some (.success, t)) :
    dpu.createFromExport (host.exportDesc.take RECV_BUF_SIZE) = .success ∧
      (buf.batches = 0 → t = dpu.start ∧ dpu.taskResult = .success) ∧
      (0 < buf.batches → buf.batches ≤ 256 →
        (∀ j, j < dpuSizes.batchSize → dpu.outcome (buf.batches - 1) j = .success) →
        t.dpuBuffer.data =
          slice buf.content (dpuSizes.payloadSize * dpuSizes.batchSize * (buf.batches - 1))
            (dpuSizes.batchSize * dpuSizes.payloadSize)) ∧
      (256 < buf.batches →
        ∃ source ∈ t.dma.submitted, source + (dpuSizes.payloadSize : Nat) ≤ 0) := by
  rw [dmaCopyDpuProgram_of_host hfiles] at h
  cases hprepare : prepareDma dpu files with
  | error status =>
    rw [hprepare] at h
    exact absurd (Prod.mk.inj (Option.some.inj h)).1 (prepareDma_error hprepare)
  | ok remoteAddrLen =>
    rw [hprepare] at h
    have hrun : runCopies dpuSizes dpu.toCopyEnv (List.range buf.batches) dpu.start =
      some (.success, t) := h
    obtain ⟨-, hlast⟩ := runCopies_success (quiet_start dpu) hrun
    have hquiet := runBatches_quiet (quiet_start dpu) (runCopies_runBatches hrun)
    refine ⟨(prepareDma_of_host hfiles hprepare).2, fun hzero => ?_, fun hpos hle houtcome => ?_,
      fun hmany => ?_⟩
    · rw [hzero, List.range_zero, runCopies] at hrun
      obtain ⟨hresult, hstart⟩ := Prod.mk.inj (Option.some.inj hrun)
      exact ⟨hstart.symm, hresult⟩
    · have hq : dpuSizes.payloadSize * dpuSizes.batchSize = 2 ^ 23 := by decide
      have hholds : HoldsBatch dpu.toCopyEnv (buf.batches - 1) t := by
        apply hlast
        rw [List.getLast?_range, if_neg (Nat.ne_of_gt hpos)]
      refine data_of_holdsBatch (Nat.sub_one_lt_of_lt hpos) ?_ ?_ buf.batches_le hmem houtcome
        hholds
      · rw [hq]
        decide
      · rw [hq]
        omega
    · -- The first task of batch 256.
      have hneg : srcOffset dpuSizes 256 0 = -2 ^ 31 := by decide
      refine ⟨srcOffset dpuSizes 256 0, ?_, ?_⟩
      · rw [hquiet.submitted_eq, List.nil_append]
        refine List.mem_flatMap.mpr ⟨256, List.mem_range.mpr hmany, ?_⟩
        exact List.mem_map.mpr ⟨0, List.mem_range.mpr dpuSizes.batchSize_pos, rfl⟩
      · rw [hneg]
        decide

end

/-- No call fails. -/
def goodHost : HostEnv where
  call _ := .success
  exportDesc := [1, 2, 3]
  files := .good
  keys := ['\n']

/-- The bytes of a batch. -/
def batchBytes : Nat := dpuSizes.payloadSize * dpuSizes.batchSize

/-- A batch of sevens and a batch of eights. -/
def twoBatches : List UInt8 := List.replicate batchBytes 7 ++ List.replicate batchBytes 8

theorem length_twoBatches : twoBatches.length = batchBytes + batchBytes := by
  rw [twoBatches, List.length_append, List.length_replicate, List.length_replicate]

def sevensAndEights : HostBuffer where
  addr := 4096
  content := twoBatches
  content_ne_nil := List.ne_nil_of_length_pos (by
    rw [length_twoBatches]
    decide)
  addr_ne_zero := by decide
  end_lt := by
    rw [length_twoBatches]
    decide

/-- A device that works, on a host with the two batches. -/
def goodDpu : DpuEnv where
  prepare := .success
  taskResult := .success
  setData _ _ := .success
  submit _ _ := .success
  outcome _ _ := .success
  calls _ := [(List.range dpuSizes.batchSize).map .task]
  mem address := if address < (batchBytes : Nat) then 7 else 8
  failedPayload _ _ := .zeroed _
  call _ := .success
  exportDescFilePath := "/tmp/export_desc.txt"
  bufferInfoFilePath := "/tmp/buffer_info.txt"
  files := .good
  malloc := true
  dpuBuffer := .zeroed _
  createFromExport _ := .success

theorem goodDpu_works : Works dpuSizes goodDpu.toDmaEnv where
  setData_ok _ _ := rfl
  submit_ok _ _ := rfl
  outcome_ok _ _ := rfl
  reported _ := ⟨.inOrder _, List.append_nil _⟩

theorem sevensAndEights_batches : sevensAndEights.batches = 2 := by
  have hlen : sevensAndEights.content.length = batchBytes + batchBytes := length_twoBatches
  rw [HostBuffer.batches, hlen]
  decide

theorem holds_twoBatches : Holds goodDpu.mem twoBatches := by
  intro k hk
  have hbyte : twoBatches.get ⟨k, hk⟩ = if k < batchBytes then 7 else 8 := by
    simp only [twoBatches, List.get_eq_getElem, List.getElem_append, List.length_replicate,
      List.getElem_replicate, dite_eq_ite]
  rw [hbyte]
  simp only [goodDpu, Int.ofNat_lt]

theorem copied_of_host_sevensAndEights : ∃ files t,
    filesOfHost goodHost sevensAndEights = some files ∧
      dmaCopyDpuProgram goodDpu files = some (.success, t) ∧
      t.dpuBuffer.data = List.replicate batchBytes 8 := by
  have hfiles : filesOfHost goodHost sevensAndEights =
      some (writtenFiles goodHost.exportDesc sevensAndEights.addr sevensAndEights.size) := rfl
  have hprepare : prepareDma goodDpu _ = .ok _ :=
    prepareDma_of_good hfiles (fun _ => rfl) rfl rfl rfl
  have hpos : 0 < sevensAndEights.batches := by
    rw [sevensAndEights_batches]
    decide
  obtain ⟨t, ht⟩ := exists_copy_of_works hfiles hprepare goodDpu_works hpos
  have hlast := (copied_of_host hfiles holds_twoBatches ht).2.2.1 hpos
  rw [sevensAndEights_batches] at hlast
  refine ⟨_, t, hfiles, ht, (hlast (by decide) fun _ _ => rfl).trans ?_⟩
  have hdrop : sevensAndEights.content.drop (dpuSizes.payloadSize * dpuSizes.batchSize * (2 - 1)) =
      List.replicate batchBytes 8 := List.drop_left' List.length_replicate
  rw [slice, hdrop]
  exact List.take_of_length_le (Nat.le_of_eq List.length_replicate)

section

variable {host : HostEnv} {dpu : DpuEnv} {files : ConfigFiles}

/-! ## The programs as they are -/

end

/-- The text "hi". -/
def hi : CpyTxt where
  chars := [104, 105]
  nul_notMem := by decide
  length_le := by decide

end DpuTest.Dma
