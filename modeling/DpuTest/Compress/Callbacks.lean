import DpuTest.Doca
import DpuTest.Lib.StopLatch

/-!
# The deflate callbacks of `compress_common.c`

A task that completes or fails reports to the callback that was set for it.  A
callback fills in the result of its task, counts the resources down, and calls
the SDK.  The calls are listed with the effect, since they act on things that
the callback does not own: the task and the context.

The pairs for compression and decompression have the same text.
-/

namespace DpuTest.Compress

open Lib

/-- `struct compress_deflate_result`. -/
structure CompressDeflateResult where
  status : DocaStatus
  crcCs : UInt32
  adlerCs : UInt32

/-- What the getters of the SDK say of a task at its end. -/
structure TaskReport where
  status : DocaStatus
  crcCs : UInt32
  adlerCs : UInt32

/-- The calls of the SDK that a callback makes. -/
inductive SdkCall where
  /-- `doca_task_free(task)` -/
  | taskFree
  /-- `doca_ctx_stop(resources->state->ctx)` -/
  | ctxStop
  deriving DecidableEq

/-- What a callback leaves.  The latch is that of `compress_resources`:
`num_remaining_tasks` and `run_pe_progress`. -/
structure CallbackEffect where
  resources : Latch
  result : CompressDeflateResult
  calls : List SdkCall

/-- The common text of the two completed callbacks. -/
def deflateCompleted (report : TaskReport) (resources : Latch) (result : CompressDeflateResult) :
    CallbackEffect where
  resources := resources.countDown
  result := { result with
    crcCs := report.crcCs
    adlerCs := report.adlerCs
    status := .success }
  calls := []

/-- The common text of the two error callbacks. -/
def deflateFailed (report : TaskReport) (resources : Latch) (result : CompressDeflateResult) :
    CallbackEffect where
  resources := { resources with remaining := resources.remaining - 1 }
  result := { result with status := report.status }
  calls := .taskFree :: if resources.remaining - 1 = 0 then [.ctxStop] else []

/-- `compress_completed_callback`. -/
def compressCompletedCallback := deflateCompleted

/-- `compress_error_callback`. -/
def compressErrorCallback := deflateFailed

/-- `decompress_deflate_completed_callback`. -/
def decompressDeflateCompletedCallback := deflateCompleted

/-- `decompress_deflate_error_callback`. -/
def decompressDeflateErrorCallback := deflateFailed

/-- `enum compress_mode`, the two modes of the deflate tasks. -/
inductive DeflateMode where
  | compressDeflate
  | decompressDeflate

/-- The callback that runs for a report, as `allocate_compress_resources` sets
them for a mode. -/
def taskCallback (mode : DeflateMode) (report : TaskReport) :
    Latch → CompressDeflateResult → CallbackEffect :=
  match mode, report.status with
  | .compressDeflate, .success => compressCompletedCallback report
  | .compressDeflate, _ => compressErrorCallback report
  | .decompressDeflate, .success => decompressDeflateCompletedCallback report
  | .decompressDeflate, _ => decompressDeflateErrorCallback report

/-- The mode does not matter. -/
theorem taskCallback_eq (mode : DeflateMode) (report : TaskReport) (resources : Latch)
    (result : CompressDeflateResult) :
    taskCallback mode report resources result =
      if report.status = .success then deflateCompleted report resources result
      else deflateFailed report resources result := by
  obtain ⟨status, crcCs, adlerCs⟩ := report
  cases mode <;> cases status <;> rfl

/-- `compress_state_changed_callback`. -/
def compressStateChangedCallback (next : CtxState) (resources : Latch) : Latch :=
  match next with
  | .idle => { resources with running := false }
  | .starting => resources
  | .running => resources
  | .stopping => resources

end DpuTest.Compress
