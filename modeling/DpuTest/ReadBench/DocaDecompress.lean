import DpuTest.ReadBench.Libraries
import DpuTest.Lib.Latch

/-!
# Decompressing one frame with DOCA

The reader of the benchmark and the local decompressor have the same function
under two names, `doca_decompress_one` and `decompress_frame`.  It copies the
stream into the source memory, points the source buffer at the deflate body,
submits the one task and polls until the flag falls.

A task that completes leaves its output in the destination memory and counts
the latch down.  A task that fails stops the context, and the context drops the
flag when it becomes idle.  So the wait ends either way, and `inflateOne_ok` and
`inflateOne_failed` describe the function by what the device does with the
deflate body.
-/

namespace DpuTest.ReadBench

open Lib

/-- `struct doca_decompressor`: the latch of its `compress_resources`, its
memory, the data segments of `src_buf` and `dst_buf`, and whether
`task_result.status` is `DOCA_SUCCESS`. -/
structure DocaDecompressor (srcCapacity : Nat) where
  resources : Latch
  srcMemory : Buffer UInt8 srcCapacity
  dstMemory : Buffer UInt8 FRAME_BYTES
  srcData : Nat × Nat
  dstDataLen : Nat
  succeeded : Bool

/-- The decompressor that `doca_decompressor_init` leaves. -/
def DocaDecompressor.init (srcCapacity : Nat) : DocaDecompressor srcCapacity where
  resources := { remaining := 0, running := false }
  srcMemory := .zeroed srcCapacity
  dstMemory := .zeroed FRAME_BYTES
  srcData := (0, 0)
  dstDataLen := 0
  succeeded := true

/-- What `doca_pe_progress` delivers. -/
inductive DecompressEvent where
  | completed (output : List UInt8) (h : output.length ≤ FRAME_BYTES)
  | failed
  | idle

/-- Why the function returns -1; `neverEnds` stands for no return at all. -/
inductive DocaError where
  | badSize
  /-- `DOCA decompression failed: …` -/
  | taskFailed
  | neverEnds
  deriving DecidableEq

section

variable {srcCapacity : Nat}

/-- `decompress_deflate_completed_callback`, after the device has written the
output. -/
def decompressDeflateCompletedCallback (output : List UInt8)
    (h : output.length ≤ FRAME_BYTES) (d : DocaDecompressor srcCapacity) :
    DocaDecompressor srcCapacity :=
  { d with
    dstMemory := d.dstMemory.put 0 output (by omega)
    dstDataLen := output.length
    succeeded := true
    resources := d.resources.countDown }

/-- `decompress_deflate_error_callback`.  The context, which it stops when no
task remains, is left to the events of the device. -/
def decompressDeflateErrorCallback (d : DocaDecompressor srcCapacity) :
    DocaDecompressor srcCapacity :=
  { d with
    succeeded := false
    resources := { d.resources with remaining := d.resources.remaining - 1 } }

/-- `compress_state_changed_callback` for `DOCA_CTX_STATE_IDLE`. -/
def compressStateChangedCallback (d : DocaDecompressor srcCapacity) :
    DocaDecompressor srcCapacity :=
  { d with resources := { d.resources with running := false } }

def handleEvent : DecompressEvent → DocaDecompressor srcCapacity → DocaDecompressor srcCapacity
  | .completed output h => decompressDeflateCompletedCallback output h
  | .failed => decompressDeflateErrorCallback
  | .idle => compressStateChangedCallback

/-- What the device delivers for the task: it reads the data segment of the
source buffer. -/
def deviceEvents (device : Inflater) (d : DocaDecompressor srcCapacity) :
    List DecompressEvent :=
  match h : device.inflate (slice d.srcMemory.data d.srcData.1 d.srcData.2) with
  | some output => [.completed output (device.length_le h)]
  | none => [.failed, .idle]

/-- The decompressor at `doca_task_submit`. -/
def submitted (d : DocaDecompressor srcCapacity) (zlibData : List UInt8)
    (h : 0 + zlibData.length ≤ srcCapacity) : DocaDecompressor srcCapacity where
  resources := Latch.arm 1
  srcMemory := d.srcMemory.put 0 zlibData h
  dstMemory := d.dstMemory
  srcData := (ZLIB_HEADER_SIZE, zlibData.length - ZLIB_COMPATIBILITY_ADDITIONAL_MEMORY)
  dstDataLen := 0
  succeeded := true

/-- The common text of the two functions: `*output_size` and the decompressor
after the call. -/
def inflateOne (device : Inflater) (d : DocaDecompressor srcCapacity)
    (zlibData : List UInt8) : Except DocaError (Nat × DocaDecompressor srcCapacity) :=
  if h : zlibData.length < ZLIB_COMPATIBILITY_ADDITIONAL_MEMORY ∨
      zlibData.length > srcCapacity then
    .error .badSize
  else
    let d := submitted d zlibData (by omega)
    match pollLoop (fun d => d.resources.running) handleEvent (deviceEvents device d) d with
    | none => .error .neverEnds
    | some d => if d.succeeded then .ok (d.dstDataLen, d) else .error .taskFailed

/-- `doca_decompress_one` of the benchmark. -/
def docaDecompressOne (device : Inflater) (d : DocaDecompressor srcCapacity)
    (zlibData : List UInt8) : Except DocaError (Nat × DocaDecompressor srcCapacity) :=
  inflateOne device d zlibData

/-- `decompress_frame` of the local decompressor. -/
def decompressFrame (device : Inflater) (d : DocaDecompressor srcCapacity)
    (zlibData : List UInt8) : Except DocaError (Nat × DocaDecompressor srcCapacity) :=
  inflateOne device d zlibData

variable {device : Inflater} {zlibData : List UInt8}

theorem inflateOne_badSize (d : DocaDecompressor srcCapacity)
    (h : zlibData.length < ZLIB_COMPATIBILITY_ADDITIONAL_MEMORY ∨
      zlibData.length > srcCapacity) :
    inflateOne device d zlibData = .error .badSize := by
  rw [inflateOne, dif_pos h]

/-- The device sees the deflate body. -/
theorem slice_submitted {d : DocaDecompressor srcCapacity}
    (hmin : ZLIB_COMPATIBILITY_ADDITIONAL_MEMORY ≤ zlibData.length)
    (hmax : 0 + zlibData.length ≤ srcCapacity) :
    slice (submitted d zlibData hmax).srcMemory.data (submitted d zlibData hmax).srcData.1
      (submitted d zlibData hmax).srcData.2 = deflateBody zlibData := by
  have hin : 0 + zlibData.length ≤ d.srcMemory.data.length := by
    rw [d.srcMemory.length_data]
    exact hmax
  have hbody : ZLIB_HEADER_SIZE + (zlibData.length - ZLIB_COMPATIBILITY_ADDITIONAL_MEMORY) ≤
      zlibData.length := by
    unfold ZLIB_COMPATIBILITY_ADDITIONAL_MEMORY ZLIB_TRAILER_SIZE at hmin ⊢
    omega
  have hinner := slice_writeAt_inner hin hbody
  rw [Nat.zero_add] at hinner
  exact hinner

/-- The events of a task that completes. -/
theorem deviceEvents_of_some {d : DocaDecompressor srcCapacity} {output : List UInt8}
    (h : device.inflate (slice d.srcMemory.data d.srcData.1 d.srcData.2) = some output) :
    deviceEvents device d = [.completed output (device.length_le h)] := by
  unfold deviceEvents
  split
  · rename_i heq
    rw [h] at heq
    cases heq
    rfl
  · rename_i heq
    rw [h] at heq
    cases heq

/-- The events of a task that fails. -/
theorem deviceEvents_of_none {d : DocaDecompressor srcCapacity}
    (h : device.inflate (slice d.srcMemory.data d.srcData.1 d.srcData.2) = none) :
    deviceEvents device d = [.failed, .idle] := by
  unfold deviceEvents
  split
  · rename_i heq
    rw [h] at heq
    cases heq
  · rfl

/-- A call with a stream of the right size waits for the device. -/
theorem inflateOne_eq (d : DocaDecompressor srcCapacity)
    (hmin : ZLIB_COMPATIBILITY_ADDITIONAL_MEMORY ≤ zlibData.length)
    (hmax : 0 + zlibData.length ≤ srcCapacity) :
    inflateOne device d zlibData =
      match pollLoop (fun d => d.resources.running) handleEvent
          (deviceEvents device (submitted d zlibData hmax)) (submitted d zlibData hmax) with
      | none => .error .neverEnds
      | some d => if d.succeeded then .ok (d.dstDataLen, d) else .error .taskFailed := by
  rw [inflateOne, dif_neg (by omega)]

/-- A task that fails is reported. -/
theorem inflateOne_failed (d : DocaDecompressor srcCapacity)
    (hmin : ZLIB_COMPATIBILITY_ADDITIONAL_MEMORY ≤ zlibData.length)
    (hmax : zlibData.length ≤ srcCapacity)
    (hdev : device.inflate (deflateBody zlibData) = none) :
    inflateOne device d zlibData = .error .taskFailed := by
  have hmax' : 0 + zlibData.length ≤ srcCapacity := by omega
  rw [inflateOne_eq d hmin hmax', deviceEvents_of_none (by rw [slice_submitted hmin, hdev])]
  rfl

/-- A task that completes leaves its output at the start of `dst_memory`. -/
theorem inflateOne_ok (d : DocaDecompressor srcCapacity) {output : List UInt8}
    (hmin : ZLIB_COMPATIBILITY_ADDITIONAL_MEMORY ≤ zlibData.length)
    (hmax : zlibData.length ≤ srcCapacity)
    (hdev : device.inflate (deflateBody zlibData) = some output) :
    ∃ d', inflateOne device d zlibData = .ok (output.length, d') ∧
      fetch d'.dstMemory.data 0 output.length = some output := by
  have hmax' : 0 + zlibData.length ≤ srcCapacity := by omega
  have hdev' : device.inflate (slice (submitted d zlibData hmax').srcMemory.data
      (submitted d zlibData hmax').srcData.1 (submitted d zlibData hmax').srcData.2) =
        some output := by
    rw [slice_submitted hmin, hdev]
  have hout : 0 + output.length ≤ d.dstMemory.data.length := by
    rw [d.dstMemory.length_data, Nat.zero_add]
    exact device.length_le hdev
  have hwait : pollLoop (fun d => d.resources.running) handleEvent
      [.completed output (device.length_le hdev)] (submitted d zlibData hmax') =
        some (decompressDeflateCompletedCallback output (device.length_le hdev)
          (submitted d zlibData hmax')) := by
    rw [pollLoop_cons rfl]
    refine pollLoop_of_stopped [] ?_
    show (Latch.arm 1).countDown.running = false
    rw [Latch.countDown_of_one rfl]
  refine ⟨decompressDeflateCompletedCallback output (device.length_le hdev)
    (submitted d zlibData hmax'), ?_, ?_⟩
  · rw [inflateOne_eq d hmin hmax', deviceEvents_of_some hdev', hwait]
    rfl
  · show fetch (writeAt d.dstMemory.data 0 output) 0 output.length = some output
    rw [fetch_eq_some (by rw [length_writeAt hout]; exact hout), slice_writeAt_self hout]

/-- What is known of a call that returns 0. -/
theorem inflateOne_inv {d d' : DocaDecompressor srcCapacity} {outputSize : Nat}
    (h : inflateOne device d zlibData = .ok (outputSize, d')) :
    ZLIB_COMPATIBILITY_ADDITIONAL_MEMORY ≤ zlibData.length ∧ zlibData.length ≤ srcCapacity ∧
      ∃ output, device.inflate (deflateBody zlibData) = some output ∧
        outputSize = output.length ∧ fetch d'.dstMemory.data 0 outputSize = some output := by
  by_cases hsize : zlibData.length < ZLIB_COMPATIBILITY_ADDITIONAL_MEMORY ∨
      zlibData.length > srcCapacity
  · rw [inflateOne_badSize d hsize] at h
    cases h
  · refine ⟨by omega, by omega, ?_⟩
    cases hdev : device.inflate (deflateBody zlibData) with
    | none =>
      rw [inflateOne_failed d (by omega) (by omega) hdev] at h
      cases h
    | some output =>
      obtain ⟨d₁, hok, hfetch⟩ := inflateOne_ok d (by omega) (by omega) hdev
      rw [hok] at h
      cases h
      exact ⟨output, rfl, rfl, hfetch⟩

/-- The decoder that the function is. -/
def docaDecoder (device : Inflater) (srcCapacity : Nat) : Nat → List UInt8 → Option (List UInt8) :=
  fun _ stream => if stream.length ≤ srcCapacity then device.inflate (deflateBody stream) else none

theorem docaDecoder_eq_some_iff {rawSize : Nat} {stream output : List UInt8} :
    docaDecoder device srcCapacity rawSize stream = some output ↔
      stream.length ≤ srcCapacity ∧ device.inflate (deflateBody stream) = some output := by
  unfold docaDecoder
  split <;> simp [*]

end

end DpuTest.ReadBench
