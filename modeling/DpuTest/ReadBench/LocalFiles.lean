import DpuTest.ReadBench.LocalDecompress

/-!
# The files of the local decompressor

`decompress_object` writes the frames to the output file as they come, before it
knows the sums and the checksum of the object.  So this model has the file at
every exit: `write_all` with each of its calls of `write`, the frame loop that
leaves what it has written when it stops, `close`, and `unlink`.  The device
answers each task on its own.  A path names one file; there are no links.

`mainLoop` is the loop of `main`.  It keeps two lists that the program does not:
the paths that were opened, and the inputs that were accepted.

* `decompressObjectRun_cases` is what one object does: nothing, a file that is
  removed again, or a file with verified content.
* `decompressObject_eq_run` says that it is `decompressObject` with less detail.
* `mainLoop_clean` is the result about whole runs: what is left of the files that
  were opened is the raw bytes of accepted inputs.
-/

namespace DpuTest.ReadBench

open Lib

/-! ## Writing -/

/-- How a call of `write` ends. -/
inductive WriteOutcome where
  | wrote (count : Nat)
  /-- `EINTR` -/
  | interrupted
  | failed
  deriving DecidableEq

/-- Whether `write_all` has returned 0, what is in the file, and how the calls
of `write` to come end. -/
structure WriteAllResult where
  ok : Bool
  file : List UInt8
  writes : List WriteOutcome

/-- `write_all`.  Once the list of outcomes is used up `write` writes all. -/
def writeAll : List WriteOutcome → List UInt8 → List UInt8 → WriteAllResult
  | writes, [], file => { ok := true, file := file, writes := writes }
  | [], data, file => { ok := true, file := file ++ data, writes := [] }
  | .wrote count :: writes, data, file =>
    writeAll writes (data.drop count) (file ++ data.take count)
  | .interrupted :: writes, data, file => writeAll writes data file
  | .failed :: writes, _, file => { ok := false, file := file, writes := writes }

theorem writeAll_nil (writes : List WriteOutcome) (file : List UInt8) :
    writeAll writes [] file = { ok := true, file := file, writes := writes } := by
  cases writes <;> rfl

/-- When it returns 0 it has written all of the data. -/
theorem writeAll_file {writes : List WriteOutcome} {data file : List UInt8}
    (h : (writeAll writes data file).ok = true) :
    (writeAll writes data file).file = file ++ data := by
  induction writes generalizing data file with
  | nil =>
    cases data with
    | nil => exact (List.append_nil file).symm
    | cons x data => rfl
  | cons outcome writes ih =>
    cases data with
    | nil =>
      rw [writeAll_nil]
      exact (List.append_nil file).symm
    | cons x data =>
      cases outcome with
      | wrote count =>
        have hrest : (writeAll writes ((x :: data).drop count)
            (file ++ (x :: data).take count)).file =
              file ++ (x :: data).take count ++ (x :: data).drop count := ih h
        rw [List.append_assoc, List.take_append_drop] at hrest
        exact hrest
      | interrupted => exact ih h
      | failed => cases h

/-! ## One object -/

/-- How the calls end that `decompress_object` makes for an object: `read_file`,
`open`, the task of each frame, `write`, `close` and `unlink`. -/
structure ObjectEnv where
  readOk : Bool
  openOk : Bool
  device : Nat → Inflater
  writes : List WriteOutcome
  closeOk : Bool
  unlinkOk : Bool

/-- The local variables of the frame loop, and how the calls of `write` to come
end. -/
structure FrameRun (srcCapacity : Nat) where
  locals : LocalState srcCapacity
  writes : List WriteOutcome

/-- What is left of an object: the files, the path that was created or truncated,
the bytes that were read, what was written, and `*raw_total` and the
decompressor or the reason of the failure. -/
structure ObjectRun (srcCapacity : Nat) where
  files : Pool
  opened : Option (List UInt8)
  object : List UInt8
  written : List UInt8
  result : Except LocalError (UInt64 × DocaDecompressor srcCapacity)

section

variable (z : Zlib) (env : ObjectEnv) {srcCapacity : Nat}

/-- One pass of the frame loop.  With `false` it is left with `status = -1`. -/
def framePass (object : List UInt8) (frameIndex : Nat) (s : FrameRun srcCapacity) :
    Bool × FrameRun srcCapacity :=
  if s.locals.inputOffset + frameHeaderSize > object.length then (false, s)
  else
    let frame := FrameHeader.ofBytes (slice object s.locals.inputOffset frameHeaderSize)
    let inputOffset := s.locals.inputOffset + frameHeaderSize
    if frame.rawSize = 0 ∨ frame.rawSize.toNat > FRAME_BYTES ∨
        inputOffset + frame.compressedSize.toNat > object.length then
      (false, s)
    else
      match decompressFrame (env.device frameIndex) s.locals.decompressor
          (slice object inputOffset frame.compressedSize.toNat) with
      | .error _ => (false, s)
      | .ok (frameOutputSize, decompressor) =>
        if frameOutputSize ≠ frame.rawSize.toNat then (false, s)
        else
          match fetch decompressor.dstMemory.data 0 frameOutputSize with
          | none => (false, s)
          | some output =>
            let w := writeAll s.writes output s.locals.written
            if w.ok then
              (true, {
                locals := {
                  inputOffset := inputOffset + frame.compressedSize.toNat
                  outputSize := s.locals.outputSize + UInt64.ofNat frameOutputSize
                  compressedSum := s.locals.compressedSum + frame.compressedSize.toUInt64
                  crc := z.crc32 s.locals.crc output
                  written := w.file
                  decompressor := decompressor }
                writes := w.writes })
            else (false, { locals := { s.locals with written := w.file }, writes := w.writes })

/-- The frame loop. -/
def frameLoop (object : List UInt8) :
    Nat → Nat → FrameRun srcCapacity → Bool × FrameRun srcCapacity
  | 0, _, s => (true, s)
  | count + 1, frameIndex, s =>
    match framePass z env object frameIndex s with
    | (false, s) => (false, s)
    | (true, s) => frameLoop object count (frameIndex + 1) s

/-- The frame loop of an object. -/
def objectLoop (object : List UInt8) (decompressor : DocaDecompressor srcCapacity) :
    Bool × FrameRun srcCapacity :=
  frameLoop z env object (ObjectHeader.ofBytes (slice object 0 objectHeaderSize)).frameCount.toNat 0
    { locals := startLocal z decompressor, writes := env.writes }

/-- `decompress_object`. -/
def decompressObjectRun (files : Pool) (decompressor : DocaDecompressor srcCapacity)
    (inputPath outputDir : List UInt8) (rawTotal : UInt64) : ObjectRun srcCapacity :=
  match if env.readOk then readFile files inputPath else none with
  | none => { files, opened := none, object := [], written := [], result := .error .readFile }
  | some object =>
    if object.length < objectHeaderSize then
      { files, opened := none, object, written := [], result := .error .tooSmall }
    else if (ObjectHeader.ofBytes (slice object 0 objectHeaderSize)).Invalid then
      { files, opened := none, object, written := [], result := .error .invalidHeader }
    else
      match outputPath inputPath outputDir with
      | none => { files, opened := none, object, written := [], result := .error .pathTooLong }
      | some path =>
        if env.openOk = false then
          { files, opened := none, object, written := [], result := .error .openOutput }
        else
          let header := ObjectHeader.ofBytes (slice object 0 objectHeaderSize)
          let loop := objectLoop z env object decompressor
          let s := loop.2.locals
          let closed := Function.update files path (some s.written)
          if loop.1 = false ∨ env.closeOk = false ∨ s.inputOffset ≠ object.length ∨
              s.outputSize ≠ header.rawSize ∨ s.compressedSum ≠ header.compressedSize ∨
              s.crc ≠ header.rawCrc32 then
            { files := if env.unlinkOk then Function.update closed path none else closed
              opened := some path, object, written := s.written, result := .error .verification }
          else
            { files := closed, opened := some path, object, written := s.written
              result := .ok (rawTotal + s.outputSize, s.decompressor) }

end

/-! ## The program -/

/-- An input that was accepted: its path, the bytes that were read, and the bytes
that were written for it. -/
structure Accepted where
  inputPath : List UInt8
  object : List UInt8
  raw : List UInt8

/-- The variables of `main`, the files, and the two lists. -/
structure MainState (srcCapacity : Nat) where
  files : Pool
  decompressor : DocaDecompressor srcCapacity
  rawTotal : UInt64
  opened : List (List UInt8)
  accepted : List Accepted

inductive MainStatus where
  | success
  | usage
  | initFailed
  | objectFailed (error : LocalError)
  deriving DecidableEq

/-- The loop of `main`, from argument `index` on. -/
def mainLoop (z : Zlib) (envs : Nat → ObjectEnv) {srcCapacity : Nat} (outputDir : List UInt8) :
    List (List UInt8) → Nat → MainState srcCapacity → MainState srcCapacity × MainStatus
  | [], _, s => (s, .success)
  | inputPath :: inputs, index, s =>
    let r := decompressObjectRun z (envs index) s.files s.decompressor inputPath outputDir s.rawTotal
    let opened := s.opened ++ r.opened.toList
    match r.result with
    | .error e => ({ s with files := r.files, opened := opened }, .objectFailed e)
    | .ok (rawTotal, decompressor) =>
      mainLoop z envs outputDir inputs (index + 1)
        { files := r.files, decompressor := decompressor, rawTotal := rawTotal, opened := opened
          accepted := s.accepted ++ [⟨inputPath, r.object, r.written⟩] }

/-- `main` of `doca_local_decompress.c`. -/
def localMain (z : Zlib) (envs : Nat → ObjectEnv) (initOk : Bool) (srcCapacity : Nat)
    (outputDir : List UInt8) (inputs : List (List UInt8)) (files : Pool) :
    MainState srcCapacity × MainStatus :=
  let start := { files, decompressor := .init srcCapacity, rawTotal := 0, opened := []
                 accepted := [] }
  if inputs = [] then (start, .usage)
  else if initOk = false then (start, .initFailed)
  else mainLoop z envs outputDir inputs 0 start

/-! ## The frame loop -/

section

variable {z : Zlib} {env : ObjectEnv} {srcCapacity : Nat}

/-- A pass that is not the last is a pass of `localFrame`. -/
theorem framePass_localFrame {io : FileIO} {object : List UInt8} {frameIndex : Nat}
    {s s' : FrameRun srcCapacity} (hio : io.writeOk frameIndex = true)
    (h : framePass z env object frameIndex s = (true, s')) :
    localFrame z (env.device frameIndex) io object frameIndex s.locals = some s'.locals := by
  unfold framePass at h
  unfold localFrame
  simp only at h ⊢
  split at h
  · cases h
  rename_i hroom
  rw [if_neg hroom]
  split at h
  · cases h
  rename_i hchecks
  rw [if_neg hchecks]
  cases hone : decompressFrame (env.device frameIndex) s.locals.decompressor
      (slice object (s.locals.inputOffset + frameHeaderSize)
        (FrameHeader.ofBytes
          (slice object s.locals.inputOffset frameHeaderSize)).compressedSize.toNat) with
  | error e =>
    simp only [hone] at h
    cases h
  | ok result =>
    obtain ⟨outputSize, decompressor⟩ := result
    simp only [hone] at h ⊢
    split at h
    · cases h
    rename_i hsize
    rw [if_neg hsize]
    cases hfetch : fetch decompressor.dstMemory.data 0 outputSize with
    | none =>
      simp only [hfetch] at h
      cases h
    | some output =>
      simp only [hfetch] at h ⊢
      split at h
      · rename_i hwrite
        cases h
        rw [if_pos hio, writeAll_file hwrite]
      · cases h

/-- Good frames stand one behind the other, each as its own task decodes it. -/
def FramesBy (device : Nat → Inflater) (srcCapacity : Nat) (object : List UInt8) :
    Nat → Nat → List Frame → Prop
  | _, _, [] => True
  | frameIndex, off, f :: fs =>
    FrameAt (docaDecoder (device frameIndex) srcCapacity) object off f ∧
      FramesBy device srcCapacity object (frameIndex + 1)
        (off + frameHeaderSize + f.stream.length) fs

/-- What a loop that comes to its end has read. -/
theorem frameLoop_inv (hz : z.Crc32Append) {object : List UInt8} {count frameIndex : Nat}
    {s s' : FrameRun srcCapacity}
    (h : frameLoop z env object count frameIndex s = (true, s')) :
    ∃ fs, fs.length = count ∧
      FramesBy env.device srcCapacity object frameIndex s.locals.inputOffset fs ∧
      LocalReads z s.locals s'.locals fs := by
  induction count generalizing frameIndex s with
  | zero =>
    cases h
    exact ⟨[], rfl, trivial, LocalReads.refl _⟩
  | succ count ih =>
    rw [frameLoop] at h
    split at h
    · cases h
    · rename_i s₁ hone
      have hio : FileIO.writeOk ⟨true, fun _ => true, true⟩ frameIndex = true := rfl
      have hpass := framePass_localFrame hio hone
      obtain ⟨f, hf, hs₁⟩ := localFrame_inv hz hpass
      obtain ⟨fs, hlen, hfs, hs'⟩ := ih h
      have hoff : s₁.locals.inputOffset =
          s.locals.inputOffset + frameHeaderSize + f.stream.length := by
        rw [hs₁.inputOffset_eq, length_packFrames_singleton, Nat.add_assoc]
      rw [hoff] at hfs
      exact ⟨f :: fs, by rw [List.length_cons, hlen], ⟨hf, hfs⟩, hs₁.cons hs'⟩

/-! ## What the frames say of the object -/

/-- The sizes that are checked of a frame. -/
structure FrameSized (f : Frame) : Prop where
  raw_pos : 0 < f.raw.length
  raw_le : f.raw.length ≤ FRAME_BYTES
  stream_min : ZLIB_COMPATIBILITY_ADDITIONAL_MEMORY ≤ f.stream.length
  stream_lt : f.stream.length < 2 ^ 32

theorem FrameOk.sized {decode : Decoder} {f : Frame} (h : FrameOk decode f) : FrameSized f where
  raw_pos := h.raw_pos
  raw_le := h.raw_le
  stream_min := h.stream_min
  stream_lt := h.stream_lt

section

variable {device : Nat → Inflater} {object : List UInt8} {frameIndex off : Nat} {fs : List Frame}

theorem FramesBy.sized (h : FramesBy device srcCapacity object frameIndex off fs) :
    ∀ f ∈ fs, FrameSized f := by
  induction fs generalizing frameIndex off with
  | nil =>
    intro f hf
    cases hf
  | cons f fs ih =>
    intro g hg
    rcases List.mem_cons.mp hg with heq | hmem
    · rw [heq]
      exact h.1.ok.sized
    · exact ih h.2 g hmem

/-- The bytes of the frames. -/
theorem FramesBy.slice_eq (h : FramesBy device srcCapacity object frameIndex off fs) :
    slice object off (packFrames fs).length = packFrames fs := by
  induction fs generalizing frameIndex off with
  | nil => simp [packFrames, slice]
  | cons f fs ih =>
    rw [length_packFrames_cons, Nat.add_assoc, slice_add, slice_add, h.1.header_eq,
      h.1.stream_eq, ih h.2, packFrames]

/-- With one device for all tasks. -/
theorem FramesBy.framesAt {d : Inflater} (hd : ∀ i, device i = d)
    (h : FramesBy device srcCapacity object frameIndex off fs) :
    FramesAt (docaDecoder d srcCapacity) object off fs := by
  induction fs generalizing frameIndex off with
  | nil => trivial
  | cons f fs ih =>
    have hf := h.1
    rw [hd frameIndex] at hf
    exact ⟨hf, ih h.2⟩

end

/-- The object passes the checks of sizes, sums and checksum, and `fs` are its
frames. -/
structure PassesChecks (z : Zlib) (object : List UInt8) (fs : List Frame) : Prop where
  ne_nil : fs ≠ []
  length_le : fs.length ≤ MAX_FRAMES
  raw_le : (framesRaw fs).length ≤ OBJECT_BYTES
  sized : ∀ f ∈ fs, FrameSized f
  object_eq : object = packObject z.checksum fs

/-- An object that is not rejected, and what was written for it. -/
theorem objectLoop_inv (hz : z.Crc32Append) {object : List UInt8}
    {decompressor : DocaDecompressor srcCapacity} {s : FrameRun srcCapacity}
    (hheader : ¬ (ObjectHeader.ofBytes (slice object 0 objectHeaderSize)).Invalid)
    (hloop : objectLoop z env object decompressor = (true, s))
    (hend : s.locals.inputOffset = object.length)
    (hsize : s.locals.outputSize =
      (ObjectHeader.ofBytes (slice object 0 objectHeaderSize)).rawSize)
    (hsum : s.locals.compressedSum =
      (ObjectHeader.ofBytes (slice object 0 objectHeaderSize)).compressedSize)
    (hcrc : s.locals.crc = (ObjectHeader.ofBytes (slice object 0 objectHeaderSize)).rawCrc32) :
    ∃ fs, PassesChecks z object fs ∧
      FramesBy env.device srcCapacity object 0 objectHeaderSize fs ∧
      s.locals.written = framesRaw fs ∧
      s.locals.outputSize = UInt64.ofNat (framesRaw fs).length := by
  obtain ⟨fs, hlen, hby, hs⟩ := frameLoop_inv hz hloop
  simp only [ObjectHeader.Invalid, not_or, ne_eq, Decidable.not_not] at hheader
  obtain ⟨hmagic, hversion, hraw, hnz, hcount⟩ := hheader
  have hsizes := hby.sized
  have hcount' : fs.length ≤ MAX_FRAMES := by
    rw [hlen]
    exact Nat.le_of_not_gt hcount
  have hbound := length_framesRaw_le (fun f hf => (hsizes f hf).raw_le) hcount'
  have houtput : s.locals.outputSize = UInt64.ofNat (framesRaw fs).length := by
    rw [hs.outputSize_eq]
    exact UInt64.zero_add _
  have hheader' : ObjectHeader.ofBytes (slice object 0 objectHeaderSize) =
      frameListHeader z.checksum fs := by
    refine eq_frameListHeader hmagic hversion ?_ ?_ ?_ hlen.symm
    · rw [← hsize, houtput, UInt64.toNat_ofNat_of_lt' (Nat.lt_of_le_of_lt hbound (by decide))]
    · rw [← hsum, hs.compressedSum_eq]
      exact UInt64.zero_add _
    · rw [← hcrc]
      exact hs.crc_eq [] rfl
  have hoff : objectHeaderSize + (packFrames fs).length = object.length := by
    rw [← hend, hs.inputOffset_eq]
    rfl
  have hobject := eq_packObject_of_slice hheader' hby.slice_eq hoff
  refine ⟨fs, ⟨?_, hcount', hbound, hsizes, hobject⟩, hby, ?_, houtput⟩
  · rintro rfl
    exact hnz (UInt32.toNat_inj.mp hlen.symm)
  · rw [hs.written_eq]
    exact List.nil_append _

/-! ## The model without the calls of `write` -/

section

variable {d : Inflater} {io : FileIO} {object : List UInt8}

theorem localFrame_of_writeFails {frameIndex : Nat} {s : LocalState srcCapacity}
    (hio : io.writeOk frameIndex = false) : localFrame z d io object frameIndex s = none := by
  unfold localFrame
  simp only [hio, Bool.false_eq_true, if_false]
  split
  · rfl
  split
  · rfl
  split
  · rfl
  split
  · rfl
  split <;> rfl

theorem frameLoop_localFrames (hd : ∀ i, env.device i = d) (hio : ∀ i, io.writeOk i = true)
    {count frameIndex : Nat} {s s' : FrameRun srcCapacity}
    (h : frameLoop z env object count frameIndex s = (true, s')) :
    localFrames z d io object count frameIndex s.locals = some s'.locals := by
  induction count generalizing frameIndex s with
  | zero =>
    cases h
    rfl
  | succ count ih =>
    rw [frameLoop] at h
    split at h
    · cases h
    · rename_i s₁ hone
      have hpass := framePass_localFrame (hio frameIndex) hone
      rw [hd] at hpass
      simp only [localFrames, hpass]
      exact ih h

/-- The part after `open`. -/
theorem localObject_eq_loop (hd : ∀ i, env.device i = d) (openOk : Bool)
    (decompressor : DocaDecompressor srcCapacity)
    (hheader : ¬ (ObjectHeader.ofBytes (slice object 0 objectHeaderSize)).Invalid) :
    localObject z d ⟨openOk, fun _ => (objectLoop z env object decompressor).1, env.closeOk⟩
        object decompressor =
      if (objectLoop z env object decompressor).1 = false ∨ env.closeOk = false ∨
          (objectLoop z env object decompressor).2.locals.inputOffset ≠ object.length ∨
          (objectLoop z env object decompressor).2.locals.outputSize ≠
            (ObjectHeader.ofBytes (slice object 0 objectHeaderSize)).rawSize ∨
          (objectLoop z env object decompressor).2.locals.compressedSum ≠
            (ObjectHeader.ofBytes (slice object 0 objectHeaderSize)).compressedSize ∨
          (objectLoop z env object decompressor).2.locals.crc ≠
            (ObjectHeader.ofBytes (slice object 0 objectHeaderSize)).rawCrc32 then none
      else some (objectLoop z env object decompressor).2.locals := by
  have hcount : (ObjectHeader.ofBytes (slice object 0 objectHeaderSize)).frameCount.toNat ≠ 0 := by
    intro h0
    simp only [ObjectHeader.Invalid, not_or] at hheader
    exact hheader.2.2.2.1 (UInt32.toNat_inj.mp h0)
  cases hloop : (objectLoop z env object decompressor).1 with
  | false =>
    obtain ⟨count, hsucc⟩ := Nat.exists_eq_succ_of_ne_zero hcount
    rw [if_pos (Or.inl rfl), localObject]
    simp only [hsucc, localFrames]
    rw [localFrame_of_writeFails rfl]
  | true =>
    have hrun : localFrames z d ⟨openOk, fun _ => true, env.closeOk⟩ object
        (ObjectHeader.ofBytes (slice object 0 objectHeaderSize)).frameCount.toNat 0
        (startLocal z decompressor) = some (objectLoop z env object decompressor).2.locals :=
      frameLoop_localFrames hd (fun _ => rfl) (Prod.ext hloop rfl)
    simp only [localObject, hrun, Bool.true_eq_false, false_or]

/-- With one device for all tasks, and an input that can be read, the program is
`decompressObject` for some outcome of the writes. -/
theorem decompressObject_eq_run (hd : ∀ i, env.device i = d) (hread : env.readOk = true)
    (hunlink : env.unlinkOk = true) (files : Pool) (decompressor : DocaDecompressor srcCapacity)
    (inputPath outputDir : List UInt8) (rawTotal : UInt64) :
    ∃ io, decompressObject z d io files decompressor inputPath outputDir rawTotal =
      ((decompressObjectRun z env files decompressor inputPath outputDir rawTotal).files,
        (decompressObjectRun z env files decompressor inputPath outputDir rawTotal).result) := by
  cases hfile : readFile files inputPath with
  | none =>
    refine ⟨⟨true, fun _ => true, true⟩, ?_⟩
    simp only [decompressObject, decompressObjectRun, hfile, hread, if_true]
  | some object =>
    refine ⟨⟨env.openOk, fun _ => (objectLoop z env object decompressor).1, env.closeOk⟩, ?_⟩
    simp only [decompressObject, decompressObjectRun, hfile, hread, hunlink, if_true]
    split
    · rfl
    split
    · rfl
    rename_i hheader
    cases hpath : outputPath inputPath outputDir with
    | none => rfl
    | some path =>
      simp only
      split
      · rfl
      rw [localObject_eq_loop hd env.openOk decompressor hheader]
      simp only [Function.update_idem]
      split_ifs <;> rfl

/-! ### Objects that are accepted -/

theorem writeAll_good (data file : List UInt8) :
    writeAll [] data file = { ok := true, file := file ++ data, writes := [] } := by
  cases data with
  | nil => rw [writeAll_nil, List.append_nil]
  | cons x data => rfl

/-- No call fails, and one device does all tasks. -/
def ObjectEnv.good (d : Inflater) : ObjectEnv where
  readOk := true
  openOk := true
  device _ := d
  writes := []
  closeOk := true
  unlinkOk := true

@[simp] theorem ObjectEnv.good_readOk : (ObjectEnv.good d).readOk = true := rfl

@[simp] theorem ObjectEnv.good_openOk : (ObjectEnv.good d).openOk = true := rfl

@[simp] theorem ObjectEnv.good_closeOk : (ObjectEnv.good d).closeOk = true := rfl

theorem framePass_of_localFrame {frameIndex : Nat} {s s' : LocalState srcCapacity}
    (h : localFrame z d io object frameIndex s = some s') :
    framePass z (.good d) object frameIndex { locals := s, writes := [] } =
      (true, { locals := s', writes := [] }) := by
  unfold localFrame at h
  unfold framePass
  simp only at h ⊢
  split at h
  · cases h
  rename_i hroom
  rw [if_neg hroom]
  split at h
  · cases h
  rename_i hchecks
  rw [if_neg hchecks]
  split at h
  · cases h
  rename_i outputSize decompressor hone
  simp only [ObjectEnv.good, hone]
  split at h
  · cases h
  rename_i hsize
  rw [if_neg hsize]
  split at h
  · cases h
  rename_i output hfetch
  simp only [hfetch, writeAll_good, if_true]
  split at h
  · cases h
    rfl
  · cases h

theorem frameLoop_of_localFrames {count frameIndex : Nat} {s s' : LocalState srcCapacity}
    (h : localFrames z d io object count frameIndex s = some s') :
    frameLoop z (.good d) object count frameIndex { locals := s, writes := [] } =
      (true, { locals := s', writes := [] }) := by
  induction count generalizing frameIndex s with
  | zero =>
    cases h
    rfl
  | succ count ih =>
    rw [localFrames] at h
    split at h
    · cases h
    · rename_i s₁ hone
      simp only [frameLoop, framePass_of_localFrame hone]
      exact ih h

/-- An object of well-formed frames is accepted when no call fails. -/
theorem decompressObjectRun_packObject (hz : z.Crc32Append) {fs : List Frame}
    (hfs : WellFormed (docaDecoder d srcCapacity) fs) {files : Pool}
    {inputPath outputDir path : List UInt8}
    (hfile : files inputPath = some (packObject z.checksum fs))
    (hpath : outputPath inputPath outputDir = some path)
    (decompressor : DocaDecompressor srcCapacity) (rawTotal : UInt64) :
    ∃ decompressor', decompressObjectRun z (.good d) files decompressor inputPath outputDir
        rawTotal =
      { files := Function.update files path (some (framesRaw fs))
        opened := some path
        object := packObject z.checksum fs
        written := framesRaw fs
        result := .ok (rawTotal + UInt64.ofNat (framesRaw fs).length, decompressor') } := by
  have hio : FileIO.Succeeds ⟨true, fun _ => true, true⟩ := ⟨rfl, fun _ => rfl, rfl⟩
  obtain ⟨s, hobject, hwritten, hsize⟩ := localObject_packObject hz hio hfs decompressor
  have hne := packObject_ne_nil z.checksum fs
  have hmin := not_length_packObject_lt z.checksum fs
  have hread : readFile files inputPath = some (packObject z.checksum fs) := by
    simp only [readFile, hfile, if_neg hne]
  unfold localObject at hobject
  simp only at hobject
  split at hobject
  · cases hobject
  rename_i s₁ hrun
  split at hobject
  · cases hobject
  rename_i hchecks
  cases hobject
  have hloop : objectLoop z (.good d) (packObject z.checksum fs) decompressor =
      (true, { locals := s, writes := [] }) := frameLoop_of_localFrames hrun
  simp only [not_or] at hchecks
  refine ⟨s.decompressor, ?_⟩
  simp only [decompressObjectRun, hread, if_neg hmin, ofBytes_packObject,
    if_neg (hfs.not_invalid z.checksum), hpath, hloop, ObjectEnv.good_readOk,
    ObjectEnv.good_openOk, ObjectEnv.good_closeOk, Bool.true_eq_false, if_true, if_false, false_or]
  rw [ofBytes_packObject] at hchecks
  simp only [hchecks, hwritten, hsize, ne_eq, not_true_eq_false, or_self, if_false]
  rfl

end

/-! ## One object -/

/-- An object that is accepted: its frames pass the checks, and its output file
holds their raw bytes. -/
structure AcceptsObject (z : Zlib) (env : ObjectEnv) (files : Pool) (inputPath outputDir : List UInt8)
    (rawTotal : UInt64) (r : ObjectRun srcCapacity) (path : List UInt8) (fs : List Frame) :
    Prop where
  path_eq : outputPath inputPath outputDir = some path
  read_eq : readFile files inputPath = some r.object
  passes : PassesChecks z r.object fs
  framesBy : FramesBy env.device srcCapacity r.object 0 objectHeaderSize fs
  written_eq : r.written = framesRaw fs
  opened_eq : r.opened = some path
  files_eq : r.files = Function.update files path (some r.written)
  result_eq : ∃ d, r.result = .ok (rawTotal + UInt64.ofNat r.written.length, d)

/-- An object that is rejected: before the output file was opened, or with the
output file removed. -/
structure RejectsObject (files : Pool) (inputPath outputDir : List UInt8)
    (r : ObjectRun srcCapacity) : Prop where
  result_eq : ∃ e, r.result = .error e
  files_eq : (r.opened = none ∧ r.files = files) ∨
    ∃ path, outputPath inputPath outputDir = some path ∧ r.opened = some path ∧
      r.files = Function.update files path none

theorem readFile_of_readOk {files : Pool} {inputPath object : List UInt8}
    (h : (if env.readOk then readFile files inputPath else none) = some object) :
    readFile files inputPath = some object := by
  split at h
  · exact h
  · cases h

/-- An object is accepted or rejected. -/
theorem decompressObjectRun_cases (hz : z.Crc32Append) (hunlink : env.unlinkOk = true)
    (files : Pool) (decompressor : DocaDecompressor srcCapacity) (inputPath outputDir : List UInt8)
    (rawTotal : UInt64) {r : ObjectRun srcCapacity}
    (h : decompressObjectRun z env files decompressor inputPath outputDir rawTotal = r) :
    RejectsObject files inputPath outputDir r ∨
      ∃ path fs, AcceptsObject z env files inputPath outputDir rawTotal r path fs := by
  unfold decompressObjectRun at h
  split at h
  · subst h
    exact Or.inl ⟨⟨_, rfl⟩, Or.inl ⟨rfl, rfl⟩⟩
  rename_i object hread
  split at h
  · subst h
    exact Or.inl ⟨⟨_, rfl⟩, Or.inl ⟨rfl, rfl⟩⟩
  split at h
  · subst h
    exact Or.inl ⟨⟨_, rfl⟩, Or.inl ⟨rfl, rfl⟩⟩
  rename_i hheader
  split at h
  · subst h
    exact Or.inl ⟨⟨_, rfl⟩, Or.inl ⟨rfl, rfl⟩⟩
  rename_i path hpath
  split at h
  · subst h
    exact Or.inl ⟨⟨_, rfl⟩, Or.inl ⟨rfl, rfl⟩⟩
  simp only at h
  split at h
  · subst h
    refine Or.inl ⟨⟨_, rfl⟩, Or.inr ⟨path, hpath, rfl, ?_⟩⟩
    exact Function.update_idem ..
  · rename_i hchecks
    subst h
    simp only [not_or, ne_eq, Decidable.not_not, Bool.not_eq_false] at hchecks
    obtain ⟨hloop, -, hend, hsize, hsum, hcrc⟩ := hchecks
    obtain ⟨fs, hpasses, hby, hwritten, houtput⟩ :=
      objectLoop_inv hz hheader (Prod.ext hloop rfl) hend hsize hsum hcrc
    refine Or.inr ⟨path, fs, hpath, readFile_of_readOk hread, hpasses, hby, hwritten, rfl, rfl,
      ⟨(objectLoop z env object decompressor).2.locals.decompressor, ?_⟩⟩
    show Except.ok (rawTotal + (objectLoop z env object decompressor).2.locals.outputSize, _) = _
    rw [houtput, hwritten]

/-! ## The loop of `main` -/

/-- What is left of the files that were opened is verified, the other files are
as before, and `raw_total` counts the accepted inputs. -/
structure Clean (z : Zlib) (outputDir : List UInt8) (before : Pool)
    (s : MainState srcCapacity) : Prop where
  verified : ∀ path ∈ s.opened, ∀ content, s.files path = some content →
    ∃ a ∈ s.accepted, outputPath a.inputPath outputDir = some path ∧ a.raw = content
  passes : ∀ a ∈ s.accepted, ∃ fs, PassesChecks z a.object fs ∧ a.raw = framesRaw fs
  counted : s.rawTotal = UInt64.ofNat (s.accepted.map fun a => a.raw.length).sum
  untouched : ∀ path, path ∉ s.opened → s.files path = before path

section

variable {outputDir : List UInt8} {before : Pool} {s : MainState srcCapacity}
  {inputPath : List UInt8} {r : ObjectRun srcCapacity}

/-- After an object that is rejected. -/
theorem Clean.rejected (hs : Clean z outputDir before s)
    (hr : RejectsObject s.files inputPath outputDir r) :
    Clean z outputDir before
      { s with files := r.files, opened := s.opened ++ r.opened.toList } := by
  rcases hr.files_eq with ⟨hopened, hfiles⟩ | ⟨path, -, hopened, hfiles⟩
  · rw [hopened, hfiles, Option.toList_none, List.append_nil]
    exact hs
  · rw [hopened, hfiles, Option.toList_some]
    refine ⟨?_, hs.passes, hs.counted, ?_⟩
    · intro p hp content hcontent
      by_cases heq : p = path
      · simp only [heq, Function.update_self] at hcontent
        cases hcontent
      · simp only [Function.update_of_ne heq] at hcontent
        rcases List.mem_append.mp hp with hold | hnew
        · exact hs.verified p hold content hcontent
        · exact absurd (List.mem_singleton.mp hnew) heq
    · intro p hp
      have hne : p ≠ path := fun heq => hp (List.mem_append_right _ (List.mem_singleton.mpr heq))
      show Function.update s.files path none p = before p
      rw [Function.update_of_ne hne]
      exact hs.untouched p fun hold => hp (List.mem_append_left _ hold)

/-- After an object that is accepted. -/
theorem Clean.accepted (hs : Clean z outputDir before s) {path : List UInt8} {fs : List Frame}
    (hr : AcceptsObject z env s.files inputPath outputDir s.rawTotal r path fs)
    (decompressor : DocaDecompressor srcCapacity) :
    Clean z outputDir before
      { files := r.files
        decompressor := decompressor
        rawTotal := s.rawTotal + UInt64.ofNat r.written.length
        opened := s.opened ++ r.opened.toList
        accepted := s.accepted ++ [⟨inputPath, r.object, r.written⟩] } := by
  rw [hr.files_eq, hr.opened_eq, Option.toList_some]
  refine ⟨?_, ?_, ?_, ?_⟩
  · intro p hp content hcontent
    by_cases heq : p = path
    · simp only [heq, Function.update_self, Option.some.injEq] at hcontent
      refine ⟨_, List.mem_append_right _ List.mem_cons_self, ?_, hcontent⟩
      rw [heq]
      exact hr.path_eq
    · simp only [Function.update_of_ne heq] at hcontent
      rcases List.mem_append.mp hp with hold | hnew
      · obtain ⟨a, ha, hpath, hraw⟩ := hs.verified p hold content hcontent
        exact ⟨a, List.mem_append_left _ ha, hpath, hraw⟩
      · exact absurd (List.mem_singleton.mp hnew) heq
  · intro a ha
    rcases List.mem_append.mp ha with hold | hnew
    · exact hs.passes a hold
    · rw [List.mem_singleton.mp hnew]
      exact ⟨fs, hr.passes, hr.written_eq⟩
  · rw [List.map_append, List.sum_append, UInt64.ofNat_add]
    simp only [List.map_cons, List.map_nil, List.sum_singleton]
    rw [hs.counted]
  · intro p hp
    have hne : p ≠ path := fun heq => hp (List.mem_append_right _ (List.mem_singleton.mpr heq))
    show Function.update s.files path (some r.written) p = before p
    rw [Function.update_of_ne hne]
    exact hs.untouched p fun hold => hp (List.mem_append_left _ hold)

end

/-- The loop keeps the files clean, and it accepts inputs until the first that it
rejects. -/
theorem mainLoop_clean (hz : z.Crc32Append) {envs : Nat → ObjectEnv}
    (hunlink : ∀ i, (envs i).unlinkOk = true) {outputDir : List UInt8} {before : Pool}
    {inputs : List (List UInt8)} {index : Nat} {s t : MainState srcCapacity} {status : MainStatus}
    (hs : Clean z outputDir before s)
    (h : mainLoop z envs outputDir inputs index s = (t, status)) :
    Clean z outputDir before t ∧ ∃ count, t.accepted.map Accepted.inputPath =
      s.accepted.map Accepted.inputPath ++ inputs.take count ∧
        (status = .success ↔ inputs.length ≤ count) := by
  induction inputs generalizing index s with
  | nil =>
    cases h
    exact ⟨hs, 0, (List.append_nil _).symm, by simp⟩
  | cons inputPath inputs ih =>
    rw [mainLoop] at h
    have hcases := decompressObjectRun_cases hz (hunlink index) s.files s.decompressor inputPath
      outputDir s.rawTotal rfl
    rcases hcases with hr | ⟨path, fs, hr⟩
    · obtain ⟨e, he⟩ := hr.result_eq
      rw [he] at h
      cases h
      exact ⟨hs.rejected hr, 0, (List.append_nil _).symm, by simp⟩
    · obtain ⟨d, hd⟩ := hr.result_eq
      rw [hd] at h
      obtain ⟨ht, count, haccepted, hstatus⟩ := ih (hs.accepted hr d) h
      refine ⟨ht, count + 1, ?_, ?_⟩
      · rw [haccepted, List.map_append, List.append_assoc]
        rfl
      · rw [hstatus, List.length_cons]
        omega

end

/-- However the calls end and whatever the device does: when `main` ends, a file
that was opened and is still there holds the raw bytes of an accepted input,
which has passed the checks, and the other files are as before; `raw_total`
counts the accepted inputs, which are the ones before the first that is rejected.
A rejected object leaves its output file removed, or no trace. -/
theorem localMain_clean {z : Zlib} (hz : z.Crc32Append) {envs : Nat → ObjectEnv}
    (hunlink : ∀ i, (envs i).unlinkOk = true) (initOk : Bool) (srcCapacity : Nat)
    (outputDir : List UInt8) (inputs : List (List UInt8)) (files : Pool)
    {t : MainState srcCapacity} {status : MainStatus}
    (h : localMain z envs initOk srcCapacity outputDir inputs files = (t, status)) :
    Clean z outputDir files t ∧
    (∃ count, t.accepted.map Accepted.inputPath = inputs.take count ∧
      (status = .success → inputs.length ≤ count)) ∧
    ∀ (index : Nat) (s : MainState srcCapacity) (inputPath : List UInt8) (e : LocalError),
      (decompressObjectRun z (envs index) s.files s.decompressor inputPath outputDir
        s.rawTotal).result = .error e →
      RejectsObject s.files inputPath outputDir (decompressObjectRun z (envs index) s.files
        s.decompressor inputPath outputDir s.rawTotal) := by
  have hstart : Clean z outputDir files
      { files, decompressor := .init srcCapacity, rawTotal := 0, opened := [], accepted := [] } :=
    ⟨fun path hp => absurd hp List.not_mem_nil, fun a ha => absurd ha List.not_mem_nil, rfl,
      fun _ _ => rfl⟩
  refine ⟨?_, ?_, ?_⟩
  · unfold localMain at h
    simp only at h
    split at h
    · cases h
      exact hstart
    split at h
    · cases h
      exact hstart
    exact (mainLoop_clean hz hunlink hstart h).1
  · unfold localMain at h
    simp only at h
    split at h
    · cases h
      exact ⟨0, rfl, fun hf => by cases hf⟩
    split at h
    · cases h
      exact ⟨0, rfl, fun hf => by cases hf⟩
    obtain ⟨-, count, haccepted, hstatus⟩ := mainLoop_clean hz hunlink hstart h
    exact ⟨count, haccepted, hstatus.mp⟩
  · intro index s inputPath e he
    rcases decompressObjectRun_cases hz (hunlink index) s.files s.decompressor inputPath
      outputDir s.rawTotal rfl with hr | ⟨path, fs, hr⟩
    · exact hr
    · obtain ⟨d, hd⟩ := hr.result_eq
      rw [he] at hd
      cases hd

/-- `a.zobj` and `b.zobj` -/
def twoPaths : List (List UInt8) := [97 :: ZOBJ_SUFFIX, 98 :: ZOBJ_SUFFIX]

/-- The object of `a`, and the same object without its last byte. -/
def goodAndCut : Pool := fun path =>
  if path = 97 :: ZOBJ_SUFFIX then some objectOfA
  else if path = 98 :: ZOBJ_SUFFIX then some objectOfA.dropLast
  else none

/-- The first call of `write` for an object is interrupted, the second writes
nothing. -/
def slowWrites : ObjectEnv :=
  { ObjectEnv.good storedInflater with writes := [.interrupted, .wrote 0] }

theorem localMain_clean_goodAndCut :
    Clean storedZlib [111] goodAndCut
      (localMain storedZlib (fun _ => slowWrites) true (storedZlib.compressBound FRAME_BYTES) [111]
        twoPaths goodAndCut).1 :=
  (localMain_clean storedZlib_crc32Append (fun _ => rfl) true _ [111] twoPaths goodAndCut
    Prod.mk.eta.symm).1

end DpuTest.ReadBench
