import DpuTest.ReadBench.RoundTrip

/-!
# The local decompressor

`doca_local_decompress.c` decompresses one object file with DOCA.  It repeats
the format with the same macros, but checks it in another way: the length of a
stream only in `decompress_frame`, the size of the output only at the end, the
checksum frame by frame.  It writes each frame to the output file as it comes
and removes the file when anything is wrong.

It accepts the same objects as the read loop of the benchmark, with the same
content (`decompressObject_iff_readNext`), because both accept exactly the
packed well-formed frames.
-/

namespace DpuTest.ReadBench

open Lib

/-- Why `decompress_object` returns -1. -/
inductive LocalError where
  /-- `stat`, `open` or `read` of the input. -/
  | readFile
  /-- `Object … is too small` -/
  | tooSmall
  /-- `Invalid object header in …` -/
  | invalidHeader
  | pathTooLong
  /-- `open(…)` of the output. -/
  | openOutput
  /-- `Verification failed for …` -/
  | verification
  deriving DecidableEq

/-- Whether the calls on the output file succeed: `open`, `write_all` of a
frame, `close`. -/
structure FileIO where
  openOk : Bool
  writeOk : Nat → Bool
  closeOk : Bool

/-- File input and output that does not fail. -/
structure FileIO.Succeeds (io : FileIO) : Prop where
  openOk : io.openOk = true
  writeOk : ∀ frameIndex, io.writeOk frameIndex = true
  closeOk : io.closeOk = true

/-! ## The output path -/

/-- `/` -/
def SLASH : UInt8 := 47

/-- `.zobj` -/
def ZOBJ_SUFFIX : List UInt8 := [46, 122, 111, 98, 106]

/-- `.raw` -/
def RAW_SUFFIX : List UInt8 := [46, 114, 97, 119]

/-- The part after the last slash. -/
def baseName (path : List UInt8) : List UInt8 :=
  (path.reverse.takeWhile (· ≠ SLASH)).reverse

/-- The first `.zobj`, replaced by `.raw` if the text ends with it. -/
def replaceSuffix : List UInt8 → List UInt8
  | [] => []
  | c :: text =>
    if ZOBJ_SUFFIX.isPrefixOf (c :: text) then
      if c :: text = ZOBJ_SUFFIX then RAW_SUFFIX else c :: text
    else c :: replaceSuffix text

/-- The name of the output file, when it fits in 4096 characters. -/
def outputPath (inputPath outputDir : List UInt8) : Option (List UInt8) :=
  let name := SLASH :: baseName inputPath
  if (outputDir ++ name).length ≥ 4096 then none else some (outputDir ++ replaceSuffix name)

/-! ## The program -/

/-- The local variables of the frame loop, and what is in the output file. -/
structure LocalState (srcCapacity : Nat) where
  inputOffset : Nat
  outputSize : UInt64
  compressedSum : UInt64
  crc : UInt32
  written : List UInt8
  decompressor : DocaDecompressor srcCapacity

section

variable (z : Zlib) (device : Inflater) (io : FileIO) {srcCapacity : Nat}

/-- One pass of the frame loop; `none` is `status = -1`. -/
def localFrame (object : List UInt8) (frameIndex : Nat) (s : LocalState srcCapacity) :
    Option (LocalState srcCapacity) :=
  if s.inputOffset + frameHeaderSize > object.length then none
  else
    let frame := FrameHeader.ofBytes (slice object s.inputOffset frameHeaderSize)
    let inputOffset := s.inputOffset + frameHeaderSize
    if frame.rawSize = 0 ∨ frame.rawSize.toNat > FRAME_BYTES ∨
        inputOffset + frame.compressedSize.toNat > object.length then
      none
    else
      match decompressFrame device s.decompressor
          (slice object inputOffset frame.compressedSize.toNat) with
      | .error _ => none
      | .ok (frameOutputSize, decompressor) =>
        if frameOutputSize ≠ frame.rawSize.toNat then none
        else
          match fetch decompressor.dstMemory.data 0 frameOutputSize with
          | none => none
          | some output =>
            if io.writeOk frameIndex then
              some {
                inputOffset := inputOffset + frame.compressedSize.toNat
                outputSize := s.outputSize + UInt64.ofNat frameOutputSize
                compressedSum := s.compressedSum + frame.compressedSize.toUInt64
                crc := z.crc32 s.crc output
                written := s.written ++ output
                decompressor := decompressor }
            else none

/-- `count` passes of the frame loop from `frameIndex` on. -/
def localFrames (object : List UInt8) :
    Nat → Nat → LocalState srcCapacity → Option (LocalState srcCapacity)
  | 0, _, s => some s
  | count + 1, frameIndex, s =>
    match localFrame z device io object frameIndex s with
    | none => none
    | some s => localFrames object count (frameIndex + 1) s

/-- The state before the frame loop, with `crc32(0L, Z_NULL, 0)`. -/
def startLocal (decompressor : DocaDecompressor srcCapacity) : LocalState srcCapacity where
  inputOffset := objectHeaderSize
  outputSize := 0
  compressedSum := 0
  crc := z.crc32 0 []
  written := []
  decompressor := decompressor

/-- The part of `decompress_object` that the output file depends on: its
content and `output_size`, or `none` when the file is removed. -/
def localObject (object : List UInt8) (decompressor : DocaDecompressor srcCapacity) :
    Option (LocalState srcCapacity) :=
  let header := ObjectHeader.ofBytes (slice object 0 objectHeaderSize)
  match localFrames z device io object header.frameCount.toNat 0
      (startLocal z decompressor) with
  | none => none
  | some s =>
    if io.closeOk = false ∨ s.inputOffset ≠ object.length ∨
        s.outputSize ≠ header.rawSize ∨ s.compressedSum ≠ header.compressedSize ∨
        s.crc ≠ header.rawCrc32 then
      none
    else some s

/-- `read_file`: an empty file is refused. -/
def readFile (files : Pool) (path : List UInt8) : Option (List UInt8) :=
  match files path with
  | none => none
  | some data => if data = [] then none else some data

/-- `decompress_object`: the files, and `*raw_total` and the decompressor or the
reason of the failure. -/
def decompressObject (files : Pool) (decompressor : DocaDecompressor srcCapacity)
    (inputPath outputDir : List UInt8) (rawTotal : UInt64) :
    Pool × Except LocalError (UInt64 × DocaDecompressor srcCapacity) :=
  match readFile files inputPath with
  | none => (files, .error .readFile)
  | some object =>
    if object.length < objectHeaderSize then (files, .error .tooSmall)
    else if (ObjectHeader.ofBytes (slice object 0 objectHeaderSize)).Invalid then
      (files, .error .invalidHeader)
    else
      match outputPath inputPath outputDir with
      | none => (files, .error .pathTooLong)
      | some path =>
        if io.openOk = false then (files, .error .openOutput)
        else
          match localObject z device io object decompressor with
          | none => (Function.update files path none, .error .verification)
          | some s =>
            (Function.update files path (some s.written),
              .ok (rawTotal + s.outputSize, s.decompressor))

end

/-! ## The frame loop -/

section

variable {z : Zlib} {device : Inflater} {io : FileIO} {srcCapacity : Nat}

/-- `s'` is `s` after the frames `fs`. -/
structure LocalReads (z : Zlib) (s s' : LocalState srcCapacity) (fs : List Frame) : Prop where
  inputOffset_eq : s'.inputOffset = s.inputOffset + (packFrames fs).length
  outputSize_eq : s'.outputSize = s.outputSize + UInt64.ofNat (framesRaw fs).length
  compressedSum_eq : s'.compressedSum = s.compressedSum + UInt64.ofNat (streamTotal fs)
  crc_eq : ∀ done, s.crc = z.checksum done → s'.crc = z.checksum (done ++ framesRaw fs)
  written_eq : s'.written = s.written ++ framesRaw fs

theorem LocalReads.refl (s : LocalState srcCapacity) : LocalReads z s s [] where
  inputOffset_eq := rfl
  outputSize_eq := by simp [framesRaw]
  compressedSum_eq := by simp [streamTotal]
  crc_eq done h := by simp [framesRaw, h]
  written_eq := by simp [framesRaw]

theorem LocalReads.cons {s s₁ s' : LocalState srcCapacity} {f : Frame} {fs : List Frame}
    (hf : LocalReads z s s₁ [f]) (hfs : LocalReads z s₁ s' fs) :
    LocalReads z s s' (f :: fs) := by
  have happend : f :: fs = [f] ++ fs := rfl
  constructor
  · rw [hfs.inputOffset_eq, hf.inputOffset_eq, happend, packFrames_append, List.length_append,
      Nat.add_assoc]
  · rw [hfs.outputSize_eq, hf.outputSize_eq, happend, framesRaw_append, List.length_append,
      UInt64.ofNat_add, UInt64.add_assoc]
  · rw [hfs.compressedSum_eq, hf.compressedSum_eq, happend, streamTotal_append, UInt64.ofNat_add,
      UInt64.add_assoc]
  · intro done hdone
    rw [hfs.crc_eq _ (hf.crc_eq done hdone), happend, framesRaw_append, List.append_assoc]
  · rw [hfs.written_eq, hf.written_eq, happend, framesRaw_append, List.append_assoc]

/-- The state that a pass leaves. -/
theorem localReads_frame (hz : z.Crc32Append) {s : LocalState srcCapacity} {f : Frame}
    {compressedSize : UInt32} (decompressor : DocaDecompressor srcCapacity)
    (hsize : compressedSize.toNat = f.stream.length) :
    LocalReads z s
      { inputOffset := s.inputOffset + frameHeaderSize + compressedSize.toNat
        outputSize := s.outputSize + UInt64.ofNat f.raw.length
        compressedSum := s.compressedSum + compressedSize.toUInt64
        crc := z.crc32 s.crc f.raw
        written := s.written ++ f.raw
        decompressor := decompressor } [f] := by
  constructor
  · rw [length_packFrames_singleton, hsize, Nat.add_assoc]
  · rw [framesRaw_singleton]
  · rw [toUInt64_eq_streamTotal hsize]
  · intro done hdone
    show z.crc32 s.crc f.raw = _
    rw [hdone, Zlib.checksum, Zlib.checksum, hz, framesRaw_singleton]
  · rw [framesRaw_singleton]

/-- A good frame passes every check. -/
theorem localFrame_ok (hz : z.Crc32Append) (hio : io.Succeeds) {object : List UInt8}
    {s : LocalState srcCapacity} {f : Frame} (frameIndex : Nat)
    (hat : FrameAt (docaDecoder device srcCapacity) object s.inputOffset f) :
    ∃ s', localFrame z device io object frameIndex s = some s' ∧ LocalReads z s s' [f] := by
  have hheader := hat.ofBytes_slice
  obtain ⟨hok, hle, -, hstream⟩ := hat
  have hraw := hok.rawSize_toNat
  have hcompressed := hok.compressedSize_toNat
  have hchecks : ¬ (f.header.rawSize = 0 ∨ f.header.rawSize.toNat > FRAME_BYTES ∨
      s.inputOffset + frameHeaderSize + f.header.compressedSize.toNat > object.length) := by
    have hraw_le := hok.raw_le
    simp only [hok.rawSize_ne_zero, false_or, hraw, hcompressed]
    omega
  obtain ⟨hmax, hinflate⟩ := docaDecoder_eq_some_iff.mp hok.decode_eq
  obtain ⟨d, hone, hfetch⟩ := inflateOne_ok s.decompressor hok.stream_min hmax hinflate
  rw [← hcompressed] at hstream
  have hfits : ¬ s.inputOffset + frameHeaderSize > object.length := by omega
  refine ⟨_, ?_, localReads_frame hz d hcompressed⟩
  simp only [localFrame, if_neg hfits, hheader]
  rw [if_neg hchecks]
  simp only [hstream, decompressFrame, hone, hraw, hfetch, hio.writeOk, ne_eq,
    not_true_eq_false, if_false, if_true]

/-- A frame that passes every check is good. -/
theorem localFrame_inv (hz : z.Crc32Append) {object : List UInt8}
    {s s' : LocalState srcCapacity} {frameIndex : Nat}
    (h : localFrame z device io object frameIndex s = some s') :
    ∃ f, FrameAt (docaDecoder device srcCapacity) object s.inputOffset f ∧
      LocalReads z s s' [f] := by
  unfold localFrame at h
  simp only at h
  split at h
  · cases h
  · split at h
    · cases h
    · rename_i hchecks
      split at h
      · cases h
      · rename_i outputSize decompressor hone
        split at h
        · cases h
        · rename_i hlen
          split at h
          · cases h
          · rename_i output hfetch
            split at h
            · cases h
              obtain ⟨hmin, hmax, output', hinflate, rfl, hfetch'⟩ := inflateOne_inv hone
              rw [hfetch] at hfetch'
              cases hfetch'
              rw [ne_eq, Decidable.not_not] at hlen
              simp only [not_or] at hchecks
              obtain ⟨hpos, hraw, hle⟩ := hchecks
              have hstream := length_slice (Nat.le_of_not_gt hle)
              rw [hstream] at hmin
              exact ⟨⟨output, _⟩, frameAt_of_checks rfl hpos (Nat.le_of_not_gt hraw) hmin
                (Nat.le_of_not_gt hle) (docaDecoder_eq_some_iff.mpr ⟨hmax, hinflate⟩) hlen,
                localReads_frame (f := ⟨output, _⟩) hz decompressor hstream.symm⟩
            · cases h

/-- Good frames are all written. -/
theorem localFrames_ok (hz : z.Crc32Append) (hio : io.Succeeds) {object : List UInt8}
    {fs : List Frame} {s : LocalState srcCapacity} (frameIndex : Nat)
    (hat : FramesAt (docaDecoder device srcCapacity) object s.inputOffset fs) :
    ∃ s', localFrames z device io object fs.length frameIndex s = some s' ∧
      LocalReads z s s' fs := by
  induction fs generalizing s frameIndex with
  | nil => exact ⟨s, rfl, LocalReads.refl s⟩
  | cons f fs ih =>
    obtain ⟨s₁, hone, hs₁⟩ := localFrame_ok hz hio frameIndex hat.1
    have hoff : s₁.inputOffset = s.inputOffset + frameHeaderSize + f.stream.length := by
      rw [hs₁.inputOffset_eq, length_packFrames_singleton, Nat.add_assoc]
    obtain ⟨s', hrest, hs'⟩ := ih (frameIndex + 1) (by rw [hoff]; exact hat.2)
    refine ⟨s', ?_, hs₁.cons hs'⟩
    simp only [List.length_cons, localFrames, hone, hrest]

/-- The frames of a loop that comes to its end are good. -/
theorem localFrames_inv (hz : z.Crc32Append) {object : List UInt8} {count frameIndex : Nat}
    {s s' : LocalState srcCapacity}
    (h : localFrames z device io object count frameIndex s = some s') :
    ∃ fs, fs.length = count ∧
      FramesAt (docaDecoder device srcCapacity) object s.inputOffset fs ∧
      LocalReads z s s' fs := by
  induction count generalizing frameIndex s with
  | zero =>
    cases h
    exact ⟨[], rfl, trivial, LocalReads.refl _⟩
  | succ count ih =>
    rw [localFrames] at h
    split at h
    · cases h
    · rename_i s₁ hone
      obtain ⟨f, hf, hs₁⟩ := localFrame_inv hz hone
      obtain ⟨fs, hlen, hfs, hs'⟩ := ih h
      have hoff : s₁.inputOffset = s.inputOffset + frameHeaderSize + f.stream.length := by
        rw [hs₁.inputOffset_eq, length_packFrames_singleton, Nat.add_assoc]
      rw [hoff] at hfs
      exact ⟨f :: fs, by rw [List.length_cons, hlen], ⟨hf, hfs⟩, hs₁.cons hs'⟩

/-! ## The object -/

/-- An object of well-formed frames is decompressed. -/
theorem localObject_packObject (hz : z.Crc32Append) (hio : io.Succeeds) {fs : List Frame}
    (hfs : WellFormed (docaDecoder device srcCapacity) fs)
    (decompressor : DocaDecompressor srcCapacity) :
    ∃ s, localObject z device io (packObject z.checksum fs) decompressor = some s ∧
      s.written = framesRaw fs ∧ s.outputSize = (frameListHeader z.checksum fs).rawSize := by
  have hat : FramesAt (docaDecoder device srcCapacity) (packObject z.checksum fs)
      objectHeaderSize fs := framesAt_packObject hfs
  obtain ⟨s, hrun, hs⟩ := localFrames_ok hz hio 0 (s := startLocal z decompressor) hat
  have hoff : s.inputOffset = (packObject z.checksum fs).length := by
    rw [hs.inputOffset_eq, length_packObject]
    rfl
  have hsize : s.outputSize = (frameListHeader z.checksum fs).rawSize := by
    rw [hs.outputSize_eq]
    exact UInt64.zero_add _
  have hsum : s.compressedSum = (frameListHeader z.checksum fs).compressedSize := by
    rw [hs.compressedSum_eq]
    exact UInt64.zero_add _
  have hcrc : s.crc = (frameListHeader z.checksum fs).rawCrc32 := hs.crc_eq [] rfl
  refine ⟨s, ?_, hs.written_eq, hsize⟩
  simp only [localObject, ofBytes_packObject, hfs.frameCount_toNat, hrun]
  simp [hio.closeOk, hoff, hsize, hsum, hcrc]

/-- Whatever passes the checks is an object of well-formed frames. -/
theorem localObject_inv (hz : z.Crc32Append) {object : List UInt8}
    {decompressor : DocaDecompressor srcCapacity} {s : LocalState srcCapacity}
    (hmin : ¬ object.length < objectHeaderSize)
    (hheader : ¬ (ObjectHeader.ofBytes (slice object 0 objectHeaderSize)).Invalid)
    (h : localObject z device io object decompressor = some s) :
    ∃ fs, WellFormed (docaDecoder device srcCapacity) fs ∧ object = packObject z.checksum fs := by
  unfold localObject at h
  simp only at h
  split at h
  · cases h
  rename_i s₁ hrun
  split at h
  · cases h
  rename_i hchecks
  cases h
  simp only [ObjectHeader.Invalid, not_or, ne_eq, Decidable.not_not] at hheader hchecks
  obtain ⟨hmagic, hversion, hraw, hnz, hcount⟩ := hheader
  obtain ⟨-, hend, hsize, hsum, hcrc⟩ := hchecks
  obtain ⟨fs, hlen, hat, hs⟩ := localFrames_inv hz hrun
  have hbound := length_framesRaw_le (fun f hf => (hat.frameOk f hf).raw_le)
    (by rw [hlen]; exact Nat.le_of_not_gt hcount)
  have hoff : objectHeaderSize + (packFrames fs).length = object.length := by
    rw [← hend, hs.inputOffset_eq]
    rfl
  have hsize' : (ObjectHeader.ofBytes (slice object 0 objectHeaderSize)).rawSize =
      UInt64.ofNat (framesRaw fs).length := by
    rw [← hsize, hs.outputSize_eq]
    exact UInt64.zero_add _
  have hsum' : (ObjectHeader.ofBytes (slice object 0 objectHeaderSize)).compressedSize =
      UInt64.ofNat (streamTotal fs) := by
    rw [← hsum, hs.compressedSum_eq]
    exact UInt64.zero_add _
  refine ⟨fs, ⟨?_, ?_, hbound, hat.frameOk⟩, ?_⟩
  · rintro rfl
    exact hnz (UInt32.toNat_inj.mp hlen.symm)
  · rw [hlen]
    exact Nat.le_of_not_gt hcount
  · refine eq_packObject (Nat.le_of_not_lt hmin) ?_ hat hoff
    refine eq_frameListHeader hmagic hversion ?_ hsum' ?_ hlen.symm
    · rw [hsize', UInt64.toNat_ofNat_of_lt' (Nat.lt_of_le_of_lt hbound (by decide))]
    · rw [← hcrc]
      exact hs.crc_eq [] rfl

/-- `decompress_object` on an object of well-formed frames. -/
theorem decompressObject_packObject (hz : z.Crc32Append) (hio : io.Succeeds) {fs : List Frame}
    (hfs : WellFormed (docaDecoder device srcCapacity) fs) {files : Pool}
    {inputPath outputDir path : List UInt8}
    (hfile : files inputPath = some (packObject z.checksum fs))
    (hpath : outputPath inputPath outputDir = some path)
    (decompressor : DocaDecompressor srcCapacity) (rawTotal : UInt64) :
    ∃ d, decompressObject z device io files decompressor inputPath outputDir rawTotal =
      (Function.update files path (some (framesRaw fs)),
        .ok (rawTotal + UInt64.ofNat (framesRaw fs).length, d)) := by
  obtain ⟨s, hobject, hwritten, hsize⟩ := localObject_packObject hz hio hfs decompressor
  have hne := packObject_ne_nil z.checksum fs
  have hmin := not_length_packObject_lt z.checksum fs
  refine ⟨s.decompressor, ?_⟩
  simp only [decompressObject, readFile, hfile, if_neg hne, if_neg hmin, ofBytes_packObject,
    if_neg (hfs.not_invalid z.checksum), hpath, hio.openOk, Bool.true_eq_false, if_false,
    hobject, hwritten, hsize]
  rfl

/-- What `decompress_object` accepts. -/
theorem decompressObject_inv (hz : z.Crc32Append) {files : Pool} {object : List UInt8}
    {inputPath outputDir : List UInt8} {decompressor d : DocaDecompressor srcCapacity}
    {rawTotal total : UInt64} (hfile : files inputPath = some object)
    (h : (decompressObject z device io files decompressor inputPath outputDir rawTotal).2 =
      .ok (total, d)) :
    ∃ fs, WellFormed (docaDecoder device srcCapacity) fs ∧ object = packObject z.checksum fs := by
  unfold decompressObject at h
  split at h
  · cases h
  rename_i object' hread
  have hobject : object' = object := by
    unfold readFile at hread
    rw [hfile] at hread
    simp only at hread
    split at hread
    · cases hread
    · exact (Option.some.inj hread).symm
  subst hobject
  split at h
  · cases h
  rename_i hmin
  split at h
  · cases h
  rename_i hheader
  split at h
  · cases h
  split at h
  · cases h
  split at h
  · cases h
  rename_i s hlocal
  exact localObject_inv hz hmin hheader hlocal

end

/-- The local decompressor and the read loop with method `doca` accept the same
objects, and then they agree on the content and add the same size. -/
theorem decompressObject_iff_readNext {z : Zlib} {device : Inflater} (hz : z.Crc32Append)
    {io : FileIO} (hio : io.Succeeds) {object : List UInt8}
    (hlen : object.length ≤ objectCapacity z) {files pool : Pool}
    {inputPath outputDir path pfx : List UInt8} {index : UInt64}
    (hfile : files inputPath = some object) (hpath : outputPath inputPath outputDir = some path)
    (hpool : pool (objectName pfx index) = some object)
    (decompressor : DocaDecompressor (z.compressBound FRAME_BYTES)) (rawTotal : UInt64)
    (r : Reader (z.compressBound FRAME_BYTES)) :
    ((∃ total d, (decompressObject z device io files decompressor inputPath outputDir
        rawTotal).2 = .ok (total, d)) ↔
      ∃ r', readNext z device .doca pool pfx (objectCapacity z) index r = .ok r') ∧
    ∀ total d r',
      (decompressObject z device io files decompressor inputPath outputDir rawTotal).2 =
        .ok (total, d) →
      readNext z device .doca pool pfx (objectCapacity z) index r = .ok r' →
      ∃ outputSize,
        (decompressObject z device io files decompressor inputPath outputDir rawTotal).1 path =
          some (r'.outputBuffer.data.take outputSize) ∧
        r'.delivered = r.delivered ++ [r'.outputBuffer.data.take outputSize] ∧
        total = rawTotal + UInt64.ofNat outputSize ∧
        r'.result.rawBytes = r.result.rawBytes + UInt64.ofNat outputSize := by
  have hknown : ReadMethod.doca ≠ .unknown := by decide
  refine ⟨⟨?_, ?_⟩, ?_⟩
  · rintro ⟨total, d, hlocal⟩
    obtain ⟨fs, hfs, hobject⟩ := decompressObject_inv hz hfile hlocal
    rw [hobject] at hpool hlen
    have hfs' : WellFormed (ReadMethod.doca.decode z device (z.compressBound FRAME_BYTES)) fs :=
      hfs
    obtain ⟨r', hread, -⟩ := readNext_packObject hfs' hknown hpool hlen r
    exact ⟨r', hread⟩
  · rintro ⟨r', hread⟩
    obtain ⟨-, fs, hfs, hobject⟩ := readNext_inv hpool hlen hread
    rw [hobject] at hfile
    obtain ⟨d, hlocal⟩ := decompressObject_packObject hz hio hfs hfile hpath decompressor rawTotal
    rw [hlocal]
    exact ⟨_, d, rfl⟩
  · intro total d r' hlocal hread
    obtain ⟨fs, hfs, hobject⟩ := decompressObject_inv hz hfile hlocal
    rw [hobject] at hfile hpool hlen
    have hfs' : WellFormed (ReadMethod.doca.decode z device (z.compressBound FRAME_BYTES)) fs :=
      hfs
    obtain ⟨r₁, hread₁, hout, hdelivered, hresult⟩ :=
      readNext_packObject hfs' hknown hpool hlen r
    obtain ⟨d₁, hlocal₁⟩ :=
      decompressObject_packObject hz hio hfs hfile hpath decompressor rawTotal
    rw [hread] at hread₁
    cases hread₁
    rw [hlocal₁] at hlocal ⊢
    cases hlocal
    refine ⟨(framesRaw fs).length, ?_, ?_, rfl, ?_⟩
    · rw [hout]
      exact Function.update_self ..
    · rw [hout]
      exact hdelivered
    · rw [hresult]
      rfl

theorem decompressObject_iff_readNext_a :
    (∃ total d, (decompressObject storedZlib storedInflater ⟨true, fun _ => true, true⟩ poolOfA
        (.init (storedZlib.compressBound FRAME_BYTES)) [97, 46, 122, 111, 98, 106] [111] 5).2 =
          .ok (total, d)) ↔
      ∃ r', readNext storedZlib storedInflater .doca poolOfA [0x70] (objectCapacity storedZlib) 0
        ⟨.zeroed OBJECT_BYTES, .init (storedZlib.compressBound FRAME_BYTES), .zero, []⟩ =
          .ok r' := by
  have hlen : objectOfA.length ≤ objectCapacity storedZlib := by decide
  have hpath : outputPath [97, 46, 122, 111, 98, 106] [111] =
      some [111, 47, 97, 46, 114, 97, 119] := by decide
  have hio : FileIO.Succeeds ⟨true, fun _ => true, true⟩ := ⟨rfl, fun _ => rfl, rfl⟩
  have hfile : poolOfA [97, 46, 122, 111, 98, 106] = some objectOfA := rfl
  have hpool : poolOfA (objectName [0x70] 0) = some objectOfA := rfl
  exact (decompressObject_iff_readNext storedZlib_crc32Append hio hlen hfile hpath hpool _ 5 _).1

end DpuTest.ReadBench
