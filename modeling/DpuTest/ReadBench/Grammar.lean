import DpuTest.ReadBench.ReadMethod
import DpuTest.ReadBench.StoredZlib

/-!
# The grammar of version 2

The format is given here as a grammar that mentions no reader: an object header,
and one to `MAX_FRAMES` frames, each of which is a frame header and exactly as
many payload bytes as it says.  `GrammarObject.Parses` lists what ties the
fields to each other, and `uncompress` decides what a payload stands for.

* `parses_packObject` and `GrammarObject.Parses.wellFormed` connect the grammar
  with `packObject`.
* `readNext_cpu_iff_parses` says that the reader accepts the grammar and nothing
  else, and that an object has one decomposition at most.
-/

namespace DpuTest.ReadBench

open Lib

/-- A frame: its header, its payload and the output of the payload. -/
structure GrammarFrame where
  header : FrameHeader
  payload : List UInt8
  output : List UInt8

/-- A decomposition of an object. -/
structure GrammarObject where
  header : ObjectHeader
  frames : List GrammarFrame

def GrammarFrame.bytes (f : GrammarFrame) : List UInt8 := f.header.bytes ++ f.payload

def GrammarObject.bytes (g : GrammarObject) : List UInt8 :=
  g.header.bytes ++ (g.frames.map GrammarFrame.bytes).flatten

/-- The outputs one behind the other. -/
def GrammarObject.output (g : GrammarObject) : List UInt8 :=
  (g.frames.map GrammarFrame.output).flatten

/-- What holds of every frame. -/
structure GrammarFrame.Valid (z : Zlib) (f : GrammarFrame) : Prop where
  raw_pos : 1 ≤ f.header.rawSize.toNat
  raw_le : f.header.rawSize.toNat ≤ FRAME_BYTES
  compressed_min : 6 ≤ f.header.compressedSize.toNat
  payload_length : f.payload.length = f.header.compressedSize.toNat
  uncompress_eq : z.uncompress f.header.rawSize.toNat f.payload = some f.output
  output_length : f.output.length = f.header.rawSize.toNat

/-- `g` is a decomposition of `object`. -/
structure GrammarObject.Parses (z : Zlib) (object : List UInt8) (g : GrammarObject) :
    Prop where
  bytes_eq : object = g.bytes
  magic_eq : g.header.magic = OBJECT_MAGIC
  version_eq : g.header.version = FORMAT_VERSION
  frameCount_eq : g.header.frameCount.toNat = g.frames.length
  frames_pos : 1 ≤ g.frames.length
  frames_le : g.frames.length ≤ MAX_FRAMES
  valid : ∀ f ∈ g.frames, f.Valid z
  compressedSize_eq : g.header.compressedSize.toNat =
    (g.frames.map fun f => f.header.compressedSize.toNat).sum
  rawSize_eq : g.header.rawSize.toNat = (g.frames.map fun f => f.header.rawSize.toNat).sum
  rawCrc32_eq : g.header.rawCrc32 = z.checksum g.output

/-! ## The grammar and `packObject` -/

/-- The frame of the format without its header. -/
def GrammarFrame.frame (f : GrammarFrame) : Frame where
  raw := f.output
  stream := f.payload

def Frame.grammarFrame (f : Frame) : GrammarFrame where
  header := f.header
  payload := f.stream
  output := f.raw

section

variable {z : Zlib}

theorem packFrames_eq_flatten (fs : List Frame) :
    packFrames fs = ((fs.map Frame.grammarFrame).map GrammarFrame.bytes).flatten := by
  induction fs with
  | nil => rfl
  | cons f fs ih =>
    rw [packFrames, ih, ← List.append_assoc]
    rfl

/-- The header says what the lengths of the frame are. -/
theorem GrammarFrame.Valid.header_eq {f : GrammarFrame} (h : f.Valid z) :
    f.frame.header = f.header := by
  rw [Frame.header]
  show FrameHeader.mk (UInt32.ofNat f.output.length) (UInt32.ofNat f.payload.length) = f.header
  rw [h.output_length, h.payload_length, UInt32.ofNat_toNat, UInt32.ofNat_toNat]

theorem GrammarFrame.Valid.grammarFrame_frame {f : GrammarFrame} (h : f.Valid z) :
    f.frame.grammarFrame = f := by
  have hheader := h.header_eq
  cases f
  simp only [Frame.grammarFrame, hheader]
  rfl

theorem GrammarFrame.Valid.frameOk {f : GrammarFrame} (h : f.Valid z) :
    FrameOk z.uncompress f.frame where
  raw_pos := by
    show 0 < f.output.length
    rw [h.output_length]
    exact h.raw_pos
  raw_le := by
    show f.output.length ≤ FRAME_BYTES
    rw [h.output_length]
    exact h.raw_le
  stream_min := by
    show 6 ≤ f.payload.length
    rw [h.payload_length]
    exact h.compressed_min
  stream_lt := by
    show f.payload.length < 2 ^ 32
    rw [h.payload_length]
    exact f.header.compressedSize.toNat_lt
  decode_eq := by
    show z.uncompress f.output.length f.payload = some f.output
    rw [h.output_length]
    exact h.uncompress_eq

theorem FrameOk.valid {f : Frame} (h : FrameOk z.uncompress f) : f.grammarFrame.Valid z where
  raw_pos := by
    show 1 ≤ f.header.rawSize.toNat
    rw [h.rawSize_toNat]
    exact h.raw_pos
  raw_le := by
    show f.header.rawSize.toNat ≤ FRAME_BYTES
    rw [h.rawSize_toNat]
    exact h.raw_le
  compressed_min := by
    show 6 ≤ f.header.compressedSize.toNat
    rw [h.compressedSize_toNat]
    exact h.stream_min
  payload_length := h.compressedSize_toNat.symm
  uncompress_eq := by
    show z.uncompress f.header.rawSize.toNat f.stream = some f.raw
    rw [h.rawSize_toNat]
    exact h.decode_eq
  output_length := h.rawSize_toNat.symm

/-- The decomposition that the frames of `packObject` give. -/
def grammarOf (z : Zlib) (fs : List Frame) : GrammarObject where
  header := frameListHeader z.checksum fs
  frames := fs.map Frame.grammarFrame

theorem output_grammarOf (fs : List Frame) : (grammarOf z fs).output = framesRaw fs := by
  rw [GrammarObject.output, grammarOf, List.map_map]
  rfl

/-- The streams of a list of frames that a header can count. -/
theorem streamTotal_lt {fs : List Frame} (hfs : WellFormed z.uncompress fs) :
    streamTotal fs < 2 ^ 64 := by
  have hle : streamTotal fs ≤ fs.length * 2 ^ 32 := by
    have hstreams : ∀ stream ∈ fs.map Frame.stream, stream.length ≤ 2 ^ 32 := by
      intro stream hmem
      obtain ⟨f, hf, rfl⟩ := List.mem_map.mp hmem
      exact Nat.le_of_lt (hfs.frames f hf).stream_lt
    have hflat := length_flatten_le hstreams
    rw [List.length_flatten, List.map_map, List.length_map] at hflat
    exact hflat
  have hmax : MAX_FRAMES = 4 := by decide
  have hlen := hfs.length_le
  omega

/-- Well-formed frames decompose the object that they are packed to. -/
theorem parses_packObject {fs : List Frame} (hfs : WellFormed z.uncompress fs) :
    (grammarOf z fs).Parses z (packObject z.checksum fs) where
  bytes_eq := by
    rw [packObject, packFrames_eq_flatten]
    rfl
  magic_eq := rfl
  version_eq := rfl
  frameCount_eq := by
    rw [grammarOf, List.length_map]
    exact hfs.frameCount_toNat z.checksum
  frames_pos := by
    rw [grammarOf, List.length_map]
    exact List.length_pos_iff.mpr hfs.ne_nil
  frames_le := by
    rw [grammarOf, List.length_map]
    exact hfs.length_le
  valid := by
    intro g hg
    obtain ⟨f, hf, rfl⟩ := List.mem_map.mp hg
    exact (hfs.frames f hf).valid
  compressedSize_eq := by
    have hsizes : (fs.map Frame.grammarFrame).map (fun f => f.header.compressedSize.toNat) =
        fs.map (fun f => f.stream.length) := by
      rw [List.map_map]
      apply List.map_congr_left
      intro f hf
      exact (hfs.frames f hf).compressedSize_toNat
    show (UInt64.ofNat (streamTotal fs)).toNat = _
    rw [UInt64.toNat_ofNat_of_lt' (streamTotal_lt hfs), grammarOf, hsizes, streamTotal]
  rawSize_eq := by
    have hsizes : (fs.map Frame.grammarFrame).map (fun f => f.header.rawSize.toNat) =
        (fs.map Frame.raw).map List.length := by
      rw [List.map_map, List.map_map]
      apply List.map_congr_left
      intro f hf
      exact (hfs.frames f hf).rawSize_toNat
    rw [grammarOf, hsizes, ← List.length_flatten]
    exact hfs.rawSize_toNat z.checksum
  rawCrc32_eq := by
    rw [output_grammarOf]
    rfl

namespace GrammarObject.Parses

variable {object : List UInt8} {g g' : GrammarObject}

theorem output_eq (g : GrammarObject) :
    framesRaw (g.frames.map GrammarFrame.frame) = g.output := by
  rw [framesRaw, GrammarObject.output, List.map_map]
  rfl

/-- The frames of a decomposition are well formed. -/
theorem wellFormed (h : g.Parses z object) :
    WellFormed z.uncompress (g.frames.map GrammarFrame.frame) := by
  have hframes : ∀ f ∈ g.frames.map GrammarFrame.frame, FrameOk z.uncompress f := by
    intro frame hframe
    obtain ⟨f, hf, rfl⟩ := List.mem_map.mp hframe
    exact (h.valid f hf).frameOk
  have hlen : (g.frames.map GrammarFrame.frame).length ≤ MAX_FRAMES := by
    rw [List.length_map]
    exact h.frames_le
  have hraw : (framesRaw (g.frames.map GrammarFrame.frame)).length ≤ OBJECT_BYTES :=
    length_framesRaw_le (fun f hf => (hframes f hf).raw_le) hlen
  refine ⟨?_, hlen, hraw, hframes⟩
  intro hnil
  have hpos := h.frames_pos
  rw [List.map_eq_nil_iff.mp hnil] at hpos
  exact absurd hpos (by decide)

theorem map_grammarFrame_frame (h : g.Parses z object) :
    (g.frames.map GrammarFrame.frame).map Frame.grammarFrame = g.frames := by
  have hid : (g.frames.map GrammarFrame.frame).map Frame.grammarFrame = g.frames.map id := by
    rw [List.map_map, List.map_inj_left]
    intro f hf
    exact (h.valid f hf).grammarFrame_frame
  rw [hid, List.map_id]

/-- The header of a decomposition is the header of its frames. -/
theorem header_eq (h : g.Parses z object) :
    g.header = frameListHeader z.checksum (g.frames.map GrammarFrame.frame) := by
  have hraw : (g.frames.map GrammarFrame.output).map List.length =
      g.frames.map (fun f => f.header.rawSize.toNat) := by
    rw [List.map_map]
    apply List.map_congr_left
    intro f hf
    exact (h.valid f hf).output_length
  have hpayload : (g.frames.map GrammarFrame.frame).map (fun f => f.stream.length) =
      g.frames.map (fun f => f.header.compressedSize.toNat) := by
    rw [List.map_map]
    apply List.map_congr_left
    intro f hf
    exact (h.valid f hf).payload_length
  apply eq_frameListHeader h.magic_eq h.version_eq
  · rw [h.rawSize_eq, output_eq, GrammarObject.output, List.length_flatten, hraw]
  · rw [streamTotal, hpayload, ← h.compressedSize_eq, UInt64.ofNat_toNat]
  · rw [h.rawCrc32_eq, output_eq]
  · rw [h.frameCount_eq, List.length_map]

/-- A decomposed object is packed from its frames. -/
theorem eq_packObject (h : g.Parses z object) :
    object = packObject z.checksum (g.frames.map GrammarFrame.frame) := by
  rw [packObject, packFrames_eq_flatten, h.map_grammarFrame_frame, ← h.header_eq]
  exact h.bytes_eq

end GrammarObject.Parses

/-! ## One decomposition at most -/

/-- The first frame of some bytes is determined by them. -/
theorem GrammarFrame.Valid.eq_of_append {f f' : GrammarFrame} (h : f.Valid z)
    (h' : f'.Valid z) {rest rest' : List UInt8}
    (heq : f.bytes ++ rest = f'.bytes ++ rest') : f = f' ∧ rest = rest' := by
  rw [bytes, bytes, List.append_assoc, List.append_assoc] at heq
  obtain ⟨hbytes, hpayloads⟩ := List.append_inj heq (by simp)
  have hheader : f.header = f'.header := by
    rw [← FrameHeader.ofBytes_bytes f.header, hbytes, FrameHeader.ofBytes_bytes]
  obtain ⟨hpayload, hrest⟩ := List.append_inj hpayloads (by
    rw [h.payload_length, h'.payload_length, hheader])
  have houtput : f.output = f'.output := by
    have hone := h.uncompress_eq
    rw [hheader, hpayload, h'.uncompress_eq] at hone
    exact (Option.some.inj hone).symm
  refine ⟨?_, hrest⟩
  cases f
  cases f'
  simp only at hheader hpayload houtput
  rw [hheader, hpayload, houtput]

theorem frames_eq_of_flatten {fs fs' : List GrammarFrame} (h : ∀ f ∈ fs, f.Valid z)
    (h' : ∀ f ∈ fs', f.Valid z) (hlen : fs.length = fs'.length)
    (heq : (fs.map GrammarFrame.bytes).flatten = (fs'.map GrammarFrame.bytes).flatten) :
    fs = fs' := by
  induction fs generalizing fs' with
  | nil => exact (List.length_eq_zero_iff.mp hlen.symm).symm
  | cons f fs ih =>
    cases fs' with
    | nil => cases hlen
    | cons f' fs' =>
      rw [List.map_cons, List.map_cons, List.flatten_cons, List.flatten_cons] at heq
      obtain ⟨hf, hrest⟩ := (h f List.mem_cons_self).eq_of_append
        (h' f' List.mem_cons_self) heq
      have hfs := ih (fun g hg => h g (List.mem_cons_of_mem _ hg))
        (fun g hg => h' g (List.mem_cons_of_mem _ hg)) (Nat.succ.inj hlen) hrest
      rw [hf, hfs]

/-- The decomposition of an object is determined by its bytes. -/
theorem GrammarObject.Parses.unique {object : List UInt8} {g g' : GrammarObject}
    (h : g.Parses z object) (h' : g'.Parses z object) : g = g' := by
  have heq : g.bytes = g'.bytes := h.bytes_eq.symm.trans h'.bytes_eq
  obtain ⟨hbytes, hframes⟩ := List.append_inj heq (by simp)
  have hheader : g.header = g'.header := by
    rw [← ObjectHeader.ofBytes_bytes g.header, hbytes, ObjectHeader.ofBytes_bytes]
  have hlen : g.frames.length = g'.frames.length := by
    rw [← h.frameCount_eq, ← h'.frameCount_eq, hheader]
  have hfs := frames_eq_of_flatten h.valid h'.valid hlen hframes
  cases g
  cases g'
  simp only at hheader hfs
  rw [hheader, hfs]

/-! ## The reader -/

/-- The reader with the method `cpu` accepts an object exactly when the grammar
does, and the grammar is unambiguous. -/
theorem readNext_cpu_iff_parses (z : Zlib) (device : Inflater) {srcCapacity : Nat}
    (pool : Pool) (pfx : List UInt8) (readCapacity : Nat) (index : UInt64)
    (r : Reader srcCapacity) {object : List UInt8}
    (hpool : pool (objectName pfx index) = some object)
    (hcap : object.length ≤ readCapacity) :
    ((∃ r', readNext z device .cpu pool pfx readCapacity index r = .ok r') ↔
        ∃ g : GrammarObject, g.Parses z object) ∧
      ∀ g g' : GrammarObject, g.Parses z object → g'.Parses z object → g = g' := by
  refine ⟨⟨?_, ?_⟩, fun g g' h h' => h.unique h'⟩
  · rintro ⟨r', hread⟩
    obtain ⟨-, fs, hfs, rfl⟩ := readNext_inv hpool hcap hread
    exact ⟨grammarOf z fs, parses_packObject hfs⟩
  · rintro ⟨g, hg⟩
    rw [hg.eq_packObject] at hpool hcap
    have hfs : WellFormed (ReadMethod.cpu.decode z device srcCapacity)
        (g.frames.map GrammarFrame.frame) := hg.wellFormed
    obtain ⟨r', hread, -⟩ := readNext_packObject hfs (by decide) hpool hcap r
    exact ⟨r', hread⟩

/-- The object of the one byte `a`. -/
theorem readNext_cpu_iff_parses_a :
    ((∃ r', readNext storedZlib storedInflater .cpu poolOfA [0x70] (objectCapacity storedZlib) 0
          ⟨.zeroed OBJECT_BYTES, .init (storedZlib.compressBound FRAME_BYTES), .zero, []⟩ =
            .ok r') ↔
        ∃ g : GrammarObject, g.Parses storedZlib objectOfA) ∧
      ∀ g g' : GrammarObject, g.Parses storedZlib objectOfA → g'.Parses storedZlib objectOfA →
        g = g' :=
  readNext_cpu_iff_parses storedZlib storedInflater poolOfA [0x70] (objectCapacity storedZlib) 0 _
    rfl (by decide)

end

end DpuTest.ReadBench
