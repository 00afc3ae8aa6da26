import DpuTest.CephCompress.SampleZlib

/-!
# The compressor and the two decompressors

`compressor.c` and `decompressorStream.c` pass a file through a zlib stream,
`CHUNK` bytes in and at most `CHUNK` bytes out at a time: an inner loop drains
the output of one piece of input, and an outer loop reads the next piece.
`decompressorOneshot.c` reads the whole file and takes fifty times its size as
the space for the output.

`deflateFile_stream` says that what the compressor writes is a stream of its
input.  `inflateFile_stream` says that the streaming decompressor ends and gives
the input back: in a pass of the outer loop the inner loop uses up the piece, and
the end of the stream is reported with the last piece.  `decompress_deflated`
puts the three together: the one-shot decompressor gives the input back exactly
when it fits into the space.

The loops get fuel.  Reads and writes of the files succeed.
-/

namespace DpuTest.CephCompress

def CHUNK : Nat := 16384

theorem CHUNK_pos : 0 < CHUNK := by decide

section

variable (z : ZStreams)

/-- The inner loop of `deflate_file`: the state of the stream and the output
file. -/
def deflateInner (flush : Flush) : Nat → z.DeflateState → List UInt8 → List UInt8 →
    Option (z.DeflateState × List UInt8)
  | 0, _, _, _ => none
  | fuel + 1, s, input, dest =>
    let r := z.deflate s flush input CHUNK
    -- `while (strm.avail_out == 0)`
    if CHUNK - r.output.length = 0 then
      deflateInner flush fuel r.state (input.drop r.consumed) (dest ++ r.output)
    else some (r.state, dest ++ r.output)

/-- The outer loop of `deflate_file`.  `source` is what has not been read, and
`feof` holds after a read that comes up short. -/
def deflateOuter (innerFuel : Nat) : Nat → z.DeflateState → List UInt8 → List UInt8 →
    Option (List UInt8)
  | 0, _, _, _ => none
  | fuel + 1, s, source, dest =>
    let input := source.take CHUNK
    let flush := if input.length < CHUNK then Flush.finish else Flush.noFlush
    match deflateInner z flush innerFuel s input dest with
    | none => none
    | some (s, dest) =>
      if flush = .finish then some dest
      else deflateOuter innerFuel fuel s (source.drop CHUNK) dest

/-- `deflate_file(source, dest, level)`: what it has written when it returns
`Z_OK`. -/
def deflateFile (level : Int) (fuel : Nat) (source : List UInt8) : Option (List UInt8) :=
  deflateOuter z fuel fuel (z.deflateInit level) source []

/-- The inner loop of `inflate_file`: a return from within it, or how the last
call ended, with the output file. -/
def inflateInner : Nat → z.InflateState → List UInt8 → List UInt8 →
    Option (Except ZRet (ZRet × z.InflateState × List UInt8))
  | 0, _, _, _ => none
  | fuel + 1, s, input, dest =>
    let r := z.inflate s input CHUNK
    match r.ret with
    | .needDict => some (.error .dataError)
    | .dataError => some (.error .dataError)
    | .memError => some (.error .memError)
    | ret =>
      if CHUNK - r.output.length = 0 then
        inflateInner fuel r.state (input.drop r.consumed) (dest ++ r.output)
      else some (.ok (ret, r.state, dest ++ r.output))

/-- `return ret == Z_STREAM_END ? Z_OK : Z_DATA_ERROR;` -/
def inflateReturn (ret : ZRet) : ZRet := if ret = .streamEnd then .ok else .dataError

/-- The outer loop of `inflate_file`: what it returns, and the output file. -/
def inflateOuter (innerFuel : Nat) : Nat → ZRet → z.InflateState → List UInt8 → List UInt8 →
    Option (ZRet × List UInt8)
  | 0, _, _, _, _ => none
  | fuel + 1, ret, s, source, dest =>
    let input := source.take CHUNK
    if input = [] then some (inflateReturn ret, dest)
    else
      match inflateInner z innerFuel s input dest with
      | none => none
      | some (.error ret) => some (ret, dest)
      | some (.ok (ret, s, dest)) =>
        if ret = .streamEnd then some (inflateReturn ret, dest)
        else inflateOuter innerFuel fuel ret s (source.drop CHUNK) dest

/-- `inflate_file(source, dest)`. -/
def inflateFile (fuel : Nat) (source : List UInt8) : Option (ZRet × List UInt8) :=
  inflateOuter z fuel fuel .ok z.inflateInit source []

/-- `compressed_size * 50` as a `size_t`. -/
def uncompressedSize (source : List UInt8) : UInt64 := UInt64.ofNat source.length * 50

/-- `main` of `decompressorOneshot.c`, with the answers of `malloc`: the output
file, or `none` when it returns 1. -/
def decompressorOneshot (malloc : Nat → Bool) (source : List UInt8) : Option (List UInt8) :=
  if malloc source.length then
    if malloc (uncompressedSize source).toNat then
      z.uncompress (uncompressedSize source).toNat source
    else none
  else none

end

section

variable {z : ZStreams} {IsStream : List UInt8 → List UInt8 → Prop}

/-! ## Compression -/

/-- Without `Z_FINISH` the inner loop takes the piece. -/
theorem deflateInner_fed (hz : DeflateLaws z IsStream) {fuel : Nat} {s s' : z.DeflateState}
    {x input dest dest' : List UInt8} (hs : Fed z s x dest)
    (h : deflateInner z .noFlush fuel s input dest = some (s', dest')) :
    Fed z s' (x ++ input) dest' := by
  induction fuel generalizing s x input dest with
  | zero => cases h
  | succ fuel ih =>
    have hle := hz.output_le s .noFlush input CHUNK
    have hcall : Fed z (z.deflate s .noFlush input CHUNK).state
        (x ++ input.take (z.deflate s .noFlush input CHUNK).consumed)
        (dest ++ (z.deflate s .noFlush input CHUNK).output) := .call hs CHUNK_pos
    rw [deflateInner] at h
    split at h
    · have hrest := ih hcall h
      rw [List.append_assoc, List.take_append_drop] at hrest
      exact hrest
    · rename_i hspace
      have hshort : (z.deflate s .noFlush input CHUNK).output.length < CHUNK := by omega
      rw [List.take_of_length_le (hz.takes_input input hs hshort)] at hcall
      simp only [Option.some.injEq, Prod.mk.injEq] at h
      rw [← h.1, ← h.2]
      exact hcall

/-- With `Z_FINISH` it puts out the rest of the stream. -/
theorem deflateInner_finishing (hz : DeflateLaws z IsStream) {fuel : Nat} {s s' : z.DeflateState}
    {x rest dest dest' : List UInt8} (hs : Finishing z s x rest dest)
    (h : deflateInner z .finish fuel s rest dest = some (s', dest')) : IsStream x dest' := by
  induction fuel generalizing s rest dest with
  | zero => cases h
  | succ fuel ih =>
    have hle := hz.output_le s .finish rest CHUNK
    rw [deflateInner] at h
    split at h
    · exact ih (.again hs CHUNK_pos) h
    · rename_i hspace
      simp only [Option.some.injEq, Prod.mk.injEq] at h
      rw [← h.2]
      exact hz.finish_again hs (by omega)

theorem deflateInner_finish (hz : DeflateLaws z IsStream) {fuel : Nat} {s s' : z.DeflateState}
    {x input dest dest' : List UInt8} (hs : Fed z s x dest)
    (h : deflateInner z .finish fuel s input dest = some (s', dest')) :
    IsStream (x ++ input) dest' := by
  cases fuel with
  | zero => cases h
  | succ fuel =>
    have hle := hz.output_le s .finish input CHUNK
    rw [deflateInner] at h
    split at h
    · exact deflateInner_finishing hz (.first hs CHUNK_pos) h
    · rename_i hspace
      simp only [Option.some.injEq, Prod.mk.injEq] at h
      rw [← h.2]
      exact hz.finish_first input hs (by omega)

theorem deflateOuter_stream (hz : DeflateLaws z IsStream) {innerFuel fuel : Nat}
    {s : z.DeflateState} {x source dest w : List UInt8} (hs : Fed z s x dest)
    (h : deflateOuter z innerFuel fuel s source dest = some w) : IsStream (x ++ source) w := by
  induction fuel generalizing s x source dest with
  | zero => cases h
  | succ fuel ih =>
    rw [deflateOuter] at h
    by_cases hend : (source.take CHUNK).length < CHUNK
    · rw [if_pos hend] at h
      split at h
      · cases h
      · rename_i s' dest' hinner
        cases h
        have hwhole : source.take CHUNK = source := by
          rw [List.length_take] at hend
          exact List.take_of_length_le (by omega)
        rw [hwhole] at hinner
        exact deflateInner_finish hz hs hinner
    · rw [if_neg hend] at h
      split at h
      · cases h
      · rename_i s' dest' hinner
        have hrest := ih (deflateInner_fed hz hs hinner) h
        rw [List.append_assoc, List.take_append_drop] at hrest
        exact hrest

/-- What the compressor writes is a stream of what it reads. -/
theorem deflateFile_stream (hz : DeflateLaws z IsStream) {level : Int} {fuel : Nat}
    {x w : List UInt8} (h : deflateFile z level fuel x = some w) : IsStream x w :=
  deflateOuter_stream hz (.init level) h

/-! ## Decompression -/

/-- What the inner loop leaves of a piece of the stream `w` of `x`: the stream has
taken `c`, and the end of the stream comes with its last byte. -/
structure Drained (z : ZStreams) (x w c : List UInt8) (ret : ZRet) (s : z.InflateState)
    (dest : List UInt8) : Prop where
  inflating : Inflating z w s c dest
  output_prefix : dest <+: x
  ended : ret = .streamEnd → dest = x
  ends_iff : ret = .streamEnd ↔ c = w

theorem inflateInner_drained (hz : InflateLaws z IsStream) {x w c input dest : List UInt8}
    {s : z.InflateState} {fuel : Nat} (hstream : IsStream x w) (hs : Inflating z w s c dest)
    (hdest : dest <+: x) (hinput : c ++ input <+: w) (hfuel : x.length - dest.length < fuel) :
    ∃ ret s' dest', inflateInner z fuel s input dest = some (.ok (ret, s', dest')) ∧
      Drained z x w (c ++ input) ret s' dest' := by
  -- Each pass but the last fills the space, so there are few of them.
  induction fuel generalizing s c input dest with
  | zero => omega
  | succ fuel ih =>
    have hcall := hz.inflate_call hstream hs hinput CHUNK_pos
    have hnext := Inflating.call hs hinput CHUNK_pos
    have hle := hcall.output_le
    have hpos := CHUNK_pos
    have hprefix := hcall.output_prefix
    have hlen := hprefix.length_le
    rw [List.length_append] at hlen
    have hbody : inflateInner z (fuel + 1) s input dest =
        if CHUNK - (z.inflate s input CHUNK).output.length = 0 then
          inflateInner z fuel (z.inflate s input CHUNK).state
            (input.drop (z.inflate s input CHUNK).consumed)
            (dest ++ (z.inflate s input CHUNK).output)
        else some (.ok ((z.inflate s input CHUNK).ret, (z.inflate s input CHUNK).state,
          dest ++ (z.inflate s input CHUNK).output)) := by
      rw [inflateInner]
      rcases hcall.ret_eq with hret | hret | hret
      · simp only [hret]
      · simp only [hret]
      · simp only [hret]
    rw [hbody]
    by_cases hfull : CHUNK - (z.inflate s input CHUNK).output.length = 0
    · rw [if_pos hfull]
      have hsplit : c ++ input.take (z.inflate s input CHUNK).consumed ++
          input.drop (z.inflate s input CHUNK).consumed = c ++ input := by
        rw [List.append_assoc, List.take_append_drop]
      rw [← hsplit]
      refine ih hnext hprefix ?_ ?_
      · rw [hsplit]
        exact hinput
      · rw [List.length_append]
        omega
    · rw [if_neg hfull]
      have hspace : (z.inflate s input CHUNK).output.length < CHUNK := by omega
      have htakes := hcall.takes_input hspace
      have hended := hcall.ended
      rw [List.take_of_length_le htakes] at hnext hended
      exact ⟨_, _, _, rfl, hnext, hprefix, fun hret => (hended hret).2,
        fun hret => (hended hret).1, hcall.ends hspace⟩

theorem inflateOuter_stream (hz : InflateLaws z IsStream) {x w c source dest : List UInt8}
    {s : z.InflateState} {ret : ZRet} {innerFuel fuel : Nat} (hstream : IsStream x w)
    (hs : Inflating z w s c dest) (hdest : dest <+: x) (hsource : c ++ source = w)
    (hne : source ≠ []) (hinner : x.length < innerFuel) (hfuel : source.length < fuel) :
    inflateOuter z innerFuel fuel ret s source dest = some (.ok, x) := by
  induction fuel generalizing s c source dest ret with
  | zero => omega
  | succ fuel ih =>
    have hpos := List.length_pos_iff.mpr hne
    have hchunk := CHUNK_pos
    have hinput : source.take CHUNK ≠ [] := by
      rw [← List.length_pos_iff, List.length_take]
      omega
    have hprefix : c ++ source.take CHUNK <+: w := by
      rw [← hsource]
      exact (List.prefix_append_right_inj c).mpr (List.take_prefix _ _)
    have hinnerFuel : x.length - dest.length < innerFuel := by omega
    obtain ⟨ret', s', dest', hloop, hdrained⟩ :=
      inflateInner_drained hz hstream hs hdest hprefix hinnerFuel
    rw [inflateOuter]
    simp only [if_neg hinput, hloop]
    by_cases hend : ret' = .streamEnd
    · rw [if_pos hend, hdrained.ended hend, inflateReturn, if_pos hend]
    · rw [if_neg hend]
      -- The piece was not the last one.
      have hmore : source.drop CHUNK ≠ [] := by
        intro hnil
        have hall : source.take CHUNK = source := by
          have hsplit := List.take_append_drop CHUNK source
          rw [hnil, List.append_nil] at hsplit
          exact hsplit
        rw [hall] at hdrained
        exact hend (hdrained.ends_iff.mpr hsource)
      refine ih hdrained.inflating hdrained.output_prefix ?_ hmore ?_
      · rw [List.append_assoc, List.take_append_drop, hsource]
      · rw [List.length_drop]
        omega

/-- The streaming decompressor ends with `Z_OK` and gives the input back. -/
theorem inflateFile_stream (hz : InflateLaws z IsStream) {x w : List UInt8}
    (h : IsStream x w) : ∃ fuel, inflateFile z fuel w = some (.ok, x) := by
  refine ⟨x.length + w.length + 1, ?_⟩
  exact inflateOuter_stream hz h .init List.nil_prefix rfl (hz.stream_ne_nil h) (by omega)
    (by omega)

/-- For everything that the compressor writes, the streaming decompressor gives
the input back, and the one-shot decompressor does so exactly when the memory is
there and the input fits into fifty times the size of the stream. -/
theorem decompress_deflated (hdeflate : DeflateLaws z IsStream)
    (hinflate : InflateLaws z IsStream) (malloc : Nat → Bool) {level : Int} {fuel : Nat}
    {x w : List UInt8} (h : deflateFile z level fuel x = some w) :
    (∃ fuel, inflateFile z fuel w = some (.ok, x)) ∧
      ∀ out, decompressorOneshot z malloc w = some out ↔
        out = x ∧ malloc w.length = true ∧ malloc (uncompressedSize w).toNat = true ∧
          x.length ≤ (uncompressedSize w).toNat := by
  have hstream := deflateFile_stream hdeflate h
  refine ⟨inflateFile_stream hinflate hstream, fun out => ?_⟩
  rw [decompressorOneshot, hinflate.uncompress_eq _ hstream]
  by_cases hsource : malloc w.length = true
  · by_cases hout : malloc (uncompressedSize w).toNat = true
    · by_cases hfits : x.length ≤ (uncompressedSize w).toNat
      · simp [hsource, hout, hfits, eq_comm]
      · simp [hsource, hout, hfits]
    · simp [hsource, hout]
  · simp [hsource]

end

theorem length_thousandZeros : thousandZeros.length = 1000 := List.length_replicate

theorem sampleStream_thousandZeros : sampleStream thousandZeros = zerosStream := if_pos rfl

theorem deflateFile_thousandZeros :
    deflateFile sampleZlib (-1) 2 thousandZeros = some zerosStream := by
  have hshort : (thousandZeros.take CHUNK).length < CHUNK := by
    rw [List.length_take, length_thousandZeros]
    decide
  have hwhole : thousandZeros.take CHUNK = thousandZeros :=
    List.take_of_length_le (by rw [length_thousandZeros]; decide)
  rw [deflateFile, deflateOuter, if_pos hshort, hwhole, deflateInner]
  simp only [sampleZlib, sampleDeflate, List.nil_append, Option.getD_none,
    sampleStream_thousandZeros]
  rfl

/-- The one-shot decompressor has space for the one byte, and not for the thousand. -/
theorem decompress_deflated_samples :
    ((∃ fuel, inflateFile sampleZlib fuel aStream = some (.ok, [0x61])) ∧
        decompressorOneshot sampleZlib (fun _ => true) aStream = some [0x61]) ∧
      (∃ fuel, inflateFile sampleZlib fuel zerosStream = some (.ok, thousandZeros)) ∧
        ∀ out, decompressorOneshot sampleZlib (fun _ => true) zerosStream ≠ some out := by
  have hdeflate : deflateFile sampleZlib (-1) 2 [0x61] = some aStream := rfl
  have ha := decompress_deflated sampleZlib_deflateLaws sampleZlib_inflateLaws (fun _ => true)
    hdeflate
  have hzeros := decompress_deflated sampleZlib_deflateLaws sampleZlib_inflateLaws
    (fun _ => true) deflateFile_thousandZeros
  refine ⟨⟨ha.1, (ha.2 _).mpr ⟨rfl, rfl, rfl, by decide⟩⟩, hzeros.1, ?_⟩
  intro out hout
  have hspace : (uncompressedSize zerosStream).toNat = 850 := by decide
  have hle := ((hzeros.2 out).mp hout).2.2.2
  rw [hspace, length_thousandZeros] at hle
  omega

/-- A thousand zero bytes become 17 bytes, and the one-shot decompressor has space
for 850. -/
theorem not_decompressorOneshot :
    ¬ ∀ (z : ZStreams) (IsStream : List UInt8 → List UInt8 → Prop), DeflateLaws z IsStream →
      InflateLaws z IsStream → ∀ (level : Int) (fuel : Nat) (x w : List UInt8),
        deflateFile z level fuel x = some w →
          decompressorOneshot z (fun _ => true) w = some x := by
  intro h
  have hout := h sampleZlib SampleIsStream sampleZlib_deflateLaws sampleZlib_inflateLaws _ _ _ _
    deflateFile_thousandZeros
  have hspace : (uncompressedSize zerosStream).toNat = 850 := by decide
  rw [decompressorOneshot, if_pos rfl, if_pos rfl, hspace,
    sampleZlib_inflateLaws.uncompress_eq 850 sampleStream_thousandZeros.symm,
    length_thousandZeros, if_neg (by decide)] at hout
  cases hout

end DpuTest.CephCompress
