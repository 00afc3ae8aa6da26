import DpuTest.CephCompress.ZStream
import Mathlib.Tactic.Common

/-!
# Stream functions that keep the laws

`sampleZlib` compresses the byte `a` and a thousand zero bytes the way zlib
does, and writes any other input byte by byte between markers.  It keeps
`DeflateLaws` and `InflateLaws`, so the assumptions of the results about the
programs can be met.
-/

namespace DpuTest.CephCompress

/-! ## The format -/

def thousandZeros : List UInt8 := List.replicate 1000 0

/-- What zlib makes of them. -/
def zerosStream : List UInt8 :=
  [0x78, 0x9c, 0x63, 0x60, 0x18, 0x05, 0xa3, 0x60, 0x14, 0x0c, 0x77, 0x00, 0x00, 0x03, 0xe8,
    0x00, 0x01]

def aStream : List UInt8 := [0x78, 0x9c, 0x4b, 0x04, 0x00, 0x00, 0x62, 0x00, 0x62]

/-- Each byte behind a marker, and a marker for the end. -/
def units : List UInt8 → List UInt8
  | [] => [0]
  | b :: x => 1 :: b :: units x

def sampleStream (x : List UInt8) : List UInt8 :=
  if x = thousandZeros then zerosStream
  else if x = [0x61] then aStream
  else 0x78 :: 0x9c :: units x

def decodeUnits : List UInt8 → Option (List UInt8)
  | 0 :: [] => some []
  | 1 :: b :: t => (decodeUnits t).map (b :: ·)
  | _ => none

def decodeOther : List UInt8 → Option (List UInt8)
  | 0x78 :: 0x9c :: t => decodeUnits t
  | _ => none

def sampleDecode (t : List UInt8) : Option (List UInt8) :=
  if t = zerosStream then some thousandZeros
  else if t = aStream then some [0x61]
  else decodeOther t

theorem decodeUnits_units (x : List UInt8) : decodeUnits (units x) = some x := by
  induction x with
  | nil => rfl
  | cons b x ih => rw [units, decodeUnits, ih, Option.map_some]

/-- No part of an encoding is an encoding. -/
theorem decodeUnits_prefix {x t x' : List UInt8} (h : t <+: units x)
    (hdec : decodeUnits t = some x') : t = units x ∧ x' = x := by
  induction x generalizing t x' with
  | nil =>
    match t with
    | [] => cases hdec
    | c :: t =>
      rw [units, List.cons_prefix_cons, List.prefix_nil] at h
      obtain ⟨rfl, rfl⟩ := h
      cases hdec
      exact ⟨rfl, rfl⟩
  | cons b x ih =>
    match t with
    | [] => cases hdec
    | [c] =>
      rw [units, List.cons_prefix_cons] at h
      rw [h.1] at hdec
      cases hdec
    | c :: d :: t =>
      rw [units, List.cons_prefix_cons, List.cons_prefix_cons] at h
      obtain ⟨rfl, rfl, hrest⟩ := h
      rw [decodeUnits] at hdec
      obtain ⟨x₁, hx₁, rfl⟩ := Option.map_eq_some_iff.mp hdec
      have hboth := ih hrest hx₁
      exact ⟨by rw [hboth.1, units], by rw [hboth.2]⟩

/-- The third byte tells which of the three formats a stream has. -/
theorem sampleStream_third (x : List UInt8) :
    x = thousandZeros ∧ (sampleStream x)[2]? = some 0x63 ∨
      x = [0x61] ∧ (sampleStream x)[2]? = some 0x4b ∨
      sampleStream x = 0x78 :: 0x9c :: units x ∧
        ((sampleStream x)[2]? = some 0 ∨ (sampleStream x)[2]? = some 1) := by
  rw [sampleStream]
  by_cases hz : x = thousandZeros
  · rw [if_pos hz]
    exact Or.inl ⟨hz, rfl⟩
  · by_cases ha : x = [0x61]
    · rw [if_neg hz, if_pos ha]
      exact Or.inr (Or.inl ⟨ha, rfl⟩)
    · rw [if_neg hz, if_neg ha]
      refine Or.inr (Or.inr ⟨rfl, ?_⟩)
      cases x with
      | nil => exact Or.inl rfl
      | cons b x => exact Or.inr rfl

/-- Only the whole stream decodes. -/
theorem sampleDecode_prefix {x t x' : List UInt8} (h : t <+: sampleStream x)
    (hdec : sampleDecode t = some x') : t = sampleStream x ∧ x' = x := by
  have hthird {b : UInt8} (hb : t[2]? = some b) : (sampleStream x)[2]? = some b := by
    obtain ⟨s, hs⟩ := h
    rw [← hs]
    rw [List.getElem?_append_left (List.getElem?_eq_some_iff.mp hb).1]
    exact hb
  have hx := sampleStream_third x
  rw [sampleDecode] at hdec
  by_cases hz : t = zerosStream
  · have hbyte := hthird (b := 0x63) (by rw [hz]; rfl)
    rw [if_pos hz] at hdec
    simp only [hbyte] at hx
    have hx' : x = thousandZeros := by simpa using hx
    rw [hx', sampleStream, if_pos rfl]
    exact ⟨hz, (Option.some.inj hdec).symm⟩
  · by_cases ha : t = aStream
    · have hbyte := hthird (b := 0x4b) (by rw [ha]; rfl)
      rw [if_neg hz, if_pos ha] at hdec
      simp only [hbyte] at hx
      have hx' : x = [0x61] := by simpa using hx
      rw [hx', sampleStream, if_neg (by decide), if_pos rfl]
      exact ⟨ha, (Option.some.inj hdec).symm⟩
    · rw [if_neg hz, if_neg ha] at hdec
      unfold decodeOther at hdec
      split at hdec
      · rename_i rest
        have hunits : sampleStream x = 0x78 :: 0x9c :: units x := by
          match rest with
          | [] => cases hdec
          | c :: rest =>
            have hbyte := hthird (b := c) rfl
            simp only [hbyte, Option.some.injEq] at hx
            rcases hx with ⟨-, rfl⟩ | ⟨-, rfl⟩ | ⟨hunits, -⟩
            · simp [decodeUnits] at hdec
            · simp [decodeUnits] at hdec
            · exact hunits
        rw [hunits, List.cons_prefix_cons, List.cons_prefix_cons] at h
        have hboth := decodeUnits_prefix h.2.2 hdec
        rw [hunits, hboth.1]
        exact ⟨rfl, hboth.2⟩
      · cases hdec

theorem sampleDecode_sampleStream (x : List UInt8) : sampleDecode (sampleStream x) = some x := by
  rcases sampleStream_third x with ⟨rfl, -⟩ | ⟨rfl, -⟩ | ⟨hunits, hbyte⟩
  · rw [sampleStream, if_pos rfl, sampleDecode, if_pos rfl]
  · decide
  · have hnz : sampleStream x ≠ zerosStream := by
      intro heq
      rw [heq] at hbyte
      exact absurd hbyte (by decide)
    have hna : sampleStream x ≠ aStream := by
      intro heq
      rw [heq] at hbyte
      exact absurd hbyte (by decide)
    rw [sampleDecode, if_neg hnz, if_neg hna, hunits]
    exact decodeUnits_units x

theorem sampleStream_ne_nil (x : List UInt8) : sampleStream x ≠ [] := by
  intro hnil
  have h := sampleDecode_sampleStream x
  rw [hnil] at h
  cases h

/-! ## The stream functions -/

/-- What has been taken, and after `Z_FINISH` what is still to be put out. -/
structure SampleDeflate where
  taken : List UInt8
  pending : Option (List UInt8)

/-- What has been taken, and how much has been put out. -/
structure SampleInflate where
  taken : List UInt8
  emitted : Nat

def sampleDeflate (s : SampleDeflate) (flush : Flush) (input : List UInt8) (space : Nat) :
    StreamCall SampleDeflate :=
  match flush with
  | .noFlush =>
    { ret := .ok
      state := { s with taken := s.taken ++ input }
      consumed := input.length
      output := [] }
  | .finish =>
    let out := s.pending.getD (sampleStream (s.taken ++ input))
    { ret := if out.length < space then .streamEnd else .ok
      state := { taken := s.taken ++ input, pending := some (out.drop space) }
      consumed := input.length
      output := out.take space }

def sampleInflate (s : SampleInflate) (input : List UInt8) (space : Nat) :
    StreamCall SampleInflate :=
  let taken := s.taken ++ input
  match sampleDecode taken with
  | none =>
    { ret := .ok
      state := { s with taken := taken }
      consumed := input.length
      output := [] }
  | some x =>
    let out := (x.drop s.emitted).take space
    { ret := if s.emitted + out.length = x.length then .streamEnd else .ok
      state := { taken := taken, emitted := s.emitted + out.length }
      consumed := input.length
      output := out }

def sampleZlib : ZStreams where
  DeflateState := SampleDeflate
  deflateInit _ := { taken := [], pending := none }
  deflate := sampleDeflate
  InflateState := SampleInflate
  inflateInit := { taken := [], emitted := 0 }
  inflate := sampleInflate
  uncompress space w := (sampleDecode w).bind fun x => if x.length ≤ space then some x else none

def SampleIsStream (x w : List UInt8) : Prop := w = sampleStream x

theorem fed_sample {s : sampleZlib.DeflateState} {x y : List UInt8} (h : Fed sampleZlib s x y) :
    SampleDeflate.taken s = x ∧ SampleDeflate.pending s = none ∧ y = [] := by
  induction h with
  | init level => exact ⟨rfl, rfl, rfl⟩
  | @call s x y input space h hspace ih =>
    obtain ⟨htaken, hpending, hout⟩ := ih
    refine ⟨?_, hpending, ?_⟩
    · show SampleDeflate.taken s ++ input = x ++ input.take input.length
      rw [htaken, List.take_length]
    · show y ++ [] = []
      rw [hout, List.append_nil]

/-- What a call with `Z_FINISH` puts out and keeps is what was to be put out. -/
theorem finish_sample (s : SampleDeflate) (input y : List UInt8) (space : Nat) :
    ∃ pending, (sampleDeflate s .finish input space).state.pending = some pending ∧
      y ++ (sampleDeflate s .finish input space).output ++ pending =
        y ++ s.pending.getD (sampleStream (s.taken ++ input)) := by
  refine ⟨_, rfl, ?_⟩
  rw [List.append_assoc]
  exact congrArg (y ++ ·) (List.take_append_drop _ _)

theorem finishing_sample {s : sampleZlib.DeflateState} {x rest y : List UInt8}
    (h : Finishing sampleZlib s x rest y) :
    ∃ pending, SampleDeflate.pending s = some pending ∧ y ++ pending = sampleStream x := by
  induction h with
  | @first s x y input space h hspace =>
    obtain ⟨htaken, hpending, hout⟩ := fed_sample h
    obtain ⟨pending, hsome, heq⟩ := finish_sample s input y space
    refine ⟨pending, hsome, heq.trans ?_⟩
    rw [hpending, htaken, hout]
    rfl
  | @again s x rest y space h hspace ih =>
    obtain ⟨before, hpending, hout⟩ := ih
    obtain ⟨pending, hsome, heq⟩ := finish_sample s rest y space
    refine ⟨pending, hsome, heq.trans ?_⟩
    rw [hpending]
    exact hout

theorem take_of_short {out : List UInt8} {space : Nat} (h : (out.take space).length < space) :
    out.take space = out := by
  rw [List.length_take] at h
  exact List.take_of_length_le (by omega)

theorem sampleZlib_deflateLaws : DeflateLaws sampleZlib SampleIsStream where
  output_le s flush input space := by
    cases flush with
    | noFlush => exact Nat.zero_le _
    | finish => exact List.length_take_le _ _
  takes_input input _ _ _ := Nat.le_refl input.length
  finish_first := by
    intro s x y input space h hshort
    obtain ⟨htaken, hpending, hout⟩ := fed_sample h
    show y ++ ((SampleDeflate.pending s).getD _).take space = _
    rw [take_of_short hshort, hpending, htaken, hout]
    rfl
  finish_again := by
    intro s x rest y space h hshort
    obtain ⟨pending, hpending, hout⟩ := finishing_sample h
    show y ++ ((SampleDeflate.pending s).getD _).take space = _
    rw [take_of_short hshort, hpending]
    exact hout

/-- One call on a part of a stream. -/
theorem sampleInflate_call {x c y input : List UInt8} {s : SampleInflate} (space : Nat)
    (htaken : s.taken = c) (hemitted : s.emitted = y.length) (hy : y <+: x)
    (hinput : c ++ input <+: sampleStream x) :
    (sampleInflate s input space).state.taken = c ++ input ∧
      (sampleInflate s input space).state.emitted =
        (y ++ (sampleInflate s input space).output).length ∧
      (sampleInflate s input space).consumed = input.length ∧
      InflateCall x (sampleStream x) c y input space (sampleInflate s input space) := by
  rw [sampleInflate, htaken]
  cases hdec : sampleDecode (c ++ input) with
  | none =>
    refine ⟨rfl, ?_, rfl, Or.inl rfl, Nat.zero_le _, ?_, fun _ => Nat.le_refl _, ?_, ?_⟩
    · rw [List.append_nil]
      exact hemitted
    · rw [List.append_nil]
      exact hy
    · intro hend
      cases hend
    · intro _ hall
      rw [hall, sampleDecode_sampleStream] at hdec
      cases hdec
  | some x' =>
    obtain ⟨hall, rfl⟩ := sampleDecode_prefix hinput hdec
    obtain ⟨rest, rfl⟩ := hy
    have hdrop : (y ++ rest).drop s.emitted = rest := by
      rw [hemitted, List.drop_left]
    have hlen : (rest.take space).length ≤ rest.length := by
      rw [List.length_take]
      omega
    have hdone : s.emitted + (rest.take space).length = (y ++ rest).length ↔
        rest.take space = rest := by
      rw [hemitted, List.length_append, Nat.add_left_cancel_iff]
      constructor
      · intro heq
        exact (List.take_prefix space rest).eq_of_length heq
      · intro heq
        rw [heq]
    simp only [hdrop]
    refine ⟨trivial, ?_, trivial, ?_, List.length_take_le _ _, ?_, fun _ => Nat.le_refl _, ?_, ?_⟩
    · rw [hemitted, List.length_append]
    · by_cases hend : s.emitted + (rest.take space).length = (y ++ rest).length
      · exact Or.inr (Or.inr (if_pos hend))
      · exact Or.inl (if_neg hend)
    · exact (List.prefix_append_right_inj y).mpr (List.take_prefix _ _)
    · intro hret
      by_cases hend : s.emitted + (rest.take space).length = (y ++ rest).length
      · rw [List.take_length, hdone.mp hend]
        exact ⟨hall, rfl⟩
      · rw [if_neg hend] at hret
        cases hret
    · intro hshort _
      exact if_pos (hdone.mpr (take_of_short hshort))

theorem inflating_sample {x : List UInt8} {s : sampleZlib.InflateState} {c y : List UInt8}
    (h : Inflating sampleZlib (sampleStream x) s c y) :
    SampleInflate.taken s = c ∧ SampleInflate.emitted s = y.length ∧ y <+: x := by
  induction h with
  | init => exact ⟨rfl, rfl, List.nil_prefix⟩
  | @call s c y input space h hinput hspace ih =>
    obtain ⟨htaken, hemitted, hy⟩ := ih
    obtain ⟨htaken', hemitted', hconsumed, hcall⟩ :=
      sampleInflate_call space htaken hemitted hy hinput
    refine ⟨?_, hemitted', hcall.output_prefix⟩
    rw [show (sampleZlib.inflate s input space).consumed = input.length from hconsumed,
      List.take_length]
    exact htaken'

theorem sampleZlib_inflateLaws : InflateLaws sampleZlib SampleIsStream where
  stream_ne_nil := by
    intro x w hw
    rw [hw]
    exact sampleStream_ne_nil x
  inflate_call := by
    intro x w s c y input space hw h hinput _
    subst hw
    obtain ⟨htaken, hemitted, hy⟩ := inflating_sample h
    exact (sampleInflate_call space htaken hemitted hy hinput).2.2.2
  uncompress_eq := by
    intro x w space hw
    show (sampleDecode w).bind _ = _
    rw [hw, sampleDecode_sampleStream, Option.bind_some]

end DpuTest.CephCompress
