import DpuTest.Lib.Chunking
import DpuTest.Sha.Gear
import Mathlib.Data.List.GetD

/-!
# The cut function of the content-defined chunker

`fastcdc` of `sha_create_cdc.cc` looks at the bytes from a pointer on and says
how long the next chunk is.  It skips the first `min_chunk_size` bytes, then
rolls a gear fingerprint over the bytes and cuts where the fingerprint has no
bit in common with a mask.  The mask is the strict one below the average size
and the loose one above it.

The source has two scan loops and three ways to shorten them (`n <= min`,
`n > max`, `n <= avg`).  `fastcdc_firstHit` puts them in one sentence: the cut
is the first position from the minimum on that passes `isCutPoint`, and the
end of the window `min n max` when there is none.  `isCutPoint` reads the bytes
up to its position only, so `cdcRule`, the chunking rule of `fastcdc`, is local.
-/

namespace DpuTest.Sha

open Lib

/-- The three globals that `sha_create_CDC` sets. -/
structure CdcSizes where
  avgChunkSize : Nat
  minChunkSize : Nat
  maxChunkSize : Nat

/-- The sizes for the parameter `avg_chunk_size_`. -/
def cdcSizes (avgChunkSize : Nat) : CdcSizes where
  avgChunkSize := avgChunkSize
  minChunkSize := avgChunkSize / 4
  maxChunkSize := avgChunkSize * 8

/-- The table entry `GEARv2[p[i]]`. -/
def gear (p : List UInt8) (i : Nat) : UInt64 := GEARv2.get (p.getD i 0).toFin

/-- One of the two scan loops: `.inl i` is `return i` from inside the loop, and
`.inr` carries `i` and the fingerprint out of it. -/
def scan (mask : UInt64) (p : List UInt8) (stop i : Nat) (fingerprint : UInt64) :
    Nat ⊕ Nat × UInt64 :=
  if i < stop then
    let fingerprint := (fingerprint <<< 1) + gear p i
    if fingerprint &&& mask = 0 then .inl i
    else scan mask p stop (i + 1) fingerprint
  else .inr (i, fingerprint)
termination_by stop - i

/-- `fastcdc(p, n)`.  `n` is an `int` and the caller passes what is left. -/
def fastcdc (s : CdcSizes) (p : List UInt8) (n : Int) : Int :=
  -- cut point skipping
  if n ≤ s.minChunkSize then n
  else
    let mid : Int := if n > s.maxChunkSize then s.avgChunkSize
      else if n ≤ s.avgChunkSize then n else s.avgChunkSize
    let n : Int := if n > s.maxChunkSize then s.maxChunkSize else n
    match scan Mask15 p mid.toNat s.minChunkSize 0 with
    | .inl i => i
    | .inr (i, fingerprint) =>
      match scan Mask11 p n.toNat i fingerprint with
      | .inl i => i
      | .inr _ => n

/-! ## The cut points -/

/-- The fingerprint after `count` bytes from `start` on. -/
def fingerprintOf (p : List UInt8) (start : Nat) : Nat → UInt64
  | 0 => 0
  | count + 1 => (fingerprintOf p start count <<< 1) + gear p (start + count)

/-- The mask that decides at position `i`. -/
def maskAt (s : CdcSizes) (i : Nat) : UInt64 :=
  if i < s.avgChunkSize then Mask15 else Mask11

/-- Position `i` ends a chunk: the fingerprint that includes `p[i]` has no bit
in common with the mask. -/
def IsCutPoint (s : CdcSizes) (p : List UInt8) (i : Nat) : Prop :=
  fingerprintOf p s.minChunkSize (i + 1 - s.minChunkSize) &&& maskAt s i = 0

/-- The cut test looks at the bytes up to its position only. -/
theorem fingerprintOf_append (a s s' : List UInt8) (start count : Nat)
    (h : start + count ≤ a.length) :
    fingerprintOf (a ++ s') start count = fingerprintOf (a ++ s) start count := by
  induction count with
  | zero => rfl
  | succ count ih =>
    have hget : ∀ t : List UInt8, (a ++ t).getD (start + count) 0 = a.getD (start + count) 0 := by
      intro t
      exact List.getD_append a t 0 (start + count) (by omega)
    rw [fingerprintOf, fingerprintOf, ih (by omega), gear, gear, hget, hget]

theorem isCutPoint_append (sz : CdcSizes) (a s s' : List UInt8) (i : Nat)
    (h : i < a.length) : IsCutPoint sz (a ++ s') i ↔ IsCutPoint sz (a ++ s) i := by
  unfold IsCutPoint
  by_cases hi : sz.minChunkSize ≤ i
  · rw [fingerprintOf_append a s s' _ _ (by omega)]
  · have h0 : i + 1 - sz.minChunkSize = 0 := by omega
    rw [h0]
    rfl

/-! ## The scan loops -/

/-- A scan loop that starts with the fingerprint of the bytes before `i`
returns the first position below `stop` that its mask accepts.  When there is
none it ends at `stop` with the fingerprint of all bytes before it. -/
theorem scan_spec (mask : UInt64) (p : List UInt8) (start stop i : Nat)
    (hi : start ≤ i) (hstop : i ≤ stop) :
    (∃ c, scan mask p stop i (fingerprintOf p start (i - start)) = .inl c ∧
        i ≤ c ∧ c < stop ∧ fingerprintOf p start (c + 1 - start) &&& mask = 0 ∧
        ∀ j, i ≤ j → j < c → fingerprintOf p start (j + 1 - start) &&& mask ≠ 0) ∨
      scan mask p stop i (fingerprintOf p start (i - start))
          = .inr (stop, fingerprintOf p start (stop - start)) ∧
        ∀ j, i ≤ j → j < stop → fingerprintOf p start (j + 1 - start) &&& mask ≠ 0 := by
  -- The induction is on the number of positions left.
  generalize hn : stop - i = left
  induction left generalizing i with
  | zero =>
    have heq : i = stop := by omega
    subst heq
    rw [scan, if_neg (Nat.lt_irrefl i)]
    exact Or.inr ⟨rfl, fun j hj hji => absurd hji (by omega)⟩
  | succ left ih =>
    have hstep : (fingerprintOf p start (i - start) <<< 1) + gear p i
        = fingerprintOf p start (i + 1 - start) := by
      rw [show i + 1 - start = (i - start) + 1 from by omega, fingerprintOf,
        show start + (i - start) = i from by omega]
    rw [scan, if_pos (by omega)]
    simp only [hstep]
    by_cases hz : fingerprintOf p start (i + 1 - start) &&& mask = 0
    · rw [if_pos hz]
      exact Or.inl ⟨i, rfl, Nat.le_refl i, by omega, hz, fun j hj hji => absurd hji (by omega)⟩
    · rw [if_neg hz]
      have hhead : ∀ j, i ≤ j → j < i + 1 →
          fingerprintOf p start (j + 1 - start) &&& mask ≠ 0 := by
        intro j hj hji
        rw [show j = i from by omega]
        exact hz
      rcases ih (i + 1) (by omega) (by omega) (by omega) with
        ⟨c, hscan, hic, hcs, hhit, hno⟩ | ⟨hscan, hno⟩
      · refine Or.inl ⟨c, hscan, by omega, hcs, hhit, fun j hj hjc => ?_⟩
        rcases Nat.lt_or_ge j (i + 1) with hlt | hge
        · exact hhead j hj hlt
        · exact hno j hge hjc
      · refine Or.inr ⟨hscan, fun j hj hjs => ?_⟩
        rcases Nat.lt_or_ge j (i + 1) with hlt | hge
        · exact hhead j hj hlt
        · exact hno j hge hjs

/-- The same in terms of cut points, where the mask of the loop is the one that decides. -/
theorem scan_firstHit (s : CdcSizes) (mask : UInt64) (p : List UInt8) {stop i : Nat}
    (hi : s.minChunkSize ≤ i) (hstop : i ≤ stop)
    (hmask : ∀ j, i ≤ j → j < stop → maskAt s j = mask) :
    (∃ c, scan mask p stop i (fingerprintOf p s.minChunkSize (i - s.minChunkSize)) = .inl c ∧
        c < stop ∧ FirstHit (IsCutPoint s p) i stop c) ∨
      scan mask p stop i (fingerprintOf p s.minChunkSize (i - s.minChunkSize))
          = .inr (stop, fingerprintOf p s.minChunkSize (stop - s.minChunkSize)) ∧
        ∀ j, i ≤ j → j < stop → ¬ IsCutPoint s p j := by
  have hcut : ∀ j, i ≤ j → j < stop → (IsCutPoint s p j ↔
      fingerprintOf p s.minChunkSize (j + 1 - s.minChunkSize) &&& mask = 0) := by
    intro j hj hjs
    rw [IsCutPoint, hmask j hj hjs]
  rcases scan_spec mask p s.minChunkSize stop i hi hstop with
    ⟨c, hscan, hic, hcs, hhit, hno⟩ | ⟨hscan, hno⟩
  · refine Or.inl ⟨c, hscan, hcs, hic, Nat.le_of_lt hcs, fun j hj hjc => ?_, fun _ => ?_⟩
    · rw [hcut j hj (by omega)]
      exact hno j hj hjc
    · exact (hcut c hic hcs).mpr hhit
  · refine Or.inr ⟨hscan, fun j hj hjs => ?_⟩
    rw [hcut j hj hjs]
    exact hno j hj hjs

/-- A short rest is one chunk. -/
theorem fastcdc_of_le (s : CdcSizes) (p : List UInt8) {n : Nat}
    (h : n ≤ s.minChunkSize) : fastcdc s p n = n := by
  rw [fastcdc, if_pos (by omega)]

/-- The cut of a longer rest is the first cut point of the window. -/
theorem fastcdc_firstHit (s : CdcSizes) (p : List UInt8) {n : Nat}
    (hma : s.minChunkSize ≤ s.avgChunkSize) (ham : s.avgChunkSize ≤ s.maxChunkSize)
    (h : s.minChunkSize < n) :
    ∃ c : Nat, fastcdc s p n = c ∧
      FirstHit (IsCutPoint s p) s.minChunkSize (min n s.maxChunkSize) c := by
  -- The first loop ends at `mid`, the second at `stop`.
  obtain ⟨mid, hmid⟩ : ∃ mid, mid = min n s.avgChunkSize := ⟨_, rfl⟩
  obtain ⟨stop, hstop⟩ : ∃ stop, stop = min n s.maxChunkSize := ⟨_, rfl⟩
  have hmid' : (if (n : Int) > s.maxChunkSize then (s.avgChunkSize : Int)
      else if (n : Int) ≤ s.avgChunkSize then n else s.avgChunkSize) = (mid : Int) := by
    split
    · omega
    · split <;> omega
  have hstop' : (if (n : Int) > s.maxChunkSize then (s.maxChunkSize : Int) else n)
      = (stop : Int) := by
    split <;> omega
  rw [← hstop]
  unfold fastcdc
  rw [if_neg (by omega)]
  simp only [hmid', hstop', Int.toNat_natCast]
  have hzero : fingerprintOf p s.minChunkSize (s.minChunkSize - s.minChunkSize) = 0 := by
    rw [Nat.sub_self]
    rfl
  have hminmid : s.minChunkSize ≤ mid := by omega
  have hfirst := scan_firstHit s Mask15 p (Nat.le_refl _) hminmid
    fun j _ hj => if_pos (by omega)
  rw [hzero] at hfirst
  rcases hfirst with ⟨c, hscan, hcm, hhit⟩ | ⟨hscan, hno⟩
  · refine ⟨c, by rw [hscan], hhit.congr (fun _ _ _ => Iff.rfl) (by omega) fun _ => hcm⟩
  · -- No cut below the average size: the second loop goes on from `mid`.
    rw [hscan]
    simp only
    rcases scan_firstHit s Mask11 p hminmid (show mid ≤ stop by omega)
        fun j hj hjs => if_neg (by omega) with
      ⟨c, hscan₂, -, hhit⟩ | ⟨hscan₂, hno₂⟩
    · exact ⟨c, by rw [hscan₂], FirstHit.of_no_hit hminmid hno hhit⟩
    · refine ⟨stop, by rw [hscan₂], FirstHit.of_no_hit hminmid hno ?_⟩
      exact ⟨by omega, Nat.le_refl _, hno₂, fun hlt => absurd hlt (Nat.lt_irrefl stop)⟩

/-! ## The chunking rule -/

theorem cdcSizes_min_le (avg : Nat) :
    (cdcSizes avg).minChunkSize ≤ (cdcSizes avg).avgChunkSize :=
  Nat.div_le_self _ _

theorem cdcSizes_le_max (avg : Nat) :
    (cdcSizes avg).avgChunkSize ≤ (cdcSizes avg).maxChunkSize := by
  show avg ≤ avg * 8
  omega

/-- The length of the chunk that `fastcdc` cuts off the bytes `xs`. -/
def cutLength (s : CdcSizes) (xs : List UInt8) : Nat := (fastcdc s xs xs.length).toNat

theorem cutLength_of_le (s : CdcSizes) {xs : List UInt8}
    (h : xs.length ≤ s.minChunkSize) : cutLength s xs = xs.length := by
  rw [cutLength, fastcdc_of_le s xs h, Int.toNat_natCast]

theorem cutLength_firstHit (avg : Nat) {xs : List UInt8}
    (h : (cdcSizes avg).minChunkSize < xs.length) :
    FirstHit (IsCutPoint (cdcSizes avg) xs) (cdcSizes avg).minChunkSize
      (min xs.length (cdcSizes avg).maxChunkSize) (cutLength (cdcSizes avg) xs) := by
  obtain ⟨c, heq, hc⟩ := fastcdc_firstHit (cdcSizes avg) xs
    (cdcSizes_min_le avg) (cdcSizes_le_max avg) h
  rw [cutLength, heq, Int.toNat_natCast]
  exact hc

/-- The rule of `fastcdc`.  An average of four makes the minimum positive, and
with it every chunk. -/
def cdcRule (avg : Nat) (havg : 4 ≤ avg) : CutRule UInt8 where
  cut := cutLength (cdcSizes avg)
  cut_pos {xs} hne := by
    have hlen : 0 < xs.length := List.length_pos_iff.mpr hne
    have hmin : (cdcSizes avg).minChunkSize = avg / 4 := rfl
    rcases Nat.lt_or_ge (cdcSizes avg).minChunkSize xs.length with hlt | hge
    · have := (cutLength_firstHit avg hlt).ge
      omega
    · rw [cutLength_of_le _ hge]
      exact hlen
  cut_le xs := by
    rcases Nat.lt_or_ge (cdcSizes avg).minChunkSize xs.length with hlt | hge
    · exact Nat.le_trans (cutLength_firstHit avg hlt).le (Nat.min_le_left _ _)
    · exact Nat.le_of_eq (cutLength_of_le _ hge)

variable {avg : Nat} {havg : 4 ≤ avg}

/-- No chunk is longer than eight averages. -/
theorem cdcRule_cut_le_max (xs : List UInt8) :
    (cdcRule avg havg).cut xs ≤ avg * 8 := by
  show cutLength (cdcSizes avg) xs ≤ (cdcSizes avg).maxChunkSize
  rcases Nat.lt_or_ge (cdcSizes avg).minChunkSize xs.length with hlt | hge
  · exact Nat.le_trans (cutLength_firstHit avg hlt).le (Nat.min_le_right _ _)
  · rw [cutLength_of_le _ hge]
    have := cdcSizes_min_le avg
    have := cdcSizes_le_max avg
    omega

/-- A chunk that is not the rest is at least a quarter of the average. -/
theorem cdcRule_min_le_cut (xs : List UInt8)
    (h : (cdcRule avg havg).cut xs < xs.length) :
    avg / 4 ≤ (cdcRule avg havg).cut xs := by
  change cutLength (cdcSizes avg) xs < xs.length at h
  show (cdcSizes avg).minChunkSize ≤ cutLength (cdcSizes avg) xs
  rcases Nat.lt_or_ge (cdcSizes avg).minChunkSize xs.length with hlt | hge
  · exact (cutLength_firstHit avg hlt).ge
  · rw [cutLength_of_le _ hge] at h
    exact absurd h (Nat.lt_irrefl _)

/-- Where a chunk ends does not depend on the bytes after the one that ends
it. -/
theorem cdcRule_local : (cdcRule avg havg).Local :=
  CutRule.local_of_firstHit _ (IsCutPoint (cdcSizes avg))
    (fun _ => cutLength_of_le _) (fun _ => cutLength_firstHit avg)
    (isCutPoint_append (cdcSizes avg))

end DpuTest.Sha
