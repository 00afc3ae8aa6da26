import DpuTest.Lib.Strto

/-!
# The numbers on the command line

`ec_compare` reads the block size with `parse_size` and the counts with
`parse_unsigned`.  Both leave the number to `strtoull` and `strtoul`, and check where
it ends, its unit and its range.  Neither looks at how it starts: white space and a sign
are read, and a number behind a `-` is negated modulo `2 ^ 64`.

`acceptsGrammar` says exactly which texts are accepted, and with which result.  Texts
that start with a digit are accepted if and only if their number is digits and nothing
else (`acceptsGrammar_plain`).

An `unsigned long` has 64 bits here, so `strtoul` is `strtoull`.  A text is what stands
in front of the terminator.
-/

namespace DpuTest.EcDecode

open Lib

def SIZE_MAX : UInt64 := 0xFFFFFFFFFFFFFFFF
def INT32_MAX : UInt64 := 0x7FFFFFFF
def UINT32_MAX : UInt64 := 0xFFFFFFFF

/-- `strcasecmp(s, t) == 0` -/
def eqIgnoreCase (s t : List Char) : Bool := s.map Char.toLower = t.map Char.toLower

/-- `multiplier` of `parse_size`. -/
def sizeMultiplier (endp : List Char) : Option UInt64 :=
  if endp = [] then some 1
  else if eqIgnoreCase endp ['K', 'B'] || eqIgnoreCase endp ['K'] then some 1024
  else if eqIgnoreCase endp ['M', 'B'] || eqIgnoreCase endp ['M'] then some (1024 * 1024)
  else if eqIgnoreCase endp ['G', 'B'] || eqIgnoreCase endp ['G'] then some (1024 * 1024 * 1024)
  else none

/-- What `parse_size` does with the number; `value` is what the caller has there. -/
def scaleSize (number : UInt64) (endp : List Char) (value : UInt64) : Bool × UInt64 :=
  match sizeMultiplier endp with
  | none => (false, value)
  | some multiplier =>
    if number = 0 ∨ SIZE_MAX / multiplier < number then (false, value)
    else
      let value := number * multiplier
      (value % 64 = 0 ∧ value ≤ INT32_MAX, value)

/-- `parse_size(text, &value)`: what is returned, and what `value` holds then. -/
def parseSize (text : List Char) (value : UInt64) : Bool × UInt64 :=
  let parsed := strtoull text
  if parsed.erange ∨ parsed.endp = text then (false, value)
  else scaleSize parsed.number parsed.endp value

/-- `parse_unsigned(text, &value)` -/
def parseUnsigned (text : List Char) (value : UInt32) : Bool × UInt32 :=
  let parsed := strtoull text
  if parsed.erange ∨ parsed.endp = text ∨ parsed.endp ≠ [] ∨ parsed.number = 0 ∨
      UINT32_MAX < parsed.number then (false, value)
  else (true, parsed.number.toUInt32)

/-! ## The grammar -/

/-- The units of a size, in small letters. -/
def sizeUnits : List (List Char × Nat) :=
  [([], 1), (['k'], 1024), (['k', 'b'], 1024), (['m'], 1024 * 1024), (['m', 'b'], 1024 * 1024),
    (['g'], 1024 * 1024 * 1024), (['g', 'b'], 1024 * 1024 * 1024)]

/-- A suffix, in any letter case, stands for a unit. -/
def HasUnit (suffix : List Char) (unit : Nat) : Prop :=
  sizeUnits.lookup (suffix.map Char.toLower) = some unit

/-- A number and a unit that make a size that is positive, aligned and not too large. -/
def SizeText (IsNumber : List Char → Nat → Prop) (text : List Char) (size : Nat) : Prop :=
  ∃ number suffix n unit, text = number ++ suffix ∧ IsNumber number n ∧ HasUnit suffix unit ∧
    n * unit = size ∧ 0 < size ∧ 64 ∣ size ∧ size ≤ INT32_MAX.toNat

/-- A number from 1 to `UINT32_MAX`. -/
def CountText (IsNumber : List Char → Nat → Prop) (text : List Char) (n : Nat) : Prop :=
  IsNumber text n ∧ 1 ≤ n ∧ n ≤ UINT32_MAX.toNat

/-- The two parsers accept the texts of the grammar over these numbers, with their
values, and no others. -/
structure AcceptsGrammar (IsNumber : List Char → Nat → Prop) (text : List Char) : Prop where
  parseSize_iff : ∀ value size : UInt64,
    parseSize text value = (true, size) ↔ SizeText IsNumber text size.toNat
  parseUnsigned_iff : ∀ value n : UInt32,
    parseUnsigned text value = (true, n) ↔ CountText IsNumber text n.toNat

/-- Digits and nothing else. -/
def PlainNumber (text : List Char) (n : Nat) : Prop :=
  text ≠ [] ∧ (∀ c ∈ text, c.isDigit = true) ∧ n = decimal text

/-! ## Units -/

section

variable {suffix endp text : List Char} {unit : Nat} {number multiplier size : UInt64}

/-- The suffixes that `parse_size` knows, by their small letters. -/
theorem sizeMultiplier_eq (endp : List Char) :
    sizeMultiplier endp = (sizeUnits.lookup (endp.map Char.toLower)).map UInt64.ofNat := by
  have hnil : endp = [] ↔ endp.map Char.toLower = [] := List.map_eq_nil_iff.symm
  have hkb : ['K', 'B'].map Char.toLower = ['k', 'b'] := by decide
  have hk : ['K'].map Char.toLower = ['k'] := by decide
  have hmb : ['M', 'B'].map Char.toLower = ['m', 'b'] := by decide
  have hm : ['M'].map Char.toLower = ['m'] := by decide
  have hgb : ['G', 'B'].map Char.toLower = ['g', 'b'] := by decide
  have hg : ['G'].map Char.toLower = ['g'] := by decide
  simp only [sizeMultiplier, eqIgnoreCase, hnil, hkb, hk, hmb, hm, hgb, hg, Bool.or_eq_true,
    decide_eq_true_eq]
  generalize endp.map Char.toLower = lower
  by_cases hmem : lower ∈ sizeUnits.map Prod.fst
  · simp only [sizeUnits, List.map_cons, List.map_nil, List.mem_cons, List.not_mem_nil,
      or_false] at hmem
    rcases hmem with rfl | rfl | rfl | rfl | rfl | rfl | rfl <;> rfl
  · have hnone : sizeUnits.lookup lower = none := by
      rw [List.lookup_eq_none_iff]
      intro entry hentry
      rw [bne_iff_ne]
      exact fun heq => hmem (heq ▸ List.mem_map_of_mem hentry)
    simp only [sizeUnits, List.map_cons, List.map_nil, List.mem_cons, List.not_mem_nil,
      or_false, not_or] at hmem
    rw [hnone]
    simp [hmem]


theorem mem_sizeUnits_of_hasUnit (h : HasUnit suffix unit) :
    (suffix.map Char.toLower, unit) ∈ sizeUnits := by
  obtain ⟨before, after, hsplit, -⟩ := List.lookup_eq_some_iff.mp h
  rw [hsplit]
  exact List.mem_append_right _ List.mem_cons_self

theorem HasUnit.bounds (h : HasUnit suffix unit) : 0 < unit ∧ unit ≤ 2 ^ 30 := by
  have hall : ∀ entry ∈ sizeUnits, 0 < entry.2 ∧ entry.2 ≤ 2 ^ 30 := by decide
  exact hall _ (mem_sizeUnits_of_hasUnit h)

theorem toLower_of_isDigit {c : Char} (h : c.isDigit = true) : c.toLower = c := by
  simp only [Char.isDigit, Bool.and_eq_true, decide_eq_true_eq, ge_iff_le,
    UInt32.le_iff_toNat_le] at h
  have hhi : c.val.toNat ≤ 57 := h.2
  refine dif_neg ?_
  rintro ⟨hlo, -⟩
  have hlo' : 65 ≤ c.val.toNat := UInt32.le_iff_toNat_le.mp hlo
  omega

/-- No unit starts with a digit. -/
theorem HasUnit.noDigitAhead (h : HasUnit suffix unit) : NoDigitAhead suffix := by
  have hall : sizeUnits.all (fun entry => entry.1.head?.all (fun c => !c.isDigit)) = true := rfl
  intro c hc
  cases hdigit : c.isDigit with
  | false => rfl
  | true =>
    have hlower : (suffix.map Char.toLower).head? = some c := by
      rw [List.head?_map, Option.mem_def.mp hc, Option.map_some, toLower_of_isDigit hdigit]
    have hentry := List.all_eq_true.mp hall _ (mem_sizeUnits_of_hasUnit h)
    rw [hlower, Option.all_some, hdigit] at hentry
    cases hentry

theorem HasUnit.toNat_ofNat (h : HasUnit suffix unit) : (UInt64.ofNat unit).toNat = unit := by
  refine UInt64.toNat_ofNat_of_lt' (Nat.lt_of_le_of_lt h.bounds.2 ?_)
  decide

/-- The test on the number says that it is positive and that the product fits. -/
theorem scaleSize_guard_iff (h : HasUnit suffix unit) :
    ¬ (number = 0 ∨ SIZE_MAX / UInt64.ofNat unit < number) ↔
      0 < number.toNat ∧ number.toNat * unit < 2 ^ 64 := by
  have hmax : SIZE_MAX.toNat = 2 ^ 64 - 1 := rfl
  have hzero : number = 0 ↔ number.toNat = 0 := by
    rw [← UInt64.toNat_inj]
    rfl
  rw [not_or, hzero, UInt64.not_lt, UInt64.le_iff_toNat_le, UInt64.toNat_div, h.toNat_ofNat, hmax,
    Nat.le_div_iff_mul_le h.bounds.1]
  omega

theorem toNat_mul_unit (h : HasUnit suffix unit) (hlt : number.toNat * unit < 2 ^ 64) :
    (number * UInt64.ofNat unit).toNat = number.toNat * unit := by
  rw [UInt64.toNat_mul, h.toNat_ofNat, Nat.mod_eq_of_lt hlt]

theorem aligned_iff : size % 64 = 0 ∧ size ≤ INT32_MAX ↔
    64 ∣ size.toNat ∧ size.toNat ≤ INT32_MAX.toNat := by
  rw [← UInt64.toNat_inj, UInt64.toNat_mod, UInt64.le_iff_toNat_le, Nat.dvd_iff_mod_eq_zero]
  rfl

/-- The product is exact when the size is accepted. -/
theorem scaleSize_eq_iff {value : UInt64} :
    scaleSize number endp value = (true, size) ↔
      ∃ unit, HasUnit endp unit ∧ number.toNat * unit = size.toNat ∧ 0 < size.toNat ∧
        64 ∣ size.toNat ∧ size.toNat ≤ INT32_MAX.toNat := by
  rw [scaleSize, sizeMultiplier_eq]
  cases hunit : sizeUnits.lookup (endp.map Char.toLower) with
  | none =>
    constructor
    · intro h
      cases h
    · rintro ⟨unit, hunit', -⟩
      rw [HasUnit, hunit] at hunit'
      cases hunit'
  | some unit =>
    have hasUnit : HasUnit endp unit := hunit
    simp only [Option.map_some]
    constructor
    · intro h
      by_cases hguard : number = 0 ∨ SIZE_MAX / UInt64.ofNat unit < number
      · rw [if_pos hguard] at h
        cases h
      · obtain ⟨hpos, hlt⟩ := (scaleSize_guard_iff hasUnit).mp hguard
        have hexact := toNat_mul_unit hasUnit hlt
        rw [if_neg hguard, Prod.mk.injEq, decide_eq_true_eq, aligned_iff] at h
        obtain ⟨hrange, hsize⟩ := h
        rw [hsize] at hexact hrange
        have hsizePos : 0 < number.toNat * unit := Nat.mul_pos hpos hasUnit.bounds.1
        exact ⟨unit, hasUnit, hexact.symm, hexact ▸ hsizePos, hrange⟩
    · rintro ⟨unit', hasUnit', hsize, hpos, hrange⟩
      have hsame : unit' = unit := Option.some.inj (hasUnit'.symm.trans hunit)
      subst hsame
      have hlt : number.toNat * unit' < 2 ^ 64 := hsize ▸ size.toNat_lt
      have hnumber : 0 < number.toNat := by
        refine Nat.pos_of_ne_zero fun hzero => ?_
        rw [hzero, Nat.zero_mul] at hsize
        omega
      have hguard := (scaleSize_guard_iff hasUnit).mpr ⟨hnumber, hlt⟩
      have hproduct : number * UInt64.ofNat unit' = size := by
        rw [← UInt64.toNat_inj, toNat_mul_unit hasUnit hlt, hsize]
      rw [if_neg hguard, hproduct, Prod.mk.injEq, decide_eq_true_eq, aligned_iff]
      exact ⟨hrange, rfl⟩

/-! ## The parsers -/

theorem parseSize_iff (text : List Char) (value size : UInt64) :
    parseSize text value = (true, size) ↔ SizeText Denotes text size.toNat := by
  constructor
  · intro h
    rw [parseSize] at h
    by_cases hfail : (strtoull text).erange = true ∨ (strtoull text).endp = text
    · rw [if_pos hfail] at h
      cases h
    · rw [if_neg hfail] at h
      obtain ⟨herange, hne⟩ := not_or.mp hfail
      obtain ⟨unit, hunit, hsize, hpos, hrange⟩ := scaleSize_eq_iff.mp h
      have hreads : Reads text (strtoull text).endp (strtoull text).number.toNat :=
        ⟨Bool.eq_false_iff.mpr herange, rfl, hne, rfl⟩
      obtain ⟨number, htext, -, hdenotes⟩ := reads_iff.mp hreads
      exact ⟨number, _, _, unit, htext, hdenotes, hunit, hsize, hpos, hrange⟩
  · rintro ⟨number, suffix, n, unit, htext, hdenotes, hunit, hsize, hpos, hrange⟩
    have hreads : Reads text suffix n :=
      reads_iff.mpr ⟨number, htext, hunit.noDigitAhead, hdenotes⟩
    have hfail : ¬ ((strtoull text).erange = true ∨ (strtoull text).endp = text) := by
      rw [hreads.erange_eq, hreads.endp_eq]
      simp [hreads.endp_ne]
    rw [parseSize, if_neg hfail, hreads.endp_eq]
    refine scaleSize_eq_iff.mpr ⟨unit, hunit, ?_, hpos, hrange⟩
    rw [hreads.toNat_number, hsize]

theorem count_guard_iff {number : UInt64} : number = 0 ∨ UINT32_MAX < number ↔
    ¬ (1 ≤ number.toNat ∧ number.toNat ≤ UINT32_MAX.toNat) := by
  have hzero : number = 0 ↔ number.toNat = 0 := by
    rw [← UInt64.toNat_inj]
    rfl
  rw [hzero, UInt64.lt_iff_toNat_lt]
  omega

/-- A count in range is not cut off. -/
theorem toNat_toUInt32 {number : UInt64} (h : number.toNat ≤ UINT32_MAX.toNat) :
    number.toUInt32.toNat = number.toNat := by
  rw [UInt64.toNat_toUInt32]
  exact Nat.mod_eq_of_lt (Nat.lt_of_le_of_lt h (by decide))

/-- A number that is read to the end of the text. -/
theorem reads_nil_iff {n : Nat} : Reads text [] n ↔ Denotes text n := by
  rw [reads_iff]
  constructor
  · rintro ⟨number, rfl, -, hdenotes⟩
    rw [List.append_nil]
    exact hdenotes
  · exact fun h => ⟨text, (List.append_nil text).symm, nofun, h⟩

theorem parseUnsigned_iff (text : List Char) (value n : UInt32) :
    parseUnsigned text value = (true, n) ↔ CountText Denotes text n.toNat := by
  rw [CountText, ← reads_nil_iff, parseUnsigned]
  by_cases hread : (strtoull text).erange = true ∨ (strtoull text).endp = text ∨
      (strtoull text).endp ≠ []
  · have hno : ∀ m, ¬ Reads text [] m := by
      rintro m ⟨herange, hend, hne, -⟩
      rw [herange, hend] at hread
      simp [hne] at hread
    simp only [← or_assoc] at hread ⊢
    rw [if_pos (Or.inl (Or.inl hread))]
    simp [hno]
  · simp only [not_or, not_not] at hread
    obtain ⟨herange, hne, hend⟩ := hread
    have hreads : Reads text [] (strtoull text).number.toNat :=
      ⟨Bool.eq_false_iff.mpr herange, hend, hend ▸ hne, rfl⟩
    have hnumber : ∀ m, Reads text [] m ↔ (strtoull text).number.toNat = m := fun m =>
      ⟨fun h => h.toNat_number, fun h => h ▸ hreads⟩
    have hstart : ¬ [] = text := hend ▸ hne
    simp only [herange, hend, hstart, Bool.false_eq_true, ne_eq, not_true_eq_false, false_or,
      hnumber, count_guard_iff]
    by_cases hrange : 1 ≤ (strtoull text).number.toNat ∧
        (strtoull text).number.toNat ≤ UINT32_MAX.toNat
    · rw [if_neg (not_not.mpr hrange), Prod.mk.injEq, ← UInt32.toNat_inj, toNat_toUInt32 hrange.2]
      constructor
      · rintro ⟨-, heq⟩
        exact ⟨heq, heq ▸ hrange⟩
      · exact fun h => ⟨rfl, h.1⟩
    · rw [if_pos hrange]
      constructor
      · intro h
        cases h
      · rintro ⟨heq, hn⟩
        exact absurd (heq ▸ hn) hrange

theorem acceptsGrammar (text : List Char) : AcceptsGrammar Denotes text where
  parseSize_iff := parseSize_iff text
  parseUnsigned_iff := parseUnsigned_iff text

/-- `2 ^ 64 - 64` behind a minus sign. -/
def wrappedSize : List Char :=
  ['-', '1', '8', '4', '4', '6', '7', '4', '4', '0', '7', '3', '7', '0', '9', '5', '5', '1', '5',
    '5', '2']

/-- It is read as the size 64. -/
theorem not_acceptsGrammar_wrappedSize : ¬ AcceptsGrammar PlainNumber wrappedSize := by
  intro h
  have haccepted : parseSize wrappedSize 0 = (true, 64) := by decide
  obtain ⟨number, suffix, n, unit, htext, ⟨hne, hdigits, -⟩, -⟩ :=
    (h.parseSize_iff 0 64).mp haccepted
  cases number with
  | nil => exact hne rfl
  | cons c more =>
    have hminus : '-' = c := (List.cons.inj htext).1
    have hdigit := hdigits c List.mem_cons_self
    rw [← hminus] at hdigit
    exact absurd hdigit (by decide)

/-! ## Texts that start with a digit -/

theorem denotes_cons_iff {c : Char} {more : List Char} {n : Nat} (hc : c.isDigit = true) :
    Denotes (c :: more) n ↔ PlainNumber (c :: more) n ∧ n ≤ ULLONG_MAX := by
  constructor
  · rintro ⟨digits, sign, hnumeral, hle, rfl⟩
    obtain ⟨blanks, hblanks, htext⟩ := hnumeral.exists_blanks
    have hdigits : sign = .absent ∧ digits = c :: more := by
      cases blanks with
      | cons b blanks =>
        have hspace := hblanks b List.mem_cons_self
        rw [← (List.cons.inj htext).1, not_isSpace_of_isDigit hc] at hspace
        cases hspace
      | nil =>
        cases sign with
        | absent => exact ⟨rfl, htext.symm⟩
        | plus =>
          rw [(List.cons.inj htext).1] at hc
          exact absurd hc (by decide)
        | minus =>
          rw [(List.cons.inj htext).1] at hc
          exact absurd hc (by decide)
    obtain ⟨rfl, rfl⟩ := hdigits
    exact ⟨⟨List.cons_ne_nil _ _, hnumeral.isDigit, rfl⟩, hle⟩
  · rintro ⟨⟨hne, hdigits, rfl⟩, hle⟩
    exact ⟨c :: more, .absent, ⟨⟨[], nofun, rfl⟩, hne, hdigits⟩, hle, rfl⟩

/-- The sizes that start with a digit have a plain number. -/
theorem sizeText_cons_iff {c : Char} (hc : c.isDigit = true) (text : List Char) (size : UInt64) :
    SizeText Denotes (c :: text) size.toNat ↔ SizeText PlainNumber (c :: text) size.toNat := by
  constructor
  · rintro ⟨number, suffix, n, unit, htext, hdenotes, hsize⟩
    refine ⟨number, suffix, n, unit, htext, ?_, hsize⟩
    cases number with
    | nil =>
      obtain ⟨_, _, hnumeral, -⟩ := hdenotes
      exact absurd rfl hnumeral.ne_nil
    | cons d more =>
      obtain ⟨rfl, -⟩ := List.cons.inj htext
      exact ((denotes_cons_iff hc).mp hdenotes).1
  · rintro ⟨number, suffix, n, unit, htext, hplain, hunit, hsize, hrange⟩
    refine ⟨number, suffix, n, unit, htext, ?_, hunit, hsize, hrange⟩
    have hle : n ≤ n * unit := Nat.le_mul_of_pos_right n hunit.bounds.1
    have hlt := size.toNat_lt
    have hmax : ULLONG_MAX = 2 ^ 64 - 1 := rfl
    cases number with
    | nil => exact absurd rfl hplain.1
    | cons d more =>
      obtain ⟨rfl, -⟩ := List.cons.inj htext
      exact (denotes_cons_iff hc).mpr ⟨hplain, by omega⟩

/-- Of the texts that start with a digit, those with a plain number are accepted. -/
theorem acceptsGrammar_plain {c : Char} (hc : c.isDigit = true) (text : List Char) :
    AcceptsGrammar PlainNumber (c :: text) where
  parseSize_iff value size := by
    rw [parseSize_iff, sizeText_cons_iff hc]
  parseUnsigned_iff value n := by
    rw [parseUnsigned_iff, CountText, CountText, denotes_cons_iff hc]
    have hlt := n.toNat_lt
    have hmax : ULLONG_MAX = 2 ^ 64 - 1 := rfl
    constructor
    · exact fun h => ⟨h.1.1, h.2⟩
    · exact fun h => ⟨⟨h.1, by omega⟩, h.2⟩

end

end DpuTest.EcDecode
