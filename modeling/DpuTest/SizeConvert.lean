import DpuTest.Lib.Buffer
import DpuTest.Lib.Double
import DpuTest.Lib.Strto

/-!
# `size_convert`

`doca_ec.c` and `main.cc` read their block size with the same function: a number of digits
and dots, and then a unit.  The number goes through an array of 32 characters and a `double`.
The unit is made of the first two letters behind the number, whatever stands between them.

`convert_eq_scale` says so for a number that fits in the array, and `convert_of_long` and
`convert_of_unterminated` are the longer ones.  A number without a dot and its product are
exact (`convert_of_digits`).
-/

namespace DpuTest

namespace SizeConvert

open Lib

/-- What the language leaves undefined. -/
inductive Undefined where
  | pastNumStr
  | pastUnit
  | unterminated
  | castOverflow
  deriving DecidableEq

def NUL : Char := Char.ofNat 0

/-- `char a[n] = {0}` -/
def emptyString (n : Nat) : Buffer Char n where
  data := List.replicate n NUL
  length_data := List.length_replicate

/-- The string in an array, when it is terminated there. -/
def cString {n : Nat} (a : Buffer Char n) : Option (List Char) :=
  if a.data.contains NUL then some (a.data.takeWhile (· ≠ NUL)) else none

/-- `isdigit(c) || c == '.'` -/
def isNumberChar (c : Char) : Bool := c.isDigit || c = '.'

/-- `atof(text)` for a text of digits and dots. -/
def atof (text : List Char) : ℚ :=
  let whole := text.takeWhile Char.isDigit
  match text.dropWhile Char.isDigit with
  | [] => toDouble (decimal whole)
  | _ :: rest =>
    -- The first dot; the number ends in front of the second one.
    let fraction := rest.takeWhile Char.isDigit
    toDouble (decimal (whole ++ fraction) / 10 ^ fraction.length)

/-- The loop over the unit, which stores a letter with `unit[j++] = toupper(s[i])`. -/
def scanUnit : List Char → Nat → Buffer Char 3 → Option (Buffer Char 3)
  | [], _, unit => some unit
  | c :: s, j, unit =>
    if j < 2 then
      if c.isAlpha then (unit.store j [c.toUpper]).bind (scanUnit s (j + 1))
      else scanUnit s j unit
    else some unit

/-- `num * 1024 * ... * 1024` -/
def times1024 : Nat → ℚ → ℚ
  | 0, num => num
  | k + 1, num => toDouble (times1024 k num * 1024)

/-- `return (int)q` -/
def returnInt (q : ℚ) : Except Undefined Int :=
  match doubleToInt q with
  | some z => .ok z
  | none => .error .castOverflow

/-- The `strcmp` chain at the end. -/
def scale (unit : List Char) (num : ℚ) : Except Undefined Int :=
  if unit = ['K', 'B'] then returnInt (times1024 1 num)
  else if unit = ['M', 'B'] then returnInt (times1024 2 num)
  else if unit = ['G', 'B'] then returnInt (times1024 3 num)
  else if unit = ['B'] ∨ unit = [] then returnInt num
  else .ok (-1)

/-- The body that the two copies share. -/
def convert (s : List Char) : Except Undefined Int :=
  match (emptyString 32).store 0 (s.takeWhile isNumberChar) with
  | none => .error .pastNumStr
  | some numStr =>
    match cString numStr, scanUnit (s.dropWhile isNumberChar) 0 (emptyString 3) with
    | none, _ => .error .unterminated
    | some _, none => .error .pastUnit
    | some text, some unit =>
      match cString unit with
      | none => .error .unterminated
      | some unit => scale unit (atof text)

/-! ## What the unit is -/

/-- The first two letters, in upper case. -/
def unitLetters (rest : List Char) : List Char :=
  ((rest.filter Char.isAlpha).take 2).map Char.toUpper

/-- What a unit in upper case stands for. -/
def unitFactor (unit : List Char) : Option Nat :=
  if unit = ['K', 'B'] then some (2 ^ 10)
  else if unit = ['M', 'B'] then some (2 ^ 20)
  else if unit = ['G', 'B'] then some (2 ^ 30)
  else if unit = ['B'] ∨ unit = [] then some 1
  else none

/-- The number has ended. -/
def NoNumberAhead (rest : List Char) : Prop := ∀ c ∈ rest.head?, isNumberChar c = false

theorem noNumberAhead_cons {c : Char} {rest : List Char} (h : isNumberChar c = false) :
    NoNumberAhead (c :: rest) := by
  intro d hd
  rw [← Option.some.inj hd]
  exact h

/-! ## Strings in arrays -/

section

variable {n j : Nat} {a : Buffer Char n} {unit : Buffer Char 3} {u number digits rest : List Char}
  {c : Char}

/-- A string and the zeros behind it. -/
structure Holds (a : Buffer Char n) (u : List Char) : Prop where
  data_eq : a.data = u ++ List.replicate (n - u.length) NUL
  length_le : u.length ≤ n
  ne_nul : ∀ c ∈ u, c ≠ NUL

theorem holds_emptyString (n : Nat) : Holds (emptyString n) [] where
  data_eq := rfl
  length_le := Nat.zero_le n
  ne_nul c hc := by cases hc

/-- What is stored behind the string continues it. -/
theorem Holds.store (h : Holds a u) {v : List Char} (hv : ∀ c ∈ v, c ≠ NUL)
    (hlen : u.length + v.length ≤ n) :
    ∃ a', a.store u.length v = some a' ∧ Holds a' (u ++ v) := by
  refine ⟨a.put u.length v hlen, a.store_eq_some hlen, ?_, ?_, ?_⟩
  · rw [Buffer.put_data, h.data_eq, writeAt, List.take_left, List.drop_append,
      List.drop_eq_nil_of_le (Nat.le_add_right _ _), List.nil_append, List.drop_replicate,
      List.length_append]
    congr 2
    omega
  · rw [List.length_append]
    exact hlen
  · intro c hc
    rcases List.mem_append.mp hc with hc | hc
    · exact h.ne_nul c hc
    · exact hv c hc

theorem Holds.cString_eq (h : Holds a u) (hlt : u.length < n) : cString a = some u := by
  obtain ⟨k, hk⟩ : ∃ k, n - u.length = k + 1 := ⟨n - u.length - 1, by omega⟩
  have hdata : a.data = u ++ NUL :: List.replicate k NUL := by
    rw [h.data_eq, hk, List.replicate_succ]
  have hmem : a.data.contains NUL = true := by
    rw [hdata, List.contains_iff_mem]
    exact List.mem_append_right u List.mem_cons_self
  have htake : a.data.takeWhile (· ≠ NUL) = u := by
    rw [hdata, List.takeWhile_append_of_pos fun c hc => by simpa using h.ne_nul c hc]
    simp
  rw [cString, if_pos hmem, htake]

/-- An array that is full has no terminator. -/
theorem Holds.cString_eq_none (h : Holds a u) (hfull : u.length = n) : cString a = none := by
  have hdata : a.data = u := by
    rw [h.data_eq, hfull, Nat.sub_self, List.replicate_zero, List.append_nil]
  have hmem : ¬ a.data.contains NUL = true := by
    rw [hdata, List.contains_iff_mem]
    exact fun hnul => h.ne_nul NUL hnul rfl
  rw [cString, if_neg hmem]

/-! ## The unit -/

theorem bounds_of_isAlpha (h : c.isAlpha = true) : 65 ≤ c.toNat ∧ c.toNat ≤ 122 := by
  have hranges : (decide ('A'.val ≤ c.val ∧ c.val ≤ 'Z'.val) ||
      (decide ('a'.val ≤ c.val) && decide (c.val ≤ 'z'.val))) = true := h
  simp only [Bool.or_eq_true, Bool.and_eq_true, decide_eq_true_eq, UInt32.le_iff_toNat_le]
    at hranges
  rcases hranges with ⟨hlo, hhi⟩ | ⟨hlo, hhi⟩
  · have hlo' : 65 ≤ c.toNat := hlo
    have hhi' : c.toNat ≤ 90 := hhi
    omega
  · have hlo' : 97 ≤ c.toNat := hlo
    have hhi' : c.toNat ≤ 122 := hhi
    omega

theorem toUpper_ne_nul (h : c.isAlpha = true) : c.toUpper ≠ NUL := by
  have hbounds := bounds_of_isAlpha h
  have hall : ∀ k < 58, (Char.ofNat (65 + k)).toUpper ≠ NUL := by decide
  have hc : Char.ofNat (65 + (c.toNat - 65)) = c := by
    rw [show 65 + (c.toNat - 65) = c.toNat by omega, Char.ofNat_toNat]
  rw [← hc]
  exact hall (c.toNat - 65) (by omega)

/-- The loop takes letters until it has two of them. -/
theorem scanUnit_spec (h : Holds unit u) (hu : u.length ≤ 2) :
    ∃ unit', scanUnit rest u.length unit = some unit' ∧
      Holds unit' (u ++ ((rest.filter Char.isAlpha).take (2 - u.length)).map Char.toUpper) := by
  induction rest generalizing u unit with
  | nil => exact ⟨unit, rfl, by simpa using h⟩
  | cons c rest ih =>
    rw [scanUnit]
    by_cases hroom : u.length < 2
    · rw [if_pos hroom]
      cases halpha : c.isAlpha with
      | true =>
        obtain ⟨unit', hstore, hholds⟩ := h.store (v := [c.toUpper])
          (fun d hd => by rw [List.mem_singleton.mp hd]; exact toUpper_ne_nul halpha)
          (by rw [List.length_singleton]; omega)
        have hlen : (u ++ [c.toUpper]).length = u.length + 1 := List.length_append
        obtain ⟨unit'', hscan, hholds'⟩ := ih hholds (by omega)
        rw [hlen] at hscan hholds'
        refine ⟨unit'', ?_, ?_⟩
        · rw [if_pos rfl, hstore, Option.bind_some]
          exact hscan
        · rw [List.filter_cons_of_pos halpha, show 2 - u.length = 2 - (u.length + 1) + 1 by omega,
            List.take_succ_cons, List.map_cons, List.append_cons]
          exact hholds'
      | false =>
        obtain ⟨unit', hscan, hholds⟩ := ih h hu
        rw [List.filter_cons_of_neg (by rw [halpha]; decide)]
        exact ⟨unit', hscan, hholds⟩
    · rw [if_neg hroom, show 2 - u.length = 0 by omega, List.take_zero, List.map_nil,
        List.append_nil]
      exact ⟨unit, rfl, h⟩

/-! ## The number -/

theorem isNumberChar_of_isDigit (h : c.isDigit = true) : isNumberChar c = true := by
  rw [isNumberChar, h, Bool.true_or]

theorem ne_nul_of_isNumberChar (h : isNumberChar c = true) : c ≠ NUL := by
  rintro rfl
  exact absurd h (by decide)

/-- A number without a dot below `2 ^ 53` is exact. -/
theorem atof_digits (hdigits : ∀ c ∈ digits, c.isDigit = true) (hval : decimal digits < 2 ^ 53) :
    atof digits = (decimal digits : ℕ) := by
  have htake : digits.takeWhile Char.isDigit = digits := List.takeWhile_eq_self_iff.mpr hdigits
  have hdrop : digits.dropWhile Char.isDigit = [] := List.dropWhile_eq_nil_iff.mpr hdigits
  have hexact := toDouble_natCast_mul (k := 0) hval
  rw [pow_zero, mul_one] at hexact
  simp only [atof, htake, hdrop, hexact]

/-- Each multiplication is exact. -/
theorem times1024_natCast {k m : ℕ} (h : m < 2 ^ 53) : times1024 k m = (m * 2 ^ (10 * k) : ℕ) := by
  induction k with
  | zero => rw [times1024, Nat.mul_zero, pow_zero, mul_one]
  | succ k ih =>
    have hexact := toDouble_natCast_mul (k := 10 * (k + 1)) h
    have hprod : ((m * 2 ^ (10 * k) : ℕ) : ℚ) * 1024 = m * 2 ^ (10 * (k + 1)) := by
      rw [Nat.mul_succ, pow_add]
      push_cast
      ring
    rw [times1024, ih, hprod, hexact]
    push_cast
    rfl

theorem returnInt_natCast {m : ℕ} : returnInt (m : ℚ) =
    if m < 2 ^ 31 then .ok (m : ℤ) else .error .castOverflow := by
  by_cases h : m < 2 ^ 31
  · rw [returnInt, doubleToInt_natCast h, if_pos h]
  · rw [returnInt, doubleToInt_natCast_of_le (Nat.not_lt.mp h), if_neg h]

/-- A unit that is known multiplies, and another one is an error. -/
theorem scale_natCast {m : ℕ} (hm : m < 2 ^ 53) :
    scale u m = (unitFactor u).elim (.ok (-1)) fun factor => returnInt (m * factor : ℕ) := by
  unfold unitFactor scale
  by_cases hkb : u = ['K', 'B']
  · rw [if_pos hkb, if_pos hkb, Option.elim_some, times1024_natCast hm]
  rw [if_neg hkb, if_neg hkb]
  by_cases hmb : u = ['M', 'B']
  · rw [if_pos hmb, if_pos hmb, Option.elim_some, times1024_natCast hm]
  rw [if_neg hmb, if_neg hmb]
  by_cases hgb : u = ['G', 'B']
  · rw [if_pos hgb, if_pos hgb, Option.elim_some, times1024_natCast hm]
  rw [if_neg hgb, if_neg hgb]
  by_cases hb : u = ['B'] ∨ u = []
  · rw [if_pos hb, if_pos hb, Option.elim_some, Nat.mul_one]
  · rw [if_neg hb, if_neg hb, Option.elim_none]

/-! ## The whole function -/

theorem holds_number (hnumber : ∀ c ∈ number, isNumberChar c = true) (hlen : number.length ≤ 32) :
    ∃ numStr, (emptyString 32).store 0 number = some numStr ∧ Holds numStr number := by
  obtain ⟨numStr, hstore, hholds⟩ := (holds_emptyString 32).store (v := number)
    (fun c hc => ne_nul_of_isNumberChar (hnumber c hc)) (by rw [List.length_nil]; omega)
  exact ⟨numStr, hstore, hholds⟩

/-- The letters fit in front of the terminator of `unit`. -/
theorem scanUnit_emptyString (rest : List Char) :
    ∃ unit, scanUnit rest 0 (emptyString 3) = some unit ∧ Holds unit (unitLetters rest) :=
  scanUnit_spec (holds_emptyString 3) (Nat.zero_le 2)

theorem length_unitLetters_le (rest : List Char) : (unitLetters rest).length ≤ 2 := by
  rw [unitLetters, List.length_map, List.length_take]
  exact Nat.min_le_left _ _

/-- A number of at most 31 characters is scaled by the unit behind it. -/
theorem convert_eq_scale (hnumber : ∀ c ∈ number, isNumberChar c = true)
    (hrest : NoNumberAhead rest) (hlen : number.length ≤ 31) :
    convert (number ++ rest) = scale (unitLetters rest) (atof number) := by
  obtain ⟨numStr, hstore, hnum⟩ := holds_number hnumber (Nat.le_succ_of_le hlen)
  obtain ⟨unit, hscan, hunit⟩ := scanUnit_emptyString rest
  have hle := length_unitLetters_le rest
  rw [convert, takeWhile_append_eq hnumber hrest, dropWhile_append_eq hnumber hrest, hstore]
  simp only [hnum.cString_eq (by omega), hscan, hunit.cString_eq (by omega)]

/-- A longer number is written past the end of `num_str`. -/
theorem convert_of_long (hnumber : ∀ c ∈ number, isNumberChar c = true)
    (hrest : NoNumberAhead rest) (hlen : 32 < number.length) :
    convert (number ++ rest) = .error .pastNumStr := by
  have hstore : (emptyString 32).store 0 number = none := dif_neg (by omega)
  rw [convert, takeWhile_append_eq hnumber hrest, hstore]

/-- A number of 32 characters is not terminated. -/
theorem convert_of_unterminated (hnumber : ∀ c ∈ number, isNumberChar c = true)
    (hrest : NoNumberAhead rest) (hlen : number.length = 32) :
    convert (number ++ rest) = .error .unterminated := by
  obtain ⟨numStr, hstore, hnum⟩ := holds_number hnumber (Nat.le_of_eq hlen)
  rw [convert, takeWhile_append_eq hnumber hrest, hstore]
  simp only [hnum.cString_eq_none hlen]

end

end SizeConvert

/-- `size_convert` of `doca_ec.c` -/
def EcDecode.sizeConvert : List Char → Except SizeConvert.Undefined Int := SizeConvert.convert

/-- `size_convert` of `main.cc` -/
def EcEncode.sizeConvert : List Char → Except SizeConvert.Undefined Int := SizeConvert.convert

namespace SizeConvert

open Lib

/-- The terminator of `unit` stays where it is. -/
theorem scanUnit_keeps_terminator (rest : List Char) :
    ∃ unit, scanUnit rest 0 (emptyString 3) = some unit ∧ unit.data[2]? = some NUL := by
  obtain ⟨unit, hscan, hunit⟩ := scanUnit_emptyString rest
  have hle := length_unitLetters_le rest
  refine ⟨unit, hscan, ?_⟩
  rw [hunit.data_eq, List.getElem?_append_right hle, List.getElem?_replicate, if_pos (by omega)]

/-- A number without a dot is exact, and so is its product. -/
theorem convert_of_digits (digits rest : List Char) (hdigits : ∀ c ∈ digits, c.isDigit = true)
    (hrest : NoNumberAhead rest) (hlen : digits.length ≤ 31) (hval : decimal digits < 2 ^ 53) :
    convert (digits ++ rest) = (unitFactor (unitLetters rest)).elim (.ok (-1)) fun factor =>
      if decimal digits * factor < 2 ^ 31 then .ok ((decimal digits * factor : ℕ) : ℤ)
      else .error .castOverflow := by
  rw [convert_eq_scale (fun c hc => isNumberChar_of_isDigit (hdigits c hc)) hrest hlen,
    atof_digits hdigits hval, scale_natCast hval]
  simp only [returnInt_natCast]

/-- A number without a dot is multiplied by the unit that the first two letters behind it
make, and there is no number when they do not make one.  Nothing is stored past the end of
`num_str`, or over the terminator of `unit`. -/
theorem sizeConvert_of_plain (digits rest : List Char) (hdigits : ∀ c ∈ digits, c.isDigit = true)
    (hrest : NoNumberAhead rest) (hlen : digits.length ≤ 31) (hval : decimal digits < 2 ^ 53) :
    EcEncode.sizeConvert = EcDecode.sizeConvert ∧
      (unitFactor (unitLetters rest) = none →
        EcDecode.sizeConvert (digits ++ rest) = .ok (-1)) ∧
      (∀ factor, unitFactor (unitLetters rest) = some factor →
        decimal digits * factor < 2 ^ 31 →
        EcDecode.sizeConvert (digits ++ rest) = .ok ((decimal digits * factor : ℕ) : ℤ)) ∧
      (∃ numStr, (emptyString 32).store 0 digits = some numStr) ∧
      ∃ unit, scanUnit rest 0 (emptyString 3) = some unit ∧ unit.data[2]? = some NUL := by
  have hconvert := convert_of_digits digits rest hdigits hrest hlen hval
  refine ⟨rfl, fun hnone => ?_, fun factor hunit hfit => ?_, ?_, scanUnit_keeps_terminator rest⟩
  · rw [hnone, Option.elim_none] at hconvert
    exact hconvert
  · rw [hunit, Option.elim_some, if_pos hfit] at hconvert
    exact hconvert
  · obtain ⟨numStr, hstore, -⟩ := holds_number
      (fun c hc => isNumberChar_of_isDigit (hdigits c hc)) (Nat.le_succ_of_le hlen)
    exact ⟨numStr, hstore⟩

theorem sizeConvert_of_plain_mb :
    EcDecode.sizeConvert (['1', '6'] ++ [' ', 'm', 'b']) = .ok ((16 * 2 ^ 20 : ℕ) : ℤ) :=
  (sizeConvert_of_plain ['1', '6'] [' ', 'm', 'b'] (List.all_eq_true.mp rfl)
    (noNumberAhead_cons rfl) (by decide) (by decide)).2.2.1 (2 ^ 20) (by decide) (by decide)

/-- `KBX` is no unit, and `1KBX` is read as `1KB`. -/
theorem sizeConvert_third_letter :
    unitFactor (['K', 'B', 'X'].map Char.toUpper) = none ∧
      EcDecode.sizeConvert (['1'] ++ ['K', 'B', 'X']) = .ok 1024 := by
  refine ⟨by decide, ?_⟩
  have hconvert := convert_of_digits ['1'] ['K', 'B', 'X'] (List.all_eq_true.mp rfl)
    (noNumberAhead_cons rfl) (by decide) (by decide)
  have hunit : unitFactor (unitLetters ['K', 'B', 'X']) = some (2 ^ 10) := by decide
  rw [hunit, Option.elim_some, if_pos (by decide)] at hconvert
  exact hconvert.trans (congrArg Except.ok (by decide))

end SizeConvert

end DpuTest
