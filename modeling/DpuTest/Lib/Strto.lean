import DpuTest.Lib.CInt
import Mathlib.Data.List.TakeWhile
import Mathlib.Data.UInt
import Mathlib.Tactic.Common

/-!
# `strtoull` and `atoi`

`strtoull(text, &end, 10)` skips white space, takes an optional sign and the digits
that follow, and puts `end` behind them.  Without a digit `end` is `text`.  A number
above `ULLONG_MAX` is reported in `errno`; one behind a `-` is negated modulo `2 ^ 64`.

`Numeral text digits sign` says that `text` is such a number and nothing else, and
`Denotes text n` which value it has.  `strtoull_append` is what is read of a text that
starts with one, and `reads_iff` says when a call succeeds.
-/

namespace DpuTest.Lib

/-! ## Spans -/

section

variable {α : Type} {p : α → Bool} {body rest : List α}

/-- What is taken ends where the next entry does not belong to it. -/
theorem takeWhile_append_eq (hbody : ∀ x ∈ body, p x = true)
    (hrest : ∀ x ∈ rest.head?, p x = false) :
    (body ++ rest).takeWhile p = body := by
  rw [List.takeWhile_append_of_pos hbody]
  cases rest with
  | nil => rw [List.takeWhile_nil, List.append_nil]
  | cons x rest =>
    have hx : p x = false := hrest x rfl
    rw [List.takeWhile_cons, if_neg (by rw [hx]; decide), List.append_nil]

theorem dropWhile_append_eq (hbody : ∀ x ∈ body, p x = true)
    (hrest : ∀ x ∈ rest.head?, p x = false) :
    (body ++ rest).dropWhile p = rest := by
  have hsplit := List.takeWhile_append_dropWhile (p := p) (l := body ++ rest)
  rw [takeWhile_append_eq hbody hrest] at hsplit
  exact List.append_cancel_left hsplit

end

/-! ## The functions -/

def ULLONG_MAX : Nat := 2 ^ 64 - 1

/-- `isspace` in the C locale. -/
def isSpace (c : Char) : Bool := c = ' ' || ('\t' ≤ c && c ≤ '\r')

/-- The number that digits denote. -/
def decimal (digits : List Char) : Nat := Nat.ofDigitChars 10 digits 0

/-- What stands between the white space and the digits. -/
inductive Sign where
  | absent
  | plus
  | minus
  deriving DecidableEq

namespace Sign

def chars : Sign → List Char
  | absent => []
  | plus => ['+']
  | minus => ['-']

/-- A number with this sign as an `unsigned long long`. -/
def apply (n : Nat) : Sign → UInt64
  | minus => -UInt64.ofNat n
  | _ => UInt64.ofNat n

/-- A number with this sign, as the standard has it. -/
def value (n : Nat) : Sign → Nat
  | minus => (2 ^ 64 - n) % 2 ^ 64
  | _ => n

theorem toNat_apply {n : Nat} (h : n ≤ ULLONG_MAX) (sign : Sign) :
    (sign.apply n).toNat = sign.value n := by
  have hlt : n < 2 ^ 64 := Nat.lt_of_le_of_lt h (by decide)
  have hn : (UInt64.ofNat n).toNat = n := UInt64.toNat_ofNat_of_lt' hlt
  cases sign with
  | absent => exact hn
  | plus => exact hn
  | minus =>
    show (-UInt64.ofNat n).toNat = (2 ^ 64 - n) % 2 ^ 64
    rw [UInt64.toNat_neg, hn]
    rfl

/-- Take a sign off. -/
def read (text : List Char) : Sign × List Char :=
  match text with
  | [] => (absent, [])
  | c :: rest =>
    if c = '+' then (plus, rest)
    else if c = '-' then (minus, rest)
    else (absent, c :: rest)

theorem chars_read (text : List Char) : (read text).1.chars ++ (read text).2 = text := by
  cases text with
  | nil => rfl
  | cons c rest =>
    rw [read]
    by_cases hplus : c = '+'
    · rw [if_pos hplus, hplus]
      rfl
    · rw [if_neg hplus]
      by_cases hminus : c = '-'
      · rw [if_pos hminus, hminus]
        rfl
      · rw [if_neg hminus]
        rfl

/-- A sign in front of a digit is taken off as it stands. -/
theorem read_append (sign : Sign) {c : Char} (hc : c.isDigit = true) (rest : List Char) :
    read (sign.chars ++ c :: rest) = (sign, c :: rest) := by
  cases sign with
  | absent =>
    have hplus : c ≠ '+' := by
      rintro rfl
      exact absurd hc (by decide)
    have hminus : c ≠ '-' := by
      rintro rfl
      exact absurd hc (by decide)
    show read (c :: rest) = (absent, c :: rest)
    rw [read, if_neg hplus, if_neg hminus]
  | plus => rfl
  | minus => rfl

end Sign

/-- What `strtoull` answers: the number, `errno == ERANGE`, and `*endp`. -/
structure Strtoull where
  number : UInt64
  erange : Bool
  endp : List Char

/-- `strtoull(text, &endp, 10)` -/
def strtoull (text : List Char) : Strtoull :=
  let signed := Sign.read (text.dropWhile isSpace)
  let digits := signed.2.takeWhile Char.isDigit
  if digits = [] then { number := 0, erange := false, endp := text }
  else if ULLONG_MAX < decimal digits then
    { number := UInt64.ofNat ULLONG_MAX
      erange := true
      endp := signed.2.dropWhile Char.isDigit }
  else
    { number := signed.1.apply (decimal digits)
      erange := false
      endp := signed.2.dropWhile Char.isDigit }

/-- The value of a digit in the bases up to 16, and 16 for what is none. -/
def digitValue (c : Char) : Nat :=
  if c.isDigit then c.toNat - 48
  else if 'a' ≤ c ∧ c ≤ 'f' then c.toNat - 87
  else if 'A' ≤ c ∧ c ≤ 'F' then c.toNat - 55
  else 16

/-- The number to this base that a text starts with. -/
def numberIn (base : Nat) (text : List Char) : Nat :=
  (text.takeWhile fun c => digitValue c < base).foldl (fun n c => base * n + digitValue c) 0

/-- The number that the text behind a leading zero goes on with. -/
def numberAfterZero : List Char → Nat
  | x :: d :: rest =>
    if (x = 'x' ∨ x = 'X') ∧ digitValue d < 16 then numberIn 16 (d :: rest)
    else numberIn 8 (x :: d :: rest)
  | rest => numberIn 8 rest

/-- `strtoull(text, NULL, 0)` -/
def strtoullBase0 (text : List Char) : UInt64 :=
  let signed := Sign.read (text.dropWhile isSpace)
  if signed.2.head? = some '0' then
    let n := numberAfterZero signed.2.tail
    if ULLONG_MAX < n then UInt64.ofNat ULLONG_MAX else signed.1.apply n
  else (strtoull text).number

/-- `strtol(text, NULL, 10)`: a number that no `long` holds becomes the nearest one. -/
def strtol (text : List Char) : Int :=
  let signed := Sign.read (text.dropWhile isSpace)
  let n : Int := decimal (signed.2.takeWhile Char.isDigit)
  if signed.1 = .minus then max (-n) (-2 ^ 63) else min n (2 ^ 63 - 1)

/-- `atoi(text)`, which is `(int) strtol(text, NULL, 10)`. -/
def atoi (text : List Char) : Int := int32 (strtol text)

/-- A call reads the number `n` and stops in front of `rest`. -/
structure Reads (text rest : List Char) (n : Nat) : Prop where
  erange_eq : (strtoull text).erange = false
  endp_eq : (strtoull text).endp = rest
  endp_ne : rest ≠ text
  toNat_number : (strtoull text).number.toNat = n

/-- White space, a sign and digits. -/
structure Numeral (text digits : List Char) (sign : Sign) : Prop where
  exists_blanks : ∃ blanks, (∀ c ∈ blanks, isSpace c = true) ∧ text = blanks ++ sign.chars ++ digits
  digits_ne : digits ≠ []
  isDigit : ∀ c ∈ digits, c.isDigit = true

/-- A number that `strtoull` can read, and its value. -/
def Denotes (text : List Char) (n : Nat) : Prop :=
  ∃ digits sign, Numeral text digits sign ∧ decimal digits ≤ ULLONG_MAX ∧
    n = sign.value (decimal digits)

/-- The next character, if there is one, is not a digit. -/
def NoDigitAhead (rest : List Char) : Prop := ∀ c ∈ rest.head?, c.isDigit = false

section

variable {text digits rest : List Char} {sign : Sign} {c : Char}

theorem not_isSpace_of_isDigit (h : c.isDigit = true) : isSpace c = false := by
  cases hspace : isSpace c with
  | false => rfl
  | true =>
    simp only [isSpace, Bool.or_eq_true, Bool.and_eq_true, decide_eq_true_eq, Char.le_def,
      UInt32.le_iff_toNat_le] at hspace
    simp only [Char.isDigit, Bool.and_eq_true, decide_eq_true_eq, ge_iff_le,
      UInt32.le_iff_toNat_le] at h
    rcases hspace with rfl | ⟨-, hle⟩
    · exact absurd h (by decide)
    · have hlo : 48 ≤ c.val.toNat := h.1
      have hhi : c.val.toNat ≤ 13 := hle
      omega

theorem dropWhile_isSpace (sign : Sign) (hc : c.isDigit = true) (rest : List Char) :
    (sign.chars ++ c :: rest).dropWhile isSpace = sign.chars ++ c :: rest := by
  cases sign with
  | absent =>
    show (c :: rest).dropWhile isSpace = c :: rest
    rw [List.dropWhile_cons, if_neg (by rw [not_isSpace_of_isDigit hc]; decide)]
  | plus => rfl
  | minus => rfl

theorem noDigitAhead_dropWhile (text : List Char) :
    NoDigitAhead (text.dropWhile Char.isDigit) := by
  intro c hc
  have hhead := List.head?_dropWhile_not Char.isDigit text
  rw [Option.mem_def.mp hc] at hhead
  simpa using hhead

/-- What is read of a text that starts with a number. -/
theorem strtoull_append (h : Numeral text digits sign) (hrest : NoDigitAhead rest) :
    strtoull (text ++ rest) =
      if ULLONG_MAX < decimal digits then
        { number := UInt64.ofNat ULLONG_MAX, erange := true, endp := rest }
      else { number := sign.apply (decimal digits), erange := false, endp := rest } := by
  obtain ⟨blanks, hblanks, rfl⟩ := h.exists_blanks
  cases hdigits : digits with
  | nil => exact absurd hdigits h.digits_ne
  | cons c more =>
    have hc : c.isDigit = true := h.isDigit c (hdigits ▸ List.mem_cons_self)
    have hall : ∀ d ∈ c :: more, d.isDigit = true := hdigits ▸ h.isDigit
    have hdrop : (blanks ++ sign.chars ++ c :: more ++ rest).dropWhile isSpace =
        sign.chars ++ c :: (more ++ rest) := by
      rw [List.append_assoc, List.append_assoc, List.dropWhile_append_of_pos hblanks]
      exact dropWhile_isSpace sign hc (more ++ rest)
    have htake : (c :: (more ++ rest)).takeWhile Char.isDigit = c :: more :=
      takeWhile_append_eq hall hrest
    have hend : (c :: (more ++ rest)).dropWhile Char.isDigit = rest :=
      dropWhile_append_eq hall hrest
    simp only [strtoull, hdrop, Sign.read_append sign hc, htake, hend]
    rw [if_neg (List.cons_ne_nil _ _)]

/-- A text of which anything is read starts with a number. -/
theorem exists_numeral_of_endp_ne (h : (strtoull text).endp ≠ text) :
    ∃ number digits sign rest, Numeral number digits sign ∧ NoDigitAhead rest ∧
      text = number ++ rest := by
  by_cases hdigits : (Sign.read (text.dropWhile isSpace)).2.takeWhile Char.isDigit = []
  · simp only [strtoull, if_pos hdigits] at h
    exact absurd rfl h
  · refine ⟨text.takeWhile isSpace ++ (Sign.read (text.dropWhile isSpace)).1.chars ++
        (Sign.read (text.dropWhile isSpace)).2.takeWhile Char.isDigit, _, _,
      (Sign.read (text.dropWhile isSpace)).2.dropWhile Char.isDigit,
      ⟨⟨_, fun c hc => List.mem_takeWhile_imp hc, rfl⟩, hdigits,
        fun c hc => List.mem_takeWhile_imp hc⟩, noDigitAhead_dropWhile _, ?_⟩
    rw [List.append_assoc, List.takeWhile_append_dropWhile, List.append_assoc, Sign.chars_read,
      List.takeWhile_append_dropWhile]

theorem Numeral.ne_nil (h : Numeral text digits sign) : text ≠ [] := by
  obtain ⟨blanks, -, rfl⟩ := h.exists_blanks
  exact fun hnil => h.digits_ne (List.append_eq_nil_iff.mp hnil).2

/-- A call succeeds with what the text denotes up to `end`. -/
theorem reads_iff {n : Nat} : Reads text rest n ↔
    ∃ number, text = number ++ rest ∧ NoDigitAhead rest ∧ Denotes number n := by
  constructor
  · rintro ⟨herange, hend, hne, hn⟩
    have hmoved : (strtoull text).endp ≠ text := by
      rw [hend]
      exact hne
    obtain ⟨number, digits, sign, rest', hnumeral, hahead, rfl⟩ :=
      exists_numeral_of_endp_ne hmoved
    rw [strtoull_append hnumeral hahead] at herange hend hn
    by_cases hlarge : ULLONG_MAX < decimal digits
    · rw [if_pos hlarge] at herange
      cases herange
    · rw [if_neg hlarge] at hend hn
      have hle : decimal digits ≤ ULLONG_MAX := Nat.not_lt.mp hlarge
      have hrest : rest' = rest := hend
      subst hrest
      exact ⟨number, rfl, hahead, digits, sign, hnumeral, hle,
        hn.symm.trans (Sign.toNat_apply hle sign)⟩
  · rintro ⟨number, rfl, hahead, digits, sign, hnumeral, hle, rfl⟩
    have hread := strtoull_append hnumeral hahead
    rw [if_neg (Nat.not_lt.mpr hle)] at hread
    refine
      { erange_eq := by rw [hread]
        endp_eq := by rw [hread]
        endp_ne := fun hsame => hnumeral.ne_nil (List.self_eq_append_left.mp hsame)
        toNat_number := by rw [hread, Sign.toNat_apply hle] }

/-! ## Printed numbers -/

theorem isDigit_of_mem_toDigits {n : Nat} (h : c ∈ Nat.toDigits 10 n) : c.isDigit = true :=
  Nat.isDigit_of_mem_toDigits (by decide) (by decide) h

theorem numeral_toDigits (n : Nat) : Numeral (Nat.toDigits 10 n) (Nat.toDigits 10 n) .absent where
  exists_blanks := ⟨[], fun _ hc => (nomatch hc), rfl⟩
  digits_ne := Nat.toDigits_ne_nil
  isDigit _ hc := isDigit_of_mem_toDigits hc

/-- Only zero is printed with a leading zero. -/
theorem head?_toDigits_ne {n : Nat} (h : 0 < n) : (Nat.toDigits 10 n).head? ≠ some '0' := by
  induction n using Nat.strongRecOn with
  | ind n ih =>
    rw [Nat.toDigits_eq_if (by decide)]
    by_cases hlt : n < 10
    · rw [if_pos hlt, List.head?_cons]
      intro hzero
      have := Nat.digitChar_eq_zero.mp (Option.some.inj hzero)
      omega
    · rw [if_neg hlt, List.head?_append_of_ne_nil _ Nat.toDigits_ne_nil]
      exact ih (n / 10) (by omega) (by omega)

theorem not_isDigit_of_isSpace (h : isSpace c = true) : c.isDigit = false := by
  cases hdigit : c.isDigit with
  | false => rfl
  | true =>
    rw [not_isSpace_of_isDigit hdigit] at h
    cases h

theorem digitValue_of_isSpace (h : isSpace c = true) : digitValue c = 16 := by
  have hdigit := not_isDigit_of_isSpace h
  have hlow : c.val.toNat ≤ 32 := by
    simp only [isSpace, Bool.or_eq_true, Bool.and_eq_true, decide_eq_true_eq, Char.le_def,
      UInt32.le_iff_toNat_le] at h
    rcases h with rfl | ⟨-, hle⟩
    · decide
    · have hcr : c.val.toNat ≤ 13 := hle
      omega
  have hbelow : ∀ d : Char, 32 < d.val.toNat → ¬ d ≤ c := by
    intro d hd hle
    have := UInt32.le_iff_toNat_le.mp (Char.le_def.mp hle)
    omega
  rw [digitValue, hdigit, if_neg (by decide), if_neg fun hle => hbelow 'a' (by decide) hle.1,
    if_neg fun hle => hbelow 'A' (by decide) hle.1]

theorem numberIn_eq_zero {base : Nat} (hbase : base ≤ 16)
    (hrest : ∀ d ∈ rest.head?, isSpace d = true) : numberIn base rest = 0 := by
  cases rest with
  | nil => rfl
  | cons d rest =>
    have hd : digitValue d = 16 := digitValue_of_isSpace (hrest d rfl)
    have hnot : ¬ (decide (digitValue d < base) = true) := by
      rw [decide_eq_true_eq]
      omega
    rw [numberIn, List.takeWhile_cons, if_neg hnot]
    rfl

theorem numberAfterZero_eq_zero (hrest : ∀ d ∈ rest.head?, isSpace d = true) :
    numberAfterZero rest = 0 := by
  unfold numberAfterZero
  split
  · rename_i x d more
    have hx : isSpace x = true := hrest x rfl
    have hletter : ¬ (x = 'x' ∨ x = 'X') := by
      rintro (rfl | rfl) <;> exact absurd hx (by decide)
    rw [if_neg fun h => hletter h.1]
    exact numberIn_eq_zero (by decide) hrest
  · exact numberIn_eq_zero (by decide) hrest

/-- A printed number at the end of a line is read back. -/
theorem strtoullBase0_toDigits {n : Nat} (hn : n ≤ ULLONG_MAX)
    (hrest : ∀ d ∈ rest.head?, isSpace d = true) :
    (strtoullBase0 (Nat.toDigits 10 n ++ rest)).toNat = n := by
  have hsigned : Sign.read ((Nat.toDigits 10 n ++ rest).dropWhile isSpace) =
      (.absent, Nat.toDigits 10 n ++ rest) := by
    obtain ⟨c, more, hdigits⟩ := List.exists_cons_of_ne_nil (Nat.toDigits_ne_nil (n := n) (b := 10))
    have hc : c.isDigit = true := isDigit_of_mem_toDigits (hdigits ▸ List.mem_cons_self)
    have hdrop := dropWhile_isSpace .absent hc (more ++ rest)
    have hread := Sign.read_append .absent hc (more ++ rest)
    rw [hdigits]
    simp only [Sign.chars, List.nil_append] at hdrop hread
    rw [List.cons_append, hdrop, hread]
  simp only [strtoullBase0, hsigned]
  rcases Nat.eq_zero_or_pos n with rfl | hpos
  · rw [Nat.toDigits_zero, if_pos (show (['0'] ++ rest).head? = some '0' from rfl)]
    show (if ULLONG_MAX < numberAfterZero rest then UInt64.ofNat ULLONG_MAX
      else UInt64.ofNat (numberAfterZero rest)).toNat = 0
    rw [numberAfterZero_eq_zero hrest]
    rfl
  · have hhead : (Nat.toDigits 10 n ++ rest).head? ≠ some '0' := by
      rw [List.head?_append_of_ne_nil _ Nat.toDigits_ne_nil]
      exact head?_toDigits_ne hpos
    have hvalue : decimal (Nat.toDigits 10 n) = n := Nat.ofDigitChars_ten_toDigits
    rw [if_neg hhead, strtoull_append (numeral_toDigits n)
      fun d hd => not_isDigit_of_isSpace (hrest d hd), hvalue, if_neg (Nat.not_lt.mpr hn)]
    exact Sign.toNat_apply hn .absent

end

end DpuTest.Lib
