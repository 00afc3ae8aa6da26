import DpuTest.EcDecode.ParseArgs
import DpuTest.EcDecode.VerifyCase

/-!
# The options of `ec_compare`

`parse_options` goes through the arguments once.  Each option but `--help` takes the
argument behind it, and the last value of an option counts.

`CompareOptions` carries what the parsers of the numbers make sure of, so options that
are out of range cannot be built.  `parseOptions_eq_ok_iff` says which arguments are
accepted, with which options, and `parseOptions_eq_help_iff` when the usage is asked for.
-/

namespace DpuTest.EcDecode.Compare

open Lib EcEncode

/-- `enum matrix_choice` -/
inductive MatrixChoice where
  | cauchy
  | vandermonde
  deriving DecidableEq

/-- `struct options` -/
structure CompareOptions extends Options where
  pciAddr : List Char
  blockSize : UInt64
  matrix : MatrixChoice
  blockSize_pos : 0 < blockSize.toNat
  blockSize_aligned : 64 ∣ blockSize.toNat
  blockSize_le : blockSize.toNat ≤ INT32_MAX.toNat
  iterations_pos : 1 ≤ iterations.toNat
  warmups_pos : 1 ≤ warmups.toNat

/-- The options before the first argument. -/
def defaultOptions : CompareOptions where
  pciAddr := ['b', '1', ':', '0', '0', '.', '0']
  blockSize := 1024 * 1024
  iterations := 100
  warmups := 5
  matrix := .cauchy
  blockSize_pos := by decide
  blockSize_aligned := by decide
  blockSize_le := by decide
  iterations_pos := by decide
  warmups_pos := by decide

/-- How `parse_options` ends otherwise: it leaves the program, or returns false. -/
inductive ParseExit where
  | help
  | refused
  deriving DecidableEq

def helpOption : List Char := ['-', '-', 'h', 'e', 'l', 'p']
def pciOption : List Char := ['-', '-', 'p', 'c', 'i']
def blockSizeOption : List Char :=
  ['-', '-', 'b', 'l', 'o', 'c', 'k', '-', 's', 'i', 'z', 'e']
def iterationsOption : List Char :=
  ['-', '-', 'i', 't', 'e', 'r', 'a', 't', 'i', 'o', 'n', 's']
def warmupsOption : List Char := ['-', '-', 'w', 'a', 'r', 'm', 'u', 'p', 's']
def matrixOption : List Char := ['-', '-', 'm', 'a', 't', 'r', 'i', 'x']
def cauchyName : List Char := ['c', 'a', 'u', 'c', 'h', 'y']
def vandermondeName : List Char :=
  ['v', 'a', 'n', 'd', 'e', 'r', 'm', 'o', 'n', 'd', 'e']

/-! ## The parsers of the numbers -/

/-- A size in range. -/
structure SizeOk (size : UInt64) : Prop where
  pos : 0 < size.toNat
  aligned : 64 ∣ size.toNat
  le : size.toNat ≤ INT32_MAX.toNat

theorem sizeOk_of_parseSize {text : List Char} {value size : UInt64}
    (h : parseSize text value = (true, size)) : SizeOk size := by
  obtain ⟨_, _, _, _, -, -, -, -, hpos, haligned, hle⟩ := (parseSize_iff text value size).mp h
  exact ⟨hpos, haligned, hle⟩

theorem pos_of_parseUnsigned {text : List Char} {value n : UInt32}
    (h : parseUnsigned text value = (true, n)) : 1 ≤ n.toNat :=
  ((parseUnsigned_iff text value n).mp h).2.1

namespace CompareOptions

def withBlockSize (o : CompareOptions) (size : UInt64) (h : SizeOk size) : CompareOptions :=
  { o with
    blockSize := size
    blockSize_pos := h.pos
    blockSize_aligned := h.aligned
    blockSize_le := h.le }

def withIterations (o : CompareOptions) (n : UInt32) (h : 1 ≤ n.toNat) : CompareOptions :=
  { o with iterations := n, iterations_pos := h }

def withWarmups (o : CompareOptions) (n : UInt32) (h : 1 ≤ n.toNat) : CompareOptions :=
  { o with warmups := n, warmups_pos := h }

end CompareOptions

/-! ## The loop -/

/-- An option that has an argument behind it. -/
def parseOption (o : CompareOptions) (arg value : List Char) :
    Except ParseExit CompareOptions :=
  if arg = pciOption then .ok { o with pciAddr := value }
  else if arg = blockSizeOption then
    match h : parseSize value o.blockSize with
    | (true, size) => .ok (o.withBlockSize size (sizeOk_of_parseSize h))
    | (false, _) => .error .refused
  else if arg = iterationsOption then
    match h : parseUnsigned value o.iterations with
    | (true, n) => .ok (o.withIterations n (pos_of_parseUnsigned h))
    | (false, _) => .error .refused
  else if arg = warmupsOption then
    match h : parseUnsigned value o.warmups with
    | (true, n) => .ok (o.withWarmups n (pos_of_parseUnsigned h))
    | (false, _) => .error .refused
  else if arg = matrixOption then
    if eqIgnoreCase value cauchyName then .ok { o with matrix := .cauchy }
    else if eqIgnoreCase value vandermondeName then .ok { o with matrix := .vandermonde }
    else .error .refused
  else .error .refused

/-- `parse_options` over the arguments behind the program's name. -/
def parseOptions : CompareOptions → List (List Char) → Except ParseExit CompareOptions
  | o, [] => .ok o
  | o, arg :: args =>
    if arg = helpOption then .error .help
    else
      match args with
      | [] => .error .refused
      | value :: args =>
        match parseOption o arg value with
        | .error e => .error e
        | .ok o => parseOptions o args

/-! ## What is accepted -/

/-- One option and its argument, and the field that it sets. -/
inductive Assigns (o : CompareOptions) : List Char → List Char → CompareOptions → Prop where
  | pci (value : List Char) : Assigns o pciOption value { o with pciAddr := value }
  | blockSize {value : List Char} (size : UInt64) (h : SizeOk size)
      (text : SizeText Denotes value size.toNat) :
      Assigns o blockSizeOption value (o.withBlockSize size h)
  | iterations {value : List Char} (n : UInt32) (h : 1 ≤ n.toNat)
      (text : CountText Denotes value n.toNat) :
      Assigns o iterationsOption value (o.withIterations n h)
  | warmups {value : List Char} (n : UInt32) (h : 1 ≤ n.toNat)
      (text : CountText Denotes value n.toNat) :
      Assigns o warmupsOption value (o.withWarmups n h)
  | cauchy {value : List Char} (name : value.map Char.toLower = cauchyName) :
      Assigns o matrixOption value { o with matrix := .cauchy }
  | vandermonde {value : List Char} (name : value.map Char.toLower = vandermondeName) :
      Assigns o matrixOption value { o with matrix := .vandermonde }

/-- Pairs of an option and its argument, one after the other. -/
inductive Accepts : CompareOptions → List (List Char) → CompareOptions → Prop where
  | done (o : CompareOptions) : Accepts o [] o
  | pair {o o' t : CompareOptions} {arg value : List Char} {args : List (List Char)}
      (head : Assigns o arg value o') (tail : Accepts o' args t) :
      Accepts o (arg :: value :: args) t

section

variable {o o' t : CompareOptions} {arg value : List Char} {args : List (List Char)}

theorem eqIgnoreCase_cauchyName : eqIgnoreCase value cauchyName = true ↔
    value.map Char.toLower = cauchyName := by
  have hlower : cauchyName.map Char.toLower = cauchyName := by decide
  rw [eqIgnoreCase, hlower, decide_eq_true_eq]

theorem eqIgnoreCase_vandermondeName : eqIgnoreCase value vandermondeName = true ↔
    value.map Char.toLower = vandermondeName := by
  have hlower : vandermondeName.map Char.toLower = vandermondeName := by decide
  rw [eqIgnoreCase, hlower, decide_eq_true_eq]

/-- An option is accepted with its argument exactly if the argument is in its grammar. -/
theorem parseOption_eq_ok_iff : parseOption o arg value = .ok o' ↔ Assigns o arg value o' := by
  constructor
  · intro h
    unfold parseOption at h
    split at h
    · rename_i harg
      subst harg
      cases h
      exact .pci value
    split at h
    · rename_i harg
      subst harg
      split at h
      · rename_i size hparse
        cases h
        exact .blockSize size _ ((parseSize_iff _ _ _).mp hparse)
      · cases h
    split at h
    · rename_i harg
      subst harg
      split at h
      · rename_i n hparse
        cases h
        exact .iterations n _ ((parseUnsigned_iff _ _ _).mp hparse)
      · cases h
    split at h
    · rename_i harg
      subst harg
      split at h
      · rename_i n hparse
        cases h
        exact .warmups n _ ((parseUnsigned_iff _ _ _).mp hparse)
      · cases h
    split at h
    · rename_i harg
      subst harg
      split at h
      · rename_i hname
        cases h
        exact .cauchy (eqIgnoreCase_cauchyName.mp hname)
      · split at h
        · rename_i hname
          cases h
          exact .vandermonde (eqIgnoreCase_vandermondeName.mp hname)
        · cases h
    · cases h
  · intro h
    unfold parseOption
    cases h with
    | pci => rw [if_pos rfl]
    | blockSize size hsize htext =>
      have hparse := (parseSize_iff value o.blockSize size).mpr htext
      rw [if_neg (by decide), if_pos rfl]
      split
      · rename_i size' hparse'
        rw [hparse] at hparse'
        cases hparse'
        rfl
      · rename_i hparse'
        rw [hparse] at hparse'
        cases hparse'
    | iterations n hn htext =>
      have hparse := (parseUnsigned_iff value o.iterations n).mpr htext
      rw [if_neg (by decide), if_neg (by decide), if_pos rfl]
      split
      · rename_i n' hparse'
        rw [hparse] at hparse'
        cases hparse'
        rfl
      · rename_i hparse'
        rw [hparse] at hparse'
        cases hparse'
    | warmups n hn htext =>
      have hparse := (parseUnsigned_iff value o.warmups n).mpr htext
      rw [if_neg (by decide), if_neg (by decide), if_neg (by decide), if_pos rfl]
      split
      · rename_i n' hparse'
        rw [hparse] at hparse'
        cases hparse'
        rfl
      · rename_i hparse'
        rw [hparse] at hparse'
        cases hparse'
    | cauchy hname =>
      rw [if_neg (by decide), if_neg (by decide), if_neg (by decide), if_neg (by decide),
        if_pos rfl, if_pos (eqIgnoreCase_cauchyName.mpr hname)]
    | vandermonde hname =>
      have hother : ¬ eqIgnoreCase value cauchyName = true := by
        rw [eqIgnoreCase_cauchyName, hname]
        decide
      rw [if_neg (by decide), if_neg (by decide), if_neg (by decide), if_neg (by decide),
        if_pos rfl, if_neg hother, if_pos (eqIgnoreCase_vandermondeName.mpr hname)]

theorem Assigns.ne_help (h : Assigns o arg value o') : arg ≠ helpOption := by
  cases h <;> decide

/-- The first option that is refused ends the loop. -/
theorem parseOption_eq_error {e : ParseExit} (h : parseOption o arg value = .error e) :
    e = .refused := by
  unfold parseOption at h
  split_ifs at h
  all_goals first
    | (cases h; rfl)
    | (split at h <;> cases h; rfl)

theorem parseOptions_help (o : CompareOptions) (rest : List (List Char)) :
    parseOptions o (helpOption :: rest) = .error .help := by
  unfold parseOptions
  rw [if_pos rfl]

theorem parseOptions_of_assigns (h : Assigns o arg value o') :
    parseOptions o (arg :: value :: args) = parseOptions o' args := by
  rw [parseOptions, if_neg h.ne_help]
  simp only [parseOption_eq_ok_iff.mpr h]

/-- Arguments in front of others. -/
theorem Accepts.parseOptions_append {rest : List (List Char)} (h : Accepts o args t) :
    parseOptions o (args ++ rest) = parseOptions t rest := by
  induction h with
  | done o => rfl
  | pair head _ ih =>
    rw [List.cons_append, List.cons_append, parseOptions_of_assigns head]
    exact ih

/-- What is left of the arguments when the loop stops in front of an option that does not
set anything. -/
theorem exists_accepts (o : CompareOptions) (args : List (List Char)) :
    ∃ before rest t, args = before ++ rest ∧ Accepts o before t ∧
      (rest = [] ∧ parseOptions t rest = .ok t ∨
        rest.head? = some helpOption ∧ parseOptions t rest = .error .help ∨
        parseOptions t rest = .error .refused) := by
  -- two arguments go at a time
  induction hlen : args.length using Nat.strongRecOn generalizing o args with
  | ind len ih =>
    cases args with
    | nil => exact ⟨[], [], o, rfl, .done o, Or.inl ⟨rfl, rfl⟩⟩
    | cons arg args =>
      by_cases hhelp : arg = helpOption
      · subst hhelp
        exact ⟨[], _, o, rfl, .done o, Or.inr (Or.inl ⟨rfl, parseOptions_help o args⟩)⟩
      · cases args with
        | nil =>
          refine ⟨[], _, o, rfl, .done o, Or.inr (Or.inr ?_)⟩
          rw [parseOptions, if_neg hhelp]
        | cons value args =>
          cases hone : parseOption o arg value with
          | error e =>
            have hrefused := parseOption_eq_error hone
            subst hrefused
            refine ⟨[], _, o, rfl, .done o, Or.inr (Or.inr ?_)⟩
            rw [parseOptions, if_neg hhelp]
            simp only [hone]
          | ok o' =>
            have hlt : args.length < len := by
              rw [← hlen, List.length_cons, List.length_cons]
              omega
            obtain ⟨before, rest, t, rfl, haccepts, hrest⟩ := ih _ hlt o' args rfl
            exact ⟨arg :: value :: before, rest, t, rfl,
              .pair (parseOption_eq_ok_iff.mp hone) haccepts, hrest⟩

/-- The loop accepts pairs of an option and an argument in its grammar. -/
theorem parseOptions_eq_ok_iff : parseOptions o args = .ok t ↔ Accepts o args t := by
  constructor
  · intro h
    obtain ⟨before, rest, t', rfl, haccepts, hrest⟩ := exists_accepts o args
    rw [haccepts.parseOptions_append] at h
    rcases hrest with ⟨rfl, hok⟩ | ⟨-, herror⟩ | herror
    · rw [h] at hok
      cases hok
      rw [List.append_nil]
      exact haccepts
    · rw [h] at herror
      cases herror
    · rw [h] at herror
      cases herror
  · intro h
    have hall : parseOptions o (args ++ []) = parseOptions t [] := h.parseOptions_append
    rw [List.append_nil] at hall
    exact hall

/-- The usage is printed for a `--help` behind such pairs, whatever comes after it. -/
theorem parseOptions_eq_help_iff : parseOptions o args = .error .help ↔
    ∃ before rest t, args = before ++ helpOption :: rest ∧ Accepts o before t := by
  constructor
  · intro h
    obtain ⟨before, rest, t, rfl, haccepts, hrest⟩ := exists_accepts o args
    rw [haccepts.parseOptions_append] at h
    rcases hrest with ⟨-, hok⟩ | ⟨hhead, -⟩ | herror
    · rw [h] at hok
      cases hok
    · obtain ⟨rest', rfl⟩ := List.head?_eq_some_iff.mp hhead
      exact ⟨before, rest', t, rfl, haccepts⟩
    · rw [h] at herror
      cases herror
  · rintro ⟨before, rest, t, rfl, haccepts⟩
    rw [haccepts.parseOptions_append]
    exact parseOptions_help t rest

end

end DpuTest.EcDecode.Compare
