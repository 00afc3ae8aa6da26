import DpuTest.Lib.Strto
import Mathlib.Data.List.Nodup

/-!
# The erasure list of `test_cpu`

`test_cpu` reads `-k`, `-m` and `-e` in any order, and then lists the chunks that it is going
to lose: `erasure_count` of them, counted down from the last data chunk, and a `-1` behind
them.

`parseOptions_eq_ok_iff` says what is accepted: one pair of arguments after the other.  The bound on
`-e` is tested against the `k` and `m` of that moment, and against all chunks, but the list
counts down through the data chunks only.  So the list is valid if and only if no more chunks
are lost than there are data chunks in the end (`erasureList_valid_iff`).
-/

namespace DpuTest.EcDecode.TestCpu

open Lib

def DEFAULT_K : Int := 8
def DEFAULT_M : Int := 4
def DEFAULT_ERASURE_COUNT : Int := 4

/-- The three variables that the options set. -/
structure Options where
  k : Int
  m : Int
  erasureCount : Int

def defaultOptions : Options where
  k := DEFAULT_K
  m := DEFAULT_M
  erasureCount := DEFAULT_ERASURE_COUNT

/-- How `main` ends in the option loop: with a status and what it has printed, or, when
`k + m` leaves the range of an `int`, in undefined behaviour. -/
inductive Exit where
  | returns (status : Int) (stdout stderr : String)
  | undefined

/-- `print_usage(program_name)` -/
def printUsage (programName : List Char) : String :=
  "Usage: " ++ String.ofList programName ++ " [options]\n" ++
  "Options:\n" ++
  "  -k <value>    Number of data blocks (default: " ++ toString DEFAULT_K ++ ")\n" ++
  "  -m <value>    Number of parity blocks (default: " ++ toString DEFAULT_M ++ ")\n" ++
  "  -e <value>    Number of erasures (default: " ++ toString DEFAULT_ERASURE_COUNT ++ ")\n" ++
  "  -h            Show this help message\n"

/-- The option loop of `main` over the arguments behind the program's name. -/
def parseOptions (programName : List Char) : Options → List (List Char) → Except Exit Options
  | o, [] => .ok o
  | o, arg :: args =>
    if arg = ['-', 'k'] then
      match args with
      | [] => .error (.returns 1 "" "Error: -k requires an argument\n")
      | value :: args =>
        if atoi value ≤ 0 then .error (.returns 1 "" "Error: k must be positive\n")
        else parseOptions programName { o with k := atoi value } args
    else if arg = ['-', 'm'] then
      match args with
      | [] => .error (.returns 1 "" "Error: -m requires an argument\n")
      | value :: args =>
        if atoi value ≤ 0 then .error (.returns 1 "" "Error: m must be positive\n")
        else parseOptions programName { o with m := atoi value } args
    else if arg = ['-', 'e'] then
      match args with
      | [] => .error (.returns 1 "" "Error: -e requires an argument\n")
      | value :: args =>
        -- `k + m` is compared with, or printed.
        if 2 ^ 31 ≤ o.k + o.m then .error .undefined
        else if atoi value < 0 ∨ o.k + o.m < atoi value then
          .error (.returns 1 ""
            ("Error: erasure_count must be between 0 and " ++ toString (o.k + o.m) ++ "\n"))
        else parseOptions programName { o with erasureCount := atoi value } args
    else if arg = ['-', 'h'] then .error (.returns 0 (printUsage programName) "")
    else .error (.returns 1 (printUsage programName)
      ("Error: Unknown option '" ++ String.ofList arg ++ "'\n"))

/-- What the loop over `i` writes to `erasures`. -/
def erasedIds (o : Options) : List Int :=
  (List.range o.erasureCount.toNat).map fun i : Nat => o.k - 1 - (i : Int)

/-- The array `erasures` that `main` fills before it decodes.  Between the options and the
list `main` can still end: when the data are too small, without memory, and without a coding
matrix. -/
def erasureList (o : Options) : List Int := erasedIds o ++ [-1]

/-- Between 0 and all chunks are lost, and the list has as many different chunks and a
terminator. -/
structure ValidErasures (o : Options) : Prop where
  count_nonneg : 0 ≤ o.erasureCount
  count_le : o.erasureCount ≤ o.k + o.m
  exists_ids : ∃ ids : List Int, erasureList o = ids ++ [-1] ∧ (ids.length : Int) = o.erasureCount ∧
    ids.Nodup ∧ ∀ id ∈ ids, 0 ≤ id ∧ id ≤ o.k + o.m - 1

/-- The number behind the last `option` of arguments that stand in pairs, and `n` when there
is none. -/
def lastNumber (option : List Char) : Int → List (List Char) → Int
  | n, arg :: value :: args => lastNumber option (if arg = option then atoi value else n) args
  | n, _ => n

/-! ## What is accepted -/

/-- One option and its argument: the test it passes and the variable it sets. -/
def Assigns (o : Options) (arg value : List Char) (o' : Options) : Prop :=
  (arg = ['-', 'k'] ∧ 0 < atoi value ∧ o' = { o with k := atoi value }) ∨
  (arg = ['-', 'm'] ∧ 0 < atoi value ∧ o' = { o with m := atoi value }) ∨
  (arg = ['-', 'e'] ∧ o.k + o.m < 2 ^ 31 ∧ 0 ≤ atoi value ∧ atoi value ≤ o.k + o.m ∧
    o' = { o with erasureCount := atoi value })

/-- Pairs of arguments, one after the other. -/
inductive Accepts : Options → List (List Char) → Options → Prop where
  | done (o : Options) : Accepts o [] o
  | pair {o o' t : Options} {arg value : List Char} {args : List (List Char)}
      (head : Assigns o arg value o') (tail : Accepts o' args t) :
      Accepts o (arg :: value :: args) t

section

variable {programName arg value option : List Char} {args : List (List Char)} {o o' t : Options}

theorem parseOptions_cons_inv (h : parseOptions programName o (arg :: args) = .ok t) :
    ∃ value rest o', args = value :: rest ∧ Assigns o arg value o' ∧
      parseOptions programName o' rest = .ok t := by
  unfold parseOptions at h
  by_cases hk : arg = ['-', 'k']
  · rw [if_pos hk] at h
    cases args with
    | nil => cases h
    | cons value rest =>
      by_cases hpos : atoi value ≤ 0
      · simp only [if_pos hpos] at h
        cases h
      · simp only [if_neg hpos] at h
        exact ⟨value, rest, _, rfl, Or.inl ⟨hk, by omega, rfl⟩, h⟩
  rw [if_neg hk] at h
  by_cases hm : arg = ['-', 'm']
  · rw [if_pos hm] at h
    cases args with
    | nil => cases h
    | cons value rest =>
      by_cases hpos : atoi value ≤ 0
      · simp only [if_pos hpos] at h
        cases h
      · simp only [if_neg hpos] at h
        exact ⟨value, rest, _, rfl, Or.inr (Or.inl ⟨hm, by omega, rfl⟩), h⟩
  rw [if_neg hm] at h
  by_cases he : arg = ['-', 'e']
  · rw [if_pos he] at h
    cases args with
    | nil => cases h
    | cons value rest =>
      by_cases hover : 2 ^ 31 ≤ o.k + o.m
      · simp only [if_pos hover] at h
        cases h
      · simp only [if_neg hover] at h
        by_cases hrange : atoi value < 0 ∨ o.k + o.m < atoi value
        · rw [if_pos hrange] at h
          cases h
        · rw [if_neg hrange] at h
          exact ⟨value, rest, _, rfl,
            Or.inr (Or.inr ⟨he, by omega, by omega, by omega, rfl⟩), h⟩
  rw [if_neg he] at h
  by_cases hh : arg = ['-', 'h']
  · rw [if_pos hh] at h
    cases h
  · rw [if_neg hh] at h
    cases h

theorem parseOptions_of_assigns (h : Assigns o arg value o') :
    parseOptions programName o (arg :: value :: args) = parseOptions programName o' args := by
  rcases h with ⟨rfl, hpos, rfl⟩ | ⟨rfl, hpos, rfl⟩ | ⟨rfl, hfit, hnonneg, hle, rfl⟩
  · rw [parseOptions, if_pos rfl]
    exact if_neg (by omega)
  · rw [parseOptions, if_neg (by decide), if_pos rfl]
    exact if_neg (by omega)
  · rw [parseOptions, if_neg (by decide), if_neg (by decide), if_pos rfl]
    exact (if_neg (by omega)).trans (if_neg (by omega))

/-- The loop accepts pairs of an option and a number that passes the option's test. -/
theorem parseOptions_eq_ok_iff : parseOptions programName o args = .ok t ↔ Accepts o args t := by
  constructor
  · intro h
    -- The induction is on the number of arguments, two of which go at a time.
    generalize hlen : args.length = len
    induction len using Nat.strongRecOn generalizing o args with
    | ind len ih =>
      cases args with
      | nil =>
        cases h
        exact Accepts.done _
      | cons arg args =>
        obtain ⟨value, rest, o', rfl, hassigns, hrest⟩ := parseOptions_cons_inv h
        have hlt : rest.length < len := by
          rw [← hlen, List.length_cons, List.length_cons]
          omega
        exact Accepts.pair hassigns (ih rest.length hlt hrest rfl)
  · intro h
    induction h with
    | done o => rfl
    | pair head _ ih =>
      rw [parseOptions_of_assigns head]
      exact ih

/-! ## The variables in the end -/

theorem Assigns.k_eq (h : Assigns o arg value o') :
    o'.k = if arg = ['-', 'k'] then atoi value else o.k := by
  rcases h with ⟨rfl, -, rfl⟩ | ⟨rfl, -, rfl⟩ | ⟨rfl, -, -, -, rfl⟩ <;> rfl

theorem Assigns.erasureCount_eq (h : Assigns o arg value o') :
    o'.erasureCount = if arg = ['-', 'e'] then atoi value else o.erasureCount := by
  rcases h with ⟨rfl, -, rfl⟩ | ⟨rfl, -, rfl⟩ | ⟨rfl, -, -, -, rfl⟩ <;> rfl

theorem Accepts.k_eq (h : Accepts o args t) : t.k = lastNumber ['-', 'k'] o.k args := by
  induction h with
  | done o => rfl
  | pair head _ ih => rw [lastNumber, ih, head.k_eq]

theorem Accepts.erasureCount_eq (h : Accepts o args t) :
    t.erasureCount = lastNumber ['-', 'e'] o.erasureCount args := by
  induction h with
  | done o => rfl
  | pair head _ ih => rw [lastNumber, ih, head.erasureCount_eq]

/-- What every test makes sure of, whatever comes after it. -/
structure Positive (o : Options) : Prop where
  k_pos : 0 < o.k
  m_pos : 0 < o.m
  count_nonneg : 0 ≤ o.erasureCount

theorem positive_defaultOptions : Positive defaultOptions where
  k_pos := by decide
  m_pos := by decide
  count_nonneg := by decide

theorem Positive.assigns (h : Positive o) (ha : Assigns o arg value o') : Positive o' := by
  rcases ha with ⟨-, hpos, rfl⟩ | ⟨-, hpos, rfl⟩ | ⟨-, -, hnonneg, -, rfl⟩
  · exact { h with k_pos := hpos }
  · exact { h with m_pos := hpos }
  · exact { h with count_nonneg := hnonneg }

theorem Positive.accepts (h : Positive o) (ha : Accepts o args t) : Positive t := by
  induction ha with
  | done o => exact h
  | pair head _ ih => exact ih (h.assigns head)

/-! ## The list -/

theorem validErasures_iff (h : Positive o) : ValidErasures o ↔ o.erasureCount ≤ o.k := by
  constructor
  · rintro ⟨hnonneg, -, ids, hlist, hlen, -, hids⟩
    -- The last chunk of the list is the one that leaves the range first.
    by_contra hlt
    have hids_eq : erasedIds o = ids := List.append_cancel_right hlist
    have hk := h.k_pos
    have hmem : -1 ∈ ids := by
      rw [← hids_eq]
      refine List.mem_map.mpr ⟨o.k.toNat, List.mem_range.mpr (by omega), ?_⟩
      omega
    have := (hids (-1) hmem).1
    omega
  · intro hle
    have hm := h.m_pos
    have hnonneg := h.count_nonneg
    refine ⟨hnonneg, by omega, erasedIds o, rfl, ?_, ?_, ?_⟩
    · rw [erasedIds, List.length_map, List.length_range]
      omega
    · refine List.nodup_range.map fun i j hij => ?_
      have hsame : o.k - 1 - (i : Int) = o.k - 1 - (j : Int) := hij
      omega
    · intro id hid
      obtain ⟨i, hi, rfl⟩ := List.mem_map.mp hid
      have hlt := List.mem_range.mp hi
      omega

/-- What the accepted arguments make of the list is valid if and only if the last `-e` is at
most the last `-k`. -/
theorem erasureList_valid_iff (programName : List Char) (args : List (List Char)) (o : Options)
    (h : parseOptions programName defaultOptions args = .ok o) :
    ValidErasures o ↔ lastNumber ['-', 'e'] DEFAULT_ERASURE_COUNT args ≤
      lastNumber ['-', 'k'] DEFAULT_K args := by
  have haccepts := parseOptions_eq_ok_iff.mp h
  have hk : o.k = lastNumber ['-', 'k'] DEFAULT_K args := haccepts.k_eq
  have he : o.erasureCount = lastNumber ['-', 'e'] DEFAULT_ERASURE_COUNT args :=
    haccepts.erasureCount_eq
  rw [← hk, ← he]
  exact validErasures_iff (positive_defaultOptions.accepts haccepts)

theorem erasureList_valid_iff_two :
    ValidErasures { k := atoi ['6'], m := 4, erasureCount := atoi ['2'] } ↔
      lastNumber ['-', 'e'] DEFAULT_ERASURE_COUNT [['-', 'e'], ['2'], ['-', 'k'], ['6']] ≤
      lastNumber ['-', 'k'] DEFAULT_K [['-', 'e'], ['2'], ['-', 'k'], ['6']] :=
  erasureList_valid_iff [] [['-', 'e'], ['2'], ['-', 'k'], ['6']] _
    (parseOptions_eq_ok_iff.mpr
      (.pair (.inr (.inr ⟨rfl, by decide, by decide, by decide, rfl⟩))
        (.pair (.inl ⟨rfl, by decide, rfl⟩) (.done _))))

/-- `-k 2 -m 2 -e 3` passes every test, and the list has a terminator too many. -/
theorem exists_not_validErasures :
    ∃ o, parseOptions [] defaultOptions
        [['-', 'k'], ['2'], ['-', 'm'], ['2'], ['-', 'e'], ['3']] = .ok o ∧
      erasureList o = [1, 0, -1, -1] ∧ ¬ ValidErasures o := by
  refine ⟨{ k := atoi ['2'], m := atoi ['2'], erasureCount := atoi ['3'] }, ?_, by decide, ?_⟩
  · exact parseOptions_eq_ok_iff.mpr
      (.pair (.inl ⟨rfl, by decide, rfl⟩)
        (.pair (.inr (.inl ⟨rfl, by decide, rfl⟩))
          (.pair (.inr (.inr ⟨rfl, by decide, by decide, by decide, rfl⟩)) (.done _))))
  · rw [validErasures_iff ⟨by decide, by decide, by decide⟩]
    decide

end

end DpuTest.EcDecode.TestCpu
