import Mathlib.Data.List.Lex
import Mathlib.Data.List.Sort
import Mathlib.Data.Nat.Log
import Mathlib.Data.UInt

/-!
# The list of the log files

`build_file_list` walks a directory with `nftw`, collects the paths of the regular
files that end in `.log` into an array that doubles when it is full, and sorts the
array with `strcmp`.  `nftw` visits the entries of a directory in no particular
order, and any of the allocations can fail.

`buildFileList_spec` says when it succeeds and what it lists then: the paths in the
order of their bytes, whatever order they came in.  The dataset that the writers
put into the pool is the concatenation of the files in this order, so it does not
depend on the walk either.
-/

namespace DpuTest.ReadBench

/-- A path without its terminator. -/
abbrev Path := List UInt8

/-- The type flags of `nftw`: `FTW_F`, and all the others. -/
inductive FtwType where
  | file
  | other
  deriving DecidableEq

/-- `.log` -/
def LOG_SUFFIX : List UInt8 := [46, 108, 111, 103]

/-- `has_log_suffix` -/
def hasLogSuffix (path : Path) : Bool :=
  path.length ≥ 4 ∧ path.drop (path.length - 4) = LOG_SUFFIX

/-- `struct file_list`; `count` is the number of the paths. -/
structure FileList where
  paths : List Path
  capacity : Nat

/-- The list, and how the next calls of `realloc` and `strdup` end; once there are
no more entries they succeed. -/
structure Collector where
  files : FileList
  allocs : List Bool

/-- The next allocation. -/
def Collector.alloc (s : Collector) : Bool × Collector :=
  (s.allocs.headD true, { s with allocs := s.allocs.tail })

/-- The array has room for one path more; false when `realloc` fails. -/
def Collector.grow (s : Collector) : Bool × Collector :=
  if s.files.paths.length = s.files.capacity then
    let newCapacity := if s.files.capacity = 0 then 16 else s.files.capacity * 2
    match s.alloc with
    | (false, s) => (false, s)
    | (true, s) => (true, { s with files := { s.files with capacity := newCapacity } })
  else (true, s)

/-- `collect_log_file`; false for -1. -/
def collectLogFile (path : Path) (type : FtwType) (s : Collector) : Bool × Collector :=
  if type ≠ .file ∨ hasLogSuffix path = false then (true, s)
  else
    match s.grow with
    | (false, s) => (false, s)
    | (true, s) =>
      match s.alloc with
      | (false, s) => (false, s)
      | (true, s) => (true, { s with files := { s.files with paths := s.files.paths ++ [path] } })

/-- A walk of `nftw`: the entries in the order of the visits, and whether it comes
to its end when no visit stops it. -/
structure Walk where
  visits : List (Path × FtwType)
  complete : Bool

/-- `nftw`: it stops at the first visit that does not return 0. -/
def nftw : List (Path × FtwType) → Collector → Bool × Collector
  | [], s => (true, s)
  | (path, type) :: visits, s =>
    match collectLogFile path type s with
    | (false, s) => (false, s)
    | (true, s) => nftw visits s

/-- `strcmp`, on strings that end where the list does. -/
def strcmp : List UInt8 → List UInt8 → Int
  | [], [] => 0
  | [], b :: _ => -(b.toNat + 1 : Int)
  | a :: _, [] => a.toNat + 1
  | a :: as, b :: bs => if a = b then strcmp as bs else (a.toNat : Int) - b.toNat

/-- `compare_paths`, for `qsort`. -/
def comparePaths (a b : Path) : Bool := strcmp a b ≤ 0

/-- `build_file_list`: whether it returns 0, and the list. -/
def buildFileList (walk : Walk) (allocs : List Bool) : Bool × List Path :=
  match nftw walk.visits { files := { paths := [], capacity := 0 }, allocs := allocs } with
  | (false, s) => (false, s.files.paths)
  | (true, s) =>
    if walk.complete = false then (false, s.files.paths)
    else if s.files.paths.length = 0 then (false, [])
    else (true, s.files.paths.mergeSort comparePaths)

/-! ## The order -/

/-- `strcmp` orders by the first byte that differs. -/
theorem strcmp_pos_iff (a b : List UInt8) :
    0 < strcmp a b ↔ List.Lex (· < ·) (b.map UInt8.toNat) (a.map UInt8.toNat) := by
  induction a generalizing b with
  | nil =>
    cases b with
    | nil => simp [strcmp]
    | cons y b =>
      simp only [strcmp, List.map_nil, List.not_lex_nil, iff_false]
      omega
  | cons x a ih =>
    cases b with
    | nil =>
      simp only [strcmp, List.map_nil, List.map_cons, List.Lex.nil, iff_true]
      omega
    | cons y b =>
      rw [strcmp, List.map_cons, List.map_cons, List.cons_lex_cons_iff]
      split_ifs with h
      · subst h
        simp [ih]
      · have hne : y.toNat ≠ x.toNat := fun heq => h (UInt8.toNat_inj.mp heq.symm)
        simp only [hne, false_and, or_false]
        omega

/-- It is the lexicographic order of the bytes. -/
theorem comparePaths_iff (a b : Path) :
    comparePaths a b = true ↔ a.map UInt8.toNat ≤ b.map UInt8.toNat := by
  rw [comparePaths, decide_eq_true_eq, ← Int.not_lt, strcmp_pos_iff]
  exact not_lt (α := List Nat)

theorem comparePaths_trans (a b c : Path) (hab : comparePaths a b = true)
    (hbc : comparePaths b c = true) : comparePaths a c = true := by
  rw [comparePaths_iff] at *
  exact le_trans hab hbc

theorem comparePaths_total (a b : Path) : (comparePaths a b || comparePaths b a) = true := by
  rw [Bool.or_eq_true, comparePaths_iff, comparePaths_iff]
  exact le_total _ _

theorem comparePaths_antisymm (a b : Path) (hab : comparePaths a b = true)
    (hba : comparePaths b a = true) : a = b := by
  rw [comparePaths_iff] at *
  exact List.map_injective_iff.mpr (fun _ _ h => UInt8.toNat_inj.mp h) (le_antisymm hab hba)

/-- Sorting forgets the order. -/
theorem mergeSort_eq_of_perm {xs ys : List Path} (h : xs.Perm ys) :
    xs.mergeSort comparePaths = ys.mergeSort comparePaths := by
  refine List.Perm.eq_of_pairwise (fun a b _ _ => comparePaths_antisymm a b)
    (List.pairwise_mergeSort comparePaths_trans comparePaths_total xs)
    (List.pairwise_mergeSort comparePaths_trans comparePaths_total ys) ?_
  exact (List.mergeSort_perm xs _).trans (h.trans (List.mergeSort_perm ys _).symm)

/-! ## The array -/

/-- The paths that are collected. -/
def logPaths (visits : List (Path × FtwType)) : List Path :=
  (visits.filter fun visit => visit.2 = .file ∧ hasLogSuffix visit.1 = true).map Prod.fst

/-- The capacity of the array with `n` paths. -/
def capacityOf (n : Nat) : Nat :=
  if n = 0 then 0 else 16 * 2 ^ Nat.clog 2 ((n + 15) / 16)

/-- The number of allocations for `n` paths: one for each, and one for each of the
capacities up to that of the array. -/
def allocations (n : Nat) : Nat :=
  n + if n = 0 then 0 else Nat.clog 2 ((n + 15) / 16) + 1

/-- The first `n` allocations succeed. -/
def Granted (allocs : List Bool) (n : Nat) : Prop := false ∉ allocs.take n

theorem le_capacityOf (n : Nat) : n ≤ capacityOf n := by
  unfold capacityOf
  split_ifs with h
  · omega
  · have hpow := Nat.le_pow_clog Nat.one_lt_two ((n + 15) / 16)
    omega

/-- A full array is doubled for the next path, and another one is not. -/
theorem capacityOf_succ (n : Nat) :
    if n = capacityOf n then
      capacityOf (n + 1) = (if capacityOf n = 0 then 16 else capacityOf n * 2) ∧
        allocations (n + 1) = allocations n + 2
    else capacityOf (n + 1) = capacityOf n ∧ allocations (n + 1) = allocations n + 1 := by
  by_cases hzero : n = 0
  · subst hzero
    simp [capacityOf, allocations]
  have hle := le_capacityOf n
  simp only [capacityOf, allocations, if_neg hzero, if_neg (Nat.succ_ne_zero n)] at hle ⊢
  have hpos : 0 < 2 ^ Nat.clog 2 ((n + 15) / 16) := Nat.two_pow_pos _
  split_ifs with hfull hnone
  · omega
  · have hnext : (n + 1 + 15) / 16 = 2 ^ Nat.clog 2 ((n + 15) / 16) + 1 := by omega
    have hclog : Nat.clog 2 ((n + 1 + 15) / 16) = Nat.clog 2 ((n + 15) / 16) + 1 := by
      apply Nat.le_antisymm
      · rw [Nat.clog_le_iff_le_pow Nat.one_lt_two, hnext, Nat.pow_succ]
        omega
      · apply Nat.lt_of_not_le
        rw [Nat.clog_le_iff_le_pow Nat.one_lt_two, hnext]
        omega
    rw [hclog, Nat.pow_succ]
    omega
  · have hclog : Nat.clog 2 ((n + 1 + 15) / 16) = Nat.clog 2 ((n + 15) / 16) := by
      apply Nat.le_antisymm
      · rw [Nat.clog_le_iff_le_pow Nat.one_lt_two]
        omega
      · exact Nat.clog_mono_right 2 (by omega)
    rw [hclog]
    omega

theorem granted_succ {allocs : List Bool} {n : Nat} :
    Granted allocs (n + 1) ↔ Granted allocs n ∧ (allocs.drop n).headD true = true := by
  have hhead : (allocs.drop n).headD true = allocs[n]?.getD true := by simp
  unfold Granted
  rw [List.take_add_one, List.mem_append, not_or, hhead]
  apply and_congr_right'
  cases allocs[n]? with
  | none => simp
  | some b => cases b <;> simp

/-- The collector has taken these paths. -/
structure Collected (allocs : List Bool) (paths : List Path) (s : Collector) : Prop where
  paths_eq : s.files.paths = paths
  capacity_eq : s.files.capacity = capacityOf paths.length
  allocs_eq : s.allocs = allocs.drop (allocations paths.length)

section

variable {allocs : List Bool} {paths : List Path} {s : Collector}

theorem alloc_eq {k : Nat} (h : s.allocs = allocs.drop k) :
    s.alloc = ((allocs.drop k).headD true, { s with allocs := allocs.drop (k + 1) }) := by
  rw [Collector.alloc, h, List.tail_drop]

/-- Making room takes an allocation when the array is full. -/
theorem grow_spec (h : Collected allocs paths s)
    (hgranted : Granted allocs (allocations paths.length)) :
    (s.grow.1 = true ↔ Granted allocs (allocations (paths.length + 1) - 1)) ∧
      (s.grow.1 = true → s.grow.2.files.paths = paths ∧
        s.grow.2.files.capacity = capacityOf (paths.length + 1) ∧
        s.grow.2.allocs = allocs.drop (allocations (paths.length + 1) - 1)) := by
  obtain ⟨hpaths, hcapacity, hallocs⟩ := h
  have hsucc := capacityOf_succ paths.length
  by_cases hfull : paths.length = capacityOf paths.length
  · rw [if_pos hfull] at hsucc
    obtain ⟨hcap, hcount⟩ := hsucc
    have hmore : allocations (paths.length + 1) - 1 = allocations paths.length + 1 := by omega
    have hnext := @granted_succ allocs (allocations paths.length)
    rw [hmore, hnext]
    simp only [Collector.grow, hpaths, hcapacity, if_pos hfull, alloc_eq hallocs]
    cases hhead : (allocs.drop (allocations paths.length)).headD true with
    | false => simp
    | true => exact ⟨iff_of_true rfl ⟨hgranted, rfl⟩, fun _ => ⟨hpaths, hcap.symm, rfl⟩⟩
  · rw [if_neg hfull] at hsucc
    obtain ⟨hcap, hcount⟩ := hsucc
    rw [hcount, Nat.add_sub_cancel]
    simp only [Collector.grow, hpaths, hcapacity, if_neg hfull]
    exact ⟨iff_of_true trivial hgranted, fun _ => ⟨trivial, hcap.symm, hallocs⟩⟩

/-- A log file is taken if its allocations succeed. -/
theorem collectLogFile_spec (h : Collected allocs paths s)
    (hgranted : Granted allocs (allocations paths.length)) (path : Path) (type : FtwType) :
    let r := collectLogFile path type s
    (r.1 = true ↔ Granted allocs (allocations (paths ++ logPaths [(path, type)]).length)) ∧
      (r.1 = true → Collected allocs (paths ++ logPaths [(path, type)]) r.2) := by
  intro r
  by_cases hlog : type = .file ∧ hasLogSuffix path = true
  · have hone : logPaths [(path, type)] = [path] := by simp [logPaths, hlog]
    have hpos : allocations (paths.length + 1) - 1 + 1 = allocations (paths.length + 1) := by
      have hle : paths.length + 1 ≤ allocations (paths.length + 1) := Nat.le_add_right _ _
      omega
    obtain ⟨hgrow, hgrown⟩ := grow_spec h hgranted
    have hskip : ¬ (type ≠ .file ∨ hasLogSuffix path = false) := by
      rw [← Bool.not_eq_true, ← not_and_or, not_not]
      exact hlog
    rw [hone, List.length_append, List.length_singleton, ← hpos, granted_succ]
    simp only [r, collectLogFile, hskip, if_false]
    cases hroom : s.grow with
    | mk ok s' =>
      rw [hroom] at hgrow hgrown
      cases ok with
      | false =>
        refine ⟨iff_of_false Bool.false_ne_true (fun hall => ?_), fun h => absurd h (by simp)⟩
        exact absurd (hgrow.mpr hall.1) Bool.false_ne_true
      | true =>
        obtain ⟨hpaths, hcapacity, hallocs⟩ := hgrown rfl
        simp only [alloc_eq hallocs]
        cases hhead : (allocs.drop (allocations (paths.length + 1) - 1)).headD true with
        | false => simp
        | true =>
          refine ⟨iff_of_true rfl ⟨hgrow.mp rfl, rfl⟩, fun _ => ⟨?_, ?_, ?_⟩⟩
          · exact congrArg (· ++ [path]) hpaths
          · show s'.files.capacity = _
            rw [List.length_append, List.length_singleton]
            exact hcapacity
          · show allocs.drop (allocations (paths.length + 1) - 1 + 1) = _
            rw [hpos, List.length_append, List.length_singleton]
  · have hnone : logPaths [(path, type)] = [] := by
      simp only [logPaths, List.filter_cons, decide_eq_true_eq, hlog, if_false, List.filter_nil,
        List.map_nil]
    have hr : r = (true, s) := by
      have hskip : type ≠ .file ∨ hasLogSuffix path = false := by
        rw [← Bool.not_eq_true, ← not_and_or]
        exact hlog
      simp only [r, collectLogFile, hskip, if_true]
    rw [hr, hnone, List.append_nil]
    exact ⟨iff_of_true rfl hgranted, fun _ => h⟩

theorem Granted.mono {m n : Nat} (h : Granted allocs n) (hle : m ≤ n) : Granted allocs m :=
  fun hmem => h (List.take_subset_take_left allocs hle hmem)

theorem allocations_mono {m n : Nat} (h : m ≤ n) : allocations m ≤ allocations n := by
  have hclog : Nat.clog 2 ((m + 15) / 16) ≤ Nat.clog 2 ((n + 15) / 16) :=
    Nat.clog_mono_right 2 (by omega)
  unfold allocations
  split_ifs <;> omega

/-- The walk takes the log files that it visits, unless an allocation fails. -/
theorem nftw_spec {visits : List (Path × FtwType)} (h : Collected allocs paths s)
    (hgranted : Granted allocs (allocations paths.length)) :
    ((nftw visits s).1 = true ↔
        Granted allocs (allocations (paths ++ logPaths visits).length)) ∧
      ((nftw visits s).1 = true →
        Collected allocs (paths ++ logPaths visits) (nftw visits s).2) := by
  induction visits generalizing paths s with
  | nil =>
    rw [show logPaths [] = [] from rfl, List.append_nil]
    exact ⟨iff_of_true rfl hgranted, fun _ => h⟩
  | cons visit visits ih =>
    obtain ⟨path, type⟩ := visit
    have hsplit :
        logPaths ((path, type) :: visits) = logPaths [(path, type)] ++ logPaths visits := by
      rw [logPaths, logPaths, logPaths, ← List.map_append, ← List.filter_append]
      rfl
    obtain ⟨hone, htaken⟩ := collectLogFile_spec h hgranted path type
    rw [hsplit, ← List.append_assoc, nftw]
    cases hvisit : collectLogFile path type s with
    | mk ok s' =>
      rw [hvisit] at hone htaken
      cases ok with
      | false =>
        refine ⟨iff_of_false Bool.false_ne_true (fun hall => ?_), fun h => absurd h (by simp)⟩
        have hle : (paths ++ logPaths [(path, type)]).length ≤
            (paths ++ logPaths [(path, type)] ++ logPaths visits).length := by
          simp only [List.length_append]
          omega
        exact absurd (hone.mpr (hall.mono (allocations_mono hle))) Bool.false_ne_true
      | true => exact ih (htaken rfl) (hone.mp rfl)

end

/-- `build_file_list` sorts what the walk has taken. -/
theorem buildFileList_inv (walk : Walk) (allocs : List Bool) :
    ((buildFileList walk allocs).1 = true ↔ walk.complete = true ∧ logPaths walk.visits ≠ [] ∧
        Granted allocs (allocations (logPaths walk.visits).length)) ∧
      ((buildFileList walk allocs).1 = true →
        (buildFileList walk allocs).2 = (logPaths walk.visits).mergeSort comparePaths) := by
  let start : Collector := { files := { paths := [], capacity := 0 }, allocs := allocs }
  have hstart : Collected allocs [] start := ⟨rfl, rfl, rfl⟩
  have hnone : Granted allocs (allocations 0) := by simp [Granted, allocations]
  obtain ⟨hok, hcollected⟩ := @nftw_spec allocs [] start walk.visits hstart hnone
  rw [List.nil_append] at hok hcollected
  unfold buildFileList
  cases hwalk : nftw walk.visits start with
  | mk ok s =>
    rw [hwalk] at hok hcollected
    cases ok with
    | false =>
      refine ⟨iff_of_false Bool.false_ne_true (fun h => ?_), fun h => absurd h (by simp)⟩
      exact absurd (hok.mpr h.2.2) Bool.false_ne_true
    | true =>
      have hpaths := (hcollected rfl).paths_eq
      rw [← hpaths] at hok ⊢
      by_cases hcomplete : walk.complete = true
      · by_cases hnil : s.files.paths = []
        · simp [hcomplete, hnil]
        · simp only [hcomplete, List.length_eq_zero_iff, hnil]
          exact ⟨iff_of_true rfl ⟨trivial, hnil, hok.mp rfl⟩, fun _ => rfl⟩
      · simp [hcomplete]

/-- The list is the one that the walk has visited. -/
theorem buildFileList_perm {walk : Walk} {allocs : List Bool}
    (h : (buildFileList walk allocs).1 = true) :
    (buildFileList walk allocs).2.Perm (logPaths walk.visits) := by
  rw [(buildFileList_inv walk allocs).2 h]
  exact List.mergeSort_perm _ _

/-- The order of the visits is not in the list. -/
theorem buildFileList_eq_of_perm {walk walk' : Walk} {allocs allocs' : List Bool}
    (hperm : walk'.visits.Perm walk.visits) (h : (buildFileList walk allocs).1 = true)
    (h' : (buildFileList walk' allocs').1 = true) :
    (buildFileList walk' allocs').2 = (buildFileList walk allocs).2 := by
  rw [(buildFileList_inv walk allocs).2 h, (buildFileList_inv walk' allocs').2 h']
  exact mergeSort_eq_of_perm ((hperm.filter _).map _)

/-- **What `build_file_list` lists.**  It succeeds when the walk comes to its end,
there is a log file, and the allocations for the paths and for the growing array
succeed.  It lists the log files of the walk, each as often as it was visited, in the
order of `strcmp`.  Another walk over the same entries gives the same list. -/
theorem buildFileList_spec (walk : Walk) (allocs : List Bool) :
    ((buildFileList walk allocs).1 = true ↔ walk.complete = true ∧ logPaths walk.visits ≠ [] ∧
        Granted allocs (allocations (logPaths walk.visits).length)) ∧
      ((buildFileList walk allocs).1 = true →
        (buildFileList walk allocs).2.Perm (logPaths walk.visits) ∧
        (buildFileList walk allocs).2.Pairwise
          (fun a b => a.map UInt8.toNat ≤ b.map UInt8.toNat) ∧
        ∀ walk' allocs', walk'.visits.Perm walk.visits →
          (buildFileList walk' allocs').1 = true →
          (buildFileList walk' allocs').2 = (buildFileList walk allocs).2) := by
  obtain ⟨hok, hlist⟩ := buildFileList_inv walk allocs
  refine ⟨hok, fun h => ⟨buildFileList_perm h, ?_, ?_⟩⟩
  · rw [hlist h]
    exact (List.pairwise_mergeSort comparePaths_trans comparePaths_total _).imp
      (fun hle => (comparePaths_iff _ _).mp hle)
  · intro walk' allocs' hperm h'
    exact buildFileList_eq_of_perm hperm h h'

end DpuTest.ReadBench
