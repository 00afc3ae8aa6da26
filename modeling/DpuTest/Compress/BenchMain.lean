import DpuTest.Compress.BenchTotals
import DpuTest.Lib.PathWalk
import DpuTest.ReadBench.FileList
import Mathlib.Algebra.BigOperators.Group.List.Basic

/-!
# The compress bench on a directory of workloads

`main` takes the subdirectories of a directory in the order of their names.  For each it
calls `test3` for the files below it that end in `.log` or `.fits`, prints the totals, and
sets them back to 0.

* `traverseDir_returns_iff`: a traversal returns if and only if it does not come to a
  directory with entries whose path fills the buffer of 1024 bytes, nor to a file that
  `test3` is called for and that cannot be read.
* `traverseDirOneLayer_reports`: the report of a subdirectory is that of its tree.  The
  orders in which `readdir` lists, and in which the device completes, do not matter.
-/

namespace DpuTest.Compress

open Lib
open ReadBench (Path strcmp mergeSort_eq_of_perm)

/-- The file system, `realpath`, and what the files hold; a file without a content cannot
be opened, or not be read to its end. -/
structure Disk extends FileSystem where
  content : Path → Option (List UInt8)
  realpath : Path → Option Path
  /-- The size of a file is a signed 64-bit number. -/
  length_lt : ∀ path file, content path = some file → file.length < 2 ^ 63

def MAX_PATH_LENGTH : Nat := 1024

/-- `strrchr`: from the last place where the byte is. -/
def strrchr (c : UInt8) : List UInt8 → Option (List UInt8)
  | [] => none
  | x :: xs =>
    match strrchr c xs with
    | some ext => some ext
    | none => if x = c then some (x :: xs) else none

/-- `".log"` and `".fits"` -/
def extensions : List (List UInt8) := [[46, 108, 111, 103], [46, 102, 105, 116, 115]]

/-- Whether `test3` is called for a regular file with this name. -/
def isWorkload (name : List UInt8) : Bool :=
  match strrchr 46 name with
  | none => false
  | some ext => ext ∈ extensions

protected def compare (a b : List UInt8) : Bool := strcmp a b ≤ 0

section

variable {b : BenchSizes} (z : ZlibAndDevice b.blobSize) (disk : Disk)

/-- A traversal returns with the state of its last call of `test3`, which does not
change the files. -/
def TraverseDir (base : Path) (s t : Test3State b) : Prop :=
  ∃ files, WalkEnds disk.toFileSystem 1024 isWorkload base files ∧
    RunsFiles z (files.map disk.content) s t

def Test3State.resetStat (s : Test3State b) : Test3State b :=
  { s with
    cpu := { s.cpu with totalAfterCompression := 0 }
    totalBefore := 0
    totalAfterDecompression := 0 }

/-- What is printed for a subdirectory. -/
structure Report where
  path : Path
  totals : Totals
  deriving DecidableEq

/-- How the listing of the subdirectories stops. -/
inductive ListStop where
  /-- `subdirs` has no place left. -/
  | overflow
  | outOfMemory

/-- The subdirectories, with what the calls of `strdup` come to. -/
def collectSubdir (strdup : Nat → Bool) (base : Path) (subdirs : List (List UInt8))
    (name : List UInt8) : Except ListStop (List (List UInt8)) :=
  if IsDots name then .ok subdirs
  else
    match disk.stat (joinPath MAX_PATH_LENGTH base name) with
    | some .directory =>
      if MAX_PATH_LENGTH ≤ subdirs.length then .error .overflow
      else if strdup subdirs.length then .ok (subdirs ++ [name])
      else .error .outOfMemory
    | some .regular => .ok subdirs
    | some .other => .ok subdirs
    | none => .ok subdirs

/-- The loop over the sorted subdirectories.  Where the absolute path does not fit in
`abs_path`, nothing is said. -/
inductive ReportsSubdirs (base : Path) :
    List (List UInt8) → Test3State b → List Report → Test3State b → Prop where
  | nil (s : Test3State b) : ReportsSubdirs base [] s [] s
  | unresolved {name : List UInt8} {names : List (List UInt8)} {s t : Test3State b}
      {reports : List Report}
      (hpath : disk.realpath (joinPath MAX_PATH_LENGTH base name) = none)
      (hrest : ReportsSubdirs base names s reports t) :
      ReportsSubdirs base (name :: names) s reports t
  | traversed {name : List UInt8} {names : List (List UInt8)} {path : Path}
      {s t u : Test3State b} {reports : List Report}
      (hpath : disk.realpath (joinPath MAX_PATH_LENGTH base name) = some path)
      (hfits : path.length < MAX_PATH_LENGTH) (htraverse : TraverseDir z disk path s t)
      (hrest : ReportsSubdirs base names t.resetStat reports u) :
      ReportsSubdirs base (name :: names) s ({ path := path, totals := t.totals } :: reports) u

/-- `traverseDirOneLayer` returns, and has printed the reports. -/
def TraverseDirOneLayer (strdup : Nat → Bool) (base : Path) (s : Test3State b)
    (reports : List Report) (t : Test3State b) : Prop :=
  match disk.opendir base with
  | none => reports = [] ∧ t = s
  | some names =>
    match names.foldlM (collectSubdir disk strdup base) [] with
    | .error .overflow => False
    | .error .outOfMemory => reports = [] ∧ t = s
    | .ok subdirs =>
      ReportsSubdirs z disk base (subdirs.mergeSort Compress.compare) s reports t

/-- The subdirectories among some names. -/
def subdirsOf (base : Path) (names : List (List UInt8)) : List (List UInt8) :=
  names.filter fun name =>
    ¬ IsDots name ∧ disk.stat (joinPath MAX_PATH_LENGTH base name) = some .directory

/-- A subdirectory with its absolute path and the tree below it. -/
structure Workload where
  name : List UInt8
  path : Path
  tree : DirTree

/-- The tree is that of the subdirectory, its paths fit, and its workloads can be read. -/
structure Workload.On (base : Path) (w : Workload) : Prop where
  realpath_eq : disk.realpath (joinPath MAX_PATH_LENGTH base w.name) = some w.path
  length_lt : w.path.length < MAX_PATH_LENGTH
  shows : Shows disk.toFileSystem 1024 isWorkload disk.content w.path w.tree

/-- The report of a subdirectory by its tree. -/
def Workload.report (w : Workload) : Report where
  path := w.path
  totals := benchTotals z (w.tree.contents isWorkload)

def Workload.before (v w : Workload) : Bool := Compress.compare v.name w.name

end

/-! ## One traversal -/

section

variable {b : BenchSizes} {z : ZlibAndDevice b.blobSize} {disk : Disk} {base : Path}
  {s t : Test3State b}

/-- The totals of files do not depend on their order. -/
theorem benchTotals_perm {files files' : List (List UInt8)} (h : files.Perm files') :
    benchTotals z files = benchTotals z files' := by
  rw [← sum_fileTotals, ← sum_fileTotals]
  exact (h.map _).sum_eq

theorem traverseDir_totals {tree : DirTree}
    (hshows : Shows disk.toFileSystem 1024 isWorkload disk.content base tree)
    (hs : Descriptors s.device) (h : TraverseDir z disk base s t) :
    Descriptors t.device ∧ t.totals = s.totals + benchTotals z (tree.contents isWorkload) := by
  obtain ⟨files, hwalk, hruns⟩ := h
  obtain ⟨files', hwalk', hperm⟩ := walk_of_shows hshows
  rw [← hwalk.unique hwalk'] at hperm
  obtain ⟨contents, hcontents⟩ := exists_eq_map_some hruns.none_notMem
  rw [← hcontents] at hruns hperm
  obtain ⟨ht, htotals⟩ := hruns.totals_eq hs
  refine ⟨ht, ?_⟩
  rw [htotals, sum_fileTotals,
    benchTotals_perm ((List.map_perm_map_iff (Option.some_injective _)).mp hperm)]

/-- A traversal returns if it gets to the end of its walk, over files that can be read. -/
theorem exists_traverseDir_iff (hfits : b.Fits) (hs : Descriptors s.device) :
    (∃ t, TraverseDir z disk base s t) ↔
      ∃ files, WalkEnds disk.toFileSystem 1024 isWorkload base files ∧
        ∀ file ∈ files, disk.content file ≠ none := by
  have hruns : ∀ files : List Path, (∃ t, RunsFiles z (files.map disk.content) s t) ↔
      ∀ file ∈ files, disk.content file ≠ none := by
    intro files
    rw [exists_runsFiles_iff hfits hs]
    · simp [List.mem_map]
    · intro file hfile
      obtain ⟨path, -, hpath⟩ := List.mem_map.mp hfile
      exact disk.length_lt path file hpath
  constructor
  · rintro ⟨t, files, hwalk, hall⟩
    exact ⟨files, hwalk, (hruns files).mp ⟨t, hall⟩⟩
  · rintro ⟨files, hwalk, hread⟩
    obtain ⟨t, hall⟩ := (hruns files).mpr hread
    exact ⟨t, files, hwalk, hall⟩

/-- A tree whose paths fit and whose workloads can be read is traversed. -/
theorem exists_traverseDir_of_shows {tree : DirTree} (hfits : b.Fits) (hs : Descriptors s.device)
    (hshows : Shows disk.toFileSystem 1024 isWorkload disk.content base tree) :
    ∃ t, TraverseDir z disk base s t := by
  obtain ⟨files, hwalk, hperm⟩ := walk_of_shows hshows
  refine (exists_traverseDir_iff hfits hs).mpr ⟨files, hwalk, fun file hfile => ?_⟩
  obtain ⟨content, -, hcontent⟩ :=
    List.mem_map.mp (hperm.mem_iff.mp (List.mem_map_of_mem hfile))
  rw [← hcontent]
  exact Option.some_ne_none content

end

/-- A directory `w` with a subdirectory `d`, which has a file `a.log` of one byte. -/
def oneLogDisk : Disk where
  opendir path :=
    if path = [119] then some [[46], [46, 46], [100]]
    else if path = [47, 119, 47, 100] then some [[97, 46, 108, 111, 103], [46]]
    else none
  stat path :=
    if path = [119, 47, 100] then some .directory
    else if path = [47, 119, 47, 100, 47, 97, 46, 108, 111, 103] then some .regular
    else none
  name_ne_nil path names h := by
    split at h
    · cases h
      decide
    · split at h
      · cases h
        decide
      · cases h
  content path := if path = [47, 119, 47, 100, 47, 97, 46, 108, 111, 103] then some [7] else none
  realpath path := some (47 :: path)
  length_lt path file h := by
    split at h
    · cases h
      exact Nat.one_lt_two_pow_iff.mpr (Nat.succ_ne_zero 62)
    · cases h

theorem fits_oneBlob : oneBlob.Fits := by
  rw [BenchSizes.Fits, BenchSizes.decompressSize, BenchSizes.blobSize]
  decide

/-- The entries of the directory `d`. -/
theorem oneLogDisk_opendir : oneLogDisk.opendir [47, 119, 47, 100] =
    some [[97, 46, 108, 111, 103], [46]] := rfl

/-- The directory `d` has a file only. -/
theorem oneLogDisk_child (path : Path) :
    ¬ Child oneLogDisk.toFileSystem 1024 [47, 119, 47, 100] path := by
  rintro ⟨names, name, hopen, hname, hdots, rfl, hstat⟩
  rw [oneLogDisk_opendir] at hopen
  cases hopen
  rcases List.mem_pair.mp hname with rfl | rfl
  · cases hstat
  · exact hdots (.inl rfl)

section

variable {b : BenchSizes} {z : ZlibAndDevice b.blobSize} {disk : Disk} {base : Path}
  {s t : Test3State b}

theorem collectSubdirs_ok {strdup : Nat → Bool} {names done : List (List UInt8)}
    (hroom : done.length + (subdirsOf disk base names).length ≤ MAX_PATH_LENGTH)
    (hstrdup : ∀ k, strdup k = true) :
    names.foldlM (collectSubdir disk strdup base) done =
      .ok (done ++ subdirsOf disk base names) := by
  induction names generalizing done with
  | nil =>
    rw [subdirsOf, List.filter_nil, List.append_nil]
    rfl
  | cons name names ih =>
    by_cases hsub : ¬ IsDots name ∧
        disk.stat (joinPath MAX_PATH_LENGTH base name) = some .directory
    · have hcons : subdirsOf disk base (name :: names) = name :: subdirsOf disk base names :=
        List.filter_cons_of_pos (by simpa using hsub)
      rw [hcons, List.length_cons] at hroom
      have hpass : collectSubdir disk strdup base done name = .ok (done ++ [name]) := by
        rw [collectSubdir, if_neg hsub.1, hsub.2]
        show (if _ then _ else _) = _
        rw [if_neg (by omega), if_pos (hstrdup _)]
      rw [List.foldlM_cons, hpass, hcons]
      show names.foldlM _ (done ++ [name]) = _
      rw [ih, List.append_assoc, List.singleton_append]
      rw [List.length_append, List.length_singleton]
      omega
    · have hcons : subdirsOf disk base (name :: names) = subdirsOf disk base names :=
        List.filter_cons_of_neg (by simpa using hsub)
      rw [hcons] at hroom
      have hpass : collectSubdir disk strdup base done name = .ok done := by
        rw [collectSubdir]
        by_cases hdots : IsDots name
        · rw [if_pos hdots]
        · rw [if_neg hdots]
          split
          · rename_i hstat
            exact absurd ⟨hdots, hstat⟩ hsub
          all_goals rfl
      rw [List.foldlM_cons, hpass, hcons]
      exact ih hroom

/-- The loop over the subdirectories returns in one way. -/
theorem reportsSubdirs_iff {ws : List Workload} {reports : List Report} (hfits : b.Fits)
    (hs : Descriptors s.device) (hzero : s.totals = 0) (hws : ∀ w ∈ ws, w.On disk base) :
    (∃ t, ReportsSubdirs z disk base (ws.map Workload.name) s reports t) ↔
      reports = ws.map (Workload.report z) := by
  induction ws generalizing s reports with
  | nil =>
    constructor
    · rintro ⟨t, h⟩
      cases h
      rfl
    · rintro rfl
      exact ⟨s, .nil s⟩
  | cons w ws ih =>
    have hw := hws w List.mem_cons_self
    have hrest := fun v hv => hws v (List.mem_cons_of_mem _ hv)
    have htotals : ∀ t, TraverseDir z disk w.path s t → Descriptors t.resetStat.device ∧
        ({ path := w.path, totals := t.totals } : Report) = w.report z := by
      intro t htraverse
      obtain ⟨ht, heq⟩ := traverseDir_totals hw.shows hs htraverse
      refine ⟨ht, ?_⟩
      rw [heq, hzero, zero_add]
      rfl
    constructor
    · rintro ⟨u, h⟩
      cases h with
      | unresolved hpath =>
        rw [hw.realpath_eq] at hpath
        cases hpath
      | traversed hpath hlt htraverse hloop =>
        rw [hw.realpath_eq] at hpath
        cases hpath
        obtain ⟨ht, hreport⟩ := htotals _ htraverse
        rw [hreport, (ih ht rfl hrest).mp ⟨u, hloop⟩]
        rfl
    · rintro rfl
      obtain ⟨t, htraverse⟩ := exists_traverseDir_of_shows (z := z) hfits hs hw.shows
      obtain ⟨ht, hreport⟩ := htotals t htraverse
      obtain ⟨u, hloop⟩ := (ih ht rfl hrest).mpr rfl
      refine ⟨u, ?_⟩
      rw [List.map_cons, List.map_cons, ← hreport]
      exact .traversed hw.realpath_eq hw.length_lt htraverse hloop

/-- Sorting the names sorts the subdirectories. -/
theorem map_name_mergeSort (ws : List Workload) :
    (ws.mergeSort Workload.before).map Workload.name =
      (ws.map Workload.name).mergeSort Compress.compare :=
  List.map_mergeSort fun _ _ _ _ => rfl

end

/-- The reports are those of the trees of the subdirectories, in the order of their names,
whatever the orders in which `readdir` lists and the device completes. -/
theorem traverseDirOneLayer_reports {b : BenchSizes} (z : ZlibAndDevice b.blobSize)
    (disk : Disk) (strdup : Nat → Bool) (base : Path) (names : List (List UInt8))
    (ws : List Workload) (mem : BenchMemory b) (reports : List Report) (hfits : b.Fits)
    (hmem : mem.start.totals = 0) (hopen : disk.opendir base = some names)
    (hnames : (ws.map Workload.name).Perm (subdirsOf disk base names))
    (hws : ∀ w ∈ ws, w.On disk base) (hcount : ws.length ≤ MAX_PATH_LENGTH)
    (hstrdup : ∀ k, strdup k = true) :
    (∃ t, TraverseDirOneLayer z disk strdup base mem.start reports t) ↔
      reports = (ws.mergeSort Workload.before).map (Workload.report z) := by
  have hlen : (subdirsOf disk base names).length = ws.length := by
    rw [← hnames.length_eq, List.length_map]
  have hcollect : names.foldlM (collectSubdir disk strdup base) [] =
      .ok (subdirsOf disk base names) := by
    rw [collectSubdirs_ok _ hstrdup, List.nil_append]
    rw [List.length_nil, Nat.zero_add, hlen]
    exact hcount
  have hsorted : (subdirsOf disk base names).mergeSort Compress.compare =
      (ws.mergeSort Workload.before).map Workload.name := by
    rw [map_name_mergeSort]
    exact mergeSort_eq_of_perm hnames.symm
  simp only [TraverseDirOneLayer, hopen, hcollect, hsorted]
  refine reportsSubdirs_iff hfits (descriptors_start mem) hmem fun w hw => hws w ?_
  exact (List.mergeSort_perm ws _).mem_iff.mp hw

/-- The subdirectory of `oneLogDisk`. -/
def oneLog : Workload where
  name := [100]
  path := [47, 119, 47, 100]
  tree := .file [97, 46, 108, 111, 103] [7] .nil

theorem oneLog_on : oneLog.On oneLogDisk [119] where
  realpath_eq := rfl
  length_lt := by decide
  shows := ⟨⟨_, rfl, .refl _⟩, ⟨⟨by decide, by decide⟩, rfl, fun _ => rfl, trivial⟩⟩

theorem traverseDirOneLayer_reports_oneLog :
    ∃ t, TraverseDirOneLayer (storedDevice oneBlob) oneLogDisk (fun _ => true) [119]
      (clearMemory oneBlob).start [oneLog.report (storedDevice oneBlob)] t := by
  refine (traverseDirOneLayer_reports (storedDevice oneBlob) oneLogDisk (fun _ => true) [119]
    [[46], [46, 46], [100]] [oneLog] (clearMemory oneBlob) _ fits_oneBlob rfl rfl (.refl _)
    (fun w hw => ?_) (by decide) fun _ => rfl).mpr ?_
  · rw [List.mem_singleton.mp hw]
    exact oneLog_on
  · rw [List.mergeSort_singleton]
    rfl

end DpuTest.Compress
