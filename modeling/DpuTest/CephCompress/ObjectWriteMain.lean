import DpuTest.CephCompress.ObjectWrite
import Mathlib.Algebra.Order.Ring.Rat
import Mathlib.Data.Nat.Cast.Order.Ring
import Mathlib.Algebra.BigOperators.Group.List.Basic

/-!
# The comparison of the two pools

`objectWrite.py` empties the pools `po1` and `po2`.  Then it writes each workload to both
of them, reads what they hold, compares the two throughputs, and empties the pools again.

A missing pool or a data file that cannot be opened ends the script, and so does a pool whose
objects take no time to read, since it then has no throughput.  The throughput of the second
pool is divided by, so that a workload whose data files are all empty ends it too.
`objectWriteMain_spec` says that nothing else does when the clock moves on at every reading,
and that a workload is measured without what was in the pools before it.

Times are rational numbers, and only the readings around the reads of objects are counted:
those around the writes go into a sum that is never used.
-/

namespace DpuTest.CephCompress

open Lib
open CephBuild (Text Disk Clock DataDir pathJoin walkedPath)

/-- The subdirectories in the order of `os.listdir`.  The path of the directory is one that
`os.path.abspath` leaves as it is. -/
def subdirectories (directory : Text) : (entries : Entries) → entries.Distinct → List DataDir
  | .nil, _ => []
  | .file _ rest, h => subdirectories directory rest h.2
  | .dir name sub rest, h =>
    { path := pathJoin directory name.chars, entries := sub, distinct := h.2.1 } ::
      subdirectories directory rest h.2.2

/-- `traverse_directory_one_layer(directory)` -/
def traverseDirectoryOneLayer (d : DataDir) : List DataDir :=
  subdirectories d.path d.entries d.distinct

/-- `sorted(workloads)` -/
def workloads (d : DataDir) : List DataDir :=
  (traverseDirectoryOneLayer d).insertionSort fun a b => a.path ≤ b.path

section Script

variable {ε : Type} (rados : ErasableStore Text UInt8 ε) (clock : Clock) (disk : Disk)
  (opens : Text → Bool)

/-- The two pools, if they exist, and how often the clock has been read. -/
structure Pools where
  po1 : Option rados.State
  po2 : Option rados.State
  readings : Nat

/-- The sums of `measure_read_performance`. -/
structure Measured where
  totalReadTime : Rat := 0
  totalReadBytes : Nat := 0
  readings : Nat

/-- The loop body of `measure_read_performance`.  An object that cannot be read is passed
over. -/
def measureObject (pool : rados.State) (m : Measured) (objectName : Text) : Measured :=
  match rados.read pool objectName (4 * 1024 * 1024) with
  | .ok data =>
    { totalReadTime := m.totalReadTime + (clock (m.readings + 1) - clock m.readings)
      totalReadBytes := m.totalReadBytes + data.length
      readings := m.readings + 2 }
  | .error _ => { m with readings := m.readings + 1 }

/-- `measure_read_performance(cluster_conf, pool_name)` with the sums behind its loop.  Without
a time there is no `throughput` to return, which is an exception. -/
def measure (pool : rados.State) (readings : Nat) : Option (Rat × Measured) :=
  let m := (rados.keys pool).foldl (measureObject rados clock pool) { readings := readings }
  if 0 < m.totalReadTime then some (m.totalReadBytes / m.totalReadTime, m) else none

/-- `traverse_directory_write(directory, conf_path, pool_name)`.  Without the pool it exits, and
a data file that cannot be opened is an exception. -/
def traverseWrite (workload : DataDir) (pool : Option rados.State) : Option rados.State :=
  if workload.entries.walkPaths.all fun rel =>
      !decide (IsWorkload (walkedPath workload.path rel)) || opens (walkedPath workload.path rel)
  then pool.map fun pool => (traverseDirectoryWrite rados.toObjectStore disk workload pool).pool
  else none

/-- `delete_all_objects(pool_name)`.  An exception ends it. -/
def deleteAllObjects (pool : Option rados.State) : Option rados.State := pool.map rados.clear

/-- The loop body for a workload: what is measured for the two pools, and the pools behind it.
`none` is an exception or an exit. -/
def compareWorkload (pools : Pools rados) (workload : DataDir) :
    Option ((Measured × Measured) × Pools rados) :=
  (traverseWrite rados disk opens workload pools.po1).bind fun po1 =>
  (measure rados clock po1 pools.readings).bind fun (_, m1) =>
  (traverseWrite rados disk opens workload pools.po2).bind fun po2 =>
  (measure rados clock po2 m1.readings).bind fun (throughput2, m2) =>
    -- `(throughput2 - throughput1) / throughput2`
    if throughput2 = 0 then none
    else some ((m1, m2), {
      po1 := deleteAllObjects rados (some po1)
      po2 := deleteAllObjects rados (some po2)
      readings := m2.readings })

/-- The loop over the workloads: what has been compared, and the pools at the end. -/
def compareWorkloads : List DataDir → Pools rados →
    List (Measured × Measured) × Option (Pools rados)
  | [], pools => ([], some pools)
  | workload :: rest, pools =>
    match compareWorkload rados clock disk opens pools workload with
    | none => ([], none)
    | some (measured, pools) =>
      (measured :: (compareWorkloads rest pools).1, (compareWorkloads rest pools).2)

/-- The script. -/
def objectWriteMain (directoryToScan : DataDir) (pools : Pools rados) :
    List (Measured × Measured) × Option (Pools rados) :=
  compareWorkloads rados clock disk opens (workloads directoryToScan)
    { pools with
      po1 := deleteAllObjects rados pools.po1
      po2 := deleteAllObjects rados pools.po2 }

end Script

/-- The size of the data files of a workload. -/
def workloadBytes (disk : Disk) (d : DataDir) : Nat :=
  ((workloadPaths d).map fun rel => (disk (walkedPath d.path rel)).length).sum

/-- The data files of a workload can be opened, and one of them has a byte. -/
def Comparable (disk : Disk) (opens : Text → Bool) (d : DataDir) : Prop :=
  (∀ rel ∈ workloadPaths d, opens (walkedPath d.path rel) = true) ∧ workloadBytes disk d ≠ 0

instance (disk : Disk) (opens : Text → Bool) :
    DecidablePred (Comparable disk opens) :=
  fun _ => inferInstanceAs (Decidable (_ ∧ _))

section

variable {ε : Type} {rados : ErasableStore Text UInt8 ε} {clock : Clock} {disk : Disk}
  {opens : Text → Bool} {pools : Pools rados} {d : DataDir}

/-- Both pools are there. -/
def Pools.Exist (pools : Pools rados) : Prop := pools.po1.isSome ∧ pools.po2.isSome

/-- A pool that is there is empty. -/
def Pools.Empty (pools : Pools rados) : Prop :=
  (∀ pool ∈ pools.po1, rados.Empty pool) ∧ ∀ pool ∈ pools.po2, rados.Empty pool

theorem empty_deleteAllObjects (pool : Option rados.State) :
    ∀ pool' ∈ deleteAllObjects rados pool, rados.Empty pool' := by
  intro pool' hpool'
  obtain ⟨old, -, rfl⟩ := Option.map_eq_some_iff.mp hpool'
  exact rados.empty_clear old

/-! ## Measuring -/

/-- The loop adds up what `measureReadPerformance` does, and every object that is read takes
some time. -/
theorem foldl_measureObject (hclock : StrictMono clock) (pool : rados.State) (names : List Text)
    (m : Measured) :
    (names.foldl (measureObject rados clock pool) m).totalReadBytes =
        m.totalReadBytes + (names.map (readBytes rados.toObjectStore pool)).sum ∧
      m.totalReadTime ≤ (names.foldl (measureObject rados clock pool) m).totalReadTime ∧
      ((names.map (readBytes rados.toObjectStore pool)).sum ≠ 0 →
        m.totalReadTime < (names.foldl (measureObject rados clock pool) m).totalReadTime) := by
  induction names generalizing m with
  | nil => exact ⟨rfl, le_rfl, fun h => absurd rfl h⟩
  | cons name names ih =>
    obtain ⟨hbytes, hle, hlt⟩ := ih (measureObject rados clock pool m name)
    rw [List.foldl_cons, List.map_cons, List.sum_cons, hbytes, readBytes]
    rw [measureObject] at hle hlt ⊢
    cases hread : rados.read pool name (4 * 1024 * 1024) with
    | ok data =>
      simp only [hread] at hle hlt ⊢
      have htick := hclock (Nat.lt_succ_self m.readings)
      have hless : m.totalReadTime <
          m.totalReadTime + (clock (m.readings + 1) - clock m.readings) :=
        lt_add_of_pos_right _ (sub_pos.mpr htick)
      exact ⟨Nat.add_assoc _ _ _, (hless.trans_le hle).le, fun _ => hless.trans_le hle⟩
    | error _ =>
      simp only [hread] at hle hlt ⊢
      rw [Nat.zero_add]
      exact ⟨rfl, hle, hlt⟩

/-- A pool in which there is a byte has a throughput. -/
theorem measure_of_ne_zero (hclock : StrictMono clock) {pool : rados.State}
    (h : measureReadPerformance rados.toObjectStore pool ≠ 0) (readings : Nat) :
    ∃ throughput m, measure rados clock pool readings = some (throughput, m) ∧
      throughput ≠ 0 ∧ m.totalReadBytes = measureReadPerformance rados.toObjectStore pool := by
  have hsum : measureReadPerformance rados.toObjectStore pool = _ :=
    (foldl_readBytes pool (rados.keys pool) 0).trans (Nat.zero_add _)
  obtain ⟨hbytes, -, hlt⟩ :=
    foldl_measureObject hclock pool (rados.keys pool) { readings := readings }
  rw [Nat.zero_add, ← hsum] at hbytes
  have htime := hlt (hsum ▸ h)
  rw [measure, if_pos htime]
  refine ⟨_, _, rfl, ?_, hbytes⟩
  rw [hbytes]
  exact div_ne_zero (Nat.cast_ne_zero.mpr h) htime.ne'

/-- What has a throughput without a byte has none to divide by. -/
theorem throughput_eq_zero (hclock : StrictMono clock) {pool : rados.State}
    (h : measureReadPerformance rados.toObjectStore pool = 0) {readings : Nat}
    {result : Rat × Measured} (hresult : measure rados clock pool readings = some result) :
    result.1 = 0 := by
  have hsum : measureReadPerformance rados.toObjectStore pool = _ :=
    (foldl_readBytes pool (rados.keys pool) 0).trans (Nat.zero_add _)
  obtain ⟨hbytes, -, -⟩ :=
    foldl_measureObject hclock pool (rados.keys pool) { readings := readings }
  rw [Nat.zero_add, ← hsum] at hbytes
  rw [measure] at hresult
  split at hresult
  · cases hresult
    show (Nat.cast _ : Rat) / _ = 0
    rw [hbytes]
    show ((measureReadPerformance rados.toObjectStore pool : Nat) : Rat) / _ = 0
    rw [h, Nat.cast_zero, zero_div]
  · cases hresult

/-! ## Workloads -/

variable (disk) in
/-- A workload that is written to an empty pool is read from it. -/
theorem measure_traverse {pool : rados.State} (hempty : rados.Empty pool) (d : DataDir) :
    measureReadPerformance rados.toObjectStore
      (traverseDirectoryWrite rados.toObjectStore disk d pool).pool = workloadBytes disk d := by
  have hperm := perm_writtenObjects d disk
  have hwritten := (hperm.map Prod.fst).nodup_iff.mpr (nodup_workloadNames d disk)
  have hle : ∀ object ∈ d.entries.walkPaths.flatMap
      (fun rel => writtenObjects disk (walkedPath d.path rel)), object.2.length ≤ chunkSize := by
    intro object hobject
    obtain ⟨rel, -, hmem⟩ := List.mem_flatMap.mp (hperm.mem_iff.mp hobject)
    exact (pieces_fileObjects _ _).length_le object hmem
  rw [pool_traverseDirectoryWrite, measureReadPerformance_writeAll hempty hwritten hle,
    (hperm.map _).sum_nat, sum_length_objects, workloadBytes]

/-- The files that are opened are the data files. -/
theorem opens_walkPaths_iff :
    (d.entries.walkPaths.all fun rel => !decide (IsWorkload (walkedPath d.path rel)) ||
        opens (walkedPath d.path rel)) = true ↔
      ∀ rel ∈ workloadPaths d, opens (walkedPath d.path rel) = true := by
  rw [List.all_eq_true]
  constructor
  · intro h rel hrel
    obtain ⟨hpath, hworkload⟩ := mem_workloadPaths.mp hrel
    have hrel := h rel ((Entries.perm_walkPaths d.entries).mem_iff.mpr hpath)
    rw [decide_eq_true hworkload, Bool.not_true, Bool.false_or] at hrel
    exact hrel
  · intro h rel hrel
    by_cases hworkload : IsWorkload (walkedPath d.path rel)
    · have hpath := (Entries.perm_walkPaths d.entries).mem_iff.mp hrel
      rw [h rel (mem_workloadPaths.mpr ⟨hpath, hworkload⟩), Bool.or_true]
    · rw [decide_eq_false hworkload, Bool.not_false, Bool.true_or]

theorem traverseWrite_eq_some_iff {pool : Option rados.State} {written : rados.State} :
    traverseWrite rados disk opens d pool = some written ↔
      (∀ rel ∈ workloadPaths d, opens (walkedPath d.path rel) = true) ∧
        ∃ old ∈ pool,
          (traverseDirectoryWrite rados.toObjectStore disk d old).pool = written := by
  rw [traverseWrite]
  by_cases hopens : ∀ rel ∈ workloadPaths d, opens (walkedPath d.path rel) = true
  · rw [if_pos (opens_walkPaths_iff.mpr hopens), Option.map_eq_some_iff, and_iff_right hopens]
    rfl
  · rw [if_neg fun hall => hopens (opens_walkPaths_iff.mp hall)]
    exact ⟨nofun, fun h => absurd h.1 hopens⟩

/-- A workload that can be compared is. -/
theorem compareWorkload_of_comparable (hclock : StrictMono clock) (hempty : pools.Empty)
    (hexist : pools.Exist) (h : Comparable disk opens d) :
    ∃ m1 m2 pools', compareWorkload rados clock disk opens pools d = some ((m1, m2), pools') ∧
      (m1.totalReadBytes, m2.totalReadBytes) = (workloadBytes disk d, workloadBytes disk d) ∧
      pools'.Empty ∧ pools'.Exist := by
  obtain ⟨old1, hold1⟩ := Option.isSome_iff_exists.mp hexist.1
  obtain ⟨old2, hold2⟩ := Option.isSome_iff_exists.mp hexist.2
  have hwrite1 : traverseWrite rados disk opens d pools.po1 = _ :=
    traverseWrite_eq_some_iff.mpr ⟨h.1, old1, hold1, rfl⟩
  have hwrite2 : traverseWrite rados disk opens d pools.po2 = _ :=
    traverseWrite_eq_some_iff.mpr ⟨h.1, old2, hold2, rfl⟩
  have hbytes1 := measure_traverse disk (hempty.1 old1 hold1) d
  have hbytes2 := measure_traverse disk (hempty.2 old2 hold2) d
  obtain ⟨throughput1, m1, hmeasure1, -, hm1⟩ :=
    measure_of_ne_zero hclock (hbytes1.trans_ne h.2) pools.readings
  obtain ⟨throughput2, m2, hmeasure2, hne, hm2⟩ :=
    measure_of_ne_zero hclock (hbytes2.trans_ne h.2) m1.readings
  let pools' : Pools rados :=
    { po1 := deleteAllObjects rados
        (some (traverseDirectoryWrite rados.toObjectStore disk d old1).pool)
      po2 := deleteAllObjects rados
        (some (traverseDirectoryWrite rados.toObjectStore disk d old2).pool)
      readings := m2.readings }
  refine ⟨m1, m2, pools', ?_, Prod.ext (hm1.trans hbytes1) (hm2.trans hbytes2), ?_, ?_⟩
  · rw [compareWorkload, hwrite1, Option.bind_some, hmeasure1]
    simp only [Option.bind_some, hwrite2, hmeasure2]
    exact if_neg hne
  · exact ⟨empty_deleteAllObjects (some _), empty_deleteAllObjects (some _)⟩
  · exact ⟨rfl, rfl⟩

theorem comparable_of_compareWorkload (hclock : StrictMono clock) (hempty : pools.Empty)
    {result : (Measured × Measured) × Pools rados}
    (h : compareWorkload rados clock disk opens pools d = some result) :
    pools.Exist ∧ Comparable disk opens d := by
  rw [compareWorkload] at h
  obtain ⟨po1, hwrite1, h⟩ := Option.bind_eq_some_iff.mp h
  obtain ⟨⟨throughput1, m1⟩, -, h⟩ := Option.bind_eq_some_iff.mp h
  obtain ⟨po2, hwrite2, h⟩ := Option.bind_eq_some_iff.mp h
  obtain ⟨⟨throughput2, m2⟩, hmeasure2, h⟩ := Option.bind_eq_some_iff.mp h
  obtain ⟨hopens, old1, hold1, -⟩ := traverseWrite_eq_some_iff.mp hwrite1
  obtain ⟨-, old2, hold2, hpo2⟩ := traverseWrite_eq_some_iff.mp hwrite2
  refine ⟨⟨?_, ?_⟩, hopens, fun hzero => ?_⟩
  · rw [hold1]
    rfl
  · rw [hold2]
    rfl
  · have hbytes := measure_traverse disk (hempty.2 old2 hold2) d
    rw [hpo2, hzero] at hbytes
    have hthroughput : throughput2 = 0 := throughput_eq_zero hclock hbytes hmeasure2
    change (if throughput2 = 0 then none else some _) = some result at h
    rw [if_pos hthroughput] at h
    cases h

variable (disk opens) in
/-- The workloads are compared up to the first that cannot be. -/
theorem compareWorkloads_spec (hclock : StrictMono clock) (hempty : pools.Empty)
    (hexist : pools.Exist) (ws : List DataDir) :
    (compareWorkloads rados clock disk opens ws pools).1.map
          (fun m => (m.1.totalReadBytes, m.2.totalReadBytes)) =
        (ws.takeWhile fun w => Comparable disk opens w).map
          (fun w => (workloadBytes disk w, workloadBytes disk w)) ∧
      ((compareWorkloads rados clock disk opens ws pools).2.isSome ↔
        ∀ w ∈ ws, Comparable disk opens w) ∧
      ∀ pools' ∈ (compareWorkloads rados clock disk opens ws pools).2, pools'.Empty := by
  induction ws generalizing pools with
  | nil =>
    refine ⟨rfl, ?_, ?_⟩
    · simp [compareWorkloads]
    · intro pools' hpools'
      cases hpools'
      exact hempty
  | cons w ws ih =>
    by_cases hw : Comparable disk opens w
    · obtain ⟨m1, m2, pools', hstep, hbytes, hempty', hexist'⟩ :=
        compareWorkload_of_comparable hclock hempty hexist hw
      obtain ⟨hmeasured, hdone, hend⟩ := ih hempty' hexist'
      rw [compareWorkloads, hstep]
      refine ⟨?_, ?_, hend⟩
      · rw [List.takeWhile_cons_of_pos (by simpa using hw), List.map_cons, List.map_cons,
          hmeasured]
        exact congrArg (fun m => m :: _) hbytes
      · rw [List.forall_mem_cons, and_iff_right hw]
        exact hdone
    · have hnone : compareWorkload rados clock disk opens pools w = none := by
        rw [Option.eq_none_iff_forall_ne_some]
        intro result hresult
        exact hw (comparable_of_compareWorkload hclock hempty hresult).2
      rw [compareWorkloads, hnone]
      refine ⟨?_, ?_, nofun⟩
      · rw [List.takeWhile_cons_of_neg (by simpa using hw)]
        rfl
      · simp [hw]

end

def workloadName (c : Char) (h : c ≠ '.' ∧ c ≠ '/') : FileName where
  chars := [c]
  ne_nil := List.cons_ne_nil _ _
  ne_dot heq := h.1 (List.singleton_injective heq)
  ne_dotdot heq := absurd (congrArg List.length heq) (by simp)
  slash_notMem hmem := h.2 (List.mem_singleton.mp hmem).symm

/-- The workloads `b` and `a` with a log file each, and `c` without one. -/
def threeWorkloads : DataDir where
  path := ['/', 'd']
  entries := .dir (workloadName 'b' (by decide)) (.file logName .nil)
    (.dir (workloadName 'a' (by decide)) (.file logName .nil)
      (.dir (workloadName 'c' (by decide)) .nil .nil))
  distinct := ⟨by decide, ⟨by decide, trivial⟩, by decide, ⟨by decide, trivial⟩,
    by decide, trivial, trivial⟩

/-- Two pools, one of which has an old object. -/
def usedPools : Pools (ErasableStore.ofKeyed Text UInt8) where
  po1 := some ({ writes := [(['x'], [1, 2, 3])] } : KeyedStore Text (List UInt8))
  po2 := some ({} : KeyedStore Text (List UInt8))
  readings := 0

/-- The old object is not counted, and the script ends at `c`. -/
example : (objectWriteMain (ErasableStore.ofKeyed Text UInt8) (fun i => i)
    (fun path => if path = ['/', 'd', '/', 'a', '/', 'a', '.', 'l', 'o', 'g'] then [7] else [7, 8])
    (fun _ => true) threeWorkloads usedPools).1.map
      (fun m => (m.1.totalReadBytes, m.2.totalReadBytes)) = [(1, 1), (2, 2)] := by
  decide +kernel

end DpuTest.CephCompress
