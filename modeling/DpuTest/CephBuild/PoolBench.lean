import DpuTest.CephBuild.CompressReadBench
import Mathlib.Logic.Function.Basic

/-!
# Sessions of the pool benchmark

A full run of `compress_read_bench.py` makes its pools anew, writes the data files and
reads them back.  A run with `--read-only` reads from the pools that are there.

`runMain` is a run on a cluster.  What the commands of `create_pool` make of a pool is a
parameter: they may fail, and an old pool may keep its objects.  A run ends early when a pool
does not exist, when an object cannot be read, or when it divides by a time that is zero; the
pool then keeps what was written to it.  `Cluster.lastWritten` is the history: whose files
were last written to a pool.  `KeepsFiles` is the invariant of a session, and
`runMain_of_session` says what a run reports at the end of any session.

The connection to the cluster stands, and every data file can be read.  The statistics of the
pools, which are only printed, are left out.
-/

namespace DpuTest.CephBuild

open Lib

def POOL_NAME : Text := ['p', 'o', '1']

def RAW_POOL_NAME : Text := ['p', 'o', '1', '_', 'r', 'a', 'w']

/-- The counts in the result of `bench_pool`. -/
structure PoolCounts where
  pool : Text
  compress : Bool
  writeBytes : Nat := 0
  writeObjs : Nat := 0
  readBytes : Nat := 0
  deriving DecidableEq

/-- The result of `bench_pool`. -/
structure PoolResult extends PoolCounts where
  writeTime : Rat := 0
  readTime : Rat := 0
  readAvgRate : Rat := 0
  deriving DecidableEq

section Script

variable {ε : Type} (rados : ReplacingStore Text UInt8 ε)

/-- The pools by name, and whose files were last written to them since they were made. -/
structure Cluster where
  pools : Text → Option rados.State
  lastWritten : Text → Option (Disk × List DataFile)

/-- Pools that no run has written yet. -/
def Cluster.start (pools : Text → Option rados.State) : Cluster rados where
  pools := pools
  lastWritten _ := none

/-- The arguments of a run, the data files, what `create_pool(pool, compress)` makes of a
pool, and how the clock moves while a pool is written and read. -/
structure Invocation where
  dataDir : DataDir
  disk : Disk
  readOnly : Bool
  rounds : Int
  skipRaw : Bool
  createPool : Text → Bool → Option rados.State → Option rados.State
  clock : Text → Clock

/-- `pools` of `main`, with whether they are to be compressed. -/
def Invocation.visits {rados : ReplacingStore Text UInt8 ε} (inv : Invocation rados) :
    List (Text × Bool) :=
  if inv.skipRaw then [(POOL_NAME, true)] else [(POOL_NAME, true), (RAW_POOL_NAME, false)]

/-- A pool is made or written. -/
def Cluster.setPool {rados : ReplacingStore Text UInt8 ε} (c : Cluster rados) (name : Text)
    (pool : Option rados.State) (written : Option (Disk × List DataFile)) : Cluster rados where
  pools := Function.update c.pools name pool
  lastWritten := Function.update c.lastWritten name written

variable {rados} (inv : Invocation rados) (files : List DataFile)

/-- The second half of `bench_pool`, with what the first has put into `result`.  `none` is an
exception. -/
def readPhase (result : PoolResult) (pool : rados.State) (readings : Nat) : Option PoolResult :=
  match readAll rados (inv.clock result.pool) inv.disk pool readings files inv.rounds with
  | .error _ => none
  | .ok totals =>
    let rDt := (totals.roundDetails.map RoundDetail.dt).sum
    let avgRDt := if inv.rounds ≠ 0 then rDt / inv.rounds else 0
    let avgRate := if avgRDt ≠ 0 then (totals.totalBytes : Rat) / 1024 / 1024 / avgRDt else 0
    some { result with
      readBytes := totals.totalBytes
      readTime := rDt
      readAvgRate := avgRate }

/-- `bench_pool(files, pool, compress, rounds, read_only)`.  `open_ioctx` needs the pool. -/
def benchPool (visit : Text × Bool) (c : Cluster rados) : Option PoolResult × Cluster rados :=
  let result : PoolResult := { pool := visit.1, compress := visit.2 }
  if inv.readOnly then
    match c.pools visit.1 with
    | none => (none, c)
    | some pool => (readPhase inv files result pool 0, c)
  else
    match inv.createPool visit.1 visit.2 (c.pools visit.1) with
    | none => (none, c.setPool visit.1 none none)
    | some pool =>
      match writeFiles rados (inv.clock visit.1) inv.disk pool 0 files with
      | .error st => (none, c.setPool visit.1 (some st.pool) none)
      | .ok (st, wDt) =>
        let c := c.setPool visit.1 (some st.pool) (some (inv.disk, files))
        -- The rate that is printed is divided by `w_dt`.
        if wDt = 0 then (none, c)
        else
          (readPhase inv files { result with
            writeBytes := st.totalBytes
            writeTime := wDt
            writeObjs := st.totalObjs } st.pool st.readings, c)

/-- The loop over the pools. -/
def benchPools : List (Text × Bool) → Cluster rados → Option (List PoolResult) × Cluster rados
  | [], c => (some [], c)
  | visit :: visits, c =>
    match benchPool inv files visit c with
    | (none, c) => (none, c)
    | (some result, c) =>
      (((benchPools visits c).1).map fun results => result :: results, (benchPools visits c).2)

/-- `main()`: the results, unless the script exits before them. -/
def runMain (c : Cluster rados) : Option (List PoolResult) × Cluster rados :=
  if collectFiles inv.dataDir = [] then (none, c)
  else benchPools inv (collectFiles inv.dataDir) inv.visits c

/-- The cluster after some runs. -/
def afterRuns (invs : List (Invocation rados)) (c : Cluster rados) : Cluster rados :=
  invs.foldl (fun c inv => (runMain inv c).2) c

end Script

/-! ## Sessions -/

section

variable {ε : Type} {rados : ReplacingStore Text UInt8 ε} {inv : Invocation rados}
  {files : List DataFile} {visit : Text × Bool} {c : Cluster rados}

/-- The files that were last written to a pool are in it, if their ids are distinct. -/
def KeepsFiles (c : Cluster rados) : Prop :=
  ∀ name disk files, c.lastWritten name = some (disk, files) → files.Pairwise (Apart disk) →
    ∃ pool, c.pools name = some pool ∧ HasFiles rados disk files pool

@[simp] theorem Cluster.pools_setPool (c : Cluster rados) (name : Text)
    (pool : Option rados.State) (written : Option (Disk × List DataFile)) :
    (c.setPool name pool written).pools = Function.update c.pools name pool := rfl

@[simp] theorem Cluster.lastWritten_setPool (c : Cluster rados) (name : Text)
    (pool : Option rados.State) (written : Option (Disk × List DataFile)) :
    (c.setPool name pool written).lastWritten = Function.update c.lastWritten name written := rfl

theorem keepsFiles_start (pools : Text → Option rados.State) :
    KeepsFiles (.start rados pools) := by
  intro name disk files hlast
  cases hlast

/-- A pool that is set keeps the invariant if it has the files that are noted for it. -/
theorem KeepsFiles.setPool (hc : KeepsFiles c) {name : Text} {pool : Option rados.State}
    {written : Option (Disk × List DataFile)}
    (h : ∀ disk files, written = some (disk, files) → files.Pairwise (Apart disk) →
      ∃ kept, pool = some kept ∧ HasFiles rados disk files kept) :
    KeepsFiles (c.setPool name pool written) := by
  intro name' disk files hlast hapart
  by_cases hname : name' = name
  · subst hname
    rw [Cluster.lastWritten_setPool, Function.update_self] at hlast
    rw [Cluster.pools_setPool, Function.update_self]
    exact h disk files hlast hapart
  · rw [Cluster.lastWritten_setPool, Function.update_of_ne hname] at hlast
    rw [Cluster.pools_setPool, Function.update_of_ne hname]
    exact hc name' disk files hlast hapart

/-- What a visit does to the cluster: nothing, or it sets its pool. -/
theorem benchPool_cases (inv : Invocation rados) (files : List DataFile) (visit : Text × Bool)
    (c : Cluster rados) :
    inv.readOnly = true ∧ (benchPool inv files visit c).2 = c ∨
      inv.readOnly = false ∧ ∃ pool written,
        (benchPool inv files visit c).2 = c.setPool visit.1 pool written ∧
        ∀ disk files, written = some (disk, files) → files.Pairwise (Apart disk) →
          ∃ kept, pool = some kept ∧ HasFiles rados disk files kept := by
  rw [benchPool]
  cases inv.readOnly with
  | true =>
    refine Or.inl ⟨rfl, ?_⟩
    rw [if_pos rfl]
    split
    · rfl
    · rfl
  | false =>
    refine Or.inr ⟨rfl, ?_⟩
    rw [if_neg Bool.false_ne_true]
    split
    · exact ⟨none, none, rfl, nofun⟩
    · rename_i pool hcreate
      split
      · rename_i st hwrite
        exact ⟨some st.pool, none, rfl, nofun⟩
      · rename_i st wDt hwrite
        have hst : st = _ := congrArg Prod.fst (writeFiles_eq_ok_iff.mp hwrite).2
        refine ⟨some st.pool, some (inv.disk, files), ?_, ?_⟩
        · split
          · rfl
          · rfl
        · rintro disk files' hwritten hapart
          cases hwritten
          refine ⟨st.pool, rfl, ?_⟩
          rw [hst]
          exact hasFiles_addFiles hapart _

theorem KeepsFiles.benchPool (hc : KeepsFiles c) :
    KeepsFiles (CephBuild.benchPool inv files visit c).2 := by
  rcases benchPool_cases inv files visit c with ⟨-, hsame⟩ | ⟨-, _, _, hset, hkeeps⟩
  · rw [hsame]
    exact hc
  · rw [hset]
    exact hc.setPool hkeeps

theorem KeepsFiles.benchPools (hc : KeepsFiles c) (visits : List (Text × Bool)) :
    KeepsFiles (CephBuild.benchPools inv files visits c).2 := by
  induction visits generalizing c with
  | nil => exact hc
  | cons visit visits ih =>
    rw [CephBuild.benchPools]
    have hafter : KeepsFiles (CephBuild.benchPool inv files visit c).2 := hc.benchPool
    split
    · rename_i c' hbench
      rw [hbench] at hafter
      exact hafter
    · rename_i result c' hbench
      rw [hbench] at hafter
      exact ih hafter

theorem KeepsFiles.runMain (hc : KeepsFiles c) : KeepsFiles (CephBuild.runMain inv c).2 := by
  rw [CephBuild.runMain]
  split
  · exact hc
  · exact hc.benchPools _

theorem KeepsFiles.afterRuns (hc : KeepsFiles c) (invs : List (Invocation rados)) :
    KeepsFiles (CephBuild.afterRuns invs c) := by
  induction invs generalizing c with
  | nil => exact hc
  | cons inv invs ih => exact ih hc.runMain

/-! ## A run -/

/-- A run can read its files from a pool: they were last written to it, or the pool is made,
and no time that the run divides by is zero. -/
def Ready (inv : Invocation rados) (files : List DataFile) (c : Cluster rados)
    (visit : Text × Bool) : Prop :=
  if inv.readOnly then c.lastWritten visit.1 = some (inv.disk, files)
  else
    (inv.createPool visit.1 visit.2 (c.pools visit.1)).isSome ∧
      MovesOn (inv.clock visit.1) 1 files.length ∧
      inv.clock visit.1 (2 * files.length + 1) ≠ inv.clock visit.1 0

/-- What a run counts for a pool that has its files. -/
def Invocation.counts (inv : Invocation rados) (files : List DataFile) (visit : Text × Bool) :
    PoolCounts where
  pool := visit.1
  compress := visit.2
  writeBytes := if inv.readOnly then 0 else logicalBytes inv.disk files
  writeObjs := if inv.readOnly then 0 else (files.map (nChunks inv.disk)).sum
  readBytes := if inv.rounds ≤ 0 then 0 else logicalBytes inv.disk files

/-- A pool with the files is read. -/
theorem readPhase_of_hasFiles {pool : rados.State} (h : HasFiles rados inv.disk files pool)
    (result : PoolResult) (readings : Nat) :
    ∃ read, readPhase inv files result pool readings = some read ∧
      read.toPoolCounts = { result.toPoolCounts with
        readBytes := if inv.rounds ≤ 0 then 0 else logicalBytes inv.disk files } := by
  obtain ⟨totals, hrun, hbytes, -⟩ :=
    readAll_of_hasFiles (inv.clock result.pool) h readings inv.rounds
  rw [readPhase, hrun, ← hbytes]
  exact ⟨_, rfl, rfl⟩

/-- A pool that is ready is read for what it has, and behind a full run it has the files. -/
theorem benchPool_of_ready (hc : KeepsFiles c) (hapart : files.Pairwise (Apart inv.disk))
    (h : Ready inv files c visit) :
    ∃ result, (benchPool inv files visit c).1 = some result ∧
      result.toPoolCounts = inv.counts files visit ∧
      (inv.readOnly = false →
        (benchPool inv files visit c).2.lastWritten visit.1 = some (inv.disk, files)) := by
  rw [Ready] at h
  cases hread : inv.readOnly with
  | true =>
    rw [hread, if_pos rfl] at h
    obtain ⟨pool, hpool, hhas⟩ := hc visit.1 inv.disk files h hapart
    obtain ⟨result, hresult, hcounts⟩ :=
      readPhase_of_hasFiles hhas { pool := visit.1, compress := visit.2 } 0
    refine ⟨result, ?_, ?_, nofun⟩
    · rw [benchPool, hread, if_pos rfl, hpool]
      exact hresult
    · rw [hcounts, Invocation.counts, hread]
      rfl
  | false =>
    rw [hread, if_neg Bool.false_ne_true] at h
    obtain ⟨hcreate, hmoves, hdt⟩ := h
    obtain ⟨pool, hpool⟩ := Option.isSome_iff_exists.mp hcreate
    have hwrite : writeFiles rados (inv.clock visit.1) inv.disk pool 0 files =
        .ok (filled rados (inv.clock visit.1) inv.disk pool 0 files) :=
      writeFiles_eq_ok_iff.mpr ⟨hmoves, rfl⟩
    have hlast : (filled rados (inv.clock visit.1) inv.disk pool 0 files).2 ≠ 0 := by
      have hreading : 0 + 1 + 2 * files.length = 2 * files.length + 1 := by omega
      rw [filled, WriteState.addFiles, hreading, sub_ne_zero]
      exact hdt
    generalize hfilled : filled rados (inv.clock visit.1) inv.disk pool 0 files = done
      at hwrite hlast
    obtain ⟨st, wDt⟩ := done
    have hst : st = (filled rados (inv.clock visit.1) inv.disk pool 0 files).1 := by rw [hfilled]
    have hhas : HasFiles rados inv.disk files st.pool := by
      rw [hst]
      exact hasFiles_addFiles hapart _
    have hbytes : st.totalBytes = logicalBytes inv.disk files := by
      rw [hst]
      exact Nat.zero_add _
    have hobjs : st.totalObjs = (files.map (nChunks inv.disk)).sum := by
      rw [hst]
      exact Nat.zero_add _
    obtain ⟨result, hresult, hcounts⟩ := readPhase_of_hasFiles hhas
      { pool := visit.1
        compress := visit.2
        writeBytes := st.totalBytes
        writeTime := wDt
        writeObjs := st.totalObjs } st.readings
    rw [benchPool, hread, if_neg Bool.false_ne_true, hpool]
    simp only [hwrite]
    rw [if_neg hlast]
    refine ⟨result, hresult, ?_, fun _ => Function.update_self _ _ _⟩
    rw [hcounts, Invocation.counts, hread, hbytes, hobjs]
    rfl

/-- The other pools are left alone. -/
theorem benchPool_of_ne {name : Text} (h : name ≠ visit.1) :
    (benchPool inv files visit c).2.pools name = c.pools name ∧
      (benchPool inv files visit c).2.lastWritten name = c.lastWritten name := by
  rcases benchPool_cases inv files visit c with ⟨-, hsame⟩ | ⟨-, pool, written, hset, -⟩
  · rw [hsame]
    exact ⟨rfl, rfl⟩
  · rw [hset]
    exact ⟨Function.update_of_ne h _ _, Function.update_of_ne h _ _⟩

/-- A pool that a run visits later is as ready as before. -/
theorem ready_benchPool {visit' : Text × Bool} (hne : visit'.1 ≠ visit.1) :
    Ready inv files (benchPool inv files visit c).2 visit' ↔ Ready inv files c visit' := by
  rw [Ready, Ready, (benchPool_of_ne hne).1, (benchPool_of_ne hne).2]

theorem lastWritten_of_notMem {name : Text} {visits : List (Text × Bool)}
    (h : name ∉ visits.map Prod.fst) :
    (benchPools inv files visits c).2.lastWritten name = c.lastWritten name := by
  induction visits generalizing c with
  | nil => rfl
  | cons visit visits ih =>
    rw [List.map_cons, List.mem_cons, not_or] at h
    have hafter : (benchPool inv files visit c).2.lastWritten name = c.lastWritten name :=
      (benchPool_of_ne h.1).2
    rw [benchPools]
    split
    · rename_i c' hbench
      rwa [hbench] at hafter
    · rename_i result c' hbench
      rw [hbench] at hafter
      exact (ih h.2).trans hafter

/-- Pools that are ready are read, and behind a full run they have its files. -/
theorem benchPools_of_ready (hc : KeepsFiles c) (hapart : files.Pairwise (Apart inv.disk))
    {visits : List (Text × Bool)} (hnodup : (visits.map Prod.fst).Nodup)
    (h : ∀ visit ∈ visits, Ready inv files c visit) :
    (∃ results, (benchPools inv files visits c).1 = some results ∧
      results.map PoolResult.toPoolCounts = visits.map (inv.counts files)) ∧
    (inv.readOnly = false → ∀ visit ∈ visits,
      (benchPools inv files visits c).2.lastWritten visit.1 = some (inv.disk, files)) := by
  induction visits generalizing c with
  | nil => exact ⟨⟨[], rfl, rfl⟩, fun _ _ hvisit => absurd hvisit List.not_mem_nil⟩
  | cons first visits ih =>
    rw [List.map_cons, List.nodup_cons] at hnodup
    obtain ⟨result, hresult, hcounts, hlast⟩ :=
      benchPool_of_ready hc hapart (h first List.mem_cons_self)
    obtain ⟨⟨results, hresults, hmap⟩, hlasts⟩ := ih (c := (benchPool inv files first c).2)
      hc.benchPool hnodup.2 fun visit hvisit => by
        refine (ready_benchPool ?_).mpr (h visit (List.mem_cons_of_mem _ hvisit))
        intro heq
        exact hnodup.1 (heq ▸ List.mem_map_of_mem hvisit)
    have hbench : benchPool inv files first c = (some result, (benchPool inv files first c).2) :=
      Prod.ext hresult rfl
    rw [benchPools, hbench]
    refine ⟨⟨result :: results, ?_, ?_⟩, fun hread visit hvisit => ?_⟩
    · show (benchPools inv files visits _).1.map _ = _
      rw [hresults]
      rfl
    · rw [List.map_cons, List.map_cons, hcounts, hmap]
    · rcases List.mem_cons.mp hvisit with rfl | hvisit
      · exact (lastWritten_of_notMem hnodup.1).trans (hlast hread)
      · exact hlasts hread visit hvisit

theorem benchPools_of_readOnly (hread : inv.readOnly = true) (visits : List (Text × Bool)) :
    (benchPools inv files visits c).2 = c := by
  have hafter (visit : Text × Bool) : (benchPool inv files visit c).2 = c := by
    rcases benchPool_cases inv files visit c with ⟨-, hsame⟩ | ⟨hfull, -⟩
    · exact hsame
    · rw [hread] at hfull
      cases hfull
  induction visits with
  | nil => rfl
  | cons visit visits ih =>
    rw [benchPools]
    split
    · rename_i c' hbench
      exact (congrArg Prod.snd hbench).symm.trans (hafter visit)
    · rename_i result c' hbench
      have hc' : c' = c := (congrArg Prod.snd hbench).symm.trans (hafter visit)
      rw [hc']
      exact ih

theorem nodup_visits (inv : Invocation rados) : (inv.visits.map Prod.fst).Nodup := by
  rw [Invocation.visits]
  split
  · decide
  · decide

end

/-- A full run on the directory `d` with the file `a.b`, over an old pool that is kept. -/
def fullRun : Invocation (ReplacingStore.ofKeyed Text UInt8) where
  dataDir :=
    { path := ['d']
      entries := .file dottedName .nil
      distinct := ⟨by decide, trivial⟩ }
  disk _ := [1]
  readOnly := false
  rounds := 1
  skipRaw := true
  createPool _ _ old := some (old.getD ({} : KeyedStore Text (List UInt8)))
  clock _ i := i

/-- The same directory, when nothing is written. -/
def readOnlyRun : Invocation (ReplacingStore.ofKeyed Text UInt8) :=
  { fullRun with readOnly := true, rounds := 3 }

end DpuTest.CephBuild
