import DpuTest.ReadBench.BenchRuns
import DpuTest.ReadBench.FileList

/-!
# The command line

`main` reads a command from its arguments.  `write` and `write-raw` list the log
files of a directory and write them into a pool, `bench` and `bench-raw` read a pool
and leave it as it is.  The number of rounds goes through `strtoul` and a cast to
`unsigned`, and no rounds are refused.

A session is any number of invocations, one after the other, over the pools of a
cluster.  On each pool it is the history of the runs that `write` and `write-raw`
have got to: `session_pool`.  `main_bench_of_one_tree` follows a benchmark of two
datasets from one directory tree to its exit status.
-/

namespace DpuTest.ReadBench

open Lib

/-! ## The arguments -/

/-- A string without its terminator. -/
abbrev Arg := { chars : List UInt8 // (0 : UInt8) ∉ chars }

/-- The bytes of an ASCII text. -/
def ascii (text : List Char) : List UInt8 := text.map fun c => UInt8.ofNat c.toNat

def WRITE : List UInt8 := ascii ['w', 'r', 'i', 't', 'e']
def WRITE_RAW : List UInt8 := ascii ['w', 'r', 'i', 't', 'e', '-', 'r', 'a', 'w']
def BENCH_RAW : List UInt8 := ascii ['b', 'e', 'n', 'c', 'h', '-', 'r', 'a', 'w']
def BENCH : List UInt8 := ascii ['b', 'e', 'n', 'c', 'h']

/-- `android-v1-4m` -/
def DEFAULT_PREFIX : Arg :=
  ⟨ascii ['a', 'n', 'd', 'r', 'o', 'i', 'd', '-', 'v', '1', '-', '4', 'm'], by decide⟩

/-- `android-v1-4m-raw` -/
def DEFAULT_RAW_PREFIX : Arg :=
  ⟨ascii ['a', 'n', 'd', 'r', 'o', 'i', 'd', '-', 'v', '1', '-', '4', 'm', '-', 'r', 'a', 'w'],
    by decide⟩

/-- `b1:00.0` -/
def DEFAULT_PCI_ADDR : Arg := ⟨ascii ['b', '1', ':', '0', '0', '.', '0'], by decide⟩

/-- `(unsigned)strtoul(text, NULL, 10)` -/
def parseRounds (text : List UInt8) : UInt32 :=
  (strtoull (text.map fun c => Char.ofNat c.toNat)).number.toUInt32

/-- What the arguments ask for. -/
inductive Command where
  | write (kind : DatasetKind) (poolName datasetRoot : List UInt8) (pfx : Prefix)
  | benchRaw (poolName rawPrefix : List UInt8) (rounds : UInt32)
  | bench (poolName compressedPrefix rawPrefix : List UInt8) (rounds : UInt32)
      (pciAddr : List UInt8)

/-- `write` and `write-raw`, after the name of the command. -/
def parseWrite (kind : DatasetKind) (defaultPrefix : Arg) (args : List Arg) : Option Command :=
  match args with
  | poolName :: datasetRoot :: rest =>
    if rest.length > 1 then none
    else
      let pfx := rest[0]?.getD defaultPrefix
      if h : pfx.val.length < MAX_PREFIX then
        some (.write kind poolName.val datasetRoot.val ⟨pfx.val, pfx.property, h⟩)
      else none
  | _ => none

/-- `bench-raw`. -/
def parseBenchRaw (args : List Arg) : Option Command :=
  match args with
  | poolName :: rest =>
    if rest.length > 2 then none
    else
      let rawPrefix := rest[0]?.getD DEFAULT_RAW_PREFIX
      let rounds := (rest[1]?.map fun text => parseRounds text.val).getD 5
      if rounds = 0 then none else some (.benchRaw poolName.val rawPrefix.val rounds)
  | _ => none

/-- `bench`. -/
def parseBench (args : List Arg) : Option Command :=
  match args with
  | poolName :: rest =>
    if rest.length > 4 then none
    else
      let compressedPrefix := rest[0]?.getD DEFAULT_PREFIX
      let rawPrefix := rest[1]?.getD DEFAULT_RAW_PREFIX
      let rounds := (rest[2]?.map fun text => parseRounds text.val).getD 5
      let pciAddr := rest[3]?.getD DEFAULT_PCI_ADDR
      if rounds = 0 then none
      else some (.bench poolName.val compressedPrefix.val rawPrefix.val rounds pciAddr.val)
  | _ => none

/-- The command, unless `main` prints the usage or an error: the arguments are those
behind the name of the program. -/
def parseCommand : List Arg → Option Command
  | [] => none
  | command :: args =>
    if command.val = WRITE then parseWrite .compressed DEFAULT_PREFIX args
    else if command.val = WRITE_RAW then parseWrite .raw DEFAULT_RAW_PREFIX args
    else if command.val = BENCH_RAW then parseBenchRaw args
    else if command.val = BENCH then parseBench args
    else none

/-! ## Invocations -/

/-- The program is started: its arguments, the directory trees and files that it
would find, and how the calls that it makes will end. -/
structure Invocation (z : Zlib) where
  args : List Arg
  walk : List UInt8 → Walk
  allocs : List Bool
  file : Path → LogFile
  /-- The counters of a run are of type `uint64_t`. -/
  content_le : ∀ root, (contentOf ((logPaths (walk root).visits).map file)).length ≤ CONTENT_LIMIT
  env : BenchEnv (z.compressBound FRAME_BYTES)
  /-- How the calls of `rados_write_full` end. -/
  outcomes : List Bool
  /-- What `malloc` left in `object_buffer`. -/
  memory : Buffer UInt8 (objectCapacity z)

theorem contentOf_perm {files files' : List LogFile} (h : files.Perm files') :
    (contentOf files).length = (contentOf files').length := by
  rw [contentOf, contentOf, List.length_flatten, List.length_flatten]
  exact ((h.map _).map _).sum_eq

/-- The run of a writer, if it gets to its loop over the files. -/
def Invocation.run {z : Zlib} (inv : Invocation z) (kind : DatasetKind) (pfx : Prefix)
    (datasetRoot : List UInt8) : Option (Run z) :=
  if h : (buildFileList (inv.walk datasetRoot) inv.allocs).1 = true then
    if inv.env.connected = false ∨ inv.env.allocated = false then none
    else
      some {
        kind := kind
        pfx := pfx
        files := (buildFileList (inv.walk datasetRoot) inv.allocs).2.map inv.file
        content_le := by
          rw [contentOf_perm ((buildFileList_perm h).map inv.file)]
          exact inv.content_le datasetRoot
        outcomes := inv.outcomes
        memory := inv.memory }
  else none

/-- The pools of a cluster by their names. -/
abbrev Pools := List UInt8 → Pool

/-- `main` returns, with true for `EXIT_SUCCESS`, and leaves these pools. -/
def MainReturns {z : Zlib} (device : Inflater) (inv : Invocation z) (pools : Pools)
    (status : Bool) (pools' : Pools) : Prop :=
  match parseCommand inv.args with
  | none => status = false ∧ pools' = pools
  | some (.write kind poolName datasetRoot pfx) =>
    match inv.run kind pfx datasetRoot with
    | none => status = false ∧ pools' = pools
    | some run =>
      status = (run.execute (pools poolName)).status ∧
        pools' = Function.update pools poolName (run.execute (pools poolName)).rados.pool
  | some (.benchRaw poolName rawPrefix rounds) =>
    (∃ outcome, BenchmarkRawReads z device inv.env (pools poolName) rawPrefix rounds outcome ∧
      status = outcome.isSome) ∧ pools' = pools
  | some (.bench poolName compressedPrefix rawPrefix rounds _) =>
    (∃ outcome, BenchmarkReads z device inv.env (pools poolName) compressedPrefix rawPrefix rounds
      outcome ∧ status = outcome.isSome) ∧ pools' = pools

/-- The run of a command on a pool. -/
def Invocation.runOn {z : Zlib} (inv : Invocation z) (name : List UInt8) : Option (Run z) :=
  match parseCommand inv.args with
  | some (.write kind poolName datasetRoot pfx) =>
    if poolName = name then inv.run kind pfx datasetRoot else none
  | _ => none

/-- Invocations one after the other, the last one first, with what they returned. -/
inductive Session {z : Zlib} (device : Inflater) (start : Pools) :
    List (Invocation z × Bool) → Pools → Prop where
  | nil : Session device start [] start
  | step {log : List (Invocation z × Bool)} {pools pools' : Pools} {inv : Invocation z}
      {status : Bool} (h : Session device start log pools)
      (hmain : MainReturns device inv pools status pools') :
      Session device start ((inv, status) :: log) pools'

/-! ## The history of a pool -/

section

variable {z : Zlib} {device : Inflater} {start pools pools' : Pools} {inv w : Invocation z}
  {log : List (Invocation z × Bool)} {name : List UInt8} {status : Bool}

/-- An invocation changes a pool by its run there, or leaves it. -/
theorem mainReturns_pool (h : MainReturns device inv pools status pools') (name : List UInt8) :
    match inv.runOn name with
    | none => pools' name = pools name
    | some run => status = (run.execute (pools name)).status ∧
        pools' name = (run.execute (pools name)).rados.pool := by
  unfold MainReturns at h
  unfold Invocation.runOn
  cases hcommand : parseCommand inv.args with
  | none =>
    rw [hcommand] at h
    rw [h.2]
  | some command =>
    rw [hcommand] at h
    cases command with
    | benchRaw poolName rawPrefix rounds => rw [h.2]
    | bench poolName compressedPrefix rawPrefix rounds pciAddr => rw [h.2]
    | write kind poolName datasetRoot pfx =>
      cases hrun : inv.run kind pfx datasetRoot with
      | none =>
        simp only [hrun] at h
        simp only [hrun, ite_self]
        rw [h.2]
      | some run =>
        simp only [hrun] at h
        by_cases hname : poolName = name
        · subst hname
          simp only [hrun, if_true]
          refine ⟨h.1, ?_⟩
          rw [h.2, Function.update_self]
        · simp only [if_neg hname]
          rw [h.2, Function.update_of_ne (Ne.symm hname)]

/-- A run and its status. -/
def Finished.outcome (f : Finished z) : Run z × Bool := (f.run, f.status)

/-- The runs that a session has had on a pool, the last one first. -/
def outcomesOn (name : List UInt8) (log : List (Invocation z × Bool)) : List (Run z × Bool) :=
  log.filterMap fun entry => (entry.1.runOn name).map fun run => (run, entry.2)

/-- A session is on every pool the history of its runs there, whatever it has done
in between and elsewhere. -/
theorem session_pool (h : Session device start log pools) (name : List UInt8) :
    ∃ runs, (runAll (start name) runs).pool = pools name ∧
      (runAll (start name) runs).log.map Finished.outcome = outcomesOn name log := by
  induction h with
  | nil => exact ⟨[], rfl, rfl⟩
  | @step log pools pools' inv status hsession hmain ih =>
    obtain ⟨runs, hpool, hlog⟩ := ih
    have hone := mainReturns_pool hmain name
    unfold outcomesOn at hlog ⊢
    cases hrun : inv.runOn name with
    | none =>
      rw [hrun] at hone
      refine ⟨runs, hpool.trans hone.symm, ?_⟩
      rw [hlog, List.filterMap_cons, hrun]
      rfl
    | some run =>
      rw [hrun] at hone
      obtain ⟨hstatus, hafter⟩ := hone
      have hmore : runAll (start name) (runs ++ [run]) = (runAll (start name) runs).step run :=
        List.foldl_append ..
      refine ⟨runs ++ [run], ?_, ?_⟩
      · rw [hmore, hafter, ← hpool]
        rfl
      · rw [hmore, List.filterMap_cons, hrun]
        show (run, (run.execute (runAll (start name) runs).pool).status) :: _ = _
        rw [hlog, hpool, ← hstatus]
        rfl

/-- Every run that a session has had on a pool has returned `EXIT_SUCCESS`. -/
def AllWritten (name : List UInt8) (log : List (Invocation z × Bool)) : Prop :=
  ∀ outcome ∈ outcomesOn name log, outcome.2 = true

/-- The last run on a prefix of a pool is that of `w`, which has returned
`EXIT_SUCCESS`. -/
structure LastWrite (name : List UInt8) (log : List (Invocation z × Bool)) (w : Invocation z)
    (kind : DatasetKind) (datasetRoot : List UInt8) (p : Prefix) : Prop where
  command : parseCommand w.args = some (.write kind name datasetRoot p)
  split : ∃ newer older, log = newer ++ (w, true) :: older ∧
    ∀ outcome ∈ outcomesOn name newer, outcome.1.pfx ≠ p

/-- A writer that returns `EXIT_SUCCESS` has run over the files of its directory. -/
theorem mainReturns_write {kind : DatasetKind} {datasetRoot : List UInt8} {p : Prefix}
    (h : MainReturns device w pools true pools')
    (hcommand : parseCommand w.args = some (.write kind name datasetRoot p)) :
    ∃ run, w.runOn name = some run ∧ run.kind = kind ∧ run.pfx = p ∧
      (buildFileList (w.walk datasetRoot) w.allocs).1 = true ∧
      run.files = (buildFileList (w.walk datasetRoot) w.allocs).2.map w.file := by
  unfold MainReturns at h
  rw [hcommand] at h
  unfold Invocation.runOn
  simp only [hcommand, if_true]
  cases hrun : w.run kind p datasetRoot with
  | none =>
    simp only [hrun] at h
    cases h.1
  | some run =>
    unfold Invocation.run at hrun
    split_ifs at hrun with hlist henv
    cases hrun
    exact ⟨_, rfl, rfl, rfl, hlist, rfl⟩

/-- A writer that can list, open and read its files returns `EXIT_SUCCESS` when no call
of `rados_write_full` fails. -/
theorem mainReturns_of_readable (hz : z.RoundTrip device) {kind : DatasetKind}
    {datasetRoot : List UInt8} {p : Prefix}
    (hcommand : parseCommand w.args = some (.write kind name datasetRoot p))
    (hlist : (buildFileList (w.walk datasetRoot) w.allocs).1 = true)
    (hconnected : w.env.connected = true) (hallocated : w.env.allocated = true)
    (hreadable : ∀ path, (w.file path).Readable) (hup : false ∉ w.outcomes) (pools : Pools) :
    ∃ pools', MainReturns device w pools true pools' ∧
      ∃ run, w.runOn name = some run ∧ run.pfx = p := by
  obtain ⟨run, hrun⟩ : ∃ run, w.run kind p datasetRoot = some run := by
    rw [Invocation.run, dif_pos hlist, hconnected, hallocated]
    exact ⟨_, rfl⟩
  have hfields : run.pfx = p ∧ run.outcomes = w.outcomes ∧
      run.files = (buildFileList (w.walk datasetRoot) w.allocs).2.map w.file := by
    unfold Invocation.run at hrun
    split_ifs at hrun
    cases hrun
    exact ⟨rfl, rfl, rfl⟩
  obtain ⟨hp, houtcomes, hfiles⟩ := hfields
  have hsucceeds : (run.execute (pools name)).status = true := by
    refine execute_succeeds hz ?_ ?_ (houtcomes ▸ hup) _
    · intro hnil
      have hperm := buildFileList_perm hlist
      rw [hfiles, List.map_eq_nil_iff] at hnil
      rw [hnil] at hperm
      exact ((buildFileList_inv _ _).1.mp hlist).2.1 hperm.symm.eq_nil
    · intro f hf
      rw [hfiles] at hf
      obtain ⟨path, -, rfl⟩ := List.mem_map.mp hf
      exact hreadable path
  refine ⟨Function.update pools name (run.execute (pools name)).rados.pool, ?_, run, ?_, hp⟩
  · simp only [MainReturns, hcommand, hrun]
    exact ⟨hsucceeds.symm, trivial⟩
  · simp only [Invocation.runOn, hcommand, if_true, hrun]

theorem Session.mem (h : Session device start log pools) {entry : Invocation z × Bool}
    (hentry : entry ∈ log) :
    ∃ before after, MainReturns device entry.1 before entry.2 after := by
  induction h with
  | nil => cases hentry
  | step hsession hmain ih =>
    rcases List.mem_cons.mp hentry with rfl | hentry
    · exact ⟨_, _, hmain⟩
    · exact ih hentry

/-- The dataset of the last write is in its place. -/
theorem placed_of_lastWrite {kind : DatasetKind} {datasetRoot : List UInt8} {p : Prefix}
    {runs : List (Run z)} (hz : z.RoundTrip device) (h : Session device start log pools)
    (hlog : (runAll (start name) runs).log.map Finished.outcome = outcomesOn name log)
    (hall : AllWritten name log) (hw : LastWrite name log w kind datasetRoot p) :
    ∃ f, f.run.pfx = p ∧ Placed device (runAll (start name) runs) f ∧ f.run.kind = kind ∧
      (buildFileList (w.walk datasetRoot) w.allocs).1 = true ∧
      f.run.files = (buildFileList (w.walk datasetRoot) w.allocs).2.map w.file := by
  obtain ⟨hcommand, newer, older, rfl, hnewer⟩ := hw
  obtain ⟨before, after, hmain⟩ := h.mem (List.mem_append_right _ List.mem_cons_self)
  obtain ⟨run, hrun, hkind, hp, hlist, hfiles⟩ := mainReturns_write hmain hcommand
  have hsuccess : ∀ f ∈ (runAll (start name) runs).log, f.status = true := by
    intro f hf
    exact hall f.outcome (hlog ▸ List.mem_map_of_mem hf)
  have hsplit : outcomesOn name (newer ++ (w, true) :: older) =
      outcomesOn name newer ++ (run, true) :: outcomesOn name older := by
    rw [outcomesOn, List.filterMap_append, List.filterMap_cons, hrun]
    rfl
  rw [hsplit, List.map_eq_append_iff] at hlog
  obtain ⟨fs, rest, hcluster, hfs, hrest⟩ := hlog
  obtain ⟨f, gs, rfl, hf, -⟩ := List.map_eq_cons_iff.mp hrest
  have hfrun : f.run = run := congrArg Prod.fst hf
  have hlast : lastSuccess p (runAll (start name) runs).log = some f := by
    refine lastSuccess_eq hcluster (by rw [hfrun, hp]) (congrArg Prod.snd hf) ?_
    intro g hg hgp
    have hmem : g.outcome ∈ outcomesOn name newer := hfs ▸ List.mem_map_of_mem hg
    exact absurd hgp (hnewer _ hmem)
  obtain ⟨hfp, hplaced⟩ := placed_of_successes hz (start name) runs hsuccess hlast
  refine ⟨f, hfp, hplaced, ?_, hlist, ?_⟩
  · rw [hfrun, hkind]
  · rw [hfrun, hfiles]

end

/-! ## From the directory to the totals -/

theorem BenchmarkReads.unique {z : Zlib} {device : Inflater}
    {env : BenchEnv (z.compressBound FRAME_BYTES)} {pool : Pool}
    {compressedPrefix rawPrefix : List UInt8} {rounds : UInt32}
    {outcome outcome' : Option (Bench (z.compressBound FRAME_BYTES))}
    (h : BenchmarkReads z device env pool compressedPrefix rawPrefix rounds outcome)
    (h' : BenchmarkReads z device env pool compressedPrefix rawPrefix rounds outcome') :
    outcome = outcome' := by
  unfold BenchmarkReads at h h'
  cases hstart : benchmarkStart z device env pool compressedPrefix rawPrefix with
  | none =>
    rw [hstart] at h h'
    rw [h, h']
  | some started =>
    rw [hstart] at h h'
    obtain ⟨status, hends, rfl⟩ := h
    obtain ⟨status', hends', rfl⟩ := h'
    rw [hends.unique hends']

theorem map_ascii {text : List Char} (h : ∀ c ∈ text, c.isDigit = true) :
    (ascii text).map (fun c => Char.ofNat c.toNat) = text := by
  rw [ascii, List.map_map]
  conv_rhs => rw [← List.map_id text]
  apply List.map_congr_left
  intro c hc
  have hlt : c.toNat < 2 ^ 8 := by
    have hle : c.toNat ≤ 57 := (Char.isDigit_iff_toNat.mp (h c hc)).2
    omega
  rw [Function.comp, UInt8.toNat_ofNat', Nat.mod_eq_of_lt hlt, Char.ofNat_toNat, id]

/-- A printed number of rounds is read with the range of `unsigned long`, and then
cut to an `unsigned`. -/
theorem parseRounds_toDigits (n : Nat) :
    parseRounds (ascii (Nat.toDigits 10 n)) =
      UInt32.ofNat (if ULLONG_MAX < n then ULLONG_MAX else n) := by
  have hvalue : Lib.decimal (Nat.toDigits 10 n) = n := Nat.ofDigitChars_ten_toDigits
  have hnone : NoDigitAhead [] := by simp [NoDigitAhead]
  have hread := strtoull_append (numeral_toDigits n) hnone
  rw [List.append_nil, hvalue] at hread
  rw [parseRounds, map_ascii (fun _ hc => isDigit_of_mem_toDigits hc), hread]
  split_ifs with h
  · rfl
  · simp [Sign.apply]

/-- A benchmark with both prefixes and a number of rounds. -/
theorem parseCommand_bench {args : List Arg} {name compressedPrefix rawPrefix text : List UInt8}
    (h : args.map Subtype.val = [BENCH, name, compressedPrefix, rawPrefix, text]) :
    parseCommand args =
      if parseRounds text = 0 then none
      else some (.bench name compressedPrefix rawPrefix (parseRounds text)
        DEFAULT_PCI_ADDR.val) := by
  obtain ⟨command, args, rfl, hcommand, h₁⟩ := List.map_eq_cons_iff.mp h
  obtain ⟨_, args, rfl, rfl, h₂⟩ := List.map_eq_cons_iff.mp h₁
  obtain ⟨_, args, rfl, rfl, h₃⟩ := List.map_eq_cons_iff.mp h₂
  obtain ⟨_, args, rfl, rfl, h₄⟩ := List.map_eq_cons_iff.mp h₃
  obtain ⟨_, args, rfl, rfl, h₅⟩ := List.map_eq_cons_iff.mp h₄
  obtain rfl := List.map_eq_nil_iff.mp h₅
  have hwrite : BENCH ≠ WRITE := by decide
  have hwriteRaw : BENCH ≠ WRITE_RAW := by decide
  have hbenchRaw : BENCH ≠ BENCH_RAW := by decide
  simp [parseCommand, parseBench, hcommand, hwrite, hwriteRaw, hbenchRaw]

/-- `strtoul` and the cast make no rounds of a multiple of 2^32. -/
theorem parseRounds_eq_zero_iff (n : Nat) :
    parseRounds (ascii (Nat.toDigits 10 n)) = 0 ↔ n ≤ ULLONG_MAX ∧ n % 2 ^ 32 = 0 := by
  rw [parseRounds_toDigits, ← UInt32.toNat_inj, UInt32.toNat_ofNat']
  show _ % 2 ^ 32 = 0 ↔ _
  split_ifs with h
  · exact iff_of_false (by decide) (fun hn => by omega)
  · exact ⟨fun hn => ⟨by omega, hn⟩, fun hn => hn.2⟩

/-- They make the largest `unsigned` of every number that no `unsigned long` holds. -/
theorem parseRounds_eq_max_iff (n : Nat) :
    parseRounds (ascii (Nat.toDigits 10 n)) = UInt32.ofNat (2 ^ 32 - 1) ↔
      ULLONG_MAX < n ∨ n % 2 ^ 32 = 2 ^ 32 - 1 := by
  rw [parseRounds_toDigits, ← UInt32.toNat_inj, UInt32.toNat_ofNat', UInt32.toNat_ofNat']
  split_ifs with h
  · exact iff_of_true (by decide) (.inl h)
  · constructor
    · intro hn
      exact .inr hn
    · rintro (hn | hn)
      · exact absurd hn h
      · exact hn

section

variable {z : Zlib} {device : Inflater} {start pools : Pools} {inv w w' : Invocation z}
  {log : List (Invocation z × Bool)} {name datasetRoot datasetRoot' : List UInt8} {p q : Prefix}

/-- **From a directory tree to a benchmark.**  In a session whose runs on a pool have
all succeeded, `write` and `write-raw` were the last to write to two prefixes, and
they found the same log files, in whatever order.  A benchmark of the two that is
asked for `n` rounds refuses the multiples of 2^32 that an `unsigned long` holds.  It
does not return when `n` is one less than such a multiple or beyond `ULONG_MAX`.
Otherwise it returns `EXIT_SUCCESS` after `n % 2 ^ 32` rounds in which both methods
have delivered the log files in the order of their names, and no pool has changed. -/
theorem main_bench_of_one_tree (hz : z.RoundTrip device) (hsession : Session device start log pools)
    (hall : AllWritten name log) (hw : LastWrite name log w .compressed datasetRoot p)
    (hw' : LastWrite name log w' .raw datasetRoot' q)
    (hvisits : (w'.walk datasetRoot').visits.Perm (w.walk datasetRoot).visits)
    (hcontent : ∀ path, (w'.file path).content = (w.file path).content)
    (n : Nat) (hargs : inv.args.map Subtype.val =
      [BENCH, name, p.chars, q.chars, ascii (Nat.toDigits 10 n)])
    (hconnected : inv.env.connected = true) (hallocated : inv.env.allocated = true)
    (hinitialised : inv.env.initialised = true) :
    if n ≤ ULLONG_MAX ∧ n % 2 ^ 32 = 0 then
      ∀ status pools', MainReturns device inv pools status pools' ↔
        status = false ∧ pools' = pools
    else if ULLONG_MAX < n ∨ n % 2 ^ 32 = 2 ^ 32 - 1 then
      ∀ status pools', ¬ MainReturns device inv pools status pools'
    else
      (∀ status pools', MainReturns device inv pools status pools' ↔
        status = true ∧ pools' = pools) ∧
      ∃ b, BenchmarkReads z device inv.env (pools name) p.chars q.chars (UInt32.ofNat n)
          (some b) ∧
        b.Reports (contentOf ((buildFileList (w.walk datasetRoot) w.allocs).2.map w.file))
          (contentOf ((buildFileList (w.walk datasetRoot) w.allocs).2.map w.file))
          (n % 2 ^ 32) := by
  obtain ⟨runs, hpool, hlog⟩ := session_pool hsession name
  obtain ⟨f, rfl, hf, hfkind, hlist, hfiles⟩ := placed_of_lastWrite hz hsession hlog hall hw
  obtain ⟨g, rfl, hg, hgkind, hlist', hfiles'⟩ := placed_of_lastWrite hz hsession hlog hall hw'
  have hsame : contentOf g.run.files = contentOf f.run.files := by
    rw [hfiles, hfiles', buildFileList_eq_of_perm hvisits hlist hlist', contentOf, contentOf,
      List.map_map, List.map_map]
    exact congrArg List.flatten (List.map_congr_left fun path _ => hcontent path)
  have hparse : parseCommand inv.args =
      if parseRounds (ascii (Nat.toDigits 10 n)) = 0 then none
      else some (.bench name f.run.pfx.chars g.run.pfx.chars
        (parseRounds (ascii (Nat.toDigits 10 n))) DEFAULT_PCI_ADDR.val) :=
    parseCommand_bench hargs
  rw [← hfiles]
  split_ifs with hzero hmax
  · rw [if_pos ((parseRounds_eq_zero_iff n).mpr hzero)] at hparse
    intro status pools'
    simp only [MainReturns, hparse]
  · rw [if_neg (fun h => hzero ((parseRounds_eq_zero_iff n).mp h))] at hparse
    intro status pools' hmain
    simp only [MainReturns, hparse, ← hpool] at hmain
    obtain ⟨⟨outcome, hends, -⟩, -⟩ := hmain
    exact benchmarkReads_placed_max hf hg hfkind hgkind hconnected hallocated hinitialised
      (by rw [hsame]) ((parseRounds_eq_max_iff n).mpr hmax) outcome hends
  · rw [if_neg (fun h => hzero ((parseRounds_eq_zero_iff n).mp h))] at hparse
    have hle : ¬ ULLONG_MAX < n := fun h => hmax (.inl h)
    have hrounds : parseRounds (ascii (Nat.toDigits 10 n)) = UInt32.ofNat n := by
      rw [parseRounds_toDigits, if_neg hle]
    have hlarge := fun h => hmax ((parseRounds_eq_max_iff n).mp h)
    rw [hrounds] at hparse hlarge
    obtain ⟨b, hends, hreports⟩ := benchmarkReads_placed hf hg hfkind hgkind hconnected hallocated
      hinitialised (by rw [hsame]) hlarge
    rw [hpool] at hends
    rw [hsame, UInt32.toNat_ofNat'] at hreports
    refine ⟨fun status pools' => ?_, b, hends, hreports⟩
    simp only [MainReturns, hparse]
    refine and_congr_left fun _ => ⟨?_, ?_⟩
    · rintro ⟨outcome, houtcome, rfl⟩
      rw [houtcome.unique hends]
      rfl
    · rintro rfl
      exact ⟨some b, hends, rfl⟩

end

/-- The file `a.log` with the byte 1 is found in any directory. -/
def oneFile (args : List Arg) : Invocation storedZlib where
  args := args
  walk _ := { visits := [(ascii ['a', '.', 'l', 'o', 'g'], .file)], complete := true }
  allocs := []
  file _ := { canOpen := true, content := [1], events := [] }
  content_le _ := by decide
  env :=
    { connected := true, allocated := true, initialised := true
      outputBuffer := .zeroed OBJECT_BYTES
      doca := .init (storedZlib.compressBound FRAME_BYTES) }
  outcomes := []
  memory := .zeroed (objectCapacity storedZlib)

theorem oneFile_returns {args : List Arg} {kind : DatasetKind} {name datasetRoot : List UInt8}
    {p : Prefix} (hcommand : parseCommand args = some (.write kind name datasetRoot p))
    (pools : Pools) :
    ∃ pools', MainReturns storedInflater (oneFile args) pools true pools' ∧
      ∃ run, (oneFile args).runOn name = some run ∧ run.pfx = p := by
  refine mainReturns_of_readable (w := oneFile args) storedZlib_roundTrip hcommand ?_ rfl rfl
    (fun _ => ⟨rfl, List.not_mem_nil⟩) List.not_mem_nil pools
  rw [(buildFileList_inv _ _).1]
  exact ⟨rfl, List.cons_ne_nil _ _, List.not_mem_nil⟩

/-- `write p d p`, `write-raw p d q` and `bench p p q 1`. -/
theorem main_bench_of_one_tree_once :
    ∃ (inv : Invocation storedZlib) (pools : Pools),
      MainReturns storedInflater inv pools true pools := by
  let pool : Arg := ⟨[112], by decide⟩
  let dir : Arg := ⟨[100], by decide⟩
  let p : Arg := ⟨[0x70], by decide⟩
  let q : Arg := ⟨[0x71], by decide⟩
  let writeArgs : List Arg := [⟨WRITE, by decide⟩, pool, dir, p]
  let rawArgs : List Arg := [⟨WRITE_RAW, by decide⟩, pool, dir, q]
  let benchArgs : List Arg :=
    [⟨BENCH, by decide⟩, pool, p, q, ⟨ascii (Nat.toDigits 10 1), by decide⟩]
  have hwrite : parseCommand writeArgs = some (.write .compressed [112] [100] prefixP) := by rfl
  have hraw : parseCommand rawArgs = some (.write .raw [112] [100] prefixQ) := by rfl
  obtain ⟨pools, hmain, run, hrun, hp⟩ := oneFile_returns hwrite fun _ => emptyPool
  obtain ⟨pools', hmain', run', hrun', hq⟩ := oneFile_returns hraw pools
  let log := [(oneFile rawArgs, true), (oneFile writeArgs, true)]
  have hsession : Session storedInflater (fun _ => emptyPool) log pools' :=
    (Session.nil.step hmain).step hmain'
  have hall : AllWritten [112] log := by
    simp [AllWritten, outcomesOn, log, hrun, hrun']
  have hw : LastWrite [112] log (oneFile writeArgs) .compressed [100] prefixP := by
    refine ⟨hwrite, [(oneFile rawArgs, true)], [], rfl, ?_⟩
    have hne : prefixQ ≠ prefixP := by decide
    simp [outcomesOn, hrun', hq, hne]
  have hw' : LastWrite [112] log (oneFile rawArgs) .raw [100] prefixQ :=
    ⟨hraw, [], _, rfl, by simp [outcomesOn]⟩
  have hbench := @main_bench_of_one_tree storedZlib storedInflater (fun _ => emptyPool) pools'
    (oneFile benchArgs) (oneFile writeArgs) (oneFile rawArgs) log [112] [100] [100] prefixP prefixQ
    storedZlib_roundTrip hsession hall hw hw' (List.Perm.refl _) (fun _ => rfl) 1 rfl rfl rfl rfl
  rw [if_neg (by decide), if_neg (by decide)] at hbench
  exact ⟨oneFile benchArgs, pools', (hbench.1 true pools').mpr ⟨rfl, rfl⟩⟩

end DpuTest.ReadBench
