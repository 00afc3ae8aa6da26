import DpuTest.ReadBench.Bench

/-!
# Benchmarks of datasets in their places

A benchmark that returns 0 has run its rounds: `benchmarkReads_rounds`.

The two writers have put a compressed dataset under one prefix and a raw one under
another, and every run on the pool has succeeded.  Then no pass of the benchmark
fails, and what it reports follows from the sizes of the two contents alone:
`benchmarkReads_of_successes`.  The benchmark takes two datasets for the same when
their sizes are, and never compares a byte of them.
-/

namespace DpuTest.ReadBench

open Lib

section

variable {z : Zlib} {device : Inflater}

/-- The dataset of `f` is the one under its prefix, and nothing of it was replaced. -/
structure Placed (device : Inflater) (c : Cluster z) (f : Finished z) : Prop where
  count : f.objectCount.toNat = f.blocks.length
  manifest : ∃ totalCompressed, readManifest c.pool f.run.pfx.chars =
    .ok (newManifest f.run.pfx.chars (UInt64.ofNat f.blocks.length)
      (UInt64.ofNat (contentOf f.run.files).length) totalCompressed)
  reads : ∀ method, method ≠ .unknown → ∀ outputBuffer doca, ∃ pass,
    readPass z device method f.run.kind c.pool f.run.pfx.chars outputBuffer doca = .ok pass ∧
      pass.delivered = f.blocks

/-- After a history of successes, the last run on a prefix is in its place. -/
theorem placed_of_successes (hz : z.RoundTrip device) (start : Pool) (runs : List (Run z))
    (hsuccess : ∀ g ∈ (runAll start runs).log, g.status = true) {p : Prefix} {f : Finished z}
    (hlast : lastSuccess p (runAll start runs).log = some f) :
    f.run.pfx = p ∧ Placed device (runAll start runs) f := by
  have h := represents_runAll hz start p runs
  obtain ⟨newer, older, hlog, hp, hstatus, hnewer⟩ := lastSuccess_inv hlast
  have hnone : ∀ g ∈ newer, g.run.pfx ≠ p := by
    intro g hg hgp
    have hgood := hsuccess g (by rw [hlog]; exact List.mem_append_left _ hg)
    rw [hnewer g hg hgp] at hgood
    cases hgood
  have hmanifest := h.manifest
  rw [hlast] at hmanifest
  obtain ⟨totalCompressed, hmanifest⟩ := hmanifest
  refine ⟨hp, h.count f (List.mem_of_find?_eq_some hlast) hstatus, ?_, ?_⟩
  · rw [hp]
    exact ⟨totalCompressed, readManifest_newManifest hmanifest⟩
  · intro method hmethod outputBuffer doca
    rw [hp]
    exact readPass_of_owned hz hmethod h hlast
      (fun index hindex => owner_eq hlog hp hindex (fun g hg hgp => absurd hgp (hnone g hg)))
      outputBuffer doca

/-- What the passes of a method deliver. -/
def expected (f g : Finished z) : BenchMethod → List (List UInt8)
  | .raw => g.blocks
  | .doca => f.blocks

variable {c : Cluster z} {f g : Finished z}

/-- Where both datasets are in their places, no pass fails. -/
theorem onePass_placed (hf : Placed device c f) (hg : Placed device c g)
    (hfkind : f.run.kind = .compressed) (hgkind : g.run.kind = .raw)
    {compressedManifest rawManifest : Manifest}
    (hcompressed : readManifest c.pool f.run.pfx.chars = .ok compressedManifest)
    (hraw : readManifest c.pool g.run.pfx.chars = .ok rawManifest)
    (method : BenchMethod) (b : Bench (z.compressBound FRAME_BYTES)) :
    ∃ b' pass, onePass z device c.pool compressedManifest rawManifest method b = .ok (b', pass) ∧
      pass.delivered = expected f g method := by
  cases method with
  | raw =>
    obtain ⟨pass, hpass, hdelivered⟩ := hg.reads .doca (by decide) b.outputBuffer b.doca
    simp only [readPass, hraw, hgkind] at hpass
    exact ⟨b, pass, by simp only [onePass, hpass], hdelivered⟩
  | doca =>
    obtain ⟨pass, hpass, hdelivered⟩ := hf.reads .doca (by decide) b.outputBuffer b.doca
    simp only [readPass, hcompressed, hfkind] at hpass
    split at hpass
    · cases hpass
    · rename_i r hrun
      cases hpass
      exact ⟨{ b with outputBuffer := r.outputBuffer, doca := r.doca }, _,
        by simp only [onePass, hrun], hdelivered⟩

/-- The measured passes have delivered the datasets. -/
def Delivers (f g : Finished z) {srcCapacity : Nat} (b : Bench srcCapacity) : Prop :=
  ∀ entry ∈ b.log, entry.2.delivered = expected f g entry.1

section

variable {compressedManifest rawManifest : Manifest}
  (hpass : ∀ method b, ∃ b' pass,
    onePass z device c.pool compressedManifest rawManifest method b = .ok (b', pass) ∧
      pass.delivered = expected f g method)

include hpass

theorem measure_placed (method : BenchMethod) {b : Bench (z.compressBound FRAME_BYTES)}
    (hb : Delivers f g b) :
    ∃ b', measure z device c.pool compressedManifest rawManifest method b = .ok b' ∧
      Delivers f g b' := by
  obtain ⟨b', pass, hone, hdelivered⟩ := hpass method b
  obtain ⟨-, -, -, hlog⟩ := onePass_inv hone
  refine ⟨b'.add pass method, by simp only [measure, hone], ?_⟩
  have hmore : (b'.add pass method).log = b.log ++ [(method, pass)] := by
    rw [← hlog]
    cases method <;> rfl
  intro entry hentry
  rw [hmore] at hentry
  rcases List.mem_append.mp hentry with hentry | hentry
  · exact hb entry hentry
  · rw [List.mem_singleton.mp hentry]
    exact hdelivered

theorem inTurn_measure_placed (turns : List BenchMethod) {b : Bench (z.compressBound FRAME_BYTES)}
    (hb : Delivers f g b) :
    ∃ b', inTurn (measure z device c.pool compressedManifest rawManifest) turns b = .ok b' ∧
      Delivers f g b' := by
  induction turns generalizing b with
  | nil => exact ⟨b, rfl, hb⟩
  | cons method turns ih =>
    obtain ⟨b₁, hone, hb₁⟩ := measure_placed hpass method hb
    obtain ⟨b', hrest, hb'⟩ := ih hb₁
    exact ⟨b', by rw [inTurn, hone]; exact hrest, hb'⟩

theorem inTurn_warmUp_placed (turns : List BenchMethod) (b : Bench (z.compressBound FRAME_BYTES)) :
    ∃ b', inTurn (warmUp z device c.pool compressedManifest rawManifest) turns b = .ok b' := by
  induction turns generalizing b with
  | nil => exact ⟨b, rfl⟩
  | cons method turns ih =>
    obtain ⟨b₁, pass, hone, -⟩ := hpass method b
    obtain ⟨b', hrest⟩ := ih b₁
    exact ⟨b', by rw [inTurn, warmUp, hone]; exact hrest⟩

theorem passes_placed (count : Nat) {b : Bench (z.compressBound FRAME_BYTES)}
    (hb : Delivers f g b) :
    ∃ b', passes (runRound z device c.pool compressedManifest rawManifest roundMethods) 1 count b =
      .ok b' ∧ Delivers f g b' :=
  passes_ok (fun _ => Delivers f g)
    (fun i _ hc => inTurn_measure_placed hpass (roundMethods (UInt32.ofNat (1 + i))) hc) hb

end

/-- A log whose passes of a method have all delivered the same. -/
theorem logTotal_of_const {method : BenchMethod} {delivered : List (List UInt8)}
    {log : List (BenchMethod × Pass)}
    (h : ∀ entry ∈ log, entry.1 = method → entry.2.result.Counts delivered) :
    (logTotal method log).objects =
        UInt64.ofNat ((log.map Prod.fst).count method) * UInt64.ofNat delivered.length ∧
      (logTotal method log).rawBytes =
        UInt64.ofNat ((log.map Prod.fst).count method) *
          UInt64.ofNat delivered.flatten.length := by
  induction log using List.reverseRecOn with
  | nil =>
    constructor
    · show (0 : UInt64) = 0 * _
      rw [zero_mul]
    · show (0 : UInt64) = 0 * _
      rw [zero_mul]
  | append_singleton log entry ih =>
    obtain ⟨method', pass⟩ := entry
    obtain ⟨hobjects, hraw⟩ := ih (fun e he => h e (List.mem_append_left _ he))
    rw [logTotal_concat, List.map_append, List.count_append]
    by_cases hm : method' = method
    · have hcounts := h (method', pass) (List.mem_append_right _ List.mem_cons_self) hm
      subst hm
      have hone : List.count method' (List.map Prod.fst [(method', pass)]) = 1 := by simp
      rw [if_pos rfl, hone, ← ofNat_succ]
      constructor
      · show (logTotal method' log).objects + pass.result.objects = _
        rw [hobjects, hcounts.objects_eq, add_mul, one_mul]
      · show (logTotal method' log).rawBytes + pass.result.rawBytes = _
        rw [hraw, hcounts.rawBytes_eq, add_mul, one_mul]
    · have hzero : List.count method (List.map Prod.fst [(method', pass)]) = 0 := by
        simp [hm]
      rw [if_neg hm, hzero]
      exact ⟨hobjects, hraw⟩

/-- The two sizes that the manifests have are those of the contents. -/
theorem sizes_eq_iff (f g : Finished z) :
    (UInt64.ofNat f.blocks.length = UInt64.ofNat g.blocks.length ∧
        UInt64.ofNat (contentOf f.run.files).length =
          UInt64.ofNat (contentOf g.run.files).length) ↔
      (contentOf f.run.files).length = (contentOf g.run.files).length := by
  have hlen (h : Finished z) : h.blocks.length =
      ((contentOf h.run.files).length + (OBJECT_BYTES - 1)) / OBJECT_BYTES :=
    length_chunks_fixed OBJECT_BYTES_pos _
  constructor
  · rintro ⟨hblocks, hsizes⟩
    have hcount := congrArg UInt64.toNat hblocks
    rw [UInt64.toNat_ofNat_of_lt' (length_blocks_lt f),
      UInt64.toNat_ofNat_of_lt' (length_blocks_lt g), hlen, hlen] at hcount
    have hmod := congrArg UInt64.toNat hsizes
    rw [UInt64.toNat_ofNat', UInt64.toNat_ofNat'] at hmod
    -- as many blocks, so the sizes are less than one block apart
    have hbytes : OBJECT_BYTES = 4194304 := by decide
    rw [hbytes] at hcount
    omega
  · intro heq
    rw [hlen, hlen, heq]
    exact ⟨rfl, rfl⟩

/-! ## The benchmark -/

section

variable {start : Pool} {runs : List (Run z)} {p q : Prefix} {f g : Finished z}
  {env : BenchEnv (z.compressBound FRAME_BYTES)}

/-- The comparison of the manifests. -/
theorem matchingManifests_eq {pool : Pool} {compressedPrefix rawPrefix : List UInt8}
    {compressedManifest rawManifest : Manifest}
    (hcompressed : readManifest pool compressedPrefix = .ok compressedManifest)
    (hraw : readManifest pool rawPrefix = .ok rawManifest) :
    matchingManifests pool compressedPrefix rawPrefix =
      if compressedManifest.objectCount = rawManifest.objectCount ∧
          compressedManifest.totalRawSize = rawManifest.totalRawSize then
        some (compressedManifest, rawManifest)
      else none := by
  simp only [matchingManifests, hcompressed, hraw]
  split_ifs with h h' h'
  · exact absurd h (not_or.mpr ⟨not_not_intro h'.1, not_not_intro h'.2⟩)
  · rfl
  · rfl
  · rw [not_or, not_not, not_not] at h
    exact absurd h h'

/-- The benchmark of two datasets in their places gets to its rounds if the sizes
agree, and gives up if they do not. -/
theorem benchmarkStart_placed {c : Cluster z} (hf : Placed device c f) (hg : Placed device c g)
    (hfkind : f.run.kind = .compressed) (hgkind : g.run.kind = .raw)
    (hconnected : env.connected = true) (hallocated : env.allocated = true)
    (hinitialised : env.initialised = true) :
    if (contentOf f.run.files).length = (contentOf g.run.files).length then
      ∃ manifests b,
        benchmarkStart z device env c.pool f.run.pfx.chars g.run.pfx.chars = some (manifests, b) ∧
          ∀ method b, ∃ b' pass,
            onePass z device c.pool manifests.1 manifests.2 method b = .ok (b', pass) ∧
              pass.delivered = expected f g method
    else benchmarkStart z device env c.pool f.run.pfx.chars g.run.pfx.chars = none := by
  obtain ⟨totalCompressed, hcompressed⟩ := hf.manifest
  obtain ⟨totalCompressed', hraw⟩ := hg.manifest
  have hpass := onePass_placed hf hg hfkind hgkind hcompressed hraw
  have hmatch := matchingManifests_eq hcompressed hraw
  have hsizes : _ ∧ _ ↔ _ := sizes_eq_iff f g
  generalize hm : newManifest f.run.pfx.chars (UInt64.ofNat f.blocks.length)
    (UInt64.ofNat (contentOf f.run.files).length) totalCompressed = compressedManifest at *
  generalize hm' : newManifest g.run.pfx.chars (UInt64.ofNat g.blocks.length)
    (UInt64.ofNat (contentOf g.run.files).length) totalCompressed' = rawManifest at *
  have hequal : (compressedManifest.objectCount = rawManifest.objectCount ∧
      compressedManifest.totalRawSize = rawManifest.totalRawSize) ↔
        (contentOf f.run.files).length = (contentOf g.run.files).length := by
    rw [← hsizes, ← hm, ← hm']
    rfl
  split_ifs with hlen
  · obtain ⟨b, hwarm⟩ := inTurn_warmUp_placed hpass [.raw, .doca] env.start
    rw [if_pos (hequal.mpr hlen)] at hmatch
    refine ⟨(compressedManifest, rawManifest), b, ?_, hpass⟩
    simp only [benchmarkStart, hconnected, hmatch, hallocated, hinitialised, Bool.true_eq_false,
      or_self, if_false, hwarm]
  · rw [if_neg (fun h => hlen (hequal.mp h))] at hmatch
    simp only [benchmarkStart, hconnected, hmatch, Bool.true_eq_false, if_false]

/-- What a benchmark over datasets of two contents reports. -/
structure Bench.Reports {srcCapacity : Nat} (b : Bench srcCapacity)
    (compressedContent rawContent : List UInt8) (rounds : Nat) : Prop where
  delivered : ∀ entry ∈ b.log, entry.2.delivered.flatten =
    match entry.1 with
    | .raw => rawContent
    | .doca => compressedContent
  count : ∀ method, (b.log.map Prod.fst).count method = rounds
  rawTotal_objects :
    b.rawTotal.objects = UInt64.ofNat rounds * UInt64.ofNat (rawObjects rawContent).length
  docaTotal_objects : b.docaTotal.objects = b.rawTotal.objects
  rawTotal_rawBytes :
    b.rawTotal.rawBytes = UInt64.ofNat rounds * UInt64.ofNat rawContent.length
  docaTotal_rawBytes : b.docaTotal.rawBytes = b.rawTotal.rawBytes

section

variable {c : Cluster z} {rounds : UInt32} (hfp : Placed device c f) (hgp : Placed device c g)
  (hfkind : f.run.kind = .compressed) (hgkind : g.run.kind = .raw)
  (hconnected : env.connected = true) (hallocated : env.allocated = true)
  (hinitialised : env.initialised = true)

include hfp hgp hfkind hgkind hconnected hallocated hinitialised

/-- Two datasets of different sizes are refused. -/
theorem benchmarkReads_placed_ne
    (hlen : (contentOf f.run.files).length ≠ (contentOf g.run.files).length)
    (outcome : Option (Bench (z.compressBound FRAME_BYTES))) :
    BenchmarkReads z device env c.pool f.run.pfx.chars g.run.pfx.chars rounds outcome ↔
      outcome = none := by
  have hstart := benchmarkStart_placed hfp hgp hfkind hgkind hconnected hallocated hinitialised
  rw [if_neg hlen] at hstart
  simp only [BenchmarkReads, hstart]

/-- As no pass fails, the largest number of rounds is never reached. -/
theorem benchmarkReads_placed_max
    (hlen : (contentOf f.run.files).length = (contentOf g.run.files).length)
    (hrounds : rounds = UInt32.ofNat (2 ^ 32 - 1))
    (outcome : Option (Bench (z.compressBound FRAME_BYTES))) :
    ¬ BenchmarkReads z device env c.pool f.run.pfx.chars g.run.pfx.chars rounds outcome := by
  have hstart := benchmarkStart_placed hfp hgp hfkind hgkind hconnected hallocated hinitialised
  rw [if_pos hlen] at hstart
  obtain ⟨manifests, b₀, hstart, hpass⟩ := hstart
  obtain ⟨-, hlog⟩ := benchmarkStart_inv hstart
  have hempty : Delivers f g b₀ := by
    intro entry hentry
    rw [hlog] at hentry
    cases hentry
  intro hends
  simp only [BenchmarkReads, hstart, hrounds] at hends
  obtain ⟨status, hends, -⟩ := hends
  obtain ⟨e, count, -, hfails⟩ := countedLoop_ends_max.mp hends
  obtain ⟨b, hpasses, -⟩ := passes_placed hpass count hempty
  rw [hpasses] at hfails
  cases hfails

/-- Any other number of rounds is run. -/
theorem benchmarkReads_placed
    (hlen : (contentOf f.run.files).length = (contentOf g.run.files).length)
    (hrounds : rounds ≠ UInt32.ofNat (2 ^ 32 - 1)) :
    ∃ b, BenchmarkReads z device env c.pool f.run.pfx.chars g.run.pfx.chars rounds (some b) ∧
      b.Reports (contentOf f.run.files) (contentOf g.run.files) rounds.toNat := by
  have hstart := benchmarkStart_placed hfp hgp hfkind hgkind hconnected hallocated hinitialised
  rw [if_pos hlen] at hstart
  obtain ⟨manifests, b₀, hstart, hpass⟩ := hstart
  obtain ⟨-, hlog⟩ := benchmarkStart_inv hstart
  have hempty : Delivers f g b₀ := by
    intro entry hentry
    rw [hlog] at hentry
    cases hentry
  obtain ⟨b, hpasses, hdelivers⟩ := passes_placed hpass rounds.toNat hempty
  have hends : BenchmarkReads z device env c.pool f.run.pfx.chars g.run.pfx.chars rounds
      (some b) := by
    simp only [BenchmarkReads, hstart]
    refine ⟨_, countedLoop_ends hrounds, ?_⟩
    rw [hpasses]
    rfl
  obtain ⟨-, hcount, hb⟩ := passes_rounds hstart hpasses
  have htotal (method : BenchMethod) :=
    @logTotal_of_const method (expected f g method) b.log
      (fun entry hentry hm => by
        rw [← hm, ← hdelivers entry hentry]
        exact hb.counts entry hentry)
  have hflatten (h : Finished z) : h.blocks.flatten = contentOf h.run.files :=
    CutRule.flatten_chunks _ _
  obtain ⟨hrawObjects, hrawBytes⟩ := htotal .raw
  obtain ⟨hdocaObjects, hdocaBytes⟩ := htotal .doca
  rw [hcount, ← hb.rawTotal_eq] at hrawObjects hrawBytes
  rw [hcount, ← hb.docaTotal_eq] at hdocaObjects hdocaBytes
  obtain ⟨hblocks, -⟩ := (sizes_eq_iff f g).mpr hlen
  refine ⟨b, hends, ?_, hcount, hrawObjects, ?_, ?_, ?_⟩
  · intro entry hentry
    rw [hdelivers entry hentry]
    cases entry.1
    · exact hflatten g
    · exact hflatten f
  · rw [hdocaObjects, hrawObjects]
    show _ * UInt64.ofNat f.blocks.length = _ * UInt64.ofNat g.blocks.length
    rw [hblocks]
  · rw [hrawBytes]
    show _ * UInt64.ofNat g.blocks.flatten.length = _
    rw [hflatten]
  · rw [hdocaBytes, hrawBytes]
    show _ * UInt64.ofNat f.blocks.flatten.length = _ * UInt64.ofNat g.blocks.flatten.length
    rw [hflatten, hflatten, hlen]

end

/-- After the two runs, each dataset is in its place. -/
theorem twoRuns_placed : ∃ f g : Finished storedZlib,
    Placed storedInflater (runAll emptyPool twoRuns) f ∧
    Placed storedInflater (runAll emptyPool twoRuns) g ∧
    (∀ h ∈ (runAll emptyPool twoRuns).log, h.status = true) ∧
    lastSuccess prefixP (runAll emptyPool twoRuns).log = some f ∧
    lastSuccess prefixQ (runAll emptyPool twoRuns).log = some g ∧
    f.run = fileRun .compressed prefixP [1] (by decide) [] ∧
    g.run = fileRun .raw prefixQ [2] (by decide) [] := by
  obtain ⟨f, g, hlog, hf, hg, hfs, hgs⟩ : ∃ f g, (runAll emptyPool twoRuns).log = [g] ++ f :: [] ∧
      f.run = fileRun .compressed prefixP [1] (by decide) [] ∧
      g.run = fileRun .raw prefixQ [2] (by decide) [] ∧ f.status = true ∧ g.status = true :=
    ⟨_, _, rfl, rfl, rfl, fileRun_succeeds _ _ _ _, fileRun_succeeds _ _ _ _⟩
  have hsuccess : ∀ h ∈ (runAll emptyPool twoRuns).log, h.status = true := by
    rw [hlog]
    simp [hfs, hgs]
  have hlastf : lastSuccess prefixP (runAll emptyPool twoRuns).log = some f := by
    refine lastSuccess_eq hlog (by rw [hf]; rfl) hfs ?_
    intro h hh hp
    rw [List.mem_singleton.mp hh, hg] at hp
    exact absurd hp (by decide)
  have hlastg : lastSuccess prefixQ (runAll emptyPool twoRuns).log = some g :=
    lastSuccess_eq (show _ = [] ++ g :: [f] from hlog) (by rw [hg]; rfl) hgs (by simp)
  exact ⟨f, g, (placed_of_successes storedZlib_roundTrip emptyPool twoRuns hsuccess hlastf).2,
    (placed_of_successes storedZlib_roundTrip emptyPool twoRuns hsuccess hlastg).2, hsuccess,
    hlastf, hlastg, hf, hg⟩

/-- Everything that the benchmark needs is there. -/
def goodBenchEnv : BenchEnv (storedZlib.compressBound FRAME_BYTES) where
  connected := true
  allocated := true
  initialised := true
  outputBuffer := .zeroed OBJECT_BYTES
  doca := .init (storedZlib.compressBound FRAME_BYTES)

/-- **What the benchmark has measured.**  One that returns 0 has run each method in
every round, the raw one first in the odd rounds and the DOCA one in the even ones.
Its totals are the sums over these passes, of which each has counted what it
delivered, and nothing of the warm-up is in them. -/
theorem benchmarkReads_rounds {pool : Pool} {compressedPrefix rawPrefix : List UInt8}
    {rounds : UInt32} {b : Bench (z.compressBound FRAME_BYTES)}
    (h : BenchmarkReads z device env pool compressedPrefix rawPrefix rounds (some b)) :
    rounds ≠ UInt32.ofNat (2 ^ 32 - 1) ∧
      b.log.map Prod.fst =
        ((List.range' 1 rounds.toNat).flatMap fun i => roundMethods (UInt32.ofNat i)) ∧
      (∀ method, (b.log.map Prod.fst).count method = rounds.toNat) ∧ b.Sound := by
  unfold BenchmarkReads at h
  split at h
  · cases h
  · rename_i manifests start hstart
    obtain ⟨status, hends, houtcome⟩ := h
    cases status with
    | error e => cases houtcome
    | ok b' =>
      cases houtcome
      have hrounds : rounds ≠ UInt32.ofNat (2 ^ 32 - 1) := by
        rintro rfl
        obtain ⟨e, -, heq, -⟩ := countedLoop_ends_max.mp hends
        cases heq
      have hpasses := hends.unique (countedLoop_ends hrounds)
      exact ⟨hrounds, passes_rounds hstart hpasses.symm⟩

/-- Two rounds over two datasets of a byte each. -/
theorem benchmarkReads_rounds_two : ∃ b,
    BenchmarkReads storedZlib storedInflater goodBenchEnv (runAll emptyPool twoRuns).pool
      prefixP.chars prefixQ.chars 2 (some b) ∧
    b.log.map Prod.fst = [.raw, .doca, .doca, .raw] ∧
    (∀ method, (b.log.map Prod.fst).count method = 2) ∧ b.Sound := by
  obtain ⟨f, g, hfp, hgp, -, -, -, hf, hg⟩ := twoRuns_placed
  have hlen : (contentOf f.run.files).length = (contentOf g.run.files).length := by
    rw [hf, hg]
    rfl
  obtain ⟨b, hends, -⟩ := @benchmarkReads_placed _ _ _ _ goodBenchEnv _ 2 hfp hgp
    (by rw [hf]; rfl) (by rw [hg]; rfl) rfl rfl rfl hlen (by decide)
  rw [hf, hg] at hends
  obtain ⟨-, hlog, hcount, hsound⟩ := benchmarkReads_rounds hends
  exact ⟨b, hends, hlog, hcount, hsound⟩

/-- **A benchmark of two datasets in their places.**  After any history of
successful runs, `p` has the compressed dataset of `f` and `q` the raw one of `g`.
Where the sizes of the two contents agree, a benchmark over both runs every pass to
its end, delivers the blocks of the two contents, and counts each as often as there
are rounds.  It does not return for the largest `unsigned`.  Where the sizes differ
it returns `EXIT_FAILURE` before the first pass. -/
theorem benchmarkReads_of_successes (env : BenchEnv (z.compressBound FRAME_BYTES))
    (hz : z.RoundTrip device) (start : Pool) (runs : List (Run z))
    (hsuccess : ∀ h ∈ (runAll start runs).log, h.status = true)
    (hf : lastSuccess p (runAll start runs).log = some f)
    (hg : lastSuccess q (runAll start runs).log = some g)
    (hfkind : f.run.kind = .compressed) (hgkind : g.run.kind = .raw)
    (hconnected : env.connected = true) (hallocated : env.allocated = true)
    (hinitialised : env.initialised = true) (rounds : UInt32) :
    if (contentOf f.run.files).length ≠ (contentOf g.run.files).length then
      ∀ outcome, BenchmarkReads z device env (runAll start runs).pool p.chars q.chars rounds
        outcome ↔ outcome = none
    else if rounds = UInt32.ofNat (2 ^ 32 - 1) then
      ∀ outcome, ¬ BenchmarkReads z device env (runAll start runs).pool p.chars q.chars rounds
        outcome
    else
      ∃ b, BenchmarkReads z device env (runAll start runs).pool p.chars q.chars rounds (some b) ∧
        b.Reports (contentOf f.run.files) (contentOf g.run.files) rounds.toNat := by
  obtain ⟨rfl, hfp⟩ := placed_of_successes hz start runs hsuccess hf
  obtain ⟨rfl, hgp⟩ := placed_of_successes hz start runs hsuccess hg
  split_ifs with hlen hrounds
  · exact benchmarkReads_placed_ne hfp hgp hfkind hgkind hconnected hallocated hinitialised hlen
  · exact benchmarkReads_placed_max hfp hgp hfkind hgkind hconnected hallocated hinitialised
      (not_not.mp hlen) hrounds
  · exact benchmarkReads_placed hfp hgp hfkind hgkind hconnected hallocated hinitialised
      (not_not.mp hlen) hrounds

/-- The dataset of `prefixP` against the one of `prefixQ`, for one round. -/
theorem benchmarkReads_of_successes_two :
    ∃ env : BenchEnv (storedZlib.compressBound FRAME_BYTES),
      ∃ b, BenchmarkReads storedZlib storedInflater env (runAll emptyPool twoRuns).pool
        prefixP.chars prefixQ.chars 1 (some b) ∧
        b.rawTotal.rawBytes = 1 ∧ b.docaTotal.rawBytes = 1 := by
  obtain ⟨f, g, -, -, hsuccess, hlastf, hlastg, hf, hg⟩ := twoRuns_placed
  have hbench := benchmarkReads_of_successes goodBenchEnv storedZlib_roundTrip emptyPool twoRuns
    hsuccess hlastf hlastg (by rw [hf]; rfl) (by rw [hg]; rfl) rfl rfl rfl 1
  rw [hf, hg] at hbench
  have hlen : (contentOf (fileRun .compressed prefixP [1] (by decide) []).files).length = 1 := rfl
  have hlen' : (contentOf (fileRun .raw prefixQ [2] (by decide) []).files).length = 1 := rfl
  rw [hlen, hlen', if_neg (by decide), if_neg (by decide)] at hbench
  obtain ⟨b, hends, hreports⟩ := hbench
  refine ⟨goodBenchEnv, b, hends, ?_, ?_⟩
  · rw [hreports.rawTotal_rawBytes, hlen']
    rfl
  · rw [hreports.docaTotal_rawBytes, hreports.rawTotal_rawBytes, hlen']
    rfl

end

end

end DpuTest.ReadBench
