import DpuTest.Lib.CountedLoop
import DpuTest.Lib.Strto
import DpuTest.ReadBench.Accounting

/-!
# The benchmark

`benchmark_reads` reads the manifests of a compressed and of a raw dataset, compares
them, runs each method once to warm up, and then measures a number of rounds.  A
round runs both methods, and every other round the other way round.
`benchmark_raw_reads` does the same with the raw method alone.

The round counter is an `unsigned`.  A benchmark that is asked for the largest one
of them ends only with a pass that fails.

* `passes_rounds`: what the rounds of a benchmark have measured.
* `benchmarkReads_ends_iff`: when a benchmark returns at all.
-/

namespace DpuTest.ReadBench

open Lib

/-- `add_result`, without the times. -/
def MethodResult.addResult (total round : MethodResult) : MethodResult where
  objects := total.objects + round.objects
  rawBytes := total.rawBytes + round.rawBytes
  compressedBytes := total.compressedBytes + round.compressedBytes

/-- The entries of `methods`. -/
inductive BenchMethod where
  | raw
  | doca
  deriving DecidableEq

/-- The local variables of the two benchmarks.  `log` records the measured passes. -/
structure Bench (srcCapacity : Nat) where
  outputBuffer : Buffer UInt8 OBJECT_BYTES
  doca : DocaDecompressor srcCapacity
  rawTotal : MethodResult
  docaTotal : MethodResult
  log : List (BenchMethod × Pass)

/-- A pass was measured. -/
def Bench.add {srcCapacity : Nat} (b : Bench srcCapacity) (pass : Pass) :
    BenchMethod → Bench srcCapacity
  | .raw => { b with rawTotal := b.rawTotal.addResult pass.result, log := b.log ++ [(.raw, pass)] }
  | .doca =>
    { b with docaTotal := b.docaTotal.addResult pass.result, log := b.log ++ [(.doca, pass)] }

/-- `first` and `second` of a round. -/
def roundMethods (round : UInt32) : List BenchMethod :=
  if round % 2 = 1 then [.raw, .doca] else [.doca, .raw]

section

variable (z : Zlib) (device : Inflater) (pool : Pool) (compressedManifest rawManifest : Manifest)

/-- The pass of a method, and the buffers behind it. -/
def onePass (method : BenchMethod) (b : Bench (z.compressBound FRAME_BYTES)) :
    Except ReadError (Bench (z.compressBound FRAME_BYTES) × Pass) :=
  match method with
  | .raw =>
    match runRawReadMethod pool rawManifest with
    | .error e => .error e
    | .ok pass => .ok (b, pass)
  | .doca =>
    match runReadMethod z device .doca pool (objectCapacity z) compressedManifest b.outputBuffer
        b.doca with
    | .error e => .error e
    | .ok r =>
      .ok ({ b with outputBuffer := r.outputBuffer, doca := r.doca },
        { result := r.result, delivered := r.delivered })

/-- `WARMUP`: the result goes to `scratch`. -/
def warmUp (method : BenchMethod) (b : Bench (z.compressBound FRAME_BYTES)) :
    Except ReadError (Bench (z.compressBound FRAME_BYTES)) :=
  match onePass z device pool compressedManifest rawManifest method b with
  | .error e => .error e
  | .ok (b, _) => .ok b

/-- A measured pass. -/
def measure (method : BenchMethod) (b : Bench (z.compressBound FRAME_BYTES)) :
    Except ReadError (Bench (z.compressBound FRAME_BYTES)) :=
  match onePass z device pool compressedManifest rawManifest method b with
  | .error e => .error e
  | .ok (b, pass) => .ok (b.add pass method)

/-- Some methods one after the other. -/
def inTurn {σ : Type} (f : BenchMethod → σ → Except ReadError σ) :
    List BenchMethod → σ → Except ReadError σ
  | [], s => .ok s
  | method :: methods, s =>
    match f method s with
    | .error e => .error e
    | .ok s => inTurn f methods s

/-- The body of the round loop. -/
def runRound (methods : UInt32 → List BenchMethod) (round : UInt32)
    (b : Bench (z.compressBound FRAME_BYTES)) :
    Except ReadError (Bench (z.compressBound FRAME_BYTES)) :=
  inTurn (measure z device pool compressedManifest rawManifest) (methods round) b

end

/-- What the benchmark needs beside the pool: whether `connect_rados`, the
allocations and `doca_decompressor_init` succeed, and what the allocated memory
holds. -/
structure BenchEnv (srcCapacity : Nat) where
  connected : Bool
  allocated : Bool
  initialised : Bool
  outputBuffer : Buffer UInt8 OBJECT_BYTES
  doca : DocaDecompressor srcCapacity

/-- The benchmark before its first pass. -/
def BenchEnv.start {srcCapacity : Nat} (env : BenchEnv srcCapacity) : Bench srcCapacity where
  outputBuffer := env.outputBuffer
  doca := env.doca
  rawTotal := .zero
  docaTotal := .zero
  log := []

section

variable (z : Zlib) (device : Inflater) (env : BenchEnv (z.compressBound FRAME_BYTES))
  (pool : Pool)

/-- The two manifests of `benchmark_reads`, if it gets past the comparison. -/
def matchingManifests (compressedPrefix rawPrefix : List UInt8) : Option (Manifest × Manifest) :=
  match readManifest pool compressedPrefix, readManifest pool rawPrefix with
  | .ok compressedManifest, .ok rawManifest =>
    if compressedManifest.objectCount ≠ rawManifest.objectCount ∨
        compressedManifest.totalRawSize ≠ rawManifest.totalRawSize then
      none
    else some (compressedManifest, rawManifest)
  | _, _ => none

/-- `benchmark_reads` up to its round loop. -/
def benchmarkStart (compressedPrefix rawPrefix : List UInt8) :
    Option ((Manifest × Manifest) × Bench (z.compressBound FRAME_BYTES)) :=
  if env.connected = false then none
  else
    match matchingManifests pool compressedPrefix rawPrefix with
    | none => none
    | some manifests =>
      if env.allocated = false ∨ env.initialised = false then none
      else
        match inTurn (warmUp z device pool manifests.1 manifests.2) [.raw, .doca] env.start with
        | .error _ => none
        | .ok b => some (manifests, b)

/-- `benchmark_reads` returns, with `some b` for `EXIT_SUCCESS`. -/
def BenchmarkReads (compressedPrefix rawPrefix : List UInt8) (rounds : UInt32)
    (outcome : Option (Bench (z.compressBound FRAME_BYTES))) : Prop :=
  match benchmarkStart z device env pool compressedPrefix rawPrefix with
  | none => outcome = none
  | some (manifests, b) =>
    ∃ status, CountedEnds rounds (runRound z device pool manifests.1 manifests.2 roundMethods) b
      status ∧ outcome = status.toOption

/-- The manifest of `benchmark_raw_reads`, if it is that of a raw dataset. -/
def rawDatasetManifest (rawPrefix : List UInt8) : Option Manifest :=
  match readManifest pool rawPrefix with
  | .ok manifest =>
    if manifest.totalCompressedSize ≠ manifest.totalRawSize then none else some manifest
  | .error _ => none

/-- `benchmark_raw_reads` up to its round loop. -/
def benchmarkRawStart (rawPrefix : List UInt8) :
    Option (Manifest × Bench (z.compressBound FRAME_BYTES)) :=
  if env.connected = false then none
  else
    match rawDatasetManifest pool rawPrefix with
    | none => none
    | some manifest =>
      if env.allocated = false then none
      else
        match inTurn (warmUp z device pool manifest manifest) [.raw] env.start with
        | .error _ => none
        | .ok b => some (manifest, b)

/-- `benchmark_raw_reads` returns. -/
def BenchmarkRawReads (rawPrefix : List UInt8) (rounds : UInt32)
    (outcome : Option (Bench (z.compressBound FRAME_BYTES))) : Prop :=
  match benchmarkRawStart z device env pool rawPrefix with
  | none => outcome = none
  | some (manifest, b) =>
    ∃ status, CountedEnds rounds (runRound z device pool manifest manifest (fun _ => [.raw])) b
      status ∧ outcome = status.toOption

end

/-! ## The rounds -/

/-- The sum of the results that a log has for a method. -/
def logTotal (method : BenchMethod) (log : List (BenchMethod × Pass)) : MethodResult :=
  ((log.filter fun entry => entry.1 = method).map fun entry => entry.2.result).foldl
    MethodResult.addResult .zero

theorem logTotal_concat (method method' : BenchMethod) (log : List (BenchMethod × Pass))
    (pass : Pass) :
    logTotal method (log ++ [(method', pass)]) =
      if method' = method then (logTotal method log).addResult pass.result
      else logTotal method log := by
  unfold logTotal
  by_cases h : method' = method
  · simp [h]
  · simp [h]

/-- The totals are those of the log, and every pass in it has counted what it
delivered. -/
structure Bench.Sound {srcCapacity : Nat} (b : Bench srcCapacity) : Prop where
  rawTotal_eq : b.rawTotal = logTotal .raw b.log
  docaTotal_eq : b.docaTotal = logTotal .doca b.log
  counts : ∀ entry ∈ b.log, entry.2.result.Counts entry.2.delivered

theorem BenchEnv.sound_start {srcCapacity : Nat} (env : BenchEnv srcCapacity) :
    env.start.Sound where
  rawTotal_eq := rfl
  docaTotal_eq := rfl
  counts := by simp [BenchEnv.start]

theorem Bench.Sound.add {srcCapacity : Nat} {b : Bench srcCapacity} (h : b.Sound) {pass : Pass}
    (hcounts : pass.result.Counts pass.delivered) (method : BenchMethod) :
    (b.add pass method).Sound ∧ (b.add pass method).log = b.log ++ [(method, pass)] := by
  cases method with
  | raw =>
    refine ⟨⟨?_, ?_, ?_⟩, rfl⟩
    · show b.rawTotal.addResult pass.result = _
      rw [h.rawTotal_eq]
      exact (logTotal_concat .raw .raw b.log pass).symm
    · exact h.docaTotal_eq.trans (logTotal_concat .doca .raw b.log pass).symm
    · intro entry hentry
      rcases List.mem_append.mp hentry with hentry | hentry
      · exact h.counts entry hentry
      · rw [List.mem_singleton.mp hentry]
        exact hcounts
  | doca =>
    refine ⟨⟨?_, ?_, ?_⟩, rfl⟩
    · exact h.rawTotal_eq.trans (logTotal_concat .raw .doca b.log pass).symm
    · show b.docaTotal.addResult pass.result = _
      rw [h.docaTotal_eq]
      exact (logTotal_concat .doca .doca b.log pass).symm
    · intro entry hentry
      rcases List.mem_append.mp hentry with hentry | hentry
      · exact h.counts entry hentry
      · rw [List.mem_singleton.mp hentry]
        exact hcounts

section

variable {z : Zlib} {device : Inflater} {pool : Pool} {compressedManifest rawManifest : Manifest}
  {methods : UInt32 → List BenchMethod} {b b' : Bench (z.compressBound FRAME_BYTES)}

/-- A pass changes the buffers only, and counts what it delivers. -/
theorem onePass_inv {method : BenchMethod} {pass : Pass}
    (h : onePass z device pool compressedManifest rawManifest method b = .ok (b', pass)) :
    pass.result.Counts pass.delivered ∧ b'.rawTotal = b.rawTotal ∧ b'.docaTotal = b.docaTotal ∧
      b'.log = b.log := by
  cases method with
  | raw =>
    simp only [onePass] at h
    split at h
    · cases h
    · rename_i hrun
      cases h
      exact ⟨runRawReadMethod_counts hrun, rfl, rfl, rfl⟩
  | doca =>
    simp only [onePass] at h
    split at h
    · cases h
    · rename_i hrun
      cases h
      exact ⟨runReadMethod_counts hrun, rfl, rfl, rfl⟩

theorem measure_inv {method : BenchMethod} (hb : b.Sound)
    (h : measure z device pool compressedManifest rawManifest method b = .ok b') :
    b'.Sound ∧ b'.log.map Prod.fst = b.log.map Prod.fst ++ [method] := by
  unfold measure at h
  split at h
  · cases h
  · rename_i b₁ pass hone
    cases h
    obtain ⟨hcounts, hraw, hdoca, hlog⟩ := onePass_inv hone
    have hb₁ : b₁.Sound := ⟨by rw [hraw, hlog, hb.rawTotal_eq],
      by rw [hdoca, hlog, hb.docaTotal_eq], by rw [hlog]; exact hb.counts⟩
    obtain ⟨hsound, hmore⟩ := hb₁.add hcounts method
    refine ⟨hsound, ?_⟩
    rw [hmore, hlog, List.map_append]
    rfl

theorem inTurn_measure_inv {turns : List BenchMethod} (hb : b.Sound)
    (h : inTurn (measure z device pool compressedManifest rawManifest) turns b = .ok b') :
    b'.Sound ∧ b'.log.map Prod.fst = b.log.map Prod.fst ++ turns := by
  induction turns generalizing b with
  | nil =>
    cases h
    exact ⟨hb, (List.append_nil _).symm⟩
  | cons method turns ih =>
    rw [inTurn] at h
    split at h
    · cases h
    · rename_i b₁ hone
      obtain ⟨hb₁, hlog⟩ := measure_inv hb hone
      obtain ⟨hsound, hmore⟩ := ih hb₁ h
      refine ⟨hsound, ?_⟩
      rw [hmore, hlog, List.append_assoc, List.singleton_append]

/-- What some rounds have measured. -/
theorem passes_runRound_inv {rounds : Nat} (hb : b.Sound) (hlog : b.log = [])
    (h : passes (runRound z device pool compressedManifest rawManifest methods) 1 rounds b =
      .ok b') :
    b'.Sound ∧ b'.log.map Prod.fst =
      (List.range' 1 rounds).flatMap fun i => methods (UInt32.ofNat i) := by
  refine passes_inv (fun k c => c.Sound ∧ c.log.map Prod.fst =
    (List.range' 1 k).flatMap fun i => methods (UInt32.ofNat i)) ?_ ⟨hb, by rw [hlog]; rfl⟩ h
  rintro k c c' ⟨hc, hclog⟩ hround
  obtain ⟨hsound, hmore⟩ := inTurn_measure_inv hc hround
  refine ⟨hsound, ?_⟩
  rw [hmore, hclog, List.range'_1_concat, List.flatMap_append]
  simp

/-- The warm-up leaves nothing behind but the buffers. -/
theorem inTurn_warmUp_inv {turns : List BenchMethod} (hb : b.Sound)
    (h : inTurn (warmUp z device pool compressedManifest rawManifest) turns b = .ok b') :
    b'.Sound ∧ b'.log = b.log := by
  induction turns generalizing b with
  | nil =>
    cases h
    exact ⟨hb, rfl⟩
  | cons method turns ih =>
    rw [inTurn] at h
    split at h
    · cases h
    · rename_i b₁ hone
      unfold warmUp at hone
      split at hone
      · cases hone
      · rename_i b₂ pass hpass
        cases hone
        obtain ⟨-, hraw, hdoca, hlog⟩ := onePass_inv hpass
        have hb₁ : b₁.Sound := ⟨by rw [hraw, hlog, hb.rawTotal_eq],
          by rw [hdoca, hlog, hb.docaTotal_eq], by rw [hlog]; exact hb.counts⟩
        obtain ⟨hsound, hmore⟩ := ih hb₁ h
        exact ⟨hsound, hmore.trans hlog⟩

end

/-- Every round runs each method once. -/
theorem count_roundMethods (method : BenchMethod) (round : UInt32) :
    (roundMethods round).count method = 1 := by
  unfold roundMethods
  cases method <;> split <;> rfl

theorem count_flatMap_roundMethods (method : BenchMethod) (rounds : Nat) :
    ((List.range' 1 rounds).flatMap fun i => roundMethods (UInt32.ofNat i)).count method =
      rounds := by
  rw [List.count_flatMap]
  have hone : (List.count method ∘ fun i => roundMethods (UInt32.ofNat i)) = fun _ => 1 := by
    funext i
    exact count_roundMethods method (UInt32.ofNat i)
  rw [hone]
  simp

section

variable {z : Zlib} {device : Inflater} {env : BenchEnv (z.compressBound FRAME_BYTES)}
  {pool : Pool} {compressedPrefix rawPrefix : List UInt8} {rounds : UInt32}

theorem benchmarkStart_inv {manifests : Manifest × Manifest}
    {b : Bench (z.compressBound FRAME_BYTES)}
    (h : benchmarkStart z device env pool compressedPrefix rawPrefix = some (manifests, b)) :
    b.Sound ∧ b.log = [] := by
  unfold benchmarkStart at h
  split at h
  · cases h
  · split at h
    · cases h
    · split at h
      · cases h
      · split at h
        · cases h
        · rename_i hwarm
          cases h
          exact inTurn_warmUp_inv env.sound_start hwarm

/-- The rounds of a benchmark have measured every method in each. -/
theorem passes_rounds {manifests : Manifest × Manifest}
    {start b : Bench (z.compressBound FRAME_BYTES)}
    (hstart : benchmarkStart z device env pool compressedPrefix rawPrefix = some (manifests, start))
    (hpasses : passes (runRound z device pool manifests.1 manifests.2 roundMethods) 1
      rounds.toNat start = .ok b) :
    b.log.map Prod.fst =
        ((List.range' 1 rounds.toNat).flatMap fun i => roundMethods (UInt32.ofNat i)) ∧
      (∀ method, (b.log.map Prod.fst).count method = rounds.toNat) ∧ b.Sound := by
  obtain ⟨hsound, hlog⟩ := benchmarkStart_inv hstart
  obtain ⟨hsound', hlog'⟩ := passes_runRound_inv hsound hlog hpasses
  refine ⟨hlog', fun method => ?_, hsound'⟩
  rw [hlog']
  exact count_flatMap_roundMethods method rounds.toNat

/-- **When the benchmark returns.**  On a device that ends its tasks it does not return
when it gets to its rounds, their number is the largest `unsigned`, and no pass ever
fails. -/
theorem benchmarkReads_ends_iff :
    (∃ outcome, BenchmarkReads z device env pool compressedPrefix rawPrefix rounds outcome) ↔
      ¬ (rounds = UInt32.ofNat (2 ^ 32 - 1) ∧ ∃ manifests b,
        benchmarkStart z device env pool compressedPrefix rawPrefix = some (manifests, b) ∧
          ∀ count, ∃ b', passes
            (runRound z device pool manifests.1 manifests.2 roundMethods) 1 count b = .ok b') := by
  unfold BenchmarkReads
  cases hstart : benchmarkStart z device env pool compressedPrefix rawPrefix with
  | none => simp
  | some started =>
    obtain ⟨manifests, b⟩ := started
    by_cases hrounds : rounds = UInt32.ofNat (2 ^ 32 - 1)
    · subst hrounds
      constructor
      · rintro ⟨outcome, status, hends, -⟩ ⟨-, manifests', b', heq, hall⟩
        cases heq
        obtain ⟨e, count, -, hfails⟩ := countedLoop_ends_max.mp hends
        obtain ⟨b'', hok⟩ := hall count
        rw [hok] at hfails
        cases hfails
      · intro hnot
        by_contra hnever
        apply hnot
        refine ⟨rfl, manifests, b, rfl, ?_⟩
        intro count
        cases hpasses : passes (runRound z device pool manifests.1 manifests.2 roundMethods) 1
            count b with
        | ok b' => exact ⟨b', rfl⟩
        | error e =>
          exact absurd ⟨none, .error e, countedLoop_ends_max.mpr ⟨e, count, rfl, hpasses⟩, rfl⟩
            hnever
    · refine iff_of_true ⟨_, _, countedLoop_ends hrounds, rfl⟩ (fun h => hrounds h.1)

end

end DpuTest.ReadBench
