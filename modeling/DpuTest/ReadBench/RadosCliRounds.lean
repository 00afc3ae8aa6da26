import Mathlib.Algebra.Order.BigOperators.Group.List
import DpuTest.ReadBench.Main
import DpuTest.ReadBench.RadosCli

/-!
# The rounds of the command line benchmark

`roundBody_spec` says what a round leaves in its two directories, `runRounds_spec`
carries this over the rounds, as no round touches the directories of another one.
`script_spec` follows a dataset from the log files to the outputs of every round,
and `script_pool_eq_write` compares the pool with that of `ceph_doca_read_bench write`
on the same directory tree.
-/

namespace DpuTest.ReadBench.RadosCli

open Lib

/-! ## A round -/

/-- No command of a round fails, and the clock moves on. -/
structure RoundEnv.Good (d : Inflater) (env : RoundEnv) : Prop where
  initOk : env.initOk = true
  envs : env.envs = fun _ => .good d
  elapsed_pos : 0 < env.elapsedNs

/-- `awk` divides by every number but 0. -/
def Divides (awk : Int → Bool) : Prop := ∀ ns, ns ≠ 0 → awk ns = true

theorem get_eq {pool : Pool} {objects : List Entry} (hpool : ∀ e ∈ objects, pool e.1 = some e.2)
    (dir : List UInt8) (files : Pool) :
    get pool dir objects files =
      some (putAll files (objects.map fun e => (localFile dir e.1, e.2))) := by
  induction objects generalizing files with
  | nil => rfl
  | cons e objects ih =>
    rw [get, hpool e List.mem_cons_self]
    exact ih (fun c hc => hpool c (List.mem_cons_of_mem e hc)) _

section

variable {awk : Int → Bool} {z : Zlib} {compress : List UInt8 → Int → List UInt8} {d : Inflater}

/-- The decompressor gets through inputs that hold well-formed objects, as long as no
output file is an input. -/
theorem mainLoop_exists (hcrc : z.Crc32Append) {srcCapacity : Nat} {outputDir : List UInt8}
    {inputs : List (List UInt8)} (hbase : ∀ i ∈ inputs, ZOBJ_SUFFIX <:+ baseName i)
    (hpath : ∀ i ∈ inputs, (outputDir ++ SLASH :: baseName i).length < 4096)
    (hapart : ∀ i ∈ inputs, ∀ j ∈ inputs, outputFile outputDir i ≠ j)
    {s : MainState srcCapacity}
    (hfiles : ∀ i ∈ inputs, ∃ fs, WellFormed (docaDecoder d srcCapacity) fs ∧
      s.files i = some (packObject z.checksum fs)) (index : Nat) :
    ∃ t, mainLoop z (fun _ => .good d) outputDir inputs index s = (t, .success) := by
  induction inputs generalizing index s with
  | nil => exact ⟨s, rfl⟩
  | cons input inputs ih =>
    obtain ⟨fs, hfs, hfile⟩ := hfiles input List.mem_cons_self
    obtain ⟨path, hout⟩ : ∃ path, outputPath input outputDir = some path := by
      have hlt := hpath input List.mem_cons_self
      rw [outputPath, if_neg (by omega)]
      exact ⟨_, rfl⟩
    obtain ⟨decompressor, hrun⟩ :=
      decompressObjectRun_packObject hcrc hfs hfile hout s.decompressor s.rawTotal
    rw [mainLoop, hrun]
    refine ih (fun i hi => hbase i (List.mem_cons_of_mem _ hi))
      (fun i hi => hpath i (List.mem_cons_of_mem _ hi))
      (fun i hi j hj => hapart i (List.mem_cons_of_mem _ hi) j (List.mem_cons_of_mem _ hj)) ?_ _
    intro i hi
    have hne : i ≠ path := by
      rw [outputPath_eq (hbase input List.mem_cons_self) hout]
      exact (hapart input List.mem_cons_self i (List.mem_cons_of_mem _ hi)).symm
    obtain ⟨gs, hgs, hread⟩ := hfiles i (List.mem_cons_of_mem _ hi)
    refine ⟨gs, hgs, ?_⟩
    rw [← hread]
    exact Function.update_of_ne hne _ _

/-- The objects are in the pool. -/
def Stored (z : Zlib) (compress : List UInt8 → Int → List UInt8) (pfx content : List UInt8)
    (pool : Pool) : Prop :=
  ∀ e ∈ objectEntries z compress pfx content, pool e.1 = some e.2

/-- The file that a round leaves for a chunk: `$OUTPUT_DIR/$PREFIX.$index.raw`, but for a
prefix that has `.zobj` in it. -/
def resultFile (runDir pfx : List UInt8) (round : Nat) (index : List UInt8) : List UInt8 :=
  outputDir runDir round ++ SLASH ::
    (chunkName pfx index ++ if ZOBJ_SUFFIX <:+: pfx then ZOBJ_SUFFIX else RAW_SUFFIX)

/-- No path of a round is too long for `output_path`. -/
def Fits (runDir pfx content : List UInt8) (round : Nat) : Prop :=
  ∀ e ∈ chunkEntries content,
    (outputDir runDir round ++ SLASH :: (chunkName pfx e.1 ++ ZOBJ_SUFFIX)).length < 4096

/-- A file in neither of the directories of a round. -/
def Outside (runDir : List UInt8) (round : Nat) (path : List UInt8) : Prop :=
  ∀ name, SLASH ∉ name → path ≠ getDir runDir round ++ SLASH :: name ∧
    path ≠ outputDir runDir round ++ SLASH :: name

variable {runDir pfx content : List UInt8} {pool : Pool}

theorem SLASH_notMem_of_mem (hpfx : SLASH ∉ pfx) {e : Entry} (he : e ∈ chunkEntries content) :
    SLASH ∉ chunkName pfx e.1 := by
  obtain ⟨chunk, -, rfl⟩ := List.mem_map.mp he
  exact SLASH_notMem_chunkName hpfx chunk.2

theorem outputFile_eq_resultFile (hpfx : SLASH ∉ pfx) {e : Entry}
    (he : e ∈ chunkEntries content) (round : Nat) :
    outputFile (outputDir runDir round)
        (localFile (getDir runDir round) (chunkName pfx e.1)) =
      resultFile runDir pfx round e.1 := by
  rw [outputFile, outputName_localFile (SLASH_notMem_of_mem hpfx he), resultFile]
  obtain ⟨chunk, -, rfl⟩ := List.mem_map.mp he
  simp only [infix_chunkName_iff]

theorem localFile_inj {dir name name' : List UInt8} (h : localFile dir name = localFile dir name') :
    name = name' :=
  List.append_cancel_right (List.cons.inj (List.append_cancel_left h)).2

/-- What `rados get` leaves in a directory. -/
def downloaded (z : Zlib) (compress : List UInt8 → Int → List UInt8) (pfx content dir : List UInt8)
    (files : Pool) : Pool :=
  putAll files ((objectEntries z compress pfx content).map fun e => (localFile dir e.1, e.2))

theorem downloaded_of_mem {e : Entry} (he : e ∈ chunkEntries content) (dir : List UInt8)
    (files : Pool) :
    downloaded z compress pfx content dir files (localFile dir (chunkName pfx e.1)) =
      some (objectOf z compress e.2) := by
  refine putAll_of_mem _ ?_ ?_
  · have hkeys : ((objectEntries z compress pfx content).map fun e =>
        (localFile dir e.1, e.2)).map Prod.fst =
          ((chunkEntries content).map fun e => chunkName pfx e.1).map (localFile dir) := by
      rw [objectEntries, List.map_map, List.map_map, List.map_map]
      rfl
    rw [hkeys]
    exact (nodup_chunkNames pfx content).map fun _ _ h => localFile_inj h
  · exact List.mem_map_of_mem (List.mem_map_of_mem he)

theorem downloaded_of_outside (hpfx : SLASH ∉ pfx) {dir path : List UInt8}
    (hpath : ∀ name, SLASH ∉ name → path ≠ dir ++ SLASH :: name) (files : Pool) :
    downloaded z compress pfx content dir files path = files path := by
  refine putAll_of_notMem _ ?_
  intro hmem
  obtain ⟨_, hentry, rfl⟩ := List.mem_map.mp hmem
  obtain ⟨o, ho, rfl⟩ := List.mem_map.mp hentry
  obtain ⟨e, he, rfl⟩ := List.mem_map.mp ho
  exact hpath _ (SLASH_notMem_zobj (SLASH_notMem_of_mem hpfx he)) rfl

/-- A downloaded object decodes to its chunk. -/
theorem decodedFile_downloaded (hz : z.Encodes (SameStream z compress d)) {e : Entry}
    (he : e ∈ chunkEntries content) (dir : List UInt8) (files : Pool) :
    DecodedFile z d (z.compressBound FRAME_BYTES) (downloaded z compress pfx content dir files)
      (localFile dir (chunkName pfx e.1)) e.2 := by
  obtain ⟨hpos, hmax⟩ := mem_chunkEntries he
  refine ⟨framesOf compress e.2, wellFormed_framesOf hz hpos hmax, ?_, ?_⟩
  · rw [readFile, downloaded_of_mem he dir files]
    exact if_neg (packObject_ne_nil _ _)
  · exact (framesRaw_eq (map_raw_framesOf compress e.2)).symm

/-- The arguments that the decompressor of a round gets. -/
def inputs (runDir pfx content : List UInt8) (round : Nat) : List (List UInt8) :=
  (chunkEntries content).map fun e => localFile (getDir runDir round) (chunkName pfx e.1)

section

variable (hpfx : SLASH ∉ pfx) {round : Nat} {input : List UInt8}
  (hinput : input ∈ inputs runDir pfx content round)

include hpfx hinput

theorem baseName_input :
    ∃ e ∈ chunkEntries content, baseName input = chunkName pfx e.1 ++ ZOBJ_SUFFIX := by
  obtain ⟨e, he, rfl⟩ := List.mem_map.mp hinput
  exact ⟨e, he, baseName_localFile (SLASH_notMem_of_mem hpfx he)⟩

theorem suffix_input : ZOBJ_SUFFIX <:+ baseName input := by
  obtain ⟨e, -, hbase⟩ := baseName_input hpfx hinput
  rw [hbase]
  exact List.suffix_append _ _

/-- An output file is in the output directory of its round. -/
theorem outputFile_input_ne {dir name : List UInt8} (hdir : dir ≠ outputDir runDir round)
    (hname : SLASH ∉ name) : outputFile (outputDir runDir round) input ≠ dir ++ SLASH :: name := by
  intro h
  have hout := SLASH_notMem_outputName (suffix_input hpfx hinput)
  exact hdir (path_inj hout hname h).1.symm

end

theorem inputs_distinct (hpfx : SLASH ∉ pfx) (round : Nat) :
    (inputs runDir pfx content round).Pairwise fun i j => baseName i ≠ baseName j := by
  have hnodup := nodup_chunkNames pfx content
  rw [List.nodup_iff_pairwise_ne, List.pairwise_map] at hnodup
  rw [inputs, List.pairwise_map]
  refine hnodup.imp_of_mem ?_
  intro e e' he he' hne hbase
  rw [baseName_localFile (SLASH_notMem_of_mem hpfx he),
    baseName_localFile (SLASH_notMem_of_mem hpfx he')] at hbase
  exact hne (List.append_cancel_right hbase)

theorem totalNs_pos {env : Nat → RoundEnv} (henv : ∀ k, (env k).Good d) {rounds : Nat}
    (hrounds : 0 < rounds) : 0 < totalNs env rounds := by
  refine List.sum_pos _ ?_ ?_
  · intro ns hns
    obtain ⟨k, -, rfl⟩ := List.mem_map.mp hns
    exact (henv k).elapsed_pos
  · rw [ne_eq, List.map_eq_nil_iff, List.range'_eq_nil_iff]
    omega

/-- A round leaves every chunk, and all files outside its directories. -/
theorem roundBody_spec (hz : z.Encodes (SameStream z compress d)) (hcrc : z.Crc32Append)
    (hpfx : SLASH ∉ pfx) (hne : chunkEntries content ≠ [])
    (hpool : Stored z compress pfx content pool) (hawk : Divides awk) {env : Nat → RoundEnv}
    (henv : ∀ k, (env k).Good d) {round : Nat} (hround : 0 < round)
    (hfits : Fits runDir pfx content round) (files : Pool) :
    ∃ files', roundBody awk z env runDir pool (objectEntries z compress pfx content) round files =
        some files' ∧
      (∀ e ∈ chunkEntries content, files' (resultFile runDir pfx round e.1) = some e.2) ∧
      ∀ path, Outside runDir round path → files' path = files path := by
  have hapart : ∀ i ∈ inputs runDir pfx content round, ∀ j ∈ inputs runDir pfx content round,
      outputFile (outputDir runDir round) i ≠ j := by
    intro i hi j hj
    obtain ⟨e, he, rfl⟩ := List.mem_map.mp hj
    exact outputFile_input_ne hpfx hi (getDir_ne_outputDir round round)
      (SLASH_notMem_zobj (SLASH_notMem_of_mem hpfx he))
  have hshort : ∀ i ∈ inputs runDir pfx content round,
      (outputDir runDir round ++ SLASH :: baseName i).length < 4096 := by
    intro i hi
    obtain ⟨e, he, hbase⟩ := baseName_input hpfx hi
    rw [hbase]
    exact hfits e he
  have hfiles : ∀ i ∈ inputs runDir pfx content round, ∃ fs,
      WellFormed (docaDecoder d (z.compressBound FRAME_BYTES)) fs ∧
        downloaded z compress pfx content (getDir runDir round) files i =
          some (packObject z.checksum fs) := by
    intro i hi
    obtain ⟨e, he, rfl⟩ := List.mem_map.mp hi
    obtain ⟨hpos, hmax⟩ := mem_chunkEntries he
    exact ⟨_, wellFormed_framesOf hz hpos hmax, downloaded_of_mem he _ files⟩
  have hinputs : inputs runDir pfx content round ≠ [] := fun h => hne (List.map_eq_nil_iff.mp h)
  let start : MainState (z.compressBound FRAME_BYTES) :=
    { files := downloaded z compress pfx content (getDir runDir round) files
      decompressor := .init _, rawTotal := 0, opened := [], accepted := [] }
  obtain ⟨t, hloop⟩ := @mainLoop_exists z d hcrc _ _ _ (fun _ hi => suffix_input hpfx hi) hshort
    hapart start hfiles 0
  obtain ⟨hframe, raws, hraws, -⟩ := mainLoop_success hcrc (fun _ => rfl) (fun _ _ => rfl)
    (fun _ hi => suffix_input hpfx hi) (inputs_distinct hpfx round) hloop
  refine ⟨t.files, ?_, ?_, ?_⟩
  · have hargs : ((objectEntries z compress pfx content).map fun o =>
        localFile (getDir runDir round) o.1) = inputs runDir pfx content round := by
      rw [objectEntries, List.map_map]
      rfl
    have hmain : localMain z (fun _ => .good d) true (z.compressBound FRAME_BYTES)
        (outputDir runDir round) (inputs runDir pfx content round)
        (downloaded z compress pfx content (getDir runDir round) files) = (t, .success) := by
      simp only [localMain, if_neg hinputs, Bool.true_eq_false, if_false]
      exact hloop
    rw [← hargs] at hmain
    have hdownloaded : get pool (getDir runDir round) (objectEntries z compress pfx content) files =
        some (downloaded z compress pfx content (getDir runDir round) files) := get_eq hpool _ files
    have htotal : totalNs env round ≠ 0 := (totalNs_pos henv hround).ne'
    have htime : awk (env round).elapsedNs = true := hawk _ (henv round).elapsed_pos.ne'
    simp only [roundBody, hdownloaded, (henv round).initOk, (henv round).envs, hmain, unlessFailed]
    exact if_pos ⟨htotal, htime⟩
  · intro e he
    obtain ⟨raw, hdecoded, hread⟩ := exists_of_mem_forall₂ hraws (List.mem_map_of_mem he)
    rw [← outputFile_eq_resultFile hpfx he, hread,
      hdecoded.unique (decodedFile_downloaded hz he _ files)]
  · intro path hpath
    rw [hframe path ?_]
    · exact downloaded_of_outside hpfx (fun name hname => (hpath name hname).1) files
    · intro i hi
      exact ((hpath _ (SLASH_notMem_outputName (suffix_input hpfx hi))).2).symm

/-! ## All rounds -/

/-- The files of a round are outside of every other one. -/
theorem outside_resultFile (hpfx : SLASH ∉ pfx) {e : Entry} (he : e ∈ chunkEntries content)
    {k round : Nat} (hk : k ≠ round) : Outside runDir k (resultFile runDir pfx round e.1) := by
  have hinput : localFile (getDir runDir round) (chunkName pfx e.1) ∈
      inputs runDir pfx content round := List.mem_map_of_mem he
  rw [← outputFile_eq_resultFile hpfx he]
  intro name hname
  exact ⟨outputFile_input_ne hpfx hinput (getDir_ne_outputDir k round) hname,
    outputFile_input_ne hpfx hinput (fun h => hk (outputDir_inj h)) hname⟩

/-- The rounds leave what each of them leaves. -/
theorem runRounds_spec (hz : z.Encodes (SameStream z compress d)) (hcrc : z.Crc32Append)
    (hpfx : SLASH ∉ pfx) (hne : chunkEntries content ≠ [])
    (hpool : Stored z compress pfx content pool) (hawk : Divides awk) {env : Nat → RoundEnv}
    (henv : ∀ k, (env k).Good d) {round count : Nat} (hround : 0 < round)
    (hfits : ∀ k, round ≤ k → k < round + count → Fits runDir pfx content k) (files : Pool) :
    ∃ files', runRounds awk z env runDir pool (objectEntries z compress pfx content) round count
        files = some files' ∧
      (∀ k, round ≤ k → k < round + count → ∀ e ∈ chunkEntries content,
        files' (resultFile runDir pfx k e.1) = some e.2) ∧
      ∀ path, (∀ k, round ≤ k → k < round + count → Outside runDir k path) →
        files' path = files path := by
  induction count generalizing round files with
  | zero => exact ⟨files, rfl, fun k hk hlt => by omega, fun _ _ => rfl⟩
  | succ count ih =>
    obtain ⟨files₁, hbody, hresults, hframe⟩ := roundBody_spec hz hcrc hpfx hne hpool hawk
      henv hround (hfits round (Nat.le_refl _) (by omega)) files
    obtain ⟨files', hrounds, hlater, hlaterFrame⟩ := @ih (round + 1)
      (Nat.succ_pos round) (fun k hk hlt => hfits k (by omega) (by omega)) files₁
    refine ⟨files', ?_, ?_, ?_⟩
    · rw [runRounds, hbody]
      exact hrounds
    · intro k hk hlt e he
      by_cases hfirst : k = round
      · subst hfirst
        rw [hlaterFrame _ (fun l hl _ => outside_resultFile hpfx he (by omega))]
        exact hresults e he
      · exact hlater k (by omega) (by omega) e he
    · intro path hpath
      rw [hlaterFrame path (fun k hk hlt => hpath k (by omega) (by omega))]
      exact hframe path (hpath round (Nat.le_refl _) (by omega))

/-- The put objects are in the pool, and nothing else has changed. -/
theorem put_spec (z : Zlib) (compress : List UInt8 → Int → List UInt8) (pfx content : List UInt8)
    (pool : Pool) :
    Stored z compress pfx content (put pool (objectEntries z compress pfx content)) ∧
      ∀ name, name ∉ (objectEntries z compress pfx content).map Prod.fst →
        put pool (objectEntries z compress pfx content) name = pool name := by
  have hnodup : ((objectEntries z compress pfx content).map Prod.fst).Nodup := by
    have hnames := nodup_chunkNames pfx content
    rw [objectEntries, List.map_map]
    exact hnames
  exact ⟨fun e he => putAll_of_mem pool hnodup he, fun name hname => putAll_of_notMem pool hname⟩

/-- There is nothing to decompress in a round without objects. -/
theorem runRounds_nil {env : Nat → RoundEnv} {round count : Nat} (hcount : 0 < count)
    (files : Pool) : runRounds awk z env runDir pool [] round count files = none := by
  cases count with
  | zero => omega
  | succ count => rfl

theorem chunkEntries_eq_nil_iff : chunkEntries content = [] ↔ content = [] := by
  rw [chunkEntries, List.map_eq_nil_iff, List.zipIdx_eq_nil_iff]
  constructor
  · intro h
    rw [← (fixedRule OBJECT_BYTES OBJECT_BYTES_pos).flatten_chunks content]
    exact congrArg List.flatten h
  · rintro rfl
    exact (fixedRule OBJECT_BYTES OBJECT_BYTES_pos).chunks_nil

end

section

variable {awk : Int → Bool} {z : Zlib} {compress : List UInt8 → Int → List UInt8} {d : Inflater}
  {runDir : List UInt8} {pfx : FilePrefix} {tree : LogTree} {pool : Pool}

/-- What the shell finds of the objects of a dataset. -/
def foundObjects (z : Zlib) (compress : List UInt8 → Int → List UInt8) (pfx : FilePrefix)
    (tree : LogTree) : List Entry :=
  glob (objectEntries z compress pfx.chars tree.content)

/-- The script gets to its rounds unless `split` runs out of suffixes or there is
nothing to cut. -/
theorem script_eq (hz : z.Encodes (SameStream z compress d)) (env : Nat → RoundEnv)
    (rounds : Nat) (files : Pool) :
    script awk z compress env runDir pfx tree rounds pool files =
      if 10 ^ 6 < (rawObjects tree.content).length ∨ tree.content = [] then none
      else
        (runRounds awk z env runDir (put pool (foundObjects z compress pfx tree))
          (foundObjects z compress pfx tree) 1 rounds files).bind fun files =>
            if awk (totalNs env rounds) then
              some (put pool (foundObjects z compress pfx tree), files)
            else none := by
  have hpack := packChunks_eq hz pfx.chars
    (fun chunk (h : chunk ∈ chunkEntries tree.content) => (mem_chunkEntries h).2)
  unfold script split
  by_cases hnone : tree.logFiles = []
  · have hempty : tree.content = [] := by rw [LogTree.content, hnone]; rfl
    rw [if_pos hnone, if_pos (.inr hempty)]
  · rw [if_neg hnone]
    by_cases hmany : 10 ^ 6 < (rawObjects tree.content).length
    · rw [if_pos hmany, if_pos (.inl hmany)]
      rfl
    · rw [if_neg hmany]
      show (if chunkEntries tree.content = [] then none
        else packChunks z compress pfx.chars (chunkEntries tree.content) >>= _) = _
      by_cases hempty : tree.content = []
      · rw [if_pos (chunkEntries_eq_nil_iff.mpr hempty), if_pos (.inr hempty)]
      · rw [if_neg (fun h => hempty (chunkEntries_eq_nil_iff.mp h)),
          if_neg (not_or.mpr ⟨hmany, hempty⟩), hpack]
        rfl

/-- With a round to run, the script does not end for a prefix that the shell hides. -/
theorem script_eq_none (hz : z.Encodes (SameStream z compress d)) (env : Nat → RoundEnv)
    {rounds : Nat} (hrounds : 0 < rounds) (files : Pool)
    (hstop : 10 ^ 6 < (rawObjects tree.content).length ∨ tree.content = [] ∨
      pfx.chars.headD DOT = DOT) :
    script awk z compress env runDir pfx tree rounds pool files = none := by
  rw [script_eq hz]
  by_cases hearly : 10 ^ 6 < (rawObjects tree.content).length ∨ tree.content = []
  · rw [if_pos hearly]
  have hdot : pfx.chars.headD DOT = DOT := by
    rcases hstop with h | h | h
    · exact absurd (.inl h) hearly
    · exact absurd (.inr h) hearly
    · exact h
  rw [if_neg hearly, foundObjects, glob_objectEntries, if_pos hdot, runRounds_nil hrounds]
  rfl

/-- Otherwise it puts the objects and leaves the chunks in every round. -/
theorem script_ends (hz : z.Encodes (SameStream z compress d)) (hcrc : z.Crc32Append)
    (hawk : Divides awk) {env : Nat → RoundEnv} (henv : ∀ k, (env k).Good d) {rounds : Nat}
    (hrounds : 0 < rounds)
    (hfits : ∀ k, 1 ≤ k → k ≤ rounds → Fits runDir pfx.chars tree.content k) (files : Pool)
    (hmany : ¬ 10 ^ 6 < (rawObjects tree.content).length) (hne : tree.content ≠ [])
    (hdot : pfx.chars.headD DOT ≠ DOT) :
    ∃ files',
      script awk z compress env runDir pfx tree rounds pool files =
        some (put pool (objectEntries z compress pfx.chars tree.content), files') ∧
      ∀ k, 1 ≤ k → k ≤ rounds → ∀ e ∈ chunkEntries tree.content,
        files' (resultFile runDir pfx.chars k e.1) = some e.2 := by
  obtain ⟨hstored, -⟩ := put_spec z compress pfx.chars tree.content pool
  obtain ⟨files', hrun, hresults, -⟩ := runRounds_spec hz hcrc pfx.slash_notMem
    (fun h => hne (chunkEntries_eq_nil_iff.mp h)) hstored hawk henv Nat.one_pos
    (fun k hk (hlt : k < 1 + rounds) => hfits k hk (by omega)) files
  have htotal : awk (totalNs env rounds) = true := by
    have hpos := totalNs_pos henv hrounds
    exact hawk _ (by omega)
  refine ⟨files', ?_, fun k hk hle => hresults k hk (by omega)⟩
  rw [script_eq hz, if_neg (not_or.mpr ⟨hmany, hne⟩), foundObjects, glob_objectEntries,
    if_neg hdot, hrun, htotal]
  rfl

/-- **A dataset through the script.**  A script that is asked for a round stops without
a result when there is nothing in the log files, when they make more than a million
chunks, or when the shell does not list the objects because their names start with a
dot.  Otherwise, with no command that fails, it puts one object for each chunk and
changes no other one, and when it ends the directory of every round has the chunks,
which make up the log files in the order of the locale. -/
theorem script_spec (hz : z.Encodes (SameStream z compress d)) (hcrc : z.Crc32Append)
    (hawk : Divides awk) {env : Nat → RoundEnv} (henv : ∀ k, (env k).Good d) {rounds : Nat}
    (hrounds : 0 < rounds)
    (hfits : ∀ k, 1 ≤ k → k ≤ rounds → Fits runDir pfx.chars tree.content k) (files : Pool) :
    if 10 ^ 6 < (rawObjects tree.content).length ∨ tree.content = [] ∨
        pfx.chars.headD DOT = DOT then
      script awk z compress env runDir pfx tree rounds pool files = none
    else
      ∃ pool' files',
        script awk z compress env runDir pfx tree rounds pool files = some (pool', files') ∧
        (∀ k, 1 ≤ k → k ≤ rounds →
          (∀ e ∈ chunkEntries tree.content,
            files' (resultFile runDir pfx.chars k e.1) = some e.2) ∧
          ((chunkEntries tree.content).map fun e =>
            (files' (resultFile runDir pfx.chars k e.1)).getD []).flatten = tree.content) ∧
        Stored z compress pfx.chars tree.content pool' ∧
        ∀ name, name ∉ (objectEntries z compress pfx.chars tree.content).map Prod.fst →
          pool' name = pool name := by
  split_ifs with hstop
  · exact script_eq_none hz env hrounds files hstop
  rw [not_or, not_or] at hstop
  obtain ⟨hmany, hne, hdot⟩ := hstop
  obtain ⟨hstored, hother⟩ := put_spec z compress pfx.chars tree.content pool
  obtain ⟨files', hscript, hresults⟩ :=
    script_ends hz hcrc hawk henv hrounds hfits files hmany hne hdot
  refine ⟨_, files', hscript, fun k hk hle => ?_, hstored, hother⟩
  have hround := hresults k hk hle
  refine ⟨hround, ?_⟩
  have hmap : ((chunkEntries tree.content).map fun e =>
      (files' (resultFile runDir pfx.chars k e.1)).getD []) = rawObjects tree.content := by
    rw [List.map_congr_left (fun e he => by rw [hround e he, Option.getD_some]), chunkEntries,
      List.map_map]
    exact List.zipIdx_map_fst 0 (rawObjects tree.content)
  rw [hmap]
  exact CutRule.flatten_chunks _ _

end

theorem storedZlib_sameStream :
    storedZlib.Encodes (SameStream storedZlib (fun x _ => storedStream x) storedInflater) :=
  storedZlib_encodes.imp fun x stream hx hstream => by
    subst hstream
    exact ⟨rfl, storedStream_decodes hx⟩

/-- Short names fit. -/
theorem fits_of_length {runDir pfx content : List UInt8} {round : Nat}
    (hlimit : content.length ≤ CONTENT_LIMIT)
    (h : (outputDir runDir round).length + pfx.length + 27 < 4096) :
    Fits runDir pfx content round := by
  intro e he
  obtain ⟨⟨chunk, i⟩, hmem, rfl⟩ := List.mem_map.mp he
  have hi := (List.getElem?_eq_some_iff.mp (List.mem_zipIdx_iff_getElem?.mp hmem)).1
  have hdigits : (format06 i).length ≤ 20 :=
    length_format06_le (Nat.lt_trans hi (length_rawObjects_lt hlimit))
  simp only [chunkName, List.length_append, List.length_cons, ZOBJ_SUFFIX, List.length_nil]
  omega

/-! ## Two log files -/

/-- The path `a.log`. -/
def aLog : Path := ascii ['a', '.', 'l', 'o', 'g']

/-- The path `b.log`. -/
def bLog : Path := ascii ['b', '.', 'l', 'o', 'g']

/-- `b.log` is found before `a.log`. -/
def twoLogs : LogTree where
  found := [bLog, aLog]
  disk path := if path = aLog then [1] else List.replicate OBJECT_BYTES 7
  collate := comparePaths

theorem twoLogs_content : twoLogs.content = 1 :: List.replicate OBJECT_BYTES 7 := by
  have hsorted : twoLogs.logFiles = [aLog, bLog] := by
    have hswap : twoLogs.logFiles = [aLog, bLog].mergeSort comparePaths :=
      mergeSort_eq_of_perm (List.Perm.swap aLog bLog [])
    rw [hswap]
    exact List.mergeSort_of_pairwise (by decide)
  rw [LogTree.content, hsorted]
  show ([1] ++ (List.replicate OBJECT_BYTES 7 ++ []) : List UInt8) = _
  rw [List.append_nil, List.singleton_append]

theorem twoLogs_length : twoLogs.content.length = OBJECT_BYTES + 1 := by
  rw [twoLogs_content, List.length_cons, List.length_replicate]

/-- The prefix `p`. -/
def filePrefixP : FilePrefix where
  chars := prefixP.chars
  slash_notMem := by decide
  not_option := by decide

/-- A round that takes a nanosecond. -/
def goodRound : RoundEnv where
  initOk := true
  envs _ := .good storedInflater
  elapsedNs := 1

theorem goodRound_good : goodRound.Good storedInflater := ⟨rfl, rfl, by decide⟩

/-- An `awk` that refuses to divide by 0. -/
def gawk (ns : Int) : Bool := ns ≠ 0

theorem gawk_divides : Divides gawk := fun _ hns => decide_eq_true hns

theorem twoLogs_ends : ¬ 10 ^ 6 < (rawObjects twoLogs.content).length ∧ twoLogs.content ≠ [] ∧
    filePrefixP.chars.headD DOT ≠ DOT := by
  refine ⟨?_, ?_, by decide⟩
  · have htwo : (rawObjects twoLogs.content).length ≤ 2 := by
      refine length_chunks_fixed_le OBJECT_BYTES_pos ?_
      rw [twoLogs_length]
      decide
    omega
  · intro h
    have hlength := twoLogs_length
    rw [h] at hlength
    cases hlength

theorem twoLogs_fits {k : Nat} (hk : k < 10) : Fits [114] filePrefixP.chars twoLogs.content k := by
  refine fits_of_length ?_ ?_
  · rw [twoLogs_length]
    decide
  · revert k
    decide

/-- Two rounds over two chunks. -/
theorem script_spec_twoLogs : ∃ pool' files',
    script gawk storedZlib (fun x _ => storedStream x) (fun _ => goodRound) [114] filePrefixP
        twoLogs 2 emptyPool emptyPool = some (pool', files') ∧
      ((chunkEntries twoLogs.content).map fun e =>
        (files' (resultFile [114] filePrefixP.chars 2 e.1)).getD []).flatten =
          1 :: List.replicate OBJECT_BYTES 7 := by
  have hspec := @script_spec gawk storedZlib (fun x _ => storedStream x) storedInflater [114]
    filePrefixP twoLogs emptyPool storedZlib_sameStream storedZlib_crc32Append gawk_divides
    (fun _ => goodRound) (fun _ => goodRound_good) 2 (by decide)
    (fun k _ hle => twoLogs_fits (by omega)) emptyPool
  obtain ⟨hmany, hne, hdot⟩ := twoLogs_ends
  rw [if_neg (by simp only [hmany, hne, hdot, or_self, not_false_eq_true])] at hspec
  obtain ⟨pool', files', hscript, hresults, -⟩ := hspec
  rw [← twoLogs_content]
  exact ⟨pool', files', hscript, (hresults 2 (by decide) (Nat.le_refl _)).2⟩

/-! ## The same pool -/

/-- A script that finds the same paths as `nftw` sorts them as `build_file_list` does, if
its locale orders them so. -/
theorem content_eq_contentOf {walk : Walk} {allocs : List Bool} {file : Path → LogFile}
    {tree : LogTree} (hlist : (buildFileList walk allocs).1 = true)
    (hfound : tree.found.Perm (logPaths walk.visits))
    (hdisk : ∀ path ∈ tree.found, tree.disk path = (file path).content)
    (horder : ∀ a ∈ tree.found, ∀ b ∈ tree.found, tree.collate a b = comparePaths a b) :
    tree.content = contentOf ((buildFileList walk allocs).2.map file) := by
  have hsorted := @List.map_mergeSort _ _ tree.collate comparePaths id tree.found horder
  have hfiles : tree.logFiles = (buildFileList walk allocs).2 := by
    rw [List.map_id, List.map_id] at hsorted
    rw [LogTree.logFiles, hsorted, (buildFileList_inv walk allocs).2 hlist]
    exact mergeSort_eq_of_perm hfound
  rw [LogTree.content, contentOf, ← hfiles, List.map_map]
  refine congrArg List.flatten (List.map_congr_left fun path hpath => ?_)
  exact hdisk path (List.mem_mergeSort.mp hpath)

/-- **The script and `ceph_doca_read_bench write` agree.**  Over the same pool and the
same log files, which the locale of the script orders as `strcmp` does, the two leave
the same objects, and the script no manifest. -/
theorem script_pool_eq_write {awk : Int → Bool} {z : Zlib}
    {compress : List UInt8 → Int → List UInt8} {d : Inflater}
    (hz : z.Encodes (SameStream z compress d)) {inv : Invocation z} {name root : List UInt8}
    {p : Prefix} {pools pools' : Pools}
    (hcommand : parseCommand inv.args = some (.write .compressed name root p))
    (hmain : MainReturns d inv pools true pools') {tree : LogTree}
    (hfound : tree.found.Perm (logPaths (inv.walk root).visits))
    (hdisk : ∀ path ∈ tree.found, tree.disk path = (inv.file path).content)
    (horder : ∀ a ∈ tree.found, ∀ b ∈ tree.found, tree.collate a b = comparePaths a b)
    {env : Nat → RoundEnv} {runDir : List UInt8} {pfx : FilePrefix} (hpfx : pfx.chars = p.chars)
    {rounds : Nat} (hrounds : 0 < rounds) {files pool' files' : Pool}
    (hscript : script awk z compress env runDir pfx tree rounds (pools name) files =
      some (pool', files')) :
    (∀ oid, oid ≠ manifestName p.chars → pool' oid = pools' name oid) ∧
      pool' (manifestName p.chars) = pools name (manifestName p.chars) := by
  obtain ⟨run, hrun, hkind, rfl, hlist, hfiles⟩ := mainReturns_write hmain hcommand
  have hafter := mainReturns_pool hmain name
  rw [hrun] at hafter
  obtain ⟨hstatus, hpools⟩ := hafter
  have hcontent : tree.content = contentOf run.files :=
    hfiles ▸ content_eq_contentOf hlist hfound hdisk horder
  have hlimit := length_rawObjects_lt run.content_le
  obtain ⟨done, middle, hwrote⟩ := writeCompressedDataset_wrote run.pfx hz run.content_le run.memory
    { pool := pools name, outcomes := run.outcomes }
  have hexecute : run.execute (pools name) = writeCompressedDataset z run.memory
      { pool := pools name, outcomes := run.outcomes } run.pfx.chars run.files := by
    simp only [Run.execute, hkind]
  rw [hexecute] at hstatus hpools
  obtain ⟨rfl, -⟩ := hwrote.ok hstatus.symm
  have hname {i : Nat} (hi : i < (rawObjects (contentOf run.files)).length) :
      chunkName run.pfx.chars (format06 i) = objectName run.pfx.chars (UInt64.ofNat i) := by
    rw [objectName_eq, UInt64.toNat_ofNat_of_lt' (Nat.lt_trans hi hlimit), chunkName]
  have hpool' : pool' =
      put (pools name) (objectEntries z compress run.pfx.chars (contentOf run.files)) := by
    have hend : ¬ (10 ^ 6 < (rawObjects tree.content).length ∨ tree.content = [] ∨
        pfx.chars.headD DOT = DOT) := by
      intro hstop
      rw [script_eq_none hz env hrounds files hstop] at hscript
      cases hscript
    rw [not_or, not_or] at hend
    rw [script_eq hz, if_neg (not_or.mpr ⟨hend.1, hend.2.1⟩), foundObjects, glob_objectEntries,
      if_neg hend.2.2, hcontent, hpfx] at hscript
    obtain ⟨_, -, hpair⟩ := Option.bind_eq_some_iff.mp hscript
    split_ifs at hpair
    exact (Prod.mk.inj (Option.some.inj hpair)).1.symm
  subst hpool'
  obtain ⟨hstored, hother⟩ :=
    put_spec z compress run.pfx.chars (contentOf run.files) (pools name)
  constructor
  · intro oid hoid
    rw [hpools, hwrote.pool_eq_middle hoid]
    by_cases hmem :
        oid ∈ (objectEntries z compress run.pfx.chars (contentOf run.files)).map Prod.fst
    · obtain ⟨e, he, rfl⟩ := List.mem_map.mp hmem
      rw [hstored e he]
      obtain ⟨i, chunk, hchunk, rfl⟩ := mem_objectEntries.mp he
      obtain ⟨object, hobject, hchunkStored⟩ := hwrote.holds.object hchunk
      show some (objectOf z compress chunk) = middle (chunkName run.pfx.chars (format06 i))
      rw [hname (List.getElem?_eq_some_iff.mp hchunk).1, hobject,
        eq_objectOf_of_storedChunk hchunkStored]
    · rw [hother oid hmem]
      refine (hwrote.holds.other oid fun i hi heq => hmem ?_).symm
      rw [heq, ← hname hi]
      exact List.mem_map_of_mem (f := Prod.fst)
        (mem_objectEntries.mpr ⟨i, _, List.getElem?_eq_getElem hi, rfl⟩)
  · refine hother _ fun hmem => ?_
    obtain ⟨e, he, heq⟩ := List.mem_map.mp hmem
    obtain ⟨i, chunk, hchunk, rfl⟩ := mem_objectEntries.mp he
    have hobject := hname (List.getElem?_eq_some_iff.mp hchunk).1
    exact objectName_ne_manifestName _ _ _ (hobject.symm.trans heq)

/-- A command over the same files. -/
def twoFiles (args : List Arg) : Invocation storedZlib where
  args := args
  walk _ := { visits := [(bLog, .file), ([100], .other), (aLog, .file)], complete := true }
  allocs := []
  file path := { canOpen := true, content := twoLogs.disk path, events := [] }
  content_le _ := by
    have hvisits : logPaths [(bLog, .file), ([100], .other), (aLog, .file)] = [bLog, aLog] := rfl
    rw [hvisits]
    show (List.replicate OBJECT_BYTES (7 : UInt8) ++ ([1] ++ [])).length ≤ CONTENT_LIMIT
    rw [List.length_append, List.length_replicate]
    decide
  env := goodBenchEnv
  outcomes := []
  memory := .zeroed (objectCapacity storedZlib)

/-- `write p d p` and the script write the two files to an empty pool. -/
theorem script_pool_eq_write_twoLogs : ∃ args pools' pool' files',
    parseCommand args = some (.write .compressed [112] [100] prefixP) ∧
    MainReturns storedInflater (twoFiles args) (fun _ => emptyPool) true pools' ∧
    script gawk storedZlib (fun x _ => storedStream x) (fun _ => goodRound) [114] filePrefixP
        twoLogs 1 emptyPool emptyPool = some (pool', files') ∧
      (∀ oid, oid ≠ manifestName prefixP.chars → pool' oid = pools' [112] oid) ∧
      pool' (manifestName prefixP.chars) = none := by
  let args : List Arg :=
    [⟨WRITE, by decide⟩, ⟨[112], by decide⟩, ⟨[100], by decide⟩, ⟨[0x70], by decide⟩]
  have hcommand : parseCommand args = some (.write .compressed [112] [100] prefixP) := by rfl
  have hlist : (buildFileList ((twoFiles args).walk [100]) (twoFiles args).allocs).1 = true := by
    rw [(buildFileList_inv _ _).1]
    exact ⟨rfl, List.cons_ne_nil _ _, List.not_mem_nil⟩
  obtain ⟨pools', hmain, -⟩ := mainReturns_of_readable (w := twoFiles args)
    storedZlib_roundTrip hcommand hlist rfl rfl (fun _ => ⟨rfl, List.not_mem_nil⟩) List.not_mem_nil (fun _ => emptyPool)
  obtain ⟨hmany, hne, hdot⟩ := twoLogs_ends
  obtain ⟨files', hscript, -⟩ := @script_ends gawk storedZlib (fun x _ => storedStream x)
    storedInflater [114] filePrefixP twoLogs emptyPool storedZlib_sameStream
    storedZlib_crc32Append gawk_divides (fun _ => goodRound) (fun _ => goodRound_good) 1
    Nat.zero_lt_one (fun k _ hle => twoLogs_fits (by omega)) emptyPool hmany hne hdot
  have hagree := script_pool_eq_write storedZlib_sameStream hcommand hmain (List.Perm.refl _)
    (fun _ _ => rfl) (fun _ _ _ _ => rfl) rfl Nat.zero_lt_one hscript
  exact ⟨args, pools', _, files', hcommand, hmain, hscript, hagree.1, hagree.2⟩

end DpuTest.ReadBench.RadosCli
