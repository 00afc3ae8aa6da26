import DpuTest.ReadBench.LocalFiles
import Mathlib.Data.List.Forall2

/-!
# The names of the decompressed files

An input `D/stem.zobj` is meant to become `stem.raw` in the output directory.
The program looks for the first `.zobj` in the name and replaces it if it is the
end of the name.  So a stem that itself contains `.zobj` keeps its name
(`replaceSuffix_of_infix`), and any other becomes `stem.raw`
(`replaceSuffix_of_not_infix`).  `namedOutputs_iff` is what follows for a run of
`main` that reports success.
-/

namespace DpuTest.ReadBench

open Lib

/-! ## The suffix -/

theorem ZOBJ_SUFFIX_cons : ZOBJ_SUFFIX = [46, 122, 111, 98, 106] := rfl

/-- The first dot of the suffix is its only one, so an occurrence that starts in
`t` ends in `t`. -/
theorem prefix_of_prefix_append {t : List UInt8} (hne : t ≠ [])
    (h : ZOBJ_SUFFIX <+: t ++ ZOBJ_SUFFIX) : ZOBJ_SUFFIX <+: t := by
  rw [ZOBJ_SUFFIX_cons] at h ⊢
  match t with
  | [] => exact absurd rfl hne
  | [a] => simp at h
  | [a, b] => simp at h
  | [a, b, c] => simp at h
  | [a, b, c, d] => simp at h
  | a :: b :: c :: d :: e :: t =>
    simp only [List.cons_append, List.cons_prefix_cons, List.nil_prefix, and_true] at h ⊢
    exact h

theorem replaceSuffix_of_not_infix {t : List UInt8} (h : ¬ ZOBJ_SUFFIX <:+: t) :
    replaceSuffix (t ++ ZOBJ_SUFFIX) = t ++ RAW_SUFFIX := by
  induction t with
  | nil => rfl
  | cons c t ih =>
    have hpre : ¬ ZOBJ_SUFFIX <+: c :: (t ++ ZOBJ_SUFFIX) := by
      intro hpre
      exact h (prefix_of_prefix_append (List.cons_ne_nil c t) hpre).isInfix
    have hrest : ¬ ZOBJ_SUFFIX <:+: t := fun hin => h (List.infix_cons hin)
    rw [List.cons_append, replaceSuffix, if_neg, ih hrest]
    · rfl
    · rw [List.isPrefixOf_iff_prefix]
      exact hpre

theorem replaceSuffix_of_infix {t : List UInt8} (h : ZOBJ_SUFFIX <:+: t) :
    replaceSuffix (t ++ ZOBJ_SUFFIX) = t ++ ZOBJ_SUFFIX := by
  induction t with
  | nil => cases List.infix_nil.mp h
  | cons c t ih =>
    rw [List.cons_append, replaceSuffix]
    by_cases hpre : ZOBJ_SUFFIX <+: c :: (t ++ ZOBJ_SUFFIX)
    · rw [if_pos (List.isPrefixOf_iff_prefix.mpr hpre), if_neg]
      intro heq
      have hlen := congrArg List.length heq
      rw [List.length_cons, List.length_append] at hlen
      omega
    · rw [if_neg (fun hp => hpre (List.isPrefixOf_iff_prefix.mp hp))]
      rcases List.infix_cons_iff.mp h with hp | hin
      · exact absurd (hp.trans (List.prefix_append _ _)) hpre
      · rw [ih hin]

/-! ## Names and paths -/

/-- What stands before `.zobj` in the name of an input. -/
def stem (inputPath : List UInt8) : List UInt8 :=
  (baseName inputPath).take ((baseName inputPath).length - ZOBJ_SUFFIX.length)

/-- `stem.raw` in the output directory. -/
def rawPath (outputDir inputPath : List UInt8) : List UInt8 :=
  outputDir ++ SLASH :: (stem inputPath ++ RAW_SUFFIX)

section

variable {outputDir inputPath path : List UInt8}

theorem baseName_eq_stem (h : ZOBJ_SUFFIX <:+ baseName inputPath) :
    baseName inputPath = stem inputPath ++ ZOBJ_SUFFIX := by
  obtain ⟨t, ht⟩ := h
  rw [stem, ← ht, List.length_append, Nat.add_sub_cancel, List.take_left]

theorem SLASH_notMem_baseName (path : List UInt8) : SLASH ∉ baseName path := by
  intro h
  rw [baseName, List.mem_reverse] at h
  have hall := List.all_takeWhile (p := fun c : UInt8 => decide (c ≠ SLASH)) (l := path.reverse)
  have hne := List.all_eq_true.mp hall SLASH h
  exact absurd hne (by decide)

/-- The name of a file in a directory. -/
theorem baseName_append {name : List UInt8} (h : SLASH ∉ name) :
    baseName (outputDir ++ SLASH :: name) = name := by
  have hall : ∀ c ∈ name.reverse, decide (c ≠ SLASH) = true := by
    intro c hc
    rw [decide_eq_true_iff]
    rintro rfl
    exact h (List.mem_reverse.mp hc)
  rw [baseName, List.reverse_append, List.reverse_cons, List.append_assoc,
    List.takeWhile_append_of_pos hall, List.singleton_append, List.takeWhile_cons_of_neg (by simp),
    List.append_nil, List.reverse_reverse]

/-- The infixes of a name with its slash are those of the name. -/
theorem infix_slash_iff {t : List UInt8} : ZOBJ_SUFFIX <:+: SLASH :: t ↔ ZOBJ_SUFFIX <:+: t := by
  rw [List.infix_cons_iff, or_iff_right]
  rw [ZOBJ_SUFFIX_cons, List.cons_prefix_cons]
  intro h
  exact absurd h.1 (by decide)

/-- The name that the output file gets. -/
def outputName (inputPath : List UInt8) : List UInt8 :=
  if ZOBJ_SUFFIX <:+: stem inputPath then baseName inputPath else stem inputPath ++ RAW_SUFFIX

theorem outputPath_eq (hbase : ZOBJ_SUFFIX <:+ baseName inputPath)
    (h : outputPath inputPath outputDir = some path) :
    path = outputDir ++ SLASH :: outputName inputPath := by
  simp only [outputPath] at h
  split at h
  · cases h
  · cases h
    rw [outputName]
    by_cases hin : ZOBJ_SUFFIX <:+: stem inputPath
    · rw [if_pos hin, baseName_eq_stem hbase, ← List.cons_append,
        replaceSuffix_of_infix (infix_slash_iff.mpr hin)]
    · rw [if_neg hin, baseName_eq_stem hbase, ← List.cons_append,
        replaceSuffix_of_not_infix (fun h => hin (infix_slash_iff.mp h)), List.cons_append]

theorem raw_ne_zobj (s t : List UInt8) : s ++ RAW_SUFFIX ≠ t ++ ZOBJ_SUFFIX := by
  intro h
  have hlast := congrArg List.getLast? h
  rw [List.getLast?_append, List.getLast?_append] at hlast
  simp [RAW_SUFFIX, ZOBJ_SUFFIX] at hlast

theorem SLASH_notMem_outputName (hbase : ZOBJ_SUFFIX <:+ baseName inputPath) :
    SLASH ∉ outputName inputPath := by
  have hnot := SLASH_notMem_baseName inputPath
  rw [outputName]
  split
  · exact hnot
  · rw [baseName_eq_stem hbase] at hnot
    intro hmem
    rcases List.mem_append.mp hmem with hstem | hraw
    · exact hnot (List.mem_append_left _ hstem)
    · exact absurd hraw (by decide)

/-- An output file that keeps the suffix is named like its input. -/
theorem baseName_eq_of_outputName {other : List UInt8}
    (hother : ZOBJ_SUFFIX <:+ baseName other) (h : outputName inputPath = baseName other) :
    baseName inputPath = baseName other := by
  rw [outputName] at h
  split at h
  · exact h
  · rw [baseName_eq_stem hother] at h
    exact absurd h (raw_ne_zobj _ _)

/-- Inputs with different names have different output files. -/
theorem outputName_inj {other : List UInt8} (hbase : ZOBJ_SUFFIX <:+ baseName inputPath)
    (hother : ZOBJ_SUFFIX <:+ baseName other) (h : outputName inputPath = outputName other) :
    baseName inputPath = baseName other := by
  by_cases hin : ZOBJ_SUFFIX <:+: stem other
  · rw [outputName.eq_def other, if_pos hin] at h
    exact baseName_eq_of_outputName hother h
  · by_cases hin' : ZOBJ_SUFFIX <:+: stem inputPath
    · rw [outputName, if_pos hin'] at h
      exact (baseName_eq_of_outputName hbase h.symm).symm
    · rw [outputName, outputName, if_neg hin, if_neg hin'] at h
      rw [baseName_eq_stem hbase, baseName_eq_stem hother, List.append_cancel_right h]

end

/-! ## A run that succeeds -/

/-- An input, as the files stand, and the raw bytes that it decodes to. -/
def DecodedFile (z : Zlib) (d : Inflater) (srcCapacity : Nat) (files : Pool)
    (inputPath raw : List UInt8) : Prop :=
  ∃ fs, WellFormed (docaDecoder d srcCapacity) fs ∧
    readFile files inputPath = some (packObject z.checksum fs) ∧ raw = framesRaw fs

/-- Every input has its `stem.raw`, and `raw_total` is the sum of the lengths. -/
def NamedOutputs (z : Zlib) (d : Inflater) (srcCapacity : Nat) (files : Pool)
    (outputDir : List UInt8) (inputs : List (List UInt8)) (t : MainState srcCapacity) : Prop :=
  ∃ raws, List.Forall₂ (fun inputPath raw =>
      DecodedFile z d srcCapacity files inputPath raw ∧
        t.files (rawPath outputDir inputPath) = some raw) inputs raws ∧
    t.rawTotal.toNat = (raws.map List.length).sum

section

variable {z : Zlib} {d : Inflater} {srcCapacity : Nat} {files : Pool} {inputPath : List UInt8}

theorem DecodedFile.unique {raw raw' : List UInt8}
    (h : DecodedFile z d srcCapacity files inputPath raw)
    (h' : DecodedFile z d srcCapacity files inputPath raw') : raw = raw' := by
  obtain ⟨fs, hfs, hread, rfl⟩ := h
  obtain ⟨fs', hfs', hread', rfl⟩ := h'
  rw [hread] at hread'
  rw [packObject_unique hfs hfs' (Option.some.inj hread')]

theorem DecodedFile.length_le {raw : List UInt8}
    (h : DecodedFile z d srcCapacity files inputPath raw) : raw.length ≤ OBJECT_BYTES := by
  obtain ⟨fs, hfs, -, rfl⟩ := h
  exact hfs.raw_le

theorem DecodedFile.congr {files' : Pool} {raw : List UInt8}
    (heq : files' inputPath = files inputPath)
    (h : DecodedFile z d srcCapacity files' inputPath raw) :
    DecodedFile z d srcCapacity files inputPath raw := by
  obtain ⟨fs, hfs, hread, hraw⟩ := h
  refine ⟨fs, hfs, ?_, hraw⟩
  rw [readFile, ← heq]
  exact hread

/-- An accepted input, with one device for all tasks. -/
theorem AcceptsObject.ofFile {env : ObjectEnv} (hd : ∀ i, env.device i = d)
    {outputDir path : List UInt8} {rawTotal : UInt64} {r : ObjectRun srcCapacity}
    {fs : List Frame} (hr : AcceptsObject z env files inputPath outputDir rawTotal r path fs) :
    DecodedFile z d srcCapacity files inputPath r.written := by
  refine ⟨fs, ⟨hr.passes.ne_nil, hr.passes.length_le, hr.passes.raw_le, ?_⟩, ?_, hr.written_eq⟩
  · exact (hr.framesBy.framesAt hd).frameOk
  · rw [hr.read_eq, hr.passes.object_eq]

/-- The file that an input is written to. -/
def outputFile (outputDir inputPath : List UInt8) : List UInt8 :=
  outputDir ++ SLASH :: outputName inputPath

/-- The loop leaves the raw bytes of every input in its output file, and touches
no other file. -/
theorem mainLoop_success (hz : z.Crc32Append) {envs : Nat → ObjectEnv}
    (hunlink : ∀ i, (envs i).unlinkOk = true) (hd : ∀ i j, (envs i).device j = d)
    {outputDir : List UInt8} {inputs : List (List UInt8)}
    (hbase : ∀ i ∈ inputs, ZOBJ_SUFFIX <:+ baseName i)
    (hdistinct : inputs.Pairwise fun i j => baseName i ≠ baseName j)
    {index : Nat} {s t : MainState srcCapacity}
    (h : mainLoop z envs outputDir inputs index s = (t, .success)) :
    (∀ path, (∀ i ∈ inputs, outputFile outputDir i ≠ path) → t.files path = s.files path) ∧
    ∃ raws, List.Forall₂ (fun i raw => DecodedFile z d srcCapacity s.files i raw ∧
        t.files (outputFile outputDir i) = some raw) inputs raws ∧
      t.rawTotal = s.rawTotal + UInt64.ofNat (raws.map List.length).sum := by
  induction inputs generalizing index s with
  | nil =>
    cases h
    exact ⟨fun _ _ => rfl, [], .nil, (UInt64.add_zero _).symm⟩
  | cons input inputs ih =>
    rw [mainLoop] at h
    have hself := hbase input List.mem_cons_self
    have hothers : ∀ i ∈ inputs, ZOBJ_SUFFIX <:+ baseName i :=
      fun i hi => hbase i (List.mem_cons_of_mem _ hi)
    rw [List.pairwise_cons] at hdistinct
    rcases decompressObjectRun_cases hz (hunlink index) s.files s.decompressor input outputDir
      s.rawTotal rfl with hr | ⟨path, fs, hr⟩
    · obtain ⟨e, he⟩ := hr.result_eq
      rw [he] at h
      cases h
    · obtain ⟨decompressor, hresult⟩ := hr.result_eq
      rw [hresult] at h
      obtain ⟨hframe, raws, hraws, htotal⟩ := ih hothers hdistinct.2 h
      have hpath : outputFile outputDir input = path := (outputPath_eq hself hr.path_eq).symm
      have hraw := hr.ofFile (hd index)
      simp only [hr.files_eq] at hframe hraws
      generalize decompressObjectRun z (envs index) s.files s.decompressor input outputDir
        s.rawTotal = r at hraw hframe hraws htotal
      have hlater : ∀ i ∈ inputs, outputFile outputDir i ≠ path := by
        intro i hi heq
        have hname := List.cons.inj (List.append_cancel_left (heq.trans hpath.symm))
        exact hdistinct.1 i hi (outputName_inj hself (hothers i hi) hname.2.symm)
      -- an input that is still to come has another name than this output
      have hkept : ∀ i ∈ inputs, i ≠ path := by
        intro i hi heq
        have hname : baseName (outputFile outputDir input) = outputName input :=
          baseName_append (SLASH_notMem_outputName hself)
        rw [hpath, ← heq] at hname
        exact hdistinct.1 i hi (baseName_eq_of_outputName (hothers i hi) hname.symm)
      refine ⟨?_, r.written :: raws, .cons ⟨hraw, ?_⟩ ?_, ?_⟩
      · intro p hp
        rw [hframe p fun i hi => hp i (List.mem_cons_of_mem _ hi)]
        exact Function.update_of_ne
          (fun heq => hp input List.mem_cons_self (hpath.trans heq.symm)) _ _
      · rw [hpath, hframe path hlater]
        exact Function.update_self ..
      · refine ((List.forall₂_and_left _ _).mpr ⟨fun i hi => hi, hraws⟩).imp ?_
        rintro i raw ⟨hi, hfile, hcontent⟩
        exact ⟨hfile.congr (Function.update_of_ne (hkept i hi) _ _), hcontent⟩
      · rw [htotal, List.map_cons, List.sum_cons, UInt64.ofNat_add, UInt64.add_assoc]

/-- `stem.raw` is written unless the stem contains `.zobj`. -/
theorem outputFile_eq_rawPath {outputDir : List UInt8}
    (h : ¬ ZOBJ_SUFFIX <:+: stem inputPath) :
    outputFile outputDir inputPath = rawPath outputDir inputPath := by
  rw [outputFile, outputName, if_neg h, rawPath]

/-- The `stem.raw` of a stem that contains `.zobj` is the output of no input. -/
theorem outputFile_ne_rawPath {outputDir other : List UInt8}
    (hin : ZOBJ_SUFFIX <:+: stem inputPath) (hother : ZOBJ_SUFFIX <:+ baseName other) :
    outputFile outputDir other ≠ rawPath outputDir inputPath := by
  intro heq
  have hname := (List.cons.inj (List.append_cancel_left heq)).2
  rw [outputName] at hname
  split at hname
  · rw [baseName_eq_stem hother] at hname
    exact raw_ne_zobj _ _ hname.symm
  · rename_i hnot
    rw [List.append_cancel_right hname] at hnot
    exact hnot hin

theorem exists_of_mem_forall₂ {R : List UInt8 → List UInt8 → Prop}
    {inputs raws : List (List UInt8)} (h : List.Forall₂ R inputs raws) {i : List UInt8}
    (hi : i ∈ inputs) : ∃ raw, R i raw := by
  induction h with
  | nil => cases hi
  | cons hone _ ih =>
    rcases List.mem_cons.mp hi with rfl | hmem
    · exact ⟨_, hone⟩
    · exact ih hmem

theorem sum_length_le {R : List UInt8 → List UInt8 → Prop} {inputs raws : List (List UInt8)}
    (h : List.Forall₂ R inputs raws) (hR : ∀ i raw, R i raw → raw.length ≤ OBJECT_BYTES) :
    (raws.map List.length).sum ≤ inputs.length * OBJECT_BYTES := by
  induction h with
  | nil => exact Nat.zero_le _
  | @cons i raw inputs raws hi _ ih =>
    have hlen := hR i raw hi
    rw [List.map_cons, List.sum_cons, List.length_cons, Nat.add_mul, Nat.one_mul]
    omega

end

/-- In a run that reports success every input `D/stem.zobj` has its raw bytes in
`stem.raw` if and only if, for each of them, the stem does not contain `.zobj` or
the file was there before with just these bytes.  The number of arguments is an
`int`. -/
theorem namedOutputs_iff {z : Zlib} (hz : z.Crc32Append) {d : Inflater} {envs : Nat → ObjectEnv}
    (hunlink : ∀ i, (envs i).unlinkOk = true) (hd : ∀ i j, (envs i).device j = d)
    {initOk : Bool} {srcCapacity : Nat} {outputDir : List UInt8} {inputs : List (List UInt8)}
    {files : Pool} (hargc : inputs.length + 3 < 2 ^ 31)
    (hbase : ∀ i ∈ inputs, ZOBJ_SUFFIX <:+ baseName i)
    (hdistinct : inputs.Pairwise fun i j => baseName i ≠ baseName j)
    {t : MainState srcCapacity}
    (h : localMain z envs initOk srcCapacity outputDir inputs files = (t, .success)) :
    NamedOutputs z d srcCapacity files outputDir inputs t ↔
      ∀ i ∈ inputs, ¬ ZOBJ_SUFFIX <:+: stem i ∨ ∃ raw,
        DecodedFile z d srcCapacity files i raw ∧ files (rawPath outputDir i) = some raw := by
  have hloop : mainLoop z envs outputDir inputs 0
      { files, decompressor := .init srcCapacity, rawTotal := 0, opened := [], accepted := [] } =
        (t, .success) := by
    unfold localMain at h
    simp only at h
    split at h
    · cases h
    split at h
    · cases h
    exact h
  obtain ⟨hframe, raws, hraws, htotal⟩ := mainLoop_success hz hunlink hd hbase hdistinct hloop
  have hsum : t.rawTotal.toNat = (raws.map List.length).sum := by
    have hle := sum_length_le hraws fun i raw hi => hi.1.length_le
    have hobject : OBJECT_BYTES = 4194304 := rfl
    rw [hobject] at hle
    have hlt : (raws.map List.length).sum < UInt64.size := by
      show _ < 2 ^ 64
      omega
    rw [htotal]
    show (0 + UInt64.ofNat _).toNat = _
    rw [UInt64.zero_add, UInt64.toNat_ofNat_of_lt' hlt]
  have hkept : ∀ i, ZOBJ_SUFFIX <:+: stem i →
      t.files (rawPath outputDir i) = files (rawPath outputDir i) :=
    fun i hin => hframe _ fun j hj => outputFile_ne_rawPath hin (hbase j hj)
  constructor
  · rintro ⟨raws', hraws', -⟩ i hi
    by_cases hin : ZOBJ_SUFFIX <:+: stem i
    · right
      obtain ⟨raw, hfile, hcontent⟩ := exists_of_mem_forall₂ hraws' hi
      exact ⟨raw, hfile, (hkept i hin).symm.trans hcontent⟩
    · exact Or.inl hin
  · intro hgood
    refine ⟨raws, ((List.forall₂_and_left _ _).mpr ⟨fun i hi => hi, hraws⟩).imp ?_, hsum⟩
    rintro i raw ⟨hi, hfile, hcontent⟩
    refine ⟨hfile, ?_⟩
    by_cases hin : ZOBJ_SUFFIX <:+: stem i
    · rcases hgood i hi with hnot | ⟨raw', hfile', hbefore⟩
      · exact absurd hin hnot
      · rw [hkept i hin, hbefore, hfile.unique hfile']
    · rw [← outputFile_eq_rawPath hin]
      exact hcontent

/-- A run over one good object, with no call that fails. -/
theorem localMain_one {z : Zlib} (hz : z.Crc32Append) {d : Inflater} {srcCapacity : Nat}
    {fs : List Frame} (hfs : WellFormed (docaDecoder d srcCapacity) fs) {files : Pool}
    {inputPath outputDir path : List UInt8}
    (hfile : files inputPath = some (packObject z.checksum fs))
    (hpath : outputPath inputPath outputDir = some path) :
    ∃ t, localMain z (fun _ => .good d) true srcCapacity outputDir [inputPath] files =
        (t, .success) ∧ t.files = Function.update files path (some (framesRaw fs)) := by
  obtain ⟨decompressor, hrun⟩ := decompressObjectRun_packObject hz hfs hfile hpath
    (.init srcCapacity) 0
  have hne : [inputPath] ≠ [] := List.cons_ne_nil _ _
  simp only [localMain, if_neg hne, Bool.true_eq_false, if_false, mainLoop, hrun]
  exact ⟨_, rfl, rfl⟩

/-- The file system with the object of `a` under one name. -/
def onlyFile (path : List UInt8) : Pool :=
  fun p => if p = path then some (packObject storedZlib.checksum [frameOfA]) else none

/-- `a.zobj` becomes `a.raw`. -/
theorem namedOutputs_a : ∃ t, localMain storedZlib (fun _ => .good storedInflater) true
      (storedZlib.compressBound FRAME_BYTES) [111] [97 :: ZOBJ_SUFFIX]
      (onlyFile (97 :: ZOBJ_SUFFIX)) = (t, .success) ∧
    NamedOutputs storedZlib storedInflater (storedZlib.compressBound FRAME_BYTES)
      (onlyFile (97 :: ZOBJ_SUFFIX)) [111] [97 :: ZOBJ_SUFFIX] t := by
  have hpath : outputPath (97 :: ZOBJ_SUFFIX) [111] = some (111 :: SLASH :: 97 :: RAW_SUFFIX) := by
    decide
  have hfile : onlyFile (97 :: ZOBJ_SUFFIX) (97 :: ZOBJ_SUFFIX) =
      some (packObject storedZlib.checksum [frameOfA]) := if_pos rfl
  obtain ⟨t, hrun, -⟩ :=
    localMain_one storedZlib_crc32Append wellFormed_frameOfA hfile hpath
  refine ⟨t, hrun, (namedOutputs_iff storedZlib_crc32Append (fun _ => rfl) (fun _ _ => rfl)
    (by decide) (by decide) (List.pairwise_singleton _ _) hrun).mpr ?_⟩
  intro i hi
  rw [List.mem_singleton.mp hi]
  exact Or.inl (by decide)

/-- `a.zobj.zobj` keeps its name. -/
theorem not_namedOutputs : ∃ t, localMain storedZlib (fun _ => .good storedInflater) true
      (storedZlib.compressBound FRAME_BYTES) [111] [97 :: (ZOBJ_SUFFIX ++ ZOBJ_SUFFIX)]
      (onlyFile (97 :: (ZOBJ_SUFFIX ++ ZOBJ_SUFFIX))) = (t, .success) ∧
    ¬ NamedOutputs storedZlib storedInflater (storedZlib.compressBound FRAME_BYTES)
      (onlyFile (97 :: (ZOBJ_SUFFIX ++ ZOBJ_SUFFIX))) [111] [97 :: (ZOBJ_SUFFIX ++ ZOBJ_SUFFIX)]
      t := by
  have hpath : outputPath (97 :: (ZOBJ_SUFFIX ++ ZOBJ_SUFFIX)) [111] =
      some (111 :: SLASH :: 97 :: (ZOBJ_SUFFIX ++ ZOBJ_SUFFIX)) := by decide
  have hfile : onlyFile (97 :: (ZOBJ_SUFFIX ++ ZOBJ_SUFFIX)) (97 :: (ZOBJ_SUFFIX ++ ZOBJ_SUFFIX)) =
      some (packObject storedZlib.checksum [frameOfA]) := if_pos rfl
  obtain ⟨t, hrun, hfiles⟩ :=
    localMain_one storedZlib_crc32Append wellFormed_frameOfA hfile hpath
  refine ⟨t, hrun, ?_⟩
  rintro ⟨raws, hraws, -⟩
  obtain ⟨raw, -, hcontent⟩ := exists_of_mem_forall₂ hraws List.mem_cons_self
  have hnone : t.files (rawPath [111] (97 :: (ZOBJ_SUFFIX ++ ZOBJ_SUFFIX))) = none := by
    rw [hfiles, Function.update_of_ne (by decide)]
    exact if_neg (by decide)
  rw [hnone] at hcontent
  cases hcontent

end DpuTest.ReadBench
