import DpuTest.Lib.KeyedStore
import DpuTest.ReadBench.FileList
import DpuTest.ReadBench.OutputNames
import DpuTest.ReadBench.PackZlibFrames
import DpuTest.ReadBench.History

/-!
# The benchmark over the command line

`run_rados_cli_doca.sh` does with programs what `ceph_doca_read_bench` does in one
process.  `sort` orders the log files, `split` cuts them into chunks,
`pack_zlib_frames.py` makes objects of these, and `rados put` stores what the shell
finds of them.  A round gets every object into a directory of its own and decompresses
it there with `doca_local_decompress`.

This is the script in a new `$RUN_DIR`, with the objects and the paths that it makes.
-/

namespace DpuTest.ReadBench.RadosCli

open Lib

/-- `-` -/
def DASH : UInt8 := 45

/-- A name and what is stored under it. -/
abbrev Entry := List UInt8 × List UInt8

/-! ## The script -/

/-- What the script finds of its dataset: the paths that `find` prints, what the files
hold, and the order of `sort -z`, which is that of the locale. -/
structure LogTree where
  found : List Path
  disk : Path → List UInt8
  collate : Path → Path → Bool

/-- `LOG_FILES` -/
def LogTree.logFiles (tree : LogTree) : List Path := tree.found.mergeSort tree.collate

/-- What `split` gets from the calls of `cat`. -/
def LogTree.content (tree : LogTree) : List UInt8 := (tree.logFiles.map tree.disk).flatten

/-- A `$PREFIX` that stays the start of a name: it has no directory in it, and `rados`
does not take it for an option. -/
structure FilePrefix where
  chars : List UInt8
  slash_notMem : SLASH ∉ chars
  not_option : chars.head? ≠ some DASH

/-- `split -b 4M -d -a 6`: the suffixes and contents of the chunks.  It fails when the
suffixes of six digits do not suffice. -/
def split (content : List UInt8) : Option (List Entry) :=
  if (rawObjects content).length > 10 ^ 6 then none
  else some ((rawObjects content).zipIdx.map fun chunk => (format06 chunk.2, chunk.1))

/-- The object name of a chunk: `$PREFIX.$index`. -/
def chunkName (pfx index : List UInt8) : List UInt8 := pfx ++ DOT :: index

/-- `pack_zlib_frames.py` for every chunk. -/
def packChunks (z : Zlib) (compress : List UInt8 → Int → List UInt8) (pfx : List UInt8) :
    List Entry → Option (List Entry)
  | [] => some []
  | (index, chunk) :: chunks => do
    let object ← PackZlibFrames.packZlibFrames z compress chunk
    let objects ← packChunks z compress pfx chunks
    return (chunkName pfx index, object) :: objects

/-- `"$RUN_DIR"/compressed/*.zobj`: the shell does not match a name that starts with a
dot.  The names differ in their numbers only, so it sorts them as they are. -/
def glob (objects : List Entry) : List Entry :=
  objects.filter fun object => object.1.head? ≠ some DOT

/-- `rados put` for every object. -/
def put (pool : Pool) (objects : List Entry) : Pool := putAll pool objects

/-- `$GET_DIR/$name.zobj` -/
def localFile (getDir name : List UInt8) : List UInt8 := getDir ++ SLASH :: (name ++ ZOBJ_SUFFIX)

/-- `rados get` for every object; it fails when there is none of the name. -/
def get (pool : Pool) (getDir : List UInt8) : List Entry → Pool → Option Pool
  | [], files => some files
  | (name, _) :: objects, files =>
    match pool name with
    | none => none
    | some object =>
      get pool getDir objects (Function.update files (localFile getDir name) (some object))

/-- `get-round-` -/
def GET_ROUND : List UInt8 := [103, 101, 116, 45, 114, 111, 117, 110, 100, 45]

/-- `decompressed-round-` -/
def DECOMPRESSED_ROUND : List UInt8 :=
  [100, 101, 99, 111, 109, 112, 114, 101, 115, 115, 101, 100, 45, 114, 111, 117, 110, 100, 45]

/-- `$RUN_DIR/get-round-$round` -/
def getDir (runDir : List UInt8) (round : Nat) : List UInt8 :=
  runDir ++ SLASH :: (GET_ROUND ++ decimal round)

/-- `$RUN_DIR/decompressed-round-$round` -/
def outputDir (runDir : List UInt8) (round : Nat) : List UInt8 :=
  runDir ++ SLASH :: (DECOMPRESSED_ROUND ++ decimal round)

/-- How the decompressor of a round starts, how its calls end, and the time that the
script measures for the round. -/
structure RoundEnv where
  initOk : Bool
  envs : Nat → ObjectEnv
  elapsedNs : Int

/-- `TOTAL_NS` after so many rounds. -/
def totalNs (env : Nat → RoundEnv) (rounds : Nat) : Int :=
  ((List.range' 1 rounds).map fun round => (env round).elapsedNs).sum

section

-- `awk` tells whether a program that divides by so many nanoseconds succeeds: some
-- refuse to divide by 0, and some do not.
variable (awk : Int → Bool) (z : Zlib) (env : Nat → RoundEnv) (runDir : List UInt8)
  (pool : Pool) (objects : List Entry)

/-- `set -e` leaves the script when the decompressor fails. -/
def unlessFailed {srcCapacity : Nat} : MainState srcCapacity × MainStatus → Option Pool
  | (s, .success) => some s.files
  | _ => none

/-- The loop body of the rounds.  `((TOTAL_NS += ELAPSED_NS))` fails when the sum is 0. -/
def roundBody (round : Nat) (files : Pool) : Option Pool :=
  match get pool (getDir runDir round) objects files with
  | none => none
  | some files =>
    match unlessFailed (localMain z (env round).envs (env round).initOk
      (z.compressBound FRAME_BYTES) (outputDir runDir round)
      (objects.map fun object => localFile (getDir runDir round) object.1) files) with
    | none => none
    | some files =>
      if totalNs env round ≠ 0 ∧ awk (env round).elapsedNs then some files else none

/-- `count` rounds from `round` on. -/
def runRounds (round : Nat) : Nat → Pool → Option Pool
  | 0, files => some files
  | count + 1, files =>
    match roundBody awk z env runDir pool objects round files with
    | none => none
    | some files => runRounds (round + 1) count files

end

/-- The script: the pool and the files when it comes to its end. -/
def script (awk : Int → Bool) (z : Zlib) (compress : List UInt8 → Int → List UInt8)
    (env : Nat → RoundEnv) (runDir : List UInt8) (pfx : FilePrefix) (tree : LogTree)
    (rounds : Nat) (pool files : Pool) : Option (Pool × Pool) := do
  if tree.logFiles = [] then none
  else
    let chunks ← split tree.content
    if chunks = [] then none
    else
      let objects := glob (← packChunks z compress pfx.chars chunks)
      let pool := put pool objects
      let files ← runRounds awk z env runDir pool objects 1 rounds files
      if awk (totalNs env rounds) then return (pool, files) else none

/-! ## The objects -/

/-- What both `zlib.compress(frame, level=6)` and `compress2` make of a frame, which
zlib and the device decode. -/
def SameStream (z : Zlib) (compress : List UInt8 → Int → List UInt8) (d : Inflater)
    (x stream : List UInt8) : Prop :=
  stream = compress x 6 ∧ Decodes z d x stream

/-- The frames of a chunk. -/
def framesOf (compress : List UInt8 → Int → List UInt8) (chunk : List UInt8) : List Frame :=
  (rawFrames chunk).map fun x => { raw := x, stream := compress x 6 }

/-- The object of a chunk. -/
def objectOf (z : Zlib) (compress : List UInt8 → Int → List UInt8) (chunk : List UInt8) :
    List UInt8 :=
  packObject z.checksum (framesOf compress chunk)

theorem map_raw_framesOf (compress : List UInt8 → Int → List UInt8) (chunk : List UInt8) :
    (framesOf compress chunk).map Frame.raw = rawFrames chunk := by
  rw [framesOf, List.map_map]
  exact List.map_id _

section

variable {z : Zlib} {compress : List UInt8 → Int → List UInt8} {d : Inflater}
  {chunk : List UInt8}

theorem encoded_framesOf (hz : z.Encodes (SameStream z compress d)) :
    Encoded z (SameStream z compress d) (framesOf compress chunk) := by
  intro f hf
  obtain ⟨x, hx, rfl⟩ := List.mem_map.mp hf
  have hle : x.length ≤ FRAME_BYTES := length_le_of_mem_fixed _ hx
  obtain ⟨stream, -, hbound, hgood⟩ := hz.compress2_ok x _ hle (Nat.le_refl _)
  rw [hgood.1] at hbound hgood
  exact ⟨hbound, hgood⟩

/-- The packer makes the object of the chunk. -/
theorem packZlibFrames_objectOf (hz : z.Encodes (SameStream z compress d))
    (hmax : chunk.length ≤ OBJECT_BYTES) :
    PackZlibFrames.packZlibFrames z compress chunk = some (objectOf z compress chunk) :=
  PackZlibFrames.packZlibFrames_eq (hz.imp fun _ _ _ h => h.1) hmax
    (map_raw_framesOf compress chunk) (fun f hf =>
      ⟨(encoded_framesOf hz f hf).1, (encoded_framesOf hz f hf).2.1⟩)

/-- `write_chunk` has no other choice. -/
theorem eq_objectOf_of_storedChunk {object : List UInt8}
    (h : StoredChunk z (SameStream z compress d) chunk object) :
    object = objectOf z compress chunk := by
  obtain ⟨fs, hfs, henc, rfl⟩ := h
  have hframes : fs = framesOf compress chunk := by
    rw [framesOf, ← hfs, List.map_map]
    conv_lhs => rw [← List.map_id fs]
    apply List.map_congr_left
    intro f hf
    have hstream := (henc f hf).2.1
    cases f
    simp only [id, Function.comp, Frame.mk.injEq, true_and]
    exact hstream
  rw [hframes, objectOf]

/-- The decompressor accepts the object of a chunk. -/
theorem wellFormed_framesOf (hz : z.Encodes (SameStream z compress d)) (hpos : 1 ≤ chunk.length)
    (hmax : chunk.length ≤ OBJECT_BYTES) :
    WellFormed (docaDecoder d (z.compressBound FRAME_BYTES)) (framesOf compress chunk) :=
  wellFormed_of_encoded (hz.imp fun _ _ _ h => h.2) hpos hmax (map_raw_framesOf compress chunk)
    (fun f hf => ⟨(encoded_framesOf hz f hf).1, (encoded_framesOf hz f hf).2.2⟩) .doca

/-- The chunks of a content with their suffixes. -/
def chunkEntries (content : List UInt8) : List Entry :=
  (rawObjects content).zipIdx.map fun chunk => (format06 chunk.2, chunk.1)

/-- The objects of a content with their names. -/
def objectEntries (z : Zlib) (compress : List UInt8 → Int → List UInt8)
    (pfx content : List UInt8) : List Entry :=
  (chunkEntries content).map fun chunk => (chunkName pfx chunk.1, objectOf z compress chunk.2)

theorem packChunks_eq (hz : z.Encodes (SameStream z compress d)) (pfx : List UInt8)
    {chunks : List Entry} (hmax : ∀ chunk ∈ chunks, chunk.2.length ≤ OBJECT_BYTES) :
    packChunks z compress pfx chunks =
      some (chunks.map fun chunk => (chunkName pfx chunk.1, objectOf z compress chunk.2)) := by
  induction chunks with
  | nil => rfl
  | cons chunk chunks ih =>
    obtain ⟨index, chunk⟩ := chunk
    have hone := packZlibFrames_objectOf hz (hmax _ List.mem_cons_self)
    rw [packChunks, hone, ih (fun c hc => hmax c (List.mem_cons_of_mem _ hc))]
    rfl

theorem mem_chunkEntries {content : List UInt8} {entry : Entry}
    (h : entry ∈ chunkEntries content) :
    1 ≤ entry.2.length ∧ entry.2.length ≤ OBJECT_BYTES := by
  obtain ⟨⟨chunk, i⟩, hchunk, rfl⟩ := List.mem_map.mp h
  have hmem := List.fst_mem_of_mem_zipIdx hchunk
  exact ⟨List.length_pos_iff.mpr
      ((fixedRule OBJECT_BYTES OBJECT_BYTES_pos).ne_nil_of_mem_chunks hmem),
    length_le_of_mem_fixed _ hmem⟩

end

/-- The object of a chunk stands under the index of the chunk. -/
theorem mem_objectEntries {z : Zlib} {compress : List UInt8 → Int → List UInt8}
    {pfx content : List UInt8} {e : Entry} :
    e ∈ objectEntries z compress pfx content ↔ ∃ i chunk, (rawObjects content)[i]? = some chunk ∧
      e = (chunkName pfx (format06 i), objectOf z compress chunk) := by
  rw [objectEntries, chunkEntries, List.map_map]
  constructor
  · intro h
    obtain ⟨⟨chunk, i⟩, hmem, rfl⟩ := List.mem_map.mp h
    exact ⟨i, chunk, List.mem_zipIdx_iff_getElem?.mp hmem, rfl⟩
  · rintro ⟨i, chunk, hchunk, rfl⟩
    exact List.mem_map.mpr ⟨(chunk, i), List.mem_zipIdx_iff_getElem?.mpr hchunk, rfl⟩

/-- A name starts with a dot when its prefix does, or when there is no prefix. -/
theorem head?_chunkName (pfx index : List UInt8) :
    (chunkName pfx index).head? = some (pfx.headD DOT) := by
  cases pfx <;> rfl

/-- The shell finds all the objects, or none. -/
theorem glob_objectEntries (z : Zlib) (compress : List UInt8 → Int → List UInt8)
    (pfx content : List UInt8) :
    glob (objectEntries z compress pfx content) =
      if pfx.headD DOT = DOT then [] else objectEntries z compress pfx content := by
  have hhead : ∀ e ∈ objectEntries z compress pfx content,
      e.1.head? = some (pfx.headD DOT) := by
    intro e he
    obtain ⟨i, chunk, -, rfl⟩ := mem_objectEntries.mp he
    exact head?_chunkName pfx (format06 i)
  split_ifs with hdot
  · apply List.filter_eq_nil_iff.mpr
    intro e he
    simp only [hhead e he, hdot, ne_eq, not_true_eq_false, decide_false, Bool.false_eq_true,
      not_false_eq_true]
  · apply List.filter_eq_self.mpr
    intro e he
    simp only [hhead e he, Option.some.injEq, ne_eq, hdot, not_false_eq_true, decide_true]

/-! ## Names and paths -/

section

variable {dir dir' name name' pfx content runDir : List UInt8}

theorem chunkName_inj {m n : Nat} (h : chunkName pfx (format06 m) = chunkName pfx (format06 n)) :
    m = n :=
  format06_inj (List.cons_inj_right DOT |>.mp (List.append_cancel_left h))

theorem nodup_chunkNames (pfx content : List UInt8) :
    ((chunkEntries content).map fun e => chunkName pfx e.1).Nodup := by
  have hnames : ((chunkEntries content).map fun e => chunkName pfx e.1) =
      (List.range' 0 (rawObjects content).length).map fun i => chunkName pfx (format06 i) := by
    rw [← List.zipIdx_map_snd 0 (rawObjects content), chunkEntries, List.map_map, List.map_map]
    rfl
  rw [hnames]
  exact nodup_numberedKeys _ (fun _ _ h => chunkName_inj h) 0 _

theorem SLASH_ne_digit {d : Nat} (hd : d < 10) : SLASH ≠ UInt8.ofNat (48 + d) := by
  revert d
  decide

theorem SLASH_notMem_chunkName (hpfx : SLASH ∉ pfx) (i : Nat) :
    SLASH ∉ chunkName pfx (format06 i) := by
  intro h
  rw [chunkName, List.mem_append, List.mem_cons] at h
  rcases h with h | h | h
  · exact hpfx h
  · exact absurd h (by decide)
  · obtain ⟨d, hd, heq⟩ := format06_mem h
    exact SLASH_ne_digit hd heq

/-- A path is its directory and its name. -/
theorem path_inj (hname : SLASH ∉ name) (hname' : SLASH ∉ name')
    (h : dir ++ SLASH :: name = dir' ++ SLASH :: name') : dir = dir' ∧ name = name' :=
  append_cons_inj_right hname hname' h

theorem SLASH_notMem_zobj (hname : SLASH ∉ name) : SLASH ∉ name ++ ZOBJ_SUFFIX := by
  intro h
  rcases List.mem_append.mp h with h | h
  · exact hname h
  · exact absurd h (by decide)

theorem baseName_localFile (hname : SLASH ∉ name) :
    baseName (localFile dir name) = name ++ ZOBJ_SUFFIX :=
  baseName_append (SLASH_notMem_zobj hname)

theorem decimal_inj {m n : Nat} (h : decimal m = decimal n) : m = n :=
  format06_inj (by rw [format06, format06, h])

theorem getDir_ne_outputDir (k l : Nat) : getDir runDir k ≠ outputDir runDir l := by
  intro h
  have hname := List.append_cancel_left h
  cases hname

theorem outputDir_inj {k l : Nat} (h : outputDir runDir k = outputDir runDir l) : k = l :=
  decimal_inj (List.append_cancel_left (List.cons.inj (List.append_cancel_left h)).2)

/-- The name of the output of an object. -/
theorem outputName_localFile (hname : SLASH ∉ name) :
    outputName (localFile dir name) =
      name ++ if ZOBJ_SUFFIX <:+: name then ZOBJ_SUFFIX else RAW_SUFFIX := by
  have hbase : baseName (localFile dir name) = name ++ ZOBJ_SUFFIX := baseName_localFile hname
  have hstem : stem (localFile dir name) = name := by
    rw [stem, hbase, List.length_append, Nat.add_sub_cancel, List.take_left]
  rw [outputName, hstem, hbase]
  split_ifs <;> rfl

/-- An object name has the suffix inside when its prefix does. -/
theorem infix_chunkName_iff {i : Nat} :
    ZOBJ_SUFFIX <:+: chunkName pfx (format06 i) ↔ ZOBJ_SUFFIX <:+: pfx := by
  have hz : (122 : UInt8) ∉ format06 i := by
    intro h
    obtain ⟨d, hd, heq⟩ := format06_mem h
    revert d
    decide
  constructor
  · rintro ⟨s, t, h⟩
    rw [chunkName] at h
    rcases List.append_eq_append_iff.mp h with ⟨rest, hrest, -⟩ | ⟨more, hmore, hdigits⟩
    · exact ⟨s, rest, hrest.symm⟩
    · cases more with
      | nil => exact ⟨s, [], by rw [List.append_nil, hmore, List.append_nil]⟩
      | cons c more =>
        obtain ⟨rfl, hmoreDigits⟩ := List.cons.inj hdigits
        have hdot : DOT ∉ more := by
          intro hmem
          apply DOT_notMem_format06 i
          rw [hmoreDigits]
          exact List.mem_append_left t hmem
        obtain ⟨-, hrest⟩ := append_cons_inj_right (by decide) hdot hmore
        refine absurd ?_ hz
        rw [hmoreDigits, ← hrest]
        exact List.mem_cons_self
  · exact fun h => h.trans (List.infix_append_left)

end

end DpuTest.ReadBench.RadosCli
