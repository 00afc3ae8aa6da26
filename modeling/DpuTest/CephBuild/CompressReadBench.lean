import DpuTest.Lib.Buffer
import DpuTest.Lib.ObjectStore
import DpuTest.Lib.FileTree
import DpuTest.Lib.Chunking
import Mathlib.Algebra.Ring.Rat
import Mathlib.Data.Char
import Mathlib.Data.List.Lex
import Mathlib.Data.List.Pairwise
import Mathlib.Data.List.Sort

/-!
# Object ids of the pool benchmark

`compress_read_bench.py` cuts every data file below a directory into chunks,
writes each chunk as an object, and reads the objects back.  An object id is
the path of the file relative to the directory, with `/` and `.` both replaced
by `_`, and the number of the chunk.

The number can be told from the prefix (`chunkOid_inj`), so the ids of one file
are distinct.  The prefix does not determine the path: `a.b` and `a_b` share it.
Two non-empty files of one prefix overwrite each other's chunks.
`readsBack_iff` says that there is no other way to lose data: besides that, the
benchmark only fails where the clock stands still while a file is written, since
it divides by the time that this took.

Paths and ids are strings of characters, and times are rational numbers.  The pool
is a store whose writes do not fail.  The rates and averages that are only printed
are left out.
-/

namespace DpuTest.CephBuild

open Lib

/-- A string of the script. -/
abbrev Text := List Char

/-- The bytes of the files, by path. -/
abbrev Disk := Text → List UInt8

/-- `time.time()`: what it answers, call by call. -/
abbrev Clock := Nat → Rat

def CHUNK_SIZE : Nat := 4 * 1024 * 1024

theorem CHUNK_SIZE_pos : 0 < CHUNK_SIZE := by decide

/-! ## Collecting the files -/

/-- `os.path.join(path, name)`. -/
def pathJoin (path name : Text) : Text :=
  if name.head? = some '/' then name
  else if path = [] ∨ path.getLast? = some '/' then path ++ name
  else path ++ '/' :: name

/-- `os.path.splitext(name)[1]` of a name without a slash.  Dots at the start of
the name do not start an extension. -/
def splitext (name : Text) : Text :=
  let ext := '.' :: (name.reverse.takeWhile (· ≠ '.')).reverse
  if '.' ∈ name ∧ (name.take (name.length - ext.length)).any (· ≠ '.') then ext else []

/-- `str.lower`, as far as it makes ASCII letters: of `A` to `Z`, and of the
Kelvin sign. -/
def lowerChar (c : Char) : Char := if c = Char.ofNat 0x212A then 'k' else c.toLower

/-- `skip_ext`. -/
def skipExt : List Text :=
  [['.', 's', 'h'], ['.', 'p', 'y'], ['.', 't', 'x', 't'], ['.', 'b', 'a', 'c', 'k', 'u', 'p']]

def isDataName (name : FileName) : Bool := decide ((splitext name.chars).map lowerChar ∉ skipExt)

/-- `s.replace(a, b)` for characters. -/
def replaceChar (a b : Char) (s : Text) : Text := s.map (fun c => if c = a then b else c)

/-- A directory on the disk. -/
structure DataDir where
  path : Text
  entries : Entries
  distinct : entries.Distinct

/-- The path that a walk from `dataDir` gives to what it finds under `rel`. -/
def walkedPath (dataDir : Text) (rel : List FileName) : Text :=
  rel.foldl (fun path name => pathJoin path name.chars) dataDir

/-- `os.path.relpath(ap, data_dir)` of such a path. -/
def relpath (rel : List FileName) : Text := List.intercalate ['/'] (rel.map FileName.chars)

/-- `rel.replace("/", "_").replace(".", "_")`. -/
def oidPrefix (rel : List FileName) : Text :=
  replaceChar '.' '_' (replaceChar '/' '_' (relpath rel))

/-- An entry of `files`. -/
structure DataFile where
  fpath : Text
  oidPrefix : Text
  deriving DecidableEq

/-- The order of the tuples. -/
def DataFile.le (f g : DataFile) : Prop :=
  f.fpath < g.fpath ∨ f.fpath = g.fpath ∧ f.oidPrefix ≤ g.oidPrefix

instance : DecidableRel DataFile.le :=
  fun f g => inferInstanceAs
    (Decidable (f.fpath < g.fpath ∨ f.fpath = g.fpath ∧ f.oidPrefix ≤ g.oidPrefix))

/-- `sorted(names)`. -/
def sortedNames (names : List FileName) : List FileName :=
  names.insertionSort (fun a b => a.chars ≤ b.chars)

/-- `collect_files(data_dir)`. -/
def collectFiles (d : DataDir) : List DataFile :=
  (d.entries.walk.flatMap (fun dir =>
    ((sortedNames dir.2).filter isDataName).map (fun name =>
      { fpath := pathJoin (walkedPath d.path dir.1) name.chars
        oidPrefix := oidPrefix (dir.1 ++ [name]) }))).insertionSort DataFile.le

/-! ## Writing -/

/-- `{oid_prefix}__chunk{i:05d}`. -/
def chunkOid (oidPrefix : Text) (i : Nat) : Text :=
  oidPrefix ++ ['_', '_', 'c', 'h', 'u', 'n', 'k'] ++ paddedDecimal 5 i

section Script

variable {ε : Type} (rados : ReplacingStore Text UInt8 ε) (clock : Clock) (disk : Disk)

/-- What `write_files` has done so far: the pool, the objects that it has written one
after the other, how often it has read the clock, and its sums. -/
structure WriteState where
  pool : rados.State
  written : List (Text × List UInt8) := []
  readings : Nat
  totalBytes : Nat := 0
  totalObjs : Nat := 0

/-- `ioctx.write_full(oid, buf)`. -/
def WriteState.writeFull {rados : ReplacingStore Text UInt8 ε} (st : WriteState rados) (oid : Text)
    (buf : List UInt8) : WriteState rados :=
  { st with
    pool := rados.writeFull st.pool oid buf
    written := st.written ++ [(oid, buf)] }

/-- The `while` loop of `write_files` over one file, of which `rest` has not been
read: what has been done, and the number of chunks. -/
def writeChunks (oidPrefix : Text) (st : WriteState rados) (chunkI : Nat) (rest : List UInt8) :
    WriteState rados × Nat :=
  let buf := rest.take CHUNK_SIZE
  if h : buf = [] then (st, chunkI)
  else
    writeChunks oidPrefix (st.writeFull (chunkOid oidPrefix chunkI) buf) (chunkI + 1)
      (rest.drop CHUNK_SIZE)
termination_by rest.length
decreasing_by
  have hne : rest ≠ [] := by
    rintro rfl
    exact h rfl
  have hlen := List.length_pos_iff.mpr hne
  have hpos := CHUNK_SIZE_pos
  rw [List.length_drop]
  omega

/-- One file of `write_files`.  The rate that is printed is divided by `file_dt`; a zero is an
exception. -/
def writeFile (st : WriteState rados) (f : DataFile) :
    Except (WriteState rados) (WriteState rados) :=
  let written := writeChunks rados f.oidPrefix { st with readings := st.readings + 1 } 0
    (disk f.fpath)
  let fileDt := clock written.1.readings - clock st.readings
  let st := { written.1 with
    readings := written.1.readings + 1
    totalBytes := written.1.totalBytes + (disk f.fpath).length
    totalObjs := written.1.totalObjs + written.2 }
  if fileDt = 0 then .error st else .ok st

/-- `write_files(ioctx, files)`: what has been done, and `total_dt`. -/
def writeFiles (pool : rados.State) (readings : Nat) (files : List DataFile) :
    Except (WriteState rados) (WriteState rados × Rat) :=
  (files.foldlM (writeFile rados clock disk) { pool := pool, readings := readings + 1 }).map
    fun st => ({ st with readings := st.readings + 1 }, clock st.readings - clock readings)

/-! ## Reading -/

def nChunks (f : DataFile) : Nat :=
  ((disk f.fpath).length + CHUNK_SIZE - 1) / CHUNK_SIZE

/-- `oid_list` of `read_all`. -/
def oidList (files : List DataFile) : List (Text × Text × Nat) :=
  files.flatMap (fun f => (List.range (nChunks disk f)).map (fun c =>
    (chunkOid f.oidPrefix c, f.fpath, c)))

/-- `rd_bytes` of one round. -/
def readRound (pool : rados.State) (oids : List (Text × Text × Nat)) : Except ε Nat :=
  oids.foldlM (fun rdBytes entry =>
    (rados.read pool entry.1 CHUNK_SIZE).map (fun data => rdBytes + data.length)) 0

/-- An entry of `round_details`. -/
structure RoundDetail where
  r : Nat
  rdBytes : Nat
  dt : Rat
  rate : Rat
  deriving DecidableEq

/-- What `read_all` has read so far. -/
structure ReadTotals where
  readings : Nat
  totalBytes : Nat := 0
  roundDetails : List RoundDetail := []

/-- One round of `read_all`. -/
def readOneRound (pool : rados.State) (files : List DataFile) (totals : ReadTotals) (r : Nat) :
    Except ε ReadTotals :=
  (readRound rados pool (oidList disk files)).map fun (rdBytes : Nat) =>
    let dt := clock (totals.readings + 1) - clock totals.readings
    let rate := if 0 < dt then (rdBytes : Rat) / 1024 / 1024 / dt else 0
    { readings := totals.readings + 2
      totalBytes := rdBytes
      roundDetails := totals.roundDetails ++
        [{ r := r, rdBytes := rdBytes, dt := dt, rate := rate }] }

/-- `read_all(ioctx, files, rounds)`. -/
def readAll (pool : rados.State) (readings : Nat) (files : List DataFile) (rounds : Int) :
    Except ε ReadTotals :=
  (List.range' 1 rounds.toNat).foldlM (readOneRound rados clock disk pool files)
    { readings := readings }

end Script

/-! ## The files and their paths -/

section Paths

variable {path : Text} {name : FileName} {rel rel' : List FileName}

/-- A directory with the separator that `os.path.join` puts behind it. -/
def joinBase (path : Text) : Text :=
  if path = [] ∨ path.getLast? = some '/' then path else path ++ ['/']

theorem pathJoin_name (path : Text) (name : FileName) :
    pathJoin path name.chars = joinBase path ++ name.chars := by
  have hhead : name.chars.head? ≠ some '/' := fun h =>
    name.slash_notMem (List.mem_of_mem_head? h)
  rw [pathJoin, joinBase, if_neg hhead]
  by_cases hsep : path = [] ∨ path.getLast? = some '/'
  · rw [if_pos hsep, if_pos hsep]
  · rw [if_neg hsep, if_neg hsep, List.append_assoc, List.singleton_append]

/-- The next name goes behind a separator. -/
theorem joinBase_pathJoin (path : Text) (name : FileName) :
    joinBase (pathJoin path name.chars) = joinBase path ++ name.chars ++ ['/'] := by
  rw [pathJoin_name, joinBase, if_neg]
  rintro (h | h)
  · exact name.ne_nil (List.append_eq_nil_iff.mp h).2
  · rw [List.getLast?_append_of_ne_nil _ name.ne_nil] at h
    exact name.slash_notMem (List.mem_of_getLast? h)

/-- A walk puts relative paths behind the directory. -/
theorem walkedPath_eq (path : Text) (hne : rel ≠ []) :
    walkedPath path rel = joinBase path ++ relpath rel := by
  induction rel generalizing path with
  | nil => exact absurd rfl hne
  | cons name rel ih =>
    cases rel with
    | nil =>
      rw [relpath, List.map_singleton, List.intercalate_singleton]
      exact pathJoin_name path name
    | cons next rel =>
      have hrest := ih (pathJoin path name.chars) (List.cons_ne_nil _ _)
      have hcons : relpath (name :: next :: rel) =
          name.chars ++ ['/'] ++ relpath (next :: rel) := by
        rw [relpath, relpath, List.map_cons, List.map_cons, List.intercalate_cons_cons]
      rw [joinBase_pathJoin] at hrest
      rw [hcons, walkedPath, List.foldl_cons]
      exact hrest.trans (by simp only [List.append_assoc])

/-- Names do not hold the separator. -/
theorem relpath_inj (hne : rel ≠ []) (hne' : rel' ≠ []) (h : relpath rel = relpath rel') :
    rel = rel' := by
  have hsplit {rel : List FileName} (hne : rel ≠ []) :
      (relpath rel).splitOn '/' = rel.map FileName.chars := by
    refine List.splitOn_intercalate '/' ?_ (by simpa using hne)
    intro chars hchars
    obtain ⟨name, -, rfl⟩ := List.mem_map.mp hchars
    exact name.slash_notMem
  refine FileName.chars_injective.list_map ?_
  rw [← hsplit hne, h, hsplit hne']

/-- Files have paths of their own. -/
theorem walkedPath_inj (hne : rel ≠ []) (hne' : rel' ≠ [])
    (h : walkedPath path rel = walkedPath path rel') : rel = rel' := by
  rw [walkedPath_eq path hne, walkedPath_eq path hne'] at h
  exact relpath_inj hne hne' (List.append_cancel_left h)

end Paths

section Files

variable {d : DataDir} {p q : List FileName}

/-- The paths of the data files, relative to the directory. -/
def dataPaths (d : DataDir) : List (List FileName) :=
  d.entries.walkPaths.filter (fun p => p.getLast?.any isDataName)

/-- What `collect_files` makes of a data file. -/
def dataFile (d : DataDir) (p : List FileName) : DataFile where
  fpath := walkedPath d.path p
  oidPrefix := oidPrefix p

theorem nodup_dataPaths (d : DataDir) : (dataPaths d).Nodup :=
  (Entries.nodup_walkPaths d.distinct).filter _

theorem perm_collectFiles (d : DataDir) :
    (collectFiles d).Perm ((dataPaths d).map (dataFile d)) := by
  refine (List.perm_insertionSort _ _).trans ?_
  rw [dataPaths, Entries.walkPaths, List.filter_flatMap, List.map_flatMap]
  refine List.Perm.flatMap_left _ fun dir _ => ?_
  have hpaths : ((Entries.pathsIn dir).filter (fun p => p.getLast?.any isDataName)).map
      (dataFile d) = (dir.2.filter isDataName).map (fun name => dataFile d (dir.1 ++ [name])) := by
    rw [Entries.pathsIn, List.filter_map, List.map_map]
    simp [Function.comp_def]
  have hfile (name : FileName) : dataFile d (dir.1 ++ [name]) =
      { fpath := pathJoin (walkedPath d.path dir.1) name.chars
        oidPrefix := oidPrefix (dir.1 ++ [name]) } := by
    rw [dataFile, walkedPath, List.foldl_append]
    rfl
  simp only [hpaths, hfile]
  exact ((List.perm_insertionSort _ _).filter _).map _

end Files

/-! ## Object ids -/

/-- An id determines the prefix and the number of the chunk: `k` is not a
digit. -/
theorem chunkOid_inj {a b : Text} {i j : Nat} (h : chunkOid a i = chunkOid b j) :
    a = b ∧ i = j := by
  have hk (n : Nat) : 'k' ∉ paddedDecimal 5 n := by
    intro hmem
    have hdigit := isDigit_of_mem_paddedDecimal hmem
    exact absurd hdigit (by decide)
  have hsplit (a : Text) (i : Nat) :
      chunkOid a i = (a ++ ['_', '_', 'c', 'h', 'u', 'n']) ++ 'k' :: paddedDecimal 5 i := by
    simp [chunkOid]
  rw [hsplit, hsplit] at h
  have hparts := append_cons_inj_right (hk i) (hk j) h
  exact ⟨List.append_cancel_right hparts.1, paddedDecimal_inj hparts.2⟩

/-- The characters that the script makes `_`, and `_`. -/
def flattened : List Char := ['/', '.', '_']

/-- Paths that differ only where both have one of these characters. -/
def Confusable (s t : Text) : Prop :=
  List.Forall₂ (fun a b => a = b ∨ a ∈ flattened ∧ b ∈ flattened) s t

instance (s t : Text) : Decidable (Confusable s t) :=
  inferInstanceAs (Decidable (List.Forall₂ _ s t))

/-- What becomes of a character. -/
theorem replaceChar_replaceChar (s : Text) :
    replaceChar '.' '_' (replaceChar '/' '_' s) =
      s.map fun c => if c ∈ flattened then '_' else c := by
  rw [replaceChar, replaceChar, List.map_map]
  refine List.map_congr_left fun c _ => ?_
  by_cases hslash : c = '/'
  · simp [hslash, flattened]
  · by_cases hdot : c = '.'
    · simp [hdot, flattened]
    · by_cases hunder : c = '_'
      · simp [hunder, flattened]
      · simp [hslash, hdot, hunder, flattened]

/-- The paths of one prefix. -/
theorem oidPrefix_eq_iff {p q : List FileName} :
    oidPrefix p = oidPrefix q ↔ Confusable (relpath p) (relpath q) := by
  have hchar (a b : Char) :
      ((if a ∈ flattened then '_' else a) = if b ∈ flattened then '_' else b) ↔
        a = b ∨ a ∈ flattened ∧ b ∈ flattened := by
    have hunder : '_' ∈ flattened := by decide
    by_cases ha : a ∈ flattened
    · by_cases hb : b ∈ flattened
      · simp [ha, hb]
      · have hne : a ≠ b := fun h => hb (h ▸ ha)
        have hne' : '_' ≠ b := fun h => hb (h ▸ hunder)
        simp [ha, hb, hne, hne']
    · by_cases hb : b ∈ flattened
      · have hne : a ≠ b := fun h => ha (h ▸ hb)
        have hne' : a ≠ '_' := fun h => ha (h ▸ hunder)
        simp [ha, hb, hne, hne']
      · simp [ha, hb]
  rw [oidPrefix, oidPrefix, replaceChar_replaceChar, replaceChar_replaceChar, Confusable,
    ← List.forall₂_eq_eq_eq, List.forall₂_map_left_iff, List.forall₂_map_right_iff]
  simp only [hchar]

/-- The chunks of a file. -/
def fileChunks (bytes : List UInt8) : List (List UInt8) :=
  (fixedRule CHUNK_SIZE CHUNK_SIZE_pos).chunks bytes

/-- The objects for the chunks of a file from number `i` on. -/
def numbered (oidPrefix : Text) (i : Nat) (chunks : List (List UInt8)) :
    List (Text × List UInt8) :=
  (chunks.zipIdx i).map (fun c => (chunkOid oidPrefix c.2, c.1))

theorem keys_numbered (oidPrefix : Text) (i : Nat) (chunks : List (List UInt8)) :
    (numbered oidPrefix i chunks).map Prod.fst =
      (List.range' i chunks.length).map (chunkOid oidPrefix) :=
  map_fst_zipIdx (chunkOid oidPrefix) i chunks

theorem nodup_chunkOids (oidPrefix : Text) (i n : Nat) :
    ((List.range' i n).map (chunkOid oidPrefix)).Nodup :=
  nodup_numberedKeys _ (fun _ _ h => (chunkOid_inj h).2) i n

section Write

variable {ε : Type} {rados : ReplacingStore Text UInt8 ε} {clock : Clock} {disk : Disk}

/-- What has been done when some more objects are written. -/
def WriteState.writeAll (st : WriteState rados) (objects : List (Text × List UInt8)) :
    WriteState rados :=
  { st with
    pool := rados.replaceAll st.pool objects
    written := st.written ++ objects }

theorem WriteState.writeAll_nil (st : WriteState rados) : st.writeAll [] = st := by
  rw [WriteState.writeAll, List.append_nil]
  rfl

theorem WriteState.writeAll_cons (st : WriteState rados) (object : Text × List UInt8)
    (objects : List (Text × List UInt8)) :
    st.writeAll (object :: objects) = (st.writeFull object.1 object.2).writeAll objects := by
  rw [WriteState.writeAll, WriteState.writeAll, WriteState.writeFull, List.append_assoc]
  rfl

theorem writeChunks_eq (oidPrefix : Text) (st : WriteState rados) (i : Nat) (rest : List UInt8) :
    writeChunks rados oidPrefix st i rest =
      (st.writeAll (numbered oidPrefix i (fileChunks rest)), i + (fileChunks rest).length) := by
  induction rest using fixed_induction CHUNK_SIZE_pos generalizing st i with
  | nil =>
    rw [writeChunks, dif_pos List.take_nil, fileChunks, CutRule.chunks_nil]
    exact Prod.ext st.writeAll_nil.symm rfl
  | step rest hne ih =>
    have hbuf : rest.take CHUNK_SIZE ≠ [] := by
      rw [Ne, List.take_eq_nil_iff, not_or]
      exact ⟨CHUNK_SIZE_pos.ne', hne⟩
    have hchunks : fileChunks rest = rest.take CHUNK_SIZE :: fileChunks (rest.drop CHUNK_SIZE) :=
      chunks_fixed_of_ne_nil CHUNK_SIZE_pos hne
    have hnumbered : numbered oidPrefix i (fileChunks rest) =
        (chunkOid oidPrefix i, rest.take CHUNK_SIZE) ::
          numbered oidPrefix (i + 1) (fileChunks (rest.drop CHUNK_SIZE)) := by
      rw [hchunks, numbered, List.zipIdx_cons, List.map_cons]
      rfl
    rw [writeChunks, dif_neg hbuf, ih, hnumbered, WriteState.writeAll_cons, hchunks,
      List.length_cons, Nat.add_assoc, Nat.add_comm 1]

theorem nChunks_eq (disk : Disk) (f : DataFile) :
    nChunks disk f = (fileChunks (disk f.fpath)).length := by
  have hpos := CHUNK_SIZE_pos
  rw [fileChunks, length_chunks_fixed, nChunks, Nat.add_sub_assoc hpos]

/-- The objects of one file. -/
def fileObjects (disk : Disk) (f : DataFile) : List (Text × List UInt8) :=
  numbered f.oidPrefix 0 (fileChunks (disk f.fpath))

/-- The size of the files. -/
def logicalBytes (disk : Disk) (files : List DataFile) : Nat :=
  (files.map fun f => (disk f.fpath).length).sum

/-- What has been done when some more files are written. -/
def WriteState.addFiles (st : WriteState rados) (disk : Disk) (files : List DataFile) :
    WriteState rados where
  pool := rados.replaceAll st.pool (files.flatMap (fileObjects disk))
  written := st.written ++ files.flatMap (fileObjects disk)
  readings := st.readings + 2 * files.length
  totalBytes := st.totalBytes + logicalBytes disk files
  totalObjs := st.totalObjs + (files.map (nChunks disk)).sum

/-- The clock reads differently at both ends of each of the next `n` files. -/
def MovesOn (clock : Clock) (readings n : Nat) : Prop :=
  ∀ i < n, clock (readings + 2 * i + 1) ≠ clock (readings + 2 * i)

theorem movesOn_succ {readings n : Nat} : MovesOn clock readings (n + 1) ↔
    clock (readings + 1) ≠ clock readings ∧ MovesOn clock (readings + 2) n := by
  have hshift (i : Nat) : readings + 2 * (i + 1) = readings + 2 + 2 * i := by omega
  rw [MovesOn, Nat.forall_lt_succ_left']
  simp only [hshift]
  rfl

/-- A file is written, and then the time is divided by. -/
theorem writeFile_eq (st : WriteState rados) (f : DataFile) :
    writeFile rados clock disk st f =
      if clock (st.readings + 1) = clock st.readings then .error (st.addFiles disk [f])
      else .ok (st.addFiles disk [f]) := by
  have hafter : { st with
      pool := rados.replaceAll st.pool (fileObjects disk f)
      written := st.written ++ fileObjects disk f
      readings := st.readings + 1 + 1
      totalBytes := st.totalBytes + (disk f.fpath).length
      totalObjs := st.totalObjs + (0 + (fileChunks (disk f.fpath)).length) } =
      st.addFiles disk [f] := by
    rw [WriteState.addFiles, List.flatMap_singleton, logicalBytes, List.map_singleton,
      List.map_singleton, List.sum_singleton, List.sum_singleton, nChunks_eq, Nat.zero_add]
    rfl
  rw [writeFile, writeChunks_eq, ← hafter]
  simp only [WriteState.writeAll, sub_eq_zero]
  rfl

theorem WriteState.addFiles_cons (st : WriteState rados) (disk : Disk) (f : DataFile)
    (files : List DataFile) :
    st.addFiles disk (f :: files) = (st.addFiles disk [f]).addFiles disk files := by
  rw [WriteState.addFiles, WriteState.addFiles, WriteState.addFiles, WriteState.mk.injEq]
  refine ⟨?_, ?_, ?_, ?_, ?_⟩
  · rw [List.flatMap_cons, List.flatMap_singleton, ReplacingStore.replaceAll, List.foldl_append]
    rfl
  · rw [List.flatMap_cons, List.flatMap_singleton, List.append_assoc]
  · show st.readings + 2 * (files.length + 1) = st.readings + 2 * 1 + 2 * files.length
    omega
  · rw [logicalBytes, List.map_cons, List.sum_cons, logicalBytes, List.map_singleton,
      List.sum_singleton, logicalBytes, Nat.add_assoc]
  · rw [List.map_cons, List.sum_cons, List.map_singleton, List.sum_singleton, Nat.add_assoc]

variable (disk) in
theorem foldlM_writeFile_of_movesOn {files : List DataFile} {st : WriteState rados}
    (h : MovesOn clock st.readings files.length) :
    files.foldlM (writeFile rados clock disk) st = .ok (st.addFiles disk files) := by
  induction files generalizing st with
  | nil =>
    rw [List.foldlM_nil, WriteState.addFiles, List.flatMap_nil, List.append_nil]
    rfl
  | cons f files ih =>
    rw [List.length_cons, movesOn_succ] at h
    have hrest := @ih (st.addFiles disk [f]) h.2
    rw [WriteState.addFiles_cons st disk f files, List.foldlM_cons, writeFile_eq, if_neg h.1]
    exact hrest

/-- A run of `write_files` that comes to its end. -/
theorem movesOn_of_foldlM_writeFile {files : List DataFile} {st st' : WriteState rados}
    (h : files.foldlM (writeFile rados clock disk) st = .ok st') :
    MovesOn clock st.readings files.length := by
  induction files generalizing st with
  | nil => exact fun i hi => absurd hi (Nat.not_lt_zero i)
  | cons f files ih =>
    rw [List.foldlM_cons, writeFile_eq] at h
    by_cases hstill : clock (st.readings + 1) = clock st.readings
    · rw [if_pos hstill] at h
      cases h
    · rw [if_neg hstill] at h
      exact movesOn_succ.mpr ⟨hstill, ih h⟩

variable (rados clock disk) in
/-- What `write_files` makes of a pool. -/
def filled (pool : rados.State) (readings : Nat) (files : List DataFile) :
    WriteState rados × Rat :=
  let st := WriteState.addFiles { pool := pool, readings := readings + 1 } disk files
  ({ st with readings := st.readings + 1 }, clock st.readings - clock readings)

theorem writeFiles_eq_ok_iff {pool : rados.State} {readings : Nat} {files : List DataFile}
    {done : WriteState rados × Rat} :
    writeFiles rados clock disk pool readings files = .ok done ↔
      MovesOn clock (readings + 1) files.length ∧
        done = filled rados clock disk pool readings files := by
  rw [writeFiles]
  constructor
  · intro h
    cases hfold : files.foldlM (writeFile rados clock disk)
        { pool := pool, readings := readings + 1 } with
    | error st =>
      rw [hfold] at h
      cases h
    | ok st =>
      have hmoves := movesOn_of_foldlM_writeFile hfold
      have hst := foldlM_writeFile_of_movesOn disk hmoves
      rw [hst] at h
      cases h
      exact ⟨hmoves, rfl⟩
  · rintro ⟨hmoves, rfl⟩
    rw [foldlM_writeFile_of_movesOn disk hmoves]
    rfl

/-! ## Distinct ids -/

/-- Two files whose chunks have different ids: one of them is empty, or the
prefixes differ. -/
def Apart (disk : Disk) (f g : DataFile) : Prop :=
  disk f.fpath ≠ [] → disk g.fpath ≠ [] → f.oidPrefix ≠ g.oidPrefix

theorem Apart.symm {f g : DataFile} (h : Apart disk f g) : Apart disk g f :=
  fun hg hf heq => h hf hg heq.symm

theorem length_fileChunks_pos {bytes : List UInt8} (h : bytes ≠ []) :
    0 < (fileChunks bytes).length := by
  rw [fileChunks, chunks_fixed_of_ne_nil CHUNK_SIZE_pos h]
  exact Nat.succ_pos _

/-- The ids of the chunks of one file. -/
def fileOids (disk : Disk) (f : DataFile) : List Text := (fileObjects disk f).map Prod.fst

theorem fileOids_eq (disk : Disk) (f : DataFile) :
    fileOids disk f =
      (List.range' 0 (fileChunks (disk f.fpath)).length).map (chunkOid f.oidPrefix) :=
  keys_numbered _ _ _

theorem disjoint_fileOids_iff {f g : DataFile} :
    (fileOids disk f).Disjoint (fileOids disk g) ↔ Apart disk f g := by
  rw [fileOids_eq, fileOids_eq]
  constructor
  · intro hdisj hf hg heq
    -- The first chunks of the two files have one id.
    have hfirst {h : DataFile} (hne : disk h.fpath ≠ []) : chunkOid h.oidPrefix 0 ∈
        (List.range' 0 (fileChunks (disk h.fpath)).length).map (chunkOid h.oidPrefix) := by
      have hpos := length_fileChunks_pos hne
      exact List.mem_map_of_mem (List.mem_range'_1.mpr (by omega))
    refine hdisj (hfirst hf) ?_
    rw [heq]
    exact hfirst hg
  · intro hapart oid hf hg
    obtain ⟨i, hi, rfl⟩ := List.mem_map.mp hf
    obtain ⟨j, hj, heq⟩ := List.mem_map.mp hg
    rw [List.mem_range'_1] at hi hj
    refine hapart ?_ ?_ (chunkOid_inj heq).1.symm
    · intro hnil
      rw [hnil, fileChunks, CutRule.chunks_nil, List.length_nil] at hi
      omega
    · intro hnil
      rw [hnil, fileChunks, CutRule.chunks_nil, List.length_nil] at hj
      omega

/-- The ids of all chunks of all files are distinct when the files are apart. -/
theorem nodup_keys_iff {files : List DataFile} :
    ((files.flatMap (fileObjects disk)).map Prod.fst).Nodup ↔ files.Pairwise (Apart disk) := by
  have heach : ∀ f ∈ files, (fileOids disk f).Nodup := by
    intro f _
    rw [fileOids_eq]
    exact nodup_chunkOids _ _ _
  rw [List.map_flatMap]
  show (files.flatMap (fileOids disk)).Nodup ↔ _
  rw [List.nodup_flatMap]
  constructor
  · intro h
    exact h.2.imp fun hdisj => disjoint_fileOids_iff.mp hdisj
  · intro h
    exact ⟨heach, h.imp fun hapart => disjoint_fileOids_iff.mpr hapart⟩

/-- Collected files are apart when no two paths of non-empty data files can be confused. -/
theorem pairwise_collectFiles_iff {d : DataDir} :
    (collectFiles d).Pairwise (Apart disk) ↔
      ∀ p ∈ dataPaths d, ∀ q ∈ dataPaths d, p ≠ q →
        disk (walkedPath d.path p) ≠ [] → disk (walkedPath d.path q) ≠ [] →
          ¬ Confusable (relpath p) (relpath q) := by
  simp only [← oidPrefix_eq_iff]
  rw [(perm_collectFiles d).pairwise_iff (fun h => h.symm), List.pairwise_map]
  constructor
  · intro h p hp q hq hne
    have hsymm : Std.Symm (fun a b => Apart disk (dataFile d a) (dataFile d b)) :=
      ⟨fun _ _ hab => hab.symm⟩
    exact h.forall hp hq hne
  · intro h
    exact (nodup_dataPaths d).pairwise_of_forall_ne h

/-! ## Reading back -/

section Read

variable {files : List DataFile} {f : DataFile} {pool : rados.State}

/-- The chunk that an entry of `oid_list` stands for. -/
def chunkOf (disk : Disk) (entry : Text × Text × Nat) : List UInt8 :=
  ((fileChunks (disk entry.2.1))[entry.2.2]?).getD []

/-- Every chunk of the files is read from the pool. -/
def HasFiles (rados : ReplacingStore Text UInt8 ε) (disk : Disk) (files : List DataFile)
    (pool : rados.State) : Prop :=
  ∀ entry ∈ oidList disk files, rados.read pool entry.1 CHUNK_SIZE = .ok (chunkOf disk entry)

/-- The files are in a pool to which they were written under ids of their own, whatever it
held before. -/
theorem hasFiles_addFiles (hapart : files.Pairwise (Apart disk)) (st : WriteState rados) :
    HasFiles rados disk files (st.addFiles disk files).pool := by
  intro entry hentry
  obtain ⟨f, hf, hentry⟩ := List.mem_flatMap.mp hentry
  obtain ⟨c, hc, rfl⟩ := List.mem_map.mp hentry
  rw [nChunks_eq, List.mem_range] at hc
  have hchunk := List.getElem?_eq_getElem hc
  have hobject : (chunkOid f.oidPrefix c, (fileChunks (disk f.fpath))[c]) ∈
      files.flatMap (fileObjects disk) := by
    refine List.mem_flatMap.mpr ⟨f, hf, List.mem_map.mpr ⟨(_, c), ?_, rfl⟩⟩
    rw [List.mem_zipIdx_iff_getElem?]
    exact hchunk
  have hlen := length_le_of_mem_fixed CHUNK_SIZE_pos (List.mem_of_getElem? hchunk)
  rw [WriteState.addFiles,
    ReplacingStore.read_replaceAll (nodup_keys_iff.mpr hapart) CHUNK_SIZE hobject,
    List.take_of_length_le hlen, chunkOf, hchunk, Option.getD_some]

theorem map_chunkOf_file (disk : Disk) (f : DataFile) :
    (oidList disk [f]).map (chunkOf disk) = fileChunks (disk f.fpath) := by
  rw [oidList, List.flatMap_singleton, List.map_map, nChunks_eq]
  apply List.ext_getElem
  · rw [List.length_map, List.length_range]
  · intro c hc hc'
    rw [List.getElem_map, List.getElem_range]
    simp [chunkOf, List.getElem?_eq_getElem hc']

theorem flatten_map_chunkOf (disk : Disk) (files : List DataFile) :
    ((oidList disk files).map (chunkOf disk)).flatten = files.flatMap (fun f => disk f.fpath) := by
  induction files with
  | nil => rfl
  | cons f files ih =>
    have hsplit : oidList disk (f :: files) = oidList disk [f] ++ oidList disk files := by
      rw [oidList, List.flatMap_cons, oidList, List.flatMap_singleton, oidList]
    rw [hsplit, List.map_append, List.flatten_append, ih, map_chunkOf_file, fileChunks,
      CutRule.flatten_chunks, List.flatMap_cons]

/-- The objects that `read_all` visits for a file are its chunks. -/
theorem mapM_read (h : HasFiles rados disk files pool) (hf : f ∈ files) :
    (oidList disk [f]).mapM (fun entry => rados.read pool entry.1 CHUNK_SIZE) =
      .ok (fileChunks (disk f.fpath)) := by
  rw [← map_chunkOf_file]
  refine mapM_eq_pure fun entry hentry => h entry ?_
  rw [oidList, List.flatMap_singleton] at hentry
  exact List.mem_flatMap.mpr ⟨f, hf, hentry⟩

theorem foldlM_add_length {g : Text × Text × Nat → Except ε (List UInt8)}
    {bytes : Text × Text × Nat → List UInt8} {entries : List (Text × Text × Nat)}
    (h : ∀ entry ∈ entries, g entry = .ok (bytes entry)) (rdBytes : Nat) :
    entries.foldlM (fun rd entry => (g entry).map (fun data => rd + data.length)) rdBytes =
      .ok (rdBytes + (entries.map bytes).flatten.length) := by
  induction entries generalizing rdBytes with
  | nil => rfl
  | cons entry entries ih =>
    have hrest := ih (fun e he => h e (List.mem_cons_of_mem _ he))
      (rdBytes + (bytes entry).length)
    rw [List.foldlM_cons, h entry List.mem_cons_self, List.map_cons, List.flatten_cons,
      List.length_append, ← Nat.add_assoc]
    exact hrest

/-- One round reads as many bytes as the files have. -/
theorem readRound_of_hasFiles (h : HasFiles rados disk files pool) :
    readRound rados pool (oidList disk files) = .ok (logicalBytes disk files) := by
  rw [readRound, foldlM_add_length h, flatten_map_chunkOf, List.length_flatMap, Nat.zero_add,
    logicalBytes]

/-- The rounds read the same. -/
theorem foldlM_readOneRound (clock : Clock) (h : HasFiles rados disk files pool) (rs : List Nat)
    (totals : ReadTotals) :
    ∃ totals', rs.foldlM (readOneRound rados clock disk pool files) totals = .ok totals' ∧
      totals'.totalBytes =
        (if rs = [] then totals.totalBytes else logicalBytes disk files) ∧
      totals'.roundDetails.map (fun d => (d.r, d.rdBytes)) =
        totals.roundDetails.map (fun d => (d.r, d.rdBytes)) ++
          rs.map (fun r => (r, logicalBytes disk files)) := by
  induction rs generalizing totals with
  | nil => exact ⟨totals, rfl, rfl, (List.append_nil _).symm⟩
  | cons r rs ih =>
    have hround : ∃ detail : RoundDetail,
        (detail.r, detail.rdBytes) = (r, logicalBytes disk files) ∧
        readOneRound rados clock disk pool files totals r =
          .ok { readings := totals.readings + 2
                totalBytes := logicalBytes disk files
                roundDetails := totals.roundDetails ++ [detail] } := by
      rw [readOneRound, readRound_of_hasFiles h]
      exact ⟨_, rfl, rfl⟩
    obtain ⟨detail, hdetail, hround⟩ := hround
    obtain ⟨totals', hrun, hbytes, hdetails⟩ := ih
      { readings := totals.readings + 2
        totalBytes := logicalBytes disk files
        roundDetails := totals.roundDetails ++ [detail] }
    refine ⟨totals', ?_, ?_, ?_⟩
    · rw [List.foldlM_cons, hround]
      exact hrun
    · rw [hbytes, if_neg (List.cons_ne_nil r rs)]
      exact ite_self _
    · rw [hdetails, List.map_append, List.map_singleton, hdetail, List.append_assoc]
      rfl

theorem readAll_of_hasFiles (clock : Clock) (h : HasFiles rados disk files pool) (readings : Nat)
    (rounds : Int) :
    ∃ totals, readAll rados clock disk pool readings files rounds = .ok totals ∧
      totals.totalBytes = (if rounds ≤ 0 then 0 else logicalBytes disk files) ∧
      totals.roundDetails.map (fun d => (d.r, d.rdBytes)) =
        (List.range' 1 rounds.toNat).map (fun r => (r, logicalBytes disk files)) := by
  obtain ⟨totals, hrun, hbytes, hdetails⟩ :=
    foldlM_readOneRound clock h (List.range' 1 rounds.toNat) { readings := readings }
  refine ⟨totals, hrun, hbytes.trans ?_, hdetails⟩
  simp only [List.range'_eq_nil_iff, Int.toNat_eq_zero]

end Read

end Write

/-! ## The property -/

section

variable {ε : Type} (rados : ReplacingStore Text UInt8 ε) (clock : Clock) (disk : Disk)
  (files : List DataFile) (rounds : Int)

/-- What the benchmark takes for granted of a pool that it has filled: the ids of
all chunks of all files are distinct, the objects that it visits for a file are
the file, and each round reads all files. -/
structure Faithful (done : WriteState rados) : Prop where
  oids_nodup : (done.written.map Prod.fst).Nodup
  file_read : ∀ f ∈ files, ∃ parts,
    (oidList disk [f]).mapM (fun entry => rados.read done.pool entry.1 CHUNK_SIZE) = .ok parts ∧
      parts.flatten = disk f.fpath
  rounds_read : ∃ totals,
    readAll rados clock disk done.pool done.readings files rounds = .ok totals ∧
    totals.roundDetails.map (fun d => (d.r, d.rdBytes)) =
      (List.range' 1 rounds.toNat).map
        (fun r => (r, (files.map fun f => (disk f.fpath).length).sum))

/-- The files are written, and the pool reads back what was written. -/
def ReadsBack (pool : rados.State) : Prop :=
  ∃ done totalDt, writeFiles rados clock disk pool 0 files = .ok (done, totalDt) ∧
    Faithful rados clock disk files rounds done

variable {rados clock disk files rounds}

/-- Distinct ids are all that it takes. -/
theorem faithful_filled_iff {pool : rados.State} {readings : Nat} :
    Faithful rados clock disk files rounds (filled rados clock disk pool readings files).1 ↔
      files.Pairwise (Apart disk) := by
  constructor
  · intro h
    exact nodup_keys_iff.mp h.oids_nodup
  · intro hapart
    have hhas : HasFiles rados disk files (filled rados clock disk pool readings files).1.pool :=
      hasFiles_addFiles hapart _
    obtain ⟨totals, hrun, -, hdetails⟩ := readAll_of_hasFiles clock hhas _ rounds
    exact
      { oids_nodup := nodup_keys_iff.mpr hapart
        file_read := fun f hf =>
          ⟨fileChunks (disk f.fpath), mapM_read hhas hf, CutRule.flatten_chunks _ _⟩
        rounds_read := ⟨totals, hrun, hdetails⟩ }

end

/-- On any pool, the files are written and read back exactly when the clock moves on while each
of them is written, and no two non-empty data files have paths that differ only where both
have a slash, a dot or an underscore. -/
theorem readsBack_iff {ε : Type} (rados : ReplacingStore Text UInt8 ε) (clock : Clock)
    (d : DataDir) (disk : Disk) (rounds : Int) (pool : rados.State) :
    ReadsBack rados clock disk (collectFiles d) rounds pool ↔
      (∀ i < (collectFiles d).length, clock (2 * i + 2) ≠ clock (2 * i + 1)) ∧
      ∀ p ∈ dataPaths d, ∀ q ∈ dataPaths d, p ≠ q →
        disk (walkedPath d.path p) ≠ [] → disk (walkedPath d.path q) ≠ [] →
          ¬ Confusable (relpath p) (relpath q) := by
  have hmoves : MovesOn clock (0 + 1) (collectFiles d).length ↔
      ∀ i < (collectFiles d).length, clock (2 * i + 2) ≠ clock (2 * i + 1) := by
    have hreading (i : Nat) : 0 + 1 + 2 * i = 2 * i + 1 := by omega
    simp only [MovesOn, hreading]
  rw [← hmoves, ← pairwise_collectFiles_iff, ReadsBack]
  constructor
  · rintro ⟨done, totalDt, hwrite, hfaithful⟩
    obtain ⟨hmoves, hdone⟩ := writeFiles_eq_ok_iff.mp hwrite
    have hfirst : done = (filled rados clock disk pool 0 (collectFiles d)).1 :=
      congrArg Prod.fst hdone
    rw [hfirst] at hfaithful
    exact ⟨hmoves, faithful_filled_iff.mp hfaithful⟩
  · rintro ⟨hmoves, hapart⟩
    exact ⟨_, _, writeFiles_eq_ok_iff.mpr ⟨hmoves, rfl⟩, faithful_filled_iff.mpr hapart⟩

def dottedName : FileName where
  chars := ['a', '.', 'b']
  ne_nil := by decide
  ne_dot := by decide
  ne_dotdot := by decide
  slash_notMem := by decide

def underscoredName : FileName where
  chars := ['a', '_', 'b']
  ne_nil := by decide
  ne_dot := by decide
  ne_dotdot := by decide
  slash_notMem := by decide

/-- A directory with the files `a.b` and `a_b`. -/
def clashingDir : DataDir where
  path := ['d']
  entries := .file dottedName (.file underscoredName .nil)
  distinct := ⟨by decide, by decide, trivial⟩

/-- The chunk of `a_b` overwrites that of `a.b`, also where the clock moves on. -/
theorem not_readsBack_clashingDir :
    ¬ ReadsBack (ReplacingStore.ofKeyed Text UInt8) (fun i => i)
      (fun path => if path = ['d', '/', 'a', '.', 'b'] then [1] else [2])
      (collectFiles clashingDir) 1 ({} : KeyedStore Text (List UInt8)) := by
  rintro ⟨done, totalDt, hwrite, hfaithful⟩
  have hdone : done = _ := congrArg Prod.fst (writeFiles_eq_ok_iff.mp hwrite).2
  rw [hdone] at hfaithful
  have hapart := faithful_filled_iff.mp hfaithful
  have hfiles : collectFiles clashingDir =
      [⟨['d', '/', 'a', '.', 'b'], ['a', '_', 'b']⟩,
        ⟨['d', '/', 'a', '_', 'b'], ['a', '_', 'b']⟩] := by decide
  rw [hfiles, List.pairwise_pair] at hapart
  exact hapart (by decide) (by decide) rfl

end DpuTest.CephBuild
