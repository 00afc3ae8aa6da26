import DpuTest.CephBuild.CompressReadBench
import DpuTest.Lib.ObjectStore

/-!
# Objects of a workload

`objectWrite.py` writes the `.log` and `.fits` files below a directory as objects.
A file of at most 4 MiB is one object under its path; a larger one is cut into chunks
of 4 MiB, and chunk `i` has the name `{path}_chunk_{i}`.  Then every object that the
pool lists is read, up to 4 MiB of it, and the lengths are added up.

The two kinds of names do not meet: a path ends in `g` or `s`, and the name of a
chunk in a digit.  What precedes the last `_` of the name of a chunk determines the
path (`chunkName_inj`).  So no object is written twice (`nodup_workloadNames`), and
`storesWorkload` says that the pool holds the files, cut into pieces, and that all of
their bytes are read, in whatever order the pool lists its objects.

The pool is one that exists and whose calls do not fail.  The times that the script
takes are left out.
-/

namespace DpuTest.CephCompress

open Lib
open CephBuild (Text Disk DataDir pathJoin walkedPath)

def chunkSize : Nat := 4 * 1024 * 1024

theorem chunkSize_pos : 0 < chunkSize := by decide

/-! ## Writing -/

/-- `s.endswith('.log') or s.endswith('.fits')` -/
def IsWorkload (s : Text) : Prop := ['.', 'l', 'o', 'g'] <:+ s ∨ ['.', 'f', 'i', 't', 's'] <:+ s

instance (s : Text) : Decidable (IsWorkload s) :=
  inferInstanceAs (Decidable (['.', 'l', 'o', 'g'] <:+ s ∨ ['.', 'f', 'i', 't', 's'] <:+ s))

/-- `f"{file_path}_chunk_{chunk_index}"` -/
def chunkName (filePath : Text) (chunkIndex : Nat) : Text :=
  filePath ++ ['_', 'c', 'h', 'u', 'n', 'k', '_'] ++ Nat.toDigits 10 chunkIndex

section Script

variable {ε : Type} (rados : ObjectStore Text UInt8 ε) (disk : Disk)

/-- The pool, and `obj_num`. -/
structure WriteState where
  pool : rados.State
  objNum : Nat

/-- The `while` loop of `process_file`; `rest` has not been read. -/
def writeChunks (filePath : Text) (chunkIndex : Nat) (rest : List UInt8) (st : WriteState rados) :
    WriteState rados :=
  let chunk := rest.take chunkSize
  if h : chunk = [] then st
  else
    writeChunks filePath (chunkIndex + 1) (rest.drop chunkSize)
      { pool := rados.write st.pool (chunkName filePath chunkIndex) chunk
        objNum := st.objNum + 1 }
termination_by rest.length
decreasing_by
  have hne : rest ≠ [] := by
    rintro rfl
    exact h rfl
  have hlen := List.length_pos_iff.mpr hne
  have hpos := chunkSize_pos
  rw [List.length_drop]
  omega

/-- `process_file(file_path, ioctx)` -/
def processFile (filePath : Text) (st : WriteState rados) : WriteState rados :=
  if IsWorkload filePath then
    let data := disk filePath
    if chunkSize < data.length then writeChunks rados filePath 0 data st
    else { st with pool := rados.write st.pool filePath data }
  else st

/-- `traverse_directory_write(directory, conf_path, pool_name)` -/
def traverseDirectoryWrite (d : DataDir) (pool : rados.State) : WriteState rados :=
  d.entries.walk.foldl (fun st dir =>
    dir.2.foldl (fun st fileName =>
      processFile rados disk (pathJoin (walkedPath d.path dir.1) fileName.chars) st) st)
    { pool := pool, objNum := 0 }

/-! ## Reading -/

/-- `total_read_bytes` of `measure_read_performance(cluster_conf, pool_name)`.  An object
that cannot be read is passed over. -/
def measureReadPerformance (pool : rados.State) : Nat :=
  (rados.keys pool).foldl (fun totalReadBytes objectName =>
    match rados.read pool objectName (4 * 1024 * 1024) with
    | .ok data => totalReadBytes + data.length
    | .error _ => totalReadBytes) 0

end Script

/-! ## The pieces of a file -/

/-- The pieces of a file under their names. -/
structure Pieces (filePath : Text) (bytes : List UInt8) (objects : List (Text × List UInt8)) :
    Prop where
  flatten_eq : (objects.map Prod.snd).flatten = bytes
  length_le : ∀ object ∈ objects, object.2.length ≤ chunkSize
  full : ∀ data ∈ (objects.map Prod.snd).dropLast, data.length = chunkSize
  whole : bytes.length ≤ chunkSize → objects = [(filePath, bytes)]
  numbered : chunkSize < bytes.length →
    objects.map Prod.fst = (List.range objects.length).map (chunkName filePath)

/-- The chunks of a file that is cut. -/
def fileChunks (bytes : List UInt8) : List (List UInt8) :=
  (fixedRule chunkSize chunkSize_pos).chunks bytes

/-- The objects for `chunks`, the first of which is number `i`. -/
def chunkObjects (filePath : Text) (i : Nat) (chunks : List (List UInt8)) :
    List (Text × List UInt8) :=
  (chunks.zipIdx i).map (fun c => (chunkName filePath c.2, c.1))

/-- The objects that `process_file` writes for a workload file. -/
def fileObjects (filePath : Text) (bytes : List UInt8) : List (Text × List UInt8) :=
  if chunkSize < bytes.length then chunkObjects filePath 0 (fileChunks bytes)
  else [(filePath, bytes)]

section

variable {filePath : Text} {bytes : List UInt8}

theorem names_chunkObjects (filePath : Text) (i : Nat) (chunks : List (List UInt8)) :
    (chunkObjects filePath i chunks).map Prod.fst =
      (List.range' i chunks.length).map (chunkName filePath) :=
  map_fst_zipIdx (chunkName filePath) i chunks

theorem data_chunkObjects (filePath : Text) (i : Nat) (chunks : List (List UInt8)) :
    (chunkObjects filePath i chunks).map Prod.snd = chunks := by
  rw [chunkObjects, List.map_map]
  exact List.zipIdx_map_fst i chunks

theorem pieces_fileObjects (filePath : Text) (bytes : List UInt8) :
    Pieces filePath bytes (fileObjects filePath bytes) := by
  rw [fileObjects]
  by_cases hlarge : chunkSize < bytes.length
  · rw [if_pos hlarge]
    refine
      { flatten_eq := ?_
        length_le := ?_
        full := ?_
        whole := fun hle => absurd hle (Nat.not_le.mpr hlarge)
        numbered := fun _ => ?_ }
    · rw [data_chunkObjects]
      exact CutRule.flatten_chunks _ _
    · intro object hobject
      have hmem := List.mem_map_of_mem (f := Prod.snd) hobject
      rw [data_chunkObjects] at hmem
      exact length_le_of_mem_fixed chunkSize_pos hmem
    · rw [data_chunkObjects]
      exact fun data hdata => length_of_mem_dropLast_fixed chunkSize_pos hdata
    · rw [names_chunkObjects, ← List.length_map (f := Prod.snd), data_chunkObjects,
        List.range_eq_range']
  · rw [if_neg hlarge]
    have hle : bytes.length ≤ chunkSize := Nat.not_lt.mp hlarge
    refine
      { flatten_eq := List.append_nil _
        length_le := ?_
        full := nofun
        whole := fun _ => rfl
        numbered := fun hlt => absurd hlt hlarge }
    intro object hobject
    rw [List.mem_singleton.mp hobject]
    exact hle

end

/-! ## Names -/

theorem isWorkload_iff_getLast {s : Text} (h : IsWorkload s) :
    s.getLast? = some 'g' ∨ s.getLast? = some 's' := by
  rcases h with ⟨front, rfl⟩ | ⟨front, rfl⟩
  · left
    rw [List.getLast?_append]
    rfl
  · right
    rw [List.getLast?_append]
    rfl

/-- A digit is neither of the two. -/
theorem not_isWorkload_chunkName (filePath : Text) (i : Nat) :
    ¬ IsWorkload (chunkName filePath i) := by
  intro h
  have hne : Nat.toDigits 10 i ≠ [] := Nat.toDigits_ne_nil
  have hlast : (chunkName filePath i).getLast? = some ((Nat.toDigits 10 i).getLast hne) := by
    rw [chunkName, List.getLast?_append_of_ne_nil _ hne, List.getLast?_eq_some_getLast hne]
  have hdigit : ((Nat.toDigits 10 i).getLast hne).isDigit = true :=
    Nat.isDigit_of_mem_toDigits (by decide) (by decide) (List.getLast_mem hne)
  rcases isWorkload_iff_getLast h with hg | hs
  · rw [hlast, Option.some.injEq] at hg
    rw [hg] at hdigit
    exact absurd hdigit (by decide)
  · rw [hlast, Option.some.injEq] at hs
    rw [hs] at hdigit
    exact absurd hdigit (by decide)

/-- The name of a chunk determines the path and the number: no digit is a `_`. -/
theorem chunkName_inj {a b : Text} {i j : Nat} (h : chunkName a i = chunkName b j) :
    a = b ∧ i = j := by
  have hdigits (n : Nat) : '_' ∉ Nat.toDigits 10 n := by
    intro hmem
    have hdigit := Nat.isDigit_of_mem_toDigits (by decide) (by decide) hmem
    exact absurd hdigit (by decide)
  have hsplit (a : Text) (i : Nat) : chunkName a i =
      (a ++ ['_', 'c', 'h', 'u', 'n', 'k']) ++ '_' :: Nat.toDigits 10 i := by
    simp [chunkName]
  rw [hsplit, hsplit] at h
  have hparts := append_cons_inj_right (hdigits i) (hdigits j) h
  refine ⟨List.append_cancel_right hparts.1, ?_⟩
  rw [← Nat.ofDigitChars_ten_toDigits (n := i), hparts.2, Nat.ofDigitChars_ten_toDigits]

section

variable {path path' name : Text} {bytes bytes' : List UInt8}

/-- An object has the name of the file, or that of one of its chunks. -/
theorem name_of_mem_fileObjects (h : name ∈ (fileObjects path bytes).map Prod.fst) :
    name = path ∨ ∃ i, name = chunkName path i := by
  rw [fileObjects] at h
  by_cases hlarge : chunkSize < bytes.length
  · rw [if_pos hlarge, names_chunkObjects] at h
    obtain ⟨i, -, rfl⟩ := List.mem_map.mp h
    exact Or.inr ⟨i, rfl⟩
  · rw [if_neg hlarge] at h
    exact Or.inl (List.mem_singleton.mp h)

/-- Different files have different objects. -/
theorem disjoint_fileObjects (hpath : IsWorkload path) (hpath' : IsWorkload path')
    (hne : path ≠ path') :
    ((fileObjects path bytes).map Prod.fst).Disjoint
      ((fileObjects path' bytes').map Prod.fst) := by
  intro name h h'
  rcases name_of_mem_fileObjects h with rfl | ⟨i, rfl⟩
  · rcases name_of_mem_fileObjects h' with heq | ⟨j, heq⟩
    · exact hne heq
    · exact not_isWorkload_chunkName path' j (heq ▸ hpath)
  · rcases name_of_mem_fileObjects h' with heq | ⟨j, heq⟩
    · exact not_isWorkload_chunkName path i (heq ▸ hpath')
    · exact hne (chunkName_inj heq).1

theorem nodup_fileObjects (path : Text) (bytes : List UInt8) :
    ((fileObjects path bytes).map Prod.fst).Nodup := by
  rw [fileObjects]
  by_cases hlarge : chunkSize < bytes.length
  · rw [if_pos hlarge, names_chunkObjects]
    exact nodup_numberedKeys _ (fun _ _ h => (chunkName_inj h).2) 0 _
  · rw [if_neg hlarge]
    exact List.nodup_singleton _

end

/-! ## The files of a workload -/

/-- The `.log` and `.fits` files below a directory. -/
def workloadPaths (d : DataDir) : List (List FileName) :=
  d.entries.paths.filter (fun rel => rel.getLast?.any (fun name => decide (IsWorkload name.chars)))

/-- The objects of a file. -/
def objectsOf (d : DataDir) (disk : Disk) (rel : List FileName) : List (Text × List UInt8) :=
  fileObjects (walkedPath d.path rel) (disk (walkedPath d.path rel))

/-- What the run writes for a file that it visits. -/
def writtenObjects (disk : Disk) (filePath : Text) : List (Text × List UInt8) :=
  if IsWorkload filePath then fileObjects filePath (disk filePath) else []

section

variable {d : DataDir} {disk : Disk} {dir rest suffix : Text} {rel : List FileName}

theorem eq_slash_of_mem_getLast_joinBase {c : Char} (h : c ∈ (CephBuild.joinBase dir).getLast?) :
    c = '/' := by
  rw [CephBuild.joinBase] at h
  by_cases hsep : dir = [] ∨ dir.getLast? = some '/'
  · rw [if_pos hsep] at h
    rcases hsep with rfl | hlast
    · cases h
    · rw [hlast, Option.mem_some_iff] at h
      exact h.symm
  · rw [if_neg hsep, List.getLast?_append, Option.mem_def] at h
    exact (Option.some.inj h).symm

/-- The end of a path is that of its last name. -/
theorem suffix_joinBase_iff (hslash : '/' ∉ suffix) :
    suffix <:+ CephBuild.joinBase dir ++ rest ↔ suffix <:+ rest := by
  constructor
  · rintro ⟨front, happend⟩
    rcases List.append_eq_append_iff.mp happend with ⟨mid, hbase, hsuffix⟩ | ⟨mid, -, hrest⟩
    · cases hmid : mid.getLast? with
      | none =>
        rw [List.getLast?_eq_none_iff.mp hmid, List.nil_append] at hsuffix
        rw [hsuffix]
      | some c =>
        have hlast : c ∈ (CephBuild.joinBase dir).getLast? := by
          rw [hbase, List.getLast?_append, hmid]
          rfl
        rw [eq_slash_of_mem_getLast_joinBase hlast] at hmid
        refine absurd ?_ hslash
        rw [hsuffix]
        exact List.mem_append_left _ (List.mem_of_getLast? hmid)
    · exact ⟨mid, hrest.symm⟩
  · exact fun h => h.trans (List.suffix_append _ _)

theorem isWorkload_walkedPath (path : Text) (dirs : List FileName) (name : FileName) :
    IsWorkload (walkedPath path (dirs ++ [name])) ↔ IsWorkload name.chars := by
  have hjoin : walkedPath path (dirs ++ [name]) =
      CephBuild.joinBase (walkedPath path dirs) ++ name.chars := by
    rw [walkedPath, List.foldl_append]
    exact CephBuild.pathJoin_name _ name
  rw [hjoin, IsWorkload, IsWorkload, suffix_joinBase_iff (by decide),
    suffix_joinBase_iff (by decide)]

theorem ne_nil_of_mem_paths (h : rel ∈ d.entries.paths) : rel ≠ [] := by
  obtain ⟨name, -, below, rfl⟩ := Entries.head_mem_names h
  exact List.cons_ne_nil _ _

/-- The path of a file says whether its name has one of the two endings. -/
theorem isWorkload_iff_getLast_any (h : rel ∈ d.entries.paths) :
    IsWorkload (walkedPath d.path rel) ↔
      rel.getLast?.any (fun name => decide (IsWorkload name.chars)) = true := by
  have hsplit := List.dropLast_append_getLast (ne_nil_of_mem_paths h)
  rw [← hsplit, isWorkload_walkedPath, List.getLast?_append]
  simp

theorem mem_workloadPaths : rel ∈ workloadPaths d ↔
    rel ∈ d.entries.paths ∧ IsWorkload (walkedPath d.path rel) := by
  rw [workloadPaths, List.mem_filter]
  exact and_congr_right fun h => (isWorkload_iff_getLast_any h).symm

theorem nodup_workloadPaths (d : DataDir) : (workloadPaths d).Nodup :=
  (Entries.nodup_paths d.distinct).filter _

theorem flatMap_eq_flatMap_filter {α β : Type} {f g : α → List β} {keep : α → Bool} {xs : List α}
    (h : ∀ x ∈ xs, f x = if keep x then g x else []) :
    xs.flatMap f = (xs.filter keep).flatMap g := by
  induction xs with
  | nil => rfl
  | cons x xs ih =>
    rw [List.flatMap_cons, h x List.mem_cons_self, ih fun y hy => h y (List.mem_cons_of_mem _ hy),
      List.filter_cons]
    by_cases hx : keep x = true
    · rw [if_pos hx, if_pos hx, List.flatMap_cons]
    · rw [if_neg hx, if_neg hx, List.nil_append]

/-- What the walk writes is what there is to write. -/
theorem perm_writtenObjects (d : DataDir) (disk : Disk) :
    (d.entries.walkPaths.flatMap (fun rel => writtenObjects disk (walkedPath d.path rel))).Perm
      ((workloadPaths d).flatMap (objectsOf d disk)) := by
  refine ((Entries.perm_walkPaths d.entries).flatMap_right _).trans (List.Perm.of_eq ?_)
  refine flatMap_eq_flatMap_filter fun rel hrel => ?_
  rw [writtenObjects]
  exact if_congr (isWorkload_iff_getLast_any hrel) rfl rfl

/-- No object is written twice. -/
theorem nodup_workloadNames (d : DataDir) (disk : Disk) :
    (((workloadPaths d).flatMap (objectsOf d disk)).map Prod.fst).Nodup := by
  rw [List.map_flatMap, List.nodup_flatMap]
  refine ⟨fun rel _ => nodup_fileObjects _ _, ?_⟩
  refine (nodup_workloadPaths d).pairwise_of_forall_ne fun rel hrel rel' hrel' hne => ?_
  obtain ⟨hpath, hworkload⟩ := mem_workloadPaths.mp hrel
  obtain ⟨hpath', hworkload'⟩ := mem_workloadPaths.mp hrel'
  refine disjoint_fileObjects hworkload hworkload' fun heq => hne ?_
  exact CephBuild.walkedPath_inj (ne_nil_of_mem_paths hpath) (ne_nil_of_mem_paths hpath') heq

end

/-! ## The runs -/

section

variable {ε : Type} {rados : ObjectStore Text UInt8 ε} {disk : Disk}

theorem pool_writeChunks (filePath : Text) (i : Nat) (rest : List UInt8) (st : WriteState rados) :
    (writeChunks rados filePath i rest st).pool =
      rados.writeAll st.pool (chunkObjects filePath i (fileChunks rest)) := by
  induction rest using fixed_induction chunkSize_pos generalizing i st with
  | nil =>
    rw [writeChunks, dif_pos List.take_nil, fileChunks, CutRule.chunks_nil]
    rfl
  | step rest hne ih =>
    have hchunk : rest.take chunkSize ≠ [] := by
      rw [Ne, List.take_eq_nil_iff, not_or]
      exact ⟨chunkSize_pos.ne', hne⟩
    have hchunks : fileChunks rest = rest.take chunkSize :: fileChunks (rest.drop chunkSize) :=
      chunks_fixed_of_ne_nil chunkSize_pos hne
    rw [writeChunks, dif_neg hchunk, ih, hchunks]
    rfl

theorem pool_processFile (filePath : Text) (st : WriteState rados) :
    (processFile rados disk filePath st).pool =
      rados.writeAll st.pool (writtenObjects disk filePath) := by
  rw [processFile, writtenObjects]
  by_cases hworkload : IsWorkload filePath
  · rw [if_pos hworkload, if_pos hworkload, fileObjects]
    by_cases hlarge : chunkSize < (disk filePath).length
    · rw [if_pos hlarge, if_pos hlarge]
      exact pool_writeChunks _ _ _ _
    · rw [if_neg hlarge, if_neg hlarge]
      rfl
  · rw [if_neg hworkload, if_neg hworkload]
    rfl

/-- A loop whose turns write objects writes all of them. -/
theorem pool_foldl {α : Type} {turn : WriteState rados → α → WriteState rados}
    {objects : α → List (Text × List UInt8)}
    (h : ∀ st x, (turn st x).pool = rados.writeAll st.pool (objects x)) (xs : List α)
    (st : WriteState rados) :
    (xs.foldl turn st).pool = rados.writeAll st.pool (xs.flatMap objects) := by
  induction xs generalizing st with
  | nil => rfl
  | cons x xs ih =>
    rw [List.foldl_cons, ih, h, List.flatMap_cons, ObjectStore.writeAll_append]

theorem pool_traverseDirectoryWrite (d : DataDir) (pool : rados.State) :
    (traverseDirectoryWrite rados disk d pool).pool = rados.writeAll pool
      (d.entries.walkPaths.flatMap (fun rel => writtenObjects disk (walkedPath d.path rel))) := by
  have hdir (st : WriteState rados) (dir : List FileName × List FileName) :
      (dir.2.foldl (fun st fileName => processFile rados disk
        (pathJoin (walkedPath d.path dir.1) fileName.chars) st) st).pool =
      rados.writeAll st.pool ((Entries.pathsIn dir).flatMap
        (fun rel => writtenObjects disk (walkedPath d.path rel))) := by
    have hpath (fileName : FileName) : walkedPath d.path (dir.1 ++ [fileName]) =
        pathJoin (walkedPath d.path dir.1) fileName.chars := by
      rw [walkedPath, List.foldl_append]
      rfl
    rw [Entries.pathsIn, List.flatMap_map]
    simp only [hpath]
    exact pool_foldl (fun st fileName =>
      pool_processFile (pathJoin (walkedPath d.path dir.1) fileName.chars) st) dir.2 st
  rw [traverseDirectoryWrite, pool_foldl hdir, Entries.walkPaths, List.flatMap_assoc]

/-- How many bytes a read of an object brings. -/
def readBytes (rados : ObjectStore Text UInt8 ε) (pool : rados.State) (name : Text) : Nat :=
  match rados.read pool name (4 * 1024 * 1024) with
  | .ok data => data.length
  | .error _ => 0

theorem foldl_readBytes (pool : rados.State) (names : List Text) (total : Nat) :
    names.foldl (fun totalReadBytes objectName =>
      match rados.read pool objectName (4 * 1024 * 1024) with
      | .ok data => totalReadBytes + data.length
      | .error _ => totalReadBytes) total = total + (names.map (readBytes rados pool)).sum := by
  induction names generalizing total with
  | nil => rfl
  | cons name names ih =>
    rw [List.foldl_cons, ih, List.map_cons, List.sum_cons, readBytes]
    cases rados.read pool name (4 * 1024 * 1024) with
    | ok data => exact Nat.add_assoc _ _ _
    | error _ => rw [Nat.zero_add]

/-- All that was written is read, in whatever order it is listed. -/
theorem measureReadPerformance_writeAll {pool : rados.State} {objects : List (Text × List UInt8)}
    (hempty : rados.Empty pool) (hnodup : (objects.map Prod.fst).Nodup)
    (hle : ∀ object ∈ objects, object.2.length ≤ chunkSize) :
    measureReadPerformance rados (rados.writeAll pool objects) =
      (objects.map (fun object => object.2.length)).sum := by
  have hread : ∀ object ∈ objects,
      readBytes rados (rados.writeAll pool objects) object.1 = object.2.length := by
    intro object hobject
    rw [readBytes, ObjectStore.read_writeAll hempty hnodup _ hobject]
    exact congrArg List.length (List.take_of_length_le (hle object hobject))
  have hperm := (ObjectStore.perm_keys_writeAll hempty hnodup).map
    (readBytes rados (rados.writeAll pool objects))
  rw [measureReadPerformance, foldl_readBytes, Nat.zero_add, hperm.sum_nat, List.map_map]
  exact congrArg List.sum (List.map_congr_left hread)

/-- What the pool holds after a run, and what is read from it. -/
structure StoresWorkload (rados : ObjectStore Text UInt8 ε) (disk : Disk) (d : DataDir)
    (pool : rados.State) : Prop where
  pieces : ∀ rel ∈ workloadPaths d,
    Pieces (walkedPath d.path rel) (disk (walkedPath d.path rel)) (objectsOf d disk rel)
  names_nodup : (((workloadPaths d).flatMap (objectsOf d disk)).map Prod.fst).Nodup
  content_iff : ∀ name data,
    rados.content (traverseDirectoryWrite rados disk d pool).pool name = some data ↔
      (name, data) ∈ (workloadPaths d).flatMap (objectsOf d disk)
  total_read : measureReadPerformance rados (traverseDirectoryWrite rados disk d pool).pool =
    ((workloadPaths d).map (fun rel => (disk (walkedPath d.path rel)).length)).sum

/-- The pieces of a file have its length. -/
theorem sum_length_fileObjects (filePath : Text) (bytes : List UInt8) :
    ((fileObjects filePath bytes).map (fun object => object.2.length)).sum = bytes.length := by
  have hflatten := (pieces_fileObjects filePath bytes).flatten_eq
  have hlength := congrArg List.length hflatten
  rw [List.length_flatten, List.map_map] at hlength
  exact hlength

theorem sum_length_objects (d : DataDir) (disk : Disk) (rels : List (List FileName)) :
    ((rels.flatMap (objectsOf d disk)).map (fun object => object.2.length)).sum =
      (rels.map (fun rel => (disk (walkedPath d.path rel)).length)).sum := by
  induction rels with
  | nil => rfl
  | cons rel rels ih =>
    rw [List.flatMap_cons, List.map_append, List.sum_append_nat, ih, objectsOf,
      sum_length_fileObjects, List.map_cons, List.sum_cons]

/-- A run over an empty pool stores the files of the workload in pieces, and all of
their bytes are read. -/
theorem storesWorkload {pool : rados.State} (hempty : rados.Empty pool) (d : DataDir) :
    StoresWorkload rados disk d pool := by
  have hnodup := nodup_workloadNames d disk
  have hperm := perm_writtenObjects d disk
  have hwritten := (hperm.map Prod.fst).nodup_iff.mpr hnodup
  refine
    { pieces := fun rel _ => pieces_fileObjects _ _
      names_nodup := hnodup
      content_iff := ?_
      total_read := ?_ }
  · intro name data
    rw [pool_traverseDirectoryWrite, ObjectStore.content_writeAll_iff hempty hwritten,
      hperm.mem_iff]
  · have hle : ∀ object ∈ d.entries.walkPaths.flatMap
        (fun rel => writtenObjects disk (walkedPath d.path rel)),
        object.2.length ≤ chunkSize := by
      intro object hobject
      obtain ⟨rel, -, hmem⟩ := List.mem_flatMap.mp (hperm.mem_iff.mp hobject)
      exact (pieces_fileObjects _ _).length_le object hmem
    rw [pool_traverseDirectoryWrite, measureReadPerformance_writeAll hempty hwritten hle,
      (hperm.map _).sum_nat, sum_length_objects]

end

def logName : FileName where
  chars := ['a', '.', 'l', 'o', 'g']
  ne_nil := by decide
  ne_dot := by decide
  ne_dotdot := by decide
  slash_notMem := by decide

def textName : FileName where
  chars := ['b', '.', 't', 'x', 't']
  ne_nil := by decide
  ne_dot := by decide
  ne_dotdot := by decide
  slash_notMem := by decide

def nestedName : FileName where
  chars := ['s']
  ne_nil := by decide
  ne_dot := by decide
  ne_dotdot := by decide
  slash_notMem := by decide

/-- The files `a.log` and `b.txt`, and a directory `s` with another `a.log`. -/
def mixedDir : DataDir where
  path := ['d']
  entries := .file logName (.dir nestedName (.file logName .nil) (.file textName .nil))
  distinct := ⟨by decide, by decide, ⟨by decide, trivial⟩, by decide, trivial⟩

/-- The `a.log` of `s` is one byte too large for one object. -/
def mixedDisk : Disk := fun path =>
  if path = ['d', '/', 's', '/', 'a', '.', 'l', 'o', 'g'] then List.replicate (chunkSize + 1) 7
  else [7]

theorem storesWorkload_mixed :
    StoresWorkload (ObjectStore.ofKeyed Text UInt8) mixedDisk mixedDir
      ({} : KeyedStore Text (List UInt8)) :=
  storesWorkload (fun _ => rfl) mixedDir

example : workloadPaths mixedDir = [[logName], [nestedName, logName]] := by decide

end DpuTest.CephCompress
