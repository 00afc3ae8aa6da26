import DpuTest.Lib.Buffer
import Mathlib.Logic.Relation

/-!
# Walks with a path buffer

A program walks a directory by recursion, and makes the path of an entry with `snprintf`
in a buffer of `capacity` bytes.  A path that does not fit is cut off.

A file system is what `opendir` and `stat` answer for a path.  `walk` lists the regular
files that are wanted, for a depth of the recursion.

* `walkEnds_iff`: the recursion ends if and only if it does not reach a directory whose
  path fills the buffer and that has an entry.  There the cut-off path is that of the
  directory itself.
* `mem_iff_of_walkEnds`: it lists the wanted files of the directories that it reaches.
* `walk_of_shows`: where the paths of a tree fit, each wanted file is listed exactly once.
-/

namespace DpuTest.Lib

inductive FileKind where
  | directory
  | regular
  | other
  deriving DecidableEq

/-- What `opendir` and `readdir` answer for a path, and `stat`. -/
structure FileSystem where
  opendir : List UInt8 → Option (List (List UInt8))
  stat : List UInt8 → Option FileKind
  name_ne_nil : ∀ path names, opendir path = some names → ∀ name ∈ names, name ≠ []

/-- `"."` and `".."` -/
def IsDots (name : List UInt8) : Prop := name = [46] ∨ name = [46, 46]

instance (name : List UInt8) : Decidable (IsDots name) := inferInstanceAs (Decidable (_ ∨ _))

/-- `snprintf(path, capacity, "%s/%s", base, name)` -/
def joinPath (capacity : Nat) (base name : List UInt8) : List UInt8 :=
  (base ++ 47 :: name).take (capacity - 1)

section

variable (fs : FileSystem) (capacity : Nat) (wanted : List UInt8 → Bool)

/-- One entry of a directory, with what is done about a directory. -/
def walkEntry (below : List UInt8 → Option (List (List UInt8))) (base name : List UInt8) :
    Option (List (List UInt8)) :=
  if IsDots name then some []
  else
    match fs.stat (joinPath capacity base name) with
    | some .directory => below (joinPath capacity base name)
    | some .regular => some (if wanted name then [joinPath capacity base name] else [])
    | some .other => some []
    | none => some []

/-- The wanted files below a directory, for a depth of the recursion. -/
def walk : Nat → List UInt8 → Option (List (List UInt8))
  | 0, _ => none
  | depth + 1, base =>
    match fs.opendir base with
    | none => some []
    | some names => (names.mapM (walkEntry fs capacity wanted (walk depth) base)).map List.flatten

/-- The recursion ends. -/
def WalkEnds (base : List UInt8) (files : List (List UInt8)) : Prop :=
  ∃ depth, walk fs capacity wanted depth base = some files

/-- The walk goes from one path on to the other. -/
def Child (base path : List UInt8) : Prop :=
  ∃ names name, fs.opendir base = some names ∧ name ∈ names ∧ ¬ IsDots name ∧
    path = joinPath capacity base name ∧ fs.stat path = some .directory

/-- A wanted file in a directory that the walk reaches. -/
def ReachesFile (base file : List UInt8) : Prop :=
  ∃ path names name, Relation.ReflTransGen (Child fs capacity) base path ∧
    fs.opendir path = some names ∧ name ∈ names ∧ ¬ IsDots name ∧
    file = joinPath capacity path name ∧ fs.stat file = some .regular ∧ wanted name = true

end

section

variable {fs : FileSystem} {capacity : Nat} {wanted : List UInt8 → Bool}
  {base path name : List UInt8} {files : List (List UInt8)} {depth : Nat}

theorem exists_of_mapM {α β : Type} {f : α → Option β} {l : List α} {r : List β}
    (h : l.mapM f = some r) : ∀ x ∈ l, ∃ y, f x = some y := by
  induction l generalizing r with
  | nil =>
    intro x hx
    cases hx
  | cons a l ih =>
    rw [List.mapM_cons] at h
    obtain ⟨b, hb, hrest⟩ := Option.bind_eq_some_iff.mp h
    obtain ⟨bs, hbs, -⟩ := Option.bind_eq_some_iff.mp hrest
    intro x hx
    rcases List.mem_cons.mp hx with rfl | hmem
    · exact ⟨b, hb⟩
    · exact ih hbs x hmem

/-- A function that answers for every element. -/
theorem mapM_of_isSome {α β : Type} {f : α → Option (List β)} {l : List α}
    (h : ∀ x ∈ l, (f x).isSome) :
    (l.mapM f).map List.flatten = some (l.flatMap fun x => (f x).getD []) := by
  have hsome : ∀ x ∈ l, f x = some ((f x).getD []) := by
    intro x hx
    obtain ⟨y, hy⟩ := Option.isSome_iff_exists.mp (h x hx)
    rw [hy, Option.getD_some]
  rw [mapM_eq_pure hsome, Option.pure_def, Option.map_some, List.flatMap_def]

/-- What is done about a directory may answer more often. -/
theorem walkEntry_mono {below below' : List UInt8 → Option (List (List UInt8))}
    (hbelow : ∀ path files, below path = some files → below' path = some files)
    (h : walkEntry fs capacity wanted below base name = some files) :
    walkEntry fs capacity wanted below' base name = some files := by
  rw [walkEntry] at h ⊢
  split
  · rename_i hdots
    rw [if_pos hdots] at h
    exact h
  · rename_i hdots
    rw [if_neg hdots] at h
    split
    · rename_i hstat
      rw [hstat] at h
      exact hbelow _ _ h
    all_goals
      rename_i hstat
      rw [hstat] at h
      exact h

/-- A directory that can be walked. -/
theorem walk_of_isSome {names : List (List UInt8)} (hopen : fs.opendir base = some names)
    (h : ∀ name ∈ names,
      (walkEntry fs capacity wanted (walk fs capacity wanted depth) base name).isSome) :
    walk fs capacity wanted (depth + 1) base = some (names.flatMap fun name =>
      (walkEntry fs capacity wanted (walk fs capacity wanted depth) base name).getD []) := by
  rw [walk, hopen]
  exact mapM_of_isSome h

/-- The entries of a directory that has been walked. -/
theorem isSome_of_walk {names : List (List UInt8)} (hopen : fs.opendir base = some names)
    (h : walk fs capacity wanted (depth + 1) base = some files) :
    ∀ name ∈ names,
      (walkEntry fs capacity wanted (walk fs capacity wanted depth) base name).isSome := by
  rw [walk, hopen] at h
  obtain ⟨lists, hlists, -⟩ := Option.map_eq_some_iff.mp h
  intro name hname
  exact Option.isSome_iff_exists.mpr (exists_of_mapM hlists name hname)

theorem walk_of_closed (hopen : fs.opendir base = none) :
    walk fs capacity wanted (depth + 1) base = some [] := by
  rw [walk, hopen]

/-- More depth does not change the answer. -/
theorem walk_succ (h : walk fs capacity wanted depth base = some files) :
    walk fs capacity wanted (depth + 1) base = some files := by
  induction depth generalizing base files with
  | zero => cases h
  | succ depth ih =>
    cases hopen : fs.opendir base with
    | none =>
      rw [walk_of_closed hopen] at h ⊢
      exact h
    | some names =>
      have hnames := isSome_of_walk hopen h
      have hsame : ∀ name ∈ names, ∃ below,
          walkEntry fs capacity wanted (walk fs capacity wanted depth) base name = some below ∧
            walkEntry fs capacity wanted (walk fs capacity wanted (depth + 1)) base name =
              some below := by
        intro name hname
        obtain ⟨below, hbelow⟩ := Option.isSome_iff_exists.mp (hnames name hname)
        exact ⟨below, hbelow, walkEntry_mono (fun _ _ => ih) hbelow⟩
      rw [walk_of_isSome hopen hnames] at h
      rw [walk_of_isSome hopen, ← h, List.flatMap_congr]
      · intro name hname
        obtain ⟨below, hbelow, hbelow'⟩ := hsame name hname
        rw [hbelow, hbelow']
      · intro name hname
        obtain ⟨below, -, hbelow'⟩ := hsame name hname
        rw [hbelow']
        rfl

theorem walk_mono {depth' : Nat} (h : walk fs capacity wanted depth base = some files)
    (hle : depth ≤ depth') : walk fs capacity wanted depth' base = some files := by
  induction hle with
  | refl => exact h
  | step _ ih => exact walk_succ ih

theorem WalkEnds.unique {files' : List (List UInt8)} (h : WalkEnds fs capacity wanted base files)
    (h' : WalkEnds fs capacity wanted base files') : files = files' := by
  obtain ⟨depth, h⟩ := h
  obtain ⟨depth', h'⟩ := h'
  have hmax := walk_mono h (Nat.le_max_left depth depth')
  rw [walk_mono h' (Nat.le_max_right depth depth')] at hmax
  exact (Option.some.inj hmax).symm

/-! ## When it ends -/

/-- A walk goes into every child, with less depth. -/
theorem walk_child (h : walk fs capacity wanted (depth + 1) base = some files)
    (hchild : Child fs capacity base path) :
    ∃ below, walk fs capacity wanted depth path = some below := by
  obtain ⟨names, name, hopen, hname, hdots, rfl, hstat⟩ := hchild
  have hentry := isSome_of_walk hopen h name hname
  rw [walkEntry, if_neg hdots, hstat] at hentry
  exact Option.isSome_iff_exists.mp hentry

/-- A directory that is its own child is not left. -/
theorem not_walk_of_self (hself : Child fs capacity base base) (depth : Nat) :
    walk fs capacity wanted depth base ≠ some files := by
  induction depth generalizing files with
  | zero =>
    intro h
    cases h
  | succ depth ih =>
    intro h
    obtain ⟨below, hbelow⟩ := walk_child h hself
    exact ih hbelow

theorem exists_walk_of_reaches (hreach : Relation.ReflTransGen (Child fs capacity) base path)
    (h : WalkEnds fs capacity wanted base files) :
    ∃ below, WalkEnds fs capacity wanted path below := by
  induction hreach with
  | refl => exact ⟨files, h⟩
  | tail _ hchild ih =>
    obtain ⟨below, depth, hwalk⟩ := ih
    cases depth with
    | zero => cases hwalk
    | succ depth =>
      obtain ⟨files', hfiles'⟩ := walk_child hwalk hchild
      exact ⟨files', depth, hfiles'⟩

/-- How far a path is from filling the buffer. -/
def roomOf (capacity : Nat) (path : List UInt8) : Nat :=
  if path.length < capacity then capacity - 1 - path.length else capacity

/-- A child has less room, unless it is the directory itself. -/
theorem roomOf_child (hpos : 0 < capacity) (h : Child fs capacity base path) (hne : path ≠ base) :
    roomOf capacity path < roomOf capacity base := by
  obtain ⟨names, name, hopen, hname, -, rfl, -⟩ := h
  have hname' := List.length_pos_iff.mpr (fs.name_ne_nil base names hopen name hname)
  have hlen : (joinPath capacity base name).length =
      min (capacity - 1) (base.length + (name.length + 1)) := by
    rw [joinPath, List.length_take, List.length_append, List.length_cons]
  have hfull : base.length ≠ capacity - 1 := by
    intro hfull
    apply hne
    rw [joinPath, ← hfull, List.take_left]
  rw [roomOf, roomOf, hlen, if_pos (by omega)]
  split
  · omega
  · omega

/-- A directory is its own child when its path fills the buffer. -/
theorem child_self_iff (hpos : 0 < capacity) :
    Child fs capacity path path ↔ path.length = capacity - 1 ∧ fs.stat path = some .directory ∧
      ∃ names name, fs.opendir path = some names ∧ name ∈ names ∧ ¬ IsDots name := by
  constructor
  · rintro ⟨names, name, hopen, hname, hdots, hpath, hstat⟩
    refine ⟨?_, hstat, names, name, hopen, hname, hdots⟩
    have hlen := congrArg List.length hpath
    rw [joinPath, List.length_take, List.length_append, List.length_cons] at hlen
    omega
  · rintro ⟨hlen, hstat, names, name, hopen, hname, hdots⟩
    refine ⟨names, name, hopen, hname, hdots, ?_, hstat⟩
    rw [joinPath, ← hlen, List.take_left]

/-- The recursion ends if and only if no directory that it reaches has entries and a path
that fills the buffer. -/
theorem walkEnds_iff (hpos : 0 < capacity) :
    (∃ files, WalkEnds fs capacity wanted base files) ↔
      ∀ path, Relation.ReflTransGen (Child fs capacity) base path →
        path.length = capacity - 1 → fs.stat path = some .directory →
        ∀ names, fs.opendir path = some names → ∀ name ∈ names, IsDots name := by
  constructor
  · rintro ⟨files, h⟩ path hreach hlen hstat names hopen name hname
    by_contra hdots
    obtain ⟨below, depth, hwalk⟩ := exists_walk_of_reaches hreach h
    exact not_walk_of_self ((child_self_iff hpos).mpr
      ⟨hlen, hstat, names, name, hopen, hname, hdots⟩) depth hwalk
  · intro hnone
    have hself : ∀ path, Relation.ReflTransGen (Child fs capacity) base path →
        ¬ Child fs capacity path path := by
      intro path hreach hchild
      obtain ⟨hlen, hstat, names, name, hopen, hname, hdots⟩ := (child_self_iff hpos).mp hchild
      exact hdots (hnone path hreach hlen hstat names hopen name hname)
    suffices hwalk : ∀ path, Relation.ReflTransGen (Child fs capacity) base path →
        ∃ files, walk fs capacity wanted (roomOf capacity path + 1) path = some files by
      obtain ⟨files, h⟩ := hwalk base .refl
      exact ⟨files, _, h⟩
    intro path
    -- Every child leaves less room for those below it.
    induction hroom : roomOf capacity path using Nat.strongRecOn generalizing path with
    | ind room ih =>
      intro hreach
      cases hopen : fs.opendir path with
      | none => exact ⟨[], walk_of_closed hopen⟩
      | some names =>
        refine ⟨_, walk_of_isSome hopen fun name hname => ?_⟩
        rw [walkEntry]
        split
        · rfl
        · rename_i hdots
          split
          · rename_i hstat
            have hchild : Child fs capacity path (joinPath capacity path name) :=
              ⟨names, name, hopen, hname, hdots, rfl, hstat⟩
            have hlt := roomOf_child hpos hchild fun heq =>
              hself path hreach (by rwa [heq] at hchild)
            rw [hroom] at hlt
            obtain ⟨files, h⟩ := ih _ hlt _ rfl (hreach.tail hchild)
            rw [walk_mono h hlt]
            rfl
          all_goals rfl

/-! ## What it lists -/

theorem mem_walkEntry_iff {below : List UInt8 → Option (List (List UInt8))} {file : List UInt8}
    (h : walkEntry fs capacity wanted below base name = some files) :
    file ∈ files ↔ ¬ IsDots name ∧
      ((fs.stat (joinPath capacity base name) = some .directory ∧
          ∃ sub, below (joinPath capacity base name) = some sub ∧ file ∈ sub) ∨
        (fs.stat (joinPath capacity base name) = some .regular ∧ wanted name = true ∧
          file = joinPath capacity base name)) := by
  by_cases hdots : IsDots name
  · rw [walkEntry, if_pos hdots] at h
    cases h
    simp [hdots]
  rw [walkEntry, if_neg hdots] at h
  split at h
  · rename_i hstat
    simp [hdots, hstat, h]
  · rename_i hstat
    cases h
    cases hwanted : wanted name <;> simp [hdots, hstat]
  all_goals
    rename_i hstat
    cases h
    simp [hstat]

/-- A reached file is in the directory itself, or is reached from one of its directories. -/
theorem reachesFile_iff {names : List (List UInt8)} {file : List UInt8}
    (hopen : fs.opendir base = some names) :
    ReachesFile fs capacity wanted base file ↔ ∃ name ∈ names, ¬ IsDots name ∧
      ((fs.stat (joinPath capacity base name) = some .directory ∧
          ReachesFile fs capacity wanted (joinPath capacity base name) file) ∨
        (fs.stat (joinPath capacity base name) = some .regular ∧ wanted name = true ∧
          file = joinPath capacity base name)) := by
  constructor
  · rintro ⟨path, names', name, hreach, hpath, hname, hdots, hfile, hstat, hwanted⟩
    rcases Relation.ReflTransGen.cases_head hreach with rfl | ⟨child, hchild, hrest⟩
    · rw [hopen] at hpath
      cases hpath
      exact ⟨name, hname, hdots, .inr ⟨hfile ▸ hstat, hwanted, hfile⟩⟩
    · obtain ⟨_, name₁, hbase, hname₁, hdots₁, rfl, hstat₁⟩ := hchild
      rw [hopen] at hbase
      cases hbase
      exact ⟨name₁, hname₁, hdots₁, .inl ⟨hstat₁,
        path, names', name, hrest, hpath, hname, hdots, hfile, hstat, hwanted⟩⟩
  · rintro ⟨name, hname, hdots, ⟨hstat, path, names', name', hreach, hrest⟩ |
      ⟨hstat, hwanted, rfl⟩⟩
    · exact ⟨path, names', name', hreach.head ⟨names, name, hopen, hname, hdots, rfl, hstat⟩, hrest⟩
    · exact ⟨base, names, name, .refl, hopen, hname, hdots, rfl, hstat, hwanted⟩

theorem not_reachesFile_of_closed {file : List UInt8} (hopen : fs.opendir base = none) :
    ¬ ReachesFile fs capacity wanted base file := by
  rintro ⟨path, names, name, hreach, hpath, -⟩
  rcases Relation.ReflTransGen.cases_head hreach with rfl | ⟨child, ⟨_, _, hbase, -⟩, -⟩
  · rw [hopen] at hpath
    cases hpath
  · rw [hopen] at hbase
    cases hbase

/-- A walk that ends lists the files that it reaches. -/
theorem mem_iff_of_walkEnds {file : List UInt8} (h : WalkEnds fs capacity wanted base files) :
    file ∈ files ↔ ReachesFile fs capacity wanted base file := by
  obtain ⟨depth, h⟩ := h
  induction depth generalizing base files with
  | zero => cases h
  | succ depth ih =>
    cases hopen : fs.opendir base with
    | none =>
      rw [walk_of_closed hopen] at h
      cases h
      exact iff_of_false List.not_mem_nil (not_reachesFile_of_closed hopen)
    | some names =>
      have hentries := isSome_of_walk hopen h
      rw [walk_of_isSome hopen hentries] at h
      cases h
      rw [List.mem_flatMap, reachesFile_iff hopen]
      refine exists_congr fun name => and_congr_right fun hname => ?_
      obtain ⟨entry, hentry⟩ := Option.isSome_iff_exists.mp (hentries name hname)
      rw [hentry, Option.getD_some, mem_walkEntry_iff hentry]
      refine and_congr_right fun hdots => or_congr_left (and_congr_right fun hstat => ?_)
      rw [walkEntry, if_neg hdots, hstat] at hentry
      constructor
      · rintro ⟨sub, hsub, hmem⟩
        exact (ih hsub).mp hmem
      · intro hreaches
        exact ⟨entry, hentry, (ih hentry).mpr hreaches⟩

/-! ## Trees -/

end

/-- The entries of a directory, one after the other. -/
inductive DirTree where
  | nil
  | file (name content : List UInt8) (rest : DirTree)
  | other (name : List UInt8) (rest : DirTree)
  | dir (name : List UInt8) (sub rest : DirTree)

namespace DirTree

def names : DirTree → List (List UInt8)
  | nil => []
  | file name _ rest => name :: rest.names
  | other name rest => name :: rest.names
  | dir name _ rest => name :: rest.names

/-- The depth of the recursion for a tree. -/
def depth : DirTree → Nat
  | nil => 0
  | file _ _ rest => rest.depth
  | other _ rest => rest.depth
  | dir _ sub rest => max (sub.depth + 1) rest.depth

/-- The contents of the wanted files. -/
def contents (wanted : List UInt8 → Bool) : DirTree → List (List UInt8)
  | nil => []
  | file name content rest =>
    if wanted name then content :: rest.contents wanted else rest.contents wanted
  | other _ rest => rest.contents wanted
  | dir _ sub rest => sub.contents wanted ++ rest.contents wanted

end DirTree

section

variable (fs : FileSystem) (capacity : Nat) (wanted : List UInt8 → Bool)
  (content : List UInt8 → Option (List UInt8))

/-- A name below a directory, whose path fits. -/
def Fits (base name : List UInt8) : Prop :=
  ¬ IsDots name ∧ base.length + 1 + name.length < capacity

/-- `readdir` lists the entries, in any order, and the dots. -/
def Lists (base : List UInt8) (t : DirTree) : Prop :=
  ∃ names, fs.opendir base = some names ∧ (names.filter fun name => ¬ IsDots name).Perm t.names

/-- The entries of a tree are those of a directory, and the wanted files can be read. -/
def ShowsEntries : List UInt8 → DirTree → Prop
  | _, .nil => True
  | base, .file name c rest =>
    Fits capacity base name ∧ fs.stat (base ++ 47 :: name) = some .regular ∧
      (wanted name = true → content (base ++ 47 :: name) = some c) ∧ ShowsEntries base rest
  | base, .other name rest =>
    Fits capacity base name ∧ fs.stat (base ++ 47 :: name) = some .other ∧ ShowsEntries base rest
  | base, .dir name sub rest =>
    Fits capacity base name ∧ fs.stat (base ++ 47 :: name) = some .directory ∧
      Lists fs (base ++ 47 :: name) sub ∧ ShowsEntries (base ++ 47 :: name) sub ∧
      ShowsEntries base rest

/-- The file system has a tree below a path, and all paths in it fit. -/
def Shows (base : List UInt8) (t : DirTree) : Prop :=
  Lists fs base t ∧ ShowsEntries fs capacity wanted content base t

end

section

variable {fs : FileSystem} {capacity : Nat} {wanted : List UInt8 → Bool}
  {content : List UInt8 → Option (List UInt8)} {base name : List UInt8} {depth : Nat} {t : DirTree}

theorem joinPath_of_fits (h : Fits capacity base name) :
    joinPath capacity base name = base ++ 47 :: name := by
  have hlen := h.2
  rw [joinPath]
  apply List.take_of_length_le
  rw [List.length_append, List.length_cons]
  omega

/-- What an entry comes to. -/
def entryFiles (fs : FileSystem) (capacity : Nat) (wanted : List UInt8 → Bool) (depth : Nat)
    (base name : List UInt8) : List (List UInt8) :=
  (walkEntry fs capacity wanted (walk fs capacity wanted depth) base name).getD []

/-- What the entries of a tree come to, at the depth for their directories. -/
structure Walked (fs : FileSystem) (capacity : Nat) (wanted : List UInt8 → Bool)
    (content : List UInt8 → Option (List UInt8)) (depth : Nat) (base : List UInt8)
    (t : DirTree) : Prop where
  isSome : ∀ name ∈ t.names,
    (walkEntry fs capacity wanted (walk fs capacity wanted depth) base name).isSome
  contents_perm : ((t.names.flatMap (entryFiles fs capacity wanted depth base)).map content).Perm
    ((t.contents wanted).map some)

/-- Elements that come to nothing can be left out. -/
theorem flatMap_filter {α β : Type} {f : α → List β} {p : α → Prop} [DecidablePred p]
    {l : List α} (h : ∀ x ∈ l, ¬ p x → f x = []) :
    (l.filter fun x => p x).flatMap f = l.flatMap f := by
  induction l with
  | nil => rfl
  | cons x l ih =>
    have hrest := ih fun y hy => h y (List.mem_cons_of_mem x hy)
    by_cases hx : p x
    · rw [List.filter_cons_of_pos (by simpa using hx), List.flatMap_cons, List.flatMap_cons, hrest]
    · rw [List.filter_cons_of_neg (by simpa using hx), List.flatMap_cons, hrest,
        h x List.mem_cons_self hx, List.nil_append]

/-- A directory whose entries are walked. -/
theorem Walked.walk (hlists : Lists fs base t)
    (h : Walked fs capacity wanted content depth base t) :
    ∃ files, Lib.walk fs capacity wanted (depth + 1) base = some files ∧
      (files.map content).Perm ((t.contents wanted).map some) := by
  obtain ⟨names, hopen, hperm⟩ := hlists
  have hnames : ∀ name ∈ names, ¬ IsDots name → name ∈ t.names := by
    intro name hname hdots
    exact hperm.mem_iff.mp (List.mem_filter.mpr ⟨hname, by simpa using hdots⟩)
  refine ⟨_, walk_of_isSome hopen fun name hname => ?_, ?_⟩
  · by_cases hdots : IsDots name
    · rw [walkEntry, if_pos hdots]
      rfl
    · exact h.isSome name (hnames name hname hdots)
  · refine List.Perm.trans ?_ h.contents_perm
    apply List.Perm.map
    have hnone : ∀ name ∈ names, ¬ ¬ IsDots name →
        entryFiles fs capacity wanted depth base name = [] := by
      intro name _ hdots
      rw [entryFiles, walkEntry, if_pos (not_not.mp hdots)]
      rfl
    have hfilter := flatMap_filter hnone
    show (names.flatMap (entryFiles fs capacity wanted depth base)).Perm _
    rw [← hfilter]
    exact hperm.flatMap_right _

/-- The entries of a tree are walked, whatever the order in which they are listed. -/
theorem walked_of_showsEntries (hdepth : t.depth ≤ depth)
    (h : ShowsEntries fs capacity wanted content base t) :
    Walked fs capacity wanted content depth base t := by
  induction t generalizing base depth with
  | nil => exact ⟨fun name hname => absurd hname List.not_mem_nil, List.Perm.refl _⟩
  | file name c rest ih =>
    obtain ⟨hfits, hstat, hcontent, hrest⟩ := h
    have hwalked := ih hdepth hrest
    have hentry : walkEntry fs capacity wanted (walk fs capacity wanted depth) base name =
        some (if wanted name then [base ++ 47 :: name] else []) := by
      rw [walkEntry, if_neg hfits.1, joinPath_of_fits hfits, hstat]
    refine ⟨List.forall_mem_cons.mpr ⟨?_, hwalked.isSome⟩, ?_⟩
    · rw [hentry]
      rfl
    · rw [DirTree.names, List.flatMap_cons, List.map_append, entryFiles, hentry,
        Option.getD_some, DirTree.contents]
      split
      · rename_i hwanted
        rw [List.map_singleton, hcontent hwanted]
        exact hwalked.contents_perm.cons (some c)
      · exact hwalked.contents_perm
  | other name rest ih =>
    obtain ⟨hfits, hstat, hrest⟩ := h
    have hwalked := ih hdepth hrest
    have hentry : walkEntry fs capacity wanted (walk fs capacity wanted depth) base name =
        some [] := by
      rw [walkEntry, if_neg hfits.1, joinPath_of_fits hfits, hstat]
    refine ⟨List.forall_mem_cons.mpr ⟨?_, hwalked.isSome⟩, ?_⟩
    · rw [hentry]
      rfl
    · rw [DirTree.names, List.flatMap_cons, entryFiles, hentry]
      exact hwalked.contents_perm
  | dir name sub rest ihsub ihrest =>
    obtain ⟨hfits, hstat, hlists, hsub, hrest⟩ := h
    have hle : max (sub.depth + 1) rest.depth ≤ depth := hdepth
    have hwalked := ihrest (Nat.le_trans (Nat.le_max_right _ _) hle) hrest
    obtain ⟨below, rfl⟩ : ∃ below, depth = below + 1 :=
      ⟨depth - 1, by omega⟩
    have hbelow := ihsub (Nat.le_of_succ_le_succ (Nat.le_trans (Nat.le_max_left _ _) hle)) hsub
    obtain ⟨files, hfiles, hperm⟩ := hbelow.walk hlists
    have hentry : walkEntry fs capacity wanted (walk fs capacity wanted (below + 1)) base name =
        some files := by
      rw [walkEntry, if_neg hfits.1, joinPath_of_fits hfits, hstat]
      exact hfiles
    refine ⟨List.forall_mem_cons.mpr ⟨?_, hwalked.isSome⟩, ?_⟩
    · rw [hentry]
      rfl
    · rw [DirTree.names, List.flatMap_cons, List.map_append, entryFiles, hentry,
        Option.getD_some, DirTree.contents, List.map_append]
      exact hperm.append hwalked.contents_perm

/-- The walk of a tree whose paths fit ends, and lists each wanted file once. -/
theorem walk_of_shows (h : Shows fs capacity wanted content base t) :
    ∃ files, WalkEnds fs capacity wanted base files ∧
      (files.map content).Perm ((t.contents wanted).map some) := by
  obtain ⟨files, hfiles, hperm⟩ :=
    (walked_of_showsEntries (Nat.le_refl t.depth) h.2).walk h.1
  exact ⟨files, ⟨_, hfiles⟩, hperm⟩

end

end DpuTest.Lib
