import Mathlib.Data.List.Perm.Basic
import Mathlib.Data.List.Nodup
import Mathlib.Tactic.Common

/-!
# Directory trees

The entries of a directory are files and directories with names of their own.
`Entries.walk` visits every directory once and lists the files in it, which is
how a program sees a tree.  `Entries.paths` lists the paths of the files by
recursion over the tree.  Both list the same paths (`perm_walkPaths`), and a
path is listed once (`nodup_walkPaths`).
-/

namespace DpuTest.Lib

/-- The name of a directory entry. -/
structure FileName where
  chars : List Char
  ne_nil : chars ≠ []
  ne_dot : chars ≠ ['.']
  ne_dotdot : chars ≠ ['.', '.']
  slash_notMem : '/' ∉ chars
  deriving DecidableEq

theorem FileName.chars_injective : Function.Injective FileName.chars := by
  rintro ⟨chars, _, _, _, _⟩ ⟨chars', _, _, _, _⟩ h
  cases h
  rfl

/-- The entries of a directory, one after the other. -/
inductive Entries where
  | nil
  | file (name : FileName) (rest : Entries)
  | dir (name : FileName) (sub rest : Entries)

namespace Entries

def names : Entries → List FileName
  | nil => []
  | file name rest => name :: rest.names
  | dir name _ rest => name :: rest.names

def fileNames : Entries → List FileName
  | nil => []
  | file name rest => name :: rest.fileNames
  | dir _ _ rest => rest.fileNames

/-- No two entries of one directory have the same name. -/
def Distinct : Entries → Prop
  | nil => True
  | file name rest => name ∉ rest.names ∧ rest.Distinct
  | dir name sub rest => name ∉ rest.names ∧ sub.Distinct ∧ rest.Distinct

/-- The directories below a directory, each with the files in it. -/
def walkBelow (here : List FileName) : Entries → List (List FileName × List FileName)
  | nil => []
  | file _ rest => rest.walkBelow here
  | dir name sub rest =>
    (here ++ [name], sub.fileNames) :: sub.walkBelow (here ++ [name]) ++ rest.walkBelow here

/-- All directories of a tree, the tree itself first. -/
def walk (e : Entries) : List (List FileName × List FileName) := ([], e.fileNames) :: e.walkBelow []

/-- The files of one directory that a walk finds. -/
def pathsIn (d : List FileName × List FileName) : List (List FileName) :=
  d.2.map (fun name => d.1 ++ [name])

/-- The files of a tree in the order of a walk. -/
def walkPaths (e : Entries) : List (List FileName) := e.walk.flatMap pathsIn

/-- The files of a tree by recursion. -/
def paths : Entries → List (List FileName)
  | nil => []
  | file name rest => [name] :: rest.paths
  | dir name sub rest => sub.paths.map (name :: ·) ++ rest.paths

theorem perm_walkBelow (here : List FileName) (e : Entries) :
    (pathsIn (here, e.fileNames) ++ (e.walkBelow here).flatMap pathsIn).Perm
      (e.paths.map (here ++ ·)) := by
  induction e generalizing here with
  | nil => exact List.Perm.refl _
  | file name rest ih =>
    exact (ih here).cons (here ++ [name])
  | dir name sub rest ihsub ihrest =>
    have hsub := ihsub (here ++ [name])
    have hrest := ihrest here
    simp only [List.append_assoc, List.singleton_append] at hsub
    rw [walkBelow, fileNames, paths, List.map_append, List.map_map, List.cons_append,
      List.flatMap_cons, List.flatMap_append]
    -- The files of the directory itself stand before those of the subdirectory.
    refine List.Perm.trans ?_ (hsub.append hrest)
    rw [← List.append_assoc, ← List.append_assoc, ← List.append_assoc]
    refine List.Perm.append_right _ ?_
    rw [List.append_assoc]
    exact List.perm_append_comm

theorem perm_walkPaths (e : Entries) : e.walkPaths.Perm e.paths := by
  have h := perm_walkBelow [] e
  rw [List.map_congr_left (fun p _ => List.nil_append p), List.map_id'] at h
  exact h

/-- A path starts with an entry of the directory. -/
theorem head_mem_names {e : Entries} {p : List FileName} (h : p ∈ e.paths) :
    ∃ name ∈ e.names, ∃ below, p = name :: below := by
  induction e with
  | nil => cases h
  | file name rest ih =>
    rcases List.mem_cons.mp h with rfl | h
    · exact ⟨name, List.mem_cons_self, [], rfl⟩
    · obtain ⟨n, hn, hp⟩ := ih h
      exact ⟨n, List.mem_cons_of_mem _ hn, hp⟩
  | dir name sub rest _ ih =>
    rcases List.mem_append.mp h with h | h
    · obtain ⟨below, _, rfl⟩ := List.mem_map.mp h
      exact ⟨name, List.mem_cons_self, below, rfl⟩
    · obtain ⟨n, hn, hp⟩ := ih h
      exact ⟨n, List.mem_cons_of_mem _ hn, hp⟩

theorem cons_notMem_paths {e : Entries} {name : FileName} (h : name ∉ e.names)
    (below : List FileName) : name :: below ∉ e.paths := by
  intro hmem
  obtain ⟨n, hn, b, heq⟩ := head_mem_names hmem
  cases heq
  exact h hn

theorem nodup_paths {e : Entries} (h : e.Distinct) : e.paths.Nodup := by
  induction e with
  | nil => exact List.nodup_nil
  | file name rest ih => exact List.nodup_cons.mpr ⟨cons_notMem_paths h.1 [], ih h.2⟩
  | dir name sub rest ihsub ihrest =>
    have hcons : Function.Injective (fun p : List FileName => name :: p) :=
      fun _ _ heq => (List.cons.inj heq).2
    refine List.nodup_append.mpr ⟨(ihsub h.2.1).map hcons, ihrest h.2.2, ?_⟩
    intro p hp q hq heq
    obtain ⟨below, _, rfl⟩ := List.mem_map.mp hp
    rw [← heq] at hq
    exact cons_notMem_paths h.1 below hq

theorem nodup_walkPaths {e : Entries} (h : e.Distinct) : e.walkPaths.Nodup :=
  (perm_walkPaths e).nodup_iff.mpr (nodup_paths h)

end Entries

end DpuTest.Lib
