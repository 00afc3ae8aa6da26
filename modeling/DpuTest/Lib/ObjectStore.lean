import DpuTest.Lib.KeyedStore
import Mathlib.Data.List.Dedup
import Mathlib.Data.List.Perm.Basic

/-!
# Object stores

An `ObjectStore` is known by what its objects hold: a write puts data over the
start of an object and leaves what lies behind it, a read takes an object from its
start, and a listing names every object once, in some order.

Objects that are written once each into an empty store are what the store holds
afterwards (`content_writeAll_iff`), a listing is a permutation of their keys
(`perm_keys_writeAll`), and each of them reads back (`read_writeAll`).
`ofKeyed` is a store that keeps the history of its writes.

A `ReplacingStore` can also put data in the place of an object.  Objects that are put once each
read back, whatever the store held before (`read_replaceAll`).

The objects of an `ErasableStore` can be removed.  Removing what is listed leaves nothing
(`empty_clear`).
-/

namespace DpuTest.Lib

/-- A store of byte strings under keys; `ε` is how a read fails. -/
structure ObjectStore (κ β ε : Type) where
  State : Type
  content : State → κ → Option (List β)
  write : State → κ → List β → State
  read : State → κ → Nat → Except ε (List β)
  keys : State → List κ
  content_write_self : ∀ (s : State) (k : κ) (data : List β),
    content (write s k data) k = some (data ++ ((content s k).getD []).drop data.length)
  content_write_of_ne : ∀ (s : State) (k : κ) (data : List β) {k' : κ}, k' ≠ k →
    content (write s k data) k' = content s k'
  read_of_content : ∀ {s : State} {k : κ} {data : List β} (n : Nat), content s k = some data →
    read s k n = .ok (data.take n)
  nodup_keys : ∀ s : State, (keys s).Nodup
  mem_keys : ∀ {s : State} {k : κ}, k ∈ keys s ↔ content s k ≠ none

namespace ObjectStore

variable {κ β ε : Type} {store : ObjectStore κ β ε} {s : store.State}
  {objects : List (κ × List β)} {k : κ} {data : List β}

/-- There are no objects. -/
def Empty (store : ObjectStore κ β ε) (s : store.State) : Prop := ∀ k, store.content s k = none

/-- Write one object after the other. -/
def writeAll (store : ObjectStore κ β ε) (s : store.State) (objects : List (κ × List β)) :
    store.State :=
  objects.foldl (fun s object => store.write s object.1 object.2) s

@[simp] theorem writeAll_nil (store : ObjectStore κ β ε) (s : store.State) :
    store.writeAll s [] = s := rfl

@[simp] theorem writeAll_cons (store : ObjectStore κ β ε) (s : store.State) (object : κ × List β)
    (objects : List (κ × List β)) : store.writeAll s (object :: objects) =
      store.writeAll (store.write s object.1 object.2) objects := rfl

theorem writeAll_append (store : ObjectStore κ β ε) (s : store.State)
    (before after : List (κ × List β)) : store.writeAll s (before ++ after) =
      store.writeAll (store.writeAll s before) after :=
  List.foldl_append

/-- A new object holds what was written. -/
theorem content_write_of_none (h : store.content s k = none) :
    store.content (store.write s k data) k = some data := by
  rw [store.content_write_self, h, Option.getD_none, List.drop_nil, List.append_nil]

/-- New objects with keys of their own stand beside what was there. -/
theorem content_writeAll (hnodup : (objects.map Prod.fst).Nodup)
    (hnew : ∀ object ∈ objects, store.content s object.1 = none) :
    store.content (store.writeAll s objects) k = some data ↔
      store.content s k = some data ∨ (k, data) ∈ objects := by
  induction objects generalizing s with
  | nil => simp
  | cons object objects ih =>
    rw [List.map_cons, List.nodup_cons] at hnodup
    have hthis := hnew object List.mem_cons_self
    have hrest : ∀ o ∈ objects, store.content (store.write s object.1 object.2) o.1 = none := by
      intro o ho
      have hne : o.1 ≠ object.1 := by
        intro heq
        exact hnodup.1 (heq ▸ List.mem_map_of_mem ho)
      rw [store.content_write_of_ne _ _ _ hne]
      exact hnew o (List.mem_cons_of_mem _ ho)
    rw [writeAll_cons, ih hnodup.2 hrest, List.mem_cons]
    by_cases hk : k = object.1
    · subst hk
      rw [content_write_of_none hthis, hthis]
      simp [Prod.ext_iff, eq_comm]
    · rw [store.content_write_of_ne _ _ _ hk]
      simp [Prod.ext_iff, hk]

section Fresh

variable (hempty : store.Empty s) (hnodup : (objects.map Prod.fst).Nodup)

include hempty hnodup

/-- An empty store holds afterwards what was written. -/
theorem content_writeAll_iff :
    store.content (store.writeAll s objects) k = some data ↔ (k, data) ∈ objects := by
  rw [content_writeAll hnodup (fun object _ => hempty object.1), hempty k]
  simp

/-- A listing is a permutation of the keys that were written. -/
theorem perm_keys_writeAll :
    (store.keys (store.writeAll s objects)).Perm (objects.map Prod.fst) := by
  refine (List.perm_ext_iff_of_nodup (store.nodup_keys _) hnodup).mpr fun k => ?_
  rw [store.mem_keys, Option.ne_none_iff_exists', List.mem_map]
  constructor
  · rintro ⟨data, hdata⟩
    exact ⟨(k, data), (content_writeAll_iff hempty hnodup).mp hdata, rfl⟩
  · rintro ⟨object, hobject, rfl⟩
    exact ⟨object.2, (content_writeAll_iff hempty hnodup).mpr hobject⟩

/-- Every object reads back from its start. -/
theorem read_writeAll {object : κ × List β} (n : Nat) (h : object ∈ objects) :
    store.read (store.writeAll s objects) object.1 n = .ok (object.2.take n) :=
  store.read_of_content n ((content_writeAll_iff hempty hnodup).mpr h)

end Fresh

/-- A store that is the history of what its objects have held. -/
def ofKeyed (κ β : Type) [DecidableEq κ] : ObjectStore κ β Unit where
  State := KeyedStore κ (List β)
  content s k := s.get k
  write s k data := s.put k (data ++ ((s.get k).getD []).drop data.length)
  read s k n := ((s.get k).map (List.take n)).elim (.error ()) .ok
  keys s := s.keys.dedup
  content_write_self s k data := s.get_put_self k _
  content_write_of_ne s k data _ h := s.get_put_of_ne h _
  read_of_content n h := by rw [h]; rfl
  nodup_keys s := s.keys.nodup_dedup
  mem_keys := List.mem_dedup.trans KeyedStore.mem_keys_iff

end ObjectStore

/-! ## Replacing -/

/-- A store whose objects can be replaced. -/
structure ReplacingStore (κ β ε : Type) extends ObjectStore κ β ε where
  writeFull : State → κ → List β → State
  content_writeFull_self : ∀ (s : State) (k : κ) (data : List β),
    content (writeFull s k data) k = some data
  content_writeFull_of_ne : ∀ (s : State) (k : κ) (data : List β) {k' : κ}, k' ≠ k →
    content (writeFull s k data) k' = content s k'

namespace ReplacingStore

variable {κ β ε : Type} (store : ReplacingStore κ β ε)

/-- Put one object after the other. -/
def replaceAll (s : store.State) (objects : List (κ × List β)) : store.State :=
  objects.foldl (fun s object => store.writeFull s object.1 object.2) s

variable {store} [DecidableEq κ] {s : store.State} {objects : List (κ × List β)}

theorem content_writeFull (k : κ) (data : List β) :
    store.content (store.writeFull s k data) =
      Function.update (store.content s) k (some data) := by
  funext k'
  by_cases hk : k' = k
  · rw [hk, store.content_writeFull_self, Function.update_self]
  · rw [store.content_writeFull_of_ne s k data hk, Function.update_of_ne hk]

theorem content_replaceAll (s : store.State) (objects : List (κ × List β)) :
    store.content (store.replaceAll s objects) = putAll (store.content s) objects := by
  rw [replaceAll]
  induction objects generalizing s with
  | nil => rfl
  | cons object objects ih => rw [List.foldl_cons, ih, content_writeFull, putAll_cons]

/-- Every object reads back from its start. -/
theorem read_replaceAll (hnodup : (objects.map Prod.fst).Nodup) {object : κ × List β} (n : Nat)
    (h : object ∈ objects) :
    store.read (store.replaceAll s objects) object.1 n = .ok (object.2.take n) := by
  refine store.read_of_content n ?_
  rw [content_replaceAll]
  exact putAll_of_mem _ hnodup h

/-- The history of a store, whose puts replace what was there. -/
def ofKeyed (κ β : Type) [DecidableEq κ] : ReplacingStore κ β Unit where
  toObjectStore := ObjectStore.ofKeyed κ β
  writeFull := KeyedStore.put
  content_writeFull_self := KeyedStore.get_put_self
  content_writeFull_of_ne s _ data _ h := KeyedStore.get_put_of_ne s h data

end ReplacingStore

/-! ## Removing -/

/-- A store whose objects can be removed. -/
structure ErasableStore (κ β ε : Type) extends ObjectStore κ β ε where
  remove : State → κ → Except ε State
  exists_remove : ∀ {s : State} {k : κ}, content s k ≠ none → ∃ s', remove s k = .ok s'
  content_remove_self : ∀ {s s' : State} {k : κ}, remove s k = .ok s' → content s' k = none
  content_remove_of_ne : ∀ {s s' : State} {k k' : κ}, remove s k = .ok s' → k' ≠ k →
    content s' k' = content s k'

namespace ErasableStore

variable {κ β ε : Type} (store : ErasableStore κ β ε)

/-- Remove objects, up to the first that cannot be removed. -/
def removeFrom : List κ → store.State → store.State
  | [], s => s
  | k :: ks, s =>
    match store.remove s k with
    | .ok s' => removeFrom ks s'
    | .error _ => s

/-- Remove all objects that are listed. -/
def clear (s : store.State) : store.State := store.removeFrom (store.keys s) s

variable {store} {s : store.State}

theorem empty_removeFrom {ks : List κ} (hnodup : ks.Nodup)
    (hkeys : ∀ k, k ∈ ks ↔ store.content s k ≠ none) : store.Empty (store.removeFrom ks s) := by
  induction ks generalizing s with
  | nil =>
    intro k
    by_contra hk
    exact List.not_mem_nil ((hkeys k).mpr hk)
  | cons k ks ih =>
    obtain ⟨hnotMem, hnodup⟩ := List.nodup_cons.mp hnodup
    obtain ⟨s', hremove⟩ := store.exists_remove ((hkeys k).mp List.mem_cons_self)
    rw [removeFrom, hremove]
    refine ih hnodup fun k' => ?_
    by_cases hk : k' = k
    · rw [hk, store.content_remove_self hremove]
      simp [hnotMem]
    · rw [store.content_remove_of_ne hremove hk, ← hkeys k', List.mem_cons]
      simp [hk]

theorem empty_clear (s : store.State) : store.Empty (store.clear s) :=
  empty_removeFrom (store.nodup_keys s) fun _ => store.mem_keys

/-- The history of a store, without the objects that have been removed. -/
def ofKeyed (κ β : Type) [DecidableEq κ] : ErasableStore κ β Unit where
  toObjectStore := ObjectStore.ofKeyed κ β
  remove s k := if s.get k = none then .error () else .ok (s.remove k)
  exists_remove h := ⟨_, if_neg h⟩
  content_remove_self {s s' k} h := by
    split at h
    · cases h
    · cases h
      exact KeyedStore.get_remove_self s k
  content_remove_of_ne {s s' k k'} h hne := by
    split at h
    · cases h
    · cases h
      exact KeyedStore.get_remove_of_ne s hne

end ErasableStore

end DpuTest.Lib
