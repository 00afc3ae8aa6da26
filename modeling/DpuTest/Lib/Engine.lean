import DpuTest.Lib.Buffer
import DpuTest.Lib.Latch

/-!
# Task engines

A device works on numbered tasks.  A task has a source descriptor and a
destination descriptor, each of them a segment of a memory.  When the device
completes a task it reads the source segment, puts the result behind the data of
the destination descriptor, and runs the handler, which counts a latch down.
Tasks that have been submitted complete in any order.

The lemmas say what a list of completions leaves in a window of the destination
memory.

* A window that no task writes is as before (`slice_completeAll_of_disjoint`).
* The window of the last task holds its result (`slice_completeAll_last`).
* If no other task writes to it, the window of a task holds its result whatever
  the order (`slice_completeAll_of_mem`).

The descriptor of a task has the length of its result (`segmentAt_completeAll`).
-/

namespace DpuTest.Lib

/-- A data segment: offset and length. -/
abbrev Segment := Nat × Nat

/-- No position lies in both segments. -/
def Segment.Disjoint (s t : Segment) : Prop := s.1 + s.2 ≤ t.1 ∨ t.1 + t.2 ≤ s.1

theorem Segment.Disjoint.symm {s t : Segment} (h : s.Disjoint t) : t.Disjoint s := Or.symm h

/-- A segment of a list of descriptors. -/
def segmentAt (bufs : List Segment) (task : Nat) : Segment := bufs.getD task (0, 0)

/-- The first `n` descriptors with no data in them. -/
def resetFirst (n : Nat) (bufs : List Segment) : List Segment :=
  bufs.mapIdx (fun i s => if i < n then (s.1, 0) else s)

theorem segmentAt_map_range {g : Nat → Segment} {i n : Nat} (h : i < n) :
    segmentAt ((List.range n).map g) i = g i := by
  simp [segmentAt, h]

theorem resetFirst_map_range (g : Nat → Segment) (n : Nat) :
    resetFirst n ((List.range n).map g) = (List.range n).map fun i => ((g i).1, 0) := by
  apply List.ext_getElem?
  intro i
  simp only [resetFirst, List.getElem?_mapIdx, List.getElem?_map]
  by_cases hi : i < n
  · simp [hi]
  · simp [hi]

theorem segmentAt_resetFirst {bufs : List Segment} {n task : Nat} (h : task < bufs.length) :
    segmentAt (resetFirst n bufs) task =
      if task < n then ((segmentAt bufs task).1, 0) else segmentAt bufs task := by
  simp [segmentAt, resetFirst, h]

/-- The memories of a device, the data segments of the source and destination
descriptors, and the latch of the program that waits. -/
structure Engine (α : Type) (srcSize dstSize : Nat) where
  src : Buffer α srcSize
  dst : Buffer α dstSize
  srcBufs : List Segment
  dstBufs : List Segment
  latch : Latch

/-- An order in which `n` tasks complete. -/
structure CompletionOrder (n : Nat) where
  tasks : List Nat
  perm : tasks.Perm (List.range n)

/-- First submitted, first completed. -/
def CompletionOrder.inOrder (n : Nat) : CompletionOrder n where
  tasks := List.range n
  perm := List.Perm.refl _

namespace CompletionOrder

variable {n : Nat} (order : CompletionOrder n)

theorem nodup : order.tasks.Nodup := order.perm.nodup_iff.mpr List.nodup_range

theorem mem_iff {task : Nat} : task ∈ order.tasks ↔ task < n := by
  rw [order.perm.mem_iff, List.mem_range]

theorem length_eq : order.tasks.length = n := by
  rw [order.perm.length_eq, List.length_range]

end CompletionOrder

namespace Engine

variable {α : Type} {srcSize dstSize : Nat}

/-- What a task reads. -/
def input (e : Engine α srcSize dstSize) (task : Nat) : List α :=
  slice e.src.data (segmentAt e.srcBufs task).1 (segmentAt e.srcBufs task).2

/-- Where a task writes. -/
def target (e : Engine α srcSize dstSize) (task : Nat) : Nat :=
  (segmentAt e.dstBufs task).1 + (segmentAt e.dstBufs task).2

variable (f : List α → List α)

/-- What a task writes. -/
def output (e : Engine α srcSize dstSize) (task : Nat) : List α := f (e.input task)

/-- The part of the destination memory that a task writes. -/
def window (e : Engine α srcSize dstSize) (task : Nat) : Segment :=
  (e.target task, (e.output f task).length)

/-- The device completes a task, and the handler runs.  A result for which there
is no room is not written. -/
def complete (task : Nat) (e : Engine α srcSize dstSize) : Engine α srcSize dstSize :=
  { e with
    dst := (e.dst.store (e.target task) (e.output f task)).getD e.dst
    dstBufs := e.dstBufs.set task
      ((segmentAt e.dstBufs task).1, (segmentAt e.dstBufs task).2 + (e.output f task).length)
    latch := e.latch.countDown }

/-- The tasks complete one after the other. -/
def completeAll (tasks : List Nat) (e : Engine α srcSize dstSize) : Engine α srcSize dstSize :=
  tasks.foldl (fun e task => e.complete f task) e

variable {f} {e : Engine α srcSize dstSize}

/-! ## One task -/

@[simp] theorem complete_src (task : Nat) : (e.complete f task).src = e.src := rfl

@[simp] theorem complete_srcBufs (task : Nat) : (e.complete f task).srcBufs = e.srcBufs := rfl

@[simp] theorem output_complete (task other : Nat) :
    (e.complete f task).output f other = e.output f other := rfl

theorem target_complete {task other : Nat} (h : other ≠ task) :
    (e.complete f task).target other = e.target other := by
  simp [target, complete, segmentAt, List.getD, List.getElem?_set_ne (Ne.symm h)]

theorem window_complete {task other : Nat} (h : other ≠ task) :
    (e.complete f task).window f other = e.window f other := by
  rw [window, window, target_complete h, output_complete]

/-- The result of a task is in its window. -/
theorem slice_complete_self {task : Nat}
    (hfit : e.target task + (e.output f task).length ≤ dstSize) :
    slice (e.complete f task).dst.data (e.window f task).1 (e.window f task).2 =
      e.output f task := by
  show slice ((e.dst.store (e.target task) (e.output f task)).getD e.dst).data _ _ = _
  rw [e.dst.store_eq_some hfit, Option.getD_some, Buffer.put_data]
  apply slice_writeAt_self
  rw [e.dst.length_data]
  exact hfit

/-- A task writes its window only. -/
theorem slice_complete_of_disjoint {task : Nat} {seg : Segment}
    (h : seg.Disjoint (e.window f task)) :
    slice (e.complete f task).dst.data seg.1 seg.2 = slice e.dst.data seg.1 seg.2 := by
  show slice ((e.dst.store (e.target task) (e.output f task)).getD e.dst).data _ _ = _
  by_cases hfit : e.target task + (e.output f task).length ≤ dstSize
  · rw [e.dst.store_eq_some hfit, Option.getD_some, Buffer.put_data]
    refine slice_writeAt_of_disjoint ?_ h
    rw [e.dst.length_data]
    exact hfit
  · have hnone : e.dst.store (e.target task) (e.output f task) = none := dif_neg hfit
    rw [hnone, Option.getD_none]

/-- Completing a task changes the data length of its descriptor only. -/
theorem resetFirst_complete {n task : Nat} (h : task < n) :
    resetFirst n (e.complete f task).dstBufs = resetFirst n e.dstBufs := by
  apply List.ext_getElem?
  intro i
  simp only [resetFirst, complete, List.getElem?_mapIdx, List.getElem?_set]
  by_cases hi : task = i
  · subst hi
    by_cases hlen : task < e.dstBufs.length
    · simp [h, hlen, segmentAt]
    · simp [hlen]
  · simp [hi]

/-! ## A list of tasks -/

@[simp] theorem completeAll_cons (task : Nat) (tasks : List Nat) :
    e.completeAll f (task :: tasks) = (e.complete f task).completeAll f tasks := rfl

theorem completeAll_append (tasks tasks' : List Nat) :
    e.completeAll f (tasks ++ tasks') = (e.completeAll f tasks).completeAll f tasks' :=
  List.foldl_append

@[simp] theorem completeAll_src (tasks : List Nat) : (e.completeAll f tasks).src = e.src := by
  induction tasks generalizing e with
  | nil => rfl
  | cons task tasks ih => rw [completeAll_cons, ih, complete_src]

@[simp] theorem completeAll_srcBufs (tasks : List Nat) :
    (e.completeAll f tasks).srcBufs = e.srcBufs := by
  induction tasks generalizing e with
  | nil => rfl
  | cons task tasks ih => rw [completeAll_cons, ih, complete_srcBufs]

theorem resetFirst_completeAll {n : Nat} {tasks : List Nat} (h : ∀ task ∈ tasks, task < n) :
    resetFirst n (e.completeAll f tasks).dstBufs = resetFirst n e.dstBufs := by
  induction tasks generalizing e with
  | nil => rfl
  | cons task tasks ih =>
    rw [completeAll_cons, ih (fun t ht => h t (List.mem_cons_of_mem _ ht)),
      resetFirst_complete (h task List.mem_cons_self)]

/-- A task that is still to come is not affected. -/
theorem window_completeAll {tasks : List Nat} {other : Nat} (h : other ∉ tasks) :
    (e.completeAll f tasks).window f other = e.window f other ∧
      (e.completeAll f tasks).output f other = e.output f other := by
  induction tasks generalizing e with
  | nil => exact ⟨rfl, rfl⟩
  | cons task tasks ih =>
    have hne : other ≠ task := fun heq => h (heq ▸ List.mem_cons_self)
    have hrest : other ∉ tasks := fun hin => h (List.mem_cons_of_mem _ hin)
    obtain ⟨hwindow, houtput⟩ := ih (e := e.complete f task) hrest
    rw [completeAll_cons, hwindow, houtput, window_complete hne, output_complete]
    exact ⟨rfl, rfl⟩

/-- The data of the descriptor of a task become longer by its result. -/
theorem segmentAt_complete {task : Nat} (h : task < e.dstBufs.length) :
    segmentAt (e.complete f task).dstBufs task =
      ((segmentAt e.dstBufs task).1, (segmentAt e.dstBufs task).2 + (e.output f task).length) := by
  simp [complete, segmentAt, h]

theorem segmentAt_complete_of_ne {task other : Nat} (h : other ≠ task) :
    segmentAt (e.complete f task).dstBufs other = segmentAt e.dstBufs other := by
  simp [complete, segmentAt, List.getD, List.getElem?_set_ne (Ne.symm h)]

@[simp] theorem length_dstBufs_complete (task : Nat) :
    (e.complete f task).dstBufs.length = e.dstBufs.length :=
  List.length_set

@[simp] theorem length_dstBufs_completeAll (tasks : List Nat) :
    (e.completeAll f tasks).dstBufs.length = e.dstBufs.length := by
  induction tasks generalizing e with
  | nil => rfl
  | cons task tasks ih => rw [completeAll_cons, ih, length_dstBufs_complete]

theorem segmentAt_completeAll_of_notMem {tasks : List Nat} {other : Nat} (h : other ∉ tasks) :
    segmentAt (e.completeAll f tasks).dstBufs other = segmentAt e.dstBufs other := by
  induction tasks generalizing e with
  | nil => rfl
  | cons task tasks ih =>
    have hne : other ≠ task := fun heq => h (heq ▸ List.mem_cons_self)
    rw [completeAll_cons, ih (fun hin => h (List.mem_cons_of_mem _ hin)),
      segmentAt_complete_of_ne hne]

/-- Each task does so once. -/
theorem segmentAt_completeAll {tasks : List Nat} (hnodup : tasks.Nodup) {task : Nat}
    (hmem : task ∈ tasks) (h : task < e.dstBufs.length) :
    segmentAt (e.completeAll f tasks).dstBufs task =
      ((segmentAt e.dstBufs task).1, (segmentAt e.dstBufs task).2 + (e.output f task).length) := by
  induction tasks generalizing e with
  | nil => cases hmem
  | cons first tasks ih =>
    obtain ⟨hnotMem, hnodup⟩ := List.nodup_cons.mp hnodup
    rw [completeAll_cons]
    by_cases heq : task = first
    · rw [heq] at h ⊢
      rw [segmentAt_completeAll_of_notMem hnotMem, segmentAt_complete h]
    · have hrest := (List.mem_cons.mp hmem).resolve_left heq
      rw [ih hnodup hrest (by rw [length_dstBufs_complete]; exact h),
        segmentAt_complete_of_ne heq, output_complete]

/-- A window that no task writes is as before. -/
theorem slice_completeAll_of_disjoint (seg : Segment) {tasks : List Nat} (hnodup : tasks.Nodup)
    (h : ∀ task ∈ tasks, seg.Disjoint (e.window f task)) :
    slice (e.completeAll f tasks).dst.data seg.1 seg.2 = slice e.dst.data seg.1 seg.2 := by
  induction tasks generalizing e with
  | nil => rfl
  | cons task tasks ih =>
    obtain ⟨hnotMem, hnodup⟩ := List.nodup_cons.mp hnodup
    have hrest : ∀ t ∈ tasks, seg.Disjoint ((e.complete f task).window f t) := by
      intro t ht
      have hne : t ≠ task := fun heq => hnotMem (heq ▸ ht)
      rw [window_complete hne]
      exact h t (List.mem_cons_of_mem _ ht)
    rw [completeAll_cons, ih hnodup hrest,
      slice_complete_of_disjoint (h task List.mem_cons_self)]

/-- The window of the last task holds its result. -/
theorem slice_completeAll_last {tasks : List Nat} {task : Nat} (h : task ∉ tasks)
    (hfit : e.target task + (e.output f task).length ≤ dstSize) :
    slice (e.completeAll f (tasks ++ [task])).dst.data (e.window f task).1 (e.window f task).2 =
      e.output f task := by
  obtain ⟨hwindow, houtput⟩ := window_completeAll (e := e) (f := f) h
  have htarget : (e.completeAll f tasks).target task = e.target task := congrArg Prod.fst hwindow
  have hfit' : (e.completeAll f tasks).target task +
      ((e.completeAll f tasks).output f task).length ≤ dstSize := by
    rw [htarget, houtput]
    exact hfit
  have hlast := slice_complete_self hfit'
  rw [hwindow, houtput] at hlast
  rw [completeAll_append]
  exact hlast

/-- A window that only one task writes holds its result, whatever the order. -/
theorem slice_completeAll_of_mem {tasks : List Nat} (hnodup : tasks.Nodup) {task : Nat}
    (hmem : task ∈ tasks) (hfit : e.target task + (e.output f task).length ≤ dstSize)
    (h : ∀ other ∈ tasks, other ≠ task → (e.window f task).Disjoint (e.window f other)) :
    slice (e.completeAll f tasks).dst.data (e.window f task).1 (e.window f task).2 =
      e.output f task := by
  obtain ⟨done, later, rfl⟩ := List.append_of_mem hmem
  obtain ⟨-, hlater, hcross⟩ := List.nodup_append.mp hnodup
  obtain ⟨hnotMem, hlater⟩ := List.nodup_cons.mp hlater
  have hdone : task ∉ done := fun hin => hcross task hin task List.mem_cons_self rfl
  have hsplit : done ++ task :: later = (done ++ [task]) ++ later := by
    rw [List.append_assoc, List.singleton_append]
  rw [hsplit, completeAll_append, slice_completeAll_of_disjoint _ hlater,
    slice_completeAll_last hdone hfit]
  intro other hother
  have hne : other ≠ task := fun heq => hnotMem (heq ▸ hother)
  have hnew : other ∉ done ++ [task] := by
    intro hin
    rcases List.mem_append.mp hin with hin | hin
    · exact hcross other hin other (List.mem_cons_of_mem _ hother) rfl
    · exact hne (List.mem_singleton.mp hin)
  rw [(window_completeAll hnew).1]
  exact h other (List.mem_append_right _ (List.mem_cons_of_mem _ hother)) hne

/-! ## Waiting -/

/-- The program polls until the flag falls, while the submitted tasks complete.
`none` is a wait that does not end. -/
def wait (f : List α → List α) (tasks : List Nat) (e : Engine α srcSize dstSize) :
    Option (Engine α srcSize dstSize) :=
  pollLoop (fun e => e.latch.running) (fun task e => e.complete f task) tasks e

/-- Armed with the number of tasks, the wait ends with the last of them. -/
theorem wait_of_armed {tasks : List Nat} (hne : tasks ≠ [])
    (hrem : e.latch.remaining.toNat = tasks.length) (hrun : e.latch.running = true) :
    e.wait f tasks = some (e.completeAll f tasks) := by
  unfold wait
  exact pollLoop_of_latch Engine.latch (fun _ _ => rfl) hne hrem hrun

/-- Armed with zero, the wait does not end. -/
theorem wait_of_zero {tasks : List Nat} (hrem : e.latch.remaining = 0)
    (hlen : tasks.length < 2 ^ 64) (hrun : e.latch.running = true) : e.wait f tasks = none := by
  unfold wait
  refine pollLoop_eq_none Engine.latch (fun _ _ => rfl) ?_ hrun
  rw [hrem]
  show tasks.length ≤ 2 ^ 64 - 1
  omega

end Engine

end DpuTest.Lib
