import Mathlib.Algebra.Order.Ring.Nat
import Mathlib.Data.List.Basic
import Mathlib.Data.UInt

/-!
# Fixed-size buffers

`slice` is the window of a list that a read sees, and `writeAt` is the list
after a copy to an offset.  A `Buffer` is a list together with its length, so a
write cannot change the length.  `fetch` and `Buffer.store` are the two
operations for a program that may leave the buffer: they answer `none` there,
which is the model of an access that the language leaves undefined.

The lemmas say what a write leaves in a later window: the bytes written, the
old bytes when the two windows do not meet, and the longer prefix when a write
continues a prefix.  `blocksAt` cuts a window into blocks of one size.
-/

namespace DpuTest.Lib

variable {α : Type}

/-- The `len` entries from offset `off` on. -/
def slice (buf : List α) (off len : Nat) : List α := (buf.drop off).take len

/-- The buffer with `bs` copied to offset `off`. -/
def writeAt (buf : List α) (off : Nat) (bs : List α) : List α :=
  buf.take off ++ bs ++ buf.drop (off + bs.length)

/-- A read of `len` entries at `off`, when they lie in the buffer. -/
def fetch (buf : List α) (off len : Nat) : Option (List α) :=
  if off + len ≤ buf.length then some (slice buf off len) else none

/-! ## Lengths -/

theorem length_slice {buf : List α} {off len : Nat}
    (h : off + len ≤ buf.length) : (slice buf off len).length = len := by
  rw [slice, List.length_take, List.length_drop]
  omega

theorem length_writeAt {buf bs : List α} {off : Nat}
    (h : off + bs.length ≤ buf.length) :
    (writeAt buf off bs).length = buf.length := by
  simp only [writeAt, List.length_append, List.length_take, List.length_drop]
  omega

theorem fetch_eq_some {buf : List α} {off len : Nat}
    (h : off + len ≤ buf.length) : fetch buf off len = some (slice buf off len) :=
  if_pos h

/-! ## Windows of a concatenation -/

/-- The window of the whole buffer. -/
theorem slice_whole {buf : List α} {len : Nat} (h : buf.length = len) :
    slice buf 0 len = buf := by
  rw [slice, List.drop_zero, ← h, List.take_length]

/-- The window of the left part of a concatenation. -/
theorem slice_head {xs ys : List α} {len : Nat} (h : xs.length = len) :
    slice (xs ++ ys) 0 len = xs := by
  rw [slice, List.drop_zero, ← h, List.take_left]

/-- The window of the middle part of a concatenation. -/
theorem slice_append_middle (pre mid post : List α) {off len : Nat}
    (hoff : off = pre.length) (hlen : len = mid.length) :
    slice (pre ++ mid ++ post) off len = mid := by
  subst hoff hlen
  rw [slice, List.append_assoc, List.drop_left, List.take_left]

/-- A window that ends inside the left part does not see the right part. -/
theorem slice_append_left {xs ys : List α} {off len : Nat}
    (h : off + len ≤ xs.length) :
    slice (xs ++ ys) off len = slice xs off len := by
  rw [slice, slice, List.drop_append_of_le_length (by omega),
    List.take_append_of_le_length (by rw [List.length_drop]; omega)]

/-- A window that starts after the left part does not see the left part. -/
theorem slice_append_right {xs ys : List α} {off len : Nat}
    (h : xs.length ≤ off) :
    slice (xs ++ ys) off len = slice ys (off - xs.length) len := by
  rw [slice, slice, List.drop_append, List.drop_eq_nil_of_le h,
    List.nil_append]

theorem slice_slice {buf : List α} {off len off' len' : Nat}
    (h : off' + len' ≤ len) :
    slice (slice buf off len) off' len' = slice buf (off + off') len' := by
  rw [slice, slice, slice, List.drop_take, List.take_take, List.drop_drop,
    Nat.min_eq_left (by omega)]

/-- Two adjacent windows join. -/
theorem slice_add (buf : List α) (off len len' : Nat) :
    slice buf off (len + len') = slice buf off len ++ slice buf (off + len) len' := by
  rw [slice, slice, slice, List.take_add, List.drop_drop]

theorem slice_zero_eq_take (buf : List α) (len : Nat) :
    slice buf 0 len = buf.take len := by
  rw [slice, List.drop_zero]

/-! ## A window after a write -/

/-- The window just written. -/
theorem slice_writeAt_self {buf bs : List α} {off : Nat}
    (h : off + bs.length ≤ buf.length) :
    slice (writeAt buf off bs) off bs.length = bs := by
  refine slice_append_middle _ _ _ ?_ rfl
  rw [List.length_take]
  omega

/-- A window inside the one just written. -/
theorem slice_writeAt_inner {buf bs : List α} {off off' len : Nat}
    (h : off + bs.length ≤ buf.length) (hle : off' + len ≤ bs.length) :
    slice (writeAt buf off bs) (off + off') len = slice bs off' len := by
  rw [← slice_slice hle, slice_writeAt_self h]

/-- A window before the one written. -/
theorem slice_writeAt_of_le {buf bs : List α} {off off' len : Nat}
    (h : off + bs.length ≤ buf.length) (hle : off' + len ≤ off) :
    slice (writeAt buf off bs) off' len = slice buf off' len := by
  have htake : (buf.take off).length = off := by
    rw [List.length_take]
    omega
  rw [writeAt, List.append_assoc, slice_append_left (by omega)]
  rw [slice, slice, List.drop_take, List.take_take, Nat.min_eq_left (by omega)]

/-- A window after the one written. -/
theorem slice_writeAt_of_ge {buf bs : List α} {off off' len : Nat}
    (h : off + bs.length ≤ buf.length) (hle : off + bs.length ≤ off') :
    slice (writeAt buf off bs) off' len = slice buf off' len := by
  have htake : (buf.take off ++ bs).length = off + bs.length := by
    rw [List.length_append, List.length_take]
    omega
  rw [writeAt, slice_append_right (by omega), htake, slice, slice,
    List.drop_drop]
  congr 2
  omega

/-- A window that does not meet the one written. -/
theorem slice_writeAt_of_disjoint {buf bs : List α} {off off' len : Nat}
    (h : off + bs.length ≤ buf.length)
    (hdis : off' + len ≤ off ∨ off + bs.length ≤ off') :
    slice (writeAt buf off bs) off' len = slice buf off' len := by
  rcases hdis with hle | hle
  · exact slice_writeAt_of_le h hle
  · exact slice_writeAt_of_ge h hle

/-- A write that continues a prefix makes it longer. -/
theorem take_writeAt_end {buf bs : List α} {off : Nat}
    (h : off + bs.length ≤ buf.length) :
    (writeAt buf off bs).take (off + bs.length) = buf.take off ++ bs := by
  have htake : (buf.take off ++ bs).length = off + bs.length := by
    rw [List.length_append, List.length_take]
    omega
  rw [writeAt, ← htake, List.take_left]

/-- One entry, and then a write that continues behind it. -/
theorem writeAt_cons {buf xs : List α} {x : α} {off : Nat} (h : off < buf.length) :
    writeAt (buf.set off x) (off + 1) xs = writeAt buf off (x :: xs) := by
  have hlen : (buf.take off).length = off := by
    rw [List.length_take]
    omega
  have hset : buf.set off x = (buf.take off ++ [x]) ++ buf.drop (off + 1) := by
    rw [List.set_eq_take_append_cons_drop, if_pos h, List.append_assoc, List.singleton_append]
  have hlen' : (buf.take off ++ [x]).length = off + 1 := by
    rw [List.length_append, hlen, List.length_singleton]
  rw [writeAt, writeAt, hset, List.take_left' hlen', ← hlen', List.drop_length_add_append, hlen',
    List.drop_drop, List.length_cons, List.append_assoc, List.append_assoc, List.append_assoc,
    List.singleton_append, List.cons_append]
  congr 4
  omega

/-- A write behind a gap, and then one into the gap: together they continue the
prefix. -/
theorem take_writeAt_backpatch {buf hd bs : List α} {off : Nat}
    (h : off + hd.length + bs.length ≤ buf.length) :
    (writeAt (writeAt buf (off + hd.length) bs) off hd).take (off + hd.length + bs.length)
      = buf.take off ++ hd ++ bs := by
  have hin : off + hd.length ≤ (writeAt buf (off + hd.length) bs).length := by
    rw [length_writeAt h]
    omega
  rw [← slice_zero_eq_take, slice_add, slice_zero_eq_take, take_writeAt_end hin,
    Nat.zero_add, slice_writeAt_of_ge hin (Nat.le_refl _), slice_writeAt_self h,
    ← slice_zero_eq_take, slice_writeAt_of_le h (by omega), slice_zero_eq_take]

/-! ## Consecutive blocks -/

/-- `count` blocks of `size` entries, one behind the other, from `off` on. -/
def blocksAt (buf : List α) (off size count : Nat) : List (List α) :=
  (List.range count).map (fun i => slice buf (off + i * size) size)

section Blocks

variable {buf buf' : List α} {off off' size count : Nat}

@[simp] theorem length_blocksAt : (blocksAt buf off size count).length = count := by
  rw [blocksAt, List.length_map, List.length_range]

theorem length_of_mem_blocksAt (h : off + count * size ≤ buf.length) {b : List α}
    (hb : b ∈ blocksAt buf off size count) : b.length = size := by
  obtain ⟨i, hi, rfl⟩ := List.mem_map.mp hb
  have hmul : (i + 1) * size ≤ count * size :=
    Nat.mul_le_mul_right size (List.mem_range.mp hi)
  rw [Nat.add_mul, Nat.one_mul] at hmul
  exact length_slice (by omega)

/-- Blocks of one size. -/
theorem length_flatten_of_forall {blocks : List (List α)} (h : ∀ b ∈ blocks, b.length = size) :
    blocks.flatten.length = blocks.length * size := by
  rw [List.length_flatten, List.map_congr_left h, List.map_const', List.sum_replicate_nat]

/-- Blocks of at most one size. -/
theorem length_flatten_le {blocks : List (List α)} (h : ∀ b ∈ blocks, b.length ≤ size) :
    blocks.flatten.length ≤ blocks.length * size := by
  induction blocks with
  | nil => simp
  | cons b bs ih =>
    have hb := h b List.mem_cons_self
    have hbs := ih (fun c hc => h c (List.mem_cons_of_mem _ hc))
    rw [List.flatten_cons, List.length_append, List.length_cons, Nat.add_mul, Nat.one_mul]
    omega

/-- The blocks together are one window. -/
theorem flatten_blocksAt : (blocksAt buf off size count).flatten = slice buf off (count * size) := by
  induction count with
  | zero => simp [blocksAt, slice]
  | succ count ih =>
    rw [blocksAt, List.range_succ, List.map_append, List.flatten_append, Nat.add_mul, Nat.one_mul,
      slice_add, ← ih]
    simp [blocksAt]

/-- The blocks depend on their window only. -/
theorem blocksAt_slice : blocksAt (slice buf off (count * size)) 0 size count =
    blocksAt buf off size count := by
  apply List.map_congr_left
  intro i hi
  have hmul : (i + 1) * size ≤ count * size :=
    Nat.mul_le_mul_right size (List.mem_range.mp hi)
  rw [Nat.add_mul, Nat.one_mul] at hmul
  rw [Nat.zero_add, slice_slice hmul]

/-- The blocks of a concatenation of equal blocks. -/
theorem blocksAt_flatten {blocks : List (List α)} (h : ∀ b ∈ blocks, b.length = size) :
    blocksAt blocks.flatten 0 size blocks.length = blocks := by
  induction blocks with
  | nil => rfl
  | cons b bs ih =>
    have hb := h b List.mem_cons_self
    have hrest := ih (fun c hc => h c (List.mem_cons_of_mem _ hc))
    rw [List.length_cons, blocksAt, List.range_succ_eq_map, List.map_cons, List.flatten_cons,
      Nat.zero_mul, slice_head hb, List.map_map]
    congr 1
    conv_rhs => rw [← hrest]
    apply List.map_congr_left
    intro i _
    have hle : b.length ≤ 0 + (i + 1) * size := by
      rw [hb, Nat.add_mul, Nat.one_mul]
      omega
    show slice (b ++ bs.flatten) (0 + (i + 1) * size) size = _
    rw [slice_append_right hle, hb, Nat.add_mul, Nat.one_mul]
    congr 1
    omega

/-- Calls that all answer. -/
theorem mapM_eq_pure {β : Type} {m : Type → Type} [Monad m] [LawfulMonad m] {g : α → m β}
    {f : α → β} {l : List α} (h : ∀ x ∈ l, g x = pure (f x)) : l.mapM g = pure (l.map f) := by
  induction l with
  | nil => rfl
  | cons x l ih =>
    rw [List.mapM_cons, h x List.mem_cons_self, ih fun y hy => h y (List.mem_cons_of_mem _ hy),
      pure_bind, pure_bind, List.map_cons]

/-- The loop that copies the blocks out one by one. -/
theorem mapM_fetch (h : off + count * size ≤ buf.length) :
    (List.range count).mapM (fun i => fetch buf (off + i * size) size) =
      some (blocksAt buf off size count) := by
  refine mapM_eq_pure fun i hi => fetch_eq_some ?_
  have hmul : (i + 1) * size ≤ count * size :=
    Nat.mul_le_mul_right size (List.mem_range.mp hi)
  rw [Nat.add_mul, Nat.one_mul] at hmul
  omega

end Blocks

/-! ## Buffers -/

/-- `n` entries of memory. -/
structure Buffer (α : Type) (n : Nat) where
  data : List α
  length_data : data.length = n

namespace Buffer

variable {n : Nat}

/-- A buffer of zeros. -/
def zeroed [Zero α] (n : Nat) : Buffer α n where
  data := List.replicate n 0
  length_data := List.length_replicate

/-- A copy of `bs` to `off`. -/
def put (b : Buffer α n) (off : Nat) (bs : List α) (h : off + bs.length ≤ n) : Buffer α n where
  data := writeAt b.data off bs
  length_data := by
    rw [length_writeAt (by rw [b.length_data]; exact h), b.length_data]

/-- A copy of `bs` to `off`, when it stays in the buffer. -/
def store (b : Buffer α n) (off : Nat) (bs : List α) : Option (Buffer α n) :=
  if h : off + bs.length ≤ n then some (b.put off bs h) else none

@[simp] theorem put_data (b : Buffer α n) (off : Nat) (bs : List α)
    (h : off + bs.length ≤ n) : (b.put off bs h).data = writeAt b.data off bs :=
  rfl

theorem store_eq_some (b : Buffer α n) {off : Nat} {bs : List α}
    (h : off + bs.length ≤ n) : b.store off bs = some (b.put off bs h) :=
  dif_pos h

theorem store_inv {b b' : Buffer α n} {off : Nat} {bs : List α} (h : b.store off bs = some b') :
    ∃ hle : off + bs.length ≤ n, b.put off bs hle = b' := by
  unfold store at h
  split at h
  · rename_i hle
    exact ⟨hle, Option.some.inj h⟩
  · cases h

/-- `memcpy` from one buffer to another, when it stays in both. -/
def copy {m : Nat} (b : Buffer α n) (off : Nat) (src : Buffer α m) (srcOff len : Nat) :
    Option (Buffer α n) :=
  (fetch src.data srcOff len).bind (b.store off)

theorem copy_inv {m : Nat} {b b' : Buffer α n} {src : Buffer α m} {off srcOff len : Nat}
    (h : b.copy off src srcOff len = some b') :
    ∃ hle : off + (slice src.data srcOff len).length ≤ n,
      (slice src.data srcOff len).length = len ∧
        b' = b.put off (slice src.data srcOff len) hle := by
  obtain ⟨bs, hfetch, hstore⟩ := Option.bind_eq_some_iff.mp h
  unfold fetch at hfetch
  split at hfetch
  · rename_i hin
    cases hfetch
    obtain ⟨hle, hput⟩ := store_inv hstore
    exact ⟨hle, length_slice hin, hput.symm⟩
  · cases hfetch

theorem copy_eq_some {m : Nat} (b : Buffer α n) (src : Buffer α m) {off srcOff len : Nat}
    (hsrc : srcOff + len ≤ m) (h : off + len ≤ n) :
    ∃ b', b.copy off src srcOff len = some b' := by
  have hin : srcOff + len ≤ src.data.length := by
    rw [src.length_data]
    exact hsrc
  have hlen := length_slice hin
  refine ⟨b.put off (slice src.data srcOff len) (by rw [hlen]; exact h), ?_⟩
  rw [copy, fetch_eq_some hin, Option.bind_some, store_eq_some]

/-- What a `memcpy` leaves in the windows of the destination. -/
theorem exists_copy {m : Nat} (b : Buffer α n) (src : Buffer α m) {off srcOff len : Nat}
    (h : off + len ≤ n) (hsrc : srcOff + len ≤ m) :
    ∃ b', b.copy off src srcOff len = some b' ∧
      slice b'.data off len = slice src.data srcOff len ∧
        ∀ off' len', off' + len' ≤ off ∨ off + len ≤ off' →
          slice b'.data off' len' = slice b.data off' len' := by
  have hlen : (slice src.data srcOff len).length = len := by
    apply length_slice
    rw [src.length_data]
    exact hsrc
  have hin : off + (slice src.data srcOff len).length ≤ b.data.length := by
    rw [hlen, b.length_data]
    exact h
  obtain ⟨b', hcopy⟩ := copy_eq_some b src hsrc h
  obtain ⟨hle, -, rfl⟩ := copy_inv hcopy
  refine ⟨_, hcopy, ?_, fun off' len' hdis => ?_⟩
  · have hself := slice_writeAt_self hin
    rw [hlen] at hself
    exact hself
  · apply slice_writeAt_of_disjoint hin
    rw [hlen]
    exact hdis

/-! ### Segments -/

/-- The `j`-th of the segments of one size that a buffer is used as. -/
def segment (b : Buffer α n) (size j : Nat) : List α := slice b.data (j * size) size

/-- A segment of a buffer of that many. -/
theorem segment_bound {j count : Nat} (size : Nat) (h : j < count) :
    j * size + size ≤ count * size := by
  have hmul := Nat.mul_le_mul_right size (Nat.succ_le_of_lt h)
  rw [Nat.succ_mul] at hmul
  exact hmul

theorem length_segment {b : Buffer α n} {size j : Nat} (h : j * size + size ≤ n) :
    (b.segment size j).length = size := by
  apply length_slice
  rw [b.length_data]
  exact h

theorem segment_put_self {b : Buffer α n} {size j : Nat} {bs : List α} (hlen : bs.length = size)
    (h : j * size + bs.length ≤ n) : (b.put (j * size) bs h).segment size j = bs := by
  subst hlen
  apply slice_writeAt_self
  rw [b.length_data]
  exact h

/-- A write of one segment leaves the others alone. -/
theorem segment_put_of_ne {b : Buffer α n} {size j j' : Nat} {bs : List α}
    (hlen : bs.length = size) (h : j * size + bs.length ≤ n) (hne : j' ≠ j) :
    (b.put (j * size) bs h).segment size j' = b.segment size j' := by
  have hin : j * size + bs.length ≤ b.data.length := by
    rw [b.length_data]
    exact h
  apply slice_writeAt_of_disjoint hin
  rcases Nat.lt_or_gt_of_ne hne with hlt | hgt
  · have hmul := Nat.mul_le_mul_right size (Nat.succ_le_of_lt hlt)
    rw [Nat.succ_mul] at hmul
    exact Or.inl hmul
  · have hmul := Nat.mul_le_mul_right size (Nat.succ_le_of_lt hgt)
    rw [Nat.succ_mul] at hmul
    rw [hlen]
    exact Or.inr hmul

/-- `memcpy` of a segment to a segment of another buffer. -/
theorem segment_copy {m : Nat} {b b' : Buffer α n} {src : Buffer α m} {size i j : Nat}
    (h : b.copy (j * size) src (i * size) size = some b') :
    b'.segment size j = src.segment size i ∧
      ∀ j', j' ≠ j → b'.segment size j' = b.segment size j' := by
  obtain ⟨hle, hlen, rfl⟩ := copy_inv h
  exact ⟨segment_put_self hlen hle, fun j' hne => segment_put_of_ne hlen hle hne⟩

/-- It depends on that segment only. -/
theorem copy_segment_congr {m : Nat} (b : Buffer α n) {src src' : Buffer α m} {size i : Nat}
    (off : Nat) (h : src.segment size i = src'.segment size i) :
    b.copy off src (i * size) size = b.copy off src' (i * size) size := by
  have hslice : slice src.data (i * size) size = slice src'.data (i * size) size := h
  rw [copy, copy, fetch, fetch, src.length_data, src'.length_data, hslice]

/-- It depends on what is in the window, and not on where that is. -/
theorem copy_congr {m m' : Nat} (b : Buffer α n) {src : Buffer α m} {src' : Buffer α m'}
    {srcOff srcOff' len : Nat} (off : Nat) (hle : srcOff + len ≤ m) (hle' : srcOff' + len ≤ m')
    (h : slice src.data srcOff len = slice src'.data srcOff' len) :
    b.copy off src srcOff len = b.copy off src' srcOff' len := by
  rw [copy, copy, fetch_eq_some (by rw [src.length_data]; exact hle),
    fetch_eq_some (by rw [src'.length_data]; exact hle'), h]

theorem ext {b b' : Buffer α n} (h : b.data = b'.data) : b = b' := by
  cases b
  cases b'
  simp only at h
  subst h
  rfl

/-- A buffer is its segments one behind the other. -/
theorem data_eq_flatten {size count : Nat} (b : Buffer α (count * size)) :
    b.data = ((List.range count).map (b.segment size)).flatten := by
  have hblocks : (blocksAt b.data 0 size count).flatten = b.data := by
    rw [flatten_blocksAt, slice_whole b.length_data]
  rw [← hblocks, blocksAt]
  simp only [Nat.zero_add]
  rfl

/-- Two buffers with the same segments are the same. -/
theorem ext_segment {size count : Nat} {b b' : Buffer α (count * size)}
    (h : ∀ j, j < count → b.segment size j = b'.segment size j) : b = b' := by
  apply ext
  rw [b.data_eq_flatten, b'.data_eq_flatten]
  congr 1
  apply List.map_congr_left
  intro j hj
  exact h j (List.mem_range.mp hj)

/-- The same for a buffer whose length is given as another product. -/
theorem ext_segment_of_eq {size count : Nat} (hn : n = count * size) {b b' : Buffer α n}
    (h : ∀ j, j < count → b.segment size j = b'.segment size j) : b = b' := by
  subst hn
  exact ext_segment h

/-- Blocks of one size are the segments of a buffer. -/
theorem exists_segment {size count : Nat} {block : Nat → List α}
    (h : ∀ j, j < count → (block j).length = size) :
    ∃ b : Buffer α (count * size), ∀ j, j < count → b.segment size j = block j := by
  have hblocks : ∀ b ∈ (List.range count).map block, b.length = size := by
    intro b hb
    obtain ⟨j, hj, rfl⟩ := List.mem_map.mp hb
    exact h j (List.mem_range.mp hj)
  have hcount : ((List.range count).map block).length = count := by
    rw [List.length_map, List.length_range]
  refine ⟨⟨((List.range count).map block).flatten, ?_⟩, ?_⟩
  · rw [length_flatten_of_forall hblocks, hcount]
  · intro j hj
    have hflat := blocksAt_flatten hblocks
    rw [hcount, blocksAt] at hflat
    have hslice := List.map_inj_left.mp hflat j (List.mem_range.mpr hj)
    rw [Nat.zero_add] at hslice
    exact hslice

/-- One block, again and again. -/
theorem segment_replicate {size count j : Nat} {b : Buffer α n} {block : List α}
    (hdata : b.data = (List.replicate count block).flatten) (hlen : block.length = size)
    (hj : j < count) : b.segment size j = block := by
  have hblocks : ∀ c ∈ List.replicate count block, c.length = size := by
    intro c hc
    rw [List.eq_of_mem_replicate hc]
    exact hlen
  have hflat := blocksAt_flatten hblocks
  rw [List.length_replicate, ← hdata] at hflat
  have hmem : b.segment size j ∈ blocksAt b.data 0 size count := by
    refine List.mem_map.mpr ⟨j, List.mem_range.mpr hj, ?_⟩
    rw [Nat.zero_add]
    rfl
  rw [hflat] at hmem
  exact List.eq_of_mem_replicate hmem

end Buffer

end DpuTest.Lib
