import DpuTest.Lib.Buffer

/-!
# Cutting a sequence into chunks

A `CutRule` looks at what is left of a sequence and says how long the next
chunk is.  It takes at least one entry and never more than there are, and both
facts are fields, so every rule cuts every sequence to the end.
`CutRule.chunks` is the list of chunks.

There are four groups of results.

* Partition.  The chunks concatenate to the sequence (`flatten_chunks`), none
  is empty, and bounds on the rule are bounds on the chunks.
* Locality.  A rule is `Local` when a cut inside a prefix does not depend on
  what follows the prefix.  Then a chunk that ends inside the prefix stays a
  chunk when the rest is replaced (`Local.mem_spansFrom`).  Any rule at all
  forgets what lies before a boundary (`drop_chunks_of_boundary`).
* Content-defined rules.  `FirstHit` says that a cut is the first position of
  a window that a test accepts.  A rule that cuts at the first hit is local as
  soon as the test looks backwards only (`local_of_firstHit`).
* Fixed-size blocks.  `fixedRule` cuts blocks of one size, the last one
  shorter.  `Filling` is the state of a buffer that collects such a block from
  pieces of any size, and `Filling.chunks_eq` says that the pieces do not
  matter.
-/

namespace DpuTest.Lib

variable {α : Type}

/-- A rule for the length of the next chunk. -/
structure CutRule (α : Type) where
  /-- How much of the remaining sequence the next chunk takes. -/
  cut : List α → Nat
  cut_pos : ∀ {xs : List α}, xs ≠ [] → 0 < cut xs
  cut_le : ∀ xs : List α, cut xs ≤ xs.length

/-- The chunk boundaries as pairs of offset and length, from offset `off`. -/
def spansFrom (off : Nat) : List (List α) → List (Nat × Nat)
  | [] => []
  | c :: cs => (off, c.length) :: spansFrom (off + c.length) cs

/-- A span starts no earlier than the offset that the walk starts from. -/
theorem le_of_mem_spansFrom {off o n : Nat} {cs : List (List α)}
    (h : (o, n) ∈ spansFrom off cs) : off ≤ o := by
  induction cs generalizing off with
  | nil => cases h
  | cons c cs ih =>
    rcases List.mem_cons.mp h with heq | hmem
    · exact Nat.le_of_eq (Prod.mk.inj heq).1.symm
    · exact Nat.le_trans (Nat.le_add_right _ _) (ih hmem)

@[simp] theorem length_spansFrom (off : Nat) (cs : List (List α)) :
    (spansFrom off cs).length = cs.length := by
  induction cs generalizing off with
  | nil => rfl
  | cons c cs ih => rw [spansFrom, List.length_cons, ih, List.length_cons]

/-- A span ends no later than the chunks together. -/
theorem spansFrom_le {off : Nat} {cs : List (List α)} {span : Nat × Nat}
    (h : span ∈ spansFrom off cs) : span.1 + span.2 ≤ off + cs.flatten.length := by
  induction cs generalizing off with
  | nil => cases h
  | cons c cs ih =>
    rw [List.flatten_cons, List.length_append]
    rcases List.mem_cons.mp h with rfl | hmem
    · show off + c.length ≤ _
      omega
    · have hle := ih hmem
      omega

/-- The spans lie one behind the other. -/
theorem pairwise_spansFrom (off : Nat) (cs : List (List α)) :
    (spansFrom off cs).Pairwise (fun s t => s.1 + s.2 ≤ t.1) := by
  induction cs generalizing off with
  | nil => exact List.Pairwise.nil
  | cons c cs ih =>
    refine List.Pairwise.cons ?_ (ih _)
    intro t ht
    exact le_of_mem_spansFrom ht

/-- The window of span `i` holds chunk `i`. -/
theorem slice_spansFrom {off : Nat} {cs : List (List α)} {before : List α}
    (hbefore : before.length = off) {i : Nat} {c : List α} (hc : cs[i]? = some c) :
    ∃ o, (spansFrom off cs)[i]? = some (o, c.length) ∧
      slice (before ++ cs.flatten) o c.length = c := by
  induction cs generalizing off before i with
  | nil => cases hc
  | cons d ds ih =>
    cases i with
    | zero =>
      cases hc
      refine ⟨off, rfl, ?_⟩
      rw [List.flatten_cons, ← List.append_assoc]
      exact slice_append_middle _ _ _ hbefore.symm rfl
    | succ i =>
      have hbefore' : (before ++ d).length = off + d.length := by
        rw [List.length_append, hbefore]
      obtain ⟨o, hspan, hslice⟩ := ih hbefore' hc
      rw [List.append_assoc, ← List.flatten_cons] at hslice
      exact ⟨o, hspan, hslice⟩

/-- Memory that starts with the chunks holds each of them at its span. -/
theorem map_slice_spansFrom {buf : List α} {cs : List (List α)}
    (h : buf.take cs.flatten.length = cs.flatten) :
    (spansFrom 0 cs).map (fun span => slice buf span.1 span.2) = cs := by
  apply List.ext_getElem?
  intro i
  rw [List.getElem?_map]
  cases hc : cs[i]? with
  | none =>
    have hlen : cs.length ≤ i := List.getElem?_eq_none_iff.mp hc
    rw [List.getElem?_eq_none (by rw [length_spansFrom]; exact hlen), Option.map_none]
  | some c =>
    have hnil : ([] : List α).length = 0 := rfl
    obtain ⟨o, hspan, hslice⟩ := slice_spansFrom hnil hc
    have hle := spansFrom_le (List.mem_of_getElem? hspan)
    rw [List.nil_append, ← h, ← slice_zero_eq_take, slice_slice (by simpa using hle),
      Nat.zero_add] at hslice
    have hspan' : (spansFrom 0 cs)[i]? = some (o, c.length) := hspan
    rw [hspan', Option.map_some, hslice]

namespace CutRule

variable (r : CutRule α)

/-- The chunks that the rule cuts from a sequence. -/
def chunks (xs : List α) : List (List α) :=
  if _h : xs = [] then [] else xs.take (r.cut xs) :: chunks (xs.drop (r.cut xs))
termination_by xs.length
decreasing_by
  have hpos := r.cut_pos _h
  have hlen : 0 < xs.length := List.length_pos_iff.mpr _h
  rw [List.length_drop]
  omega

@[simp] theorem chunks_nil : r.chunks [] = [] := by
  rw [chunks, dif_pos rfl]

theorem chunks_of_ne_nil {xs : List α} (h : xs ≠ []) :
    r.chunks xs = xs.take (r.cut xs) :: r.chunks (xs.drop (r.cut xs)) := by
  rw [chunks, dif_neg h]

/-- Induction along the cuts of a sequence. -/
theorem induction {P : List α → Prop} (nil : P [])
    (step : ∀ xs, xs ≠ [] → P (xs.drop (r.cut xs)) → P xs) (xs : List α) :
    P xs := by
  induction xs using CutRule.chunks.induct r with
  | case1 => exact nil
  | case2 xs h ih => exact step xs h ih

/-! ## Partition -/

theorem flatten_chunks (xs : List α) : (r.chunks xs).flatten = xs := by
  induction xs using r.induction with
  | nil => rw [chunks_nil, List.flatten_nil]
  | step xs h ih =>
    rw [r.chunks_of_ne_nil h, List.flatten_cons, ih, List.take_append_drop]

theorem ne_nil_of_mem_chunks {xs c : List α} (hc : c ∈ r.chunks xs) : c ≠ [] := by
  induction xs using r.induction with
  | nil => rw [chunks_nil] at hc; cases hc
  | step xs h ih =>
    rw [r.chunks_of_ne_nil h] at hc
    rcases List.mem_cons.mp hc with rfl | hmem
    · have hpos := r.cut_pos h
      have hlen : 0 < xs.length := List.length_pos_iff.mpr h
      rw [← List.length_pos_iff, List.length_take]
      omega
    · exact ih hmem

theorem length_take_cut (xs : List α) : (xs.take (r.cut xs)).length = r.cut xs := by
  rw [List.length_take, Nat.min_eq_left (r.cut_le xs)]

/-- A bound on every cut is a bound on every chunk. -/
theorem length_le_of_mem_chunks {hi : Nat} (hhi : ∀ xs, r.cut xs ≤ hi)
    {xs c : List α} (hc : c ∈ r.chunks xs) : c.length ≤ hi := by
  induction xs using r.induction with
  | nil => rw [chunks_nil] at hc; cases hc
  | step xs h ih =>
    rw [r.chunks_of_ne_nil h] at hc
    rcases List.mem_cons.mp hc with rfl | hmem
    · rw [r.length_take_cut]
      exact hhi xs
    · exact ih hmem

/-- A lower bound on the cuts that leave something over is a lower bound on
every chunk but the last. -/
theorem le_length_of_mem_dropLast {lo : Nat}
    (hlo : ∀ xs, r.cut xs < xs.length → lo ≤ r.cut xs)
    {xs c : List α} (hc : c ∈ (r.chunks xs).dropLast) : lo ≤ c.length := by
  induction xs using r.induction with
  | nil => rw [chunks_nil] at hc; cases hc
  | step xs h ih =>
    rw [r.chunks_of_ne_nil h] at hc
    by_cases hrest : xs.drop (r.cut xs) = []
    · rw [hrest, chunks_nil, List.dropLast_singleton] at hc
      cases hc
    · have hlt : r.cut xs < xs.length := by
        by_contra hge
        exact hrest (List.drop_eq_nil_of_le (by omega))
      rw [List.dropLast_cons_of_ne_nil (by
        rw [r.chunks_of_ne_nil hrest]; exact List.cons_ne_nil _ _)] at hc
      rcases List.mem_cons.mp hc with rfl | hmem
      · rw [r.length_take_cut]
        exact hlo xs hlt
      · exact ih hmem

/-! ## Locality -/

/-- A cut that ends strictly inside a prefix does not depend on what follows
the prefix. -/
def Local : Prop :=
  ∀ a s s' : List α, r.cut (a ++ s) < a.length → r.cut (a ++ s') = r.cut (a ++ s)

/-- With a local rule, a chunk that ends strictly inside a prefix is a chunk
of every sequence with that prefix. -/
theorem Local.mem_spansFrom {r : CutRule α} (hr : r.Local)
    {a s s' : List α} {base o n : Nat}
    (hmem : (o, n) ∈ spansFrom base (r.chunks (a ++ s)))
    (hend : o + n < base + a.length) :
    (o, n) ∈ spansFrom base (r.chunks (a ++ s')) := by
  -- The induction is along the cuts of `a ++ s`; the prefix shrinks with it.
  generalize hxs : a ++ s = xs at hmem
  induction xs using r.induction generalizing a base with
  | nil => rw [chunks_nil] at hmem; cases hmem
  | step xs h ih =>
    subst hxs
    rw [r.chunks_of_ne_nil h, spansFrom, r.length_take_cut] at hmem
    have hlt : r.cut (a ++ s) < a.length := by
      rcases List.mem_cons.mp hmem with heq | htail
      · obtain ⟨rfl, rfl⟩ := Prod.mk.inj heq
        omega
      · have := le_of_mem_spansFrom htail
        omega
    have hcut : r.cut (a ++ s') = r.cut (a ++ s) := hr a s s' hlt
    have hne : a ++ s' ≠ [] := by
      rw [← List.length_pos_iff, List.length_append]
      omega
    rw [r.chunks_of_ne_nil hne, spansFrom, r.length_take_cut, hcut]
    rcases List.mem_cons.mp hmem with heq | htail
    · exact List.mem_cons.mpr (Or.inl heq)
    · rw [List.drop_append_of_le_length (Nat.le_of_lt hlt)]
      refine List.mem_cons_of_mem _ (ih (a := a.drop (r.cut (a ++ s))) ?_ ?_ htail)
      · rw [List.length_drop]
        omega
      · rw [List.drop_append_of_le_length (Nat.le_of_lt hlt)]

/-- After a boundary the chunks are those of the rest alone. -/
theorem drop_chunks_of_boundary {a s : List α} {k : Nat}
    (hk : ((r.chunks (a ++ s)).take k).flatten.length = a.length) :
    (r.chunks (a ++ s)).drop k = r.chunks s := by
  induction k generalizing a with
  | zero =>
    rw [List.take_zero, List.flatten_nil, List.length_nil] at hk
    rw [List.eq_nil_of_length_eq_zero hk.symm, List.nil_append, List.drop_zero]
  | succ k ih =>
    by_cases h : a ++ s = []
    · rw [h, (List.append_eq_nil_iff.mp h).2, chunks_nil, List.drop_nil]
    · rw [r.chunks_of_ne_nil h, List.take_succ_cons, List.flatten_cons,
        List.length_append, r.length_take_cut] at hk
      have hle : r.cut (a ++ s) ≤ a.length := by omega
      rw [List.drop_append_of_le_length hle] at hk
      rw [r.chunks_of_ne_nil h, List.drop_succ_cons,
        List.drop_append_of_le_length hle]
      apply ih
      rw [List.length_drop]
      omega

end CutRule

/-! ## Content-defined rules -/

/-- `c` is the first position of `[lo, hi)` that `hit` accepts, or `hi` when
there is none. -/
structure FirstHit (hit : Nat → Prop) (lo hi c : Nat) : Prop where
  ge : lo ≤ c
  le : c ≤ hi
  not_before : ∀ j, lo ≤ j → j < c → ¬ hit j
  hit_of_lt : c < hi → hit c

namespace FirstHit

variable {hit hit' : Nat → Prop} {lo mid hi hi' c c' : Nat}

theorem unique (h : FirstHit hit lo hi c) (h' : FirstHit hit lo hi c') : c = c' := by
  rcases Nat.lt_trichotomy c c' with hlt | heq | hgt
  · exact absurd (h.hit_of_lt (Nat.lt_of_lt_of_le hlt h'.le)) (h'.not_before c h.ge hlt)
  · exact heq
  · exact absurd (h'.hit_of_lt (Nat.lt_of_lt_of_le hgt h.le)) (h.not_before c' h'.ge hgt)

/-- The test matters up to the hit only, and so does the end of the window. -/
theorem congr (h : FirstHit hit lo hi c) (hhit : ∀ j, lo ≤ j → j ≤ c → (hit' j ↔ hit j))
    (hc : c ≤ hi') (hend : c < hi' → c < hi) : FirstHit hit' lo hi' c where
  ge := h.ge
  le := hc
  not_before j hj hjc := by
    rw [hhit j hj (Nat.le_of_lt hjc)]
    exact h.not_before j hj hjc
  hit_of_lt hlt := by
    rw [hhit c h.ge (Nat.le_refl c)]
    exact h.hit_of_lt (hend hlt)

/-- A window without a hit in its first part is searched in its second. -/
theorem of_no_hit (hlo : lo ≤ mid) (hno : ∀ j, lo ≤ j → j < mid → ¬ hit j)
    (h : FirstHit hit mid hi c) : FirstHit hit lo hi c where
  ge := Nat.le_trans hlo h.ge
  le := h.le
  not_before j hj hjc := by
    rcases Nat.lt_or_ge j mid with hlt | hge
    · exact hno j hj hlt
    · exact h.not_before j hge hjc
  hit_of_lt := h.hit_of_lt

end FirstHit

/-- A rule that takes all of a sequence of at most `lo` entries, and else cuts
at the first hit between `lo` and `hi`, is local when the test at a position
sees only the entries up to it. -/
theorem CutRule.local_of_firstHit (r : CutRule α) {lo hi : Nat}
    (hit : List α → Nat → Prop)
    (hshort : ∀ xs, xs.length ≤ lo → r.cut xs = xs.length)
    (hlong : ∀ xs, lo < xs.length →
      FirstHit (hit xs) lo (min xs.length hi) (r.cut xs))
    (hback : ∀ a s s' i, i < a.length → (hit (a ++ s') i ↔ hit (a ++ s) i)) :
    r.Local := by
  intro a s s' hlt
  have hlen : (a ++ s).length = a.length + s.length := List.length_append
  have hlen' : (a ++ s').length = a.length + s'.length := List.length_append
  have hlong_s : lo < (a ++ s).length := by
    by_contra hge
    have := hshort (a ++ s) (by omega)
    omega
  have h := hlong (a ++ s) hlong_s
  have hge := h.ge
  have hle := h.le
  refine (hlong (a ++ s') (by omega)).unique (h.congr ?_ (by omega) (by omega))
  intro j _ hj
  exact hback a s s' j (by omega)

/-! ## Fixed-size blocks -/

/-- Blocks of `size` entries, the last one possibly shorter. -/
def fixedRule (size : Nat) (hsize : 0 < size) : CutRule α where
  cut xs := min size xs.length
  cut_pos h := Nat.lt_min.mpr ⟨hsize, List.length_pos_iff.mpr h⟩
  cut_le _ := Nat.min_le_right _ _

section Fixed

variable {size : Nat} (hsize : 0 < size)

theorem length_le_of_mem_fixed {xs c : List α}
    (hc : c ∈ (fixedRule size hsize).chunks xs) : c.length ≤ size :=
  (fixedRule size hsize).length_le_of_mem_chunks (fun _ => Nat.min_le_left _ _) hc

/-- Every block but the last is full. -/
theorem length_of_mem_dropLast_fixed {xs c : List α}
    (hc : c ∈ ((fixedRule size hsize).chunks xs).dropLast) : c.length = size := by
  have hle := length_le_of_mem_fixed hsize (List.dropLast_subset _ hc)
  have hge : size ≤ c.length := by
    refine (fixedRule size hsize).le_length_of_mem_dropLast (fun ys hlt => ?_) hc
    simp only [fixedRule] at hlt ⊢
    omega
  omega

/-- A block that another one follows is full. -/
theorem length_of_getElem?_fixed {xs c : List α} {i : Nat}
    (hc : ((fixedRule size hsize).chunks xs)[i]? = some c)
    (hi : i + 1 < ((fixedRule size hsize).chunks xs).length) : c.length = size := by
  have hmem : c ∈ ((fixedRule size hsize).chunks xs).dropLast := by
    refine List.mem_of_getElem? (i := i) ?_
    rw [List.getElem?_dropLast, if_pos (by omega)]
    exact hc
  exact length_of_mem_dropLast_fixed hsize hmem

/-- The length of a sequence by its last block. -/
theorem length_eq_of_last_fixed {xs c : List α} {i : Nat}
    (hc : ((fixedRule size hsize).chunks xs)[i]? = some c)
    (hi : i + 1 = ((fixedRule size hsize).chunks xs).length) :
    xs.length = i * size + c.length := by
  have hne : (fixedRule size hsize).chunks xs ≠ [] := by
    rw [← List.length_pos_iff]
    omega
  have hlast : ((fixedRule size hsize).chunks xs).getLast hne = c := by
    rw [List.getLast_eq_getElem]
    have hget := (List.getElem?_eq_some_iff.mp hc).2
    rw [← hget]
    congr 1
    omega
  have hsplit := List.dropLast_append_getLast hne
  have hflat := CutRule.flatten_chunks (fixedRule size hsize) xs
  have hfull : ∀ b ∈ ((fixedRule size hsize).chunks xs).dropLast, b.length = size :=
    fun _ hb => length_of_mem_dropLast_fixed hsize hb
  rw [hlast] at hsplit
  rw [← hflat, ← hsplit, List.flatten_append, List.flatten_singleton, List.length_append,
    length_flatten_of_forall hfull, List.length_dropLast, ← hi, Nat.add_sub_cancel]

/-- The next block is what a read of `size` entries brings. -/
theorem chunks_fixed_of_ne_nil {xs : List α} (hne : xs ≠ []) :
    (fixedRule size hsize).chunks xs =
      xs.take size :: (fixedRule size hsize).chunks (xs.drop size) := by
  have hcut : (fixedRule size hsize).cut xs = min size xs.length := rfl
  rw [CutRule.chunks_of_ne_nil _ hne, hcut]
  by_cases hle : size ≤ xs.length
  · rw [Nat.min_eq_left hle]
  · rw [Nat.min_eq_right (by omega), List.take_length, List.drop_length,
      List.take_of_length_le (by omega), List.drop_eq_nil_of_le (by omega)]

/-- Induction along the reads of `size` entries. -/
theorem fixed_induction (hsize : 0 < size) {P : List α → Prop} (nil : P [])
    (step : ∀ xs, xs ≠ [] → P (xs.drop size) → P xs) (xs : List α) : P xs := by
  induction xs using (fixedRule size hsize).induction with
  | nil => exact nil
  | step xs hne ih =>
    refine step xs hne ?_
    have hcut : (fixedRule size hsize).cut xs = min size xs.length := rfl
    rw [hcut] at ih
    by_cases hle : size ≤ xs.length
    · rwa [Nat.min_eq_left hle] at ih
    · rwa [Nat.min_eq_right (by omega), List.drop_length,
        ← List.drop_eq_nil_of_le (show xs.length ≤ size by omega)] at ih

/-- The first block of a sequence that has a full one. -/
theorem chunks_fixed_append {b xs : List α} (hb : b.length = size) :
    (fixedRule size hsize).chunks (b ++ xs) =
      b :: (fixedRule size hsize).chunks xs := by
  have hne : b ++ xs ≠ [] := by
    rw [← List.length_pos_iff, List.length_append]
    omega
  have hcut : (fixedRule size hsize).cut (b ++ xs) = b.length := by
    simp only [fixedRule, List.length_append]
    omega
  rw [CutRule.chunks_of_ne_nil _ hne, hcut, List.take_left, List.drop_left]

/-- Full blocks at the front are blocks of the whole. -/
theorem chunks_fixed_flatten_append {bs : List (List α)} (hfull : ∀ b ∈ bs, b.length = size)
    (xs : List α) :
    (fixedRule size hsize).chunks (bs.flatten ++ xs) =
      bs ++ (fixedRule size hsize).chunks xs := by
  induction bs with
  | nil => rfl
  | cons b bs ih =>
    rw [List.flatten_cons, List.append_assoc,
      chunks_fixed_append hsize (hfull b List.mem_cons_self),
      ih (fun x hx => hfull x (List.mem_cons_of_mem _ hx)), List.cons_append]

/-- A short sequence is its own block. -/
theorem chunks_fixed_of_le {xs : List α} (hne : xs ≠ []) (hle : xs.length ≤ size) :
    (fixedRule size hsize).chunks xs = [xs] := by
  have hcut : (fixedRule size hsize).cut xs = xs.length := Nat.min_eq_right hle
  rw [CutRule.chunks_of_ne_nil _ hne, hcut, List.take_length,
    List.drop_length, CutRule.chunks_nil]

/-- A sequence of at most `n` block lengths has at most `n` blocks. -/
theorem length_chunks_fixed_le {n : Nat} {xs : List α} (h : xs.length ≤ n * size) :
    ((fixedRule size hsize).chunks xs).length ≤ n := by
  induction n generalizing xs with
  | zero =>
    have hnil : xs = [] := List.eq_nil_of_length_eq_zero (by omega)
    rw [hnil, CutRule.chunks_nil]
    exact Nat.le_refl 0
  | succ n ih =>
    by_cases hne : xs = []
    · rw [hne, CutRule.chunks_nil]
      exact Nat.zero_le _
    · rw [CutRule.chunks_of_ne_nil _ hne, List.length_cons]
      refine Nat.succ_le_succ (ih ?_)
      have hcut : (fixedRule size hsize).cut xs = min size xs.length := rfl
      rw [List.length_drop, hcut]
      rw [Nat.add_mul] at h
      omega

/-- The blocks are the windows at the multiples of `size`. -/
theorem map_range_eq_chunks_fixed (xs : List α) :
    (List.range ((xs.length + (size - 1)) / size)).map
      (fun i => (xs.drop (i * size)).take size) = (fixedRule size hsize).chunks xs := by
  induction xs using fixed_induction hsize with
  | nil =>
    have hzero : (([] : List α).length + (size - 1)) / size = 0 := by
      rw [List.length_nil, Nat.zero_add]
      exact Nat.div_eq_of_lt (by omega)
    rw [hzero, CutRule.chunks_nil]
    rfl
  | step xs hne ih =>
    have hpos : 0 < xs.length := List.length_pos_iff.mpr hne
    have hcount : (xs.length + (size - 1)) / size =
        ((xs.drop size).length + (size - 1)) / size + 1 := by
      rw [List.length_drop]
      by_cases hle : size ≤ xs.length
      · rw [← Nat.add_div_right _ hsize]
        congr 1
        omega
      · rw [show xs.length - size = 0 by omega, Nat.zero_add,
          Nat.div_eq_of_lt (show size - 1 < size by omega)]
        refine Nat.div_eq_of_lt_le ?_ ?_ <;> omega
    have hdrop (i : Nat) : (xs.drop ((i + 1) * size)).take size =
        ((xs.drop size).drop (i * size)).take size := by
      rw [List.drop_drop, Nat.add_mul, Nat.one_mul, Nat.add_comm (i * size)]
    rw [chunks_fixed_of_ne_nil hsize hne, hcount, List.range_succ_eq_map, List.map_cons,
      Nat.zero_mul, List.drop_zero, ← ih, List.map_map]
    simp only [Function.comp_def, Nat.succ_eq_add_one, hdrop]

/-- As many blocks as `size` goes into the length, rounded up. -/
theorem length_chunks_fixed (xs : List α) :
    ((fixedRule size hsize).chunks xs).length = (xs.length + (size - 1)) / size := by
  rw [← map_range_eq_chunks_fixed, List.length_map, List.length_range]

end Fixed

/-- A block buffer fed with pieces: `input` has come in, the full blocks
`done` have gone out, and `rest` waits in the buffer. -/
structure Filling (size : Nat) (input : List α) (done : List (List α))
    (rest : List α) : Prop where
  input_eq : input = done.flatten ++ rest
  full : ∀ b ∈ done, b.length = size
  room : rest.length < size

namespace Filling

variable {size : Nat} {input rest : List α} {done : List (List α)}

theorem start (hsize : 0 < size) : Filling size ([] : List α) [] [] where
  input_eq := rfl
  full _ hb := by cases hb
  room := hsize

/-- A piece that does not fill the buffer waits in it. -/
theorem push (h : Filling size input done rest) {piece : List α}
    (hlt : rest.length + piece.length < size) :
    Filling size (input ++ piece) done (rest ++ piece) where
  input_eq := by rw [h.input_eq, List.append_assoc]
  full := h.full
  room := by rw [List.length_append]; exact hlt

/-- A piece that fills the buffer sends a block out. -/
theorem flush (h : Filling size input done rest) {piece : List α}
    (heq : rest.length + piece.length = size) :
    Filling size (input ++ piece) (done ++ [rest ++ piece]) [] where
  input_eq := by
    rw [h.input_eq, List.flatten_append, List.flatten_singleton,
      List.append_nil, List.append_assoc]
  full b hb := by
    rcases List.mem_append.mp hb with hb | hb
    · exact h.full b hb
    · rw [List.mem_singleton.mp hb, List.length_append]
      exact heq
  room := by
    have := h.room
    rw [List.length_nil]
    omega

/-- The blocks that have gone out are no longer than what has come in. -/
theorem length_done_mul_le (h : Filling size input done rest) :
    done.length * size ≤ input.length := by
  rw [h.input_eq, List.length_append, length_flatten_of_forall h.full]
  exact Nat.le_add_right _ _

/-- The blocks do not depend on the pieces: with the rest as the last block,
if there is one, they are the blocks of the whole input. -/
theorem chunks_eq (h : Filling size input done rest) (hsize : 0 < size) :
    (fixedRule size hsize).chunks input =
      done ++ if rest = [] then [] else [rest] := by
  obtain ⟨rfl, hfull, hroom⟩ := h
  rw [chunks_fixed_flatten_append hsize hfull]
  split
  · rename_i hnil
    rw [hnil, CutRule.chunks_nil]
  · rename_i hne
    rw [chunks_fixed_of_le hsize hne (Nat.le_of_lt hroom)]

end Filling

end DpuTest.Lib
