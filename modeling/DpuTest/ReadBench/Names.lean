import DpuTest.Lib.KeyedStore
import DpuTest.ReadBench.Format
import Mathlib.Data.Nat.Digits.Lemmas

/-!
# Object names

All datasets share one flat namespace: object `index` of a dataset is
`"%s.%06u"` of its prefix and the index, and the manifest is `"%s.manifest"`.
Both are written by `snprintf` into 128 bytes.

A prefix may hold dots and digits, so the names are told apart from the right:
what follows the last dot holds no dot.  `objectName_inj` and
`manifestName_inj` say that a name determines its prefix and index, and
`objectName_ne_manifestName` that no object is a manifest.
-/

namespace DpuTest.ReadBench

/-- A C string as a prefix that the command line accepts: no terminator inside,
and `strlen(prefix) < MAX_PREFIX`. -/
@[ext] structure Prefix where
  chars : List UInt8
  nul_notMem : (0 : UInt8) ∉ chars
  length_lt : chars.length < MAX_PREFIX
  deriving DecidableEq

/-- The ASCII digits of a number, most significant first. -/
def decimal (n : Nat) : List UInt8 :=
  (Nat.digits 10 n).reverse.map (fun d => UInt8.ofNat (48 + d))

/-- `%06` of an unsigned number: at least six digits, with leading zeros. -/
def format06 (n : Nat) : List UInt8 :=
  List.replicate (6 - (decimal n).length) 48 ++ decimal n

/-- `.` -/
def DOT : UInt8 := 46

/-- `manifest` -/
def MANIFEST_SUFFIX : List UInt8 := [109, 97, 110, 105, 102, 101, 115, 116]

/-- `snprintf` into `size` bytes keeps `size - 1` characters. -/
def snprintf (size : Nat) (text : List UInt8) : List UInt8 := text.take (size - 1)

/-- `object_name(oid, sizeof(oid), prefix, index)`. -/
def objectName (pfx : List UInt8) (index : UInt64) : List UInt8 :=
  snprintf 128 (pfx ++ DOT :: format06 index.toNat)

/-- `manifest_name(oid, sizeof(oid), prefix)`. -/
def manifestName (pfx : List UInt8) : List UInt8 :=
  snprintf 128 (pfx ++ DOT :: MANIFEST_SUFFIX)

/-- The C string in a character array. -/
def cString (array : List UInt8) : List UInt8 := array.takeWhile (· ≠ 0)

/-- `snprintf(manifest.prefix, sizeof(manifest.prefix), "%s", prefix)` into a
zeroed array. -/
def prefixArray (pfx : List UInt8) : List UInt8 :=
  snprintf MAX_PREFIX pfx ++ List.replicate (MAX_PREFIX - (snprintf MAX_PREFIX pfx).length) 0

/-! ## The prefix in a manifest -/

theorem length_prefixArray (pfx : List UInt8) : (prefixArray pfx).length = MAX_PREFIX := by
  have h : (snprintf MAX_PREFIX pfx).length ≤ MAX_PREFIX := by
    rw [snprintf, List.length_take]
    omega
  rw [prefixArray, List.length_append, List.length_replicate]
  omega

/-- The prefix is read back from the manifest. -/
theorem cString_prefixArray (p : Prefix) : cString (prefixArray p.chars) = p.chars := by
  have hfit : snprintf MAX_PREFIX p.chars = p.chars :=
    List.take_of_length_le (Nat.le_sub_one_of_lt p.length_lt)
  have hpos : 0 < MAX_PREFIX - p.chars.length := Nat.sub_pos_of_lt p.length_lt
  obtain ⟨n, hn⟩ : ∃ n, MAX_PREFIX - p.chars.length = n + 1 := ⟨_, (Nat.succ_pred_eq_of_pos hpos).symm⟩
  have hall : ∀ c ∈ p.chars, decide (c ≠ 0) = true := by
    intro c hc
    rw [decide_eq_true_eq]
    rintro rfl
    exact p.nul_notMem hc
  rw [prefixArray, cString, hfit, hn, List.replicate_succ, List.takeWhile_append_of_pos hall]
  simp

/-! ## Digits -/

theorem decimal_mem {n : Nat} {c : UInt8} (h : c ∈ decimal n) : ∃ d < 10, c = UInt8.ofNat (48 + d) := by
  simp only [decimal, List.mem_map, List.mem_reverse] at h
  obtain ⟨d, hd, rfl⟩ := h
  exact ⟨d, Nat.digits_lt_base (by decide) hd, rfl⟩

theorem format06_mem {n : Nat} {c : UInt8} (h : c ∈ format06 n) :
    ∃ d < 10, c = UInt8.ofNat (48 + d) := by
  rcases List.mem_append.mp h with h | h
  · exact ⟨0, by decide, List.eq_of_mem_replicate h⟩
  · exact decimal_mem h

/-- The value of a digit string, most significant digit first. -/
def digitsValue (cs : List UInt8) : Nat :=
  Nat.ofDigits 10 (cs.reverse.map (fun c => c.toNat - 48))

theorem digitsValue_format06 (n : Nat) : digitsValue (format06 n) = n := by
  have hmap : (decimal n).reverse.map (fun c => c.toNat - 48) = Nat.digits 10 n := by
    simp only [decimal, List.map_reverse, List.reverse_reverse, List.map_map]
    conv_rhs => rw [← List.map_id (Nat.digits 10 n)]
    apply List.map_congr_left
    intro d hd
    have hlt : d < 10 := Nat.digits_lt_base (by decide) hd
    simp only [Function.comp, UInt8.toNat_ofNat', id]
    omega
  rw [digitsValue, format06, List.reverse_append, List.map_append, hmap,
    Nat.ofDigits_append, Nat.ofDigits_digits, List.reverse_replicate, List.map_replicate]
  simp

theorem format06_inj {m n : Nat} (h : format06 m = format06 n) : m = n := by
  rw [← digitsValue_format06 m, h, digitsValue_format06]

/-- Twenty characters hold any `uint64_t`. -/
theorem length_format06_le {n : Nat} (h : n < 2 ^ 64) : (format06 n).length ≤ 20 := by
  have hdigits : (Nat.digits 10 n).length ≤ 20 := by
    rw [Nat.digits_length_le_iff (by decide)]
    omega
  simp only [format06, decimal, List.length_append, List.length_replicate, List.length_map,
    List.length_reverse]
  omega

theorem DOT_notMem_format06 (n : Nat) : DOT ∉ format06 n := by
  intro h
  obtain ⟨d, hd, heq⟩ := format06_mem h
  have := congrArg UInt8.toNat heq
  rw [UInt8.toNat_ofNat', show DOT.toNat = 46 from rfl] at this
  omega

/-! ## Names are told apart -/

theorem snprintf_eq_self {text : List UInt8} (h : text.length < 128) :
    snprintf 128 text = text :=
  List.take_of_length_le (by omega)

theorem objectName_eq (p : Prefix) (index : UInt64) :
    objectName p.chars index = p.chars ++ DOT :: format06 index.toNat := by
  have hp := p.length_lt
  have hd := length_format06_le index.toNat_lt
  rw [MAX_PREFIX] at hp
  apply snprintf_eq_self
  rw [List.length_append, List.length_cons]
  omega

theorem manifestName_eq (p : Prefix) :
    manifestName p.chars = p.chars ++ DOT :: MANIFEST_SUFFIX := by
  have hp := p.length_lt
  rw [MAX_PREFIX] at hp
  apply snprintf_eq_self
  simp only [List.length_append, List.length_cons, MANIFEST_SUFFIX, List.length_nil]
  omega

/-- An object name determines the prefix and the index. -/
theorem objectName_inj {p q : Prefix} {i j : UInt64}
    (h : objectName p.chars i = objectName q.chars j) : p = q ∧ i = j := by
  rw [objectName_eq, objectName_eq] at h
  obtain ⟨hpq, hij⟩ := Lib.append_cons_inj_right (DOT_notMem_format06 _) (DOT_notMem_format06 _) h
  exact ⟨Prefix.ext hpq, UInt64.toNat_inj.mp (format06_inj hij)⟩

/-- A manifest name determines the prefix. -/
theorem manifestName_inj {p q : Prefix} (h : manifestName p.chars = manifestName q.chars) :
    p = q := by
  rw [manifestName_eq, manifestName_eq] at h
  exact Prefix.ext (Lib.append_cons_inj_right (by decide) (by decide) h).1

/-- An object is not a manifest: the letter `m` is not a digit. -/
theorem objectName_ne_manifestName (p q : Prefix) (i : UInt64) :
    objectName p.chars i ≠ manifestName q.chars := by
  intro h
  rw [objectName_eq, manifestName_eq] at h
  have hsuffix := (Lib.append_cons_inj_right (DOT_notMem_format06 _) (by decide) h).2
  have hm : (109 : UInt8) ∈ format06 i.toNat := by
    rw [hsuffix]
    decide
  obtain ⟨d, hd, heq⟩ := format06_mem hm
  have := congrArg UInt8.toNat heq
  rw [UInt8.toNat_ofNat', show (109 : UInt8).toNat = 109 from rfl] at this
  omega

end DpuTest.ReadBench
