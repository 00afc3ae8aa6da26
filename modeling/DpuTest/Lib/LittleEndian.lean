import Mathlib.Data.Nat.Log
import Mathlib.Tactic.Ring

/-!
# Little-endian integers as byte lists

`encodeLE width n` writes the low `width` bytes of `n`, lowest byte first, and
`decodeLE` reads a byte list back.  The two are inverse below `256 ^ width`,
which is what makes a packed record readable again.

`encodeU32` and `encodeU64` are the two widths that a packed C struct uses.
Their words are machine words, so their round trips carry no size hypothesis.
-/

namespace DpuTest.Lib

/-- The `width` little-endian bytes of `n`. -/
def encodeLE : Nat → Nat → List UInt8
  | 0, _ => []
  | width + 1, n => UInt8.ofNat n :: encodeLE width (n / 256)

/-- The number that a little-endian byte list spells. -/
def decodeLE : List UInt8 → Nat
  | [] => 0
  | b :: bs => b.toNat + 256 * decodeLE bs

@[simp] theorem encodeLE_length (width n : Nat) :
    (encodeLE width n).length = width := by
  induction width generalizing n with
  | zero => rfl
  | succ width ih => rw [encodeLE, List.length_cons, ih]

/-- Reading back gives the number modulo what the width can hold. -/
theorem decodeLE_encodeLE (width n : Nat) :
    decodeLE (encodeLE width n) = n % 256 ^ width := by
  induction width generalizing n with
  | zero => rw [encodeLE, decodeLE, Nat.pow_zero, Nat.mod_one]
  | succ width ih =>
    rw [encodeLE, decodeLE, ih, UInt8.toNat_ofNat']
    change n % 256 + 256 * (n / 256 % 256 ^ width) = n % 256 ^ (width + 1)
    rw [Nat.pow_succ', Nat.mod_mul]

theorem decodeLE_lt (bytes : List UInt8) :
    decodeLE bytes < 256 ^ bytes.length := by
  induction bytes with
  | nil => rw [decodeLE, List.length_nil, Nat.pow_zero]; exact Nat.one_pos
  | cons b bs ih =>
    have hb : b.toNat < 256 := b.toNat_lt
    rw [decodeLE, List.length_cons, Nat.pow_succ']
    omega

/-- Every byte list is the encoding of the number it spells. -/
theorem encodeLE_decodeLE (bytes : List UInt8) :
    encodeLE bytes.length (decodeLE bytes) = bytes := by
  induction bytes with
  | nil => rfl
  | cons b bs ih =>
    have hb : b.toNat < 256 := b.toNat_lt
    have hdiv : (b.toNat + 256 * decodeLE bs) / 256 = decodeLE bs := by omega
    have hhead : UInt8.ofNat (b.toNat + 256 * decodeLE bs) = b := by
      apply UInt8.toNat_inj.mp
      rw [UInt8.toNat_ofNat']
      omega
    rw [List.length_cons, decodeLE, encodeLE, hdiv, ih, hhead]

/-! ## The two word widths -/

/-- The four bytes of a `uint32_t`. -/
def encodeU32 (value : UInt32) : List UInt8 := encodeLE 4 value.toNat

/-- A `uint32_t` read from four bytes. -/
def decodeU32 (bytes : List UInt8) : UInt32 := UInt32.ofNat (decodeLE bytes)

/-- The eight bytes of a `uint64_t`. -/
def encodeU64 (value : UInt64) : List UInt8 := encodeLE 8 value.toNat

/-- A `uint64_t` read from eight bytes. -/
def decodeU64 (bytes : List UInt8) : UInt64 := UInt64.ofNat (decodeLE bytes)

@[simp] theorem encodeU32_length (value : UInt32) :
    (encodeU32 value).length = 4 := encodeLE_length 4 _

@[simp] theorem encodeU64_length (value : UInt64) :
    (encodeU64 value).length = 8 := encodeLE_length 8 _

@[simp] theorem decodeU32_encodeU32 (value : UInt32) :
    decodeU32 (encodeU32 value) = value := by
  have hlt : value.toNat < 256 ^ 4 := value.toNat_lt
  rw [decodeU32, encodeU32, decodeLE_encodeLE, Nat.mod_eq_of_lt hlt,
    UInt32.ofNat_toNat]

@[simp] theorem decodeU64_encodeU64 (value : UInt64) :
    decodeU64 (encodeU64 value) = value := by
  have hlt : value.toNat < 256 ^ 8 := value.toNat_lt
  rw [decodeU64, encodeU64, decodeLE_encodeLE, Nat.mod_eq_of_lt hlt,
    UInt64.ofNat_toNat]

theorem encodeU32_decodeU32 {bytes : List UInt8} (h : bytes.length = 4) :
    encodeU32 (decodeU32 bytes) = bytes := by
  have hlt := decodeLE_lt bytes
  have hrt := encodeLE_decodeLE bytes
  rw [h] at hlt hrt
  rw [encodeU32, decodeU32, UInt32.toNat_ofNat_of_lt' hlt, hrt]

theorem encodeU64_decodeU64 {bytes : List UInt8} (h : bytes.length = 8) :
    encodeU64 (decodeU64 bytes) = bytes := by
  have hlt := decodeLE_lt bytes
  have hrt := encodeLE_decodeLE bytes
  rw [h] at hlt hrt
  rw [encodeU64, decodeU64, UInt64.toNat_ofNat_of_lt' hlt, hrt]

end DpuTest.Lib
