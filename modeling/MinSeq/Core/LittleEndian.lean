import Mathlib.Algebra.Order.Ring.Int
import Mathlib.Tactic.Common

/-!
# Little-endian words

The object representation of an unsigned word, least significant byte first, at any width, and its
32-bit instance.

Both directions of the round trip are proved.  An encoder needs that decoding gives the number back,
**`natOfBytes_bytesOfNat`**.  A decoder that accepts arbitrary bytes needs the other one, that
encoding what was decoded gives the bytes back, **`bytesOfNat_natOfBytes`**: no two byte strings of
one length stand for the same number.
-/

namespace LittleEndian

/-- The low `k` bytes of a number, least significant first.  What does not fit into them is cut
off. -/
def bytesOfNat : ℕ → ℕ → List UInt8
  | 0, _ => []
  | k + 1, n => UInt8.ofNat n :: bytesOfNat k (n / 256)

/-- The number a byte string denotes, least significant byte first, whatever the length of the
string. -/
def natOfBytes : List UInt8 → ℕ
  | [] => 0
  | b :: bs => b.toNat + 256 * natOfBytes bs

/-- The width alone decides how many bytes there are. -/
@[simp] lemma length_bytesOfNat (k n : ℕ) : (bytesOfNat k n).length = k := by
  induction k generalizing n with
  | zero => rfl
  | succ k ih => simp [bytesOfNat, ih]

/-- **Decoding the low `k` bytes** gives the number back, up to the width.  The induction is on the
width, and peels the least significant byte off both sides. -/
lemma natOfBytes_bytesOfNat (k n : ℕ) : natOfBytes (bytesOfNat k n) = n % 256 ^ k := by
  induction k generalizing n with
  | zero => simp [bytesOfNat, natOfBytes, Nat.mod_one]
  | succ k ih =>
      have hpow : 256 ^ (k + 1) = 256 * 256 ^ k := Nat.pow_succ'
      rw [bytesOfNat, natOfBytes, ih, UInt8.toNat_ofNat', hpow, Nat.mod_mul]

/-- **Every byte string is the encoding of what it denotes**, so decoding loses nothing. -/
lemma bytesOfNat_natOfBytes (bs : List UInt8) : bytesOfNat bs.length (natOfBytes bs) = bs := by
  induction bs with
  | nil => rfl
  | cons b bs ih =>
      have hb : b.toNat < 256 := b.toNat_lt
      have hdiv : (b.toNat + 256 * natOfBytes bs) / 256 = natOfBytes bs := by omega
      have hhead : UInt8.ofNat (b.toNat + 256 * natOfBytes bs) = b := by
        apply UInt8.toNat_inj.mp
        rw [UInt8.toNat_ofNat']
        omega
      rw [List.length_cons, natOfBytes, bytesOfNat, hdiv, ih, hhead]

/-- What `k` bytes denote fits into `k` bytes, so decoding four bytes gives a 32-bit word. -/
lemma natOfBytes_lt (bs : List UInt8) : natOfBytes bs < 256 ^ bs.length := by
  induction bs with
  | nil => simp [natOfBytes]
  | cons b bs ih =>
      have hb : b.toNat < 256 := b.toNat_lt
      rw [natOfBytes, List.length_cons, Nat.pow_succ]
      omega

/-! ## 32-bit words

The one width that the serializers prefix their strings with, and count their integrity checks in.
-/

/-- **The four bytes of a 32-bit word**, as they lie in the memory of a little-endian machine. -/
def bytesOfU32 (x : UInt32) : List UInt8 := bytesOfNat 4 x.toNat

/-- **The 32-bit word four bytes denote.**  Of a longer list it would be what the first four
denote. -/
def u32OfBytes (bs : List UInt8) : UInt32 := UInt32.ofNat (natOfBytes bs)

@[simp] lemma length_bytesOfU32 (x : UInt32) : (bytesOfU32 x).length = 4 :=
  length_bytesOfNat 4 _

/-- **Encode, then decode**: no 32-bit word is changed. -/
@[simp] lemma u32OfBytes_bytesOfU32 (x : UInt32) : u32OfBytes (bytesOfU32 x) = x := by
  apply UInt32.toNat_inj.mp
  have hx : x.toNat < 2 ^ 32 := x.toNat_lt
  rw [u32OfBytes, bytesOfU32, natOfBytes_bytesOfNat, UInt32.toNat_ofNat']
  omega

/-- **Decode, then encode**: no four bytes are changed. -/
lemma bytesOfU32_u32OfBytes {bs : List UInt8} (h : bs.length = 4) :
    bytesOfU32 (u32OfBytes bs) = bs := by
  have hlt : natOfBytes bs < 2 ^ 32 := by
    have := natOfBytes_lt bs
    rw [h] at this
    omega
  rw [bytesOfU32, u32OfBytes, UInt32.toNat_ofNat', Nat.mod_eq_of_lt hlt, ← h,
    bytesOfNat_natOfBytes]

/-- Words with the same four bytes are the same word. -/
lemma bytesOfU32_injective {x y : UInt32} (h : bytesOfU32 x = bytesOfU32 y) : x = y := by
  rw [← u32OfBytes_bytesOfU32 x, h, u32OfBytes_bytesOfU32]

end LittleEndian
