import Mathlib.Data.Nat.Bitwise
import Mathlib.Tactic.Common

/-!
# Bytes as a sequence of bits

Bit `i` of a run of bytes is bit `i % 8` of byte `i / 8`; past the end every bit is off.  The run is
then known by its bits alone, and the arithmetic of bytes and offsets is done here once, so that a
user of these lemmas speaks only about positions.

* **`bit_turnOn`**, **`bit_turnOff`** — masking one byte changes one bit.
* **`bit_resize`** — cutting bytes off or filling up with zeros.
* `testBit_word` — the word that a loop puts together from single bits.
-/

namespace ByteBits

variable {bytes : List UInt8} {b : UInt8} {i j n : ℕ}

/-- **A bit of the run**, by its position.  There is one at every position: past the end it is
off. -/
def bit (bytes : List UInt8) (i : ℕ) : Bool := (bytes.getD (i / 8) 0).toNat.testBit (i % 8)

/-- The byte with one bit on, which is how the code reaches a single bit. -/
def mask (offset : ℕ) : UInt8 := UInt8.ofNat (1 <<< offset)

/-! ## One byte

What the two masking operations do to the bits of a single byte.
-/

lemma testBit_mask (hi : i < 8) (hj : j < 8) : (mask i).toNat.testBit j = decide (j = i) := by
  have hall : ∀ i < 8, ∀ j < 8, (mask i).toNat.testBit j = decide (j = i) := by decide
  exact hall i hi j hj

/-- Or-ing the mask in turns that bit on and leaves the others. -/
lemma testBit_or_mask (hi : i < 8) (hj : j < 8) :
    (b ||| mask i).toNat.testBit j = if j = i then true else b.toNat.testBit j := by
  rw [UInt8.toNat_or, Nat.testBit_or, testBit_mask hi hj]
  split_ifs with h <;> simp [h]

/-- And-ing its complement turns the bit off and leaves the others. -/
lemma testBit_and_not_mask (hi : i < 8) (hj : j < 8) :
    (b &&& ~~~mask i).toNat.testBit j = if j = i then false else b.toNat.testBit j := by
  have hnot : (~~~mask i).toNat.testBit j = !(mask i).toNat.testBit j := by
    show (~~~(mask i).toBitVec).getLsbD j = !(mask i).toBitVec.getLsbD j
    simp [hj]
  rw [UInt8.toNat_and, Nat.testBit_and, hnot, testBit_mask hi hj]
  split_ifs with h <;> simp [h]

/-! ## Runs of bytes

The same for the whole run, where the other bytes stay as they are.
-/

/-- One byte replaced: the positions in it are those of the new byte, and the others are not
touched. -/
lemma bit_set (hi : i / 8 < bytes.length) :
    bit (bytes.set (i / 8) b) j
      = if j / 8 = i / 8 then b.toNat.testBit (j % 8) else bit bytes j := by
  rw [bit, bit, List.getD_eq_getElem?_getD, List.getD_eq_getElem?_getD, List.getElem?_set]
  by_cases h : i / 8 = j / 8
  · rw [if_pos h, if_pos (h ▸ hi), if_pos h.symm, Option.getD_some]
  · rw [if_neg h, if_neg (Ne.symm h)]

/-- **A bit turned on**: the mask is or-ed into the byte that the position is in, and every other
position stays. -/
theorem bit_turnOn (hi : i / 8 < bytes.length) :
    bit (bytes.set (i / 8) (bytes.getD (i / 8) 0 ||| mask (i % 8))) j
      = if j = i then true else bit bytes j := by
  rw [bit_set hi]
  by_cases hbyte : j / 8 = i / 8
  · rw [if_pos hbyte, testBit_or_mask (by omega) (by omega), bit, hbyte]
    exact if_congr (by omega) rfl rfl
  · rw [if_neg hbyte, if_neg (by omega)]

/-- **A bit turned off**, with the complement of the mask. -/
theorem bit_turnOff (hi : i / 8 < bytes.length) :
    bit (bytes.set (i / 8) (bytes.getD (i / 8) 0 &&& ~~~mask (i % 8))) j
      = if j = i then false else bit bytes j := by
  rw [bit_set hi]
  by_cases hbyte : j / 8 = i / 8
  · rw [if_pos hbyte, testBit_and_not_mask (by omega) (by omega), bit, hbyte]
    exact if_congr (by omega) rfl rfl
  · rw [if_neg hbyte, if_neg (by omega)]

lemma bit_replicate_zero : bit (List.replicate n 0) i = false := by
  rw [bit, List.getD_eq_getElem?_getD, List.getElem?_replicate]
  split_ifs <;> simp

/-- **Cut off, or filled up with zeros.**  A run has no bits past its end either way, so both are
the same statement. -/
theorem bit_resize :
    bit (bytes.take n ++ List.replicate (n - bytes.length) 0) i
      = (decide (i < 8 * n) && bit bytes i) := by
  rw [bit, bit, List.getD_eq_getElem?_getD, List.getD_eq_getElem?_getD, List.getElem?_append,
    List.getElem?_take, List.getElem?_replicate, List.length_take]
  by_cases hn : i < 8 * n
  · by_cases hlength : i / 8 < bytes.length
    · rw [if_pos (by omega), if_pos (by omega)]
      simp [hn]
    · rw [if_neg (by omega), if_pos (by omega), List.getElem?_eq_none (by omega)]
      simp [hn]
  · rw [if_neg (by omega), if_neg (by omega)]
    simp [hn]

/-! ## Words from bits -/

/-- **Putting the first `n` bits together**, lowest first, as a loop does that or-es one shifted bit
after another into a word. -/
def word (f : ℕ → Bool) : ℕ → ℕ
  | 0 => 0
  | n + 1 => word f n ||| (f n).toNat <<< n

/-- The word has the bits that were put in. -/
lemma testBit_word (f : ℕ → Bool) (n j : ℕ) :
    (word f n).testBit j = (decide (j < n) && f j) := by
  induction n with
  | zero => simp [word]
  | succ n ih =>
      rw [word, Nat.testBit_or, ih, Nat.testBit_shiftLeft]
      rcases Nat.lt_trichotomy j n with h | rfl | h
      · simp [h, Nat.lt_succ_of_lt h, Nat.not_le.2 h]
      · cases f j <;> simp
      · have hsub : j - n ≠ 0 := by omega
        have hbit : (f n).toNat.testBit (j - n) = false := by
          cases f n
          · simp
          · exact Bool.eq_false_iff.2 fun h =>
              hsub (Nat.testBit_one_eq_true_iff_self_eq_zero.1 h)
        simp [hbit, Nat.not_lt.2 h.le, Nat.not_lt.2 (Nat.succ_le_of_lt h)]

lemma word_lt (f : ℕ → Bool) (n : ℕ) : word f n < 2 ^ n := by
  refine Nat.lt_pow_two_of_testBit _ fun j hj => ?_
  rw [testBit_word, decide_eq_false (Nat.not_lt.2 hj), Bool.false_and]

/-- Bits do not overlap, so putting one in is adding it. -/
lemma word_succ (f : ℕ → Bool) (n : ℕ) : word f (n + 1) = (f n).toNat * 2 ^ n + word f n := by
  rw [word, Nat.or_comm, ← Nat.shiftLeft_add_eq_or_of_lt (word_lt f n), Nat.shiftLeft_eq]

end ByteBits
