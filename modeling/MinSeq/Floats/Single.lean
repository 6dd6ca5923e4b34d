import Mathlib.Order.WithBot
import MinSeq.Core.BinaryFormat
import MinSeq.Core.Steps

/-!
# Single-precision values

A `Single` is a 32-bit pattern that is not a NaN.  Its value is an integer multiple of the least
positive value, or an infinity, and its values are ordered like their patterns.  No rational number
and no rounding is needed to compare two values, so this module has neither.

* **`numbering`** — the pattern without the sign, taken negative where the sign is, numbers the
  values in order and without a gap; the two zeros get one number.

Functions that compare patterns as integers work with this number, whether they say so or not.  What
they compute is therefore described by `index`, and what they are for by `value`; `numbering`
connects the two.
-/

namespace MinSeq

open BinaryFormat Steps

/-- **A single-precision value other than NaN**, by its pattern. -/
structure Single where
  pattern : UInt32
  not_nan : pattern.toNat % 2 ^ 31 ≤ 0x7F800000

namespace Single

def negative (s : Single) : Bool := decide (2 ^ 31 ≤ s.pattern.toNat)

/-- The pattern without the sign. -/
def magnitude (s : Single) : ℕ := s.pattern.toNat % 2 ^ 31

/-- **The value** in units of the least positive one; the infinities are `⊥` and `⊤`.  The two zeros
have one value. -/
def value (s : Single) : WithBot (WithTop ℤ) :=
  if s.magnitude < 0x7F800000 then
    ((signed s.negative (BinaryFormat.magnitude 23 s.magnitude) : WithTop ℤ) : WithBot (WithTop ℤ))
  else if s.negative then ⊥ else ((⊤ : WithTop ℤ) : WithBot (WithTop ℤ))

/-- **The number of the value**, counted from zero upwards and downwards. -/
def index (s : Single) : ℤ := signed s.negative s.magnitude

variable {s : Single}

lemma magnitude_le (s : Single) : s.magnitude ≤ 0x7F800000 := s.not_nan

lemma natAbs_index (s : Single) : s.index.natAbs = s.magnitude := by
  cases hneg : s.negative <;> simp [index, signed, hneg]

lemma index_of_infinite (h : ¬ s.magnitude < 0x7F800000) :
    s.index = signed s.negative 0x7F800000 := by
  rw [index, le_antisymm s.magnitude_le (not_lt.1 h)]

/-- Each number between two numbers of values is one. -/
lemma exists_index (a b : Single) (z : ℤ) (hlo : a.index ≤ z) (hhi : z ≤ b.index) :
    ∃ c : Single, c.index = z := by
  have ha := a.magnitude_le
  have hb := b.magnitude_le
  rw [← natAbs_index] at ha hb
  rcases Int.lt_or_le z 0 with hneg | hnonneg
  · have hpattern : (UInt32.ofNat (2 ^ 31 + z.natAbs)).toNat = 2 ^ 31 + z.natAbs :=
      UInt32.toNat_ofNat_of_lt' (by simp only [UInt32.size]; omega)
    refine ⟨⟨UInt32.ofNat (2 ^ 31 + z.natAbs), by omega⟩, ?_⟩
    simp only [index, signed, negative, magnitude, hpattern, decide_eq_true_eq]
    split <;> omega
  · have hpattern : (UInt32.ofNat z.natAbs).toNat = z.natAbs :=
      UInt32.toNat_ofNat_of_lt' (by simp only [UInt32.size]; omega)
    refine ⟨⟨UInt32.ofNat z.natAbs, by omega⟩, ?_⟩
    simp only [index, signed, negative, magnitude, hpattern, decide_eq_true_eq]
    split <;> omega

/-- **The values are numbered** by their patterns, negative ones downwards. -/
def numbering : Numbering value where
  index := index
  exists_index := exists_index
  index_lt_iff := by
    intro a b
    by_cases ha : a.magnitude < 0x7F800000
    · by_cases hb : b.magnitude < 0x7F800000
      · rw [value, value, if_pos ha, if_pos hb, WithBot.coe_lt_coe, WithTop.coe_lt_coe,
          signed_magnitude_lt_iff, index, index]
      · have hfinite := a.natAbs_index
        rw [value, value, if_pos ha, if_neg hb, index_of_infinite hb]
        cases b.negative with
        | false =>
            simp only [signed, Bool.false_eq_true, if_false, WithBot.coe_lt_coe, WithTop.coe_lt_top,
              iff_true]
            omega
        | true =>
            simp only [signed, if_true, not_lt_bot, iff_false]
            omega
    · by_cases hb : b.magnitude < 0x7F800000
      · have hfinite := b.natAbs_index
        rw [value, value, if_neg ha, if_pos hb, index_of_infinite ha]
        cases a.negative with
        | false =>
            simp only [signed, Bool.false_eq_true, if_false, WithBot.coe_lt_coe, not_top_lt,
              iff_false]
            omega
        | true =>
            simp only [signed, if_true, WithBot.bot_lt_coe, iff_true]
            omega
      · rw [value, value, if_neg ha, if_neg hb, index_of_infinite ha, index_of_infinite hb]
        cases a.negative <;> cases b.negative <;> simp [signed]

end Single

end MinSeq
