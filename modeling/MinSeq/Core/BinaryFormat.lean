import Mathlib.Order.Monotone.Basic
import Mathlib.Algebra.Order.Ring.Int
import Mathlib.Tactic.Common

/-!
# Binary floating-point patterns

The pattern of a floating-point number without its sign is one number: the exponent field above a
fraction field of `w` bits.  `magnitude w` is the value of such a pattern, counted in units of the
least positive value of the format.  In that unit every value is a natural number, so nothing here
needs a fraction or a real number.

The width of the exponent field plays no part.  A pattern may be as large as it likes, and what a
format does with its largest exponent is for the format to say.

* **`magnitude_strictMono`** — larger patterns have larger values, across the subnormals and from
  one exponent to the next; `signed_magnitude_lt_iff` puts a sign before both.  This is what makes
  the integer comparison of two patterns a comparison of their values.
-/

namespace BinaryFormat

variable {w m n : ℕ}

/-- The value of a pattern: subnormal where the exponent field is 0, else with the hidden bit.  Both
kinds are multiples of the same unit, the subnormals and the first binade with factor one. -/
def magnitude (w m : ℕ) : ℕ :=
  if m / 2 ^ w = 0 then m % 2 ^ w else (2 ^ w + m % 2 ^ w) * 2 ^ (m / 2 ^ w - 1)

@[simp] lemma magnitude_zero (w : ℕ) : magnitude w 0 = 0 := by
  simp [magnitude]

/-- The value by fields, for a pattern that is given as an exponent and a fraction. -/
lemma magnitude_fields {e f : ℕ} (hf : f < 2 ^ w) :
    magnitude w (2 ^ w * e + f) = if e = 0 then f else (2 ^ w + f) * 2 ^ (e - 1) := by
  have hdiv : (2 ^ w * e + f) / 2 ^ w = e := by
    rw [Nat.mul_add_div (Nat.two_pow_pos w), Nat.div_eq_of_lt hf, Nat.add_zero]
  have hmod : (2 ^ w * e + f) % 2 ^ w = f := by
    rw [Nat.mul_add_mod, Nat.mod_eq_of_lt hf]
  rw [magnitude, hdiv, hmod]

/-- The step to the next fraction, or from the last fraction to the next exponent.  At the carry the
hidden bit takes the place of the fraction that overflowed, so the value goes on growing. -/
lemma magnitude_lt_succ (w m : ℕ) : magnitude w m < magnitude w (m + 1) := by
  have hf : m % 2 ^ w < 2 ^ w := Nat.mod_lt m (Nat.two_pow_pos w)
  rw [← Nat.div_add_mod m (2 ^ w)]
  generalize m / 2 ^ w = e, m % 2 ^ w = f at hf
  rcases Nat.lt_or_ge (f + 1) (2 ^ w) with hlt | hge
  · rw [Nat.add_assoc, magnitude_fields hf, magnitude_fields hlt]
    split
    · omega
    · exact Nat.mul_lt_mul_of_pos_right (by omega) (Nat.two_pow_pos _)
  · have hcarry : 2 ^ w * e + f + 1 = 2 ^ w * (e + 1) + 0 := by
      rw [Nat.mul_succ]
      omega
    rw [hcarry, magnitude_fields hf, magnitude_fields (Nat.two_pow_pos w),
      if_neg (Nat.succ_ne_zero e),
      Nat.add_zero, Nat.add_sub_cancel]
    cases e with
    | zero => simpa using hf
    | succ e =>
        rw [if_neg (Nat.succ_ne_zero e), Nat.add_sub_cancel, Nat.pow_succ', ← Nat.mul_assoc]
        exact Nat.mul_lt_mul_of_pos_right (by omega) (Nat.two_pow_pos e)

/-- **Larger patterns have larger values.** -/
theorem magnitude_strictMono (w : ℕ) : StrictMono (magnitude w) :=
  strictMono_nat_of_lt_succ (magnitude_lt_succ w)

/-- A sign and a magnitude, as the formats store them; zero comes with both signs. -/
def signed (negative : Bool) (m : ℕ) : ℤ := if negative then -m else m

@[simp] lemma signed_false (m : ℕ) : signed false m = m := rfl

/-- The magnitude is the absolute value. -/
@[simp] lemma abs_signed (negative : Bool) (m : ℕ) : |signed negative m| = m := by
  have habs : |(m : ℤ)| = m := abs_of_nonneg (Int.natCast_nonneg m)
  cases negative
  · exact habs
  · exact (abs_neg (m : ℤ)).trans habs

/-- The sign may be taken out of a product. -/
lemma signed_mul (negative : Bool) (m k : ℕ) : signed negative (m * k) = signed negative m * k := by
  cases negative
  · exact Nat.cast_mul m k
  · exact (congrArg Neg.neg (Nat.cast_mul m k)).trans (neg_mul_eq_neg_mul _ _)

/-- **With its sign, too, a larger pattern has a larger value**; the two zeros are equal in both. -/
theorem signed_magnitude_lt_iff (w : ℕ) (s t : Bool) (m n : ℕ) :
    signed s (magnitude w m) < signed t (magnitude w n) ↔ signed s m < signed t n := by
  have hmono := magnitude_strictMono w
  have hmn : magnitude w m < magnitude w n ↔ m < n := hmono.lt_iff_lt
  have hnm : magnitude w n < magnitude w m ↔ n < m := hmono.lt_iff_lt
  have hm : 0 < magnitude w m ↔ 0 < m := by simpa using hmono.lt_iff_lt (a := 0) (b := m)
  have hn : 0 < magnitude w n ↔ 0 < n := by simpa using hmono.lt_iff_lt (a := 0) (b := n)
  cases s <;> cases t <;> simp only [signed, if_true, if_false, Bool.false_eq_true] <;> omega

end BinaryFormat
