import MinSeq.Core.Rounding

/-!
# Double-precision values and their sums

A `double` is its 64-bit pattern.  A finite one is an integer multiple of the least positive value,
its `units`, and the hardware adds and subtracts by rounding the exact result to the nearest value,
ties to even.  The exact sum of two finite values is again a number of units, so it can be written
down as an integer and rounded by `encode`, which the library has for every format.

* **`units_ofUnits`** — the pattern of a rounded result has the rounded value, as long as that is
  finite.

**What is left out** are operands that are infinite or not numbers: the functions that compute with
`double`s are only looked at where their arguments are finite.  A result may still be infinite.
-/

namespace MinSeq

open BinaryFormat

/-- **A finite `double`**, by its pattern. -/
structure FiniteDouble where
  pattern : UInt64
  finite : pattern.toNat % 2 ^ 63 < 0x7FF0000000000000

namespace Binary64

/-- **The value of a finite pattern** in units of the least positive one: the sign, and the
magnitude that the other bits encode. -/
def units (p : UInt64) : ℤ :=
  signed (decide (2 ^ 63 ≤ p.toNat)) (magnitude 52 (p.toNat % 2 ^ 63))

/-- The exponent of the least positive value: it is `2` to the power of minus this. -/
def scale : ℕ := 1074

def one : ℕ := 2 ^ scale

lemma one_pos : (0 : ℚ) < one := Nat.cast_pos.2 (Nat.two_pow_pos scale)

lemma cast_one : (one : ℚ) = 2 ^ scale := by
  rw [one, Nat.cast_pow, Nat.cast_ofNat]

/-- The value as a rational number. -/
def value (p : UInt64) : ℚ := units p / one

/-- **The pattern of an exact result**, rounded.  Above the last finite value comes the infinity; a
result that is zero is the positive one. -/
def ofUnits (z : ℤ) : UInt64 :=
  UInt64.ofNat ((if z < 0 then 2 ^ 63 else 0) + min (encode 52 z.natAbs) 0x7FF0000000000000)

/-- **Addition** of finite operands: the exact sum, rounded. -/
def add (a b : UInt64) : UInt64 := ofUnits (units a + units b)

/-- **Subtraction** of finite operands, in the same way. -/
def sub (a b : UInt64) : UInt64 := ofUnits (units a - units b)

/-- The comparison `a < b`, for finite operands, which is exact. -/
def lt (a b : UInt64) : Bool := decide (units a < units b)

/-- **Rounding is to the nearest value**, for both signs. -/
theorem units_ofUnits {z : ℤ} (h : |z| ≤ magnitude 52 0x7FF0000000000000) :
    units (ofUnits z) = roundSigned 52 z := by
  have hle : encode 52 z.natAbs ≤ 0x7FF0000000000000 := by
    rw [← (magnitude_strictMono 52).le_iff_le]
    refine magnitude_encode_le (by omega) ?_
    zify
    exact h
  rw [units, ofUnits, min_eq_left hle,
    UInt64.toNat_ofNat_of_lt' (by simp only [UInt64.size]; split <;> omega), roundSigned]
  congr 1
  · rw [decide_eq_decide]
    split <;> omega
  · congr 1
    split <;> omega

/-- The same as rational numbers, far below the infinity. -/
lemma value_ofUnits {z : ℤ} (h : |z| ≤ 2 ^ 60 * one) :
    value (ofUnits z) = (roundSigned 52 z : ℚ) / one := by
  have hlimit : 2 ^ 60 * one ≤ magnitude 52 0x7FF0000000000000 := by decide +kernel
  rw [value, units_ofUnits (h.trans (by exact_mod_cast hlimit))]

lemma value_ofUnits_neg {z : ℤ} (h : |z| ≤ 2 ^ 60 * one) :
    value (ofUnits (-z)) = -value (ofUnits z) := by
  rw [value_ofUnits h, value_ofUnits (by rwa [abs_neg]), roundSigned_neg (by omega), Int.cast_neg,
    neg_div]

end Binary64

namespace FiniteDouble

def value (d : FiniteDouble) : ℚ := Binary64.value d.pattern

end FiniteDouble

end MinSeq
