import MinSeq.Core.CppTypes
import MinSeq.Floats.Double

/-!
# Does `ftoi_round` round to the nearest integer?

`ftoi_round` of `utils/floatutils.h` adds `1.5 * 2 ^ 52` and takes the low 32 bits of the pattern of
the sum.  Between `2 ^ 52` and `2 ^ 53` the `double`s are just the integers.  So the sum is rounded
to an integer by the hardware, and its pattern counts integers from that of the constant, whose low
half is zero.  The half in `1.5` keeps the sum in this range for negative arguments too.

* **`toInt_ftoiRound_of_range`** — for every finite `double` whose nearest integer is an `int`, ties
  to even, the result is that integer.
* `toInt_ftoiRound` — as long as the sum stays between two powers of two, the result is the nearest
  integer reduced to an `int`.
-/

namespace MinSeq

open BinaryFormat Binary64 Cpp

/-- `6755399441055744.0`, the pattern of `1.5 * 2 ^ 52`. -/
def floatutilXsDoublemagic : UInt64 := 0x4338000000000000

/-- **`ftoi_round`**: the `union` gives the pattern of the sum, and the cast its low half. -/
def ftoiRound (val : UInt64) : Int32 := toInt (add val floatutilXsDoublemagic)

/-- The pattern above is that of the number in the source. -/
lemma units_doublemagic : units floatutilXsDoublemagic = 3 * 2 ^ 51 * one := by
  decide +kernel

variable {val : UInt64}

/-- The spacing around the constant is 1, so the pattern of the sum counts integers from it. -/
lemma add_doublemagic (hlo : -2 ^ 51 ≤ value val) (hhi : value val < 2 ^ 51) :
    ((add val floatutilXsDoublemagic).toNat : ℤ) =
      0x4338000000000000 + roundEven (value val) := by
  have hlo' : -2 ^ 51 * one ≤ units val := by
    rw [value, le_div_iff₀ one_pos] at hlo
    exact_mod_cast hlo
  have hhi' : units val < 2 ^ 51 * one := by
    rw [value, div_lt_iff₀ one_pos] at hhi
    exact_mod_cast hhi
  obtain ⟨N, hN⟩ : ∃ N : ℕ, units val + 3 * 2 ^ 51 * one = N :=
    Int.eq_ofNat_of_zero_le (by omega)
  have hquot : (N : ℚ) / 2 ^ scale = value val + (3 * 2 ^ 51 : ℤ) := by
    have hcast : (N : ℚ) = units val + (3 * 2 ^ 51 : ℤ) * one := by exact_mod_cast hN.symm
    rw [hcast, ← cast_one, value, add_div, mul_div_cancel_right₀ _ one_pos.ne']
  have hround : roundEven ((N : ℚ) / 2 ^ scale) = roundEven (value val) + 3 * 2 ^ 51 := by
    rw [hquot, roundEven_add_intCast _ (by decide)]
  have hrlo : -2 ^ 51 ≤ roundEven (value val) := by
    rw [le_roundEven_iff]
    left
    push_cast
    linarith
  have hrhi : roundEven (value val) ≤ 2 ^ 51 := by
    rw [roundEven_le_iff]
    left
    push_cast
    linarith
  have hencode : (encode 52 N : ℤ) = 0x4338000000000000 + roundEven (value val) := by
    have hbinade : 2 ^ 52 * 2 ^ scale ≤ N ∧ N < 2 ^ (52 + 1) * 2 ^ scale := by
      rw [← one]
      omega
    rw [encode_of_range hbinade.1 hbinade.2, hround, scale]
    omega
  rw [add, units_doublemagic, hN, ofUnits, Int.natAbs_natCast, if_neg (by omega),
    UInt64.toNat_ofNat']
  omega

/-- **The nearest integer, reduced to an `int`.**  The bounds are those of the sum, and far wider
than an `int`. -/
theorem toInt_ftoiRound (hlo : -2 ^ 51 ≤ value val) (hhi : value val < 2 ^ 51) :
    (ftoiRound val).toInt = (roundEven (value val)).bmod (2 ^ 32) := by
  have hmagic : (0x4338000000000000 : ℤ) = (2 ^ 32 : ℕ) * 0x43380000 := by decide
  rw [ftoiRound, toInt_toInt, add_doublemagic hlo hhi, hmagic, Int.mul_add_bmod_self_left]

/-- **The nearest integer, ties to even**, wherever that is an `int`. -/
theorem toInt_ftoiRound_of_range (val : FiniteDouble) (hlo : -2 ^ 31 ≤ roundEven val.value)
    (hhi : roundEven val.value ≤ 2 ^ 31 - 1) :
    (ftoiRound val.pattern).toInt = roundEven val.value := by
  have hvlo : (-2 ^ 51 : ℚ) ≤ val.value := by
    rw [le_roundEven_iff] at hlo
    push_cast at hlo
    rcases hlo with h | ⟨h, -⟩ <;> linarith
  have hvhi : val.value < 2 ^ 51 := by
    rw [roundEven_le_iff] at hhi
    push_cast at hhi
    rcases hhi with h | ⟨h, -⟩ <;> linarith
  rw [toInt_ftoiRound hvlo hvhi]
  exact bmod_of_range hlo (Int.le_sub_one_iff.1 hhi)

/-- A negative tie, -2.5. -/
theorem toInt_ftoiRound_tie : (ftoiRound 0xC004000000000000).toInt = -2 :=
  (toInt_ftoiRound_of_range ⟨0xC004000000000000, by decide⟩ (by decide +kernel)
      (by decide +kernel)).trans
    (by decide +kernel)

end MinSeq
