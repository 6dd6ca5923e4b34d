import Mathlib.Data.Int.ConditionallyCompleteOrder
import Mathlib.Order.ConditionallyCompleteLattice.Basic
import MinSeq.Core.CppTypes
import MinSeq.Floats.Single

/-!
# Do the sign tests compare with zero?

Four functions of `utils/floatutils.h` compare a `float` with zero by one integer comparison of its
pattern, two of them as `unsigned int` and two as `int`.  The negative zero is the pattern in
question: as an `int` it is the least there is, and as an `unsigned int` the first with a sign.

* **`signTests_iff`** — for every pattern there is, the four are the comparisons with `0.0f` exactly
  when the pattern is not a NaN.  A NaN counts as negative or as positive by its sign, where it
  compares with nothing.
-/

namespace MinSeq

open BinaryFormat Cpp Steps

/-! ## The functions -/

/-- **`lessThanZero32`** leaves out the negative zero, as it compares with it. -/
def lessThanZero32 (f : UInt32) : Bool := f > 0x80000000

/-- **`lessOrEqualZero`** counts it in, as every pattern with a sign is a negative `int`. -/
def lessOrEqualZero (f : UInt32) : Bool := f.toInt32 ≤ 0

def greaterThanZero (f : UInt32) : Bool := f.toInt32 > 0

def greaterOrEqualZero32 (f : UInt32) : Bool := f ≤ 0x80000000

/-! ## What they are for -/

/-- **The value of a pattern** that has one.  A NaN has none. -/
def floatValue (f : UInt32) : Option (WithBot (WithTop ℤ)) :=
  if h : f.toNat % 2 ^ 31 ≤ 0x7F800000 then some (Single.mk f h).value else none

/-- The pattern of `0.0f`; that of `-0.0f` has the same value. -/
def Single.zero : Single := ⟨0, by decide⟩

/-- **A comparison with zero**; a NaN compares with nothing, whichever of the four it is. -/
def Compares (r : WithBot (WithTop ℤ) → WithBot (WithTop ℤ) → Prop) (f : UInt32) : Prop :=
  ∃ v ∈ floatValue f, r v Single.zero.value

/-- **The tests are the comparisons**, all four of them. -/
structure SignTests (f : UInt32) : Prop where
  less : lessThanZero32 f = true ↔ Compares (· < ·) f
  lessEqual : lessOrEqualZero f = true ↔ Compares (· ≤ ·) f
  greater : greaterThanZero f = true ↔ Compares (· > ·) f
  greaterEqual : greaterOrEqualZero32 f = true ↔ Compares (· ≥ ·) f

/-! ## By the number of the value -/

/-- Comparing values with zero is comparing their numbers with 0. -/
lemma Single.value_lt_zero_iff (s : Single) : s.value < zero.value ↔ s.index < 0 :=
  (numbering.index_lt_iff s zero).symm

lemma Single.zero_lt_value_iff (s : Single) : zero.value < s.value ↔ 0 < s.index :=
  (numbering.index_lt_iff zero s).symm

lemma compares_of_le {f : UInt32} (h : f.toNat % 2 ^ 31 ≤ 0x7F800000)
    (r : WithBot (WithTop ℤ) → WithBot (WithTop ℤ) → Prop) :
    Compares r f ↔ r (Single.mk f h).value Single.zero.value := by
  rw [Compares, floatValue, dif_pos h]
  simp

/-- A NaN is neither less than zero nor greater, and not equal to it. -/
lemma not_compares {f : UInt32} (h : ¬ f.toNat % 2 ^ 31 ≤ 0x7F800000)
    (r : WithBot (WithTop ℤ) → WithBot (WithTop ℤ) → Prop) : ¬ Compares r f := by
  rw [Compares, floatValue, dif_neg h]
  simp

lemma lessThanZero32_iff (f : UInt32) : lessThanZero32 f = true ↔ 2 ^ 31 < f.toNat := by
  rw [lessThanZero32, decide_eq_true_eq, gt_iff_lt, UInt32.lt_iff_toNat_lt]
  rfl

/-- The second unsigned test is the first one turned around, for a NaN as well. -/
lemma greaterOrEqualZero32_eq (f : UInt32) : greaterOrEqualZero32 f = !lessThanZero32 f := by
  rw [greaterOrEqualZero32, lessThanZero32, ← decide_not, decide_eq_decide]
  exact UInt32.not_lt.symm

lemma greaterThanZero_iff (f : UInt32) :
    greaterThanZero f = true ↔ 0 < f.toNat ∧ f.toNat < 2 ^ 31 := by
  have hlt := f.toNat_lt
  rw [greaterThanZero, decide_eq_true_eq, gt_iff_lt, Int32.lt_iff_toInt_lt, toInt_toInt32,
    Int32.toInt_zero]
  split <;> omega

lemma lessOrEqualZero_eq (f : UInt32) : lessOrEqualZero f = !greaterThanZero f := by
  rw [lessOrEqualZero, greaterThanZero, ← decide_not, decide_eq_decide]
  exact Int32.not_lt.symm

/-- **When the tests are the comparisons.** -/
theorem signTests_iff (f : UInt32) : SignTests f ↔ floatValue f ≠ none := by
  have hlt := f.toNat_lt
  by_cases h : f.toNat % 2 ^ 31 ≤ 0x7F800000
  · have hindex : (Single.mk f h).index
        = signed (decide (2 ^ 31 ≤ f.toNat)) (f.toNat % 2 ^ 31) := rfl
    have hless : lessThanZero32 f = true ↔ (Single.mk f h).value < Single.zero.value := by
      rw [lessThanZero32_iff, Single.value_lt_zero_iff, hindex, signed]
      split_ifs with hsign <;> simp only [decide_eq_true_eq] at hsign <;> omega
    have hgreater : greaterThanZero f = true ↔ Single.zero.value < (Single.mk f h).value := by
      rw [greaterThanZero_iff, Single.zero_lt_value_iff, hindex, signed]
      split_ifs with hsign <;> simp only [decide_eq_true_eq] at hsign <;> omega
    refine iff_of_true ⟨?_, ?_, ?_, ?_⟩ (by rw [floatValue, dif_pos h]; simp)
    · rw [compares_of_le h, hless]
    · rw [compares_of_le h, lessOrEqualZero_eq, Bool.not_eq_true', ← Bool.not_eq_true, hgreater,
        not_lt]
    · rw [compares_of_le h, hgreater, gt_iff_lt]
    · rw [compares_of_le h, greaterOrEqualZero32_eq, Bool.not_eq_true', ← Bool.not_eq_true, hless,
        not_lt, ge_iff_le]
  · refine iff_of_false ?_ (by rw [floatValue, dif_neg h]; simp)
    intro htests
    have hless := (not_congr htests.less).2 (not_compares h _)
    have hgreaterEqual := (not_congr htests.greaterEqual).2 (not_compares h _)
    rw [greaterOrEqualZero32_eq] at hgreaterEqual
    cases hsign : lessThanZero32 f
    · exact hgreaterEqual (by rw [hsign]; rfl)
    · exact hless hsign

end MinSeq
