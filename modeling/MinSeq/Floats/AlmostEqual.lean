import MinSeq.Core.CppTypes
import MinSeq.Floats.Single

/-!
# Does `almostEqual2sComplement` count representable values?

`almostEqual2sComplement` of `utils/floatutils.h` maps the pattern of a `float` to an `int` that is
ordered as the floats are, subtracts two of these and compares the absolute value of the difference
with `maxUlps`.  A `float` is its pattern here, and `int` arithmetic wraps, as the difference of two
`int`s need not be one.

* **`decidesUlpDistance_iff`** — for every two numbers and every `maxUlps` in the asserted range,
  the function decides whether they are at most `maxUlps` steps apart, unless they are of opposite
  sign and their patterns without the sign add up to `2 ^ 31`: then the difference is `INT_MIN`,
  `abs` returns it as it is, and it is below every `maxUlps`.
* `toInt_lexicographic` — the mapped pattern is the number of the value, counted from zero.

**Steps.**  `Within` counts steps from a value to the next one, without a pattern: the two zeros are
no step apart, and the infinities are the last values.  That this is the difference of the numbers
follows from the numbering having no gap.
-/

namespace MinSeq

open BinaryFormat Cpp Steps

/-! ## The function -/

/-- **The mapping.**  `if (i < 0) i = 0x80000000 - i;`, subtracted as `unsigned int`. -/
def lexicographic (i : Int32) : Int32 := if i < 0 then (0x80000000 - i.toUInt32).toInt32 else i

/-- **`almostEqual2sComplement`.**  The operands are the patterns of the floats; `Int32.abs`, as
C's, leaves `INT_MIN` as it is. -/
def almostEqual2sComplement (A B : UInt32) (maxUlps : Int32) : Bool :=
  let aInt := lexicographic A.toInt32
  let bInt := lexicographic B.toInt32
  let intDiff := (aInt - bInt).abs
  decide (intDiff ≤ maxUlps)

/-- **What the function is for**: it decides the distance in steps, it does not matter which
argument comes first, and two values of opposite sign that are both far from zero are never
equal. -/
structure DecidesUlpDistance (A B : Single) (maxUlps : Int32) : Prop where
  decides : almostEqual2sComplement A.pattern B.pattern maxUlps = true ↔
    Within Single.value maxUlps.toNatClampNeg A B
  symmetric : almostEqual2sComplement A.pattern B.pattern maxUlps =
    almostEqual2sComplement B.pattern A.pattern maxUlps
  apart : A.negative ≠ B.negative → maxUlps.toInt < A.magnitude → maxUlps.toInt < B.magnitude →
    almostEqual2sComplement A.pattern B.pattern maxUlps = false

/-! ## The mapped patterns -/

/-- **The mapped pattern** is the number of the value. -/
lemma toInt_lexicographic (s : Single) : (lexicographic s.pattern.toInt32).toInt = s.index := by
  have hlt := s.pattern.toNat_lt
  have hnan := s.not_nan
  have hneg : s.pattern.toInt32 < 0 ↔ 2 ^ 31 ≤ s.pattern.toNat := by
    rw [Int32.lt_iff_toInt_lt, toInt_toInt32, Int32.toInt_zero]
    split <;> omega
  simp only [Single.index, Single.negative, Single.magnitude, signed, decide_eq_true_eq]
  by_cases h : 2 ^ 31 ≤ s.pattern.toNat
  · have hsub :
        (0x80000000 - s.pattern).toNat = (2 ^ 32 - (s.pattern.toNat - 2 ^ 31)) % 2 ^ 32 := by
      rw [UInt32.toNat_sub]
      simp only [UInt32.reduceToNat]
      omega
    rw [lexicographic, if_pos (hneg.2 h), UInt32.toUInt32_toInt32, toInt_toInt32, hsub, if_pos h]
    split <;> omega
  · rw [lexicographic, if_neg (mt hneg.1 h), toInt_toInt32, if_neg h]
    split <;> omega

/-! ## The difference -/

variable {A B : Single} {maxUlps : Int32}

/-- A difference that leaves the `int` range comes back above every `maxUlps`, but for one. -/
lemma almostEqual2sComplement_iff (hpos : 0 < maxUlps.toInt)
    (hmax : maxUlps.toInt < 4 * 1024 * 1024) :
    almostEqual2sComplement A.pattern B.pattern maxUlps = true ↔
      (A.index - B.index).natAbs ≤ maxUlps.toNatClampNeg ∨ (A.index - B.index).natAbs = 2 ^ 31 := by
  have hrange : (A.index - B.index).natAbs ≤ 2 * 0x7F800000 := by
    have ha := A.magnitude_le
    have hb := B.magnitude_le
    rw [← Single.natAbs_index] at ha hb
    omega
  have hulps : (maxUlps.toNatClampNeg : ℤ) = maxUlps.toInt := by
    rw [← Int32.toNat_toInt]
    omega
  simp only [almostEqual2sComplement, decide_eq_true_eq, Int32.le_iff_toInt_le, toInt_abs,
    Int32.toInt_sub, toInt_lexicographic]
  generalize A.index - B.index = d at hrange ⊢
  have hmod := bmod_emod d
  have hwrap := bmod_range d
  split <;> omega

/-- **The one difference**: the two numbers are `2 ^ 31` apart, and the mapped one is `INT_MIN`. -/
lemma natAbs_index_sub_eq_iff :
    (A.index - B.index).natAbs = 2 ^ 31 ↔
      A.negative ≠ B.negative ∧ A.magnitude + B.magnitude = 2 ^ 31 := by
  have ha := A.magnitude_le
  have hb := B.magnitude_le
  simp only [Single.index, signed]
  cases A.negative <;> cases B.negative <;> simp <;> omega

/-- **When the function counts representable values**, for the `maxUlps` that it asserts. -/
theorem decidesUlpDistance_iff (A B : Single) (maxUlps : Int32) (hpos : 0 < maxUlps)
    (hmax : maxUlps < 4 * 1024 * 1024) :
    DecidesUlpDistance A B maxUlps ↔
      ¬ (A.negative ≠ B.negative ∧ A.magnitude + B.magnitude = 2 ^ 31) := by
  have hpos' : 0 < maxUlps.toInt := Int32.lt_iff_toInt_lt.1 hpos
  have hmax' : maxUlps.toInt < 4 * 1024 * 1024 := Int32.lt_iff_toInt_lt.1 hmax
  have hulps : (maxUlps.toNatClampNeg : ℤ) = maxUlps.toInt := by
    rw [← Int32.toNat_toInt]
    omega
  have hAB := almostEqual2sComplement_iff (A := A) (B := B) hpos' hmax'
  have hBA := almostEqual2sComplement_iff (A := B) (B := A) hpos' hmax'
  rw [← natAbs_index_sub_eq_iff]
  constructor
  · intro h hbad
    -- the function says that they are close, and they are not
    have hclose := Single.numbering.within_iff.1 (h.decides.1 (hAB.2 (.inr hbad)))
    have hdistance : (A.index - B.index).natAbs ≤ maxUlps.toNatClampNeg := hclose
    omega
  · intro hgood
    refine ⟨?_, ?_, ?_⟩
    · rw [hAB, Single.numbering.within_iff]
      exact or_iff_left hgood
    · rw [Bool.eq_iff_iff, hAB, hBA]
      omega
    · intro hsign hA hB
      have hdistance : (A.index - B.index).natAbs = A.magnitude + B.magnitude := by
        simp only [Single.index, signed]
        revert hsign
        cases A.negative <;> cases B.negative <;> simp <;> omega
      rw [Bool.eq_false_iff, ne_eq, hAB]
      omega

/-- The least value above 1, one step away from it. -/
theorem decidesUlpDistance_next_one :
    DecidesUlpDistance ⟨0x3F800000, by decide⟩ ⟨0x3F800001, by decide⟩ 1 :=
  (decidesUlpDistance_iff _ _ 1 (by decide) (by decide)).2 (by decide)

/-- **2 and -2** count as equal within one step. -/
theorem not_decidesUlpDistance_two :
    ¬ DecidesUlpDistance ⟨0x40000000, by decide⟩ ⟨0xC0000000, by decide⟩ 1 := by
  intro h
  have hapart := h.apart (by decide) (by decide) (by decide)
  exact absurd hapart (by decide)

end MinSeq
