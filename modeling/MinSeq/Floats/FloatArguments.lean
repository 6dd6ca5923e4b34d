import MinSeq.Floats.FloorCeilTrunc

/-!
# Are the conversions exact for `float`s?

`ftoi_trunc` and `ftoi_round_sse` of `utils/floatutils.h` convert a `float` by an instruction, the
other conversions take a `double` and compute.  A `float` that is passed to one of these is widened
first, and has too few bits to come close to most of the integers without hitting them.  What goes
wrong for a `double`, either next to an integer or far out, can therefore hardly happen to a
`float`.

* **`sse_agrees`** — on every `float` in the range of an `int`, the computed rounding and truncation
  are those of the instructions: what `ftoi_trunc_xs` gets wrong, only a `double` can ask of it.
* **`floor_ceil_single_iff`** — the floor and the ceiling are right, too, but for values just next
  to zero.

**The two cases.**  From one half on, a `float` below an integer is at least `2 ^ -24` below it,
which is more than the constant lacks to one half.  From `2 ^ 25` on, a `float` is a multiple of
four, and even integers keep their floor however far the `double`s are apart.  What is left is the
interval around zero, where a `float` may be as small as it likes.
-/

namespace MinSeq

open BinaryFormat Cpp

/-! ## The values -/

/-- **A finite `float`**, by its pattern. -/
structure FiniteSingle where
  pattern : UInt32
  finite : pattern.toNat % 2 ^ 31 < 0x7F800000

namespace FiniteSingle

def negative (f : FiniteSingle) : Bool := decide (2 ^ 31 ≤ f.pattern.toNat)

/-- The value without its sign, in units of the least positive one. -/
def units (f : FiniteSingle) : ℕ := magnitude 23 (f.pattern.toNat % 2 ^ 31)

/-- The value as a rational number; the least positive one is `2 ^ -149`. -/
def value (f : FiniteSingle) : ℚ := (signed f.negative f.units : ℤ) / 2 ^ 149

/-- **The conversion to `double`**: the sign, and the pattern of the same value, which always has
one. -/
def toDouble (f : FiniteSingle) : UInt64 :=
  UInt64.ofNat ((if f.negative then 2 ^ 63 else 0) + encode 52 (f.units * 2 ^ 925))

end FiniteSingle

/-! ## The instructions -/

/-- **What a conversion instruction stores**: the result, or the indefinite integer where that is no
`int`. -/
def cvtResult (n : ℤ) : Int32 :=
  if -2 ^ 31 ≤ n ∧ n ≤ 2 ^ 31 - 1 then Int32.ofInt n else Int32.minValue

/-- **`ftoi_trunc`**: the instruction behind `_mm_cvtt_ss2si` rounds toward zero. -/
def ftoiTrunc (f : FiniteSingle) : Int32 := cvtResult (towardZero f.value)

/-- **`ftoi_round_sse`**: the instruction behind `_mm_cvt_ss2si`, in the rounding mode a program
starts with. -/
def ftoiRoundSse (f : FiniteSingle) : Int32 := cvtResult (roundEven f.value)

lemma toInt_cvtResult {n : ℤ} (hlo : -2 ^ 31 ≤ n) (hhi : n ≤ 2 ^ 31 - 1) :
    (cvtResult n).toInt = n := by
  rw [cvtResult, if_pos ⟨hlo, hhi⟩]
  exact Int32.toInt_ofInt_of_le hlo (by omega)

/-! ## The conversion -/

namespace FiniteSingle

variable (f : FiniteSingle)

/-- **Widening is exact.** -/
lemma value_toDouble : Binary64.value f.toDouble = f.value := by
  obtain ⟨g, e, hg, heq⟩ := exists_significand 23 (f.pattern.toNat % 2 ^ 31)
  obtain ⟨k, hk⟩ := exists_magnitude_eq (w := 52) (hg.trans (by decide)) (e + 925)
  have hunits : f.units * 2 ^ 925 = magnitude 52 k := by
    rw [hk, units, heq, Nat.pow_add, Nat.mul_assoc]
  have hmax : f.units ≤ magnitude 23 0x7F7FFFFF :=
    (magnitude_strictMono 23).monotone (Nat.le_of_lt_succ f.finite)
  have hlimit : magnitude 23 0x7F7FFFFF * 2 ^ 925 < magnitude 52 0x7FF0000000000000 := by
    decide +kernel
  have hk' : k < 0x7FF0000000000000 := by
    rw [← (magnitude_strictMono 52).lt_iff_lt, ← hunits]
    exact (Nat.mul_le_mul_right _ hmax).trans_lt hlimit
  have hpattern : f.toDouble.toNat = (if f.negative then 2 ^ 63 else 0) + k := by
    rw [toDouble, hunits, encode_magnitude (by decide), UInt64.toNat_ofNat']
    split <;> omega
  have hdouble : Binary64.units f.toDouble = signed f.negative f.units * (2 ^ 925 : ℕ) := by
    have hsign : decide (2 ^ 63 ≤ f.toDouble.toNat) = f.negative := by
      rw [hpattern]
      cases f.negative <;> simp
      all_goals omega
    have hmagnitude : f.toDouble.toNat % 2 ^ 63 = k := by
      rw [hpattern]
      split <;> omega
    rw [Binary64.units, hsign, hmagnitude, ← hunits, signed_mul]
  have hscale : (2 : ℚ) ^ Binary64.scale = 2 ^ 149 * (2 ^ 925 : ℕ) := by
    rw [Nat.cast_pow, Nat.cast_ofNat]
    exact pow_add 2 149 925
  have hpow : ((2 ^ 925 : ℕ) : ℚ) ≠ 0 := Nat.cast_ne_zero.2 (pow_ne_zero 925 two_ne_zero)
  rw [Binary64.value, hdouble, value, Binary64.cast_one, hscale, Int.cast_mul, Int.cast_natCast,
    mul_div_mul_right _ _ hpow]

/-- **Large values are coarse**: from a power of two on they are multiples of a larger one. -/
lemma exists_value_eq {f : FiniteSingle} {a : ℕ} (h : (2 : ℚ) ^ (24 + a) / 2 ^ 149 ≤ |f.value|) :
    ∃ j : ℤ, f.value = j * (2 ^ (a + 1) / 2 ^ 149) := by
  have hpow : (0 : ℚ) < 2 ^ 149 := by positivity
  have habs : |f.value| = f.units / 2 ^ 149 := by
    have hsigned : |((signed f.negative f.units : ℤ) : ℚ)| = f.units := by
      rw [← Int.cast_abs, abs_signed, Int.cast_natCast]
    rw [value, abs_div, hsigned, abs_of_pos hpow]
  rw [habs, div_le_div_iff_of_pos_right hpow] at h
  obtain ⟨q, hq⟩ := two_pow_dvd_magnitude (w := 23) (a := a) (by exact_mod_cast h)
  refine ⟨signed f.negative q, ?_⟩
  have hunits : signed f.negative f.units = signed f.negative q * (2 ^ (a + 1) : ℕ) := by
    rw [units, hq, Nat.mul_comm, signed_mul]
  rw [value, hunits]
  push_cast
  ring

/-- The value with the other sign. -/
def neg : FiniteSingle where
  pattern := f.pattern + 0x80000000
  finite := by
    have hfinite := f.finite
    have hflip : (f.pattern + 0x80000000).toNat = (f.pattern.toNat + 2 ^ 31) % 2 ^ 32 :=
      UInt32.toNat_add _ _
    omega

lemma value_neg : f.neg.value = -f.value := by
  have hflip : f.neg.pattern.toNat = (f.pattern.toNat + 2 ^ 31) % 2 ^ 32 := UInt32.toNat_add _ _
  have hlt := f.pattern.toNat_lt
  have hmagnitude : f.neg.pattern.toNat % 2 ^ 31 = f.pattern.toNat % 2 ^ 31 := by omega
  have hunits : f.neg.units = f.units := by rw [units, units, hmagnitude]
  have hnegative : f.neg.negative = !f.negative := by
    rw [negative, negative, hflip, ← decide_not, decide_eq_decide]
    omega
  rw [value, value, hunits, hnegative]
  cases f.negative <;> simp [signed, neg_div]

/-- The floor of a `float`, by the condition on its own value. -/
lemma toInt_ftoiFloor_toDouble (hlo : -2 ^ 31 ≤ ⌊f.value⌋) (hhi : ⌊f.value⌋ ≤ 2 ^ 31 - 1) :
    (ftoiFloor f.toDouble).toInt = ⌊f.value⌋ ↔ FloorExact f.value := by
  rw [← f.value_toDouble] at hlo hhi ⊢
  exact toInt_ftoiFloor_iff hlo hhi

/-- A ceiling is a floor of the value with the other sign. -/
lemma toInt_ftoiCeil_toDouble (hlo : -2 ^ 31 ≤ ⌈f.value⌉) (hhi : ⌈f.value⌉ ≤ 2 ^ 31 - 1) :
    (ftoiCeil f.toDouble).toInt = ⌈f.value⌉ ↔ FloorExact f.neg.value := by
  rw [f.value_neg]
  rw [← f.value_toDouble] at hlo hhi ⊢
  exact toInt_ftoiCeil_iff hlo hhi

end FiniteSingle

/-! ## What is left of the condition

The condition for `double`s asks how close a value is to the integers around it.  For a `float` this
depends on its size alone: away from zero it is never too close, and far out it is an even integer.
-/

lemma halfSpacing_le {n : ℤ} {l : ℕ} (h : (2 * n + 1).natAbs < 2 ^ (l + 1)) :
    halfSpacing n ≤ 2 ^ l / 2 ^ 54 := by
  have hlog : (2 * n + 1).natAbs.log2 ≤ l := by
    rw [← Nat.log2_lt (by omega)] at h
    omega
  rw [halfSpacing]
  gcongr
  exact one_le_two

variable {f : FiniteSingle}

/-- From `2 ^ 25` on a `float` is a multiple of four. -/
lemma exists_value_eq_four_mul (h : 2 ^ 25 ≤ |f.value|) : ∃ j : ℤ, f.value = (4 * j : ℤ) := by
  obtain ⟨j, hj⟩ := FiniteSingle.exists_value_eq (f := f) (a := 150) (by norm_num; linarith)
  refine ⟨j, ?_⟩
  rw [hj]
  push_cast
  norm_num
  ring

/-- From one half on there are 24 bits after the point at most, so it keeps away from the next
integer. -/
lemma le_floor_add_one_sub (h : 1 / 2 ≤ |f.value|) : 1 / 2 ^ 24 ≤ ⌊f.value⌋ + 1 - f.value := by
  obtain ⟨j, hj⟩ := FiniteSingle.exists_value_eq (f := f) (a := 124) (by norm_num; linarith)
  have hfine : f.value * 2 ^ 24 = j := by
    rw [hj]
    norm_num
    ring
  have hnext := Int.lt_floor_add_one f.value
  have hlt : j < 2 ^ 24 * (⌊f.value⌋ + 1) := by
    have hcast : (j : ℚ) < (2 ^ 24 * (⌊f.value⌋ + 1) : ℤ) := by
      push_cast
      linarith
    exact_mod_cast hcast
  have hstep : (j : ℚ) + 1 ≤ 2 ^ 24 * (⌊f.value⌋ + 1) := by exact_mod_cast hlt
  rw [div_le_iff₀ (by positivity)]
  linarith

/-- **Away from zero** every `float` keeps its floor. -/
lemma floorExact_of_half_le (hhalf : 1 / 2 ≤ |f.value|) (hrange : |f.value| ≤ 2 ^ 31) :
    FloorExact f.value := by
  by_cases hlarge : 2 ^ 25 ≤ |f.value|
  · obtain ⟨j, hint⟩ := exists_value_eq_four_mul hlarge
    rw [hint] at hrange ⊢
    rw [← Int.cast_abs, Int.abs_eq_natAbs] at hrange
    have heven : Even (4 * j) := ⟨2 * j, by ring⟩
    exact (floorExact_intCast (4 * j) (by exact_mod_cast hrange)).2 (.inl heven)
  · have hfloor := Int.floor_le f.value
    have hgap := le_floor_add_one_sub hhalf
    rw [not_le, abs_lt] at hlarge
    have hlo : -2 ^ 25 ≤ ⌊f.value⌋ := by
      rw [Int.le_floor]
      push_cast
      exact hlarge.1.le
    have hhi : ⌊f.value⌋ < 2 ^ 25 := by
      rw [Int.floor_lt]
      push_cast
      exact hlarge.2
    have habove := halfSpacing_le (n := ⌊f.value⌋) (l := 26) (by omega)
    have hbelow := halfSpacing_le (n := ⌊f.value⌋ - 1) (l := 26) (by omega)
    have hpos := halfSpacing_pos ⌊f.value⌋
    rw [FloorExact, shortfall]
    split_ifs
    · linarith
    · exact ⟨by linarith, by linarith⟩

/-- **Which `float`s lose their floor**: those just below zero. -/
lemma floorExact_single_iff (hrange : |f.value| ≤ 2 ^ 31) :
    FloorExact f.value ↔ f.value < -(shortfall + 1 / 2 ^ 54) ∨ 0 ≤ f.value := by
  have hzero : halfSpacing 0 = 1 / 2 ^ 54 := by decide +kernel
  have hbefore : halfSpacing (-1) = 1 / 2 ^ 54 := by decide +kernel
  have hbefore' : halfSpacing (-1 - 1) = 2 / 2 ^ 54 := by decide +kernel
  by_cases hhalf : 1 / 2 ≤ |f.value|
  · refine iff_of_true (floorExact_of_half_le hhalf hrange) ?_
    rcases le_total 0 f.value with hnonneg | hneg
    · exact .inr hnonneg
    · rw [abs_of_nonpos hneg] at hhalf
      rw [shortfall]
      left
      linarith
  · rw [not_le, abs_lt] at hhalf
    rcases le_or_gt 0 f.value with hnonneg | hneg
    · have hfloor : ⌊f.value⌋ = 0 := by
        rw [Int.floor_eq_zero_iff]
        exact ⟨hnonneg, by linarith⟩
      refine iff_of_true ?_ (.inr hnonneg)
      rw [FloorExact, hfloor, if_pos Even.zero, hzero, shortfall]
      push_cast
      linarith
    · have hfloor : ⌊f.value⌋ = -1 := by
        rw [Int.floor_eq_iff]
        push_cast
        exact ⟨by linarith, by linarith⟩
      rw [FloorExact, hfloor, if_neg (by decide), hbefore, hbefore', shortfall]
      push_cast
      constructor
      · rintro ⟨h, -⟩
        left
        linarith
      · rintro (h | h)
        · exact ⟨by linarith, by linarith⟩
        · exact absurd h hneg.not_ge

/-! ## The conversions

Both results put the pieces together: widening keeps the value, the condition says when the computed
conversion of a value is exact, and a `float` meets it almost everywhere.
-/

lemma ceil_le (hhi : f.value < 2 ^ 31) : ⌈f.value⌉ ≤ 2 ^ 31 - 1 := by
  rw [Int.ceil_le]
  push_cast
  by_cases hlarge : 2 ^ 25 ≤ f.value
  · obtain ⟨j, hint⟩ := exists_value_eq_four_mul (hlarge.trans (le_abs_self _))
    rw [hint] at hhi ⊢
    have hlt : 4 * j < 2 ^ 31 := by exact_mod_cast hhi
    have hle : ((4 * j : ℤ) : ℚ) ≤ 2147483647 := by exact_mod_cast (by omega : 4 * j ≤ 2147483647)
    linarith
  · linarith

/-- The nearest integer is one of the two around the value. -/
lemma roundEven_bounds (v : ℚ) : ⌊v⌋ ≤ roundEven v ∧ roundEven v ≤ ⌈v⌉ := by
  constructor
  · have hmono := roundEven_mono (Int.floor_le v)
    rwa [roundEven_intCast] at hmono
  · have hmono := roundEven_mono (Int.le_ceil v)
    rwa [roundEven_intCast] at hmono

lemma towardZero_bounds (v : ℚ) : ⌊v⌋ ≤ towardZero v ∧ towardZero v ≤ ⌈v⌉ := by
  have horder := Int.floor_le_ceil v
  rw [towardZero]
  split_ifs
  · exact ⟨horder, le_rfl⟩
  · exact ⟨le_rfl, horder⟩

/-- **The computed conversions are those of the instructions**, on every `float` in the range of an
`int`. -/
theorem sse_agrees (f : FiniteSingle) (hlo : -2 ^ 31 ≤ f.value) (hhi : f.value < 2 ^ 31) :
    ftoiRound f.toDouble = ftoiRoundSse f ∧ ftoiTruncXs f.toDouble = ftoiTrunc f := by
  have hfloor : -2 ^ 31 ≤ ⌊f.value⌋ := by
    rw [Int.le_floor]
    push_cast
    exact hlo
  have hceil := ceil_le hhi
  have horder := Int.floor_le_ceil f.value
  have hvalue := f.value_toDouble
  constructor
  · have hbounds := roundEven_bounds f.value
    rw [← Int32.toInt_inj, ftoiRoundSse, toInt_cvtResult (by omega) (by omega),
      toInt_ftoiRound (by rw [hvalue]; linarith) (by rw [hvalue]; linarith), hvalue]
    exact bmod_of_range (by omega) (by omega)
  · have hbounds := towardZero_bounds f.value
    rw [← Int32.toInt_inj, ftoiTrunc, toInt_cvtResult (by omega) (by omega), ftoiTruncXs_eq, hvalue,
      towardZero]
    split_ifs with hneg
    · -- the ceiling of a negative value is the floor of a positive one
      refine (f.toInt_ftoiCeil_toDouble (by omega) (by omega)).2
        ((floorExact_single_iff ?_).2 (.inr ?_))
      · rw [f.value_neg, abs_neg, abs_le]
        exact ⟨hlo, hhi.le⟩
      · rw [f.value_neg]
        linarith
    · refine (f.toInt_ftoiFloor_toDouble (by omega) (by omega)).2
        ((floorExact_single_iff ?_).2 (.inr (not_lt.1 hneg)))
      rw [abs_le]
      exact ⟨hlo, hhi.le⟩

/-- -2.5f. -/
theorem sse_agrees_neg_five_halves :
    ftoiRound (FiniteSingle.mk 0xC0200000 (by decide)).toDouble
        = ftoiRoundSse ⟨0xC0200000, by decide⟩ ∧
      ftoiTruncXs (FiniteSingle.mk 0xC0200000 (by decide)).toDouble
        = ftoiTrunc ⟨0xC0200000, by decide⟩ :=
  sse_agrees ⟨0xC0200000, by decide⟩ (by decide +kernel) (by decide +kernel)

/-- **The floor and the ceiling of a `float`** are right except next to zero, where a value within
the constant's shortfall is taken for zero. -/
theorem floor_ceil_single_iff (f : FiniteSingle) (hlo : -2 ^ 31 ≤ f.value)
    (hhi : f.value < 2 ^ 31) :
    ((ftoiFloor f.toDouble).toInt = ⌊f.value⌋
        ↔ f.value < -(shortfall + 1 / 2 ^ 54) ∨ 0 ≤ f.value) ∧
      ((ftoiCeil f.toDouble).toInt = ⌈f.value⌉
        ↔ shortfall + 1 / 2 ^ 54 < f.value ∨ f.value ≤ 0) := by
  have hfloor : -2 ^ 31 ≤ ⌊f.value⌋ := by
    rw [Int.le_floor]
    push_cast
    exact hlo
  have hceil := ceil_le hhi
  have horder := Int.floor_le_ceil f.value
  have hvalue := f.value_toDouble
  constructor
  · rw [f.toInt_ftoiFloor_toDouble (by omega) (by omega), floorExact_single_iff]
    rw [abs_le]
    exact ⟨hlo, hhi.le⟩
  · rw [f.toInt_ftoiCeil_toDouble (by omega) (by omega), floorExact_single_iff, f.value_neg,
      neg_lt_neg_iff, neg_nonneg]
    rw [f.value_neg, abs_neg, abs_le]
    exact ⟨hlo, hhi.le⟩

/-- -1e-8f, whose floor comes out as 0 and whose ceiling is right. -/
theorem floor_ceil_single_tiny :
    ((ftoiFloor (FiniteSingle.mk 0xB22BCC77 (by decide)).toDouble).toInt
          = ⌊(FiniteSingle.mk 0xB22BCC77 (by decide)).value⌋
        ↔ (FiniteSingle.mk 0xB22BCC77 (by decide)).value < -(shortfall + 1 / 2 ^ 54) ∨
          0 ≤ (FiniteSingle.mk 0xB22BCC77 (by decide)).value) ∧
      ((ftoiCeil (FiniteSingle.mk 0xB22BCC77 (by decide)).toDouble).toInt
          = ⌈(FiniteSingle.mk 0xB22BCC77 (by decide)).value⌉
        ↔ shortfall + 1 / 2 ^ 54 < (FiniteSingle.mk 0xB22BCC77 (by decide)).value ∨
          (FiniteSingle.mk 0xB22BCC77 (by decide)).value ≤ 0) :=
  floor_ceil_single_iff ⟨0xB22BCC77, by decide⟩ (by decide +kernel) (by decide +kernel)

end MinSeq
