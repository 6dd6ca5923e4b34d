import MinSeq.Floats.FloatToInt

/-!
# Are `ftoi_floor`, `ftoi_ceil` and `ftoi_trunc_xs` exact?

Each of them moves its argument by a constant just below one half and lets `ftoi_round` do the rest.
With one half itself an odd integer would be moved to a tie, and the tie broken to the even integer
below it; the constant lacks `1.5e-8` so that this does not happen.  But a value that is closer to
the next integer than that is moved across it.  And both the move and the rest round, so that far
out, where `double`s are further apart than what the constant lacks, the move is by one half after
all.

* **`floorCeilTruncExact_iff`** — for every finite `double` whose floor and ceiling are `int`s, the
  three are exact if and only if `FloorExact` holds of the value and of its negative: neither is so
  close below an integer that it is taken for it, the constant being `1.5e-8` short of one half, nor
  so far out that moving it rounds the constant up to one half.
* `floorExact_intCast` — what this comes to for integers: odd ones above `2 ^ 28` lose their floor.

**How the proof goes.**  The result is the floor if and only if the rounded sum lies between the two
halves around it.  Whether a rounded number lies below a half is decided by the exact one, at half
the spacing on the one or the other side of the half, which side depending on whether the half has
an even significand.  The ceiling is the floor of the negative value, and the truncation one of the
two.
-/

namespace MinSeq

open BinaryFormat Binary64 Cpp

/-! ## The functions -/

/-- The pattern of `1.5e-8`, which no `double` is exactly. -/
def floatutilXsDoublemagicdelta : UInt64 := 0x3E501B2B29A4692B

/-- Nearer than half the spacing there. -/
example : |value floatutilXsDoublemagicdelta - 1.5e-8| < 1 / 2 ^ 79 := by decide +kernel

/-- `0.5f - floatutil_xs_doublemagicdelta`, computed when the program is compiled or started, and
rounded as every subtraction. -/
def floatutilXsDoublemagicroundeps : UInt64 := sub 0x3FE0000000000000 floatutilXsDoublemagicdelta

/-- **`ftoi_floor`**: down by almost one half, and to the nearest integer. -/
def ftoiFloor (val : UInt64) : Int32 := ftoiRound (sub val floatutilXsDoublemagicroundeps)

/-- **`ftoi_ceil`**: up by the same. -/
def ftoiCeil (val : UInt64) : Int32 := ftoiRound (add val floatutilXsDoublemagicroundeps)

/-- **`ftoi_trunc_xs`**: one of the two, by the sign.  The comparison is with the pattern of
`0.0`. -/
def ftoiTruncXs (val : UInt64) : Int32 :=
  if lt val 0 then ftoiRound (add val floatutilXsDoublemagicroundeps)
  else ftoiRound (sub val floatutilXsDoublemagicroundeps)

/-- Rounding toward zero. -/
def towardZero (v : ℚ) : ℤ := if v < 0 then ⌈v⌉ else ⌊v⌋

/-- **What the functions are for**: the floor, the ceiling and the rounding toward zero; integers
stay what they are, and the three results are in order. -/
structure FloorCeilTruncExact (val : FiniteDouble) : Prop where
  floor : (ftoiFloor val.pattern).toInt = ⌊val.value⌋
  ceil : (ftoiCeil val.pattern).toInt = ⌈val.value⌉
  trunc : (ftoiTruncXs val.pattern).toInt = towardZero val.value
  integer : ∀ z : ℤ, val.value = z → (ftoiFloor val.pattern).toInt = z ∧
    (ftoiCeil val.pattern).toInt = z ∧ (ftoiTruncXs val.pattern).toInt = z
  ordered : ftoiFloor val.pattern ≤ ftoiTruncXs val.pattern ∧
    ftoiTruncXs val.pattern ≤ ftoiCeil val.pattern

/-! ## The condition -/

/-- **What the constant lacks to one half**, exactly.  It is not quite `1.5e-8`, as that and the
difference were rounded. -/
def shortfall : ℚ := 270215978 / 2 ^ 54

/-- **Half the spacing** of the `double`s at `n + 1/2`.  It doubles with every power of two. -/
def halfSpacing (n : ℤ) : ℚ := 2 ^ (2 * n + 1).natAbs.log2 / 2 ^ 54

/-- **When the floor comes out right.**  At an even floor a value may be too close below the next
integer; at an odd one also too close above the floor. -/
def FloorExact (v : ℚ) : Prop :=
  if Even ⌊v⌋ then shortfall ≤ ⌊v⌋ + 1 - v + halfSpacing ⌊v⌋
  else shortfall + halfSpacing ⌊v⌋ < ⌊v⌋ + 1 - v ∧ halfSpacing (⌊v⌋ - 1) < v - ⌊v⌋ + shortfall

instance : DecidablePred FloorExact := fun v =>
  inferInstanceAs (Decidable (if Even ⌊v⌋ then _ else _))

/-- The constant, as the subtraction has rounded it. -/
lemma value_roundeps : value floatutilXsDoublemagicroundeps = 1 / 2 - shortfall := by
  decide +kernel

lemma halfSpacing_pos (n : ℤ) : 0 < halfSpacing n := by
  rw [halfSpacing]
  positivity

/-- The halves on both sides of zero are spaced alike. -/
lemma halfSpacing_neg (n : ℤ) : halfSpacing (-n - 1) = halfSpacing n := by
  have hodd : (2 * (-n - 1) + 1).natAbs = (2 * n + 1).natAbs := by omega
  rw [halfSpacing, halfSpacing, hodd]

/-- The spacing outgrows what the constant lacks at `2 ^ 28`. -/
lemma halfSpacing_lt_shortfall_iff (n : ℤ) :
    halfSpacing n < shortfall ↔ (2 * n + 1).natAbs < 2 ^ 29 := by
  rw [halfSpacing, shortfall, div_lt_div_iff_of_pos_right (by positivity), ← Nat.log2_lt (by omega)]
  generalize (2 * n + 1).natAbs.log2 = l
  have hcast : (2 : ℚ) ^ l < 270215978 ↔ 2 ^ l < 270215978 := by exact_mod_cast Iff.rfl
  rw [hcast]
  constructor
  · intro hlt
    by_contra hge
    have hpow : 2 ^ 29 ≤ 2 ^ l := Nat.pow_le_pow_right two_pos (not_lt.1 hge)
    omega
  · intro hlt
    have hpow : 2 ^ l ≤ 2 ^ 28 := Nat.pow_le_pow_right two_pos (Nat.le_of_lt_succ hlt)
    omega

/-- **Integers**: even ones are their own floor, odd ones up to `2 ^ 28`. -/
theorem floorExact_intCast (n : ℤ) (hrange : n.natAbs ≤ 2 ^ 31) :
    FloorExact n ↔ Even n ∨ (2 * n - 1).natAbs < 2 ^ 29 := by
  have hbefore : 2 * n - 1 = 2 * (n - 1) + 1 := by ring
  rw [FloorExact, Int.floor_intCast, hbefore, ← halfSpacing_lt_shortfall_iff]
  have hpos := halfSpacing_pos n
  have hsmall : shortfall + halfSpacing n < 1 := by
    have hpow := Nat.log2_self_le (n := (2 * n + 1).natAbs) (by omega)
    have hcast : (2 : ℚ) ^ (2 * n + 1).natAbs.log2 ≤ 2 ^ 33 := by
      exact_mod_cast hpow.trans (by omega)
    rw [shortfall, halfSpacing, ← add_div, div_lt_one (by positivity)]
    linarith
  split_ifs with heven
  · exact iff_of_true (by linarith) (.inl heven)
  · rw [or_iff_right heven]
    constructor
    · rintro ⟨-, h⟩
      linarith
    · intro h
      exact ⟨by linarith, by linarith⟩

/-! ## Around the halves -/

variable {z n : ℤ} {v : ℚ}

/-- What is rounded to a half or below it: the half is next to an even significand, unless it is
-1/2. -/
lemma value_ofUnits_le_iff (hn : n ≠ -1) (hrange : n.natAbs ≤ 2 ^ 33) (hz : |z| ≤ 2 ^ 60 * one) :
    value (ofUnits z) ≤ n + 1 / 2 ↔ (z : ℚ) / one ≤ n + 1 / 2 + halfSpacing n := by
  obtain ⟨a, ha⟩ : ∃ a, scale = 54 + a := ⟨1020, rfl⟩
  have hshort : (2 * n + 1).natAbs.log2 < 52 := by
    rw [Nat.log2_lt (by omega)]
    omega
  have hside : 2 * n + 1 < 0 → 2 ^ (2 * n + 1).natAbs.log2 ≠ (2 * n + 1).natAbs := by
    intro hneg hpow
    cases hlog : (2 * n + 1).natAbs.log2 with
    | zero =>
        rw [hlog] at hpow
        omega
    | succ l =>
        rw [hlog, Nat.pow_succ] at hpow
        omega
  have hhalf : ((n : ℚ) + 1 / 2) * one = ((2 * n + 1) * 2 ^ (52 + a + 1) : ℤ) := by
    rw [cast_one, ha]
    push_cast
    ring
  have hspacing : halfSpacing n * one = (2 ^ (2 * n + 1).natAbs.log2 * 2 ^ a : ℤ) := by
    rw [cast_one, ha, halfSpacing, pow_add]
    push_cast
    field_simp
  rw [value_ofUnits hz, div_le_iff₀ one_pos, div_le_iff₀ one_pos, add_mul _ (halfSpacing n), hhalf,
    hspacing]
  exact_mod_cast roundSigned_le_iff (by omega) hshort hside

/-- What is rounded to below a half: now the half is the upper one of its neighbours, unless it is
1/2. -/
lemma value_ofUnits_lt_iff (hn : n ≠ 0) (hrange : n.natAbs ≤ 2 ^ 32) (hz : |z| ≤ 2 ^ 60 * one) :
    value (ofUnits z) < n + 1 / 2 ↔ (z : ℚ) / one < n + 1 / 2 - halfSpacing n := by
  have hmirror := value_ofUnits_le_iff (z := -z) (n := -n - 1) (by omega) (by omega)
    (by rwa [abs_neg])
  rw [value_ofUnits_neg hz, halfSpacing_neg] at hmirror
  rw [← not_iff_not, not_lt, not_lt]
  push_cast at hmirror
  rw [neg_div] at hmirror
  constructor
  · intro h
    linarith [hmirror.1 (by linarith)]
  · intro h
    linarith [hmirror.2 (by linarith)]

/-- A sum near an `int` is far from the infinity. -/
lemma abs_le_of_near (hrange : n.natAbs ≤ 2 ^ 31) (hnear : |(z : ℚ) / one - n| ≤ 1) :
    |z| ≤ 2 ^ 60 * one := by
  have hn : |(n : ℚ)| ≤ 2 ^ 31 := by
    have hcast : |n| ≤ 2 ^ 31 := by
      rw [Int.abs_eq_natAbs]
      exact_mod_cast hrange
    exact_mod_cast hcast
  have hsum : |(z : ℚ) / one| ≤ 2 ^ 60 := by
    rw [abs_le] at hnear hn ⊢
    constructor <;> linarith [hnear.1, hnear.2, hn.1, hn.2]
  rw [abs_div, abs_of_pos one_pos, div_le_iff₀ one_pos] at hsum
  exact_mod_cast hsum

/-- Rounding moves it little. -/
lemma value_ofUnits_le_of_near (hrange : n.natAbs ≤ 2 ^ 31) (hnear : |(z : ℚ) / one - n| ≤ 1) :
    value (ofUnits z) ≤ n + 5 / 2 := by
  have hz := abs_le_of_near hrange hnear
  have hle : (z : ℚ) / one ≤ n + 1 := by linarith [(abs_le.1 hnear).2]
  by_cases hn : n + 1 = -1
  · have hhalf := value_ofUnits_le_iff (n := n + 2) (by omega) (by omega) hz
    push_cast at hhalf
    linarith [hhalf.2 (by linarith [halfSpacing_pos (n + 2)])]
  · have hhalf := value_ofUnits_le_iff (n := n + 1) hn (by omega) hz
    push_cast at hhalf
    linarith [hhalf.2 (by linarith [halfSpacing_pos (n + 1)])]

lemma le_value_ofUnits_of_near (hrange : n.natAbs ≤ 2 ^ 31) (hnear : |(z : ℚ) / one - n| ≤ 1) :
    (n : ℚ) - 5 / 2 ≤ value (ofUnits z) := by
  have hmirror : |((-z : ℤ) : ℚ) / one - (-n : ℤ)| ≤ 1 := by
    rw [abs_sub_comm] at hnear
    push_cast
    rwa [neg_div, neg_sub_neg]
  have hle := value_ofUnits_le_of_near (by omega) hmirror
  rw [value_ofUnits_neg (abs_le_of_near hrange hnear)] at hle
  push_cast at hle
  linarith

/-- Nothing is lost by the cast to an `int`. -/
lemma toInt_ftoiRound_eq_iff (hlo : -2 ^ 31 ≤ n) (hhi : n ≤ 2 ^ 31 - 1)
    (hnear : |(z : ℚ) / one - n| ≤ 1) :
    (ftoiRound (ofUnits z)).toInt = n ↔ roundEven (value (ofUnits z)) = n := by
  have hrange : n.natAbs ≤ 2 ^ 31 := by omega
  have hle := value_ofUnits_le_of_near hrange hnear
  have hge := le_value_ofUnits_of_near hrange hnear
  have hlo' : (-2 ^ 31 : ℚ) ≤ n := by exact_mod_cast hlo
  have hhi' : (n : ℚ) ≤ 2 ^ 31 - 1 := by exact_mod_cast hhi
  rw [toInt_ftoiRound (by linarith) (by linarith)]
  have hrle : roundEven (value (ofUnits z)) ≤ n + 3 := by
    rw [roundEven_le_iff]
    left
    push_cast
    linarith
  have hrge : n - 3 ≤ roundEven (value (ofUnits z)) := by
    rw [le_roundEven_iff]
    left
    push_cast
    linarith
  generalize roundEven (value (ofUnits z)) = r at hrle hrge ⊢
  have hmod := bmod_emod r
  have hwrap := bmod_range r
  omega

/-! ## The floor -/

/-- The move goes from one unit interval into the next at most. -/
lemma near_floor (hz : (z : ℚ) / one = v - value floatutilXsDoublemagicroundeps) :
    |(z : ℚ) / one - ⌊v⌋| ≤ 1 := by
  have hfloor := Int.floor_le v
  have hlt := Int.lt_floor_add_one v
  rw [hz, value_roundeps, shortfall, abs_le]
  constructor <;> linarith

/-- **The rounded sum rounds to the floor** exactly under the condition. -/
lemma roundEven_eq_floor_iff (hrange : ⌊v⌋.natAbs ≤ 2 ^ 31)
    (hz : (z : ℚ) / one = v - value floatutilXsDoublemagicroundeps) :
    roundEven (value (ofUnits z)) = ⌊v⌋ ↔ FloorExact v := by
  have hfinite := abs_le_of_near hrange (near_floor hz)
  have hfloor := Int.floor_le v
  rw [value_roundeps] at hz
  have hbelow : (⌊v⌋ : ℚ) - 1 / 2 = (⌊v⌋ - 1 : ℤ) + 1 / 2 := by
    push_cast
    ring
  by_cases heven : Even ⌊v⌋
  · -- an even floor is neither -1 nor 1
    have hparity := Int.even_iff.1 heven
    have hne : ⌊v⌋ ≠ -1 := by omega
    have hne' : ⌊v⌋ - 1 ≠ 0 := by omega
    rw [roundEven_eq_iff_of_even heven, FloorExact, if_pos heven, hbelow, ← not_lt,
      value_ofUnits_lt_iff hne' (by omega) hfinite, value_ofUnits_le_iff hne (by omega) hfinite, hz]
    have hpos := halfSpacing_pos (⌊v⌋ - 1)
    have hshort : 0 < shortfall := by decide +kernel
    push_cast
    constructor
    · rintro ⟨-, h⟩
      linarith
    · intro h
      exact ⟨by linarith, by linarith⟩
  · -- an odd one is not 0
    have hparity := Int.not_even_iff.1 heven
    have hne : ⌊v⌋ ≠ 0 := by omega
    have hne' : ⌊v⌋ - 1 ≠ -1 := by omega
    rw [roundEven_eq_iff_of_odd heven, FloorExact, if_neg heven, hbelow, ← not_le,
      value_ofUnits_le_iff hne' (by omega) hfinite, value_ofUnits_lt_iff hne (by omega) hfinite, hz,
      not_le]
    push_cast
    constructor
    · rintro ⟨hlo, hhi⟩
      exact ⟨by linarith, by linarith⟩
    · rintro ⟨hhi, hlo⟩
      exact ⟨by linarith, by linarith⟩

/-! ## The three functions -/

variable {val : UInt64}

/-- **The floor** is exact under the condition on the value, -/
lemma toInt_ftoiFloor_iff (hlo : -2 ^ 31 ≤ ⌊value val⌋) (hhi : ⌊value val⌋ ≤ 2 ^ 31 - 1) :
    (ftoiFloor val).toInt = ⌊value val⌋ ↔ FloorExact (value val) := by
  have hz : ((units val - units floatutilXsDoublemagicroundeps : ℤ) : ℚ) / one =
      value val - value floatutilXsDoublemagicroundeps := by
    rw [value, value, ← sub_div, Int.cast_sub]
  rw [ftoiFloor, sub, toInt_ftoiRound_eq_iff hlo hhi (near_floor hz)]
  exact roundEven_eq_floor_iff (by omega) hz

/-- **and the ceiling** under the condition on its negative, as it is the floor of that. -/
lemma toInt_ftoiCeil_iff (hlo : -2 ^ 31 ≤ ⌈value val⌉) (hhi : ⌈value val⌉ ≤ 2 ^ 31 - 1) :
    (ftoiCeil val).toInt = ⌈value val⌉ ↔ FloorExact (-value val) := by
  have hz : ((-(units val + units floatutilXsDoublemagicroundeps) : ℤ) : ℚ) / one =
      -value val - value floatutilXsDoublemagicroundeps := by
    rw [value, value, Int.cast_neg, Int.cast_add]
    ring
  have hrange : ⌊-value val⌋.natAbs ≤ 2 ^ 31 := by
    rw [Int.floor_neg]
    omega
  have hnear := near_floor hz
  have hfinite := abs_le_of_near hrange hnear
  rw [abs_neg] at hfinite
  rw [← roundEven_eq_floor_iff hrange hz, value_ofUnits_neg hfinite, roundEven_neg, Int.floor_neg,
    neg_inj,
    ftoiCeil, add]
  refine toInt_ftoiRound_eq_iff hlo hhi ?_
  rw [Int.floor_neg, Int.cast_neg, Int.cast_neg, neg_div, neg_sub_neg, abs_sub_comm] at hnear
  exact hnear

lemma lt_zero_iff (val : UInt64) : lt val 0 = true ↔ value val < 0 := by
  have hzero : units 0 = 0 := by decide +kernel
  rw [lt, decide_eq_true_eq, hzero, value, div_lt_iff₀ one_pos, zero_mul, Int.cast_lt_zero]

/-- The truncation is the ceiling of the one or the floor of the other. -/
lemma ftoiTruncXs_eq (val : UInt64) :
    ftoiTruncXs val = if value val < 0 then ftoiCeil val else ftoiFloor val := by
  simp only [ftoiTruncXs, lt_zero_iff]
  rfl

/-- **When the three functions are exact**, wherever their results are `int`s. -/
theorem floorCeilTruncExact_iff (val : FiniteDouble) (hlo : -2 ^ 31 ≤ ⌊val.value⌋)
    (hhi : ⌈val.value⌉ ≤ 2 ^ 31 - 1) :
    FloorCeilTruncExact val ↔ FloorExact val.value ∧ FloorExact (-val.value) := by
  have horder := Int.floor_le_ceil val.value
  have hfloor : (ftoiFloor val.pattern).toInt = ⌊val.value⌋ ↔ FloorExact val.value :=
    toInt_ftoiFloor_iff hlo (horder.trans hhi)
  have hceil : (ftoiCeil val.pattern).toInt = ⌈val.value⌉ ↔ FloorExact (-val.value) :=
    toInt_ftoiCeil_iff (hlo.trans horder) hhi
  have htrunc : ftoiTruncXs val.pattern =
      if val.value < 0 then ftoiCeil val.pattern else ftoiFloor val.pattern :=
        ftoiTruncXs_eq val.pattern
  constructor
  · intro h
    exact ⟨hfloor.1 h.floor, hceil.1 h.ceil⟩
  · rintro ⟨hf, hc⟩
    rw [← hfloor] at hf
    rw [← hceil] at hc
    have ht : (ftoiTruncXs val.pattern).toInt = towardZero val.value := by
      rw [htrunc, towardZero]
      split_ifs
      · exact hc
      · exact hf
    refine ⟨hf, hc, ht, ?_, ?_⟩
    · intro z hz
      rw [hf, hc, ht, hz, towardZero, Int.ceil_intCast, Int.floor_intCast, ite_self]
      exact ⟨rfl, rfl, rfl⟩
    · rw [Int32.le_iff_toInt_le, Int32.le_iff_toInt_le, hf, hc, ht, towardZero]
      split_ifs
      · exact ⟨horder, le_rfl⟩
      · exact ⟨le_rfl, horder⟩

/-- -2.5. -/
theorem floorCeilTruncExact_neg_five_halves : FloorCeilTruncExact ⟨0xC004000000000000, by decide⟩ :=
  (floorCeilTruncExact_iff _ (by decide +kernel) (by decide +kernel)).2 (by decide +kernel)

/-- **268435457.0**, an integer in the range, has the floor 268435456. -/
theorem not_floorCeilTruncExact_integer :
    -2 ^ 31 ≤ ⌊value 0x41B0000001000000⌋ ∧ ⌈value 0x41B0000001000000⌉ ≤ 2 ^ 31 - 1 ∧
      ¬ FloorCeilTruncExact ⟨0x41B0000001000000, by decide⟩ := by
  refine ⟨by decide +kernel, by decide +kernel, ?_⟩
  intro h
  have hfloor : (ftoiFloor 0x41B0000001000000).toInt = 268435456 := by decide +kernel
  have hvalue : ⌊value 0x41B0000001000000⌋ = 268435457 := by decide +kernel
  exact absurd (hfloor.symm.trans (h.floor.trans hvalue)) (by decide)

end MinSeq
