import MinSeq.Core.CppTypes
import MinSeq.Floats.Double
import MinSeq.Floats.Single

/-!
# Do the fast absolute values clear the sign?

`utils/floatutils.h` has four of them, two for `float` and two for `double`.  Each reads its
argument through an `int *`, masks that `int` and reads the result back through a pointer to the
argument's type.  The `+1` of the two variants for 64 bits is added to the `int` and not to the
pointer, and a `double` that is read back from an `int` ends in whatever lies behind the `int`:
`adjacent` here.

* **`not_fastAbs`** — there is no `float` on which the two agree, and no `double` on which either is
  the absolute value whatever lies behind.
* **`fastFabs32_abs`** — the one for `float` that adds nothing is the absolute value of every
  number.
* **`fastDabs32_eq_iff`** — when the one for `double` that adds nothing clears the sign, by
  accident; `units_fastDabs32` says that the value is the absolute value then, and
  `exists_fastDabs32_ne` that it never is for everything that may lie behind.
-/

namespace MinSeq

open BinaryFormat Binary64 Cpp

/-! ## The functions -/

/-- **`fastFabs32`**: `(*((int*)&val)) & 0x7fffffff`, read back as a `float`. -/
def fastFabs32 (val : UInt32) : UInt32 :=
  let temp := val.toInt32 &&& 0x7fffffff
  temp.toUInt32

/-- **`fastFabs64`**: `(*((int*)&val)+1) & 0x7fffffff`, where the parentheses end before the
addition and not behind it. -/
def fastFabs64 (val : UInt32) : UInt32 :=
  let temp := (val.toInt32 + 1) &&& 0x7fffffff
  temp.toUInt32

/-- `*((double*)&temp)`, the word that lies behind `temp` on top. -/
def readDouble (temp : Int32) (adjacent : UInt32) : UInt64 :=
  UInt64.ofNat (2 ^ 32 * adjacent.toNat + temp.toUInt32.toNat)

/-- **`fastDabs32`.**  Through an `int *` one sees the low word of a `double`, on a machine that
stores it first. -/
def fastDabs32 (adjacent : UInt32) (val : UInt64) : UInt64 :=
  let temp := val.toUInt32.toInt32 &&& 0x7fffffff
  readDouble temp adjacent

/-- **`fastDabs64`** would see the high word if the one were added to the pointer. -/
def fastDabs64 (adjacent : UInt32) (val : UInt64) : UInt64 :=
  let temp := (val.toUInt32.toInt32 + 1) &&& 0x7fffffff
  readDouble temp adjacent

/-! ## What they are for -/

/-- The pattern of the absolute value of a `float`: the sign is clear and the rest stays. -/
def fabs (x : UInt32) : UInt32 := UInt32.ofNat (x.toNat % 2 ^ 31)

/-- The pattern of the absolute value of a `double`. -/
def dabs (y : UInt64) : UInt64 := UInt64.ofNat (y.toNat % 2 ^ 63)

/-- **What the two for `float` are for.** -/
structure FastFabs (x : UInt32) : Prop where
  fabs32 : fastFabs32 x = fabs x
  fabs64 : fastFabs64 x = fabs x

/-- **What the two for `double` are for**, whatever lies behind the `int` in memory. -/
structure FastDabs (y : UInt64) : Prop where
  dabs32 : ∀ adjacent, fastDabs32 adjacent y = dabs y
  dabs64 : ∀ adjacent, fastDabs64 adjacent y = dabs y

/-! ## Bits -/

lemma toNat_fabs (x : UInt32) : (fabs x).toNat = x.toNat % 2 ^ 31 :=
  UInt32.toNat_ofNat_of_lt' (by simp only [UInt32.size]; omega)

lemma toNat_dabs (y : UInt64) : (dabs y).toNat = y.toNat % 2 ^ 63 :=
  UInt64.toNat_ofNat_of_lt' (by simp only [UInt64.size]; omega)

/-- `fabs` of a number, which is a number again. -/
def Single.abs (s : Single) : Single where
  pattern := fabs s.pattern
  not_nan := by
    rw [toNat_fabs, Nat.mod_mod]
    exact s.not_nan

/-- **It is the absolute value**: values are numbered in order from zero on both sides. -/
lemma index_abs (s : Single) : s.abs.index = |s.index| := by
  have hlt : ¬ 2 ^ 31 ≤ s.pattern.toNat % 2 ^ 31 := not_le.2 (Nat.mod_lt _ (by decide))
  have hpattern : s.abs.pattern.toNat = s.pattern.toNat % 2 ^ 31 := toNat_fabs s.pattern
  rw [Single.index, Single.index, abs_signed, Single.negative, Single.magnitude, Single.magnitude,
    hpattern, decide_eq_false hlt, signed_false, Nat.mod_mod]

/-- The same for a `double`, whose value is counted in units of the least positive one. -/
lemma units_dabs (y : UInt64) : units (dabs y) = |units y| := by
  have hlt : ¬ 2 ^ 63 ≤ y.toNat % 2 ^ 63 := not_le.2 (Nat.mod_lt _ (by decide))
  rw [units, units, abs_signed, toNat_dabs, decide_eq_false hlt, signed_false, Nat.mod_mod]

lemma toNat_mask (i : Int32) : (i &&& 0x7fffffff).toUInt32.toNat = i.toUInt32.toNat % 2 ^ 31 := by
  have hmask : (i &&& 0x7fffffff).toUInt32 = i.toUInt32 &&& 0x7fffffff := rfl
  rw [hmask, UInt32.toNat_and]
  exact Nat.and_two_pow_sub_one_eq_mod _ 31

lemma toNat_readDouble (temp : Int32) (adjacent : UInt32) :
    (readDouble temp adjacent).toNat = 2 ^ 32 * adjacent.toNat + temp.toUInt32.toNat := by
  have hlow := temp.toUInt32.toNat_lt
  have hhigh := adjacent.toNat_lt
  exact UInt64.toNat_ofNat_of_lt' (by simp only [UInt64.size]; omega)

/-! ## `float` -/

/-- The mask clears the sign. -/
lemma fastFabs32_eq (x : UInt32) : fastFabs32 x = fabs x := by
  rw [← UInt32.toNat_inj, toNat_fabs]
  exact toNat_mask x.toInt32

/-- **The one that adds nothing is the absolute value** of every number: it gives the pattern of
`s.abs`, whose value is the absolute value of that of `s`. -/
theorem fastFabs32_abs (s : Single) :
    fastFabs32 s.pattern = s.abs.pattern ∧ s.abs.index = |s.index| :=
  ⟨fastFabs32_eq s.pattern, index_abs s⟩

/-- What is added changes the parity of the pattern. -/
lemma fastFabs64_ne (x : UInt32) : fastFabs64 x ≠ fabs x := by
  intro h
  have hbits : ((x.toInt32 + 1) &&& 0x7fffffff).toUInt32.toNat = (fabs x).toNat := by
    rw [← h]
    rfl
  have hadd : (x.toInt32 + 1).toUInt32.toNat = (x.toNat + 1) % 2 ^ 32 := UInt32.toNat_add x 1
  rw [toNat_mask, toNat_fabs, hadd] at hbits
  omega

/-! ## `double` -/

/-- **When the low word alone makes an absolute value**: its highest bit is clear, and what lies
behind it is the high word of the result. -/
theorem fastDabs32_eq_iff (adjacent : UInt32) (y : UInt64) :
    fastDabs32 adjacent y = dabs y ↔
      y.toNat % 2 ^ 32 < 2 ^ 31 ∧ adjacent.toNat = y.toNat / 2 ^ 32 % 2 ^ 31 := by
  have hlow : (y.toUInt32.toInt32 &&& 0x7fffffff).toUInt32.toNat = y.toNat % 2 ^ 32 % 2 ^ 31 :=
    toNat_mask y.toUInt32.toInt32
  rw [← UInt64.toNat_inj, toNat_dabs, fastDabs32, toNat_readDouble, hlow]
  omega

/-- Then the value is the absolute value. -/
theorem units_fastDabs32 {adjacent : UInt32} {y : UInt64} (hlow : y.toNat % 2 ^ 32 < 2 ^ 31)
    (hadjacent : adjacent.toNat = y.toNat / 2 ^ 32 % 2 ^ 31) :
    units (fastDabs32 adjacent y) = |units y| := by
  rw [(fastDabs32_eq_iff adjacent y).2 ⟨hlow, hadjacent⟩, units_dabs]

/-- **It does depend on what lies behind**: no `double` is treated as it should be whatever that
is. -/
theorem exists_fastDabs32_ne (y : UInt64) : ∃ adjacent, fastDabs32 adjacent y ≠ dabs y := by
  refine ⟨0x80000000, ?_⟩
  rw [ne_eq, fastDabs32_eq_iff]
  simp only [UInt32.reduceToNat]
  omega

/-- The one that adds to the low word is right about no `double` at all, as it changes the
parity. -/
lemma fastDabs64_ne (adjacent : UInt32) (y : UInt64) : fastDabs64 adjacent y ≠ dabs y := by
  have hadd : (y.toUInt32.toInt32 + 1).toUInt32.toNat = (y.toNat % 2 ^ 32 + 1) % 2 ^ 32 :=
    UInt32.toNat_add y.toUInt32 1
  intro h
  rw [← UInt64.toNat_inj, toNat_dabs, fastDabs64, toNat_readDouble, toNat_mask, hadd] at h
  omega

/-- **No input is treated as it should be**, of either type. -/
theorem not_fastAbs (x : UInt32) (y : UInt64) : ¬ FastFabs x ∧ ¬ FastDabs y := by
  constructor
  · intro h
    exact fastFabs64_ne x h.fabs64
  · intro h
    exact fastDabs64_ne 0 y (h.dabs64 0)

/-- **1.0**, which comes back as the next larger value. -/
theorem not_fastFabs_one : ¬ FastFabs 0x3F800000 := by
  intro h
  have hnext : fastFabs64 0x3F800000 = 0x3F800001 := by decide
  exact absurd (hnext.symm.trans h.fabs64) (by decide)

end MinSeq
