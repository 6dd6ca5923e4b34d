import Mathlib.Data.Rat.Floor
import Mathlib.Tactic.Linarith
import Mathlib.Tactic.Ring
import Mathlib.Tactic.FieldSimp
import MinSeq.Core.BinaryFormat

/-!
# Rounding to nearest, ties to even

`roundEven` rounds to an integer, and `encode w` to the pattern of a binary format with a fraction
field of `w` bits: all bits below the leading `w + 1` are rounded away.  Both are the default
rounding of the floating-point standard, the second one for numbers that are multiples of the least
positive value.

Neither is easy to use by its definition.  What a program needs to know is on which side of
something the rounded result lies, so both are characterised by comparisons, from which everything
else here follows:

* **`roundEven_le_iff`** — the result compares with an integer as the number compares with the half
  above it; the half itself belongs to the even side.
* **`encode_le_iff`** — the same for patterns: what is rounded is compared with the middle between
  two neighbouring values, across the subnormals and from one exponent to the next.

**The exponent takes care of itself.**  Rounding the significand up to the next power of two carries
into the exponent field, and the pattern is right all the same.  That is why a pattern is a number
here, and an exponent and a fraction only where a proof needs to look at them.

The last two sections are about an even significand, where the ties on both sides belong to the same
value.  Then a strict or a weak comparison of the rounded number is one of the number itself, which
is how a program gets from a sum that was rounded to the integer it started with.
-/

namespace BinaryFormat

/-! ## To an integer

Over any ordered field with a floor, so that the result serves the rationals and whatever else a
program computes in.
-/

section RoundEven

variable {α : Type*} [Field α] [LinearOrder α] [IsStrictOrderedRing α] [FloorRing α]

/-- **The nearest integer**; of two that are equally near, the even one. -/
def roundEven (q : α) : ℤ :=
  if q < ⌊q⌋ + 1 / 2 then ⌊q⌋
  else if ⌊q⌋ + 1 / 2 < q then ⌊q⌋ + 1
  else if Even ⌊q⌋ then ⌊q⌋ else ⌊q⌋ + 1

/-- **Rounding down**, for every number and every integer: the result is at most `k` if the number
is below the half above `k`, or on it and `k` is even. -/
theorem roundEven_le_iff (q : α) (k : ℤ) :
    roundEven q ≤ k ↔ q < k + 1 / 2 ∨ q = k + 1 / 2 ∧ Even k := by
  have hlo : (⌊q⌋ : α) ≤ q := Int.floor_le q
  have hhi : q < ⌊q⌋ + 1 := Int.lt_floor_add_one q
  have hbounds : ⌊q⌋ ≤ roundEven q ∧ roundEven q ≤ ⌊q⌋ + 1 := by
    rw [roundEven]
    split_ifs <;> omega
  rcases lt_trichotomy k ⌊q⌋ with hk | rfl | hk
  · have hcast : (k : α) + 1 ≤ ⌊q⌋ := by exact_mod_cast hk
    refine iff_of_false (by omega) ?_
    rintro (h | ⟨h, -⟩) <;> linarith
  · rw [roundEven]
    split_ifs with hbelow habove heven
    · exact iff_of_true le_rfl (.inl hbelow)
    · refine iff_of_false (by omega) ?_
      rintro (h | ⟨h, -⟩)
      · exact lt_asymm h habove
      · exact habove.ne' h
    · exact iff_of_true le_rfl (.inr ⟨le_antisymm (not_lt.1 habove) (not_lt.1 hbelow), heven⟩)
    · refine iff_of_false (by omega) ?_
      rintro (h | ⟨-, h⟩)
      · exact hbelow h
      · exact heven h
  · have hcast : (⌊q⌋ : α) + 1 ≤ k := by exact_mod_cast hk
    exact iff_of_true (by omega) (.inl (by linarith))

lemma lt_roundEven_iff (q : α) (k : ℤ) :
    k < roundEven q ↔ (k : α) + 1 / 2 < q ∨ q = k + 1 / 2 ∧ ¬ Even k := by
  rw [← not_le, roundEven_le_iff, not_or, not_lt, not_and, le_iff_lt_or_eq]
  constructor
  · rintro ⟨h | h, heven⟩
    · exact .inl h
    · exact .inr ⟨h.symm, heven h.symm⟩
  · rintro (h | ⟨h, heven⟩)
    · exact ⟨.inl h, fun heq => absurd heq h.ne'⟩
    · exact ⟨.inr h.symm, fun _ => heven⟩

/-- The same from above: the half below `k` belongs to it when it is even. -/
lemma le_roundEven_iff (q : α) (k : ℤ) :
    k ≤ roundEven q ↔ (k : α) - 1 / 2 < q ∨ q = k - 1 / 2 ∧ Even k := by
  have hhalf : ((k - 1 : ℤ) : α) + 1 / 2 = k - 1 / 2 := by
    push_cast
    ring
  rw [← Int.sub_one_lt_iff, lt_roundEven_iff, hhalf, Int.even_sub_one, not_not]

/-- A larger number is not rounded to a smaller integer. -/
lemma roundEven_mono {p q : α} (hpq : p ≤ q) : roundEven p ≤ roundEven q := by
  rw [roundEven_le_iff]
  rcases (roundEven_le_iff q (roundEven q)).1 le_rfl with h | ⟨h, heven⟩
  · exact .inl (hpq.trans_lt h)
  · rcases hpq.lt_or_eq with hlt | rfl
    · exact .inl (hlt.trans_eq h)
    · exact .inr ⟨h, heven⟩

@[simp] lemma roundEven_intCast (k : ℤ) : roundEven (k : α) = k := by
  refine le_antisymm ?_ ?_
  · rw [roundEven_le_iff]
    left
    linarith
  · rw [le_roundEven_iff]
    left
    linarith

@[simp] lemma roundEven_natCast (k : ℕ) : roundEven (k : α) = k := by
  exact_mod_cast roundEven_intCast (α := α) k

/-- An even number moves the ties to ties of the same kind. -/
lemma roundEven_add_intCast (q : α) {k : ℤ} (hk : Even k) :
    roundEven (q + k) = roundEven q + k := by
  refine eq_of_forall_ge_iff fun c => ?_
  have hparity : Even (c - k) ↔ Even c := by
    rw [Int.even_sub]
    exact iff_true_right hk
  rw [← le_sub_iff_add_le, roundEven_le_iff, roundEven_le_iff, hparity]
  push_cast
  constructor
  · rintro (h | ⟨h, heven⟩)
    · left
      linarith
    · exact .inr ⟨by linarith, heven⟩
  · rintro (h | ⟨h, heven⟩)
    · left
      linarith
    · exact .inr ⟨by linarith, heven⟩

/-- Rounding is symmetric about zero, as the sign does not change which integers are even. -/
lemma roundEven_neg (q : α) : roundEven (-q) = -roundEven q := by
  refine eq_of_forall_ge_iff fun c => ?_
  rw [neg_le, le_roundEven_iff, roundEven_le_iff, Int.cast_neg, even_neg]
  constructor
  · rintro (h | ⟨h, heven⟩)
    · left
      linarith
    · exact .inr ⟨by linarith, heven⟩
  · rintro (h | ⟨h, heven⟩)
    · left
      linarith
    · exact .inr ⟨by linarith, heven⟩

/-- An even integer takes both its halves: a tie on either side is broken in its favour. -/
lemma roundEven_eq_iff_of_even {q : α} {k : ℤ} (hk : Even k) :
    roundEven q = k ↔ (k : α) - 1 / 2 ≤ q ∧ q ≤ k + 1 / 2 := by
  rw [le_antisymm_iff, roundEven_le_iff, le_roundEven_iff, le_iff_lt_or_eq, le_iff_lt_or_eq,
    and_comm,
    eq_comm (a := q)]
  simp only [hk, and_true]

/-- An odd one takes neither of them. -/
lemma roundEven_eq_iff_of_odd {q : α} {k : ℤ} (hk : ¬ Even k) :
    roundEven q = k ↔ (k : α) - 1 / 2 < q ∧ q < k + 1 / 2 := by
  rw [le_antisymm_iff, roundEven_le_iff, le_roundEven_iff, and_comm]
  simp only [hk, and_false, or_false]

end RoundEven

/-! ## To a pattern

The number `N` counts units of the least positive value of the format, so it may be any result that
needs more bits than a significand has.
-/

variable {w N m : ℕ}

/-- **The pattern of the value nearest to `N`**, whose leading bit `N.log2` says how many bits are
dropped.  A significand that is rounded up to the next power of two carries into the exponent field
by the addition. -/
def encode (w N : ℕ) : ℕ :=
  2 ^ w * (N.log2 - w) + (roundEven ((N : ℚ) / 2 ^ (N.log2 - w))).toNat

/-- The pattern of a number whose leading bit is known.  The upper end of the range is exclusive,
and so the logarithm is determined. -/
lemma encode_of_range {e : ℕ} (hlo : 2 ^ w * 2 ^ e ≤ N) (hhi : N < 2 ^ (w + 1) * 2 ^ e) :
    encode w N = 2 ^ w * e + (roundEven ((N : ℚ) / 2 ^ e)).toNat := by
  have hN : N ≠ 0 := by
    rintro rfl
    simp at hlo
  have hlog : N.log2 = w + e := by
    rw [← Nat.pow_add] at hlo hhi
    rw [Nat.log2_eq_iff hN]
    exact ⟨hlo, by rwa [Nat.add_right_comm]⟩
  rw [encode, hlog, Nat.add_sub_cancel_left]

/-- The value by exponent and significand, up to the significand that carries. -/
lemma magnitude_significand {e g : ℕ} (hg : g ≤ 2 ^ (w + 1)) (hnormal : e = 0 ∨ 2 ^ w ≤ g) :
    magnitude w (2 ^ w * e + g) = g * 2 ^ e := by
  have hpos : 0 < 2 ^ w := Nat.two_pow_pos w
  rw [Nat.pow_succ] at hg
  rcases Nat.lt_or_ge g (2 ^ w) with hsub | hnorm
  · have he : e = 0 := by omega
    rw [magnitude_fields hsub, if_pos he, he, Nat.pow_zero, Nat.mul_one]
  · rcases hg.lt_or_eq with hlt | rfl
    · have hfields : 2 ^ w * e + g = 2 ^ w * (e + 1) + (g - 2 ^ w) := by
        rw [Nat.mul_succ]
        omega
      rw [hfields, magnitude_fields (by omega), if_neg e.succ_ne_zero, Nat.add_sub_cancel,
        Nat.add_sub_cancel' hnorm]
    · have hcarry : 2 ^ w * e + 2 ^ w * 2 = 2 ^ w * (e + 2) + 0 := by ring
      have hexp : e + 2 - 1 = e + 1 := by omega
      rw [hcarry, magnitude_fields hpos, if_neg (by omega), hexp]
      ring

/-- A number of at most `w + 1` bits, moved up by any exponent, is a value of the format. -/
lemma exists_magnitude_eq {g : ℕ} (hg : g < 2 ^ (w + 1)) (e : ℕ) :
    ∃ k, magnitude w k = g * 2 ^ e := by
  induction e generalizing g with
  | zero => exact ⟨2 ^ w * 0 + g, magnitude_significand hg.le (.inl rfl)⟩
  | succ e ih =>
      rcases Nat.lt_or_ge g (2 ^ w) with hshort | hfull
      · have hdouble : 2 * g < 2 ^ (w + 1) := by
          rw [Nat.pow_succ]
          omega
        obtain ⟨k, hk⟩ := ih hdouble
        refine ⟨k, ?_⟩
        rw [hk]
        ring
      · exact ⟨2 ^ w * (e + 1) + g, magnitude_significand hg.le (.inr hfull)⟩

/-- Every value is such a number, as it has an exponent and a significand. -/
lemma exists_significand (w m : ℕ) : ∃ g e, g < 2 ^ (w + 1) ∧ magnitude w m = g * 2 ^ e := by
  have hf : m % 2 ^ w < 2 ^ w := Nat.mod_lt m (Nat.two_pow_pos w)
  rw [magnitude, Nat.pow_succ]
  split
  · exact ⟨m % 2 ^ w, 0, by omega, by simp⟩
  · exact ⟨2 ^ w + m % 2 ^ w, m / 2 ^ w - 1, by omega, rfl⟩

/-- **Large values are coarse**: from a power of two on, every value of the format is a multiple of
the spacing there. -/
lemma two_pow_dvd_magnitude {a : ℕ} (h : 2 ^ (w + 1 + a) ≤ magnitude w m) :
    2 ^ (a + 1) ∣ magnitude w m := by
  obtain ⟨g, e, hg, heq⟩ := exists_significand w m
  have hlt : 2 ^ (w + 1 + a) < 2 ^ (w + 1 + e) := by
    rw [Nat.pow_add 2 (w + 1) e]
    exact h.trans_lt (heq ▸ Nat.mul_lt_mul_of_pos_right hg (Nat.two_pow_pos e))
  have hae : w + 1 + a < w + 1 + e := (Nat.pow_lt_pow_iff_right (by decide)).1 hlt
  rw [heq]
  exact Dvd.dvd.mul_left (Nat.pow_dvd_pow 2 (by omega)) g

/-- Twice the middle between two neighbours, in terms of the exponent and the significand of the
lower one.  The upper one may have the next exponent. -/
lemma magnitude_add_succ {e g : ℕ} (hg : g < 2 ^ (w + 1)) (hnormal : e = 0 ∨ 2 ^ w ≤ g) :
    magnitude w (2 ^ w * e + g) + magnitude w (2 ^ w * e + g + 1) = (2 * g + 1) * 2 ^ e := by
  rw [Nat.add_assoc (2 ^ w * e), magnitude_significand hg.le hnormal,
    magnitude_significand hg (hnormal.imp_right Nat.le_succ_of_le), Nat.succ_eq_add_one]
  ring

/-- A pattern is even when its fraction is, so a tie goes to an even pattern and to an even
significand alike. -/
lemma even_pattern_iff (hw : 0 < w) (e g : ℕ) : Even (2 ^ w * e + g) ↔ Even g := by
  have heven : Even (2 ^ w * e) := (Nat.even_pow.2 ⟨even_two, hw.ne'⟩).mul_right e
  rw [Nat.even_add]
  exact iff_true_left heven

/-- The leading bits of a number fit a significand. -/
lemma lt_two_pow_encode (w N : ℕ) : N < 2 ^ (w + 1 + (N.log2 - w)) :=
  Nat.lt_log2_self.trans_le (Nat.pow_le_pow_right (by decide) (by omega))

/-- And they fill it, unless nothing is dropped. -/
lemma two_pow_encode_le (h : N.log2 - w ≠ 0) : 2 ^ (w + (N.log2 - w)) ≤ N := by
  have hN : N ≠ 0 := by
    rintro rfl
    simp at h
  have hexp : w + (N.log2 - w) = N.log2 := by omega
  rw [hexp]
  exact Nat.log2_self_le hN

/-- The rounded significand, without fractions: both sides of the comparison are multiplied by twice
the spacing. -/
lemma toNat_roundEven_le_iff (N e g : ℕ) :
    (roundEven ((N : ℚ) / 2 ^ e)).toNat ≤ g ↔
      2 * N < (2 * g + 1) * 2 ^ e ∨ 2 * N = (2 * g + 1) * 2 ^ e ∧ Even g := by
  have hpow : (0 : ℚ) < 2 ^ e := by positivity
  have hhalf : ((g : ℤ) : ℚ) + 1 / 2 = (2 * g + 1) / 2 := by
    push_cast
    ring
  have hlt : (N : ℚ) / 2 ^ e < (2 * g + 1) / 2 ↔ 2 * N < (2 * g + 1) * 2 ^ e := by
    rw [div_lt_div_iff₀ hpow two_pos, mul_comm (N : ℚ) 2]
    norm_cast
  have heq : (N : ℚ) / 2 ^ e = (2 * g + 1) / 2 ↔ 2 * N = (2 * g + 1) * 2 ^ e := by
    rw [div_eq_div_iff hpow.ne' two_ne_zero, mul_comm (N : ℚ) 2]
    norm_cast
  rw [Int.toNat_le, roundEven_le_iff, hhalf, hlt, heq, Int.even_coe_nat]

/-- What is at most a multiple of the spacing is rounded to no more than it. -/
lemma toNat_roundEven_le {e g : ℕ} (h : N ≤ g * 2 ^ e) :
    (roundEven ((N : ℚ) / 2 ^ e)).toNat ≤ g := by
  have hle : (N : ℚ) / 2 ^ e ≤ g := by
    rw [div_le_iff₀ (by positivity)]
    exact_mod_cast h
  have hround := roundEven_mono hle
  rw [roundEven_natCast] at hround
  omega

/-- And what is at least one, to no less. -/
lemma le_toNat_roundEven {e g : ℕ} (h : g * 2 ^ e ≤ N) :
    g ≤ (roundEven ((N : ℚ) / 2 ^ e)).toNat := by
  have hle : (g : ℚ) ≤ (N : ℚ) / 2 ^ e := by
    rw [le_div_iff₀ (by positivity)]
    exact_mod_cast h
  have hround := roundEven_mono hle
  rw [roundEven_natCast] at hround
  omega

/-- **Rounding to a pattern**, for every number and every pattern: it is compared with the middle
between the values of the pattern and its successor, and the middle belongs to the even of the
two. -/
theorem encode_le_iff (hw : 0 < w) (N k : ℕ) :
    encode w N ≤ k ↔ 2 * N < magnitude w k + magnitude w (k + 1) ∨
      2 * N = magnitude w k + magnitude w (k + 1) ∧ Even k := by
  have hhi := lt_two_pow_encode w N
  have hlo := two_pow_encode_le (w := w) (N := N)
  rw [Nat.pow_add] at hhi hlo
  rw [encode]
  generalize N.log2 - w = e at hhi hlo ⊢
  have hround := toNat_roundEven_le_iff N e
  have hcarry := toNat_roundEven_le hhi.le
  have hleast := fun he => le_toNat_roundEven (hlo he)
  generalize (roundEven ((N : ℚ) / 2 ^ e)).toNat = r at hround hcarry hleast ⊢
  have hmono := magnitude_strictMono w
  rcases Nat.lt_or_ge k (2 ^ w * e + 2 ^ (w + 1)) with hlt | hge
  · by_cases hnormal : e = 0 ∨ 2 ^ w * e + 2 ^ w ≤ k
    · -- the pattern has the exponent of `N`
      obtain ⟨g, rfl⟩ : ∃ g, k = 2 ^ w * e + g := by
        refine Nat.exists_eq_add_of_le ?_
        rcases hnormal with rfl | hle
        · simp
        · omega
      have hg : g < 2 ^ (w + 1) := by omega
      have hsig : e = 0 ∨ 2 ^ w ≤ g := hnormal.imp_right (by omega)
      rw [magnitude_add_succ hg hsig, even_pattern_iff hw, ← hround]
      exact Nat.add_le_add_iff_left
    · -- a smaller exponent
      rcases not_or.1 hnormal with ⟨he, hk⟩
      have hfirst : magnitude w (2 ^ w * e + 2 ^ w) = 2 ^ w * 2 ^ e :=
        magnitude_significand (Nat.pow_le_pow_right (by decide) (by omega)) (.inr le_rfl)
      have hN := hlo he
      have hr := hleast he
      have hbelow : magnitude w (k + 1) ≤ 2 ^ w * 2 ^ e := by
        rw [← hfirst]
        exact hmono.monotone (by omega)
      have hstep := magnitude_lt_succ w k
      refine iff_of_false (by omega) ?_
      omega
  · -- a larger exponent
    have hlast : magnitude w (2 ^ w * e + 2 ^ (w + 1)) = 2 ^ (w + 1) * 2 ^ e :=
      magnitude_significand le_rfl (.inr (Nat.pow_le_pow_right (by decide) (by omega)))
    have habove : 2 ^ (w + 1) * 2 ^ e ≤ magnitude w k := by
      rw [← hlast]
      exact hmono.monotone hge
    have hstep := magnitude_lt_succ w k
    exact iff_of_true (by omega) (.inl (by omega))

/-- A value of the format stays what it is. -/
@[simp] theorem encode_magnitude (hw : 0 < w) (m : ℕ) : encode w (magnitude w m) = m := by
  have hmono := magnitude_strictMono w
  refine eq_of_forall_ge_iff fun k => ?_
  rw [encode_le_iff hw]
  have hstep := magnitude_lt_succ w k
  rcases Nat.lt_or_ge k m with hlt | hge
  · have hle : magnitude w (k + 1) ≤ magnitude w m := hmono.monotone hlt
    exact iff_of_false (by omega) (by omega)
  · have hle : magnitude w m ≤ magnitude w k := hmono.monotone hge
    exact iff_of_true (.inl (by omega)) hge

/-- A larger number does not get a smaller pattern. -/
lemma encode_mono (hw : 0 < w) : Monotone (encode w) := by
  intro N N' hle
  rw [encode_le_iff hw]
  rcases (encode_le_iff hw N' (encode w N')).1 le_rfl with h | ⟨h, heven⟩
  · left
    omega
  · rcases hle.lt_or_eq with hlt | rfl
    · left
      omega
    · exact .inr ⟨h, heven⟩

/-- What is no larger than a value stays so. -/
lemma magnitude_encode_le (hw : 0 < w) {k : ℕ} (h : N ≤ magnitude w k) :
    magnitude w (encode w N) ≤ magnitude w k := by
  rw [(magnitude_strictMono w).le_iff_le]
  exact (encode_mono hw h).trans_eq (encode_magnitude hw k)

/-! ### Next to an even significand

Where the significand of `t` is even, the two halves next to `t` belong to it: the half of the
spacing above `t`, and, unless `t` is the first value with its exponent, as much below. -/

section EvenSignificand

variable {e g : ℕ}

/-- **At most** an even significand: everything up to the half above it. -/
lemma magnitude_encode_le_iff (hw : 0 < w) (hlo : 2 ^ w ≤ g) (hhi : g < 2 ^ (w + 1))
    (heven : Even g) :
    magnitude w (encode w N) ≤ g * 2 ^ (e + 1) ↔ N ≤ g * 2 ^ (e + 1) + 2 ^ e := by
  have hmiddle : (2 * g + 1) * 2 ^ (e + 1) = 2 * (g * 2 ^ (e + 1) + 2 ^ e) := by ring
  have hvalue := magnitude_significand (e := e + 1) hhi.le (.inr hlo)
  rw [← hvalue, (magnitude_strictMono w).le_iff_le, encode_le_iff hw,
    magnitude_add_succ hhi (.inr hlo),
    even_pattern_iff hw, hmiddle, hvalue]
  simp only [heven, and_true]
  omega

/-- **Less than** an even significand: everything below the half under it, unless the spacing
changes there. -/
lemma magnitude_encode_lt_iff (hw : 0 < w) (hlo : 2 ^ w < g) (hhi : g < 2 ^ (w + 1))
    (heven : Even g) :
    magnitude w (encode w N) < g * 2 ^ (e + 1) ↔ N + 2 ^ e < g * 2 ^ (e + 1) := by
  obtain ⟨f, rfl⟩ : ∃ f, g = f + 1 := Nat.exists_eq_add_one.2 (by omega)
  have hodd : ¬ Even f := Nat.even_add_one.1 heven
  have hmiddle : (2 * f + 1) * 2 ^ (e + 1) + 2 * 2 ^ e = 2 * ((f + 1) * 2 ^ (e + 1)) := by ring
  have hvalue := magnitude_significand (e := e + 1) hhi.le (.inr hlo.le)
  rw [← hvalue, (magnitude_strictMono w).lt_iff_lt, ← Nat.add_assoc, Nat.lt_succ_iff,
    encode_le_iff hw,
    magnitude_add_succ (by omega) (.inr (by omega)), even_pattern_iff hw, Nat.add_assoc, hvalue]
  simp only [hodd, and_false, or_false]
  omega

end EvenSignificand

/-! ### With a sign -/

/-- **The value nearest to `z`**, of either sign.  The sign takes no part in the rounding. -/
def roundSigned (w : ℕ) (z : ℤ) : ℤ := signed (decide (z < 0)) (magnitude w (encode w z.natAbs))

lemma roundSigned_neg (hw : 0 < w) (z : ℤ) : roundSigned w (-z) = -roundSigned w z := by
  rcases lt_trichotomy z 0 with hz | rfl | hz
  · simp [roundSigned, signed, hz, hz.not_gt]
  · have hzero : encode w 0 = 0 := by simpa using encode_magnitude hw 0
    simp [roundSigned, signed, hzero]
  · simp [roundSigned, signed, hz, hz.not_gt]

variable {m z : ℤ}

/-- The two comparisons of the section before, for a number of either sign. -/
lemma roundSigned_le_of_pos {e g : ℕ} (hw : 0 < w) (hlo : 2 ^ w ≤ g) (hhi : g < 2 ^ (w + 1))
    (heven : Even g) : roundSigned w z ≤ g * 2 ^ (e + 1) ↔ z ≤ g * 2 ^ (e + 1) + 2 ^ e := by
  have hT : (0 : ℤ) ≤ g * 2 ^ (e + 1) := by positivity
  have hE : (0 : ℤ) < 2 ^ e := by positivity
  rw [roundSigned, signed]
  split_ifs with hz
  · simp only [decide_eq_true_eq] at hz
    exact iff_of_true (by omega) (by omega)
  · simp only [decide_eq_true_eq] at hz
    obtain ⟨N, rfl⟩ : ∃ N : ℕ, z = N := Int.eq_ofNat_of_zero_le (by omega)
    have hround := magnitude_encode_le_iff (N := N) (e := e) hw hlo hhi heven
    exact_mod_cast hround

lemma neg_lt_roundSigned {e g : ℕ} (hw : 0 < w) (hlo : 2 ^ w < g) (hhi : g < 2 ^ (w + 1))
    (heven : Even g) :
    -(g * 2 ^ (e + 1) : ℤ) < roundSigned w z ↔ -(g * 2 ^ (e + 1) : ℤ) + 2 ^ e < z := by
  have hE : (0 : ℤ) < 2 ^ e := by positivity
  have hT : 2 ^ e < (g * 2 ^ (e + 1) : ℤ) := by
    have hg : (1 : ℤ) ≤ g := by omega
    rw [pow_succ]
    nlinarith
  rw [roundSigned, signed]
  split_ifs with hz
  · simp only [decide_eq_true_eq] at hz
    have hround := magnitude_encode_lt_iff (N := z.natAbs) (e := e) hw hlo hhi heven
    zify at hround
    rw [abs_of_neg hz] at hround
    rw [neg_lt_neg_iff, hround]
    omega
  · simp only [decide_eq_true_eq] at hz
    exact iff_of_true (by omega) (by omega)

/-- **Rounding next to a number of fewer than `w + 1` bits**, for `m` of either sign but minus a
power of two: the half of the spacing above it still goes to it. -/
theorem roundSigned_le_iff {a : ℕ} (hm : m ≠ 0) (hshort : m.natAbs.log2 < w)
    (hside : m < 0 → 2 ^ m.natAbs.log2 ≠ m.natAbs) :
    roundSigned w z ≤ m * 2 ^ (w + a + 1) ↔
      z ≤ m * 2 ^ (w + a + 1) + 2 ^ m.natAbs.log2 * 2 ^ a := by
  have hw : 0 < w := by omega
  have hlo := Nat.log2_self_le (Int.natAbs_ne_zero.2 hm)
  have hhi := Nat.lt_log2_self (n := m.natAbs)
  generalize hN : m.natAbs = N at hshort hside hlo hhi ⊢
  generalize N.log2 = l at hshort hside hlo hhi ⊢
  obtain ⟨b, rfl⟩ : ∃ b, w = l + (b + 1) := ⟨w - l - 1, by omega⟩
  -- the significand
  have hpos : 0 < 2 ^ (b + 1) := Nat.two_pow_pos _
  have hglo : 2 ^ (l + (b + 1)) ≤ N * 2 ^ (b + 1) := by
    rw [Nat.pow_add 2 l]
    exact Nat.mul_le_mul_right _ hlo
  have hghi : N * 2 ^ (b + 1) < 2 ^ (l + (b + 1) + 1) := by
    rw [Nat.add_right_comm, Nat.pow_add 2 (l + 1)]
    exact Nat.mul_lt_mul_of_pos_right hhi hpos
  have heven : Even (N * 2 ^ (b + 1)) := (Nat.even_pow.2 ⟨even_two, b.succ_ne_zero⟩).mul_left N
  have hsplit : (N : ℤ) * 2 ^ (l + (b + 1) + a + 1) = (N * 2 ^ (b + 1) : ℕ) * 2 ^ (l + a + 1) := by
    push_cast
    ring
  have hhalf : (2 : ℤ) ^ l * 2 ^ a = 2 ^ (l + a) := (pow_add 2 l a).symm
  rw [hhalf]
  rcases Int.natAbs_eq m with hsign | hsign
  · rw [hsign, hN, hsplit]
    exact roundSigned_le_of_pos hw hglo hghi heven
  · have hneg : m < 0 := by omega
    have hgne : 2 ^ (l + (b + 1)) ≠ N * 2 ^ (b + 1) := by
      rw [Nat.pow_add 2 l]
      exact fun heq => hside hneg (Nat.eq_of_mul_eq_mul_right hpos heq)
    rw [hsign, hN, neg_mul, hsplit, ← not_lt, ← not_lt,
      neg_lt_roundSigned hw (lt_of_le_of_ne hglo hgne) hghi heven]

end BinaryFormat
