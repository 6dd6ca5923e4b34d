import Mathlib.Algebra.Order.Ring.Int
import Mathlib.Tactic.Common

/-!
# Steps to the next representable value

A representation `value : P → V` names values of an ordered type, not all of them, and may have
several names for one of them.  Floating-point patterns are such a representation: two patterns name
zero, and between two neighbours there is no value to name.  One step leads from a represented value
to the next one above or below.

The definition by steps says what closeness is for, but nobody can compute with it.  A numbering
makes it a subtraction:

* **`Numbering.within_iff`** — where the represented values can be numbered in order without a gap,
  one value is within `n` steps of another exactly when their numbers differ by at most `n`.
-/

namespace Steps

variable {P V : Type*} [LinearOrder V] {value : P → V} {a b c : P} {n : ℕ}

/-- `b` represents the next value above that of `a`: it is larger, and nothing represented lies
between the two. -/
def IsNext (value : P → V) (a b : P) : Prop :=
  value a < value b ∧ ∀ c, ¬ (value a < value c ∧ value c < value b)

/-- **`b` is reached from `a` in at most `n` steps.**  Names of the same value are no step apart. -/
inductive Within (value : P → V) : ℕ → P → P → Prop where
  | same {n : ℕ} {a b : P} (h : value a = value b) : Within value n a b
  | step {n : ℕ} {a b c : P} (h : Within value n a b)
      (hnext : IsNext value b c ∨ IsNext value c b) :
      Within value (n + 1) a c

/-- **A numbering** of the represented values: in order, and without a gap.  Two names get the same
number exactly when they name the same value, which follows from the order. -/
structure Numbering (value : P → V) where
  index : P → ℤ
  index_lt_iff : ∀ a b, index a < index b ↔ value a < value b
  exists_index : ∀ a b z, index a ≤ z → z ≤ index b → ∃ c, index c = z

namespace Numbering

variable (N : Numbering value)

/-- The number of a name is that of its value. -/
lemma index_eq_iff : N.index a = N.index b ↔ value a = value b := by
  have hab := N.index_lt_iff a b
  have hba := N.index_lt_iff b a
  constructor
  · intro h
    exact le_antisymm (not_lt.1 fun hlt => by have := hba.2 hlt; omega)
      (not_lt.1 fun hlt => by have := hab.2 hlt; omega)
  · intro h
    have hirrefl := lt_irrefl (value b)
    rw [h] at hab hba
    have hnab := mt hab.1 hirrefl
    have hnba := mt hba.1 hirrefl
    omega

/-- The next value has the next number. -/
lemma isNext_iff : IsNext value a b ↔ N.index b = N.index a + 1 := by
  constructor
  · rintro ⟨hlt, hnone⟩
    have hindex := (N.index_lt_iff a b).2 hlt
    by_contra hne
    -- a gap would be filled
    rcases N.exists_index a b (N.index a + 1) (by omega) (by omega) with ⟨c, hc⟩
    exact hnone c ⟨(N.index_lt_iff a c).1 (by omega), (N.index_lt_iff c b).1 (by omega)⟩
  · intro h
    refine ⟨(N.index_lt_iff a b).1 (by omega), ?_⟩
    rintro c ⟨hac, hcb⟩
    have hac' := (N.index_lt_iff a c).2 hac
    have hcb' := (N.index_lt_iff c b).2 hcb
    omega

/-- Each step changes the number by one, by induction on the steps. -/
lemma natAbs_le_of_within (h : Within value n a b) : (N.index a - N.index b).natAbs ≤ n := by
  induction h with
  | same h =>
      have heq := N.index_eq_iff.2 h
      omega
  | step _ hnext ih =>
      rcases hnext with hnext | hnext
      · have hindex := N.isNext_iff.1 hnext
        omega
      · have hindex := N.isNext_iff.1 hnext
        omega

/-- A value `n` numbers away is reached by stopping one number short of it first, which is possible
because there is no gap. -/
lemma within_of_natAbs_le :
    ∀ {n : ℕ} {b : P}, (N.index a - N.index b).natAbs ≤ n → Within value n a b := by
  intro n
  induction n with
  | zero =>
      intro b h
      exact .same (N.index_eq_iff.1 (by omega))
  | succ n ih =>
      intro b h
      rcases Int.lt_trichotomy (N.index a) (N.index b) with hlt | heq | hgt
      · rcases N.exists_index a b (N.index b - 1) (by omega) (by omega) with ⟨c, hc⟩
        exact .step (ih (b := c) (by omega)) (.inl (N.isNext_iff.2 (by omega)))
      · exact .same (N.index_eq_iff.1 heq)
      · rcases N.exists_index b a (N.index b + 1) (by omega) (by omega) with ⟨c, hc⟩
        exact .step (ih (b := c) (by omega)) (.inr (N.isNext_iff.2 (by omega)))

/-- **Counting steps is subtracting numbers.** -/
theorem within_iff : Within value n a b ↔ (N.index a - N.index b).natAbs ≤ n :=
  ⟨N.natAbs_le_of_within, N.within_of_natAbs_le⟩

end Numbering

end Steps
