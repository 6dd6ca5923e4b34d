import Mathlib.Data.Rat.Floor
import Mathlib.Data.Sign.Basic
import Mathlib.Tactic.FieldSimp
import Mathlib.Tactic.Linarith
import Mathlib.Tactic.NormNum
import Mathlib.Tactic.Ring
import MinSeq.Core.Rounding

/-!
# Is `fastCos` a quarter turn ahead of `fastSin`?

`fastSin` of `utils/floatutils.h` is an odd parabola through the origin, made sharper when
`accurate` is set.  `fastCos` wraps its argument around and calls `fastSin`.  The comment above it
shows the wrap alone, which only an argument that has been moved by a quarter turn can need; the
quarter turn itself is nowhere added.

The template is taken at exact rationals, so the arithmetic on `theta` does not round.  What the
source computes before it sees `theta` does: the file's constants are `float`s, and `4 / PI` and
`-4 / PI_SQR` divide an `int` by a `float`, so that `B` and `C` are the two quotients rounded to a
`float`.  The parabola therefore crosses zero at `B / -C`, which is neither `PI` nor
`PI_SQR / PI` but lies close to both.

* **`fastCos_eq_iff`** — on the whole interval there are just two arguments where `fastCos` has the
  value it would have with the quarter turn, the two points in which the parabola meets its shifted
  copy.
* **`quarterTurnAhead_iff`** — at the lower one it has the sign of a cosine as well, since nothing
  is asked of it there.  At the upper one it would have to be even, and it is odd.
-/

namespace MinSeq

open BinaryFormat

/-! ## The functions -/

/-- The exact value of the `float` that the source's decimal stands for, as for the three constants
after it. -/
def PI : ℚ := 13176795 / 4194304
def PI2 : ℚ := 13176795 / 2097152
def PID2 : ℚ := 13176795 / 8388608
def PI_SQR : ℚ := 5174515 / 524288

/-- They are the nearest ones to the source's decimals: none is off by half a unit in the last of
its 24 bits. -/
example : |PI - 3.14159265358979323846| < 1 / 2 ^ 23 ∧
    |PI2 - 6.28318530717958647692| < 1 / 2 ^ 22 ∧
    |PID2 - 1.57079632679489661923| < 1 / 2 ^ 24 ∧
    |PI_SQR - 9.86960440108935861883| < 1 / 2 ^ 21 := by
  decide +kernel

namespace fastSin

/-- `4 / PI`, an `int` divided by a `float`: the quotient is rounded to the 24 bits of a `float`
before it is converted to the type of `theta`. -/
def B : ℚ := 10680707 / 8388608

/-- `-4 / PI_SQR`, rounded in the same way. -/
def C : ℚ := -13599099 / 33554432

/-- The `double` next to 0.225. -/
def P : ℚ := 8106479329266893 / 36028797018963968

/-- Both quotients round to the numerators above, which have 24 bits. -/
example : roundEven (4 / PI * 8388608) = 10680707 ∧ 2 ^ 23 ≤ 10680707 ∧ 10680707 < 2 ^ 24 ∧
    roundEven (-4 / PI_SQR * 33554432) = -13599099 ∧ 2 ^ 23 ≤ 13599099 ∧ 13599099 < 2 ^ 24 := by
  decide +kernel

end fastSin

/-- The sine: a parabola with the zeros 0 and `B / -C`, and on the other side of 0 its image under
the half turn.  With `accurate` it is mixed with its own square, which flattens the top. -/
def fastSin (accurate : Bool) (theta : ℚ) : ℚ :=
  let y := fastSin.B * theta + fastSin.C * theta * |theta|
  if accurate then fastSin.P * (y * |y| - y) + y
  else y

/-- The cosine, as the source has it: an argument above `PI` is moved down by a whole turn, and then
the sine is taken of it. -/
def fastCos (accurate : Bool) (theta : ℚ) : ℚ :=
  let thetaNew := if theta > PI then theta - PI2 else theta
  fastSin accurate thetaNew

/-- The argument a quarter turn on, wrapped back into the interval if that leads out of it.  This is
what `fastCos` would have to hand to `fastSin`. -/
def quarterTurn (theta : ℚ) : ℚ :=
  if theta + PID2 > PI then theta + PID2 - PI2 else theta + PID2

/-- **What `fastCos` is for.**  It is the shifted sine, and inside the quarter turn on either side
of 0 it is positive and takes the same sign at opposite arguments. -/
structure QuarterTurnAhead (accurate : Bool) (theta : ℚ) : Prop where
  shifted : fastCos accurate theta = fastSin accurate (quarterTurn theta)
  positive : |theta| < PI / 2 - 1 / 100 → 0 < fastCos accurate theta
  even : |theta| < PI / 2 - 1 / 100 →
    SignType.sign (fastCos accurate theta) = SignType.sign (fastCos accurate (-theta))

/-! ## The parabola -/

/-- The zero of `fastSin` after 0, where a sine would have `PI`. -/
def crossing : ℚ := fastSin.B / -fastSin.C

/-- What `fastSin` computes first, but for the factor `-C`: the product of the argument and its
distance from the zero on its side. -/
def arc (theta : ℚ) : ℚ := theta * (crossing - |theta|)

/-- What `accurate` makes of the parabola's value. -/
def sharpen (y : ℚ) : ℚ := fastSin.P * (y * |y| - y) + y

variable {accurate : Bool} {theta a b : ℚ}

/-- The parabola in factors, which is the form that its zeros and its meetings with the shifted one
are read off from. -/
lemma fastSin_eq (accurate : Bool) (theta : ℚ) :
    fastSin accurate theta =
      if accurate then sharpen (-fastSin.C * arc theta) else -fastSin.C * arc theta := by
  have harc : fastSin.B * theta + fastSin.C * theta * |theta| = -fastSin.C * arc theta := by
    rw [arc, crossing, fastSin.B, fastSin.C]
    ring
  rw [fastSin, harc]
  rfl

/-- The square with the sign of its base. -/
lemma mul_abs_strictMono : StrictMono fun y : ℚ => y * |y| := by
  intro y z hyz
  show y * |y| < z * |z|
  rcases le_or_gt 0 y with hy | hy
  · rw [abs_of_nonneg hy, abs_of_nonneg (hy.trans hyz.le)]
    exact mul_self_lt_mul_self hy hyz
  · have hneg : y * |y| < 0 := mul_neg_of_neg_of_pos hy (abs_pos_of_neg hy)
    rcases le_or_gt 0 z with hz | hz
    · exact hneg.trans_le (mul_nonneg hz (abs_nonneg z))
    · rw [abs_of_neg hy, abs_of_neg hz]
      nlinarith

/-- `P` is below 1, so that what is taken away of the value itself is less than the value. -/
lemma sharpen_strictMono : StrictMono sharpen := by
  intro y z hyz
  have hsquare : y * |y| < z * |z| := mul_abs_strictMono hyz
  rw [sharpen, sharpen, fastSin.P]
  linarith

/-- Neither the factor nor `accurate` brings two arguments together: in both modes `fastSin` agrees
at two arguments exactly where the parabola does. -/
lemma fastSin_eq_iff : fastSin accurate a = fastSin accurate b ↔ arc a = arc b := by
  have hfactor : (-fastSin.C : ℚ) ≠ 0 := by norm_num [fastSin.C]
  rw [fastSin_eq, fastSin_eq]
  cases accurate with
  | false =>
      simp only [Bool.false_eq_true, if_false]
      exact mul_right_inj' hfactor
  | true =>
      simp only [if_true]
      rw [sharpen_strictMono.injective.eq_iff]
      exact mul_right_inj' hfactor

/-- `fastSin` is odd, as a sine has to be. -/
lemma fastSin_neg (accurate : Bool) (theta : ℚ) :
    fastSin accurate (-theta) = -fastSin accurate theta := by
  have hodd : ∀ y, sharpen (-y) = -sharpen y := by
    intro y
    rw [sharpen, sharpen, abs_neg]
    ring
  have harc : arc (-theta) = -arc theta := by rw [arc, abs_neg, neg_mul, ← arc]
  rw [fastSin_eq, fastSin_eq, harc, mul_neg]
  split_ifs
  · exact hodd _
  · rfl

/-! ## The quarter turn -/

/-- Where the parabola and the shifted one meet on the right of 0, the one still rising and the
other one already falling. -/
def meetingUp : ℚ := (crossing - PID2) / 2

/-- Where they meet on the left, past the quarter turn. -/
def meetingDown : ℚ := -(crossing + PID2) / 2

lemma PI_eq : PI = 2 * PID2 := by norm_num [PI, PID2]

lemma PI2_eq : PI2 = 4 * PID2 := by norm_num [PI2, PID2]

lemma PID2_pos : 0 < PID2 := by norm_num [PID2]

/-- The zero lies close enough to `PI`: below it, and far beyond the quarter turn. -/
lemma crossing_bounds : 5 * PID2 < 3 * crossing ∧ crossing < 2 * PID2 := by
  norm_num [crossing, fastSin.B, fastSin.C, PID2]

lemma arc_of_nonneg (h : 0 ≤ theta) : arc theta = theta * (crossing - theta) := by
  rw [arc, abs_of_nonneg h]

lemma arc_of_neg (h : theta < 0) : arc theta = theta * (crossing + theta) := by
  rw [arc, abs_of_neg h, sub_neg_eq_add]

/-- Past the quarter turn the shifted one has wrapped around and stays below. -/
lemma arc_wrapped_lt (theta : ℚ) (hlo : PID2 < theta) (hhi : theta ≤ 2 * PID2) :
    arc (theta + PID2 - 4 * PID2) < arc theta := by
  have hq := PID2_pos
  rcases crossing_bounds with ⟨hlong, -⟩
  rw [arc_of_neg (by linarith), arc_of_nonneg (by linarith)]
  nlinarith

/-- **The parabola meets the shifted one** twice. -/
lemma arc_quarterTurn_iff (hhi : theta ≤ PI) :
    arc theta = arc (quarterTurn theta) ↔ theta = meetingUp ∨ theta = meetingDown := by
  have hq := PID2_pos
  rcases crossing_bounds with ⟨hlong, hshort⟩
  rw [PI_eq] at hhi
  rw [quarterTurn, PI_eq, PI2_eq, meetingUp, meetingDown]
  split_ifs with hwrap
  · have hne := arc_wrapped_lt theta (by linarith) hhi
    refine iff_of_false hne.ne' ?_
    rintro (h | h) <;> linarith
  · rcases le_or_gt 0 theta with hpos | hneg
    · rw [arc_of_nonneg hpos, arc_of_nonneg (by linarith)]
      constructor
      · intro h
        left
        have hfactor : PID2 * (crossing - PID2 - 2 * theta) = 0 := by linarith
        rcases mul_eq_zero.1 hfactor with hzero | hzero <;> linarith
      · rintro (h | h)
        · rw [h]
          ring
        · linarith
    · rcases le_or_gt 0 (theta + PID2) with hnear | hfar
      · have hbelow : arc theta < 0 := by
          rw [arc_of_neg hneg]
          exact mul_neg_of_neg_of_pos hneg (by linarith)
        have habove : 0 ≤ arc (theta + PID2) := by
          rw [arc_of_nonneg hnear]
          exact mul_nonneg hnear (by linarith)
        refine iff_of_false (hbelow.trans_le habove).ne ?_
        rintro (h | h) <;> linarith
      · rw [arc_of_neg hneg, arc_of_neg hfar]
        constructor
        · intro h
          right
          have hfactor : PID2 * (crossing + PID2 + 2 * theta) = 0 := by linarith
          rcases mul_eq_zero.1 hfactor with hzero | hzero <;> linarith
        · rintro (h | h)
          · linarith
          · rw [h]
            ring

/-! ## `fastCos` -/

/-- Up to `PI` there is nothing to wrap. -/
lemma fastCos_eq (accurate : Bool) (theta : ℚ) (hhi : theta ≤ PI) :
    fastCos accurate theta = fastSin accurate theta := by
  rw [fastCos, if_neg (not_lt.2 hhi)]

theorem fastCos_eq_iff (accurate : Bool) (hhi : theta ≤ PI) :
    fastCos accurate theta = fastSin accurate (quarterTurn theta) ↔
      theta = meetingUp ∨ theta = meetingDown := by
  rw [fastCos_eq accurate theta hhi, fastSin_eq_iff, arc_quarterTurn_iff hhi]

/-- Going up they meet in the middle between 0 and the quarter turn, where a cosine is even and
`fastCos` is odd. -/
lemma not_quarterTurnAhead_meetingUp (accurate : Bool) : ¬ QuarterTurnAhead accurate meetingUp := by
  intro h
  have hup : 0 < meetingUp ∧ meetingUp < PI / 2 - 1 / 100 := by
    norm_num [meetingUp, crossing, fastSin.B, fastSin.C, PI, PID2]
  have hnear : |meetingUp| < PI / 2 - 1 / 100 := by
    rw [abs_of_pos hup.1]
    exact hup.2
  have hpi := PI_eq
  have hq := PID2_pos
  have hcos := fastCos_eq accurate meetingUp (by linarith)
  have hcosneg := fastCos_eq accurate (-meetingUp) (by linarith)
  have hpositive := h.positive hnear
  have heven := h.even hnear
  rw [hcosneg, fastSin_neg, ← hcos, sign_pos hpositive,
    sign_neg (neg_neg_of_pos hpositive)] at heven
  exact absurd heven (by decide)

/-- **When `fastCos` is a quarter turn ahead**, in either mode and for every argument up to `PI`. -/
theorem quarterTurnAhead_iff (accurate : Bool) (theta : ℚ) (hhi : theta ≤ PI) :
    QuarterTurnAhead accurate theta ↔ theta = meetingDown := by
  constructor
  · intro h
    rcases (fastCos_eq_iff accurate hhi).1 h.shifted with hup | hdown
    · rw [hup] at h
      exact absurd h (not_quarterTurnAhead_meetingUp accurate)
    · exact hdown
  · intro hdown
    have hfar : ¬ |theta| < PI / 2 - 1 / 100 := by
      have hneg : meetingDown < 0 ∧ PI / 2 < -meetingDown := by
        norm_num [meetingDown, crossing, fastSin.B, fastSin.C, PI, PID2]
      rw [hdown, abs_of_neg hneg.1]
      linarith
    refine ⟨(fastCos_eq_iff accurate hhi).2 (.inr hdown), ?_, ?_⟩
    · intro hnear
      exact absurd hnear hfar
    · intro hnear
      exact absurd hnear hfar

/-- The one argument. -/
theorem quarterTurnAhead_meetingDown : QuarterTurnAhead true meetingDown :=
  (quarterTurnAhead_iff true meetingDown
    (by norm_num [meetingDown, crossing, fastSin.B, fastSin.C, PI, PID2])).2 rfl

/-- **0**, where `fastCos` is 0. -/
theorem not_quarterTurnAhead_zero : ¬ QuarterTurnAhead false 0 := by
  intro h
  have hnear : |(0 : ℚ)| < PI / 2 - 1 / 100 := by norm_num [PI]
  have hzero : fastCos false 0 = 0 := by norm_num [fastCos, fastSin, PI]
  have hpositive := h.positive hnear
  rw [hzero] at hpositive
  exact lt_irrefl 0 hpositive

end MinSeq
