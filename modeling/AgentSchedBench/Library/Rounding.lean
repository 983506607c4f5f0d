import Mathlib.Algebra.Order.Floor.Ring
import Mathlib.Algebra.Order.Field.Basic
import Mathlib.Tactic.FieldSimp
import Mathlib.Tactic.Linarith
import Mathlib.Tactic.Positivity
import Mathlib.Tactic.Ring

/-!
# Rounding to a few digits

A number goes to the nearest one with so many digits after the point.  Where
two are as near, it goes to the even one.
-/

namespace Rounding

variable {K : Type} [Field K] [LinearOrder K] [IsStrictOrderedRing K]
  [FloorRing K]

/-- The nearest integer, and the even one of two. -/
def roundHalfEven (value : K) : ℤ :=
  if Int.fract value < 1 / 2 then ⌊value⌋
  else if 1 / 2 < Int.fract value then ⌊value⌋ + 1
  else if ⌊value⌋ % 2 = 0 then ⌊value⌋
  else ⌊value⌋ + 1

theorem abs_roundHalfEven_sub_le (value : K) :
    |(roundHalfEven value : K) - value| ≤ 1 / 2 := by
  have parts := Int.floor_add_fract value
  have nonneg := Int.fract_nonneg value
  have ltOne := Int.fract_lt_one value
  rw [roundHalfEven, abs_le]
  split
  · constructor <;> linarith
  · split
    · push_cast
      constructor <;> linarith
    · split
      · constructor <;> linarith
      · push_cast
        constructor <;> linarith

theorem roundHalfEven_intCast (value : ℤ) :
    roundHalfEven (value : K) = value := by
  rw [roundHalfEven, Int.fract_intCast, if_pos (by positivity), Int.floor_intCast]

/-- What is above the middle of zero and one is rounded up. -/
theorem roundHalfEven_pos_iff {value : K} :
    0 < roundHalfEven value ↔ 1 / 2 < value := by
  have parts := Int.floor_add_fract value
  constructor
  · intro positive
    by_contra notAbove
    rw [not_lt] at notAbove
    have floorLe : ⌊value⌋ ≤ 0 :=
      Int.floor_le_iff.mpr (by push_cast; linarith)
    rcases floorLe.eq_or_lt with zero | negative
    · rw [zero, Int.cast_zero, zero_add] at parts
      rw [roundHalfEven, zero, parts, if_neg notAbove.not_gt] at positive
      split_ifs at positive <;> omega
    · rw [roundHalfEven] at positive
      split_ifs at positive <;> omega
  · intro above
    have floorNonneg : 0 ≤ ⌊value⌋ := Int.floor_nonneg.mpr (by linarith)
    rcases floorNonneg.eq_or_lt with zero | positive
    · rw [← zero, Int.cast_zero, zero_add] at parts
      rw [roundHalfEven, parts, if_neg above.not_gt, if_pos above]
      omega
    · rw [roundHalfEven]
      split_ifs <;> omega

/-- The nearest number with so many digits after the point. -/
def roundTo (digits : ℕ) (value : K) : K :=
  roundHalfEven (value * 10 ^ digits) / 10 ^ digits

variable {digits : ℕ} {value : K}

theorem abs_roundTo_sub_le (digits : ℕ) (value : K) :
    |roundTo digits value - value| ≤ 1 / 2 / 10 ^ digits := by
  have unit : (0 : K) < 10 ^ digits := by positivity
  have near := abs_roundHalfEven_sub_le (value * 10 ^ digits)
  have scaled :
      roundTo digits value - value =
        (roundHalfEven (value * 10 ^ digits) - value * 10 ^ digits) /
          10 ^ digits := by
    rw [roundTo, sub_div, mul_div_cancel_right₀ _ unit.ne']
  rw [scaled, abs_div, abs_of_pos unit]
  exact div_le_div_of_nonneg_right near unit.le

/-- A number with so many digits is kept. -/
theorem roundTo_intCast_div (digits : ℕ) (value : ℤ) :
    roundTo digits ((value : K) / 10 ^ digits) = value / 10 ^ digits := by
  rw [roundTo, div_mul_cancel₀ _ (by positivity), roundHalfEven_intCast]

theorem roundTo_pos_iff : 0 < roundTo digits value ↔ 1 / 2 / 10 ^ digits < value := by
  have unit : (0 : K) < 10 ^ digits := by positivity
  rw [roundTo, div_pos_iff_of_pos_right unit, Int.cast_pos, roundHalfEven_pos_iff,
    div_lt_iff₀ unit]

end Rounding
