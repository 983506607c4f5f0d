import Mathlib.Algebra.Order.Field.Basic
import Mathlib.Data.List.Basic
import Mathlib.Tactic.Linarith

/-!
# Intervals that are moved together

Intervals of a line are moved to the left, each by its own shift.  Intervals
that touch are moved alike, and one that is moved closer to the earlier ones
does not start before any of them ends.  Moved points are then in the order of
the points.
-/

namespace Placements

variable {α K : Type} [Field K] [LinearOrder K] [IsStrictOrderedRing K]
  (start reach shift : α → K)

/-- The second interval comes after the first. -/
structure Follows (first second : α) : Prop where
  start_le : start first ≤ start second
  touching : start second ≤ reach first → shift second = shift first
  apart : reach first < start second →
    reach first - shift first ≤ start second - shift second

variable {start reach shift} {first second : α} {x y : K}

/-- Moved points of two intervals are in the order of the points. -/
theorem Follows.position_le_iff (follows : Follows start reach shift first second)
    (inFirst : x ≤ reach first) (inSecond : start second ≤ y) :
    x - shift first ≤ y - shift second ↔ x ≤ y := by
  rcases le_or_gt (start second) (reach first) with touching | apart
  · rw [follows.touching touching, sub_le_sub_iff_right]
  · have moved := follows.apart apart
    constructor
    · intro _
      exact inFirst.trans (apart.le.trans inSecond)
    · intro _
      linarith

/-- A later point of the earlier interval is within both. -/
theorem Follows.position_le_of_le (follows : Follows start reach shift first second)
    (inSecond : start second ≤ x) (inFirst : y ≤ reach first) (le : x ≤ y) :
    x - shift second ≤ y - shift first := by
  rw [follows.touching (inSecond.trans (le.trans inFirst)), sub_le_sub_iff_right]
  exact le

/-- In a list of intervals, moving keeps the order of points. -/
theorem position_mono {items : List α}
    (follow : items.Pairwise (Follows start reach shift))
    (isFirst : first ∈ items) (isSecond : second ∈ items)
    (startFirst : start first ≤ x) (reachFirst : x ≤ reach first)
    (startSecond : start second ≤ y) (reachSecond : y ≤ reach second) (le : x ≤ y) :
    x - shift first ≤ y - shift second := by
  induction follow with
  | nil => cases isFirst
  | cons follows _ induction =>
      rcases List.mem_cons.mp isFirst with rfl | firstInRest
      · rcases List.mem_cons.mp isSecond with rfl | secondInRest
        · exact sub_le_sub_right le _
        · exact ((follows second secondInRest).position_le_iff reachFirst
            startSecond).mpr le
      · rcases List.mem_cons.mp isSecond with rfl | secondInRest
        · exact (follows first firstInRest).position_le_of_le startFirst reachSecond le
        · exact induction firstInRest secondInRest

end Placements
