import Mathlib.MeasureTheory.Measure.Lebesgue.Basic

/-!
# The part of a line that is not covered

Closed intervals in the order of their starts.  A further interval that starts
later leaves open what lies between its start and the latest stop before it.
-/

namespace Uncovered

open MeasureTheory

variable {α : Type} (start stop : α → ℝ)

/-- What no interval covers between two points. -/
def uncovered (intervals : List α) (first last : ℝ) : Set ℝ :=
  {point | first ≤ point ∧ point ≤ last ∧
    ∀ interval ∈ intervals, ¬ (start interval ≤ point ∧ point ≤ stop interval)}

variable {start stop} {intervals : List α} {first last latest : ℝ} {next : α}

/-- Just one start is covered by the interval that starts there. -/
theorem uncovered_singleton (nonempty : start next ≤ stop next) :
    uncovered start stop [next] (start next) (start next) = ∅ := by
  rw [Set.eq_empty_iff_forall_notMem]
  rintro point ⟨from_, until_, open_⟩
  exact open_ next List.mem_cons_self ⟨from_, until_.trans nonempty⟩

/-- The points before the last start, and those behind the latest stop. -/
theorem uncovered_concat
    (starts : ∀ interval ∈ intervals, start interval ≤ last)
    (stops : ∀ interval ∈ intervals, stop interval ≤ latest)
    (isLatest : ∃ interval ∈ intervals, stop interval = latest)
    (isLast : ∃ interval ∈ intervals,
      start interval = last ∧ last ≤ stop interval)
    (from_ : first ≤ last) (later : last ≤ start next)
    (nonempty : start next ≤ stop next) :
    uncovered start stop (intervals ++ [next]) first (start next) =
      uncovered start stop intervals first last ∪
        Set.Ioo latest (start next) := by
  obtain ⟨final, isFinal, begins, covers⟩ := isLast
  obtain ⟨longest, isLongest, isStop⟩ := isLatest
  have afterLast : last ≤ latest := covers.trans (stops final isFinal)
  ext point
  constructor
  · rintro ⟨after, _, open_⟩
    rw [List.forall_mem_append, List.forall_mem_singleton] at open_
    have before : point < start next := by
      by_contra beyond
      exact open_.2 ⟨not_lt.mp beyond, by linarith⟩
    rcases le_or_gt point last with early | late
    · exact Or.inl ⟨after, early, open_.1⟩
    · refine Or.inr ⟨?_, before⟩
      by_contra covered
      rw [not_lt] at covered
      exact open_.1 longest isLongest
        ⟨(starts longest isLongest).trans late.le, covered.trans_eq isStop.symm⟩
  · rintro (⟨after, early, open_⟩ | ⟨late, before⟩)
    · have beforeNext : point < start next := by
        by_contra beyond
        exact open_ final isFinal ⟨by linarith, by linarith⟩
      refine ⟨after, beforeNext.le, fun interval member => ?_⟩
      rcases List.mem_append.mp member with old | isNext
      · exact open_ interval old
      · rw [List.mem_singleton.mp isNext]
        exact fun covered => absurd beforeNext (not_lt.mpr covered.1)
    · refine ⟨by linarith, before.le, fun interval member => ?_⟩
      rcases List.mem_append.mp member with old | isNext
      · exact fun covered => absurd late
          (not_lt.mpr (covered.2.trans (stops interval old)))
      · rw [List.mem_singleton.mp isNext]
        exact fun covered => absurd before (not_lt.mpr covered.1)

/-- A further interval adds the gap before it. -/
theorem volume_uncovered_concat
    (starts : ∀ interval ∈ intervals, start interval ≤ last)
    (stops : ∀ interval ∈ intervals, stop interval ≤ latest)
    (isLatest : ∃ interval ∈ intervals, stop interval = latest)
    (isLast : ∃ interval ∈ intervals,
      start interval = last ∧ last ≤ stop interval)
    (from_ : first ≤ last) (later : last ≤ start next)
    (nonempty : start next ≤ stop next) :
    volume (uncovered start stop (intervals ++ [next]) first (start next)) =
      volume (uncovered start stop intervals first last) +
        ENNReal.ofReal (start next - latest) := by
  rw [uncovered_concat starts stops isLatest isLast from_ later nonempty,
    measure_union _ measurableSet_Ioo, Real.volume_Ioo]
  obtain ⟨final, isFinal, _, covers⟩ := isLast
  rw [Set.disjoint_left]
  rintro point ⟨_, early, _⟩ ⟨late, _⟩
  have := stops final isFinal
  linarith

end Uncovered
