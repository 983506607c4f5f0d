import Mathlib.Data.List.Basic
import Mathlib.Data.List.TakeWhile
import Mathlib.Order.MinMax

/-!
# Gaps between intervals

Closed intervals of a line, in the order of their starts.  A gap of their union
ends where an interval starts, and begins where the latest of the earlier ones
stops.  The stop of the interval just before it will do if no earlier one stops
later.
-/

namespace Gaps

variable {α K : Type} [LinearOrder K] (start stop : α → K)

/-- Each interval with the one behind it. -/
def neighbours (intervals : List α) : List (α × α) :=
  intervals.zip intervals.tail

def Covered (intervals : List α) (point : K) : Prop :=
  ∃ interval ∈ intervals, start interval ≤ point ∧ point ≤ stop interval

/-- Between two covered points nothing is covered. -/
structure IsGap (intervals : List α) (first last : K) : Prop where
  lt : first < last
  first_covered : Covered start stop intervals first
  last_covered : Covered start stop intervals last
  open_ : ∀ point, first < point → point < last →
    ¬ Covered start stop intervals point

variable {start stop} {intervals : List α}

theorem mem_neighbours {pair : α × α} :
    pair ∈ neighbours intervals ↔
      ∃ front rest, intervals = front ++ pair.1 :: pair.2 :: rest := by
  induction intervals with
  | nil => simp [neighbours]
  | cons first intervals induction =>
      cases intervals with
      | nil =>
          refine iff_of_false (by simp [neighbours]) ?_
          rintro ⟨front, rest, same⟩
          have lengths := congrArg List.length same
          simp only [List.length_append, List.length_cons,
            List.length_nil] at lengths
          omega
      | cons second intervals =>
          have isCons : neighbours (first :: second :: intervals) =
              (first, second) :: neighbours (second :: intervals) := rfl
          rw [isCons, List.mem_cons, induction]
          constructor
          · rintro (rfl | ⟨front, rest, same⟩)
            · exact ⟨[], intervals, rfl⟩
            · exact ⟨first :: front, rest, by rw [same]; rfl⟩
          · rintro ⟨front, rest, same⟩
            cases front with
            | nil =>
                obtain ⟨sameFirst, same⟩ := List.cons.inj same
                obtain ⟨sameSecond, -⟩ := List.cons.inj same
                exact Or.inl (Prod.ext sameFirst.symm sameSecond.symm)
            | cons other front =>
                exact Or.inr ⟨front, rest, (List.cons.inj same).2⟩

/-- The intervals with their starts in order, and no stop before its start. -/
structure Ordered (start stop : α → K) (intervals : List α) : Prop where
  starts : intervals.Pairwise fun first second => start first ≤ start second
  nonempty : ∀ interval ∈ intervals, start interval ≤ stop interval

namespace Ordered

theorem tail {interval : α} (ordered : Ordered start stop (interval :: intervals)) :
    Ordered start stop intervals :=
  ⟨ordered.starts.of_cons,
    fun other member => ordered.nonempty other (List.mem_cons_of_mem _ member)⟩

variable (ordered : Ordered start stop intervals)

include ordered

/-- What starts before, and what starts later, around two neighbours. -/
theorem around {front rest : List α} {before next : α}
    (isSplit : intervals = front ++ before :: next :: rest) :
    (∀ interval ∈ front, start interval ≤ start before) ∧
      start before ≤ stop before ∧
        ∀ interval ∈ next :: rest, start next ≤ start interval := by
  subst isSplit
  have starts := List.pairwise_append.mp ordered.starts
  have behind := List.pairwise_cons.mp starts.2.1
  refine ⟨fun interval member => starts.2.2 interval member before
    List.mem_cons_self, ordered.nonempty before (by simp), ?_⟩
  rw [List.forall_mem_cons]
  exact ⟨le_rfl, (List.pairwise_cons.mp behind.2).1⟩

/-- Between two neighbours nothing is covered if no earlier interval stops
later, and only then. -/
theorem not_covered_iff [DenselyOrdered K] {front rest : List α}
    {before next : α} (isSplit : intervals = front ++ before :: next :: rest)
    (apart : stop before < start next) :
    (∀ point, stop before < point → point < start next →
        ¬ Covered start stop intervals point) ↔
      ∀ earlier ∈ front, stop earlier ≤ stop before := by
  obtain ⟨starts, nonempty, later⟩ := ordered.around isSplit
  constructor
  · intro uncovered earlier member
    by_contra stopsLater
    rw [not_le] at stopsLater
    obtain ⟨point, above, below⟩ := exists_between (lt_min stopsLater apart)
    obtain ⟨beforeStop, beforeNext⟩ := lt_min_iff.mp below
    refine uncovered point above beforeNext ⟨earlier, ?_, ?_, beforeStop.le⟩
    · rw [isSplit]
      exact List.mem_append_left _ member
    · exact (starts earlier member).trans (nonempty.trans above.le)
  · rintro stops point above below ⟨interval, member, starts_le, le_stop⟩
    rw [isSplit, List.mem_append, List.mem_cons] at member
    rcases member with member | rfl | member
    · exact absurd (le_stop.trans (stops interval member)) (not_le.mpr above)
    · exact absurd le_stop (not_le.mpr above)
    · exact absurd ((later interval member).trans starts_le) (not_le.mpr below)

end Ordered

namespace IsGap

variable [DenselyOrdered K] {first last : K}
  (isGap : IsGap start stop intervals first last)

include isGap

theorem exists_start : ∃ interval ∈ intervals, start interval = last := by
  obtain ⟨interval, member, starts_le, le_stop⟩ := isGap.last_covered
  refine ⟨interval, member, le_antisymm starts_le ?_⟩
  by_contra startsBefore
  obtain ⟨point, above, below⟩ :=
    exists_between (max_lt isGap.lt (not_le.mp startsBefore))
  obtain ⟨aboveFirst, aboveStart⟩ := max_lt_iff.mp above
  exact isGap.open_ point aboveFirst below
    ⟨interval, member, aboveStart.le, below.le.trans le_stop⟩

theorem exists_stop :
    ∃ interval ∈ intervals, start interval ≤ first ∧ stop interval = first := by
  obtain ⟨interval, member, starts_le, le_stop⟩ := isGap.first_covered
  refine ⟨interval, member, starts_le, le_antisymm ?_ le_stop⟩
  by_contra stopsBehind
  obtain ⟨point, above, below⟩ :=
    exists_between (lt_min (not_le.mp stopsBehind) isGap.lt)
  obtain ⟨beforeStop, beforeLast⟩ := lt_min_iff.mp below
  exact isGap.open_ point above beforeLast
    ⟨interval, member, starts_le.trans above.le, beforeStop.le⟩

/-- What starts before the gap ends stops before it begins. -/
theorem stop_le {interval : α} (member : interval ∈ intervals)
    (nonempty : start interval ≤ stop interval)
    (startsBefore : start interval < last) : stop interval ≤ first := by
  by_contra stopsBehind
  rw [not_le] at stopsBehind
  rcases le_or_gt (start interval) first with early | within
  · obtain ⟨point, above, below⟩ := exists_between (lt_min stopsBehind isGap.lt)
    obtain ⟨beforeStop, beforeLast⟩ := lt_min_iff.mp below
    exact isGap.open_ point above beforeLast
      ⟨interval, member, early.trans above.le, beforeStop.le⟩
  · exact isGap.open_ (start interval) within startsBefore
      ⟨interval, member, le_rfl, nonempty⟩

/-- A gap ends where the second of two neighbours starts, and begins where the
latest of the intervals before it stops. -/
theorem exists_neighbours (ordered : Ordered start stop intervals) :
    ∃ front before next rest, intervals = front ++ before :: next :: rest ∧
      start next = last ∧ stop before ≤ first ∧
        ∃ longest ∈ front ++ [before], stop longest = first := by
  obtain ⟨starter, starterMember, starts⟩ := isGap.exists_start
  obtain ⟨longest, longestMember, starts_le, isStop⟩ := isGap.exists_stop
  obtain ⟨early, late, isSplit, earlyStarts, lateStarts⟩ : ∃ early late,
      intervals = early ++ late ∧
        (∀ interval ∈ early, start interval < last) ∧
          ∀ interval ∈ late.head?, last ≤ start interval := by
    refine ⟨intervals.takeWhile (start · < last),
      intervals.dropWhile (start · < last),
      List.takeWhile_append_dropWhile.symm, ?_, ?_⟩
    · intro interval member
      have startsBefore := List.mem_takeWhile_imp member
      exact of_decide_eq_true startsBefore
    · intro interval isHead
      have notEarly := List.head?_dropWhile_not (start · < last) intervals
      rw [Option.mem_def.mp isHead] at notEarly
      simpa using notEarly
  subst isSplit
  have starts := (List.pairwise_append.mp ordered.starts).2.1
  cases late with
  | nil =>
      rw [List.append_nil] at starterMember
      exact absurd ‹start starter = last› (earlyStarts _ starterMember).ne
  | cons next rest =>
      have lateLe : ∀ interval ∈ next :: rest, last ≤ start interval := by
        rw [List.forall_mem_cons]
        have nextLe := lateStarts next rfl
        exact ⟨nextLe, fun interval member =>
          nextLe.trans ((List.pairwise_cons.mp starts).1 interval member)⟩
      have nextLe : start next ≤ last := by
        rw [← ‹start starter = last›]
        rcases List.mem_append.mp starterMember with member | member
        · exact absurd ‹start starter = last› (earlyStarts _ member).ne
        · rcases List.mem_cons.mp member with rfl | member
          · exact le_rfl
          · exact (List.pairwise_cons.mp starts).1 _ member
      have longestEarly : longest ∈ early := by
        rcases List.mem_append.mp longestMember with member | member
        · exact member
        · exact absurd ((lateLe _ member).trans starts_le)
            (not_le.mpr isGap.lt)
      rcases List.eq_nil_or_concat early with rfl | ⟨front, before, rfl⟩
      · cases longestEarly
      · rw [List.concat_eq_append] at *
        refine ⟨front, before, next, rest, by simp,
          le_antisymm nextLe (lateLe next List.mem_cons_self), ?_, longest,
          longestEarly, isStop⟩
        exact isGap.stop_le (by simp) (ordered.nonempty before (by simp))
          (earlyStarts before (by simp))

end IsGap

/-- The open intervals between neighbours do not meet. -/
theorem neighbours_apart (ordered : Ordered start stop intervals) :
    (neighbours intervals).Pairwise fun first second =>
      start first.2 ≤ stop second.1 := by
  induction intervals with
  | nil => exact .nil
  | cons first intervals induction =>
      cases intervals with
      | nil => exact .nil
      | cons second intervals =>
          have isCons : neighbours (first :: second :: intervals) =
              (first, second) :: neighbours (second :: intervals) := rfl
          rw [isCons, List.pairwise_cons]
          refine ⟨fun pair member => ?_, induction ordered.tail⟩
          have inRest : pair.1 ∈ second :: intervals := (List.of_mem_zip member).1
          have nonempty :=
            ordered.nonempty pair.1 (List.mem_cons_of_mem _ inRest)
          refine le_trans ?_ nonempty
          rcases List.mem_cons.mp inRest with same | later
          · exact same ▸ le_rfl
          · exact (List.pairwise_cons.mp ordered.starts.of_cons).1 _ later

end Gaps
