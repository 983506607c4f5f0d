import Mathlib.Data.Finset.Max
import Mathlib.Order.Bounds.Basic

/-!
# Colouring intervals

Open intervals of a line are given colours.  If intervals of one colour do not
meet, and below the colour of an interval each colour is busy where it starts,
then there are as many colours as intervals that share a point.
-/

namespace Colouring

variable {ι K : Type} [LinearOrder K] (start stop : ι → K) (colour : ι → ℕ)

/-- The intervals that have the point in them. -/
def inside (items : Finset ι) (point : K) : Finset ι :=
  items.filter fun item => start item < point ∧ point < stop item

/-- Each colour is taken only where the ones below it are busy. -/
structure FirstFit (items : Finset ι) : Prop where
  positive : ∀ item ∈ items, start item < stop item
  apart : ∀ first ∈ items, ∀ second ∈ items, first ≠ second →
    colour first = colour second →
      stop first ≤ start second ∨ stop second ≤ start first
  busy : ∀ item ∈ items, ∀ lower < colour item, ∃ other ∈ items,
    colour other = lower ∧ start other ≤ start item ∧ start item < stop other

namespace FirstFit

variable {start stop colour} {items : Finset ι}
  (fits : FirstFit start stop colour items)

include fits

/-- Intervals that share a point have different colours. -/
theorem injOn_inside (point : K) :
    Set.InjOn colour (inside start stop items point) := by
  intro first isFirst second isSecond same
  rw [Finset.mem_coe, inside, Finset.mem_filter] at isFirst isSecond
  by_contra different
  rcases fits.apart first isFirst.1 second isSecond.1 different same with
    before | before
  · exact absurd (isSecond.2.1.trans isFirst.2.2) (not_lt.mpr before)
  · exact absurd (isFirst.2.1.trans isSecond.2.2) (not_lt.mpr before)

theorem card_inside_le (point : K) :
    (inside start stop items point).card ≤ (items.image colour).card := by
  rw [← Finset.card_image_of_injOn (fits.injOn_inside point)]
  exact Finset.card_le_card (Finset.image_subset_image (Finset.filter_subset _ _))

variable [DenselyOrdered K]

/-- Behind the start of an interval there is a point in one of each colour up to
its own. -/
theorem exists_point {item : ι} (member : item ∈ items) :
    ∃ point, Finset.range (colour item + 1) ⊆
      (inside start stop items point).image colour := by
  let running := items.filter fun other => start item < stop other
  have isRunning : item ∈ running :=
    Finset.mem_filter.mpr ⟨member, fits.positive item member⟩
  obtain ⟨first, firstRuns, firstStops⟩ :=
    running.exists_min_image stop ⟨item, isRunning⟩
  obtain ⟨point, above, below⟩ :=
    exists_between (Finset.mem_filter.mp firstRuns).2
  have within {other : ι} (isItem : other ∈ items)
      (startsBefore : start other ≤ start item)
      (stopsBehind : start item < stop other) :
      other ∈ inside start stop items point := by
    have stops := firstStops other (Finset.mem_filter.mpr ⟨isItem, stopsBehind⟩)
    exact Finset.mem_filter.mpr
      ⟨isItem, startsBefore.trans_lt above, below.trans_le stops⟩
  refine ⟨point, fun lower isLower => Finset.mem_image.mpr ?_⟩
  rcases (Nat.lt_succ_iff.mp (Finset.mem_range.mp isLower)).lt_or_eq with
    less | rfl
  · obtain ⟨other, isItem, isColour, startsBefore, stopsBehind⟩ :=
      fits.busy item member lower less
    exact ⟨other, within isItem startsBefore stopsBehind, isColour⟩
  · exact ⟨item, within member le_rfl (fits.positive item member), rfl⟩

/-- There are as many colours as intervals that share some point. -/
theorem isGreatest_card [Nonempty K] :
    IsGreatest (Set.range fun point => (inside start stop items point).card)
      (items.image colour).card := by
  refine ⟨?_, ?_⟩
  · rcases items.eq_empty_or_nonempty with rfl | nonempty
    · exact ⟨Classical.arbitrary K, rfl⟩
    · obtain ⟨highest, isItem, isHighest⟩ := items.exists_max_image colour nonempty
      obtain ⟨point, covered⟩ := fits.exists_point isItem
      have used : items.image colour ⊆ Finset.range (colour highest + 1) := by
        intro number isUsed
        obtain ⟨item, member, rfl⟩ := Finset.mem_image.mp isUsed
        exact Finset.mem_range.mpr (Nat.lt_succ_iff.mpr (isHighest item member))
      refine ⟨point, le_antisymm (fits.card_inside_le point) ?_⟩
      calc (items.image colour).card
          ≤ (Finset.range (colour highest + 1)).card := Finset.card_le_card used
        _ ≤ ((inside start stop items point).image colour).card :=
            Finset.card_le_card covered
        _ ≤ (inside start stop items point).card := Finset.card_image_le
  · rintro _ ⟨point, rfl⟩
    exact fits.card_inside_le point

end FirstFit

end Colouring
