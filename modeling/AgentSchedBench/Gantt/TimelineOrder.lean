import AgentSchedBench.Gantt.RealTimeline
import Mathlib.Data.List.Induction
import Mathlib.Data.List.TakeWhile
import Mathlib.Order.Monotone.Basic

/-!
# The order on the real timeline

The mapping takes the first span that contains an instant, and the end of the
span that started last where none does.  It keeps the order exactly when the
spans that overlap are laid out alike, which is a condition on their walls and
on their real durations.
-/

namespace AgentSchedBench.Gantt

open StableSort

/-! ## What is asked of the mapping -/

/-- The mapping keeps the order, and maps spans to their real intervals. -/
structure KeepsOrder (spans : List Span) : Prop where
  monotone : Monotone fun timestampAbs => mapTimeToRealAbs timestampAbs (laidSpans spans)
  starts : ∀ laid ∈ laidSpans spans,
    mapTimeToRealAbs laid.span.startAbs (laidSpans spans) = laid.startRealAbs
  inside : ∀ laid ∈ laidSpans spans, ∀ timestampAbs, laid.span.Contains timestampAbs →
    laid.startRealAbs ≤ mapTimeToRealAbs timestampAbs (laidSpans spans) ∧
      mapTimeToRealAbs timestampAbs (laidSpans spans) ≤ laid.endRealAbs

/-! ## Conditions on the spans -/

/-- The first span that contains the instant. -/
def firstAt (timestampAbs : ℚ) (spans : List Span) : Option Span :=
  spans.find? fun span => span.Contains timestampAbs

/-- The first span that contains the instants right after this one. -/
def firstAfter (timestampAbs : ℚ) (spans : List Span) : Option Span :=
  spans.find? fun span => span.startAbs ≤ timestampAbs ∧ timestampAbs < span.endAbs

/-- The point of the real duration that an instant of the wall comes to. -/
def Span.pointAt (timestampAbs : ℚ) (span : Span) : ℚ :=
  if span.endAbs - span.startAbs ≤ 0 then span.startAbs
  else
    span.startAbs +
      (timestampAbs - span.startAbs) / (span.endAbs - span.startAbs) *
        realSpanDurationS span

/-- The span's real duration is its wall duration; or it is less, and all real
durations that have begun before the instant are over with this one. -/
def Span.LeadsTo (spans : List Span) (instant : ℚ) (span : Span) : Prop :=
  realSpanDurationS span = span.endAbs - span.startAbs ∨
    realSpanDurationS span < span.endAbs - span.startAbs ∧
      (realSpanDurationS span = 0 ∨ span.endAbs = instant) ∧
        ∀ other ∈ spans, other.startAbs < instant → 0 < realSpanDurationS other →
          other.reach ≤ span.reach

/-- The span is the first that contains its own end, and no span that is there
ends later. -/
structure EndsLast (spans there : List Span) (span : Span) : Prop where
  first : firstAt span.endAbs spans = some span
  last : ∀ other ∈ there, other.endAbs ≤ span.endAbs

/-- The spans, in their order, can be laid out as the mapping takes them. -/
structure FollowsWall (spans : List Span) : Prop where
  -- a span that starts within another one
  starts : ∀ span ∈ spans, ∀ container, firstAt span.startAbs spans = some container →
    container.startAbs < span.startAbs → container.LeadsTo spans span.startAbs
  -- a span that ends within an earlier one
  ends : ∀ span ∈ spans, ∀ container, firstAt span.endAbs spans = some container →
    container.pointAt span.endAbs ≤ span.reach
  -- a span that goes on when the one before it ends
  overlaps : ∀ span, firstAt span.endAbs spans = some span →
    ∀ next, firstAfter span.endAbs spans = some next →
      span.pointAt span.endAbs ≤ next.pointAt span.endAbs
  -- a gap, from the last end to the next start
  gaps : ∀ before latest next after, spans = before ++ latest :: next :: after →
    ∀ span, EndsLast spans (before ++ [latest]) span → span.endAbs < next.startAbs →
      span.pointAt span.endAbs ≤ latest.reach ∧ latest.reach ≤ next.startAbs
  -- the time after all spans
  tail : ∀ latest, spans.getLast? = some latest → ∀ span, EndsLast spans spans span →
    span.pointAt span.endAbs - span.endAbs ≤ latest.reach - latest.endAbs

/-! ## Points -/

section Points

variable {span : Span} {timestampAbs : ℚ}

theorem pointAt_start (span : Span) : span.pointAt span.startAbs = span.startAbs := by
  rw [Span.pointAt, sub_self, zero_div, zero_mul, add_zero, ite_self]

theorem pointAt_le_pointAt {earlier later : ℚ} (le : earlier ≤ later) :
    span.pointAt earlier ≤ span.pointAt later := by
  have duration := realSpanDurationS_nonneg span
  rw [Span.pointAt, Span.pointAt]
  split
  · exact le_rfl
  · next positive =>
      have wall := (not_le.mp positive).le
      gcongr

theorem startAbs_le_pointAt (contains : span.Contains timestampAbs) :
    span.startAbs ≤ span.pointAt timestampAbs :=
  (pointAt_start span).symm.le.trans (pointAt_le_pointAt contains.1)

theorem pointAt_end_le (span : Span) : span.pointAt span.endAbs ≤ span.reach := by
  rw [Span.pointAt]
  split
  · exact startAbs_le_reach span
  · next positive =>
      rw [div_self (ne_of_gt (not_le.mp positive)), one_mul]
      exact le_rfl

theorem pointAt_end (nonempty : span.startAbs < span.endAbs) :
    span.pointAt span.endAbs = span.reach := by
  have positive : 0 < span.endAbs - span.startAbs := sub_pos.mpr nonempty
  rw [Span.pointAt, if_neg positive.not_ge, div_self positive.ne', one_mul]
  rfl

theorem pointAt_le_reach (contains : span.Contains timestampAbs) :
    span.pointAt timestampAbs ≤ span.reach :=
  (pointAt_le_pointAt contains.2).trans (pointAt_end_le span)

theorem pointAt_of_nonempty (nonempty : span.startAbs < span.endAbs) :
    span.pointAt timestampAbs =
      span.startAbs + (timestampAbs - span.startAbs) / (span.endAbs - span.startAbs) *
        realSpanDurationS span := by
  rw [Span.pointAt, if_neg (sub_pos.mpr nonempty).not_ge]

/-- Where the durations are the same, so are the points. -/
theorem pointAt_of_same (nonempty : span.startAbs < span.endAbs)
    (same : realSpanDurationS span = span.endAbs - span.startAbs) :
    span.pointAt timestampAbs = timestampAbs := by
  have positive : span.endAbs - span.startAbs ≠ 0 := (sub_pos.mpr nonempty).ne'
  rw [pointAt_of_nonempty nonempty, same, div_mul_cancel₀ _ positive]
  ring

theorem lt_pointAt_of_longer (nonempty : span.startAbs < span.endAbs)
    (started : span.startAbs < timestampAbs)
    (longer : span.endAbs - span.startAbs < realSpanDurationS span) :
    timestampAbs < span.pointAt timestampAbs := by
  have positive : 0 < span.endAbs - span.startAbs := sub_pos.mpr nonempty
  have elapsed : 0 < timestampAbs - span.startAbs := sub_pos.mpr started
  have grows : timestampAbs - span.startAbs <
      (timestampAbs - span.startAbs) / (span.endAbs - span.startAbs) *
        realSpanDurationS span := by
    rw [div_mul_eq_mul_div, lt_div_iff₀ positive]
    exact mul_lt_mul_of_pos_left longer elapsed
  rw [pointAt_of_nonempty nonempty]
  linarith

theorem pointAt_lt_of_shorter (nonempty : span.startAbs < span.endAbs)
    (started : span.startAbs < timestampAbs)
    (shorter : realSpanDurationS span < span.endAbs - span.startAbs) :
    span.pointAt timestampAbs < timestampAbs := by
  have positive : 0 < span.endAbs - span.startAbs := sub_pos.mpr nonempty
  have elapsed : 0 < timestampAbs - span.startAbs := sub_pos.mpr started
  have shrinks : (timestampAbs - span.startAbs) / (span.endAbs - span.startAbs) *
      realSpanDurationS span < timestampAbs - span.startAbs := by
    rw [div_mul_eq_mul_div, div_lt_iff₀ positive]
    exact mul_lt_mul_of_pos_left shorter elapsed
  rw [pointAt_of_nonempty nonempty]
  linarith

/-- A point has come to the end of the real duration with the wall, or where
the real duration is none. -/
theorem pointAt_eq_reach_iff (nonempty : span.startAbs < span.endAbs) :
    span.pointAt timestampAbs = span.reach ↔
      realSpanDurationS span = 0 ∨ span.endAbs = timestampAbs := by
  have positive : span.endAbs - span.startAbs ≠ 0 := (sub_pos.mpr nonempty).ne'
  rw [pointAt_of_nonempty nonempty, Span.reach, add_right_inj, mul_left_eq_self₀,
    or_comm, div_eq_one_iff_eq positive, sub_left_inj, eq_comm (a := timestampAbs)]

end Points

/-! ## The mapping of laid spans -/

namespace LaidSpan

theorem interpolate_eq {laid : LaidSpan} {timestampAbs : ℚ}
    (ends : laid.endRealAbs = laid.startRealAbs + realSpanDurationS laid.span) :
    laid.interpolate timestampAbs = laid.span.pointAt timestampAbs - laid.shift := by
  rw [interpolate, Span.pointAt, ends, shift]
  split
  · exact (sub_sub_cancel _ _).symm
  · ring

theorem endRealAbs_eq {laid : LaidSpan}
    (ends : laid.endRealAbs = laid.startRealAbs + realSpanDurationS laid.span) :
    laid.endRealAbs = laid.reach - laid.shift := by
  rw [ends, reach, Span.reach, shift]
  ring

end LaidSpan

/-- The first laid span that contains the instant. -/
def laidAt (timestampAbs : ℚ) (laid : List LaidSpan) : Option LaidSpan :=
  laid.find? fun item => item.span.Contains timestampAbs

section Mapping

variable {laid : List LaidSpan} {timestampAbs : ℚ}

theorem laidAt_cons_of_contains {item : LaidSpan}
    (contains : item.span.Contains timestampAbs) :
    laidAt timestampAbs (item :: laid) = some item := by
  rw [laidAt, List.find?_cons, decide_eq_true contains]

theorem laidAt_cons_of_not {item : LaidSpan}
    (outside : ¬ item.span.Contains timestampAbs) :
    laidAt timestampAbs (item :: laid) = laidAt timestampAbs laid := by
  rw [laidAt, List.find?_cons, decide_eq_false outside]
  rfl

theorem contains_of_laidAt {item : LaidSpan}
    (isFirst : laidAt timestampAbs laid = some item) :
    item ∈ laid ∧ item.span.Contains timestampAbs := by
  rw [laidAt] at isFirst
  have contains := List.find?_some isFirst
  exact ⟨List.mem_of_find?_eq_some isFirst, of_decide_eq_true contains⟩

/-- The loop stops at the first span that contains the instant. -/
theorem mapFrom_of_laidAt {item : LaidSpan}
    (sorted : laid.Pairwise fun left right => left.start ≤ right.start)
    (isFirst : laidAt timestampAbs laid = some item) :
    mapFrom timestampAbs laid = item.interpolate timestampAbs := by
  fun_induction mapFrom timestampAbs laid with
  | case1 => cases isFirst
  | case2 last contains =>
      rw [laidAt_cons_of_contains contains] at isFirst
      rw [Option.some.inj isFirst]
  | case3 last notContains =>
      rw [laidAt_cons_of_not notContains] at isFirst
      cases isFirst
  | case4 head next rest contains =>
      rw [laidAt_cons_of_contains contains] at isFirst
      rw [Option.some.inj isFirst]
  | case5 head next rest notContains before =>
      rw [laidAt_cons_of_not notContains] at isFirst
      obtain ⟨member, contains⟩ := contains_of_laidAt isFirst
      have later : next.start ≤ item.start := by
        rcases List.mem_cons.mp member with rfl | inRest
        · exact le_rfl
        · exact (List.pairwise_cons.mp (List.pairwise_cons.mp sorted).2).1 item inRest
      exact absurd (later.trans contains.1) before.not_ge
  | case6 head next rest notContains notBefore induction =>
      rw [laidAt_cons_of_not notContains] at isFirst
      exact induction (List.pairwise_cons.mp sorted).2 isFirst

/-- In a gap the loop stops at the span that started last. -/
theorem mapFrom_of_gap {before after : List LaidSpan} {latest next : LaidSpan}
    (sorted : laid.Pairwise fun left right => left.start ≤ right.start)
    (isSplit : laid = before ++ latest :: next :: after)
    (outside : ∀ item ∈ laid, ¬ item.span.Contains timestampAbs)
    (started : latest.start ≤ timestampAbs) (notYet : timestampAbs < next.start) :
    mapFrom timestampAbs laid = latest.endRealAbs := by
  subst isSplit
  induction before with
  | nil =>
      rw [List.nil_append, mapFrom, if_neg (outside latest List.mem_cons_self),
        if_pos (show timestampAbs < next.span.startAbs from notYet)]
  | cons head rest induction =>
      obtain ⟨second, others, isCons⟩ :
          ∃ second others, rest ++ latest :: next :: after = second :: others := by
        cases rest with
        | nil => exact ⟨latest, next :: after, rfl⟩
        | cons second others => exact ⟨second, _, rfl⟩
      obtain ⟨_, restSorted⟩ := List.pairwise_cons.mp sorted
      have secondStarted : second.start ≤ timestampAbs := by
        refine le_trans ?_ started
        have isLatest : latest ∈ second :: others :=
          isCons ▸ List.mem_append_right rest List.mem_cons_self
        have restSorted : (rest ++ latest :: next :: after).Pairwise _ := restSorted
        rw [isCons] at restSorted
        rcases List.mem_cons.mp isLatest with rfl | inOthers
        · exact le_rfl
        · exact (List.pairwise_cons.mp restSorted).1 latest inOthers
      have mapped := induction restSorted fun item member =>
        outside item (List.mem_cons_of_mem head member)
      rw [isCons] at mapped
      rw [List.cons_append, isCons, mapFrom, if_neg (outside head List.mem_cons_self),
        if_neg (show ¬ timestampAbs < second.span.startAbs from secondStarted.not_gt)]
      exact mapped

/-- After all spans the loop runs to its end. -/
theorem mapFrom_of_tail {latest : LaidSpan}
    (isLast : laid.getLast? = some latest)
    (outside : ∀ item ∈ laid, ¬ item.span.Contains timestampAbs)
    (started : ∀ item ∈ laid, item.start ≤ timestampAbs) :
    mapFrom timestampAbs laid =
      timestampAbs - (latest.span.endAbs - latest.endRealAbs) := by
  fun_induction mapFrom timestampAbs laid with
  | case1 => cases isLast
  | case2 last contains => exact absurd contains (outside last List.mem_cons_self)
  | case3 last notContains =>
      cases isLast
      rfl
  | case4 head next rest contains =>
      exact absurd contains (outside head List.mem_cons_self)
  | case5 head next rest notContains before =>
      exact absurd (started next (List.mem_cons_of_mem head List.mem_cons_self))
        before.not_ge
  | case6 head next rest notContains notBefore induction =>
      rw [List.getLast?_cons_cons] at isLast
      exact induction isLast (fun item member => outside item (List.mem_cons_of_mem _ member))
        fun item member => started item (List.mem_cons_of_mem _ member)

end Mapping

/-! ## The mapping of a layout -/

section Laid

variable {spans : List Span} {laid : List LaidSpan} {timestampAbs : ℚ}
  {item container : LaidSpan}

theorem LaidOut.sorted (out : LaidOut spans laid) :
    laid.Pairwise fun left right => left.start ≤ right.start :=
  out.follow.imp Placements.Follows.start_le

theorem LaidOut.first_le {first : LaidSpan} {rest : List LaidSpan}
    (out : LaidOut spans (first :: rest)) (member : item ∈ first :: rest) :
    first.start ≤ item.start := by
  rcases List.mem_cons.mp member with rfl | inRest
  · exact le_rfl
  · exact (List.pairwise_cons.mp out.sorted).1 item inRest

/-- The spans that have started by some point come first. -/
theorem LaidOut.exists_split (out : LaidOut spans laid) (started : ℚ → Prop)
    [DecidablePred started]
    (earlier : ∀ left right, left ≤ right → started right → started left) :
    ∃ front rest, laid = front ++ rest ∧ (∀ item ∈ front, started item.start) ∧
      ∀ item ∈ rest, ¬ started item.start := by
  have isSplit := (List.takeWhile_append_dropWhile
    (p := fun item => decide (started item.start)) (l := laid)).symm
  refine ⟨_, _, isSplit, fun item inFront => ?_, fun item inRest => ?_⟩
  · have isStarted := List.mem_takeWhile_imp inFront
    exact of_decide_eq_true isStarted
  · cases isRest : laid.dropWhile fun item => decide (started item.start) with
    | nil =>
        rw [isRest] at inRest
        cases inRest
    | cons first rest =>
        have notFirst := List.head?_dropWhile_not
          (fun item : LaidSpan => decide (started item.start)) laid
        rw [isRest, List.head?_cons] at notFirst
        have sorted := out.sorted
        rw [isSplit, isRest] at sorted
        rw [isRest] at inRest
        have le : first.start ≤ item.start := by
          rcases List.mem_cons.mp inRest with rfl | inRest
          · exact le_rfl
          · exact (List.pairwise_cons.mp (List.pairwise_append.mp sorted).2.1).1 item inRest
        exact fun isStarted => of_decide_eq_false notFirst (earlier _ _ le isStarted)

/-- Up to the first start nothing is taken out. -/
theorem LaidOut.map_before {first : LaidSpan} {rest : List LaidSpan}
    (out : LaidOut spans (first :: rest)) (before : timestampAbs ≤ first.start) :
    mapTimeToRealAbs timestampAbs (first :: rest) = timestampAbs := by
  have same : first.startRealAbs = first.span.startAbs := out.first first rest rfl
  rw [mapTimeToRealAbs, if_pos (show timestampAbs ≤ first.span.startAbs from before),
    same, sub_self, sub_zero]

theorem mapTimeToRealAbs_of_gt {first : LaidSpan} {rest : List LaidSpan}
    (started : first.start < timestampAbs) :
    mapTimeToRealAbs timestampAbs (first :: rest) =
      mapFrom timestampAbs (first :: rest) := by
  rw [mapTimeToRealAbs,
    if_neg (show ¬ timestampAbs ≤ first.span.startAbs from started.not_ge)]

/-- An instant is mapped with the first span that contains it. -/
theorem LaidOut.map_of_laidAt (out : LaidOut spans laid)
    (ordered : ∀ item ∈ laid, item.span.startAbs ≤ item.span.endAbs)
    (isFirst : laidAt timestampAbs laid = some item) :
    mapTimeToRealAbs timestampAbs laid =
      item.span.pointAt timestampAbs - item.shift := by
  obtain ⟨member, contains⟩ := contains_of_laidAt isFirst
  cases laid with
  | nil => cases member
  | cons first rest =>
      rcases ((out.first_le member).trans contains.1).eq_or_lt with isStart | started
      · have itself : laidAt first.start (first :: rest) = some first :=
          laidAt_cons_of_contains ⟨le_rfl, ordered first List.mem_cons_self⟩
        rw [← isStart, itself, Option.some_inj] at isFirst
        rw [out.map_before isStart.symm.le, ← isFirst, ← isStart]
        have same : first.startRealAbs = first.start := out.first first rest rfl
        rw [show first.span.pointAt first.start = first.start from pointAt_start _,
          first.start_sub_shift, same]
      · rw [mapTimeToRealAbs_of_gt started, mapFrom_of_laidAt out.sorted isFirst,
          LaidSpan.interpolate_eq (out.ends item member)]

/-- The first span has started before an instant that no span contains. -/
theorem LaidOut.first_lt {first : LaidSpan} {rest : List LaidSpan}
    (out : LaidOut spans (first :: rest))
    (ordered : ∀ item ∈ first :: rest, item.span.startAbs ≤ item.span.endAbs)
    (member : item ∈ first :: rest) (started : item.start ≤ timestampAbs)
    (outside : ∀ item ∈ first :: rest, ¬ item.span.Contains timestampAbs) :
    first.start < timestampAbs := by
  refine lt_of_le_of_ne ((out.first_le member).trans started) ?_
  rintro rfl
  exact outside first List.mem_cons_self ⟨le_rfl, ordered first List.mem_cons_self⟩

theorem LaidOut.map_of_gap {before after : List LaidSpan} {latest next : LaidSpan}
    (out : LaidOut spans laid)
    (ordered : ∀ item ∈ laid, item.span.startAbs ≤ item.span.endAbs)
    (isSplit : laid = before ++ latest :: next :: after)
    (outside : ∀ item ∈ laid, ¬ item.span.Contains timestampAbs)
    (started : latest.start ≤ timestampAbs) (notYet : timestampAbs < next.start) :
    mapTimeToRealAbs timestampAbs laid = latest.reach - latest.shift := by
  have member : latest ∈ laid :=
    isSplit ▸ List.mem_append_right before List.mem_cons_self
  have mapped := mapFrom_of_gap out.sorted isSplit outside started notYet
  rw [← LaidSpan.endRealAbs_eq (out.ends latest member)]
  cases laid with
  | nil => cases member
  | cons first rest =>
      rw [mapTimeToRealAbs_of_gt (out.first_lt ordered member started outside)]
      exact mapped

theorem LaidOut.map_of_tail {latest : LaidSpan} (out : LaidOut spans laid)
    (ordered : ∀ item ∈ laid, item.span.startAbs ≤ item.span.endAbs)
    (isLast : laid.getLast? = some latest)
    (outside : ∀ item ∈ laid, ¬ item.span.Contains timestampAbs)
    (started : ∀ item ∈ laid, item.start ≤ timestampAbs) :
    mapTimeToRealAbs timestampAbs laid =
      timestampAbs - latest.span.endAbs + (latest.reach - latest.shift) := by
  have member : latest ∈ laid := List.mem_of_getLast? isLast
  have mapped := mapFrom_of_tail isLast outside started
  rw [← LaidSpan.endRealAbs_eq (out.ends latest member)]
  cases laid with
  | nil => cases member
  | cons first rest =>
      rw [mapTimeToRealAbs_of_gt
        (out.first_lt ordered member (started latest member) outside), mapped]
      ring

/-! ### Moved points -/

/-- Moved points are in the order of the points. -/
theorem LaidOut.position_mono (out : LaidOut spans laid) {first second : LaidSpan}
    {x y : ℚ} (isFirst : first ∈ laid) (isSecond : second ∈ laid)
    (startFirst : first.start ≤ x) (reachFirst : x ≤ first.reach)
    (startSecond : second.start ≤ y) (reachSecond : y ≤ second.reach) (le : x ≤ y) :
    x - first.shift ≤ y - second.shift :=
  Placements.position_mono out.follow isFirst isSecond startFirst reachFirst
    startSecond reachSecond le

theorem LaidSpan.start_le_reach (laid : LaidSpan) : laid.start ≤ laid.reach :=
  startAbs_le_reach laid.span

/-- Of all spans that contain an instant, the first one comes first. -/
theorem LaidOut.follows_of_laidAt (out : LaidOut spans laid)
    (isFirst : laidAt timestampAbs laid = some container) (member : item ∈ laid)
    (contains : item.span.Contains timestampAbs) :
    item = container ∨ container.Follows item := by
  obtain ⟨_, before, after, rfl, outside⟩ := List.find?_eq_some_iff_append.mp isFirst
  rcases List.mem_append.mp member with inBefore | inRest
  · have isOutside := outside item inBefore
    rw [decide_eq_true contains] at isOutside
    cases isOutside
  · refine (List.mem_cons.mp inRest).imp_right fun inAfter => ?_
    exact (List.pairwise_cons.mp (List.pairwise_append.mp out.follow).2.1).1 item inAfter

/-- A point of the first span is not after one of a later span. -/
theorem LaidOut.le_iff_of_laidAt (out : LaidOut spans laid) {x y : ℚ}
    (isFirst : laidAt timestampAbs laid = some container) (member : item ∈ laid)
    (contains : item.span.Contains timestampAbs) (within : x ≤ container.reach)
    (started : item.start ≤ y) :
    x - container.shift ≤ y - item.shift ↔ x ≤ y := by
  rcases out.follows_of_laidAt isFirst member contains with rfl | follows
  · exact sub_le_sub_iff_right _
  · exact follows.position_le_iff within started

/-! ### Starts -/

theorem LaidOut.start_le_of_le (out : LaidOut spans laid) (isItem : item ∈ laid)
    (isContainer : container ∈ laid) (le : item.start ≤ container.start) :
    item.startRealAbs ≤ container.startRealAbs := by
  rw [← item.start_sub_shift, ← container.start_sub_shift]
  exact out.position_mono isItem isContainer le_rfl item.start_le_reach le_rfl
    container.start_le_reach le

theorem LaidOut.end_le_of_le (out : LaidOut spans laid) (isItem : item ∈ laid)
    (isContainer : container ∈ laid) (le : item.reach ≤ container.reach) :
    item.endRealAbs ≤ container.endRealAbs := by
  rw [LaidSpan.endRealAbs_eq (out.ends item isItem),
    LaidSpan.endRealAbs_eq (out.ends container isContainer)]
  exact out.position_mono isItem isContainer item.start_le_reach le_rfl
    container.start_le_reach le_rfl le

theorem LaidOut.startRealAbs_le (out : LaidOut spans laid) (isItem : item ∈ laid) :
    item.startRealAbs ≤ item.endRealAbs := by
  rw [out.ends item isItem]
  exact le_add_of_nonneg_right (realSpanDurationS_nonneg item.span)

/-- Where all real durations are over with one span, no real end is later. -/
theorem LaidOut.end_le_of_covered (out : LaidOut spans laid)
    (isContainer : container ∈ laid)
    (covered : ∀ other ∈ laid, other.start < timestampAbs →
      0 < realSpanDurationS other.span → other.reach ≤ container.reach)
    {front rest : List LaidSpan} (isSplit : laid = front ++ rest)
    (started : ∀ other ∈ front, other.start < timestampAbs) :
    ∀ other ∈ front, other.endRealAbs ≤ container.endRealAbs := by
  induction front using List.reverseRecOn generalizing rest with
  | nil => exact List.forall_mem_nil _
  | append_singleton front last induction =>
      rw [List.append_assoc] at isSplit
      obtain ⟨frontStarted, lastStarted⟩ := List.forall_mem_append.mp started
      have before := induction isSplit frontStarted
      have isLast : last ∈ laid :=
        isSplit ▸ List.mem_append_right front List.mem_cons_self
      have startLe : last.startRealAbs ≤ container.endRealAbs := by
        rcases eq_or_ne front [] with rfl | nonempty
        · refine le_trans (out.start_le_of_le isLast isContainer ?_)
            (out.startRealAbs_le isContainer)
          subst isSplit
          exact out.first_le isContainer
        · obtain ⟨earlier, inFront, le⟩ := out.supported front last rest isSplit nonempty
          exact le.trans (before earlier inFront)
      refine List.forall_mem_append.mpr ⟨before, List.forall_mem_singleton.mpr ?_⟩
      rcases (realSpanDurationS_nonneg last.span).eq_or_lt with isZero | positive
      · rw [out.ends last isLast, ← isZero, add_zero]
        exact startLe
      · exact out.end_le_of_le isLast isContainer
          (covered last isLast (lastStarted last List.mem_cons_self) positive)

/-- A span that starts then starts on the real timeline no later than that. -/
theorem LaidOut.start_le_of_covered (out : LaidOut spans laid)
    (isContainer : container ∈ laid) (isItem : item ∈ laid)
    (started : container.start < item.start)
    (covered : ∀ other ∈ laid, other.start < item.start →
      0 < realSpanDurationS other.span → other.reach ≤ container.reach) :
    item.startRealAbs ≤ container.endRealAbs := by
  obtain ⟨front, rest, isSplit, early, late⟩ :=
    out.exists_split (· < item.start) fun _ _ => lt_of_le_of_lt
  have before := out.end_le_of_covered isContainer covered isSplit early
  have inFront : container ∈ front := by
    rw [isSplit] at isContainer
    exact (List.mem_append.mp isContainer).resolve_right fun inRest =>
      late container inRest started
  cases rest with
  | nil =>
      rw [List.append_nil] at isSplit
      exact absurd (early item (isSplit ▸ isItem)) (lt_irrefl _)
  | cons first rest =>
      have isFirst : first ∈ laid := isSplit ▸ List.mem_append_right front List.mem_cons_self
      have notEarly := not_lt.mp (late first List.mem_cons_self)
      obtain ⟨earlier, isEarlier, le⟩ :=
        out.supported front first rest isSplit (List.ne_nil_of_mem inFront)
      exact (out.start_le_of_le isItem isFirst notEarly).trans
        (le.trans (before earlier isEarlier))

theorem LaidOut.forall_spans (out : LaidOut spans laid) {property : Span → Prop} :
    (∀ span ∈ spans, property span) ↔ ∀ item ∈ laid, property item.span := by
  rw [← out.map_span, List.forall_mem_map]

/-- A point of one span is moved to the start of a later one only if no real
duration goes on in between. -/
theorem LaidOut.reach_le_of_eq (out : LaidOut spans laid) {point : ℚ}
    (isContainer : container ∈ laid) (isItem : item ∈ laid)
    (started : container.start ≤ point) (within : point ≤ container.reach)
    (before : point < item.start)
    (same : point - container.shift = item.start - item.shift)
    {other : LaidSpan} (isOther : other ∈ laid) (early : other.start < item.start) :
    other.reach ≤ max other.start point := by
  by_contra goesOn
  rw [not_le, max_lt_iff] at goesOn
  have inOther : max other.start point < min other.reach item.start :=
    lt_min (max_lt goesOn.1 goesOn.2) (max_lt early before)
  have fromPoint := out.position_mono isContainer isOther started within
    (le_max_left other.start point) (max_le goesOn.1.le goesOn.2.le)
    (le_max_right other.start point)
  have toItem := out.position_mono isOther isItem
    (le_min goesOn.1.le early.le) (min_le_left other.reach item.start) le_rfl
    item.start_le_reach (min_le_right other.reach item.start)
  linarith

/-- The start of a span is mapped to its real start exactly when the first span
that contains it leads to it. -/
theorem LaidOut.map_start_iff (out : LaidOut spans laid)
    (ordered : ∀ item ∈ laid, item.span.startAbs ≤ item.span.endAbs)
    (isItem : item ∈ laid) (isFirst : laidAt item.start laid = some container) :
    mapTimeToRealAbs item.start laid = item.startRealAbs ↔
      (container.start < item.start → container.span.LeadsTo spans item.start) := by
  obtain ⟨isContainer, contains⟩ := contains_of_laidAt isFirst
  rw [out.map_of_laidAt ordered isFirst, ← item.start_sub_shift]
  rcases contains.1.eq_or_lt with isStart | started
  · have isStart : container.start = item.start := isStart
    refine iff_of_true ?_ fun before => absurd before isStart.not_lt
    rw [← isStart, show container.span.pointAt container.start = container.start from
      pointAt_start _, container.start_sub_shift, isStart, item.start_sub_shift]
    exact le_antisymm (out.start_le_of_le isContainer isItem isStart.le)
      (out.start_le_of_le isItem isContainer isStart.ge)
  · have started : container.start < item.start := started
    have nonempty : container.span.startAbs < container.span.endAbs :=
      started.trans_le contains.2
    have pointStarted : container.start ≤ container.span.pointAt item.start :=
      startAbs_le_pointAt contains
    have pointWithin : container.span.pointAt item.start ≤ container.reach :=
      pointAt_le_reach contains
    refine Iff.trans ?_ (forall_prop_of_true started).symm
    rcases lt_trichotomy (realSpanDurationS container.span)
      (container.span.endAbs - container.span.startAbs) with shorter | same | longer
    · have before := pointAt_lt_of_shorter nonempty started shorter
      constructor
      · intro same
        have bound {other : LaidSpan} (isOther : other ∈ laid)
            (early : other.start < item.start) : other.reach ≤ max other.start _ :=
          out.reach_le_of_eq isContainer isItem pointStarted pointWithin before same
            isOther early
        have atEnd : container.span.pointAt item.start = container.reach :=
          le_antisymm pointWithin
            ((bound isContainer started).trans (max_le pointStarted le_rfl))
        refine Or.inr ⟨shorter, (pointAt_eq_reach_iff nonempty).mp atEnd,
          out.forall_spans.mpr fun other isOther early positive => ?_⟩
        have goesOn : other.start < other.reach := lt_add_of_pos_right _ positive
        rw [← show container.reach = container.span.reach from rfl, ← atEnd]
        exact (le_max_iff.mp (bound isOther early)).resolve_left goesOn.not_ge
      · rintro (same | ⟨-, ended, covered⟩)
        · exact absurd same shorter.ne
        · have atEnd : container.span.pointAt item.start = container.reach :=
            (pointAt_eq_reach_iff nonempty).mpr ended
          have covered := out.forall_spans.mp covered
          have startLe := out.start_le_of_covered isContainer isItem started covered
          rw [← item.start_sub_shift,
            LaidSpan.endRealAbs_eq (out.ends container isContainer)] at startLe
          refine le_antisymm ?_ (atEnd.symm ▸ startLe)
          exact out.position_mono isContainer isItem pointStarted pointWithin le_rfl
            item.start_le_reach before.le
    · refine iff_of_true ?_ (Or.inl same)
      have isPoint : _ = item.start := pointAt_of_same nonempty same
      rw [isPoint] at pointWithin ⊢
      exact le_antisymm
        (out.position_mono isContainer isItem started.le pointWithin le_rfl
          item.start_le_reach le_rfl)
        (out.position_mono isItem isContainer le_rfl item.start_le_reach started.le
          pointWithin le_rfl)
    · have after := lt_pointAt_of_longer nonempty started longer
      refine iff_of_false (fun same => ?_) ?_
      · have moved := out.position_mono isItem isContainer le_rfl item.start_le_reach
          started.le (after.le.trans pointWithin) le_rfl
        linarith
      · rintro (same | ⟨shorter, -⟩)
        · exact longer.ne' same
        · exact longer.not_gt shorter

/-! ### Ends -/

/-- The end of a span is mapped into its real interval exactly when the first
span that contains it has come no further. -/
theorem LaidOut.map_end_le_iff (out : LaidOut spans laid)
    (ordered : ∀ item ∈ laid, item.span.startAbs ≤ item.span.endAbs)
    (isItem : item ∈ laid) (isFirst : laidAt item.span.endAbs laid = some container) :
    mapTimeToRealAbs item.span.endAbs laid ≤ item.endRealAbs ↔
      container.span.pointAt item.span.endAbs ≤ item.span.reach := by
  obtain ⟨-, contains⟩ := contains_of_laidAt isFirst
  rw [out.map_of_laidAt ordered isFirst, LaidSpan.endRealAbs_eq (out.ends item isItem)]
  exact out.le_iff_of_laidAt isFirst isItem ⟨ordered item isItem, le_rfl⟩
    (pointAt_le_reach contains) item.start_le_reach

/-! ### Instants of one span -/

theorem exists_laidAt (isItem : item ∈ laid) (contains : item.span.Contains timestampAbs) :
    ∃ first, laidAt timestampAbs laid = some first := by
  rw [← Option.isSome_iff_exists, laidAt, List.find?_isSome]
  exact ⟨item, isItem, decide_eq_true contains⟩

/-- The first span that contains an instant does so until it ends. -/
theorem LaidOut.laidAt_later (out : LaidOut spans laid) {later : ℚ}
    (isFirst : laidAt timestampAbs laid = some item) (le : timestampAbs ≤ later)
    (within : later ≤ item.span.endAbs) : laidAt later laid = some item := by
  obtain ⟨contains, before, after, rfl, outside⟩ := List.find?_eq_some_iff_append.mp isFirst
  have contains : item.span.Contains timestampAbs := of_decide_eq_true contains
  refine List.find?_eq_some_iff_append.mpr
    ⟨decide_eq_true ⟨contains.1.trans le, within⟩, before, after, rfl, fun other inBefore => ?_⟩
  have isOutside := outside other inBefore
  rw [Bool.not_eq_true', decide_eq_false_iff_not] at isOutside ⊢
  intro containsLater
  have started : other.start ≤ item.start :=
    (List.pairwise_append.mp out.sorted).2.2 other inBefore item List.mem_cons_self
  exact isOutside ⟨started.trans contains.1, le.trans containsLater.2⟩

/-- The first laid span that contains the instants right after this one. -/
def laidAfter (timestampAbs : ℚ) (laid : List LaidSpan) : Option LaidSpan :=
  laid.find? fun item =>
    item.span.startAbs ≤ timestampAbs ∧ timestampAbs < item.span.endAbs

theorem laidAfter_spec {next : LaidSpan}
    (isNext : laidAfter timestampAbs laid = some next) :
    next ∈ laid ∧ next.span.startAbs ≤ timestampAbs ∧ timestampAbs < next.span.endAbs := by
  rw [laidAfter] at isNext
  have spec := List.find?_some isNext
  exact ⟨List.mem_of_find?_eq_some isNext, of_decide_eq_true spec⟩

theorem LaidOut.laidAt_of_laidAfter (out : LaidOut spans laid) {next : LaidSpan} {later : ℚ}
    (isNext : laidAfter timestampAbs laid = some next) (lt : timestampAbs < later)
    (within : later ≤ next.span.endAbs) : laidAt later laid = some next := by
  obtain ⟨spec, before, after, rfl, outside⟩ := List.find?_eq_some_iff_append.mp isNext
  have spec := of_decide_eq_true spec
  refine List.find?_eq_some_iff_append.mpr
    ⟨decide_eq_true ⟨spec.1.trans lt.le, within⟩, before, after, rfl, fun other inBefore => ?_⟩
  have isOutside := outside other inBefore
  rw [Bool.not_eq_true', decide_eq_false_iff_not] at isOutside ⊢
  intro contains
  have started : other.start ≤ next.start :=
    (List.pairwise_append.mp out.sorted).2.2 other inBefore next List.mem_cons_self
  exact isOutside ⟨started.trans spec.1, lt.trans_le contains.2⟩

/-! ### Between the spans -/

/-- The spans that have started by an instant, and those that have not. -/
theorem LaidOut.exists_latest (out : LaidOut spans laid) (isItem : item ∈ laid)
    (started : item.start ≤ timestampAbs) :
    ∃ before latest rest, laid = before ++ latest :: rest ∧
      (∀ other ∈ before ++ [latest], other.start ≤ timestampAbs) ∧
        ∀ other ∈ rest, timestampAbs < other.start := by
  obtain ⟨front, rest, isSplit, early, late⟩ :=
    out.exists_split (· ≤ timestampAbs) fun _ _ => le_trans
  have inFront : item ∈ front := by
    rw [isSplit] at isItem
    exact (List.mem_append.mp isItem).resolve_right fun inRest => late item inRest started
  rcases List.eq_nil_or_concat front with rfl | ⟨before, latest, rfl⟩
  · cases inFront
  · rw [List.concat_eq_append] at isSplit early
    refine ⟨before, latest, rest, ?_, early, fun other inRest => not_le.mp (late other inRest)⟩
    rw [isSplit, List.append_assoc]
    rfl

end Laid

end AgentSchedBench.Gantt
