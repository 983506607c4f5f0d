import AgentSchedBench.Library.Placements
import AgentSchedBench.Library.StableSort
import Mathlib.Data.Prod.Lex
import Mathlib.Data.Rat.Floor
import Mathlib.Data.String.Basic

/-!
# The real timeline

The gaps between the spans are taken out, and a call of the model lasts as long
as it really took.  Markers and samples are mapped by the span that they are in,
the first one in the order of the starts.
-/

namespace AgentSchedBench.Gantt

open StableSort

/-! ## Spans -/

/-- The numbers of a call, as `_coerce_optional_float` reads them. -/
structure SpanDetail where
  llmCallTimeMs : Option ℚ
  openrouterGenerationTimeMs : Option ℚ
  llmLatencyMs : Option ℚ
  -- `none` when it is no string
  llmTimingSource : Option String
deriving DecidableEq

structure Span where
  type : String
  startAbs : ℚ
  endAbs : ℚ
  detail : SpanDetail
deriving DecidableEq

/-- The order of the spans. -/
def Span.key (span : Span) : ℚ ×ₗ ℚ ×ₗ String :=
  toLex (span.startAbs, toLex (span.endAbs, span.type))

def Span.wallDurationS (span : Span) : ℚ :=
  max 0 (span.endAbs - span.startAbs)

/-- A time that was reported, in milliseconds. -/
def reported (value : Option ℚ) : Option ℚ :=
  value.filter fun milliseconds => 0 ≤ milliseconds

/-- `_real_span_duration_s` -/
def realSpanDurationS (span : Span) : ℚ :=
  if span.type ≠ "llm" then span.wallDurationS
  else
    match reported span.detail.llmCallTimeMs with
    | some milliseconds => milliseconds / 1000
    | none =>
        match reported span.detail.openrouterGenerationTimeMs with
        | some milliseconds => milliseconds / 1000
        | none =>
            match reported span.detail.llmLatencyMs with
            | some milliseconds =>
                if span.detail.llmTimingSource.any (· ≠ "wall_clock_ms") then
                  milliseconds / 1000
                else span.wallDurationS
            | none => span.wallDurationS

/-! ## Taking gaps out -/

/-- A span with its place on the real timeline. -/
structure LaidSpan where
  span : Span
  startRealAbs : ℚ
  endRealAbs : ℚ
deriving DecidableEq

/-- What the loop over the sorted spans keeps. -/
structure LayoutState where
  removedGapS : ℚ
  prevRealEndAbs : Option ℚ

/-- The body of the loop: the place of the span. -/
def laySpan (state : LayoutState) (span : Span) : LaidSpan × LayoutState :=
  let natural := span.startAbs - state.removedGapS
  let removesGap := state.prevRealEndAbs.any fun previous => previous < natural
  let start := if removesGap then state.prevRealEndAbs.getD natural else natural
  let realEnd := start + realSpanDurationS span
  -- the previous end 0 counts as none
  let previous := (state.prevRealEndAbs.filter (· ≠ 0)).getD realEnd
  (⟨span, start, realEnd⟩,
    ⟨state.removedGapS + (natural - start), some (max previous realEnd)⟩)

def laySpans (state : LayoutState) : List Span → List LaidSpan
  | [] => []
  | span :: rest => (laySpan state span).1 :: laySpans (laySpan state span).2 rest

/-- The spans in their order, with their places. -/
def laidSpans (spans : List Span) : List LaidSpan :=
  laySpans ⟨0, none⟩ (sortBy Span.key spans)

/-! ## Mapping an instant -/

def Span.Contains (timestampAbs : ℚ) (span : Span) : Prop :=
  span.startAbs ≤ timestampAbs ∧ timestampAbs ≤ span.endAbs

instance (timestampAbs : ℚ) : DecidablePred (Span.Contains timestampAbs) :=
  fun _ => inferInstanceAs (Decidable (_ ∧ _))

/-- The instant of the span's real interval. -/
def LaidSpan.interpolate (timestampAbs : ℚ) (laid : LaidSpan) : ℚ :=
  let wallDurationS := laid.span.endAbs - laid.span.startAbs
  if wallDurationS ≤ 0 then laid.startRealAbs
  else
    laid.startRealAbs +
      (timestampAbs - laid.span.startAbs) / wallDurationS *
        (laid.endRealAbs - laid.startRealAbs)

/-- The loop over the spans. -/
def mapFrom (timestampAbs : ℚ) : List LaidSpan → ℚ
  | [] => timestampAbs
  | [last] =>
      if last.span.Contains timestampAbs then last.interpolate timestampAbs
      else timestampAbs - (last.span.endAbs - last.endRealAbs)
  | laid :: next :: rest =>
      if laid.span.Contains timestampAbs then laid.interpolate timestampAbs
      else if timestampAbs < next.span.startAbs then laid.endRealAbs
      else mapFrom timestampAbs (next :: rest)

/-- `_map_time_to_real_abs` -/
def mapTimeToRealAbs (timestampAbs : ℚ) : List LaidSpan → ℚ
  | [] => timestampAbs
  | first :: rest =>
      if timestampAbs ≤ first.span.startAbs then
        timestampAbs - (first.span.startAbs - first.startRealAbs)
      else mapFrom timestampAbs (first :: rest)

/-! ## The timeline -/

/-- A time of the real timeline, and the time since its origin. -/
structure RealTime where
  realAbs : ℚ
  real : ℚ
deriving DecidableEq

def minimum (first : ℚ) (rest : List ℚ) : ℚ := rest.foldl min first

/-- The origin, as `_apply_real_timeline` finds it. -/
def realOrigin (laid : List LaidSpan) (markers : List ℚ) (traceT0 : ℚ) : ℚ :=
  match laid with
  | first :: rest => minimum first.startRealAbs (rest.map LaidSpan.startRealAbs)
  | [] => minimum traceT0 markers

/-- What the timeline gives to the spans and to the markers. -/
structure RealTimeline where
  spans : List (LaidSpan × RealTime × RealTime)
  markers : List RealTime
deriving DecidableEq

/-- `_apply_real_timeline`, with the instants of the markers -/
def applyRealTimeline (spans : List Span) (markers : List ℚ) (traceT0 : ℚ) :
    RealTimeline :=
  let laid := laidSpans spans
  let mapped := markers.map fun marker => mapTimeToRealAbs marker laid
  let origin := realOrigin laid mapped traceT0
  let since := fun realAbs => (⟨realAbs, realAbs - origin⟩ : RealTime)
  { spans :=
      laid.map fun span => (span, since span.startRealAbs, since span.endRealAbs)
    markers := mapped.map since }

/-- `_apply_real_timeline_to_resources`, for the instants of the samples; without
spans the samples keep their times. -/
def applyRealTimelineToResources (samples : List ℚ) (spans : List Span) :
    Option (List RealTime) :=
  match laidSpans spans with
  | [] => none
  | first :: rest =>
      let origin := minimum first.startRealAbs (rest.map LaidSpan.startRealAbs)
      some
        (samples.map fun sample =>
          let realAbs := mapTimeToRealAbs sample (first :: rest)
          ⟨realAbs, realAbs - origin⟩)

/-! ## Durations -/

/-- Where the span would end without gaps taken out. -/
def Span.reach (span : Span) : ℚ := span.startAbs + realSpanDurationS span

theorem wallDurationS_nonneg (span : Span) : 0 ≤ span.wallDurationS :=
  le_max_left 0 _

theorem wallDurationS_of_ordered {span : Span}
    (ordered : span.startAbs ≤ span.endAbs) :
    span.wallDurationS = span.endAbs - span.startAbs :=
  max_eq_right (sub_nonneg.mpr ordered)

theorem reported_nonneg {value : Option ℚ} {milliseconds : ℚ}
    (isReported : reported value = some milliseconds) : 0 ≤ milliseconds / 1000 := by
  rw [reported, Option.filter_eq_some_iff] at isReported
  exact div_nonneg (of_decide_eq_true isReported.2) (by norm_num)

theorem realSpanDurationS_nonneg (span : Span) : 0 ≤ realSpanDurationS span := by
  have wall := wallDurationS_nonneg span
  rw [realSpanDurationS]
  split
  · exact wall
  · split
    · next isReported => exact reported_nonneg isReported
    · split
      · next isReported => exact reported_nonneg isReported
      · split
        · next isReported =>
            split
            · exact reported_nonneg isReported
            · exact wall
        · exact wall

theorem startAbs_le_reach (span : Span) : span.startAbs ≤ span.reach :=
  le_add_of_nonneg_right (realSpanDurationS_nonneg span)

/-! ## The layout -/

namespace LaidSpan

def start (laid : LaidSpan) : ℚ := laid.span.startAbs

def reach (laid : LaidSpan) : ℚ := laid.span.reach

/-- What has been taken out before the span. -/
def shift (laid : LaidSpan) : ℚ := laid.span.startAbs - laid.startRealAbs

/-- The span comes after the other one, on the real timeline too. -/
abbrev Follows : LaidSpan → LaidSpan → Prop := Placements.Follows start reach shift

theorem start_sub_shift (laid : LaidSpan) : laid.start - laid.shift = laid.startRealAbs :=
  sub_sub_cancel _ _

end LaidSpan

/-- A run of the loop: all spans that are done, the last of them, the largest
real end and where the spans reach. -/
structure LaidUpTo (done : List LaidSpan) (last : LaidSpan) (state : LayoutState)
    (position reach : ℚ) : Prop where
  follow : done.Pairwise LaidSpan.Follows
  previous : state.prevRealEndAbs = some position
  reach_eq : reach = position + state.removedGapS
  ends : ∀ laid ∈ done,
    laid.endRealAbs = laid.startRealAbs + realSpanDurationS laid.span
  le_position : ∀ laid ∈ done, laid.endRealAbs ≤ position
  position_mem : ∃ laid ∈ done, laid.endRealAbs = position
  last_mem : last ∈ done
  last_shift : last.shift = state.removedGapS
  le_last : ∀ laid ∈ done, laid.start ≤ last.start
  placed : ∀ laid ∈ done, laid.shift = state.removedGapS ∨
    laid.reach < last.start ∧ laid.endRealAbs ≤ last.startRealAbs
  supported : ∀ before laid after, done = before ++ laid :: after → before ≠ [] →
    ∃ earlier ∈ before, laid.startRealAbs ≤ earlier.endRealAbs

section Layout

variable {done : List LaidSpan} {last : LaidSpan} {state : LayoutState}
  {position reach : ℚ} {span : Span}

/-- The largest real end is kept, unless it is 0 and the new end is less. -/
theorem max_previous {realEnd : ℚ} (noReset : position = 0 → 0 ≤ realEnd) :
    max (((some position).filter (· ≠ 0)).getD realEnd) realEnd =
      max position realEnd := by
  by_cases isZero : position = 0
  · rw [isZero, max_eq_right (noReset isZero)]
    exact max_self realEnd
  · rw [Option.filter_some, if_pos (decide_eq_true isZero)]
    rfl

/-- A span that starts within reach keeps its distance to the earlier ones. -/
theorem laySpan_of_touching (previous : state.prevRealEndAbs = some position)
    (reach_eq : reach = position + state.removedGapS)
    (touching : span.startAbs ≤ reach) (noReset : position = 0 → reach ≤ span.reach) :
    laySpan state span =
      (⟨span, span.startAbs - state.removedGapS,
          span.startAbs - state.removedGapS + realSpanDurationS span⟩,
        ⟨state.removedGapS, some (max position
          (span.startAbs - state.removedGapS + realSpanDurationS span))⟩) := by
  have noGap : ((some position).any fun previous =>
      decide (previous < span.startAbs - state.removedGapS)) = false := by
    rw [Option.any_some, decide_eq_false_iff_not, not_lt]
    linarith
  have kept : max (((some position).filter (· ≠ 0)).getD
      (span.startAbs - state.removedGapS + realSpanDurationS span)) _ = _ :=
    max_previous (by
      intro isZero
      have reaches := noReset isZero
      rw [Span.reach] at reaches
      linarith)
  rw [laySpan, previous, noGap]
  rw [if_neg Bool.false_ne_true, kept, sub_self, add_zero]

/-- A span that starts out of reach is moved to the largest real end. -/
theorem laySpan_of_apart (previous : state.prevRealEndAbs = some position)
    (reach_eq : reach = position + state.removedGapS)
    (apart : reach < span.startAbs) :
    laySpan state span =
      (⟨span, position, position + realSpanDurationS span⟩,
        ⟨span.startAbs - position, some (position + realSpanDurationS span)⟩) := by
  have duration := realSpanDurationS_nonneg span
  have gap : ((some position).any fun previous =>
      decide (previous < span.startAbs - state.removedGapS)) = true := by
    rw [Option.any_some, decide_eq_true_eq]
    linarith
  have kept : max (((some position).filter (· ≠ 0)).getD
      (position + realSpanDurationS span)) _ = _ :=
    max_previous (by
      intro isZero
      linarith)
  rw [max_eq_right (le_add_of_nonneg_right duration)] at kept
  rw [laySpan, previous, gap]
  rw [if_pos rfl, Option.getD_some, kept]
  congr 2
  ring

theorem LaidUpTo.concat {next : LaidSpan} {after : LayoutState} {nextReach : ℚ}
    (upTo : LaidUpTo done last state position reach)
    (follows : ∀ laid ∈ done, laid.Follows next)
    (ends : next.endRealAbs = next.startRealAbs + realSpanDurationS next.span)
    (previous : after.prevRealEndAbs = some (max position next.endRealAbs))
    (reach_eq : nextReach = max position next.endRealAbs + after.removedGapS)
    (shift : next.shift = after.removedGapS)
    (placed : ∀ laid ∈ done, laid.shift = after.removedGapS ∨
      laid.reach < next.start ∧ laid.endRealAbs ≤ next.startRealAbs)
    (supported : next.startRealAbs ≤ position) :
    LaidUpTo (done ++ [next]) next after (max position next.endRealAbs) nextReach where
  follow := by
    rw [List.pairwise_append]
    refine ⟨upTo.follow, List.pairwise_singleton _ _, fun laid isDone other isNext => ?_⟩
    rw [List.mem_singleton.mp isNext]
    exact follows laid isDone
  previous := previous
  reach_eq := reach_eq
  ends := by
    rw [List.forall_mem_append, List.forall_mem_singleton]
    exact ⟨upTo.ends, ends⟩
  le_position := by
    rw [List.forall_mem_append, List.forall_mem_singleton]
    exact ⟨fun laid isDone => (upTo.le_position laid isDone).trans (le_max_left _ _),
      le_max_right _ _⟩
  position_mem := by
    rcases max_choice position next.endRealAbs with isOld | isNew
    · obtain ⟨laid, isDone, isEnd⟩ := upTo.position_mem
      exact ⟨laid, List.mem_append_left _ isDone, isEnd.trans isOld.symm⟩
    · exact ⟨next, List.mem_append_right _ List.mem_cons_self, isNew.symm⟩
  last_mem := List.mem_append_right _ List.mem_cons_self
  last_shift := shift
  le_last := by
    rw [List.forall_mem_append, List.forall_mem_singleton]
    exact ⟨fun laid isDone => (follows laid isDone).start_le, le_rfl⟩
  placed := by
    rw [List.forall_mem_append, List.forall_mem_singleton]
    exact ⟨placed, Or.inl shift⟩
  supported := by
    intro before laid rest isSplit nonempty
    rcases List.eq_nil_or_concat rest with rfl | ⟨front, final, rfl⟩
    · obtain ⟨rfl, isNext⟩ := List.append_inj' isSplit rfl
      obtain ⟨earlier, isDone, isEnd⟩ := upTo.position_mem
      rw [← (List.cons.inj isNext).1]
      exact ⟨earlier, isDone, supported.trans isEnd.ge⟩
    · rw [List.concat_eq_append, ← List.cons_append, ← List.append_assoc] at isSplit
      obtain ⟨isDone, -⟩ := List.append_inj' isSplit rfl
      exact upTo.supported before laid front isDone nonempty

theorem LaidUpTo.reach_sub_shift (upTo : LaidUpTo done last state position reach)
    {laid : LaidSpan} (isDone : laid ∈ done) :
    laid.reach - laid.shift = laid.endRealAbs := by
  rw [upTo.ends laid isDone, LaidSpan.reach, Span.reach, LaidSpan.shift]
  ring

theorem LaidUpTo.le_reach (upTo : LaidUpTo done last state position reach)
    {laid : LaidSpan} (isDone : laid ∈ done) : laid.reach ≤ reach := by
  have within {other : LaidSpan} (otherDone : other ∈ done)
      (shift : other.shift = state.removedGapS) : other.reach ≤ reach := by
    have isEnd := upTo.reach_sub_shift otherDone
    have isPosition := upTo.le_position other otherDone
    rw [upTo.reach_eq]
    linarith
  rcases upTo.placed laid isDone with shift | ⟨before, -⟩
  · exact within isDone shift
  · exact before.le.trans ((startAbs_le_reach last.span).trans
      (within upTo.last_mem upTo.last_shift))

/-- The span is laid after those that are done. -/
theorem LaidUpTo.step (upTo : LaidUpTo done last state position reach)
    (sorted : last.start ≤ span.startAbs) (noReset : position = 0 → reach ≤ span.reach) :
    LaidUpTo (done ++ [(laySpan state span).1]) (laySpan state span).1
      (laySpan state span).2
      (position + max 0 (span.reach - max reach span.startAbs))
      (max reach span.reach) := by
  have duration := realSpanDurationS_nonneg span
  have isReach : span.reach = span.startAbs + realSpanDurationS span := rfl
  have reach_eq := upTo.reach_eq
  have lastShift := upTo.last_shift
  have lastReal := last.start_sub_shift
  rcases le_or_gt span.startAbs reach with touching | apart
  · have isPosition : position + max 0 (span.reach - max reach span.startAbs) =
        max position (span.startAbs - state.removedGapS + realSpanDurationS span) := by
      rw [max_eq_left touching, ← max_add_add_left, add_zero]
      congr 1
      linarith
    have placed (laid : LaidSpan) (isDone : laid ∈ done) :
        laid.shift = state.removedGapS ∨ laid.reach < span.startAbs ∧
          laid.endRealAbs ≤ span.startAbs - state.removedGapS := by
      refine (upTo.placed laid isDone).imp_right fun before => ⟨?_, ?_⟩
      · exact before.1.trans_le sorted
      · exact before.2.trans (by linarith)
    rw [laySpan_of_touching upTo.previous reach_eq touching noReset, isPosition]
    refine upTo.concat (fun laid isDone => ?_) rfl rfl ?_ (sub_sub_cancel _ _) placed ?_
    · refine ⟨(upTo.le_last laid isDone).trans sorted, fun within => ?_, fun before => ?_⟩
      · rcases placed laid isDone with shift | ⟨before, -⟩
        · exact (sub_sub_cancel _ _).trans shift.symm
        · exact absurd within before.not_ge
      · rw [upTo.reach_sub_shift isDone, LaidSpan.start_sub_shift]
        rcases placed laid isDone with shift | ⟨-, ended⟩
        · have isEnd := upTo.reach_sub_shift isDone
          rw [shift] at isEnd
          have started : laid.reach < span.startAbs := before
          dsimp only
          linarith
        · exact ended
    · dsimp only
      rw [← max_add_add_right, reach_eq, isReach]
      congr 1
      ring
    · dsimp only
      linarith
  · have isPosition : position + max 0 (span.reach - max reach span.startAbs) =
        max position (position + realSpanDurationS span) := by
      rw [max_eq_right apart.le, isReach, add_sub_cancel_left, max_eq_right duration,
        max_eq_right (le_add_of_nonneg_right duration)]
    have before (laid : LaidSpan) (isDone : laid ∈ done) : laid.reach < span.startAbs :=
      (upTo.le_reach isDone).trans_lt apart
    rw [laySpan_of_apart upTo.previous reach_eq apart, isPosition]
    refine upTo.concat (fun laid isDone => ?_) rfl ?_ ?_ rfl (fun laid isDone => ?_) le_rfl
    · refine ⟨(upTo.le_last laid isDone).trans sorted,
        fun within => absurd within (before laid isDone).not_ge, fun _ => ?_⟩
      rw [upTo.reach_sub_shift isDone, LaidSpan.start_sub_shift]
      exact upTo.le_position laid isDone
    · dsimp only
      rw [max_eq_right (le_add_of_nonneg_right duration)]
    · dsimp only
      rw [max_eq_right (le_add_of_nonneg_right duration), isReach, max_eq_right]
      · ring
      · linarith
    · exact Or.inr ⟨before laid isDone, upTo.le_position laid isDone⟩

end Layout

/-! ### The whole layout -/

/-- The largest real end is not 0 where a span ends before an earlier one.  The
position is where the real durations come to when gaps are taken out. -/
def NeverReset (position reach : ℚ) : List Span → Prop
  | [] => True
  | span :: rest =>
      (position = 0 → reach ≤ span.reach) ∧
        NeverReset (position + max 0 (span.reach - max reach span.startAbs))
          (max reach span.reach) rest

/-- The same of sorted spans, from the first one on. -/
def KeepsLargestEnd : List Span → Prop
  | [] => True
  | first :: rest => NeverReset first.reach first.reach rest

/-- What holds of spans that are laid out. -/
structure LaidOut (spans : List Span) (laid : List LaidSpan) : Prop where
  map_span : laid.map LaidSpan.span = spans
  follow : laid.Pairwise LaidSpan.Follows
  ends : ∀ item ∈ laid, item.endRealAbs = item.startRealAbs + realSpanDurationS item.span
  supported : ∀ before item after, laid = before ++ item :: after → before ≠ [] →
    ∃ earlier ∈ before, item.startRealAbs ≤ earlier.endRealAbs
  first : ∀ item rest, laid = item :: rest → item.startRealAbs = item.start

theorem laySpan_span (state : LayoutState) (span : Span) :
    (laySpan state span).1.span = span := rfl

theorem laySpans_map_span (state : LayoutState) (spans : List Span) :
    (laySpans state spans).map LaidSpan.span = spans := by
  induction spans generalizing state with
  | nil => rfl
  | cons span rest induction =>
      rw [laySpans, List.map_cons, induction, laySpan_span]

theorem LaidUpTo.run {done : List LaidSpan} {last : LaidSpan} {state : LayoutState}
    {position reach : ℚ} {spans : List Span}
    (upTo : LaidUpTo done last state position reach)
    (sorted : spans.Pairwise fun left right => left.startAbs ≤ right.startAbs)
    (later : ∀ span ∈ spans, last.start ≤ span.startAbs)
    (noReset : NeverReset position reach spans) :
    ∃ final after finalPosition finalReach,
      LaidUpTo (done ++ laySpans state spans) final after finalPosition finalReach := by
  induction spans generalizing done last state position reach with
  | nil =>
      rw [laySpans, List.append_nil]
      exact ⟨last, state, position, reach, upTo⟩
  | cons span rest induction =>
      obtain ⟨here, restNoReset⟩ := noReset
      obtain ⟨inOrder, restSorted⟩ := List.pairwise_cons.mp sorted
      have next := upTo.step (later span List.mem_cons_self) here
      have run := induction next restSorted inOrder restNoReset
      rw [List.append_assoc] at run
      exact run

/-- The first span keeps its start. -/
theorem laySpan_first (first : Span) :
    laySpan ⟨0, none⟩ first =
      (⟨first, first.startAbs, first.reach⟩, ⟨0, some first.reach⟩) := by
  rw [laySpan, Option.any_none, Option.filter_none, Option.getD_none, sub_zero]
  dsimp only
  rw [if_neg Bool.false_ne_true, Option.getD_none, max_self, sub_self, add_zero]
  rfl

theorem laidUpTo_first (first : Span) :
    LaidUpTo [(laySpan ⟨0, none⟩ first).1] (laySpan ⟨0, none⟩ first).1
      (laySpan ⟨0, none⟩ first).2 first.reach first.reach := by
  rw [laySpan_first]
  refine
    { follow := List.pairwise_singleton _ _
      previous := rfl
      reach_eq := (add_zero _).symm
      ends := List.forall_mem_singleton.mpr rfl
      le_position := List.forall_mem_singleton.mpr le_rfl
      position_mem := ⟨_, List.mem_cons_self, rfl⟩
      last_mem := List.mem_cons_self
      last_shift := sub_self _
      le_last := List.forall_mem_singleton.mpr le_rfl
      placed := List.forall_mem_singleton.mpr (Or.inl (sub_self _))
      supported := fun before laid after isSplit nonempty => ?_ }
  obtain ⟨isNil, -⟩ := List.append_eq_singleton_iff.mp isSplit.symm |>.resolve_right
    fun other => nomatch other.2
  exact absurd isNil nonempty

theorem key_le {left right : Span} (le : left.key ≤ right.key) :
    left.startAbs ≤ right.startAbs := by
  rw [Span.key, Span.key, Prod.Lex.toLex_le_toLex] at le
  rcases le with lt | ⟨same, -⟩
  · exact lt.le
  · exact same.le

/-- Sorted spans are laid out, where the largest real end is kept. -/
theorem laidSpans_laidOut {spans : List Span}
    (noReset : KeepsLargestEnd (sortBy Span.key spans)) :
    LaidOut (sortBy Span.key spans) (laidSpans spans) := by
  have sorted : (sortBy Span.key spans).Pairwise fun left right =>
      left.startAbs ≤ right.startAbs :=
    (sortBy_sorted Span.key spans).imp key_le
  rw [laidSpans]
  cases isSorted : sortBy Span.key spans with
  | nil =>
      refine ⟨rfl, List.Pairwise.nil, List.forall_mem_nil _, ?_, nofun⟩
      intro before item after isSplit
      cases List.append_eq_nil_iff.mp isSplit.symm |>.2
  | cons first rest =>
      rw [isSorted] at sorted noReset
      obtain ⟨later, restSorted⟩ := List.pairwise_cons.mp sorted
      obtain ⟨final, after, position, reach, upTo⟩ :=
        (laidUpTo_first first).run restSorted later noReset
      refine ⟨laySpans_map_span _ _, upTo.follow, upTo.ends, upTo.supported, ?_⟩
      rintro item rest ⟨⟩
      rw [laySpan_first]
      rfl

end AgentSchedBench.Gantt
