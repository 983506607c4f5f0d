import AgentSchedBench.Library.Gaps
import AgentSchedBench.Library.Rounding
import AgentSchedBench.Library.StableSort
import Mathlib.Data.Rat.Floor
import Mathlib.Data.String.Basic

/-!
# Spans and markers

The actions of a lane become spans, and the events of some categories become
markers.  Where such events lie between a span and the next one to start, a
scheduling span is added.  It is a gap of the lane only if no earlier span ends
later than the one before it.
-/

namespace AgentSchedBench.Gantt

open StableSort Gaps

/-! ## Actions and events -/

def actionTypeMap : List (String × String) :=
  [("llm_call", "llm"), ("tool_exec", "tool"), ("mcp_call", "mcp")]

def markerCategories : List String := ["SCHEDULING", "SESSION", "CONTEXT", "MCP"]

/-- The fields of an action that its span is built from. -/
structure Action where
  actionType : Option String
  tsStart : Option ℚ
  tsEnd : Option ℚ
  iteration : Option ℤ
deriving DecidableEq

structure Event where
  category : Option String
  event : Option String
  ts : Option ℚ
  iteration : Option ℤ
deriving DecidableEq

/-- `e.get("category") in _MARKER_CATEGORIES` -/
def Event.isMarker (event : Event) : Bool :=
  event.category.any (markerCategories.contains ·)

def Event.time (event : Event) : ℚ := event.ts.getD 0

/-! ## Built spans -/

structure SchedulingDetail where
  gapMs : ℚ
  events : List String
deriving DecidableEq

/-- A span of the payload; the detail of an action is left out. -/
structure BuiltSpan where
  type : String
  start : ℚ
  «end» : ℚ
  startAbs : ℚ
  endAbs : ℚ
  startReal : ℚ
  endReal : ℚ
  startRealAbs : ℚ
  endRealAbs : ℚ
  iteration : ℤ
  detail : Option SchedulingDetail
deriving DecidableEq

/-- A span whose real times are still those of the wall clock. -/
def builtSpan (t0 : ℚ) (type : String) (startAbs endAbs : ℚ) (iteration : ℤ)
    (detail : Option SchedulingDetail) : BuiltSpan where
  type := type
  start := startAbs - t0
  «end» := endAbs - t0
  startAbs := startAbs
  endAbs := endAbs
  startReal := startAbs - t0
  endReal := endAbs - t0
  startRealAbs := startAbs
  endRealAbs := endAbs
  iteration := iteration
  detail := detail

def actionSpan (t0 : ℚ) (action : Action) : Option BuiltSpan :=
  (action.actionType.bind fun name => actionTypeMap.lookup name).map
    fun type =>
      builtSpan t0 type (action.tsStart.getD 0) (action.tsEnd.getD 0)
        (action.iteration.getD 0) none

def actionSpans (t0 : ℚ) (actions : List Action) : List BuiltSpan :=
  actions.filterMap (actionSpan t0)

def eventsInGap (events : List Event) (gapStart gapEnd : ℚ) : List Event :=
  events.filter fun event =>
    event.isMarker && decide (gapStart < event.time ∧ event.time < gapEnd)

/-- The body of the loop over neighbours in the order of the starts. -/
def gapSpan (t0 : ℚ) (events : List Event) (pair : BuiltSpan × BuiltSpan) :
    Option BuiltSpan :=
  let gapStart := pair.1.endAbs
  let gapEnd := pair.2.startAbs
  let inGap := eventsInGap events gapStart gapEnd
  if gapEnd ≤ gapStart ∨ inGap = [] then none
  else
    some (builtSpan t0 "scheduling" gapStart gapEnd pair.2.iteration
      (some {
        gapMs := Rounding.roundTo 1 ((gapEnd - gapStart) * 1000)
        events := inGap.map fun event => event.event.getD "?" }))

def sortedSpans (spans : List BuiltSpan) : List BuiltSpan :=
  sortBy BuiltSpan.startAbs spans

def schedulingSpans (t0 : ℚ) (spans : List BuiltSpan) (events : List Event) :
    List BuiltSpan :=
  if spans ≠ [] ∧ events ≠ [] then
    (neighbours (sortedSpans spans)).filterMap (gapSpan t0 events)
  else []

/-! ## Markers -/

/-- A marker of the payload; the detail of its event is left out. -/
structure BuiltMarker where
  type : String
  event : String
  t : ℚ
  tAbs : ℚ
  tReal : ℚ
  tRealAbs : ℚ
  iteration : ℤ
deriving DecidableEq

def marker (t0 : ℚ) (event : Event) : BuiltMarker where
  type := (event.category.getD "").toLower
  event := event.event.getD "unknown"
  t := event.time - t0
  tAbs := event.time
  tReal := event.time - t0
  tRealAbs := event.time
  iteration := event.iteration.getD 0

/-- `_build_spans_and_markers` -/
def buildSpansAndMarkers (actions : List Action) (events : List Event) (t0 : ℚ) :
    List BuiltSpan × List BuiltMarker :=
  let spans := actionSpans t0 actions
  (sortBy BuiltSpan.start (spans ++ schedulingSpans t0 spans events),
    sortBy BuiltMarker.t ((events.filter Event.isMarker).map (marker t0)))

/-! ## Gaps -/

def BuiltSpan.isScheduling (span : BuiltSpan) : Bool := span.type == "scheduling"

/-- An instant within the span that is no end of it. -/
def BuiltSpan.Inside (point : ℚ) (span : BuiltSpan) : Prop :=
  span.startAbs < point ∧ point < span.endAbs

/-- The scheduling spans are the gaps of the lane in which something happens. -/
structure RealGaps (spans : List BuiltSpan) (events : List Event) : Prop where
  disjoint : (spans.filter BuiltSpan.isScheduling).Pairwise fun first second =>
    ∀ point, ¬ (first.Inside point ∧ second.Inside point)
  outside : ∀ gap ∈ spans.filter BuiltSpan.isScheduling, ∀ point,
    gap.Inside point →
      ¬ Covered BuiltSpan.startAbs BuiltSpan.endAbs
        (spans.filter (!·.isScheduling)) point
  complete : ∀ gapStart gapEnd,
    IsGap BuiltSpan.startAbs BuiltSpan.endAbs (spans.filter (!·.isScheduling))
        gapStart gapEnd →
      (∃ event ∈ events, event.isMarker = true ∧ gapStart < event.time ∧
        event.time < gapEnd) →
          ∃ gap ∈ spans.filter BuiltSpan.isScheduling,
            gap.startAbs = gapStart ∧ gap.endAbs = gapEnd

/-- Where a marker lies between a span and the next one to start, no span that
starts earlier ends later than the first of the two. -/
def LatestEndsLast (t0 : ℚ) (actions : List Action) (events : List Event) : Prop :=
  ∀ front before next rest,
    sortedSpans (actionSpans t0 actions) = front ++ before :: next :: rest →
      (∃ event ∈ events, event.isMarker = true ∧ before.endAbs < event.time ∧
        event.time < next.startAbs) →
          ∀ earlier ∈ front, earlier.endAbs ≤ before.endAbs

theorem actionSpan_type {t0 : ℚ} {action : Action} {span : BuiltSpan}
    (isSpan : actionSpan t0 action = some span) :
    span.isScheduling = false ∧ span.startAbs = action.tsStart.getD 0 ∧
      span.endAbs = action.tsEnd.getD 0 := by
  obtain ⟨type, isType, rfl⟩ := Option.map_eq_some_iff.mp isSpan
  obtain ⟨name, -, isType⟩ := Option.bind_eq_some_iff.mp isType
  refine ⟨?_, rfl, rfl⟩
  have noScheduling : ∀ pair ∈ actionTypeMap, (pair.2 == "scheduling") = false := by
    decide
  obtain ⟨front, back, isMap, -⟩ := List.lookup_eq_some_iff.mp isType
  exact noScheduling (name, type) (isMap ▸ by simp)

theorem gapSpan_eq_some {t0 : ℚ} {events : List Event}
    {pair : BuiltSpan × BuiltSpan} {gap : BuiltSpan} :
    gapSpan t0 events pair = some gap →
      gap.isScheduling = true ∧ gap.startAbs = pair.1.endAbs ∧
        gap.endAbs = pair.2.startAbs ∧
          ∃ event ∈ events, event.isMarker = true ∧
            pair.1.endAbs < event.time ∧ event.time < pair.2.startAbs := by
  rw [gapSpan]
  intro isGap
  split at isGap
  · cases isGap
  · next within =>
      cases isGap
      rw [not_or] at within
      obtain ⟨event, member⟩ := List.exists_mem_of_ne_nil _ within.2
      rw [eventsInGap, List.mem_filter, Bool.and_eq_true,
        decide_eq_true_iff] at member
      exact ⟨rfl, rfl, rfl, event, member.1, member.2⟩

/-- Where an event lies between, there is a scheduling span. -/
theorem gapSpan_isSome (t0 : ℚ) {events : List Event}
    (pair : BuiltSpan × BuiltSpan) {event : Event} (member : event ∈ events)
    (isMarker : event.isMarker = true) (above : pair.1.endAbs < event.time)
    (below : event.time < pair.2.startAbs) :
    ∃ gap, gapSpan t0 events pair = some gap := by
  have inGap : event ∈ eventsInGap events pair.1.endAbs pair.2.startAbs := by
    rw [eventsInGap, List.mem_filter, isMarker, Bool.true_and,
      decide_eq_true_iff]
    exact ⟨member, above, below⟩
  rw [gapSpan, if_neg]
  · exact ⟨_, rfl⟩
  · rw [not_or]
    exact ⟨not_le.mpr (above.trans below), List.ne_nil_of_mem inGap⟩

theorem mem_schedulingSpans {t0 : ℚ} {spans : List BuiltSpan}
    {events : List Event} {gap : BuiltSpan} :
    gap ∈ schedulingSpans t0 spans events ↔
      ∃ pair ∈ neighbours (sortedSpans spans),
        gapSpan t0 events pair = some gap := by
  rw [schedulingSpans]
  split
  · exact List.mem_filterMap
  · next empty =>
      refine iff_of_false (List.not_mem_nil) ?_
      rintro ⟨pair, isPair, isGap⟩
      refine empty ⟨?_, ?_⟩
      · rintro rfl
        cases isPair
      · obtain ⟨-, -, -, event, member, -⟩ := gapSpan_eq_some isGap
        exact List.ne_nil_of_mem member

section

variable {t0 : ℚ} {actions : List Action} {events : List Event}

/-- The spans that are returned are those of the actions and of the gaps. -/
theorem filter_built (spans : List BuiltSpan)
    (isSpans : spans = (buildSpansAndMarkers actions events t0).1) :
    (spans.filter BuiltSpan.isScheduling).Perm
        (schedulingSpans t0 (actionSpans t0 actions) events) ∧
      (spans.filter (!·.isScheduling)).Perm
        (sortedSpans (actionSpans t0 actions)) := by
  have allActions : ∀ span ∈ actionSpans t0 actions,
      span.isScheduling = false := by
    intro span member
    obtain ⟨action, -, isSpan⟩ := List.mem_filterMap.mp member
    exact (actionSpan_type isSpan).1
  have allGaps : ∀ span ∈ schedulingSpans t0 (actionSpans t0 actions) events,
      span.isScheduling = true := by
    intro span member
    obtain ⟨pair, -, isGap⟩ := mem_schedulingSpans.mp member
    exact (gapSpan_eq_some isGap).1
  have sorted := sortBy_perm BuiltSpan.start (actionSpans t0 actions ++
    schedulingSpans t0 (actionSpans t0 actions) events)
  rw [isSpans]
  constructor
  · refine (sorted.filter _).trans ?_
    rw [List.filter_append, List.filter_eq_self.mpr allGaps,
      List.filter_eq_nil_iff.mpr fun span member => by
        simp [allActions span member], List.nil_append]
  · refine (sorted.filter _).trans ?_
    rw [List.filter_append, List.filter_eq_self.mpr fun span member => by
        simp [allActions span member],
      List.filter_eq_nil_iff.mpr fun span member => by
        simp [allGaps span member], List.append_nil]
    exact (sortBy_perm _ _).symm

theorem covered_perm {spans others : List BuiltSpan} (same : spans.Perm others) :
    Covered BuiltSpan.startAbs BuiltSpan.endAbs spans =
      Covered BuiltSpan.startAbs BuiltSpan.endAbs others := by
  funext point
  simp only [Covered, same.mem_iff]

theorem isGap_perm {spans others : List BuiltSpan} (same : spans.Perm others)
    {first last : ℚ}
    (isGap : IsGap BuiltSpan.startAbs BuiltSpan.endAbs spans first last) :
    IsGap BuiltSpan.startAbs BuiltSpan.endAbs others first last := by
  obtain ⟨lt, firstCovered, lastCovered, open_⟩ := isGap
  rw [covered_perm same] at firstCovered lastCovered open_
  exact ⟨lt, firstCovered, lastCovered, open_⟩

theorem sortedSpans_ordered (t0 : ℚ)
    (ordered : ∀ action ∈ actions,
      action.tsStart.getD 0 ≤ action.tsEnd.getD 0) :
    Ordered BuiltSpan.startAbs BuiltSpan.endAbs
      (sortedSpans (actionSpans t0 actions)) := by
  refine ⟨sortBy_sorted _ _, fun span member => ?_⟩
  have isBuilt := (sortBy_perm _ _).mem_iff.mp member
  obtain ⟨action, isAction, isSpan⟩ := List.mem_filterMap.mp isBuilt
  obtain ⟨-, startAbs, endAbs⟩ := actionSpan_type isSpan
  rw [startAbs, endAbs]
  exact ordered action isAction

/-- One scheduling span ends before the next starts. -/
theorem schedulingSpans_apart (t0 : ℚ) (events : List Event)
    {spans : List BuiltSpan}
    (sorted : Ordered BuiltSpan.startAbs BuiltSpan.endAbs (sortedSpans spans)) :
    (schedulingSpans t0 spans events).Pairwise fun first second =>
      first.endAbs ≤ second.startAbs := by
  rw [schedulingSpans]
  split
  · refine (neighbours_apart sorted).filterMap _ ?_
    intro first second apart gap isGap later isLater
    obtain ⟨-, -, endAbs, -⟩ := gapSpan_eq_some isGap
    obtain ⟨-, startAbs, -⟩ := gapSpan_eq_some isLater
    rw [endAbs, startAbs]
    exact apart
  · exact .nil

/-- The scheduling spans are the gaps if and only if the span before such a gap
ends last of those that have started. -/
theorem realGaps_iff
    (ordered : ∀ action ∈ actions,
      action.tsStart.getD 0 ≤ action.tsEnd.getD 0) :
    RealGaps (buildSpansAndMarkers actions events t0).1 events ↔
      LatestEndsLast t0 actions events := by
  obtain ⟨areGaps, areActions⟩ := filter_built _
    (rfl : _ = (buildSpansAndMarkers actions events t0).1)
  have sorted := sortedSpans_ordered t0 ordered
  constructor
  · rintro ⟨-, outside, -⟩ front before next rest isSplit
      ⟨event, member, isMarker, above, below⟩
    obtain ⟨gap, isGap⟩ := gapSpan_isSome t0 (before, next) member
      isMarker above below
    have isScheduling : gap ∈ schedulingSpans t0 (actionSpans t0 actions) events :=
      mem_schedulingSpans.mpr ⟨(before, next),
        mem_neighbours.mpr ⟨front, rest, isSplit⟩, isGap⟩
    obtain ⟨-, startAbs, endAbs, -⟩ := gapSpan_eq_some isGap
    refine (sorted.not_covered_iff isSplit (above.trans below)).mp
      fun point afterStart beforeEnd => ?_
    have uncovered := outside gap (areGaps.mem_iff.mpr isScheduling) point
      ⟨startAbs ▸ afterStart, endAbs ▸ beforeEnd⟩
    rwa [covered_perm areActions] at uncovered
  · intro latest
    refine ⟨?_, ?_, ?_⟩
    · have apart := schedulingSpans_apart t0 events sorted
      refine (areGaps.pairwise_iff ?_).mpr (apart.imp ?_)
      · exact fun disjoint point both => disjoint point both.symm
      · rintro first second ends point ⟨inFirst, inSecond⟩
        exact absurd (inFirst.2.trans_le ends) (not_lt.mpr inSecond.1.le)
    · intro gap member point ⟨afterStart, beforeEnd⟩
      rw [areGaps.mem_iff, mem_schedulingSpans] at member
      obtain ⟨pair, isPair, isGap⟩ := member
      obtain ⟨front, rest, isSplit⟩ := mem_neighbours.mp isPair
      obtain ⟨-, startAbs, endAbs, event, isEvent, isMarker, above, below⟩ :=
        gapSpan_eq_some isGap
      rw [covered_perm areActions]
      exact (sorted.not_covered_iff isSplit (above.trans below)).mpr
        (latest front _ _ rest isSplit ⟨event, isEvent, isMarker, above, below⟩)
        point (startAbs ▸ afterStart) (endAbs ▸ beforeEnd)
    · rintro gapStart gapEnd isGap ⟨event, isEvent, isMarker, above, below⟩
      obtain ⟨front, before, next, rest, isSplit, rfl, ends, longest, isLongest,
        rfl⟩ := (isGap_perm areActions isGap).exists_neighbours sorted
      have between := ends.trans_lt above
      have latestEnds := latest front before next rest isSplit
        ⟨event, isEvent, isMarker, between, below⟩
      obtain ⟨gap, isSpan⟩ := gapSpan_isSome t0 (before, next) isEvent
        isMarker between below
      obtain ⟨-, startAbs, endAbs, -⟩ := gapSpan_eq_some isSpan
      refine ⟨gap, areGaps.mem_iff.mpr (mem_schedulingSpans.mpr
        ⟨(before, next), mem_neighbours.mpr ⟨front, rest, isSplit⟩, isSpan⟩), ?_,
        endAbs⟩
      rw [startAbs]
      refine le_antisymm ends ?_
      rcases List.mem_append.mp isLongest with member | member
      · exact latestEnds longest member
      · rw [List.mem_singleton.mp member]

end

def toolCall (tsStart tsEnd : ℚ) : Action :=
  ⟨some "tool_exec", some tsStart, some tsEnd, none⟩

def schedulingEvent (ts : ℚ) : Event := ⟨some "SCHEDULING", none, some ts, none⟩

/-- A call that lies within another is no end of the other one. -/
theorem nestedCall_not_realGaps :
    ¬ ∀ (actions : List Action) (events : List Event) (t0 : ℚ),
      (∀ action ∈ actions, action.tsStart.getD 0 ≤ action.tsEnd.getD 0) →
        RealGaps (buildSpansAndMarkers actions events t0).1 events := by
  intro always
  have real := always [toolCall 0 10, toolCall 1 2, toolCall 5 6]
    [schedulingEvent 3] 0 (by decide +kernel)
  refine absurd (real.outside
    (builtSpan 0 "scheduling" 2 5 0 (some ⟨3000, ["?"]⟩)) (by decide +kernel) 4
    ⟨by decide +kernel, by decide +kernel⟩) (not_not_intro ?_)
  exact ⟨builtSpan 0 "tool" 0 10 0 none, by decide +kernel, by decide +kernel,
    by decide +kernel⟩

/-- Calls that follow each other leave a gap. -/
theorem followingCalls_realGaps :
    RealGaps (buildSpansAndMarkers [toolCall 0 1, toolCall 3 4]
      [schedulingEvent 2] 0).1 [schedulingEvent 2] := by
  refine (realGaps_iff (by decide +kernel)).mpr ?_
  intro front before next rest isSplit _ earlier member
  have isSorted : sortedSpans (actionSpans 0 [toolCall 0 1, toolCall 3 4]) =
      [builtSpan 0 "tool" 0 1 0 none, builtSpan 0 "tool" 3 4 0 none] := by
    decide +kernel
  rw [isSorted] at isSplit
  have lengths := congrArg List.length isSplit
  have notNil := List.length_pos_of_mem member
  simp only [List.length_append, List.length_cons, List.length_nil] at lengths
  omega

end AgentSchedBench.Gantt
