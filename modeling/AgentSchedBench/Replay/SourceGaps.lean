import AgentSchedBench.Library.Uncovered
import Mathlib.Data.Rat.Cast.Order

/-!
# The gaps of a source

Between the actions of a source time has passed in which none of them ran.  The
replay sleeps through each of these gaps once, before the action that ends it:
a gap begins at the latest end of the actions before.
-/

namespace AgentSchedBench.Replay

open MeasureTheory Uncovered

/-! ## The loop over the actions -/

/-- The record of a checkpoint; an elapsed time that is no number is
missing. -/
structure CheckpointOverhead where
  overheadExcluded : Bool
  elapsedMs : Option ℚ

/-- What the loop reads of a source action. -/
structure TimedAction where
  tsStart : ℚ
  tsEnd : ℚ
  checkpointAfter : Option CheckpointOverhead
  checkpointAfterError : Option CheckpointOverhead

/-- `_source_action_excluded_overhead_s` -/
def TimedAction.excludedOverhead (action : TimedAction) : ℚ :=
  match action.checkpointAfter.or action.checkpointAfterError with
  | none => 0
  | some checkpoint =>
      if checkpoint.overheadExcluded then
        max 0 (checkpoint.elapsedMs.getD 0 / 1000)
      else 0

/-- `effective_action_source_end` -/
def TimedAction.effectiveEnd (action : TimedAction) : ℚ :=
  action.tsEnd + action.excludedOverhead

/-- `_sleep_and_measure`: how long is slept -/
def sleepAndMeasure (expected : ℚ) : Option ℚ :=
  if expected ≤ 0 then none else some expected

/-- `_sleep_source_gap` -/
def sleepSourceGap (previousSourceEnd : Option ℚ)
    (actionSourceStart replaySpeed : ℚ) : Option ℚ :=
  match previousSourceEnd with
  | none => none
  | some previous =>
      sleepAndMeasure (max 0 (actionSourceStart - previous) / replaySpeed)

/-- What the loop keeps of the gaps. -/
structure GapState where
  previousSourceEnd : Option ℚ
  sleeps : List ℚ

/-- An action is reached. -/
def GapState.reach (replaySpeed : ℚ) (state : GapState)
    (action : TimedAction) : GapState where
  previousSourceEnd :=
    some (max action.effectiveEnd
      (state.previousSourceEnd.getD action.effectiveEnd))
  sleeps :=
    state.sleeps ++
      (sleepSourceGap state.previousSourceEnd action.tsStart
        replaySpeed).toList

/-- The gaps before some actions. -/
def sourceGaps (replaySpeed : ℚ) (actions : List TimedAction) : GapState :=
  actions.foldl (GapState.reach replaySpeed) ⟨none, []⟩

/-! ## What the gaps are -/

/-- The part of the time from the first start to the last one in which no
action ran. -/
def idleTime (first : TimedAction) (rest : List TimedAction) : Set ℝ :=
  uncovered (fun action : TimedAction => (action.tsStart : ℝ))
    (fun action => (action.effectiveEnd : ℝ)) (first :: rest) first.tsStart
    (rest.getLastD first).tsStart

/-- Actions in the order of their starts, none of which ends before it. -/
structure InSourceOrder (actions : List TimedAction) : Prop where
  sorted : actions.Pairwise fun earlier later =>
    earlier.tsStart ≤ later.tsStart
  ends : ∀ action ∈ actions, action.tsStart ≤ action.tsEnd

theorem excludedOverhead_nonneg (action : TimedAction) :
    0 ≤ action.excludedOverhead := by
  rw [TimedAction.excludedOverhead]
  split
  · exact le_rfl
  · split
    · exact le_max_left _ _
    · exact le_rfl

theorem InSourceOrder.le_effectiveEnd {actions : List TimedAction}
    (inOrder : InSourceOrder actions) {action : TimedAction}
    (member : action ∈ actions) : action.tsStart ≤ action.effectiveEnd :=
  (inOrder.ends action member).trans
    (le_add_of_nonneg_right (excludedOverhead_nonneg action))

theorem sourceGaps_concat (replaySpeed : ℚ) (actions : List TimedAction)
    (action : TimedAction) :
    sourceGaps replaySpeed (actions ++ [action]) =
      (sourceGaps replaySpeed actions).reach replaySpeed action :=
  List.foldl_concat _ _ _ _

/-- The tracked end is the latest one. -/
theorem previousSourceEnd_sourceGaps (replaySpeed : ℚ) (first : TimedAction)
    (rest : List TimedAction) :
    ∃ latest,
      (sourceGaps replaySpeed (first :: rest)).previousSourceEnd =
          some latest ∧
        (∀ action ∈ first :: rest, action.effectiveEnd ≤ latest) ∧
        ∃ action ∈ first :: rest, action.effectiveEnd = latest := by
  induction rest using List.reverseRecOn with
  | nil =>
      refine ⟨first.effectiveEnd, congrArg some (max_self _), ?_,
        ⟨first, List.mem_cons_self, rfl⟩⟩
      rw [List.forall_mem_singleton]
  | append_singleton rest action induction =>
      obtain ⟨latest, isTracked, isUpper, longest, member, isLatest⟩ := induction
      rw [← List.cons_append, sourceGaps_concat, GapState.reach, isTracked]
      refine ⟨max action.effectiveEnd latest, rfl, ?_, ?_⟩
      · rw [List.forall_mem_append, List.forall_mem_singleton]
        exact ⟨fun other old => le_max_of_le_right (isUpper other old),
          le_max_left _ _⟩
      · rcases le_total action.effectiveEnd latest with before | after
        · exact ⟨longest, List.mem_append_left _ member,
            isLatest.trans (max_eq_right before).symm⟩
        · exact ⟨action, List.mem_append_right _ List.mem_cons_self,
            (max_eq_left after).symm⟩

/-- The tracked end does not go back. -/
theorem previousSourceEnd_reach_le (replaySpeed : ℚ) (state : GapState)
    (action : TimedAction) {previous : ℚ}
    (isTracked : state.previousSourceEnd = some previous) :
    ∃ next, (state.reach replaySpeed action).previousSourceEnd = some next ∧
      previous ≤ next := by
  rw [GapState.reach, isTracked]
  exact ⟨_, rfl, le_max_right _ _⟩

/-- No sleep is negative. -/
theorem nonneg_of_mem_sleeps (replaySpeed : ℚ) (actions : List TimedAction) :
    ∀ sleep ∈ (sourceGaps replaySpeed actions).sleeps, 0 ≤ sleep := by
  induction actions using List.reverseRecOn with
  | nil => exact List.forall_mem_nil _
  | append_singleton actions action induction =>
      rw [sourceGaps_concat, GapState.reach, List.forall_mem_append]
      refine ⟨induction, fun sleep isSlept => ?_⟩
      rw [Option.mem_toList, sleepSourceGap.eq_def] at isSlept
      split at isSlept
      · cases isSlept
      · rw [sleepAndMeasure] at isSlept
        obtain ⟨long, same⟩ := Option.mem_ite_none_left.mp isSlept
        cases same
        exact (not_le.mp long).le

namespace InSourceOrder

variable {first action : TimedAction} {rest : List TimedAction}

theorem of_concat (inOrder : InSourceOrder (first :: (rest ++ [action]))) :
    InSourceOrder (first :: rest) where
  sorted := (List.pairwise_append.mp inOrder.sorted).1
  ends := fun other member =>
    inOrder.ends other (List.mem_append_left [action] member)

/-- The last action starts last. -/
theorem start_le_last (inOrder : InSourceOrder (first :: rest))
    {other : TimedAction} (member : other ∈ first :: rest) :
    other.tsStart ≤ (rest.getLastD first).tsStart := by
  cases rest using List.reverseRecOn with
  | nil => rw [List.mem_singleton.mp member]; rfl
  | append_singleton rest last =>
      rw [List.getLastD_concat]
      rw [← List.cons_append, List.mem_append] at member
      rcases member with old | isLast
      · exact (List.pairwise_append.mp inOrder.sorted).2.2 other old last
          List.mem_cons_self
      · rw [List.mem_singleton.mp isLast]

end InSourceOrder

/-- What is slept, at the speed of the replay, is the gap. -/
theorem sum_sleepSourceGap {replaySpeed : ℚ} (positive : 0 < replaySpeed)
    (previous start : ℚ) :
    (sleepSourceGap (some previous) start replaySpeed).toList.sum *
        replaySpeed = max 0 (start - previous) := by
  rw [sleepSourceGap, sleepAndMeasure]
  split
  · next short =>
      rw [div_le_iff₀ positive, zero_mul] at short
      rw [Option.toList_none, List.sum_nil, zero_mul]
      exact le_antisymm (le_max_left _ _) short
  · rw [Option.toList_some, List.sum_singleton,
      div_mul_cancel₀ _ positive.ne']

/-- The sleeps up to an action add up to the time in which none ran. -/
theorem volume_idleTime {replaySpeed : ℚ} (positive : 0 < replaySpeed)
    (first : TimedAction) (rest : List TimedAction)
    (inOrder : InSourceOrder (first :: rest)) :
    volume (idleTime first rest) =
      ENNReal.ofReal
        (((sourceGaps replaySpeed (first :: rest)).sleeps.sum *
          replaySpeed : ℚ) : ℝ) := by
  induction rest using List.reverseRecOn with
  | nil =>
      have begins := inOrder.le_effectiveEnd List.mem_cons_self
      have covered : idleTime first [] = ∅ := by
        rw [idleTime, List.getLastD_nil]
        exact uncovered_singleton (Rat.cast_le.mpr begins)
      rw [covered, measure_empty]
      simp [sourceGaps, GapState.reach, sleepSourceGap]
  | append_singleton rest action induction =>
      have before := inOrder.of_concat
      obtain ⟨latest, isTracked, isUpper, longest, isLongest, isLatest⟩ :=
        previousSourceEnd_sourceGaps replaySpeed first rest
      have isLast (other : TimedAction) (member : other ∈ first :: rest) :=
        before.start_le_last member
      have lastMember : rest.getLastD first ∈ first :: rest :=
        List.getLastD_mem_cons
      have later := (List.pairwise_append.mp inOrder.sorted).2.2 _ lastMember
        action List.mem_cons_self
      have grows :
          volume (idleTime first (rest ++ [action])) =
            volume (idleTime first rest) +
              ENNReal.ofReal ((action.tsStart : ℝ) - latest) := by
        rw [idleTime, List.getLastD_concat, ← List.cons_append]
        exact volume_uncovered_concat
          (fun other member => Rat.cast_le.mpr (isLast other member))
          (fun other member => Rat.cast_le.mpr (isUpper other member))
          ⟨longest, isLongest, congrArg Rat.cast isLatest⟩
          ⟨rest.getLastD first, lastMember, rfl,
            Rat.cast_le.mpr (before.le_effectiveEnd lastMember)⟩
          (Rat.cast_le.mpr (isLast first List.mem_cons_self)) (Rat.cast_le.mpr later)
          (Rat.cast_le.mpr (inOrder.le_effectiveEnd
            (List.mem_append_right (first :: rest) List.mem_cons_self)))
      have slept :
          (sourceGaps replaySpeed (first :: (rest ++ [action]))).sleeps.sum *
              replaySpeed =
            (sourceGaps replaySpeed (first :: rest)).sleeps.sum * replaySpeed +
              max 0 (action.tsStart - latest) := by
        rw [← List.cons_append, sourceGaps_concat, GapState.reach, isTracked,
          List.sum_append, add_mul, sum_sleepSourceGap positive]
      rw [grows, induction before, slept, Rat.cast_add,
        ENNReal.ofReal_add (Rat.cast_nonneg.mpr ?_)
          (Rat.cast_nonneg.mpr (le_max_left _ _)),
        Rat.cast_max, Rat.cast_zero, Rat.cast_sub, ENNReal.ofReal_max,
        ENNReal.ofReal_zero, max_eq_right zero_le]
      exact mul_nonneg (List.sum_nonneg (nonneg_of_mem_sleeps _ _))
        positive.le

/-- Each gap is slept once, the tracked end does not go back, and no sleep is
negative. -/
theorem sourceGaps_slept {replaySpeed : ℚ} (positive : 0 < replaySpeed)
    (first : TimedAction) (rest : List TimedAction)
    (inOrder : InSourceOrder (first :: rest)) :
    volume (idleTime first rest) =
        ENNReal.ofReal
          (((sourceGaps replaySpeed (first :: rest)).sleeps.sum *
            replaySpeed : ℚ) : ℝ) ∧
      (∀ done action previous, done ++ [action] <+: first :: rest →
        (sourceGaps replaySpeed done).previousSourceEnd = some previous →
        ∃ next,
          (sourceGaps replaySpeed (done ++ [action])).previousSourceEnd =
              some next ∧
            previous ≤ next) ∧
      ∀ sleep ∈ (sourceGaps replaySpeed (first :: rest)).sleeps,
        0 ≤ sleep := by
  refine ⟨volume_idleTime positive first rest inOrder,
    fun done action previous _ isTracked => ?_, nonneg_of_mem_sleeps _ _⟩
  rw [sourceGaps_concat]
  exact previousSourceEnd_reach_le replaySpeed _ action isTracked

/-- An action of two seconds, one within it whose checkpoint takes another
second, and one that starts later. -/
theorem overlapping_slept :
    volume
        (idleTime ⟨0, 2, none, none⟩
          [⟨1, 3 / 2, some ⟨true, some 1000⟩, none⟩, ⟨4, 5, none, none⟩]) =
      ENNReal.ofReal
        (((sourceGaps 2
          [⟨0, 2, none, none⟩, ⟨1, 3 / 2, some ⟨true, some 1000⟩, none⟩,
            ⟨4, 5, none, none⟩]).sleeps.sum * 2 : ℚ) : ℝ) := by
  refine (sourceGaps_slept (by norm_num) _ _ ⟨?_, ?_⟩).1
  · norm_num
  · simp only [List.forall_mem_cons]
    norm_num

end AgentSchedBench.Replay
