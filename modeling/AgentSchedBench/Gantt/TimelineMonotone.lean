import AgentSchedBench.Gantt.TimelineOrder
import Mathlib.Data.Finset.Max

/-!
# Monotone timelines

What the mapping does from the end of one span to the next one decides whether
it is monotone: it goes on in a span that overlaps, it stays at the end of the
span that started last, or it goes on after all spans.
-/

namespace AgentSchedBench.Gantt

open StableSort

/-- The laid span is the first that contains its own end, and no span that is
there ends later. -/
structure LaidLast (laid there : List LaidSpan) (item : LaidSpan) : Prop where
  first : laidAt item.span.endAbs laid = some item
  last : ∀ other ∈ there, other.span.endAbs ≤ item.span.endAbs

/-- The time goes on, or stays, where a span ends. -/
structure KeepsTime (laid : List LaidSpan) : Prop where
  overlaps : ∀ item, laidAt item.span.endAbs laid = some item →
    ∀ next, laidAfter item.span.endAbs laid = some next →
      item.span.pointAt item.span.endAbs ≤ next.span.pointAt item.span.endAbs
  gaps : ∀ before latest next after, laid = before ++ latest :: next :: after →
    ∀ item, LaidLast laid (before ++ [latest]) item → item.span.endAbs < next.start →
      item.span.pointAt item.span.endAbs ≤ latest.reach ∧ latest.reach ≤ next.start
  tail : ∀ latest, laid.getLast? = some latest → ∀ item, LaidLast laid laid item →
    item.span.pointAt item.span.endAbs - item.span.endAbs ≤
      latest.reach - latest.span.endAbs

section Monotone

variable {spans : List Span} {laid before after rest : List LaidSpan}
  {item container latest next : LaidSpan} {timestampAbs : ℚ}

/-! ## In a gap -/

/-- Before a gap no span contains an instant of it, after it none has started. -/
theorem outside_gap
    (isSplit : laid = before ++ latest :: rest)
    (ended : ∀ other ∈ before ++ [latest], other.span.endAbs < timestampAbs)
    (notYet : ∀ other ∈ rest, timestampAbs < other.start) :
    ∀ other ∈ laid, ¬ other.span.Contains timestampAbs := by
  intro other isOther contains
  rw [isSplit, List.append_cons] at isOther
  rcases List.mem_append.mp isOther with inFront | inRest
  · exact (ended other inFront).not_ge contains.2
  · exact (notYet other inRest).not_ge contains.1

theorem LaidOut.next_le (out : LaidOut spans laid)
    (isSplit : laid = before ++ latest :: next :: after) :
    ∀ other ∈ next :: after, next.start ≤ other.start := by
  have sorted := out.sorted
  rw [isSplit] at sorted
  intro other isOther
  rcases List.mem_cons.mp isOther with rfl | inAfter
  · exact le_rfl
  · exact (List.pairwise_cons.mp
      (List.pairwise_cons.mp (List.pairwise_append.mp sorted).2.1).2).1 other inAfter

/-- An instant of a gap is mapped to the end of the span that started last. -/
theorem LaidOut.map_in_gap (out : LaidOut spans laid)
    (ordered : ∀ item ∈ laid, item.span.startAbs ≤ item.span.endAbs)
    (isSplit : laid = before ++ latest :: next :: after)
    (ended : ∀ other ∈ before ++ [latest], other.span.endAbs < timestampAbs)
    (notYet : timestampAbs < next.start) :
    mapTimeToRealAbs timestampAbs laid = latest.reach - latest.shift := by
  have isLatest : latest ∈ laid := isSplit ▸ List.mem_append_right before List.mem_cons_self
  have outside := outside_gap isSplit ended fun other inRest =>
    notYet.trans_le (out.next_le isSplit other inRest)
  have started : latest.start ≤ timestampAbs := (ordered latest isLatest).trans
    (ended latest (List.mem_append_right before List.mem_cons_self)).le
  exact out.map_of_gap ordered isSplit outside started notYet

/-- The first span that contains the next start starts there. -/
theorem LaidOut.start_of_laidAt_next (out : LaidOut spans laid)
    (isSplit : laid = before ++ latest :: next :: after)
    (ended : ∀ other ∈ before ++ [latest], other.span.endAbs < next.start)
    (isFirst : laidAt next.start laid = some container) : container.start = next.start := by
  obtain ⟨isContainer, contains⟩ := contains_of_laidAt isFirst
  refine le_antisymm contains.1 ?_
  rw [isSplit, List.append_cons] at isContainer
  rcases List.mem_append.mp isContainer with inFront | inRest
  · exact absurd contains.2 (ended container inFront).not_ge
  · exact out.next_le isSplit container inRest

/-- A gap ends with the real start of the next span. -/
theorem LaidOut.map_next (out : LaidOut spans laid)
    (ordered : ∀ item ∈ laid, item.span.startAbs ≤ item.span.endAbs)
    (isSplit : laid = before ++ latest :: next :: after)
    (ended : ∀ other ∈ before ++ [latest], other.span.endAbs < next.start) :
    mapTimeToRealAbs next.start laid = next.start - next.shift := by
  have isNext : next ∈ laid :=
    isSplit ▸ List.mem_append_right before (List.mem_cons_of_mem latest List.mem_cons_self)
  obtain ⟨container, isFirst⟩ := exists_laidAt isNext ⟨le_rfl, ordered next isNext⟩
  have isStart := out.start_of_laidAt_next isSplit ended isFirst
  rw [next.start_sub_shift]
  exact (out.map_start_iff ordered isNext isFirst).mpr fun started =>
    absurd isStart started.ne

theorem LaidOut.follows_latest (out : LaidOut spans laid)
    (isSplit : laid = before ++ latest :: rest) (isItem : item ∈ before ++ [latest]) :
    item = latest ∨ item.Follows latest := by
  have follow := out.follow
  rw [isSplit] at follow
  rcases List.mem_append.mp isItem with inBefore | isLatest
  · exact Or.inr ((List.pairwise_append.mp follow).2.2 item inBefore latest
      List.mem_cons_self)
  · exact Or.inl (List.mem_singleton.mp isLatest)

theorem LaidOut.latest_le_next_iff (out : LaidOut spans laid)
    (isSplit : laid = before ++ latest :: next :: after) :
    latest.reach - latest.shift ≤ next.start - next.shift ↔ latest.reach ≤ next.start := by
  have follow := out.follow
  rw [isSplit] at follow
  have follows := (List.pairwise_cons.mp (List.pairwise_append.mp follow).2.1).1 next
    List.mem_cons_self
  exact follows.position_le_iff le_rfl le_rfl

theorem LaidOut.le_latest_iff (out : LaidOut spans laid) {point : ℚ}
    (isSplit : laid = before ++ latest :: rest) (isItem : item ∈ before ++ [latest])
    (within : point ≤ item.reach) :
    point - item.shift ≤ latest.reach - latest.shift ↔ point ≤ latest.reach := by
  rcases out.follows_latest isSplit isItem with rfl | follows
  · exact sub_le_sub_iff_right _
  · exact follows.position_le_iff within latest.start_le_reach

/-! ## After all spans -/

theorem LaidOut.map_in_tail (out : LaidOut spans laid)
    (ordered : ∀ item ∈ laid, item.span.startAbs ≤ item.span.endAbs)
    (isLast : laid.getLast? = some latest)
    (ended : ∀ other ∈ laid, other.span.endAbs < timestampAbs) :
    mapTimeToRealAbs timestampAbs laid =
      timestampAbs - latest.span.endAbs + (latest.reach - latest.shift) :=
  out.map_of_tail ordered isLast (fun other isOther contains =>
    (ended other isOther).not_ge contains.2) fun other isOther =>
      (ordered other isOther).trans (ended other isOther).le

theorem LaidOut.tail_iff (out : LaidOut spans laid) {point : ℚ}
    (isLast : laid.getLast? = some latest) (isItem : item ∈ laid)
    (within : point ≤ item.reach) (later : latest.span.endAbs ≤ item.span.endAbs) :
    point - item.shift ≤
        item.span.endAbs - latest.span.endAbs + (latest.reach - latest.shift) ↔
      point - item.span.endAbs ≤ latest.reach - latest.span.endAbs := by
  obtain ⟨before, isSplit⟩ := List.getLast?_eq_some_iff.mp isLast
  have inSplit : item ∈ before ++ [latest] := isSplit ▸ isItem
  rcases out.follows_latest isSplit inSplit with rfl | follows
  · constructor <;> intro le <;> linarith
  · rcases le_or_gt point latest.reach with inReach | beyond
    · have moved := (follows.position_le_iff within latest.start_le_reach).mpr inReach
      constructor <;> intro _ <;> linarith
    · have touching : latest.start ≤ item.reach :=
        latest.start_le_reach.trans (beyond.le.trans within)
      have shift := follows.touching touching
      constructor <;> intro le <;> linarith

/-! ## From one span to the next -/

/-- The spans that end after an instant. -/
def endingAfter (timestampAbs : ℚ) (laid : List LaidSpan) : List LaidSpan :=
  laid.filter fun other => timestampAbs < other.span.endAbs

theorem length_endingAfter_lt (isNext : next ∈ laid) (later : timestampAbs < next.span.endAbs) :
    (endingAfter next.span.endAbs laid).length < (endingAfter timestampAbs laid).length := by
  have isFiltered : endingAfter next.span.endAbs laid =
      (endingAfter timestampAbs laid).filter fun other =>
        next.span.endAbs < other.span.endAbs := by
    rw [endingAfter, endingAfter, List.filter_filter]
    refine List.filter_congr fun other _ => ?_
    rw [← Bool.decide_and, decide_eq_decide]
    exact ⟨fun lt => ⟨lt, later.trans lt⟩, fun both => both.1⟩
  rw [isFiltered, List.length_filter_lt_length_iff_exists]
  refine ⟨next, List.mem_filter.mpr ⟨isNext, decide_eq_true later⟩, ?_⟩
  rw [decide_eq_true_eq]
  exact lt_irrefl _

/-- Where the time is kept, an instant is not mapped before the end of a span
that it comes after. -/
theorem LaidOut.end_le_map (out : LaidOut spans laid)
    (ordered : ∀ item ∈ laid, item.span.startAbs ≤ item.span.endAbs)
    (keeps : KeepsTime laid) (isFirst : laidAt item.span.endAbs laid = some item)
    (after : item.span.endAbs ≤ timestampAbs) :
    item.span.pointAt item.span.endAbs - item.shift ≤
      mapTimeToRealAbs timestampAbs laid := by
  -- the later an end, the fewer spans end after it
  induction count : (endingAfter item.span.endAbs laid).length using Nat.strong_induction_on
    generalizing item with
  | _ count induction =>
      obtain ⟨isItem, contains⟩ := contains_of_laidAt isFirst
      have through {other : LaidSpan} {instant : ℚ}
          (isOther : laidAt instant laid = some other)
          (later : item.span.endAbs < other.span.endAbs) (le : instant ≤ timestampAbs) :
          other.span.pointAt instant - other.shift ≤
            mapTimeToRealAbs timestampAbs laid := by
        obtain ⟨member, within⟩ := contains_of_laidAt isOther
        rcases le_total timestampAbs other.span.endAbs with inside | beyond
        · rw [out.map_of_laidAt ordered (out.laidAt_later isOther le inside)]
          exact sub_le_sub_right (pointAt_le_pointAt le) _
        · refine (sub_le_sub_right (pointAt_le_pointAt within.2) _).trans ?_
          exact induction _ (count ▸ length_endingAfter_lt member later)
            (out.laidAt_later isOther within.2 le_rfl) beyond rfl
      rcases after.eq_or_lt with rfl | after
      · rw [out.map_of_laidAt ordered isFirst]
      cases isNext : laidAfter item.span.endAbs laid with
      | some next =>
          obtain ⟨member, started, later⟩ := laidAfter_spec isNext
          have moved := (out.le_iff_of_laidAt isFirst member ⟨started, later.le⟩
            (pointAt_end_le item.span) (startAbs_le_pointAt ⟨started, later.le⟩)).mpr
              (keeps.overlaps item isFirst next isNext)
          refine moved.trans ?_
          rcases le_total timestampAbs next.span.endAbs with inside | beyond
          · rw [out.map_of_laidAt ordered (out.laidAt_of_laidAfter isNext after inside)]
            exact sub_le_sub_right (pointAt_le_pointAt after.le) _
          · exact (sub_le_sub_right (pointAt_le_pointAt later.le) _).trans
              (through (out.laidAt_of_laidAfter isNext later le_rfl) later beyond)
      | none =>
          have ended (other : LaidSpan) (isOther : other ∈ laid)
              (started : other.start ≤ item.span.endAbs) :
              other.span.endAbs ≤ item.span.endAbs := by
            have notAfter := List.find?_eq_none.mp isNext other isOther
            rw [decide_eq_true_eq] at notAfter
            exact not_lt.mp fun later => notAfter ⟨started, later⟩
          obtain ⟨before, latest, rest, isSplit, early, late⟩ :=
            out.exists_latest isItem contains.1
          have inLaid {other : LaidSpan} (inFront : other ∈ before ++ [latest]) :
              other ∈ laid := by
            rw [isSplit, List.append_cons]
            exact List.mem_append_left _ inFront
          have endedFront (other : LaidSpan) (inFront : other ∈ before ++ [latest]) :=
            ended other (inLaid inFront) (early other inFront)
          cases rest with
          | nil =>
              have isLast : laid.getLast? = some latest :=
                List.getLast?_eq_some_iff.mpr ⟨before, isSplit⟩
              have endedAll (other : LaidSpan) (isOther : other ∈ laid) :=
                endedFront other (isSplit ▸ isOther)
              have moved := (out.tail_iff isLast isItem (pointAt_end_le item.span)
                (endedAll latest (List.mem_of_getLast? isLast))).mpr
                  (keeps.tail latest isLast item ⟨isFirst, endedAll⟩)
              rw [out.map_in_tail ordered isLast fun other isOther =>
                (endedAll other isOther).trans_lt after]
              linarith
          | cons next rest =>
              have notYet := late next List.mem_cons_self
              have inFront : item ∈ before ++ [latest] := by
                rw [isSplit, List.append_cons] at isItem
                exact (List.mem_append.mp isItem).resolve_right fun inRest =>
                  (late item inRest).not_ge contains.1
              obtain ⟨toLatest, toNext⟩ := keeps.gaps before latest next rest isSplit item
                ⟨isFirst, endedFront⟩ notYet
              have moved := (out.le_latest_iff isSplit inFront
                (pointAt_end_le item.span)).mpr toLatest
              refine moved.trans ?_
              rcases lt_or_ge timestampAbs next.start with inGap | reached
              · rw [out.map_in_gap ordered isSplit (fun other isOther =>
                  (endedFront other isOther).trans_lt after) inGap]
              · have isNextSpan : next ∈ laid := isSplit ▸ List.mem_append_right before
                  (List.mem_cons_of_mem latest List.mem_cons_self)
                obtain ⟨first, isFirstThere⟩ := exists_laidAt isNextSpan
                  ⟨le_rfl, ordered next isNextSpan⟩
                obtain ⟨-, there⟩ := contains_of_laidAt isFirstThere
                refine ((out.latest_le_next_iff isSplit).mpr toNext).trans ?_
                rw [← out.map_next ordered isSplit fun other isOther =>
                  (endedFront other isOther).trans_lt notYet]
                have mapped := out.map_of_laidAt ordered isFirstThere
                exact mapped.le.trans
                  (through isFirstThere (notYet.trans_le there.2) reached)

theorem LaidOut.map_le_map_of_laidAt (out : LaidOut spans laid)
    (ordered : ∀ item ∈ laid, item.span.startAbs ≤ item.span.endAbs)
    (keeps : KeepsTime laid) {later : ℚ} (isFirst : laidAt timestampAbs laid = some item)
    (le : timestampAbs ≤ later) :
    mapTimeToRealAbs timestampAbs laid ≤ mapTimeToRealAbs later laid := by
  obtain ⟨-, contains⟩ := contains_of_laidAt isFirst
  rw [out.map_of_laidAt ordered isFirst]
  rcases le_total later item.span.endAbs with inside | beyond
  · rw [out.map_of_laidAt ordered (out.laidAt_later isFirst le inside)]
    exact sub_le_sub_right (pointAt_le_pointAt le) _
  · exact (sub_le_sub_right (pointAt_le_pointAt contains.2) _).trans
      (out.end_le_map ordered keeps (out.laidAt_later isFirst contains.2 le_rfl) beyond)

/-- Before a gap some span ends last. -/
theorem exists_laidLast
    (ordered : ∀ item ∈ laid, item.span.startAbs ≤ item.span.endAbs)
    (isSplit : laid = before ++ latest :: rest)
    (ended : ∀ other ∈ before ++ [latest], other.span.endAbs < timestampAbs)
    (late : ∀ other ∈ rest, timestampAbs < other.start) :
    ∃ item, LaidLast laid (before ++ [latest]) item ∧ item.span.endAbs < timestampAbs := by
  have inLaid {other : LaidSpan} (inFront : other ∈ before ++ [latest]) : other ∈ laid := by
    rw [isSplit, List.append_cons]
    exact List.mem_append_left _ inFront
  obtain ⟨final, isFinal, isMax⟩ := (before ++ [latest]).toFinset.exists_max_image
    (fun other => other.span.endAbs)
    ⟨latest, List.mem_toFinset.mpr (List.mem_append_right before List.mem_cons_self)⟩
  rw [List.mem_toFinset] at isFinal
  have isMax (other : LaidSpan) (inFront : other ∈ before ++ [latest]) :=
    isMax other (List.mem_toFinset.mpr inFront)
  have isOrdered := ordered final (inLaid isFinal)
  obtain ⟨first, isFirst⟩ := exists_laidAt (inLaid isFinal) ⟨isOrdered, le_rfl⟩
  obtain ⟨isMember, contains⟩ := contains_of_laidAt isFirst
  have inFront : first ∈ before ++ [latest] := by
    rw [isSplit, List.append_cons] at isMember
    refine (List.mem_append.mp isMember).resolve_right fun inRest => ?_
    exact (late first inRest).not_ge (contains.1.trans (ended final isFinal).le)
  have same : first.span.endAbs = final.span.endAbs :=
    le_antisymm (isMax first inFront) contains.2
  rw [← same] at isFirst isMax
  exact ⟨first, ⟨isFirst, isMax⟩, ended first inFront⟩

/-- Where the time is kept, the mapping is monotone. -/
theorem LaidOut.monotone_of_keepsTime (out : LaidOut spans laid)
    (ordered : ∀ item ∈ laid, item.span.startAbs ≤ item.span.endAbs)
    (keeps : KeepsTime laid) :
    Monotone fun timestampAbs => mapTimeToRealAbs timestampAbs laid := by
  intro earlier later le
  dsimp only
  cases isLaid : laid with
  | nil => exact le
  | cons first others =>
      rw [isLaid] at out ordered keeps
      have isFirst : laidAt first.start (first :: others) = some first :=
        laidAt_cons_of_contains ⟨le_rfl, ordered first List.mem_cons_self⟩
      rcases le_total earlier first.start with before | started
      · rw [out.map_before before]
        rcases le_total later first.start with laterBefore | laterStarted
        · rw [out.map_before laterBefore]
          exact le
        · have mapped := out.map_le_map_of_laidAt ordered keeps isFirst laterStarted
          rw [out.map_before le_rfl] at mapped
          exact before.trans mapped
      · cases isThere : laidAt earlier (first :: others) with
        | some item => exact out.map_le_map_of_laidAt ordered keeps isThere le
        | none =>
            have outside (other : LaidSpan) (isOther : other ∈ first :: others) :
                ¬ other.span.Contains earlier := by
              have notContains := List.find?_eq_none.mp isThere other isOther
              rwa [decide_eq_true_eq] at notContains
            obtain ⟨before, latest, rest, isSplit, early, late⟩ :=
              out.exists_latest List.mem_cons_self started
            have ended (other : LaidSpan) (inFront : other ∈ before ++ [latest]) :
                other.span.endAbs < earlier := by
              have isOther : other ∈ first :: others := by
                rw [isSplit, List.append_cons]
                exact List.mem_append_left _ inFront
              exact not_le.mp fun reaches =>
                outside other isOther ⟨early other inFront, reaches⟩
            have endedLater (other : LaidSpan) (inFront : other ∈ before ++ [latest]) :=
              (ended other inFront).trans_le le
            cases rest with
            | nil =>
                have isLast := List.getLast?_eq_some_iff.mpr ⟨before, isSplit⟩
                rw [out.map_in_tail ordered isLast fun other isOther =>
                    ended other (isSplit ▸ isOther),
                  out.map_in_tail ordered isLast fun other isOther =>
                    endedLater other (isSplit ▸ isOther)]
                linarith
            | cons next after =>
                have notYet := late next List.mem_cons_self
                rw [out.map_in_gap ordered isSplit ended notYet]
                rcases lt_or_ge later next.start with inGap | reached
                · rw [out.map_in_gap ordered isSplit endedLater inGap]
                · obtain ⟨final, isFinal, finalEnded⟩ :=
                    exists_laidLast ordered isSplit ended late
                  have toNext := (keeps.gaps before latest next after isSplit final isFinal
                    (finalEnded.trans notYet)).2
                  have endedNext (other : LaidSpan) (inFront : other ∈ before ++ [latest]) :=
                    (ended other inFront).trans notYet
                  have isNext : next ∈ first :: others := isSplit ▸
                    List.mem_append_right before
                      (List.mem_cons_of_mem latest List.mem_cons_self)
                  obtain ⟨there, isThere⟩ := exists_laidAt isNext
                    ⟨le_rfl, ordered next isNext⟩
                  refine ((out.latest_le_next_iff isSplit).mpr toNext).trans ?_
                  rw [← out.map_next ordered isSplit endedNext]
                  exact out.map_le_map_of_laidAt ordered keeps isThere reached

/-! ## What a monotone mapping says of the spans -/

/-- What is below all points after an instant is below the point there. -/
theorem Span.le_pointAt_of_forall {span : Span} {bound : ℚ}
    (started : span.startAbs ≤ timestampAbs) (goesOn : timestampAbs < span.endAbs)
    (below : ∀ later, timestampAbs < later → later ≤ span.endAbs →
      bound ≤ span.pointAt later) : bound ≤ span.pointAt timestampAbs := by
  have nonempty : span.startAbs < span.endAbs := started.trans_lt goesOn
  have wall : 0 < span.endAbs - span.startAbs := sub_pos.mpr nonempty
  have duration := realSpanDurationS_nonneg span
  refine le_of_forall_pos_le_add fun gap positive => ?_
  -- an instant so close that its point is within the gap
  have step : 0 < gap * (span.endAbs - span.startAbs) / (realSpanDurationS span + 1) := by
    positivity
  have close := min_le_left (gap * (span.endAbs - span.startAbs) /
    (realSpanDurationS span + 1)) (span.endAbs - timestampAbs)
  have inside := min_le_right (gap * (span.endAbs - span.startAbs) /
    (realSpanDurationS span + 1)) (span.endAbs - timestampAbs)
  have forward := lt_min step (sub_pos.mpr goesOn)
  generalize min (gap * (span.endAbs - span.startAbs) / (realSpanDurationS span + 1))
    (span.endAbs - timestampAbs) = elapsed at close inside forward
  have reached := below (timestampAbs + elapsed) (by linarith) (by linarith)
  refine reached.trans ?_
  rw [pointAt_of_nonempty nonempty, pointAt_of_nonempty nonempty]
  have short : elapsed / (span.endAbs - span.startAbs) * realSpanDurationS span ≤ gap := by
    rw [div_mul_eq_mul_div, div_le_iff₀ wall]
    rw [le_div_iff₀ (by linarith), mul_add, mul_one] at close
    linarith
  have split : (timestampAbs + elapsed - span.startAbs) / (span.endAbs - span.startAbs) =
      (timestampAbs - span.startAbs) / (span.endAbs - span.startAbs) +
        elapsed / (span.endAbs - span.startAbs) := by
    rw [← add_div]
    ring
  rw [split, add_mul]
  linarith

/-- A monotone mapping keeps the time. -/
theorem LaidOut.keepsTime_of_monotone (out : LaidOut spans laid)
    (ordered : ∀ item ∈ laid, item.span.startAbs ≤ item.span.endAbs)
    (monotone : Monotone fun timestampAbs => mapTimeToRealAbs timestampAbs laid) :
    KeepsTime laid where
  overlaps := by
    intro item isFirst next isNext
    obtain ⟨member, started, later⟩ := laidAfter_spec isNext
    refine Span.le_pointAt_of_forall started later fun instant after inside => ?_
    have mapped := monotone after.le
    dsimp only at mapped
    rw [out.map_of_laidAt ordered isFirst,
      out.map_of_laidAt ordered (out.laidAt_of_laidAfter isNext after inside)] at mapped
    exact (out.le_iff_of_laidAt isFirst member ⟨started, later.le⟩
      (pointAt_end_le item.span)
        (startAbs_le_pointAt ⟨started.trans after.le, inside⟩)).mp mapped
  gaps := by
    intro before latest next after isSplit item isLast notYet
    obtain ⟨isItem, contains⟩ := contains_of_laidAt isLast.first
    have inFront : item ∈ before ++ [latest] := by
      rw [isSplit, List.append_cons] at isItem
      refine (List.mem_append.mp isItem).resolve_right fun inRest => ?_
      exact (out.next_le isSplit item inRest).not_gt (contains.1.trans_lt notYet)
    obtain ⟨middle, ended, inGap⟩ := exists_between notYet
    have toMiddle := monotone ended.le
    have toNext := monotone inGap.le
    dsimp only at toMiddle toNext
    rw [out.map_in_gap ordered isSplit
      (fun other isOther => (isLast.last other isOther).trans_lt ended) inGap]
      at toMiddle toNext
    rw [out.map_of_laidAt ordered isLast.first] at toMiddle
    rw [out.map_next ordered isSplit fun other isOther =>
      (isLast.last other isOther).trans_lt notYet] at toNext
    exact ⟨(out.le_latest_iff isSplit inFront (pointAt_end_le item.span)).mp toMiddle,
      (out.latest_le_next_iff isSplit).mp toNext⟩
  tail := by
    intro latest isLatest item isLast
    obtain ⟨isItem, -⟩ := contains_of_laidAt isLast.first
    refine (out.tail_iff isLatest isItem (pointAt_end_le item.span)
      (isLast.last latest (List.mem_of_getLast? isLatest))).mp ?_
    refine le_of_forall_pos_le_add fun gap positive => ?_
    have later : item.span.endAbs < item.span.endAbs + gap := lt_add_of_pos_right _ positive
    have mapped := monotone later.le
    dsimp only at mapped
    rw [out.map_of_laidAt ordered isLast.first, out.map_in_tail ordered isLatest
      fun other isOther => (isLast.last other isOther).trans_lt later] at mapped
    linarith

/-! ## The conditions on the spans -/

theorem LaidOut.firstAt_eq (out : LaidOut spans laid) :
    firstAt timestampAbs spans = (laidAt timestampAbs laid).map LaidSpan.span := by
  rw [← out.map_span, firstAt, List.find?_map]
  rfl

theorem LaidOut.firstAfter_eq (out : LaidOut spans laid) :
    firstAfter timestampAbs spans = (laidAfter timestampAbs laid).map LaidSpan.span := by
  rw [← out.map_span, firstAfter, List.find?_map]
  rfl

theorem LaidOut.endsLast (out : LaidOut spans laid) {there : List LaidSpan}
    (isLast : LaidLast laid there item) :
    EndsLast spans (there.map LaidSpan.span) item.span where
  first := by rw [out.firstAt_eq, isLast.first, Option.map_some]
  last := List.forall_mem_map.mpr isLast.last

theorem LaidOut.exists_laidLast (out : LaidOut spans laid) {there : List LaidSpan}
    {span : Span} (isLast : EndsLast spans (there.map LaidSpan.span) span) :
    ∃ item, LaidLast laid there item ∧ item.span = span := by
  have isFirst := isLast.first
  rw [out.firstAt_eq, Option.map_eq_some_iff] at isFirst
  obtain ⟨item, isItem, rfl⟩ := isFirst
  exact ⟨item, ⟨isItem, List.forall_mem_map.mp isLast.last⟩, rfl⟩

/-- The last three conditions say that the layout keeps the time. -/
theorem LaidOut.keepsTime_of_followsWall (out : LaidOut spans laid)
    (follows : FollowsWall spans) : KeepsTime laid where
  overlaps := by
    intro item isFirst next isNext
    refine follows.overlaps item.span ?_ next.span ?_
    · rw [out.firstAt_eq, isFirst, Option.map_some]
    · rw [out.firstAfter_eq, isNext, Option.map_some]
  gaps := by
    intro before latest next after isSplit item isLast notYet
    have isMapped : spans = before.map LaidSpan.span ++
        latest.span :: next.span :: after.map LaidSpan.span := by
      rw [← out.map_span, isSplit, List.map_append]
      rfl
    have ends := out.endsLast isLast
    rw [List.map_append] at ends
    exact follows.gaps _ _ _ _ isMapped item.span ends notYet
  tail := by
    intro latest isLatest item isLast
    have ends := out.endsLast isLast
    rw [out.map_span] at ends
    refine follows.tail latest.span ?_ item.span ends
    rw [← out.map_span, List.getLast?_map, isLatest, Option.map_some]

/-- The mapping keeps the order exactly under the conditions. -/
theorem LaidOut.followsWall_of_keepsTime (out : LaidOut spans laid)
    (keeps : KeepsTime laid)
    (starts : ∀ span ∈ spans, ∀ container,
      firstAt span.startAbs spans = some container →
        container.startAbs < span.startAbs → container.LeadsTo spans span.startAbs)
    (ends : ∀ span ∈ spans, ∀ container, firstAt span.endAbs spans = some container →
      container.pointAt span.endAbs ≤ span.reach) : FollowsWall spans where
  starts := starts
  ends := ends
  overlaps := by
    intro span isFirst next isNext
    rw [out.firstAt_eq, Option.map_eq_some_iff] at isFirst
    rw [out.firstAfter_eq, Option.map_eq_some_iff] at isNext
    obtain ⟨item, isFirst, rfl⟩ := isFirst
    obtain ⟨next, isNext, rfl⟩ := isNext
    exact keeps.overlaps item isFirst next isNext
  gaps := by
    intro before latest next after isSplit span isLast notYet
    rw [← out.map_span, List.map_eq_append_iff] at isSplit
    obtain ⟨front, rest, isLaid, rfl, isRest⟩ := isSplit
    obtain ⟨latest, tail, rfl, rfl, isTail⟩ := List.map_eq_cons_iff.mp isRest
    obtain ⟨next, after, rfl, rfl, rfl⟩ := List.map_eq_cons_iff.mp isTail
    have endsLast : EndsLast spans ((front ++ [latest]).map LaidSpan.span) span := by
      rwa [List.map_append]
    obtain ⟨item, laidLast, rfl⟩ := out.exists_laidLast endsLast
    exact keeps.gaps front latest next after isLaid item laidLast notYet
  tail := by
    intro latest isLatest span isLast
    rw [← out.map_span, List.getLast?_map, Option.map_eq_some_iff] at isLatest
    obtain ⟨latest, isLatest, rfl⟩ := isLatest
    have endsLast : EndsLast spans (laid.map LaidSpan.span) span := by
      rwa [out.map_span]
    obtain ⟨item, laidLast, rfl⟩ := out.exists_laidLast endsLast
    exact keeps.tail latest isLatest item laidLast

end Monotone

/-- A call of the model that took two seconds of the ten on the wall. -/
def shortCall : Span :=
  ⟨"llm", 100, 110, ⟨some 2000, none, none, none⟩⟩

def toolSpan (startAbs endAbs : ℚ) : Span :=
  ⟨"tool", startAbs, endAbs, ⟨none, none, none, none⟩⟩

/-- A tool that starts when the call ends. -/
theorem callAndTool_followsWall : FollowsWall [shortCall, toolSpan 110 112] := by
  have cases {span : Span} (isSpan : span ∈ [shortCall, toolSpan 110 112]) :
      span = shortCall ∨ span = toolSpan 110 112 := by
    rwa [List.mem_cons, List.mem_singleton] at isSpan
  have member {span : Span} {instant : ℚ}
      (isFirst : firstAt instant [shortCall, toolSpan 110 112] = some span) :=
    cases (List.mem_of_find?_eq_some isFirst)
  have atTool : firstAt (toolSpan 110 112).startAbs [shortCall, toolSpan 110 112] =
      some shortCall := by
    decide +kernel
  have atEnd : firstAt (toolSpan 110 112).endAbs [shortCall, toolSpan 110 112] =
      some (toolSpan 110 112) := by
    decide +kernel
  have shortest (span : Span) (isSpan : span ∈ [shortCall, toolSpan 110 112]) :
      (110 : ℚ) ≤ span.endAbs ∧ span.startAbs ≤ 110 := by
    rcases cases isSpan with rfl | rfl <;> decide +kernel
  refine ⟨fun span isSpan container isFirst started => ?_,
    fun span isSpan container isFirst => ?_, fun span isFirst next isNext => ?_,
    fun before latest next after isSplit span isLast notYet => ?_,
    fun latest isLatest span isLast => ?_⟩
  · rcases cases isSpan with rfl | rfl
    · rcases member isFirst with rfl | rfl
      · exact absurd started (lt_irrefl _)
      · exact absurd started (by decide +kernel)
    · rw [atTool, Option.some_inj] at isFirst
      rw [← isFirst]
      refine Or.inr ⟨by decide +kernel, Or.inr rfl, fun other isOther early _ => ?_⟩
      rcases cases isOther with rfl | rfl
      · exact le_rfl
      · exact absurd early (lt_irrefl _)
  · rcases cases isSpan with rfl | rfl
    · rw [show shortCall.endAbs = (toolSpan 110 112).startAbs from rfl, atTool,
        Option.some_inj] at isFirst
      rw [← isFirst]
      exact pointAt_end_le shortCall
    · rw [atEnd, Option.some_inj] at isFirst
      rw [← isFirst]
      exact pointAt_end_le (toolSpan 110 112)
  · have goesOn := List.find?_some isNext
    have isSpan := cases (List.mem_of_find?_eq_some isNext)
    rcases member isFirst with rfl | rfl
    · rcases isSpan with rfl | rfl
      · exact absurd (of_decide_eq_true goesOn).2 (lt_irrefl _)
      · decide +kernel
    · rcases isSpan with rfl | rfl
      · exact absurd (of_decide_eq_true goesOn).2 (by decide +kernel)
      · exact absurd (of_decide_eq_true goesOn).2 (lt_irrefl _)
  · have isNext : next ∈ [shortCall, toolSpan 110 112] := by
      rw [isSplit]
      exact List.mem_append_right before (List.mem_cons_of_mem latest List.mem_cons_self)
    have isSpan := List.mem_of_find?_eq_some isLast.first
    exact absurd notYet ((shortest next isNext).2.trans (shortest span isSpan).1).not_gt
  · cases isLatest
    rcases member isLast.first with rfl | rfl
    · have late := isLast.last (toolSpan 110 112)
        (List.mem_cons_of_mem _ List.mem_cons_self)
      exact absurd late (by decide +kernel)
    · exact sub_le_sub_right (pointAt_end_le (toolSpan 110 112)) _

end AgentSchedBench.Gantt
