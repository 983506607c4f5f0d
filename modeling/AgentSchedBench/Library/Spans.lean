import Mathlib

/-!
# Spans that follow each other

Spans of a line, each from where the one before it stops.  A point before the
last stop is within one of them, whose stop is the next one after the point.
-/

namespace Spans

variable {α K : Type} [LinearOrder K] (start stop : α → K)

/-- The spans follow each other from a point on, and none is empty. -/
def Follow : K → List α → Prop
  | _, [] => True
  | point, span :: rest =>
      start span = point ∧ start span < stop span ∧ Follow (stop span) rest

/-- The point is within the span, which its stop is not. -/
def Within (point : K) (span : α) : Prop :=
  start span ≤ point ∧ point < stop span

instance (point : K) (span : α) : Decidable (Within start stop point span) :=
  inferInstanceAs (Decidable (_ ∧ _))

/-- The first span that the point is within. -/
def spanAt (point : K) (spans : List α) : Option α :=
  spans.find? fun span => Within start stop point span

variable {start stop} {point first : K} {span other : α} {spans : List α}

theorem Follow.le_start (follow : Follow start stop first spans)
    (member : span ∈ spans) : first ≤ start span := by
  induction spans generalizing first with
  | nil => cases member
  | cons head rest induction =>
      obtain ⟨begins, nonempty, restFollow⟩ := follow
      rcases List.mem_cons.mp member with rfl | inRest
      · exact begins.ge
      · have later := induction restFollow inRest
        rw [begins] at nonempty
        exact nonempty.le.trans later

theorem Follow.start_lt_stop (follow : Follow start stop first spans)
    (member : span ∈ spans) : start span < stop span := by
  induction spans generalizing first with
  | nil => cases member
  | cons head rest induction =>
      obtain ⟨_, nonempty, restFollow⟩ := follow
      rcases List.mem_cons.mp member with rfl | inRest
      · exact nonempty
      · exact induction restFollow inRest

/-- Of two spans, one stops before the other one starts. -/
theorem Follow.pairwise (follow : Follow start stop first spans) :
    spans.Pairwise fun earlier later => stop earlier ≤ start later := by
  induction spans generalizing first with
  | nil => exact List.Pairwise.nil
  | cons head rest induction =>
      obtain ⟨_, _, restFollow⟩ := follow
      exact List.Pairwise.cons (fun _ inRest => restFollow.le_start inRest)
        (induction restFollow)

/-- No span stops later than the last one. -/
theorem Follow.stop_le_last (follow : Follow start stop first spans)
    (member : span ∈ spans) (isLast : spans.getLast? = some other) :
    stop span ≤ stop other := by
  obtain ⟨front, rfl⟩ := List.getLast?_eq_some_iff.mp isLast
  rcases List.mem_append.mp member with inFront | isOther
  · have before := (List.pairwise_append.mp follow.pairwise).2.2 span inFront
      other List.mem_cons_self
    have nonempty := follow.start_lt_stop
      (List.mem_append_right front List.mem_cons_self)
    exact before.trans nonempty.le
  · rw [List.mem_singleton.mp isOther]

/-- A point before the last stop is within a span. -/
theorem Follow.exists_spanAt (follow : Follow start stop first spans)
    (from_ : first ≤ point) (isLast : spans.getLast? = some other)
    (before : point < stop other) :
    ∃ span, spanAt start stop point spans = some span := by
  induction spans generalizing first with
  | nil => cases isLast
  | cons head rest induction =>
      obtain ⟨begins, _, restFollow⟩ := follow
      rw [spanAt, List.find?_cons]
      by_cases within : Within start stop point head
      · rw [decide_eq_true within]
        exact ⟨head, rfl⟩
      · rw [decide_eq_false within]
        have after : stop head ≤ point :=
          not_lt.mp fun lt => within ⟨begins.trans_le from_, lt⟩
        cases rest with
        | nil =>
            cases isLast
            exact absurd before (not_lt.mpr after)
        | cons next rest =>
            rw [List.getLast?_cons_cons] at isLast
            exact induction restFollow after isLast

theorem within_of_spanAt (isAt : spanAt start stop point spans = some span) :
    span ∈ spans ∧ Within start stop point span :=
  ⟨List.mem_of_find?_eq_some isAt,
    of_decide_eq_true (List.find?_some
      (p := fun span => decide (Within start stop point span)) isAt)⟩

/-- The stop of the span of a point is the next one. -/
theorem Follow.stop_le (follow : Follow start stop first spans)
    (member : span ∈ spans) (within : Within start stop point span)
    (isOther : other ∈ spans) (after : point < stop other) :
    stop span ≤ stop other := by
  rcases eq_or_ne span other with rfl | differ
  · exact le_rfl
  · have pairwise := follow.pairwise
    obtain ⟨front, back, rfl⟩ := List.append_of_mem member
    rw [List.pairwise_append, List.pairwise_cons] at pairwise
    obtain ⟨_, ⟨later, _⟩, earlier⟩ := pairwise
    rcases List.mem_append.mp isOther with inFront | inBack
    · have before := earlier other inFront span List.mem_cons_self
      exact absurd after (not_lt.mpr (before.trans within.1))
    · rcases List.mem_cons.mp inBack with rfl | inBack
      · exact absurd rfl differ
      · exact (later other inBack).trans
          (follow.start_lt_stop isOther).le

/-- A point is within one span only. -/
theorem Follow.spanAt_eq (follow : Follow start stop first spans)
    (member : span ∈ spans) (within : Within start stop point span) :
    spanAt start stop point spans = some span := by
  have pairwise := follow.pairwise
  obtain ⟨front, back, rfl⟩ := List.append_of_mem member
  have earlier := (List.pairwise_append.mp pairwise).2.2
  have notFront : ∀ other ∈ front, ¬ Within start stop point other :=
    fun other inFront isWithin =>
      absurd isWithin.2 (not_lt.mpr
        ((earlier other inFront span List.mem_cons_self).trans within.1))
  rw [spanAt, List.find?_append, List.find?_eq_none.mpr (by simpa using notFront),
    Option.none_or, List.find?_cons_of_pos (by simpa using within)]

/-- How many spans have stopped at a point. -/
def passed (stop : α → K) (spans : List α) (point : K) : Nat :=
  spans.countP fun span => stop span ≤ point

theorem passed_le (stop : α → K) (spans : List α) (point : K) :
    passed stop spans point ≤ spans.length :=
  List.countP_le_length

theorem passed_mono (stop : α → K) (spans : List α) {later : K}
    (le : point ≤ later) : passed stop spans point ≤ passed stop spans later :=
  List.countP_mono_left fun _ _ stops => by
    rw [decide_eq_true_eq] at stops ⊢
    exact stops.trans le

/-- A point that passes a stop passes one more. -/
theorem passed_lt {later : K} (member : span ∈ spans)
    (before : point < stop span) (after : stop span ≤ later) :
    passed stop spans point < passed stop spans later := by
  have le := before.le.trans after
  obtain ⟨front, back, rfl⟩ := List.append_of_mem member
  have inFront := passed_mono stop front le
  have inBack := passed_mono stop back le
  rw [passed, passed] at inFront inBack
  rw [passed, passed, List.countP_append, List.countP_append,
    List.countP_cons_of_neg (by simpa using before),
    List.countP_cons_of_pos (by simpa using after)]
  omega

end Spans
