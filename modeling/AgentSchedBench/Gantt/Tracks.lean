import AgentSchedBench.Library.Colouring
import Mathlib.Algebra.Order.Ring.Rat
import Mathlib.Algebra.Order.Field.Basic
import Mathlib.Data.Fintype.Fin
import Mathlib.Data.List.FinRange
import Mathlib.Data.List.Sort
import Mathlib.Tactic.Linarith

/-!
# Tracks

The spans of a lane are drawn on tracks.  In the order of their starts each span
goes to the first track whose last span has ended, or to a new one.
-/

namespace AgentSchedBench.Gantt

variable {T : Type} (selectStart selectEnd : T → ℚ) (spans : List T)

/-- How two spans are compared: a negative number, zero or a positive one. -/
def compareSpans (first second : T) : ℚ :=
  let startDiff := selectStart first - selectStart second
  if startDiff ≠ 0 then startDiff else selectEnd first - selectEnd second

/-- The indices in the order of the spans. -/
def trackOrder : List (Fin spans.length) :=
  (List.finRange spans.length).insertionSort fun first second =>
    compareSpans selectStart selectEnd (spans.get first) (spans.get second) ≤ 0

structure TrackState where
  trackEnds : List ℚ
  assignment : List ℕ

namespace TrackState

/-- The track that a span has, when it has one. -/
def track (state : TrackState) (idx : ℕ) : ℕ := state.assignment.getD idx 0

/-- The body of the loop, for the span with this index and these times. -/
def assign (state : TrackState) (idx : ℕ) (start stop : ℚ) : TrackState :=
  match state.trackEnds.findIdx? (· ≤ start) with
  | some free => ⟨state.trackEnds.set free stop, state.assignment.set idx free⟩
  | none =>
      ⟨state.trackEnds ++ [stop],
        state.assignment.set idx state.trackEnds.length⟩

end TrackState

/-- The body of the loop, for an index. -/
def assignSpan (state : TrackState) (idx : Fin spans.length) : TrackState :=
  state.assign idx (selectStart (spans.get idx)) (selectEnd (spans.get idx))

def assignTracks : List ℕ :=
  if spans.length = 0 then []
  else
    ((trackOrder selectStart selectEnd spans).foldl
      (assignSpan selectStart selectEnd spans)
      ⟨[], List.replicate spans.length 0⟩).assignment

/-! ## Order -/

variable {selectStart selectEnd spans}

theorem compareSpans_nonpos {first second : T} :
    compareSpans selectStart selectEnd first second ≤ 0 ↔
      selectStart first < selectStart second ∨
        selectStart first = selectStart second ∧
          selectEnd first ≤ selectEnd second := by
  rw [compareSpans]
  split
  · next differ =>
      rw [sub_ne_zero] at differ
      rw [sub_nonpos, le_iff_lt_or_eq]
      simp [differ]
  · next same =>
      rw [not_not, sub_eq_zero] at same
      simp [same]

theorem trackOrder_sorted :
    (trackOrder selectStart selectEnd spans).Pairwise fun first second =>
      selectStart (spans.get first) ≤ selectStart (spans.get second) := by
  let before (first second : Fin spans.length) : Prop :=
    compareSpans selectStart selectEnd (spans.get first) (spans.get second) ≤ 0
  have : Std.Total before := ⟨fun first second => by
    simp only [before, compareSpans_nonpos]
    rcases lt_trichotomy (selectStart (spans.get first))
      (selectStart (spans.get second)) with less | same | more
    · exact Or.inl (Or.inl less)
    · rcases le_total (selectEnd (spans.get first))
        (selectEnd (spans.get second)) with ends | ends
      · exact Or.inl (Or.inr ⟨same, ends⟩)
      · exact Or.inr (Or.inr ⟨same.symm, ends⟩)
    · exact Or.inr (Or.inl more)⟩
  have : IsTrans _ before := ⟨fun first second third => by
    simp only [before, compareSpans_nonpos]
    rintro (less | ⟨same, ends⟩) (less' | ⟨same', ends'⟩)
    · exact Or.inl (less.trans less')
    · exact Or.inl (less.trans_eq same')
    · exact Or.inl (same.trans_lt less')
    · exact Or.inr ⟨same.trans same', ends.trans ends'⟩⟩
  refine (List.pairwise_insertionSort before _).imp fun ordered => ?_
  rcases compareSpans_nonpos.mp ordered with less | ⟨same, -⟩
  · exact less.le
  · exact same.le

theorem trackOrder_perm :
    (trackOrder selectStart selectEnd spans).Perm (List.finRange spans.length) :=
  List.perm_insertionSort _ _

/-! ## The loop -/

namespace TrackState

variable {state : TrackState} {idx : ℕ} {start stop : ℚ}

theorem track_set {trackEnds trackEnds' : List ℚ} {numbers : List ℕ}
    (inRange : idx < numbers.length) (number other : ℕ) :
    track ⟨trackEnds', numbers.set idx number⟩ other =
      if other = idx then number else track ⟨trackEnds, numbers⟩ other := by
  rw [track, track, List.getD_eq_getElem?_getD, List.getElem?_set]
  split
  · next same =>
      rw [if_pos same.symm]
      rfl
  · next differ =>
      rw [if_neg (Ne.symm differ), List.getD_eq_getElem?_getD]

/-- The span goes to the first track that is free. -/
structure Assigns (state next : TrackState) (idx number : ℕ) (start stop : ℚ) :
    Prop where
  length : next.assignment.length = state.assignment.length
  track : ∀ other, next.track other =
    if other = idx then number else state.track other
  ends : ∀ other, next.trackEnds[other]? =
    if other = number then some stop else state.trackEnds[other]?
  busy : ∀ lower < number, ∃ ended, state.trackEnds[lower]? = some ended ∧
    start < ended
  free : ∀ ended ∈ state.trackEnds[number]?, ended ≤ start

theorem assigns (inRange : idx < state.assignment.length) :
    ∃ number, Assigns state (state.assign idx start stop) idx number start stop := by
  rw [assign]
  split
  · next free isFree =>
      obtain ⟨inEnds, ended, notEnded⟩ :=
        List.findIdx?_eq_some_iff_getElem.mp isFree
      refine ⟨free, List.length_set, track_set inRange free, fun other => ?_,
        fun lower less => ?_, ?_⟩
      · rw [List.getElem?_set]
        split
        · next same =>
            subst same
            rw [if_pos rfl]
        · next differ => rw [if_neg (Ne.symm differ)]
      · have later := notEnded lower less
        rw [decide_eq_true_iff, not_le] at later
        exact ⟨_, List.getElem?_eq_getElem (less.trans inEnds), later⟩
      · intro stopped isStop
        rw [List.getElem?_eq_getElem inEnds] at isStop
        cases isStop
        exact of_decide_eq_true ended
  · next noneFree =>
      have allLater := List.findIdx?_eq_none_iff.mp noneFree
      refine ⟨state.trackEnds.length, List.length_set, track_set inRange _,
        fun other => ?_, fun lower less => ?_, ?_⟩
      · split
        · next same => rw [same, List.getElem?_concat_length]
        · next differ =>
            rcases lt_or_gt_of_ne differ with less | more
            · rw [List.getElem?_append_left less]
            · rw [List.getElem?_eq_none (by simpa using Nat.succ_le_of_lt more),
                List.getElem?_eq_none more.le]
      · have later := allLater _ (List.getElem_mem less)
        rw [decide_eq_false_iff_not, not_le] at later
        exact ⟨_, List.getElem?_eq_getElem less, later⟩
      · intro ended isEnd
        rw [List.getElem?_eq_none le_rfl] at isEnd
        cases isEnd

end TrackState

section

variable (selectStart selectEnd spans)

/-- What holds of the spans that have their tracks. -/
structure Placed (state : TrackState) (placed : List (Fin spans.length)) :
    Prop where
  length : state.assignment.length = spans.length
  bounded : ∀ idx ∈ placed, ∃ ended,
    state.trackEnds[state.track idx]? = some ended ∧
      selectEnd (spans.get idx) ≤ ended
  reached : ∀ (number : ℕ) ended, state.trackEnds[number]? = some ended →
    ∃ idx ∈ placed, state.track idx = number ∧ selectEnd (spans.get idx) = ended
  apart : placed.Pairwise fun (first second : Fin spans.length) =>
    state.track first = state.track second →
      selectEnd (spans.get first) ≤ selectStart (spans.get second)
  busy : ∀ idx ∈ placed, ∀ lower < state.track idx, ∃ other ∈ placed,
    state.track other = lower ∧
      selectStart (spans.get other) ≤ selectStart (spans.get idx) ∧
        selectStart (spans.get idx) < selectEnd (spans.get other)

end

namespace Placed

variable {state next : TrackState} {placed : List (Fin spans.length)}

/-- One more span keeps what holds. -/
theorem step (isPlaced : Placed selectStart selectEnd spans state placed)
    {idx : Fin spans.length} {number : ℕ} (isNew : idx ∉ placed)
    (sorted : ∀ other ∈ placed,
      selectStart (spans.get other) ≤ selectStart (spans.get idx))
    (nonempty : selectStart (spans.get idx) ≤ selectEnd (spans.get idx))
    (assigns : TrackState.Assigns state next idx number
      (selectStart (spans.get idx)) (selectEnd (spans.get idx))) :
    Placed selectStart selectEnd spans next (placed ++ [idx]) := by
  have own : next.track idx = number := by
    rw [assigns.track, if_pos rfl]
  have kept {other : Fin spans.length} (member : other ∈ placed) :
      next.track other = state.track other := by
    rw [assigns.track, if_neg]
    exact fun same => isNew (Fin.ext same ▸ member)
  refine ⟨assigns.length.trans isPlaced.length, ?_, ?_, ?_, ?_⟩
  · intro other member
    rcases List.mem_append.mp member with member | member
    · obtain ⟨ended, isEnd, bounded⟩ := isPlaced.bounded other member
      rw [kept member, assigns.ends]
      split
      · next same =>
          have free := assigns.free ended (same ▸ isEnd)
          exact ⟨_, rfl, bounded.trans (free.trans nonempty)⟩
      · exact ⟨ended, isEnd, bounded⟩
    · cases List.mem_singleton.mp member
      rw [own, assigns.ends, if_pos rfl]
      exact ⟨_, rfl, le_rfl⟩
  · intro other ended isEnd
    rw [assigns.ends] at isEnd
    split at isEnd
    · next same =>
        cases isEnd
        exact ⟨idx, by simp, own.trans same.symm, rfl⟩
    · obtain ⟨earlier, member, isTrack, isStop⟩ :=
        isPlaced.reached other ended isEnd
      exact ⟨earlier, List.mem_append_left _ member,
        (kept member).trans isTrack, isStop⟩
  · refine List.pairwise_append.mpr ⟨?_, List.pairwise_singleton _ _, ?_⟩
    · refine isPlaced.apart.imp_of_mem fun isFirst isSecond apart same => ?_
      rw [kept isFirst, kept isSecond] at same
      exact apart same
    · intro other member last isLast same
      cases List.mem_singleton.mp isLast
      obtain ⟨ended, isEnd, bounded⟩ := isPlaced.bounded other member
      rw [kept member, own] at same
      exact bounded.trans (assigns.free ended (same ▸ isEnd))
  · intro other member lower less
    rcases List.mem_append.mp member with member | member
    · rw [kept member] at less
      obtain ⟨earlier, isEarlier, isTrack, within⟩ :=
        isPlaced.busy other member lower less
      exact ⟨earlier, List.mem_append_left _ isEarlier,
        (kept isEarlier).trans isTrack, within⟩
    · cases List.mem_singleton.mp member
      rw [own] at less
      obtain ⟨ended, isEnd, later⟩ := assigns.busy lower less
      obtain ⟨earlier, isEarlier, isTrack, rfl⟩ :=
        isPlaced.reached lower ended isEnd
      exact ⟨earlier, List.mem_append_left _ isEarlier,
        (kept isEarlier).trans isTrack, sorted earlier isEarlier, later⟩

/-- The rest of the loop keeps it. -/
theorem run (nonempty : ∀ span ∈ spans, selectStart span ≤ selectEnd span)
    (isPlaced : Placed selectStart selectEnd spans state placed)
    (rest : List (Fin spans.length)) (distinct : (placed ++ rest).Nodup)
    (sorted : (placed ++ rest).Pairwise fun first second =>
      selectStart (spans.get first) ≤ selectStart (spans.get second)) :
    Placed selectStart selectEnd spans
      (rest.foldl (assignSpan selectStart selectEnd spans) state)
      (placed ++ rest) := by
  induction rest generalizing state placed with
  | nil => rwa [List.append_nil]
  | cons idx rest induction =>
      have inRange : (idx : ℕ) < state.assignment.length := by
        rw [isPlaced.length]
        exact idx.isLt
      obtain ⟨number, assigns⟩ := TrackState.assigns inRange
      have isNew : idx ∉ placed := fun member =>
        (List.nodup_append.mp distinct).2.2 idx member idx (by simp) rfl
      rw [List.append_cons] at distinct sorted ⊢
      refine induction (isPlaced.step isNew ?_ (nonempty _ (List.get_mem _ _))
        assigns) distinct sorted
      intro other member
      have front := (List.pairwise_append.mp sorted).1
      exact (List.pairwise_append.mp front).2.2 other member idx
        List.mem_cons_self

end Placed

/-! ## Minimal colouring -/

section

variable (selectStart selectEnd spans)

/-- The spans that last. -/
def lasting : Finset (Fin spans.length) :=
  Finset.univ.filter fun idx =>
    selectStart (spans.get idx) < selectEnd (spans.get idx)

/-- The spans that last and have the instant in their interior. -/
def sharing (instant : ℚ) : Finset (Fin spans.length) :=
  (lasting selectStart selectEnd spans).filter fun idx =>
    selectStart (spans.get idx) < instant ∧ instant < selectEnd (spans.get idx)

/-- A track for each span, and no more of them than are needed. -/
structure MinimalColouring (tracks : List ℕ) : Prop where
  aligned : tracks.length = spans.length
  apart : ∀ first ∈ lasting selectStart selectEnd spans,
    ∀ second ∈ lasting selectStart selectEnd spans, first ≠ second →
      tracks.getD first 0 = tracks.getD second 0 → ∀ instant,
        ¬ (first ∈ sharing selectStart selectEnd spans instant ∧
          second ∈ sharing selectStart selectEnd spans instant)
  minimal : IsGreatest
    (Set.range fun instant => (sharing selectStart selectEnd spans instant).card)
    ((lasting selectStart selectEnd spans).image
      fun (idx : Fin spans.length) => tracks.getD idx 0).card

end

/-- After the loop the spans that last are coloured by first fit. -/
theorem Placed.firstFit {state : TrackState}
    (isPlaced : Placed selectStart selectEnd spans state
      (trackOrder selectStart selectEnd spans)) :
    Colouring.FirstFit (selectStart ∘ spans.get) (selectEnd ∘ spans.get)
      (fun idx => state.track idx) (lasting selectStart selectEnd spans) := by
  have isPlacedIdx (idx : Fin spans.length) :
      idx ∈ trackOrder selectStart selectEnd spans :=
    trackOrder_perm.mem_iff.mpr (List.mem_finRange idx)
  refine ⟨fun idx member => (Finset.mem_filter.mp member).2, ?_, ?_⟩
  · intro first _ second _ differ
    let Apart (first second : Fin spans.length) : Prop :=
      state.track first = state.track second →
        selectEnd (spans.get first) ≤ selectStart (spans.get second) ∨
          selectEnd (spans.get second) ≤ selectStart (spans.get first)
    have : Std.Symm Apart := ⟨fun _ _ apart same => (apart same.symm).symm⟩
    have apart : (trackOrder selectStart selectEnd spans).Pairwise Apart :=
      isPlaced.apart.imp fun apart same => Or.inl (apart same)
    exact apart.forall (isPlacedIdx first) (isPlacedIdx second) differ
  · intro idx _ lower less
    obtain ⟨other, -, isTrack, startsBefore, stopsBehind⟩ :=
      isPlaced.busy idx (isPlacedIdx idx) lower less
    exact ⟨other, Finset.mem_filter.mpr
      ⟨Finset.mem_univ _, startsBefore.trans_lt stopsBehind⟩, isTrack,
      startsBefore, stopsBehind⟩

/-- The tracks are a minimal colouring of the spans. -/
theorem assignTracks_minimal (spans : List T) (selectStart selectEnd : T → ℚ)
    (nonempty : ∀ span ∈ spans, selectStart span ≤ selectEnd span) :
    MinimalColouring selectStart selectEnd spans
      (assignTracks selectStart selectEnd spans) := by
  have start : Placed selectStart selectEnd spans
      ⟨[], List.replicate spans.length 0⟩ [] :=
    ⟨List.length_replicate, nofun, nofun, .nil, nofun⟩
  have isPlaced := Placed.run nonempty start (trackOrder selectStart selectEnd spans)
    (trackOrder_perm.nodup_iff.mpr (List.nodup_finRange _)) trackOrder_sorted
  rw [List.nil_append] at isPlaced
  have isLast : assignTracks selectStart selectEnd spans =
      ((trackOrder selectStart selectEnd spans).foldl
        (assignSpan selectStart selectEnd spans)
        ⟨[], List.replicate spans.length 0⟩).assignment := by
    rw [assignTracks]
    split
    · next none =>
        exact (List.eq_nil_of_length_eq_zero
          (isPlaced.length.trans none)).symm
    · rfl
  have fits := isPlaced.firstFit
  rw [isLast]
  refine ⟨isPlaced.length, ?_, fits.isGreatest_card⟩
  rintro first isFirst second isSecond differ same instant ⟨inFirst, inSecond⟩
  exact differ (fits.injOn_inside instant inFirst inSecond same)

example :
    assignTracks Prod.fst Prod.snd
      ([(0, 5), (0, 8), (0, 5), (5, 9), (5, 15)] : List (ℚ × ℚ)) =
      [0, 2, 1, 0, 1] := by
  decide +kernel

/-- Two calls and a third that begins when one of them ends. -/
theorem threeCalls_minimal :
    MinimalColouring Prod.fst Prod.snd ([(5, 9), (0, 5), (0, 8)] : List (ℚ × ℚ))
      (assignTracks Prod.fst Prod.snd [(5, 9), (0, 5), (0, 8)]) :=
  assignTracks_minimal _ _ _ (by decide +kernel)

end AgentSchedBench.Gantt
