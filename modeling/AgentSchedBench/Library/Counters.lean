import Mathlib

/-!
# Counters that only grow

The last reading of each counter is kept, also when the counter is read no
more.  If no counter goes back, neither does the sum of what is kept.  A sum
over the counters that are read at one time does not go back as long as each
counter that has been read is read again.
-/

namespace Counters

variable {κ : Type}

/-- A reading of the counter of a key. -/
abbrev Reading (κ : Type) := κ × Nat

def total (readings : List (Reading κ)) : Nat := (readings.map Prod.snd).sum

theorem total_cons (reading : Reading κ) (rest : List (Reading κ)) :
    total (reading :: rest) = reading.2 + total rest := rfl

/-- A counter is not lower in a later reading. -/
def NotBack (earlier later : Reading κ) : Prop :=
  earlier.1 = later.1 → earlier.2 ≤ later.2

section Record

variable [DecidableEq κ]

/-- `table[key] = count` -/
def record (table : List (Reading κ)) (reading : Reading κ) :
    List (Reading κ) :=
  match table with
  | [] => [reading]
  | kept :: rest =>
      if kept.1 = reading.1 then (kept.1, reading.2) :: rest
      else kept :: record rest reading

theorem total_record {table : List (Reading κ)} {reading : Reading κ}
    (grows : ∀ kept ∈ table, NotBack kept reading) :
    total table ≤ total (record table reading) := by
  induction table with
  | nil => exact Nat.zero_le _
  | cons kept rest induction =>
      rw [List.forall_mem_cons] at grows
      rw [record]
      split
      · next same =>
          exact Nat.add_le_add_right (grows.1 same) _
      · exact Nat.add_le_add_left (induction grows.2) _

/-- What is kept is what was kept before, or the reading. -/
theorem mem_record {table : List (Reading κ)} {reading kept : Reading κ}
    (member : kept ∈ record table reading) :
    kept ∈ table ∨ kept = reading := by
  induction table with
  | nil => exact Or.inr (List.mem_singleton.mp member)
  | cons first rest induction =>
      rw [record] at member
      split at member
      · next same =>
          rcases List.mem_cons.mp member with rfl | inRest
          · exact Or.inr (Prod.ext same rfl)
          · exact Or.inl (List.mem_cons_of_mem _ inRest)
      · rcases List.mem_cons.mp member with rfl | inRest
        · exact Or.inl List.mem_cons_self
        · exact (induction inRest).imp_left (List.mem_cons_of_mem _)

/-- The table when all readings are recorded. -/
def recordAll (table readings : List (Reading κ)) : List (Reading κ) :=
  readings.foldl record table

/-- All readings of the table and those to come are in order. -/
def InOrder (table readings : List (Reading κ)) : Prop :=
  (∀ kept ∈ table, ∀ reading ∈ readings, NotBack kept reading) ∧
    readings.Pairwise NotBack

theorem InOrder.record {table rest : List (Reading κ)} {reading : Reading κ}
    (inOrder : InOrder table (reading :: rest)) :
    InOrder (record table reading) rest := by
  obtain ⟨kept, readings⟩ := inOrder
  rw [List.pairwise_cons] at readings
  refine ⟨fun found member other inRest => ?_, readings.2⟩
  rcases mem_record member with old | rfl
  · exact kept found old other (List.mem_cons_of_mem _ inRest)
  · exact readings.1 other inRest

/-- Recording readings that are in order does not lower the sum, and leaves
the others in order. -/
theorem total_recordAll {table readings rest : List (Reading κ)}
    (inOrder : InOrder table (readings ++ rest)) :
    total table ≤ total (recordAll table readings) ∧
      InOrder (recordAll table readings) rest := by
  induction readings generalizing table with
  | nil => exact ⟨Nat.le_refl _, inOrder⟩
  | cons reading readings induction =>
      obtain ⟨later, restInOrder⟩ := induction inOrder.record
      have here := total_record fun kept member =>
        inOrder.1 kept member reading List.mem_cons_self
      exact ⟨Nat.le_trans here later, restInOrder⟩

end Record

/-- A sum does not go back if each counter is read again. -/
theorem total_le_of_readAgain {earlier later : List (Reading κ)}
    (distinct : (earlier.map Prod.fst).Nodup)
    (again : ∀ reading ∈ earlier, reading.1 ∈ later.map Prod.fst)
    (notBack : ∀ reading ∈ earlier, ∀ next ∈ later, NotBack reading next) :
    total earlier ≤ total later := by
  induction earlier generalizing later with
  | nil => exact Nat.zero_le _
  | cons reading rest induction =>
      rw [List.map_cons, List.nodup_cons] at distinct
      obtain ⟨next, member, same⟩ :=
        List.mem_map.mp (again reading List.mem_cons_self)
      obtain ⟨front, back, rfl⟩ := List.append_of_mem member
      have less : total rest ≤ total (front ++ back) := by
        refine induction distinct.2 (fun other inRest => ?_)
          fun other inRest after inLater =>
            notBack other (List.mem_cons_of_mem _ inRest) after ?_
        · have isThere := again other (List.mem_cons_of_mem _ inRest)
          rw [List.map_append, List.map_cons, List.mem_append,
            List.mem_cons] at isThere
          rw [List.map_append, List.mem_append]
          rcases isThere with inFront | isNext | inBack
          · exact Or.inl inFront
          · refine absurd ?_ distinct.1
            rw [← same, ← isNext]
            exact List.mem_map_of_mem inRest
          · exact Or.inr inBack
        · exact List.mem_append.mpr
            ((List.mem_append.mp inLater).imp_right (List.mem_cons_of_mem _))
      have here := notBack reading List.mem_cons_self next member same.symm
      simp only [total, List.map_append, List.map_cons, List.sum_append,
        List.sum_cons] at less ⊢
      omega

section Lost

variable [DecidableEq κ] {earlier later : List (Reading κ)}

/-- The readings of counters that are read again, and of those that are
not. -/
def readAgain (earlier later : List (Reading κ)) : List (Reading κ) :=
  earlier.filter fun reading => reading.1 ∈ later.map Prod.fst

def notReadAgain (earlier later : List (Reading κ)) : List (Reading κ) :=
  earlier.filter fun reading => reading.1 ∉ later.map Prod.fst

theorem total_split (earlier later : List (Reading κ)) :
    total earlier =
      total (readAgain earlier later) + total (notReadAgain earlier later) := by
  simp only [readAgain, notReadAgain]
  induction earlier with
  | nil => rfl
  | cons reading rest induction =>
      rw [total_cons, induction]
      by_cases again : reading.1 ∈ later.map Prod.fst
      · rw [List.filter_cons_of_pos (by simpa using again),
          List.filter_cons_of_neg (by simpa using again), total_cons,
          Nat.add_assoc]
      · rw [List.filter_cons_of_neg (by simpa using again),
          List.filter_cons_of_pos (by simpa using again), total_cons,
          Nat.add_left_comm]

/-- A sum does not go back if and only if what is not read again is made up by
what has been counted since. -/
theorem total_le_iff (distinct : (earlier.map Prod.fst).Nodup)
    (notBack : ∀ reading ∈ earlier, ∀ next ∈ later, NotBack reading next) :
    total earlier ≤ total later ↔
      total (notReadAgain earlier later) ≤
        total later - total (readAgain earlier later) := by
  have kept : total (readAgain earlier later) ≤ total later := by
    refine total_le_of_readAgain ?_ ?_ ?_
    · exact distinct.sublist (List.filter_sublist.map Prod.fst)
    · intro reading member
      exact of_decide_eq_true (List.mem_filter.mp member).2
    · intro reading member
      exact notBack reading (List.mem_filter.mp member).1
  rw [total_split earlier later]
  omega

end Lost

/-! ## Outputs of a run -/

section Outputs

variable {σ τ ο : Type}

/-- The outputs of a run. -/
def outputs (step : σ → τ → σ × ο) : σ → List τ → List ο
  | _, [] => []
  | state, event :: rest =>
      (step state event).2 :: outputs step (step state event).1 rest

/-- A field that shows a measure of the state does not go back if the measure
does not. -/
theorem outputs_notBack {step : σ → τ → σ × ο} {field : ο → Option Nat}
    (measure : σ → Nat) (invariant : σ → List τ → Prop)
    (grows : ∀ state event rest, invariant state (event :: rest) →
      measure state ≤ measure (step state event).1 ∧
        invariant (step state event).1 rest)
    (shown : ∀ state event rest, invariant state (event :: rest) →
      ∀ value ∈ field (step state event).2,
        value = measure (step state event).1)
    {state : σ} {events : List τ} (holds : invariant state events) :
    (∀ value ∈ (outputs step state events).filterMap field,
        measure state ≤ value) ∧
      ((outputs step state events).filterMap field).Pairwise (· ≤ ·) := by
  induction events generalizing state with
  | nil => exact ⟨nofun, List.Pairwise.nil⟩
  | cons event rest induction =>
      obtain ⟨grown, next⟩ := grows state event rest holds
      obtain ⟨above, ordered⟩ := induction next
      have higher : ∀ value ∈
          (outputs step (step state event).1 rest).filterMap field,
          measure state ≤ value := fun value member =>
        Nat.le_trans grown (above value member)
      rw [outputs, List.filterMap_cons]
      split
      · exact ⟨higher, ordered⟩
      · next value isShown =>
          have isMeasure := shown state event rest holds value isShown
          refine ⟨List.forall_mem_cons.mpr ⟨isMeasure ▸ grown, higher⟩,
            List.pairwise_cons.mpr ⟨?_, ordered⟩⟩
          exact isMeasure ▸ above

/-- A field that depends on the event only. -/
theorem filterMap_outputs {α : Type} {step : σ → τ → σ × ο}
    {field : ο → Option α} (ofEvent : τ → Option α)
    (same : ∀ state event, field (step state event).2 = ofEvent event)
    (state : σ) (events : List τ) :
    (outputs step state events).filterMap field = events.filterMap ofEvent := by
  induction events generalizing state with
  | nil => rfl
  | cons event rest induction =>
      rw [outputs, List.filterMap_cons, List.filterMap_cons, same, induction]

end Outputs

end Counters
