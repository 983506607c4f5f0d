import Mathlib.Order.Bounds.Basic
import Mathlib.Data.List.Induction

/-!
# Names that are declared before they are used

Items give names and need them.  A list is closed if each name that an item
needs is given by an item before it.  The closed ends of a list have a longest
one, which is found in one pass.
-/

namespace Declared

variable {α ι : Type} (gives : α → List ι) (needs : α → Option ι)

/-- Some item gives the name. -/
def Given (items : List α) (name : ι) : Prop :=
  ∃ item ∈ items, name ∈ gives item

/-- Each name that is needed has been given. -/
def Closed (items : List α) : Prop :=
  ∀ before item after, items = before ++ item :: after →
    ∀ name ∈ needs item, Given gives before name

variable {gives needs} {items : List α} {item : α}

theorem Given.mono {others : List α} {name : ι}
    (given : Given gives items name) (subset : items ⊆ others) :
    Given gives others name := by
  obtain ⟨giver, member, isGiven⟩ := given
  exact ⟨giver, subset member, isGiven⟩

theorem given_append_singleton {name : ι} :
    Given gives (items ++ [item]) name ↔
      Given gives items name ∨ name ∈ gives item := by
  constructor
  · rintro ⟨giver, member, isGiven⟩
    rcases List.mem_append.mp member with old | new
    · exact .inl ⟨giver, old, isGiven⟩
    · rw [List.mem_singleton.mp new] at isGiven
      exact .inr isGiven
  · rintro (given | isGiven)
    · exact given.mono (List.subset_append_left _ _)
    · exact ⟨item, by simp, isGiven⟩

theorem closed_nil : Closed gives needs [] := by
  intro before item after isNil
  simp at isNil

/-- A list is closed if its front is and its last item has what it needs. -/
theorem closed_append_singleton :
    Closed gives needs (items ++ [item]) ↔
      Closed gives needs items ∧
        ∀ name ∈ needs item, Given gives items name := by
  constructor
  · intro closed
    constructor
    · intro before other after split
      refine closed before other (after ++ [item]) ?_
      rw [split, List.append_assoc, List.cons_append]
    · exact closed items item [] rfl
  · rintro ⟨closed, needed⟩ before other after split
    rcases List.eq_nil_or_concat after with rfl | ⟨front, last, rfl⟩
    · obtain ⟨rfl, isLast⟩ := List.append_inj' split rfl
      cases isLast
      exact needed
    · rw [List.concat_eq_append, ← List.cons_append, ← List.append_assoc]
        at split
      exact closed before other front (List.append_inj' split rfl).1

/-- What an item gives and needs is all that matters. -/
theorem closed_map {change : α → α}
    (sameGiven : ∀ item, gives (change item) = gives item)
    (sameNeeded : ∀ item, needs (change item) = needs item) :
    Closed gives needs (items.map change) ↔ Closed gives needs items := by
  have given (items : List α) (name : ι) :
      Given gives (items.map change) name ↔ Given gives items name := by
    simp [Given, sameGiven]
  induction items using List.reverseRec with
  | nil => exact Iff.rfl
  | append_singleton items item induction =>
      rw [List.map_append, List.map_singleton, closed_append_singleton,
        closed_append_singleton, sameNeeded]
      refine and_congr induction ?_
      simp only [given]

/-! ## The least start -/

/-- The least position from which on the list is closed. -/
def IsStart (gives : α → List ι) (needs : α → Option ι) (items : List α)
    (start : Nat) : Prop :=
  IsLeast {position | Closed gives needs (items.drop position)} start

theorem isStart_nil : IsStart gives needs [] 0 :=
  ⟨closed_nil, fun _ _ => Nat.zero_le _⟩

variable {start : Nat}

/-- An item that has what it needs leaves the start. -/
theorem IsStart.keep (isStart : IsStart gives needs items start)
    (inside : start ≤ items.length)
    (needed : ∀ name ∈ needs item, Given gives (items.drop start) name) :
    IsStart gives needs (items ++ [item]) start := by
  constructor
  · rw [Set.mem_ofPred_eq, List.drop_append_of_le_length inside,
      closed_append_singleton]
    exact ⟨isStart.1, needed⟩
  · intro position closed
    by_cases before : position ≤ items.length
    · rw [Set.mem_ofPred_eq, List.drop_append_of_le_length before,
        closed_append_singleton] at closed
      exact isStart.2 closed.1
    · exact inside.trans (Nat.le_of_not_le before)

/-- Behind an item that lacks what it needs the list starts anew. -/
theorem IsStart.restart (isStart : IsStart gives needs items start)
    {name : ι} (isNeeded : name ∈ needs item)
    (lacking : ¬ Given gives (items.drop start) name) :
    IsStart gives needs (items ++ [item]) (items.length + 1) := by
  constructor
  · rw [Set.mem_ofPred_eq, List.drop_of_length_le (by simp)]
    exact closed_nil
  · intro position closed
    by_contra early
    have before : position ≤ items.length := by omega
    rw [Set.mem_ofPred_eq, List.drop_append_of_le_length before,
      closed_append_singleton] at closed
    apply lacking
    exact (closed.2 name isNeeded).mono
      (List.drop_subset_drop_left items (isStart.2 closed.1))

end Declared
