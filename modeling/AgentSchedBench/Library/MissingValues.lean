import Mathlib

/-!
# Values that may be missing

Of a series of values, each of which may be missing, the change from one to the
next is seen where both are there.  For values that do not go down, these
changes sum up to the whole one if and only if no change was made while the
value was missing.
-/

namespace MissingValues

variable {α : Type}

/-- The change from a value to the next one, if it is seen. -/
def change [Zero α] [Sub α] : Option α → Option α → α
  | some previous, some current => current - previous
  | _, _ => 0

/-- The sum of the changes that are seen. -/
def seenChange [Zero α] [Add α] [Sub α] (previous : Option α) :
    List (Option α) → α
  | [] => 0
  | current :: rest => change previous current + seenChange current rest

/-- From a last value on, which is missing now or not: a value that is missing
comes back as it was. -/
def StillFrom (last : α) (missing : Bool) : List (Option α) → Prop
  | [] => True
  | none :: rest => StillFrom last true rest
  | some value :: rest =>
      (missing = true → last = value) ∧ StillFrom value false rest

/-- A value that is missing comes back as it was. -/
def Still : List (Option α) → Prop
  | [] => True
  | none :: rest => Still rest
  | some value :: rest => StillFrom value false rest

section Ordered

variable [AddCommGroup α] [PartialOrder α] [IsOrderedAddMonoid α]

/-- The change up to the last value. -/
def wholeChange (first : α) (values : List (Option α)) : α :=
  values.reduceOption.getLast?.getD first - first

omit [PartialOrder α] [IsOrderedAddMonoid α] in
theorem wholeChange_some (first value : α) (rest : List (Option α)) :
    wholeChange first (some value :: rest) =
      (value - first) + wholeChange value rest := by
  rw [wholeChange, wholeChange, List.reduceOption_cons_of_some, List.getLast?_cons,
    Option.getD_some]
  abel

omit [PartialOrder α] [IsOrderedAddMonoid α] in
theorem wholeChange_none (first : α) (rest : List (Option α)) :
    wholeChange first (none :: rest) = wholeChange first rest := by
  rw [wholeChange, List.reduceOption_cons_of_none, wholeChange]

/-- What is seen is at most the whole change, and all of it if and only if the
value was still while it was missing. -/
theorem seenChange_le_wholeChange (missing : Bool) {last : α}
    {values : List (Option α)}
    (sorted : (last :: values.reduceOption).Pairwise (· ≤ ·)) :
    seenChange (if missing then none else some last) values ≤
        wholeChange last values ∧
      (seenChange (if missing then none else some last) values =
          wholeChange last values ↔
        StillFrom last missing values) := by
  induction values generalizing missing last with
  | nil => simp [seenChange, wholeChange, StillFrom]
  | cons value rest induction =>
      cases value with
      | none =>
          have noChange : change (if missing then none else some last) none = 0 := by
            cases missing <;> rfl
          rw [List.reduceOption_cons_of_none] at sorted
          rw [seenChange, noChange, zero_add, wholeChange_none, StillFrom]
          exact induction true sorted
      | some value =>
          rw [List.reduceOption_cons_of_some, List.pairwise_cons] at sorted
          obtain ⟨atMost, equal⟩ := induction false sorted.2
          rw [if_neg Bool.false_ne_true] at atMost equal
          have up : 0 ≤ value - last :=
            sub_nonneg.mpr (sorted.1 value List.mem_cons_self)
          rw [seenChange, wholeChange_some, StillFrom, ← equal]
          cases missing with
          | false =>
              refine ⟨add_le_add_right atMost _, ?_⟩
              rw [if_neg Bool.false_ne_true, change, add_right_inj]
              exact ⟨fun same => ⟨nofun, same⟩, fun same => same.2⟩
          | true =>
              have noChange : change none (some value) = 0 := rfl
              rw [if_pos rfl, noChange, zero_add]
              refine ⟨atMost.trans (le_add_of_nonneg_left up), ?_, ?_⟩
              · intro same
                have down : value - last ≤ 0 := by
                  rw [same] at atMost
                  exact nonpos_of_add_le_left atMost
                have still := le_antisymm down up
                rw [still, zero_add] at same
                exact ⟨fun _ => (sub_eq_zero.mp still).symm, same⟩
              · rintro ⟨back, same⟩
                rw [back rfl, sub_self, zero_add]
                exact same

/-- The seen changes sum up to the difference of the last value and the first
one if and only if the value was still while it was missing. -/
theorem seenChange_eq_iff {first : Option α} {values : List (Option α)}
    (sorted : (first :: values).reduceOption.Pairwise (· ≤ ·)) :
    (∀ bottom ∈ (first :: values).reduceOption.head?,
        ∀ top ∈ (first :: values).reduceOption.getLast?,
          seenChange first values = top - bottom) ↔
      Still (first :: values) := by
  induction values generalizing first with
  | nil =>
      cases first with
      | none => exact ⟨fun _ => trivial, fun _ => nofun⟩
      | some value =>
          refine ⟨fun _ => trivial, ?_⟩
          rintro - bottom ⟨⟩ top ⟨⟩
          exact (sub_self value).symm
  | cons value rest induction =>
      cases first with
      | none =>
          have noChange : change none value = 0 := by
            cases value <;> rfl
          rw [List.reduceOption_cons_of_none] at sorted ⊢
          rw [seenChange, noChange, zero_add, Still]
          exact induction sorted
      | some first =>
          rw [List.reduceOption_cons_of_some] at sorted ⊢
          rw [Still, ← (seenChange_le_wholeChange false sorted).2,
            if_neg Bool.false_ne_true, wholeChange, List.head?_cons,
            List.getLast?_cons]
          simp

end Ordered

end MissingValues
