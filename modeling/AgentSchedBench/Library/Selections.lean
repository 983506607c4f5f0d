import Mathlib.Data.List.Basic

/-!
# Selections

A list of what some of the items give. If one selection gives of each item
what another one gives, or nothing, then both are the same only if no item is
left out.
-/

namespace Selections

variable {Item Given : Type*} {select whole : Item → Option Given}
  {items : List Item}

/-- The selection of less is no longer. -/
theorem length_le (less : ∀ item ∈ items,
    select item = none ∨ select item = whole item) :
    (items.filterMap select).length ≤ (items.filterMap whole).length := by
  induction items with
  | nil => exact Nat.le_refl 0
  | cons item items induction =>
      obtain ⟨first, rest⟩ := List.forall_mem_cons.mp less
      have le := induction rest
      rw [List.filterMap_cons, List.filterMap_cons]
      rcases first with nothing | same
      · rw [nothing]
        cases whole item with
        | none => exact le
        | some given => exact Nat.le_succ_of_le le
      · rw [same]
        cases whole item with
        | none => exact le
        | some given => exact Nat.succ_le_succ le

theorem filterMap_eq_iff (less : ∀ item ∈ items,
    select item = none ∨ select item = whole item) :
    items.filterMap select = items.filterMap whole ↔
      ∀ item ∈ items, select item = whole item := by
  induction items with
  | nil => exact iff_of_true rfl (List.forall_mem_nil _)
  | cons item items induction =>
      obtain ⟨first, rest⟩ := List.forall_mem_cons.mp less
      have le := length_le rest
      rw [List.forall_mem_cons, ← induction rest, List.filterMap_cons,
        List.filterMap_cons]
      rcases first with nothing | same
      · rw [nothing]
        dsimp only
        cases whole item with
        | none => exact (and_iff_right rfl).symm
        | some given =>
            refine iff_of_false (fun same => ?_) (fun both => nomatch both.1)
            have longer := congrArg List.length same
            rw [List.length_cons] at longer
            omega
      · rw [same, and_iff_right rfl]
        cases whole item with
        | none => exact Iff.rfl
        | some given => exact List.cons_inj_right given

end Selections
