import Mathlib.Data.List.Sort
import Mathlib.Order.Basic

/-!
# Sorting by a key

A stable sort keeps the order of items with equal keys.  The items of a kind
then come out in their original order if and only if their keys were in order.
-/

namespace StableSort

variable {α κ : Type} [LinearOrder κ]

/-- A stable sort of the items by their keys. -/
def sortBy (key : α → κ) (items : List α) : List α :=
  items.insertionSort fun left right => key left ≤ key right

theorem sortBy_perm (key : α → κ) (items : List α) :
    (sortBy key items).Perm items :=
  List.perm_insertionSort _ items

theorem sortBy_sorted (key : α → κ) (items : List α) :
    (sortBy key items).Pairwise fun left right => key left ≤ key right := by
  have : Std.Total fun left right : α => key left ≤ key right :=
    ⟨fun left right => le_total (key left) (key right)⟩
  have : IsTrans α fun left right => key left ≤ key right :=
    ⟨fun _ _ _ => le_trans⟩
  exact List.pairwise_insertionSort _ items

/--
The items of a kind are in their original order after the sort if and only if
their keys were in order before it.
-/
theorem filter_sortBy_iff (key : α → κ) (kind : α → Bool) (items : List α) :
    (sortBy key items).filter kind = items.filter kind ↔
      (items.filter kind).Pairwise fun left right =>
        key left ≤ key right := by
  constructor
  · intro same
    rw [← same]
    exact (sortBy_sorted key items).filter kind
  · intro sorted
    have inside : (items.filter kind).Sublist (sortBy key items) :=
      List.sublist_insertionSort sorted (List.filter_sublist)
    have kept := inside.filter kind
    rw [List.filter_filter] at kept
    simp only [Bool.and_self] at kept
    have length := ((sortBy_perm key items).filter kind).length_eq
    exact (kept.eq_of_length length.symm).symm

end StableSort
