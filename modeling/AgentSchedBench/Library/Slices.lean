import Mathlib

/-!
# A list in slices

A list is cut at increasing positions.  The slices between the cuts are the
list again, up to the last cut.
-/

namespace Slices

variable {α : Type}

/-- `items[start:stop]` -/
def slice (items : List α) (start stop : Nat) : List α :=
  (items.drop start).take (stop - start)

theorem length_slice {items : List α} {start stop : Nat}
    (inside : stop ≤ items.length) :
    (slice items start stop).length = stop - start := by
  rw [slice, List.length_take, List.length_drop]
  omega

theorem length_slice_le (items : List α) (start stop : Nat) :
    (slice items start stop).length ≤ stop - start :=
  List.length_take_le _ _

theorem slice_ne_nil {items : List α} {start stop : Nat}
    (room : start < stop) (inside : start < items.length) :
    slice items start stop ≠ [] := by
  rw [← List.length_pos_iff, slice, List.length_take, List.length_drop]
  omega

/-- Items behind the stop do not matter. -/
theorem slice_append {items : List α} {stop : Nat}
    (inside : stop ≤ items.length) (start : Nat) (more : List α) :
    slice (items ++ more) start stop = slice items start stop := by
  by_cases ordered : start ≤ stop
  · rw [slice, slice, List.drop_append_of_le_length (Nat.le_trans ordered inside),
      List.take_append_of_le_length]
    rw [List.length_drop]
    omega
  · rw [slice, slice, Nat.sub_eq_zero_of_le (Nat.le_of_not_le ordered),
      List.take_zero, List.take_zero]

theorem slice_append_slice (items : List α) {start middle stop : Nat}
    (first : start ≤ middle) (second : middle ≤ stop) :
    slice items start middle ++ slice items middle stop =
      slice items start stop := by
  have split : stop - start = (middle - start) + (stop - middle) := by omega
  rw [slice, slice, slice, split, List.take_add, List.drop_drop,
    Nat.add_sub_cancel' first]

theorem take_append_slice (items : List α) {start stop : Nat}
    (ordered : start ≤ stop) :
    items.take start ++ slice items start stop = items.take stop := by
  rw [slice, ← List.take_add, Nat.add_sub_cancel' ordered]

/-- The slices between the first cuts. -/
def slices (items : List α) (cut : Nat → Nat) (count : Nat) :
    List (List α) :=
  (List.range count).map fun index =>
    slice items (cut index) (cut (index + 1))

theorem slices_succ (items : List α) (cut : Nat → Nat) (count : Nat) :
    slices items cut (count + 1) =
      slices items cut count ++
        [slice items (cut count) (cut (count + 1))] := by
  rw [slices, List.range_succ, List.map_append]
  rfl

theorem mem_slices {items : List α} {cut : Nat → Nat} {count : Nat}
    {part : List α} :
    part ∈ slices items cut count ↔
      ∃ index < count, slice items (cut index) (cut (index + 1)) = part := by
  rw [slices, List.mem_map]
  simp only [List.mem_range]

/-- Nothing is lost between the cuts. -/
theorem flatten_slices (items : List α) {cut : Nat → Nat}
    (first : cut 0 = 0) (ordered : ∀ index, cut index ≤ cut (index + 1))
    (count : Nat) :
    (slices items cut count).flatten = items.take (cut count) := by
  induction count with
  | zero => rw [first, List.take_zero, slices, List.range_zero]; rfl
  | succ count induction =>
      rw [slices_succ, List.flatten_append, induction, List.flatten_singleton]
      exact take_append_slice items (ordered count)

/-- A loop that takes slices of given sizes, one after the other. -/
theorem foldl_slices (items : List α) (size : Nat → Nat) (count : Nat) :
    (List.range count).foldl
        (fun (state : List (List α) × Nat) index =>
          (state.1 ++ [slice items state.2 (state.2 + size index)],
            state.2 + size index))
        ([], 0) =
      (slices items (fun index => ((List.range index).map size).sum) count,
        ((List.range count).map size).sum) := by
  induction count with
  | zero => rfl
  | succ count induction =>
      have next :
          ((List.range (count + 1)).map size).sum =
            ((List.range count).map size).sum + size count := by
        rw [List.range_succ, List.map_append, List.sum_append]
        simp
      rw [List.range_succ, List.foldl_append, induction, slices_succ,
        ← List.range_succ, next]
      rfl

end Slices
