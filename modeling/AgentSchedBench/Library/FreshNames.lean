import Mathlib.Data.List.Nodup
import Mathlib.Data.List.Perm.Subperm
import Mathlib.Data.List.Range

/-!
# Names that are free

Numbered names are tried one after the other until one is free. As many tries
as there are names taken, and one more, are enough.
-/

namespace FreshNames

variable {α : Type} [DecidableEq α] {taken : List α} {name : Nat → α}

/-- The first free name from a number on, if it is found in so many tries. -/
def firstFree (taken : List α) (name : Nat → α) : Nat → Nat → Option α
  | 0, _ => none
  | fuel + 1, number =>
      if name number ∈ taken then firstFree taken name fuel (number + 1)
      else some (name number)

/-- What is found is free. -/
theorem firstFree_free {fuel number : Nat} {found : α}
    (isFound : firstFree taken name fuel number = some found) :
    found ∉ taken := by
  induction fuel generalizing number with
  | zero => cases isFound
  | succ fuel induction =>
      rw [firstFree] at isFound
      split at isFound
      · exact induction isFound
      · next free =>
          cases isFound
          exact free

/-- More tries find the same name. -/
theorem firstFree_mono {fuel more number : Nat} {found : α}
    (isFound : firstFree taken name fuel number = some found)
    (le : fuel ≤ more) : firstFree taken name more number = some found := by
  induction fuel generalizing number more with
  | zero => cases isFound
  | succ fuel induction =>
      obtain ⟨more, rfl⟩ := Nat.exists_eq_add_of_le' (Nat.zero_lt_of_lt le)
      rw [firstFree] at isFound ⊢
      split
      · next isTaken =>
          rw [if_pos isTaken] at isFound
          exact induction isFound (Nat.le_of_succ_le_succ le)
      · next free => rwa [if_neg free] at isFound

/-- If nothing is found, each name that has been tried is taken. -/
theorem taken_of_firstFree {fuel number : Nat}
    (notFound : firstFree taken name fuel number = none) :
    ∀ tried ∈ List.range' number fuel, name tried ∈ taken := by
  induction fuel generalizing number with
  | zero => nofun
  | succ fuel induction =>
      rw [firstFree] at notFound
      split at notFound
      · next isTaken =>
          rw [List.range'_succ, List.forall_mem_cons]
          exact ⟨isTaken, induction notFound⟩
      · cases notFound

/-- A name is found if more are tried than are taken. -/
theorem exists_firstFree (injective : Function.Injective name) {fuel : Nat}
    (enough : taken.length < fuel) (number : Nat) :
    ∃ found, firstFree taken name fuel number = some found := by
  cases notFound : firstFree taken name fuel number with
  | some found => exact ⟨found, rfl⟩
  | none =>
      have allTaken := taken_of_firstFree notFound
      have distinct : ((List.range' number fuel).map name).Nodup :=
        List.Nodup.map injective List.nodup_range'
      have subset : (List.range' number fuel).map name ⊆ taken := by
        intro found member
        obtain ⟨tried, isTried, rfl⟩ := List.mem_map.mp member
        exact allTaken tried isTried
      have le := (List.subperm_of_subset distinct subset).length_le
      rw [List.length_map, List.length_range'] at le
      exact absurd le (Nat.not_le_of_lt enough)

end FreshNames
