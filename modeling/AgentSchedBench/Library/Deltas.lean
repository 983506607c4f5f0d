import Mathlib.Data.List.Infix

/-!
# Differences by length

Of each value in a list only the items behind the length of the value before
are written.  What is written in the end is the last value if and only if no
value is shorter than the one before, and each adds what the last value has
at that place.
-/

namespace Deltas

variable {α : Type}

/-- What is written of the values that follow one. -/
def deltas (before : List α) : List (List α) → List α
  | [] => []
  | value :: rest => value.drop before.length ++ deltas value rest

/-- The last of a value and those that follow it. -/
def lastValue (before : List α) : List (List α) → List α
  | [] => before
  | value :: rest => lastValue value rest

/-- No value is shorter than the one before, and each adds what `final` has at
that place. -/
def Adds (final before : List α) : List (List α) → Prop
  | [] => True
  | value :: rest =>
      before.length ≤ value.length ∧
        value.drop before.length <+: final.drop before.length ∧
        Adds final value rest

/-- The last value is not longer than what is written. -/
theorem length_lastValue_le (before : List α) (values : List (List α)) :
    (lastValue before values).length ≤
      before.length + (deltas before values).length := by
  induction values generalizing before with
  | nil => exact Nat.le_refl _
  | cons value rest induction =>
      have shorter := induction value
      rw [lastValue, deltas, List.length_append, List.length_drop]
      omega

theorem append_deltas_eq_iff {written before final : List α}
    {values : List (List α)} (length : written.length = before.length)
    (isLast : lastValue before values = final) :
    written ++ deltas before values = final ↔
      written <+: final ∧ Adds final before values := by
  induction values generalizing written before with
  | nil =>
      rw [deltas, List.append_nil, Adds, and_true]
      refine ⟨fun same => same ▸ List.prefix_rfl, fun isPrefix => ?_⟩
      refine isPrefix.eq_of_length ?_
      rw [length, ← isLast, lastValue]
  | cons value rest induction =>
      rw [deltas, Adds, ← List.append_assoc]
      have shorter := length_lastValue_le value rest
      rw [show lastValue value rest = final from isLast] at shorter
      constructor
      · intro same
        have total := congrArg List.length same
        rw [List.length_append, List.length_append, List.length_drop] at total
        have notShorter : before.length ≤ value.length := by omega
        obtain ⟨isPrefix, adds⟩ :=
          (induction (by rw [List.length_append, List.length_drop]; omega)
            isLast).mp same
        refine ⟨(List.prefix_append _ _).trans isPrefix, notShorter, ?_, adds⟩
        obtain ⟨others, isFinal⟩ := isPrefix
        rw [← isFinal, List.append_assoc, ← length, List.drop_left]
        exact List.prefix_append _ _
      · rintro ⟨⟨others, isFinal⟩, notShorter, part, adds⟩
        refine (induction ?_ isLast).mpr ⟨?_, adds⟩
        · rw [List.length_append, List.length_drop]
          omega
        · rw [← isFinal, ← length, List.drop_left] at part
          rw [← isFinal, ← length]
          exact (List.prefix_append_right_inj written).mpr part

end Deltas
