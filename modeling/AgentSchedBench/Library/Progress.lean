import Mathlib.Algebra.Order.Archimedean.Basic
import Mathlib.Order.Monotone.Basic
import Mathlib.Tactic.Linarith

/-!
# Bounded progress

What never goes back and stays below a bound makes a step of more than a given
length only a finite number of times.
-/

namespace Progress

variable {K : Type} [Field K] [LinearOrder K] [IsStrictOrderedRing K]

/-- Steps of more than a given length that are made again and again add up. -/
theorem exists_le_of_steps {f : ℕ → K} {step : K} (mono : Monotone f)
    (again : ∀ n, ∃ m, n ≤ m ∧ f m + step < f (m + 1)) (count : ℕ) :
    ∃ n, f 0 + count * step ≤ f n := by
  induction count with
  | zero => exact ⟨0, by simp⟩
  | succ count induction =>
      obtain ⟨n, reached⟩ := induction
      obtain ⟨m, later, long⟩ := again n
      refine ⟨m + 1, ?_⟩
      calc
        f 0 + (count + 1 : ℕ) * step = f 0 + count * step + step := by
          rw [Nat.cast_add_one, add_one_mul, add_assoc]
        _ ≤ f m + step := by
          have := reached.trans (mono later)
          linarith
        _ ≤ f (m + 1) := long.le

/-- From some point on no step is longer. -/
theorem exists_forall_step_le [Archimedean K] {f : ℕ → K} {bound step : K}
    (mono : Monotone f) (bounded : ∀ n, f n ≤ bound) (positive : 0 < step) :
    ∃ n, ∀ m, n ≤ m → f (m + 1) ≤ f m + step := by
  by_contra never
  push Not at never
  obtain ⟨count, above⟩ := exists_nat_gt ((bound - f 0) / step)
  obtain ⟨n, reached⟩ := exists_le_of_steps mono never count
  rw [div_lt_iff₀ positive] at above
  have := bounded n
  linarith

end Progress
