import Mathlib.Logic.Relation
import Mathlib.Logic.Function.Basic

/-!
# A store behind a lock

Processes share a store.  All of them read it at any time, and the one that
holds the lock writes it; an environment writes it too.  A process that waits
meets one condition and the holder another.  They hold in each reachable state
if the writes keep both conditions, and the other moves the one they lead to.
-/

namespace Guarded

/-- What may happen to the store and to a process. -/
structure Moves (ι σ π : Type) where
  environment : σ → σ → Prop
  outside : ι → σ → π → π → Prop
  acquires : ι → π → π → Prop
  inside : ι → σ → π → σ → π → Prop
  releases : ι → π → π → Prop

/-- The store, the holder of the lock and the processes. -/
structure State (ι σ π : Type) where
  shared : σ
  holder : Option ι
  processes : ι → π

variable {ι σ π : Type} [DecidableEq ι]

inductive Step (moves : Moves ι σ π) :
    State ι σ π → State ι σ π → Prop where
  | environment {shared later : σ} {holder : Option ι} {processes : ι → π}
      (change : moves.environment shared later) :
      Step moves ⟨shared, holder, processes⟩ ⟨later, holder, processes⟩
  | outside {shared : σ} {holder : Option ι} {processes : ι → π} {next : π}
      (id : ι) (waits : holder ≠ some id)
      (move : moves.outside id shared (processes id) next) :
      Step moves ⟨shared, holder, processes⟩
        ⟨shared, holder, Function.update processes id next⟩
  | acquires {shared : σ} {processes : ι → π} {next : π} (id : ι)
      (move : moves.acquires id (processes id) next) :
      Step moves ⟨shared, none, processes⟩
        ⟨shared, some id, Function.update processes id next⟩
  | inside {shared later : σ} {processes : ι → π} {next : π} (id : ι)
      (move : moves.inside id shared (processes id) later next) :
      Step moves ⟨shared, some id, processes⟩
        ⟨later, some id, Function.update processes id next⟩
  | releases {shared : σ} {processes : ι → π} {next : π} (id : ι)
      (move : moves.releases id (processes id) next) :
      Step moves ⟨shared, some id, processes⟩
        ⟨shared, none, Function.update processes id next⟩

def Reachable (moves : Moves ι σ π) (start state : State ι σ π) : Prop :=
  Relation.ReflTransGen (Step moves) start state

/-- Conditions on the store, on those who wait and on the holder. -/
structure Conditions (ι σ π : Type) where
  sound : σ → Prop
  waits : ι → σ → π → Prop
  works : ι → σ → π → Prop

namespace Conditions

variable (conditions : Conditions ι σ π)

/-- What the process meets, as it holds the lock or waits. -/
def OfProcess (state : State ι σ π) (id : ι) : Prop :=
  (state.holder = some id →
      conditions.works id state.shared (state.processes id)) ∧
    (state.holder ≠ some id →
      conditions.waits id state.shared (state.processes id))

structure Hold (state : State ι σ π) : Prop where
  sound : conditions.sound state.shared
  processes : ∀ id, conditions.OfProcess state id

/-- Each move keeps the conditions. -/
structure Kept (moves : Moves ι σ π) : Prop where
  environment :
    ∀ {shared later}, conditions.sound shared →
      moves.environment shared later → conditions.sound later
  environmentWaits :
    ∀ {shared later id process}, conditions.sound shared →
      moves.environment shared later → conditions.waits id shared process →
        conditions.waits id later process
  environmentWorks :
    ∀ {shared later id process}, conditions.sound shared →
      moves.environment shared later → conditions.works id shared process →
        conditions.works id later process
  outside :
    ∀ {shared id process next}, conditions.sound shared →
      conditions.waits id shared process →
        moves.outside id shared process next →
          conditions.waits id shared next
  acquires :
    ∀ {shared id process next}, conditions.waits id shared process →
      moves.acquires id process next → conditions.works id shared next
  inside :
    ∀ {shared later id process next}, conditions.sound shared →
      conditions.works id shared process →
        moves.inside id shared process later next →
          conditions.sound later ∧ conditions.works id later next
  insideWaits :
    ∀ {shared later id process next other waiting},
      conditions.sound shared → conditions.works id shared process →
        moves.inside id shared process later next →
          conditions.waits other shared waiting →
            conditions.waits other later waiting
  releases :
    ∀ {shared id process next}, conditions.works id shared process →
      moves.releases id process next → conditions.waits id shared next

end Conditions

section Steps

variable {conditions : Conditions ι σ π} {moves : Moves ι σ π}
variable {before after : State ι σ π}

/-- One step keeps the conditions. -/
theorem Conditions.Hold.step (kept : conditions.Kept moves)
    (hold : conditions.Hold before) (step : Step moves before after) :
    conditions.Hold after := by
  obtain ⟨sound, processes⟩ := hold
  cases step with
  | environment change =>
      refine ⟨kept.environment sound change, fun id => ⟨?_, ?_⟩⟩
      · intro holds
        exact kept.environmentWorks sound change ((processes id).1 holds)
      · intro waits
        exact kept.environmentWaits sound change ((processes id).2 waits)
  | outside id waits move =>
      refine ⟨sound, fun other => ?_⟩
      by_cases same : other = id
      · subst same
        refine ⟨fun holds => absurd holds waits, fun _ => ?_⟩
        simpa using kept.outside sound ((processes other).2 waits) move
      · simpa [Conditions.OfProcess, same] using processes other
  | acquires id move =>
      refine ⟨sound, fun other => ?_⟩
      by_cases same : other = id
      · subst same
        refine ⟨fun _ => ?_, fun waits => absurd rfl waits⟩
        simpa using kept.acquires ((processes other).2 nofun) move
      · refine ⟨fun holds => ?_, fun _ => ?_⟩
        · exact absurd (Option.some.inj holds).symm same
        · simpa [same] using (processes other).2 nofun
  | inside id move =>
      have works := (processes id).1 rfl
      obtain ⟨soundLater, worksLater⟩ := kept.inside sound works move
      refine ⟨soundLater, fun other => ?_⟩
      by_cases same : other = id
      · subst same
        refine ⟨fun _ => ?_, fun waits => absurd rfl waits⟩
        simpa using worksLater
      · refine ⟨fun holds => ?_, fun waits => ?_⟩
        · exact absurd (Option.some.inj holds).symm same
        · simpa [same] using
            kept.insideWaits sound works move ((processes other).2 waits)
  | releases id move =>
      refine ⟨sound, fun other => ⟨nofun, fun _ => ?_⟩⟩
      by_cases same : other = id
      · subst same
        simpa using kept.releases ((processes other).1 rfl) move
      · have waits : some id ≠ some other :=
          fun holds => same (Option.some.inj holds).symm
        simpa [same] using (processes other).2 waits

/-- Only the environment and the holder of the lock write the store. -/
theorem Conditions.Hold.writes (hold : conditions.Hold before)
    (step : Step moves before after) :
    after.shared = before.shared ∨
      moves.environment before.shared after.shared ∨
        ∃ id process next,
          conditions.works id before.shared process ∧
            moves.inside id before.shared process after.shared next := by
  cases step with
  | environment change => exact .inr (.inl change)
  | outside id waits move => exact .inl rfl
  | acquires id move => exact .inl rfl
  | inside id move =>
      exact .inr (.inr ⟨id, _, _, (hold.processes id).1 rfl, move⟩)
  | releases id move => exact .inl rfl

/-- The conditions hold in each state that is reached. -/
theorem Reachable.hold (kept : conditions.Kept moves)
    (first : conditions.Hold before) (reachable : Reachable moves before after) :
    conditions.Hold after := by
  induction reachable with
  | refl => exact first
  | tail _ step induction => exact induction.step kept step

end Steps

/-! ## One process -/

/-- The process can be at this place, with this store and this holder. -/
def CanBe (moves : Moves ι σ π) (start : State ι σ π) (id : ι)
    (shared : σ) (holder : Option ι) (process : π) : Prop :=
  ∃ processes,
    Reachable moves start ⟨shared, holder, processes⟩ ∧
      processes id = process

namespace CanBe

variable {moves : Moves ι σ π} {start : State ι σ π} {id : ι}
variable {shared later : σ} {holder : Option ι} {process next : π}

theorem environment (canBe : CanBe moves start id shared holder process)
    (change : moves.environment shared later) :
    CanBe moves start id later holder process := by
  obtain ⟨processes, reachable, isProcess⟩ := canBe
  exact ⟨processes, reachable.tail (.environment change), isProcess⟩

theorem outside (canBe : CanBe moves start id shared holder process)
    (waits : holder ≠ some id) (move : moves.outside id shared process next) :
    CanBe moves start id shared holder next := by
  obtain ⟨processes, reachable, rfl⟩ := canBe
  exact ⟨_, reachable.tail (.outside id waits move), by simp⟩

theorem acquires (canBe : CanBe moves start id shared none process)
    (move : moves.acquires id process next) :
    CanBe moves start id shared (some id) next := by
  obtain ⟨processes, reachable, rfl⟩ := canBe
  exact ⟨_, reachable.tail (.acquires id move), by simp⟩

theorem inside (canBe : CanBe moves start id shared (some id) process)
    (move : moves.inside id shared process later next) :
    CanBe moves start id later (some id) next := by
  obtain ⟨processes, reachable, rfl⟩ := canBe
  exact ⟨_, reachable.tail (.inside id move), by simp⟩

theorem releases (canBe : CanBe moves start id shared (some id) process)
    (move : moves.releases id process next) :
    CanBe moves start id shared none next := by
  obtain ⟨processes, reachable, rfl⟩ := canBe
  exact ⟨_, reachable.tail (.releases id move), by simp⟩

end CanBe

end Guarded
