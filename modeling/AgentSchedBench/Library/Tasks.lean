import Mathlib.Logic.Relation
import Mathlib.Algebra.BigOperators.Group.List.Basic

/-!
# Tasks that interleave

Some tasks share a state and take steps one at a time, in any order.  What one
task may do is a relation on the shared state and the place where the task is.

There are two rules for what holds in every reachable state.  What the tasks
and the shared state hold together is conserved if each move conserves it.  A
condition on the shared state, with one on each task, holds if each move keeps
both and does not disturb the condition on another task.
-/

namespace Tasks

/-- The shared state, and the place of each task. -/
structure State (σ τ : Type) where
  shared : σ
  tasks : List τ

variable {σ τ : Type}

/-- One of the tasks moves. -/
inductive Step (moves : σ → τ → σ → τ → Prop) :
    State σ τ → State σ τ → Prop where
  | task {front back : List τ} {task next : τ} {shared later : σ}
      (move : moves shared task later next) :
      Step moves ⟨shared, front ++ task :: back⟩
        ⟨later, front ++ next :: back⟩

/-- The states that some order of moves leads to. -/
def Reachable (moves : σ → τ → σ → τ → Prop)
    (start state : State σ τ) : Prop :=
  Relation.ReflTransGen (Step moves) start state

/-- What the tasks weigh together. -/
def weight {M : Type} [AddCommMonoid M] (weigh : τ → M) (tasks : List τ) :
    M :=
  (tasks.map weigh).sum

section Weight

variable {M : Type} [AddCommMonoid M] {weigh : τ → M}

theorem weight_split (front back : List τ) (task : τ) :
    weight weigh (front ++ task :: back) =
      weigh task + weight weigh (front ++ back) := by
  simp only [weight, List.map_append, List.map_cons, List.sum_append,
    List.sum_cons]
  exact add_left_comm _ _ _

theorem weight_eq_zero {tasks : List τ}
    (none : ∀ task ∈ tasks, weigh task = 0) : weight weigh tasks = 0 := by
  induction tasks with
  | nil => rfl
  | cons task rest induction =>
      rw [weight, List.map_cons, List.sum_cons, none task List.mem_cons_self,
        zero_add]
      exact induction fun other member =>
        none other (List.mem_cons_of_mem _ member)

theorem weight_le_length {weigh : τ → Nat} (atMost : ∀ task, weigh task ≤ 1)
    (tasks : List τ) : weight weigh tasks ≤ tasks.length := by
  induction tasks with
  | nil => exact Nat.le_refl 0
  | cons task rest induction =>
      have here := atMost task
      show weigh task + weight weigh rest ≤ rest.length + 1
      omega

/-- At most one task weighs something when all weigh at most one. -/
theorem pairwise_of_weight_le_one {weigh : τ → Nat} {tasks : List τ}
    (atMost : weight weigh tasks ≤ 1) :
    tasks.Pairwise fun first second =>
      ¬ (0 < weigh first ∧ 0 < weigh second) := by
  induction tasks with
  | nil => exact .nil
  | cons task rest induction =>
      have here : weight weigh (task :: rest) =
          weigh task + weight weigh rest := rfl
      refine List.pairwise_cons.mpr ⟨?_, induction (by omega)⟩
      rintro other member ⟨firstWeighs, otherWeighs⟩
      obtain ⟨front, back, rfl⟩ := List.append_of_mem member
      rw [weight_split] at here
      omega

theorem weigh_eq_zero {weigh : τ → Nat} {tasks : List τ}
    (none : weight weigh tasks = 0) {task : τ} (member : task ∈ tasks) :
    weigh task = 0 := by
  obtain ⟨front, back, rfl⟩ := List.append_of_mem member
  rw [weight_split] at none
  omega

end Weight

namespace Reachable

variable {moves : σ → τ → σ → τ → Prop} {start state : State σ τ}

/-- A move of the task between those in front and those behind. -/
theorem move (front back : List τ) {task next : τ} {shared later : σ}
    (move : moves shared task later next) :
    Reachable moves ⟨shared, front ++ task :: back⟩
      ⟨later, front ++ next :: back⟩ :=
  .single (.task move)

theorem invariant (holds : State σ τ → Prop)
    (reachable : Reachable moves start state) (first : holds start)
    (kept :
      ∀ before after, holds before → Step moves before after →
        holds after) : holds state := by
  induction reachable with
  | refl => exact first
  | tail _ step induction => exact kept _ _ induction step

/-- What no move changes of a task stays as it is. -/
theorem tasks_map {α : Type} (fixed : τ → α)
    (reachable : Reachable moves start state)
    (kept :
      ∀ shared task later next, moves shared task later next →
        fixed next = fixed task) :
    state.tasks.map fixed = start.tasks.map fixed := by
  refine
    invariant (fun state => state.tasks.map fixed = start.tasks.map fixed)
      reachable rfl ?_
  rintro _ _ same ⟨move⟩
  simpa [kept _ _ _ _ move] using same

theorem tasks_length (reachable : Reachable moves start state) :
    state.tasks.length = start.tasks.length := by
  simpa using
    congrArg List.length
      (reachable.tasks_map (fun _ => ()) fun _ _ _ _ _ => rfl)

/-- What each move conserves is conserved. -/
theorem conserved {M : Type} [AddCommMonoid M]
    (measure : σ → M) (weigh : τ → M)
    (reachable : Reachable moves start state)
    (kept :
      ∀ shared task later next, moves shared task later next →
        weigh next + measure later = weigh task + measure shared) :
    weight weigh state.tasks + measure state.shared =
      weight weigh start.tasks + measure start.shared := by
  induction reachable with
  | refl => rfl
  | tail _ step induction =>
      cases step with
      | @task front back task next shared later move =>
          rw [← induction]
          show weight weigh (front ++ next :: back) + measure later =
            weight weigh (front ++ task :: back) + measure shared
          rw [weight_split, weight_split, add_right_comm,
            kept _ _ _ _ move, add_right_comm]

/-- What no move increases is bounded by what there is at the start. -/
theorem bounded (measure : σ → Nat) (weigh : τ → Nat)
    (reachable : Reachable moves start state)
    (kept :
      ∀ shared task later next, moves shared task later next →
        weigh next + measure later ≤ weigh task + measure shared) :
    weight weigh state.tasks + measure state.shared ≤
      weight weigh start.tasks + measure start.shared := by
  induction reachable with
  | refl => exact Nat.le_refl _
  | tail _ step induction =>
      cases step with
      | @task front back task next shared later move =>
          have fewer := kept _ _ _ _ move
          refine Nat.le_trans ?_ induction
          show weight weigh (front ++ next :: back) + measure later ≤
            weight weigh (front ++ task :: back) + measure shared
          rw [weight_split, weight_split]
          omega

/--
Each move keeps both conditions, and that on any other task.  What is known of
the states that are reached may be used.
-/
theorem forall_tasks_reached
    (sharedHolds : σ → Prop) (taskHolds : σ → τ → Prop)
    (reachable : Reachable moves start state)
    (first : sharedHolds start.shared)
    (firstTasks : ∀ task ∈ start.tasks, taskHolds start.shared task)
    (kept :
      ∀ front back task shared later next,
        Reachable moves start ⟨shared, front ++ task :: back⟩ →
          sharedHolds shared → taskHolds shared task →
            moves shared task later next →
              sharedHolds later ∧ taskHolds later next ∧
                ∀ other, taskHolds shared other → taskHolds later other) :
    sharedHolds state.shared ∧
      ∀ task ∈ state.tasks, taskHolds state.shared task := by
  induction reachable with
  | refl => exact ⟨first, firstTasks⟩
  | tail before step induction =>
      obtain ⟨sharedBefore, tasksBefore⟩ := induction
      cases step with
      | task move =>
          obtain ⟨sharedLater, taskLater, undisturbed⟩ :=
            kept _ _ _ _ _ _ before sharedBefore
              (tasksBefore _ (by simp)) move
          refine ⟨sharedLater, ?_⟩
          intro other member
          rcases List.mem_append.mp member with inFront | inBack
          · exact undisturbed other
              (tasksBefore other (List.mem_append_left _ inFront))
          · rcases List.mem_cons.mp inBack with rfl | later
            · exact taskLater
            · exact undisturbed other
                (tasksBefore other
                  (List.mem_append_right _ (List.mem_cons_of_mem _ later)))

/-- Each move keeps both conditions, and that on any other task. -/
theorem forall_tasks
    (sharedHolds : σ → Prop) (taskHolds : σ → τ → Prop)
    (reachable : Reachable moves start state)
    (first : sharedHolds start.shared)
    (firstTasks : ∀ task ∈ start.tasks, taskHolds start.shared task)
    (kept :
      ∀ shared task later next, sharedHolds shared → taskHolds shared task →
        moves shared task later next →
          sharedHolds later ∧ taskHolds later next ∧
            ∀ other, taskHolds shared other → taskHolds later other) :
    sharedHolds state.shared ∧
      ∀ task ∈ state.tasks, taskHolds state.shared task :=
  reachable.forall_tasks_reached sharedHolds taskHolds first firstTasks
    fun _ _ task shared later next _ => kept shared task later next

end Reachable

end Tasks
