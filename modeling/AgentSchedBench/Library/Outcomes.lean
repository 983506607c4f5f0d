import AgentSchedBench.Library.Loops
import Mathlib.Order.Basic

/-!
# Runs that keep their state when they fail

A program on a state either ends in a state or fails and leaves one behind.
`Ends failing succeeding` is the postcondition of such a run, with one
predicate for each of the two outcomes, and the rules below compose it along
binds and loops.  A property that every statement keeps then holds of the
state the run ends in, however it ends.
-/

namespace Outcomes

variable {ε σ α : Type}

/-- The state a run ends in or leaves behind. -/
def finalState : Except (ε × σ) σ → σ
  | .ok state => state
  | .error (_, state) => state

@[simp]
theorem finalState_ok (state : σ) :
    finalState (.ok state : Except (ε × σ) σ) = state := rfl

@[simp]
theorem finalState_error (failure : ε) (state : σ) :
    finalState (.error (failure, state) : Except (ε × σ) σ) = state := rfl

/-- A failing run leaves `failing`, a successful one ends in `succeeding`. -/
def Ends (failing succeeding : σ → Prop) : Except (ε × σ) σ → Prop
  | .ok state => succeeding state
  | .error (_, state) => failing state

@[simp]
theorem ends_ok (failing succeeding : σ → Prop) (state : σ) :
    Ends failing succeeding (.ok state : Except (ε × σ) σ) =
      succeeding state := rfl

@[simp]
theorem ends_error
    (failing succeeding : σ → Prop) (failure : ε) (state : σ) :
    Ends failing succeeding (.error (failure, state) : Except (ε × σ) σ) =
      failing state := rfl

theorem Ends.mono
    {failing failing' succeeding succeeding' : σ → Prop}
    {result : Except (ε × σ) σ}
    (ends : Ends failing succeeding result)
    (weakerFailing : ∀ state, failing state → failing' state)
    (weakerSucceeding : ∀ state, succeeding state → succeeding' state) :
    Ends failing' succeeding' result := by
  rcases result with ⟨failure, state⟩ | state
  · exact weakerFailing state ends
  · exact weakerSucceeding state ends

theorem Ends.and
    {failing failing' succeeding succeeding' : σ → Prop}
    {result : Except (ε × σ) σ}
    (left : Ends failing succeeding result)
    (right : Ends failing' succeeding' result) :
    Ends (fun state => failing state ∧ failing' state)
      (fun state => succeeding state ∧ succeeding' state) result := by
  rcases result with ⟨failure, state⟩ | state
  · exact ⟨left, right⟩
  · exact ⟨left, right⟩

/-- What holds after both outcomes holds of the final state. -/
theorem ends_finalState (holds : σ → Prop) (result : Except (ε × σ) σ) :
    Ends holds holds result ↔ holds (finalState result) := by
  rcases result with ⟨failure, state⟩ | state
  · exact Iff.rfl
  · exact Iff.rfl

theorem Ends.bind
    {failing middle succeeding : σ → Prop}
    {first : Except (ε × σ) σ} {next : σ → Except (ε × σ) σ}
    (firstEnds : Ends failing middle first)
    (nextEnds :
      ∀ state, middle state → Ends failing succeeding (next state)) :
    Ends failing succeeding (first >>= next) := by
  rcases first with ⟨failure, state⟩ | state
  · exact firstEnds
  · exact nextEnds state firstEnds

/-- An invariant of every step is an invariant of the loop. -/
theorem ends_foldlM
    {failing invariant : σ → Prop} (step : σ → α → Except (ε × σ) σ)
    (items : List α) {start : σ} (init : invariant start)
    (preserved :
      ∀ item ∈ items, ∀ state, invariant state →
        Ends failing invariant (step state item)) :
    Ends failing invariant (items.foldlM step start) := by
  induction items generalizing start with
  | nil => exact init
  | cons item rest induction =>
      rw [List.foldlM_cons]
      apply Ends.bind (preserved item List.mem_cons_self start init)
      intro state holds
      apply induction holds
      intro other member
      exact preserved other (List.mem_cons_of_mem item member)

/-- Each step the loop reaches meets a condition in the state before it. -/
def AllSteps
    (step : σ → α → Except (ε × σ) σ) (condition : σ → α → Prop) :
    List α → σ → Prop
  | [], _ => True
  | item :: rest, state =>
      condition state item ∧
        ∀ next, step state item = .ok next →
          AllSteps step condition rest next

/-- An invariant that each step keeps under its condition. -/
theorem AllSteps.ends_foldlM
    {step : σ → α → Except (ε × σ) σ} {condition : σ → α → Prop}
    {failing invariant : σ → Prop} {items : List α} {start : σ}
    (meets : AllSteps step condition items start) (init : invariant start)
    (preserved :
      ∀ item ∈ items, ∀ state, invariant state → condition state item →
        Ends failing invariant (step state item)) :
    Ends failing invariant (items.foldlM step start) := by
  induction items generalizing start with
  | nil => exact init
  | cons item rest induction =>
      rcases meets with ⟨here, later⟩
      have first := preserved item List.mem_cons_self start init here
      rw [List.foldlM_cons]
      rcases finished : step start item with ⟨failure, state⟩ | next
      · rw [finished] at first
        exact first
      · rw [finished] at first
        apply induction (later next finished) first
        intro other member
        exact preserved other (List.mem_cons_of_mem item member)

/-- Whatever failure the run ends with is of a kind. -/
def Fails (kind : ε → Prop) : Except (ε × σ) σ → Prop
  | .ok _ => True
  | .error (failure, _) => kind failure

@[simp]
theorem fails_ok (kind : ε → Prop) (state : σ) :
    Fails kind (.ok state : Except (ε × σ) σ) = True := rfl

@[simp]
theorem fails_error (kind : ε → Prop) (failure : ε) (state : σ) :
    Fails kind (.error (failure, state) : Except (ε × σ) σ) =
      kind failure := rfl

theorem Fails.bind
    {kind : ε → Prop} {first : Except (ε × σ) σ}
    {next : σ → Except (ε × σ) σ} (firstFails : Fails kind first)
    (nextFails : ∀ state, Fails kind (next state)) :
    Fails kind (first >>= next) := by
  rcases first with ⟨failure, state⟩ | state
  · exact firstFails
  · exact nextFails state

theorem fails_foldlM
    {kind : ε → Prop} (step : σ → α → Except (ε × σ) σ) (items : List α)
    (start : σ)
    (stepFails : ∀ item ∈ items, ∀ state, Fails kind (step state item)) :
    Fails kind (items.foldlM step start) := by
  induction items generalizing start with
  | nil => trivial
  | cons item rest induction =>
      rw [List.foldlM_cons]
      apply (stepFails item List.mem_cons_self start).bind
      intro state
      apply induction state
      intro other member
      exact stepFails other (List.mem_cons_of_mem item member)

theorem AllSteps.fails
    {step : σ → α → Except (ε × σ) σ} {condition : σ → α → Prop}
    {kind : ε → Prop} {items : List α} {start : σ}
    (meets : AllSteps step condition items start)
    (stepFails :
      ∀ item state, condition state item → Fails kind (step state item)) :
    Fails kind (items.foldlM step start) := by
  induction items generalizing start with
  | nil => trivial
  | cons item rest induction =>
      rcases meets with ⟨here, later⟩
      have first := stepFails item start here
      rw [List.foldlM_cons]
      rcases finished : step start item with ⟨failure, state⟩ | next
      · rw [finished] at first
        exact first
      · exact induction (later next finished)

/-- A bind whose first part fails is that failure. -/
theorem bind_error
    (failure : ε) (state : σ) (next : σ → Except (ε × σ) σ) :
    ((.error (failure, state) : Except (ε × σ) σ) >>= next) =
      .error (failure, state) := rfl

/-- A bind whose first part succeeds goes on from its state. -/
theorem bind_ok (state : σ) (next : σ → Except (ε × σ) σ) :
    ((.ok state : Except (ε × σ) σ) >>= next) = next state := rfl

/-! ## Statements that only fail -/

/-- A statement that fails or leaves the state as it is. -/
def statement : Option ε → σ → Except (ε × σ) σ
  | none, state => .ok state
  | some failure, state => .error (failure, state)

@[simp]
theorem statement_none (state : σ) :
    statement (none : Option ε) state = .ok state := rfl

@[simp]
theorem statement_some (failure : ε) (state : σ) :
    statement (some failure) state = .error (failure, state) := rfl

@[simp]
theorem finalState_statement (outcome : Option ε) (state : σ) :
    finalState (statement outcome state) = state := by
  cases outcome <;> rfl

theorem finalState_statement_bind
    (outcome : Option ε) (state : σ) (next : σ → Except (ε × σ) σ) :
    finalState (statement outcome state >>= next) =
      if outcome = none then finalState (next state) else state := by
  cases outcome <;> rfl

/-- A loop of such statements is one, with the first failure. -/
theorem foldlM_statement
    (outcome : α → Option ε) (items : List α) (state : σ) :
    items.foldlM (fun state item => statement (outcome item) state) state =
      statement (items.findSome? outcome) state := by
  induction items with
  | nil => rfl
  | cons item rest induction =>
      rw [List.foldlM_cons, List.findSome?_cons]
      cases outcome item with
      | none => exact induction
      | some failure => rfl

/-! ## Cleanup -/

/-- A cleanup runs after either outcome, and its failure is the last word. -/
def tryFinally (cleanup : σ → Except (ε × σ) σ) :
    Except (ε × σ) σ → Except (ε × σ) σ
  | .ok state => cleanup state
  | .error (failure, state) =>
      match cleanup state with
      | .ok after => .error (failure, after)
      | .error failed => .error failed

/-- What the cleanup leaves is what remains. -/
theorem finalState_tryFinally
    (cleanup : σ → Except (ε × σ) σ) (result : Except (ε × σ) σ) :
    finalState (tryFinally cleanup result) =
      finalState (cleanup (finalState result)) := by
  rcases result with ⟨failure, state⟩ | state
  · rw [finalState_error, tryFinally]
    rcases cleanup state with ⟨failed, after⟩ | after <;> rfl
  · rfl

/-- After a failure it does not matter what the cleanup does. -/
theorem ends_tryFinally
    {middle succeeding : σ → Prop} {cleanup : σ → Except (ε × σ) σ}
    {result : Except (ε × σ) σ}
    (ends : Ends (fun _ => True) middle result)
    (cleans :
      ∀ state, middle state →
        Ends (fun _ => True) succeeding (cleanup state)) :
    Ends (fun _ => True) succeeding (tryFinally cleanup result) := by
  rcases result with ⟨failure, state⟩ | state
  · rw [tryFinally]
    rcases cleanup state with ⟨failed, after⟩ | after <;> trivial
  · exact cleans state ends

/-- The items that a loop reaches, the first that fails being the last. -/
def reached (fails : α → Bool) : List α → List α
  | [] => []
  | item :: rest =>
      item :: if fails item then [] else reached fails rest

theorem reached_sublist (fails : α → Bool) (items : List α) :
    (reached fails items).Sublist items := by
  induction items with
  | nil => exact .slnil
  | cons item rest induction =>
      rw [reached]
      split
      · exact (List.nil_sublist rest).cons_cons item
      · exact induction.cons_cons item

/-- In a sorted list these are the items with no failure below them. -/
theorem mem_reached [Preorder α] (fails : α → Bool) {items : List α}
    (sorted : items.Pairwise (· < ·)) (item : α) :
    item ∈ reached fails items ↔
      item ∈ items ∧ ∀ other ∈ items, other < item → fails other = false := by
  induction items with
  | nil => simp [reached]
  | cons first rest induction =>
      obtain ⟨below, restSorted⟩ := List.pairwise_cons.mp sorted
      rw [reached, List.mem_cons]
      constructor
      · rintro (rfl | later)
        · refine ⟨List.mem_cons_self, ?_⟩
          intro other member lower
          rcases List.mem_cons.mp member with rfl | later
          · exact absurd lower (lt_irrefl _)
          · exact absurd (lower.trans (below other later)) (lt_irrefl _)
        · cases failed : fails first with
          | true => simp [failed] at later
          | false =>
              rw [failed] at later
              obtain ⟨member, none⟩ := (induction restSorted).mp later
              refine ⟨List.mem_cons_of_mem first member, ?_⟩
              intro other inside lower
              rcases List.mem_cons.mp inside with rfl | inRest
              · exact failed
              · exact none other inRest lower
      · rintro ⟨member, none⟩
        rcases List.mem_cons.mp member with rfl | inRest
        · exact .inl rfl
        · have passed := none first List.mem_cons_self (below item inRest)
          rw [passed]
          refine .inr ((induction restSorted).mpr ⟨inRest, ?_⟩)
          intro other inside
          exact none other (List.mem_cons_of_mem first inside)

end Outcomes
