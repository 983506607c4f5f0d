import Mathlib.Data.List.Basic

/-!
# Stores with named slots

A system takes steps and keeps a content in each of its named slots.  Some
names are referred to from outside.  As long as no step touches a name that is
referred to, the content that a reference was made to stays there.
-/

namespace Slots

variable {σ ε ν μ : Type}

/-- A system whose steps touch few slots, and refer to filled ones only. -/
structure System (σ ε ν μ : Type) where
  step : σ → ε → σ
  content : σ → ν → Option μ
  refersTo : σ → ν → Prop
  touches : σ → ε → ν → Prop
  frame :
    ∀ state event name, ¬ touches state event name →
      content (step state event) name = content state name
  refers_step :
    ∀ state event name, refersTo state name →
      refersTo (step state event) name
  refers_new :
    ∀ state event name, refersTo (step state event) name →
      refersTo state name ∨ (content (step state event) name).isSome

namespace System

variable (system : System σ ε ν μ)

/-- Run the events in order. -/
def run (state : σ) (events : List ε) : σ :=
  events.foldl system.step state

/-- No event of the run touches a name that is referred to before it. -/
def Fresh (state : σ) : List ε → Prop
  | [] => True
  | event :: rest =>
      (∀ name, system.touches state event name →
        ¬ system.refersTo state name) ∧
        Fresh (system.step state event) rest

/-- What is referred to is there. -/
def Filled (state : σ) : Prop :=
  ∀ name, system.refersTo state name → (system.content state name).isSome

theorem run_append (state : σ) (before after : List ε) :
    system.run state (before ++ after) =
      system.run (system.run state before) after := by
  simp only [run, List.foldl_append]

theorem fresh_append {state : σ} {before after : List ε}
    (fresh : system.Fresh state (before ++ after)) :
    system.Fresh state before ∧
      system.Fresh (system.run state before) after := by
  induction before generalizing state with
  | nil => exact ⟨trivial, fresh⟩
  | cons event rest induction =>
      obtain ⟨here, later⟩ := fresh
      obtain ⟨front, back⟩ := induction later
      exact ⟨⟨here, front⟩, back⟩

/-- A fresh run leaves every content that is referred to. -/
theorem content_run {state : σ} {events : List ε} {name : ν}
    (fresh : system.Fresh state events)
    (refers : system.refersTo state name) :
    system.content (system.run state events) name =
      system.content state name := by
  induction events generalizing state with
  | nil => rfl
  | cons event rest induction =>
      obtain ⟨here, later⟩ := fresh
      have kept :
          system.content (system.step state event) name =
            system.content state name := by
        apply system.frame
        intro touched
        exact here name touched refers
      rw [← kept]
      exact induction later (system.refers_step state event name refers)

theorem filled_run {state : σ} {events : List ε}
    (fresh : system.Fresh state events) (filled : system.Filled state) :
    system.Filled (system.run state events) := by
  induction events generalizing state with
  | nil => exact filled
  | cons event rest induction =>
      obtain ⟨here, later⟩ := fresh
      apply induction later
      intro name refers
      rcases system.refers_new state event name refers with old | isThere
      · rw [system.frame state event name fun touched =>
          here name touched old]
        exact filled name old
      · exact isThere

/--
In a fresh run from a filled state, what is referred to after some events has
a content, and keeps it.
-/
theorem content_kept {state : σ} {before after : List ε} {name : ν}
    (filled : system.Filled state)
    (fresh : system.Fresh state (before ++ after))
    (refers : system.refersTo (system.run state before) name) :
    ∃ content,
      system.content (system.run state before) name = some content ∧
        system.content (system.run state (before ++ after)) name =
          some content := by
  obtain ⟨front, back⟩ := system.fresh_append fresh
  have isThere := system.filled_run front filled name refers
  obtain ⟨content, isContent⟩ := Option.isSome_iff_exists.mp isThere
  refine ⟨content, isContent, ?_⟩
  rw [system.run_append, system.content_run back refers, isContent]

end System

end Slots
