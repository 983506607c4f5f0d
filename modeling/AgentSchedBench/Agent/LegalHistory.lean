import AgentSchedBench.Agent.Session
import AgentSchedBench.Library.Declared

/-!
# Histories without orphans

A tool message answers a tool call by its id.  A history that is cut can lose
the call and keep the answer.  `find_legal_message_start` finds the longest end
of a history in which each answer follows its call.
-/

namespace AgentSchedBench.Agent

open Declared

/-- The ids that a message declares. -/
def Message.declares (message : Message) : List String :=
  if message.role = .assistant then message.callIds else []

/-- The id that a message answers, if it is not empty. -/
def Message.answers (message : Message) : Option String :=
  if message.role = .tool then
    message.toolCallId.filter fun id => !id.isEmpty
  else none

/-- Each tool message follows an assistant message with its id. -/
def Legal (messages : List Message) : Prop :=
  Closed Message.declares Message.answers messages

/-- The index is the least one from which on the messages are legal. -/
def IsLegalStart (messages : List Message) (start : Nat) : Prop :=
  IsStart Message.declares Message.answers messages start

section Loop

/-- The start is the least legal one, and the ids after it are declared. -/
structure LegalStart.Exact (visited : List Message) (state : LegalStart) :
    Prop where
  index : state.index = visited.length
  inside : state.start ≤ visited.length
  isStart : IsLegalStart visited state.start
  declared : ∀ id, id ∈ state.declared ↔
    Declared.Given Message.declares (visited.drop state.start) id

variable {visited : List Message} {state : LegalStart} {message : Message}

/-- An answer to what has been declared, and any other message, is kept. -/
theorem LegalStart.Exact.keep (exact : state.Exact visited)
    {declared : List String}
    (answered : ∀ id ∈ message.answers, id ∈ state.declared)
    (grown : ∀ id, id ∈ declared ↔
      id ∈ state.declared ∨ id ∈ message.declares) :
    LegalStart.Exact (visited ++ [message])
      ⟨declared, state.start, state.index + 1⟩ where
  index := by
    rw [exact.index, List.length_append]
    rfl
  inside := by
    rw [List.length_append]
    exact exact.inside.trans (Nat.le_add_right _ _)
  isStart := by
    apply exact.isStart.keep exact.inside
    intro id isAnswer
    exact (exact.declared id).mp (answered id isAnswer)
  declared := by
    intro id
    rw [List.drop_append_of_le_length exact.inside, given_append_singleton,
      ← exact.declared]
    exact grown id

/-- Behind an orphan the history starts anew. -/
theorem LegalStart.Exact.restart (exact : state.Exact visited)
    {id : String} (isAnswer : id ∈ message.answers)
    (orphan : id ∉ state.declared) :
    LegalStart.Exact (visited ++ [message])
      ⟨[], state.index + 1, state.index + 1⟩ where
  index := by
    rw [exact.index, List.length_append]
    rfl
  inside := by
    rw [exact.index, List.length_append]
    rfl
  isStart := by
    rw [exact.index]
    exact exact.isStart.restart isAnswer
      (fun given => orphan ((exact.declared id).mpr given))
  declared := by
    intro other
    rw [exact.index, List.drop_of_length_le (by simp)]
    constructor
    · nofun
    · rintro ⟨message, member, -⟩
      cases member

theorem legalStartStep_exact (exact : state.Exact visited) :
    (legalStartStep state message).Exact (visited ++ [message]) := by
  rw [legalStartStep]
  cases isRole : message.role with
  | assistant =>
      apply exact.keep
      · simp [Message.answers, isRole]
      · simp [Message.declares, isRole]
  | tool =>
      have declaresNone : message.declares = [] := by
        simp [Message.declares, isRole]
      dsimp only
      cases isId : message.toolCallId with
      | none =>
          apply exact.keep
          · simp [Message.answers, isId]
          · simp [declaresNone]
      | some id =>
          split
          · next orphan =>
            refine exact.restart ?_ orphan.2
            simpa [Message.answers, isRole, isId] using orphan.1
          · next answered =>
            apply exact.keep
            · intro other isAnswer
              rw [Message.answers, if_pos isRole, isId] at isAnswer
              obtain ⟨isOther, notEmpty⟩ := Option.mem_filter_iff.mp isAnswer
              cases isOther
              by_contra orphan
              exact answered ⟨notEmpty, orphan⟩
            · simp [declaresNone]
  | system =>
      apply exact.keep
      · simp [Message.answers, isRole]
      · simp [Message.declares, isRole]
  | user =>
      apply exact.keep
      · simp [Message.answers, isRole]
      · simp [Message.declares, isRole]

end Loop

/-- `find_legal_message_start` finds the least legal start. -/
theorem findLegalMessageStart_isLegalStart (messages : List Message) :
    IsLegalStart messages (findLegalMessageStart messages) := by
  have exact :
      (messages.foldl legalStartStep ⟨[], 0, 0⟩).Exact messages := by
    apply Loops.foldl_invariant legalStartStep
      (fun visited state => state.Exact visited)
    · refine ⟨rfl, Nat.le_refl _, isStart_nil, ?_⟩
      intro id
      refine iff_of_false (List.not_mem_nil) ?_
      rintro ⟨message, member, -⟩
      cases member
    · intro visited message _ state exact
      exact legalStartStep_exact exact
  exact exact.isStart

theorem legal_drop_start (messages : List Message) :
    Legal (messages.drop (findLegalMessageStart messages)) :=
  (findLegalMessageStart_isLegalStart messages).1

/-! ## The history of a session -/

theorem legal_map_historyEntry {messages : List Message} :
    Legal (messages.map historyEntry) ↔ Legal messages :=
  closed_map (fun _ => rfl) (fun _ => rfl)

theorem getHistory_legal (session : Session) (maxMessages : Int) :
    Legal (session.getHistory maxMessages) :=
  legal_map_historyEntry.mpr (legal_drop_start _)

/--
The start that is found is the least legal one, so that no history of a
session has an orphan.
-/
theorem legalStart_exact :
    (∀ messages, IsLegalStart messages (findLegalMessageStart messages)) ∧
      ∀ (session : Session) (maxMessages : Int),
        Legal (session.getHistory maxMessages) :=
  ⟨findLegalMessageStart_isLegalStart, getHistory_legal⟩

end AgentSchedBench.Agent
