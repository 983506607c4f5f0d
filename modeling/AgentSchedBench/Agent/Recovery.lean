import AgentSchedBench.Agent.SavedTurn

/-!
# Recovering an interrupted turn

While a turn runs its session has the messages it had before, and the latest
payload.  The payload has the question that the model asked last and its
answers so far, so that restoring it brings back one iteration, each call of
it answered once.  The incoming message and the iterations before are in no
payload.
-/

namespace AgentSchedBench.Agent

/-! ## What a payload holds -/

/-- The messages of a payload, as entries of the turn. -/
def RuntimeCheckpoint.entries (checkpoint : RuntimeCheckpoint) : List Entry :=
  (checkpoint.assistantMessage :: checkpoint.completedToolResults).map
    (⟨·, .turn⟩)

/-- The answers to the calls of a message, one for each and in order. -/
structure Answers (calls : List ToolCall) (answers : List Message) :
    Prop where
  role : ∀ answer ∈ answers, answer.role = .tool
  ids : answers.map Message.toolCallId = calls.map (some ∘ ToolCall.id)

theorem answers_nil : Answers [] [] where
  role := nofun
  ids := rfl

/-- A payload holds the end of the entries, and the calls not yet answered. -/
structure Emission.HoldsLatest (emission : Emission) : Prop where
  entries :
    ∃ earlier, emission.entries = earlier ++ emission.checkpoint.entries
  answers :
    ∃ answered,
      emission.checkpoint.assistantMessage.toolCalls =
          answered ++ emission.checkpoint.pendingToolCalls ∧
        Answers answered emission.checkpoint.completedToolResults

theorem interrupted_answers (calls : List ToolCall) :
    Answers calls (calls.map interruptedMessage) where
  role answer member := by
    obtain ⟨call, _, rfl⟩ := List.mem_map.mp member
    rfl
  ids := by
    rw [List.map_map]
    rfl

theorem Answers.append
    {calls more : List ToolCall} {answers others : List Message}
    (first : Answers calls answers) (second : Answers more others) :
    Answers (calls ++ more) (answers ++ others) where
  role answer member := by
    rcases List.mem_append.mp member with old | new
    · exact first.role answer old
    · exact second.role answer new
  ids := by
    rw [List.map_append, List.map_append, first.ids, second.ids]

/-- What is restored is a question with an answer to each of its calls. -/
theorem restoredMessages_answered
    {emission : Emission} (latest : emission.HoldsLatest) :
    ∃ answers,
      emission.checkpoint.restoredMessages =
          emission.checkpoint.assistantMessage :: answers ∧
        Answers emission.checkpoint.assistantMessage.toolCalls answers := by
  obtain ⟨answered, calls, answers⟩ := latest.answers
  refine ⟨_, rfl, ?_⟩
  rw [calls]
  exact answers.append (interrupted_answers _)

/-! ## Runs -/

namespace AgentRunner

variable
  {spec : AgentRunSpec} {iteration : Nat} {input : IterationInput}
  {state : RunState}

/-- The payloads that an iteration leaves hold the latest messages. -/
def KeepsLatest : IterationEnd → Prop
  | .next state => ∀ emission ∈ state.emitted, emission.HoldsLatest
  | .stop state _ _ => ∀ emission ∈ state.emitted, emission.HoldsLatest

theorem holdsLatest_append
    {emitted : List Emission} {emission : Emission}
    (kept : ∀ emission ∈ emitted, emission.HoldsLatest)
    (latest : emission.HoldsLatest) :
    ∀ other ∈ emitted ++ [emission], other.HoldsLatest := by
  intro other member
  rcases List.mem_append.mp member with old | new
  · exact kept other old
  · rw [List.mem_singleton.mp new]
    exact latest

/-- The results of the calls answer them. -/
theorem toolMessages_answer
    (calls : List ToolCall) (runTool : Nat → ToolCall → ToolRun)
    (content : Nat → ToolCall × ToolRun → Content) :
    Answers calls
      ((calls.zip (calls.mapIdx runTool)).mapIdx fun index item =>
        toolMessage item.1 (content index item)) where
  role answer member := by
    obtain ⟨index, inRange, rfl⟩ := List.mem_mapIdx.mp member
    rfl
  ids := by
    apply List.ext_getElem
    · simp
    · intro index _ _
      simp [toolMessage]

theorem runTools_keepsLatest
    (kept : ∀ emission ∈ state.emitted, emission.HoldsLatest) :
    KeepsLatest (runTools spec iteration input state) := by
  rw [runTools]
  generalize isAsked :
    buildAssistantMessage (input.response.content.getD "")
      input.response.toolCalls input.response.reasoningContent
      input.response.thinkingBlocks = asked
  have calls : asked.toolCalls = input.response.toolCalls := by
    rw [← isAsked]
    rfl
  have asksLatest :
      Emission.HoldsLatest
        ⟨⟨.awaitingTools, iteration, asked, [], input.response.toolCalls⟩,
          state.entries ++ [⟨asked, .turn⟩]⟩ :=
    ⟨⟨state.entries, rfl⟩, [], calls, answers_nil⟩
  have awaiting := holdsLatest_append kept asksLatest
  dsimp only
  split
  · exact awaiting
  · apply holdsLatest_append awaiting
    refine ⟨⟨state.entries, ?_⟩, asked.toolCalls,
      (List.append_nil _).symm, ?_⟩
    · rw [List.append_assoc]
      rfl
    · rw [calls]
      exact toolMessages_answer _ _ _

theorem retryMalformed_keepsLatest
    (kept : ∀ emission ∈ state.emitted, emission.HoldsLatest) :
    KeepsLatest (retryMalformed spec iteration input state) := by
  rw [retryMalformed]
  dsimp only
  split
  · exact kept
  · exact kept

theorem finish_keepsLatest
    (kept : ∀ emission ∈ state.emitted, emission.HoldsLatest) :
    KeepsLatest (finish spec iteration input state) := by
  rw [finish]
  dsimp only
  split
  · exact kept
  · split
    · exact kept
    · split
      · exact kept
      · apply holdsLatest_append kept
        exact ⟨⟨state.entries, rfl⟩, [], rfl, answers_nil⟩

theorem iterate_keepsLatest
    (spec : AgentRunSpec) (iteration : Nat) (input : IterationInput)
    (kept : ∀ emission ∈ state.emitted, emission.HoldsLatest) :
    KeepsLatest (iterate spec iteration input state) :=
  iterate_elim (fun _ => runTools_keepsLatest kept)
    (retryMalformed_keepsLatest kept) (finish_keepsLatest kept)

theorem loop_emitted
    {inputs : Nat → IterationInput} (remaining : Nat)
    (kept : ∀ emission ∈ state.emitted, emission.HoldsLatest) :
    ∀ emission ∈ (loop spec inputs remaining iteration state).emitted,
      emission.HoldsLatest := by
  induction remaining generalizing iteration state with
  | zero => exact kept
  | succ remaining induction =>
      have later :=
        iterate_keepsLatest spec iteration (inputs iteration) kept
      rw [loop_add_one]
      cases ended : iterate spec iteration (inputs iteration) state with
      | next state =>
          rw [ended] at later
          exact induction later
      | stop state finalContent reason =>
          rw [ended] at later
          exact later

/-- Every payload of a run holds the latest messages there are. -/
theorem run_emitted
    (spec : AgentRunSpec) (inputs : Nat → IterationInput)
    (initial : List Message) :
    ∀ emission ∈ (run spec inputs initial).emitted, emission.HoldsLatest :=
  loop_emitted _ nofun

end AgentRunner

/-! ## Interrupted turns -/

namespace AgentLoop

variable
  (loop : AgentLoop) (turn : TurnInput) (session : Session)
  (message : InboundMessage)

/-- The session of a turn that was interrupted after a payload. -/
def interrupted (emission : Emission) : Session :=
  { opened turn session with
    runtimeCheckpoint := some emission.checkpoint }

/--
The session has its messages, the incoming one, those of the turn so far, and
an answer to each call that was waiting.
-/
def RecoversTurn (emission : Emission) : Prop :=
  ∃ incoming answers,
    Answers emission.checkpoint.pendingToolCalls answers ∧
      (restoreRuntimeCheckpoint
          (interrupted turn session emission)).messages =
        (opened turn session).messages ++
          incoming :: (ownMessages emission.entries ++ answers)

/-- Restoring adds to the session what a payload has, or less. -/
theorem restored_length (emission : Emission) :
    (restoreRuntimeCheckpoint
        (interrupted turn session emission)).messages.length ≤
      (opened turn session).messages.length +
        emission.checkpoint.restoredMessages.length := by
  rw [restoreRuntimeCheckpoint]
  dsimp only [interrupted]
  rw [List.length_append, List.length_drop]
  omega

/-- The turn so far is at least as long as its payload. -/
theorem latest_length
    {emission : Emission} (latest : emission.HoldsLatest) :
    emission.checkpoint.completedToolResults.length + 1 ≤
      (ownMessages emission.entries).length := by
  obtain ⟨earlier, entries⟩ := latest.entries
  have ownEntries :
      emission.checkpoint.entries.filter (·.origin = .turn) =
        emission.checkpoint.entries := by
    rw [List.filter_eq_self]
    intro entry member
    obtain ⟨_, _, rfl⟩ := List.mem_map.mp member
    rfl
  rw [entries, ownMessages, List.filter_append, ownEntries, List.map_append,
    List.length_append, RuntimeCheckpoint.entries, List.length_map,
    List.length_map, List.length_map, List.length_cons]
  omega

/-- A turn whose payload holds the latest messages is not recovered. -/
theorem not_recoversTurn
    {emission : Emission} (latest : emission.HoldsLatest) :
    ¬ RecoversTurn turn session emission := by
  rintro ⟨incoming, answers, answered, restored⟩
  have lengths := congrArg List.length restored
  have answersLength := congrArg List.length answered.ids
  have atMost := restored_length turn session emission
  have atLeast := latest_length latest
  simp only [List.length_append, List.length_cons, List.length_map]
    at lengths answersLength
  rw [lengths, RuntimeCheckpoint.restoredMessages, List.length_append,
    List.length_cons, List.length_map] at atMost
  omega

/-- No interrupted turn is recovered: its incoming message is not stored. -/
theorem interrupted_turn_not_recovered
    (loop : AgentLoop) (turn : TurnInput) (session : Session)
    (message : InboundMessage) (emission : Emission)
    (stored :
      emission ∈
        (loop.runAgentLoop turn (opened turn session) message).emitted) :
    ¬ RecoversTurn turn session emission :=
  not_recoversTurn turn session
    (AgentRunner.run_emitted _ _ _ emission stored)

/-- A model that calls one tool and answers. -/
def oneCall : AgentLoop × TurnInput :=
  let call : ToolCall := ⟨"call_1", "exec", "{}"⟩
  let response : LlmResponse :=
    { content := some "looking"
      toolCalls := [call]
      isError := false
      reasoningContent := none
      thinkingBlocks := [] }
  ⟨{ spec :=
      { toolNames := ["exec"]
        maxIterations := 1
        maxToolResultChars := 1000
        errorMessage := none
        maxIterationsMessage := none
        failOnToolError := false
        toolResultPath := none
        malformedRetryBudget := 2 }
     systemPrompt := "system prompt" },
    { currentTime := "noon"
      lastConsolidated := 0
      iterations := fun _ =>
        { response := response
          finalizationRetry := response
          finalizeContent := id
          runTool := fun _ _ => ⟨.text "ok", none⟩
          inputHash := 0
          budgetWriteFails := fun _ => false
          resultWriteFails := fun _ => false } }⟩

/-- A session without messages. -/
def emptySession : Session := ⟨[], 0, none⟩

/-- A message of the user. -/
def runTheTests : InboundMessage where
  channel := "cli"
  senderId := "user"
  chatId := "direct"
  content := "run the tests"
  media := []

/-- The payload that is stored before the call runs. -/
theorem oneCall_emitted :
    ∃ emission,
      emission ∈
          (oneCall.1.runAgentLoop oneCall.2 (opened oneCall.2 emptySession)
            runTheTests).emitted ∧
        emission.checkpoint.phase = .awaitingTools ∧
          emission.checkpoint.pendingToolCalls =
              [⟨"call_1", "exec", "{}"⟩] ∧
            (ownMessages emission.entries).length = 1 ∧
              (restoreRuntimeCheckpoint
                (interrupted oneCall.2 emptySession
                  emission)).messages.length = 2 :=
  ⟨_, List.mem_cons_self, rfl, rfl, rfl, rfl⟩

theorem oneCall_not_recovered :
    ∃ emission,
      emission.checkpoint.phase = .awaitingTools ∧
        ¬ RecoversTurn oneCall.2 emptySession emission := by
  obtain ⟨emission, stored, phase, _⟩ := oneCall_emitted
  exact ⟨emission, phase,
    interrupted_turn_not_recovered _ _ _ runTheTests emission stored⟩

/-- Of a message and a call only the call is restored, with its answer. -/
theorem oneCall_message_lost :
    ∃ emission,
      emission ∈
          (oneCall.1.runAgentLoop oneCall.2 (opened oneCall.2 emptySession)
            runTheTests).emitted ∧
        ¬ RecoversTurn oneCall.2 emptySession emission := by
  obtain ⟨emission, stored, _, pending, ownLength, restoredLength⟩ :=
    oneCall_emitted
  refine ⟨emission, stored, ?_⟩
  rintro ⟨incoming, answers, answered, restored⟩
  have answersLength := congrArg List.length answered.ids
  rw [restored] at restoredLength
  rw [pending] at answersLength
  simp only [List.length_append, List.length_cons, List.length_map,
    List.length_nil, ownLength] at restoredLength answersLength
  omega

end AgentLoop

end AgentSchedBench.Agent
