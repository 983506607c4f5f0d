import AgentSchedBench.Agent.Message
import Mathlib.Data.List.Basic

/-!
# The agent runner

`AgentRunner.run` extends the messages it is given by the answers of the model
and the results of the tools.  What the model answers, what the tools return,
what the hook makes of a final text and which results cannot be written to a
file is the input of each iteration.

An entry is a message with its origin: the source has the messages only, the
origin is what statements about a run speak of.
-/

namespace AgentSchedBench.Agent

/-! ## What a run is given -/

/-- `LLMResponse`. -/
structure LlmResponse where
  content : Option String
  toolCalls : List ToolCall
  isError : Bool
  reasoningContent : Option String
  thinkingBlocks : List String

/-- A result of a tool, and the error that it counts as. -/
structure ToolRun where
  result : Content
  error : Option String

/-- What an iteration meets with. -/
structure IterationInput where
  response : LlmResponse
  finalizationRetry : LlmResponse
  finalizeContent : Option String → Option String
  runTool : Nat → ToolCall → ToolRun
  inputHash : Int
  budgetWriteFails : Nat → Bool
  resultWriteFails : Nat → Bool

/-- `AgentRunSpec`, with the paths of the results that are written. -/
structure AgentRunSpec where
  toolNames : List String
  maxIterations : Nat
  maxToolResultChars : Int
  errorMessage : Option String
  maxIterationsMessage : Option (Nat → String)
  failOnToolError : Bool
  toolResultPath : Option (String → String → String)
  malformedRetryBudget : Int

/-! ## Tool results -/

def emptyToolResultMessage (toolName : String) : String :=
  "(" ++ toolName ++ " completed with no output)"

/-- `ensure_nonempty_tool_result`. -/
def ensureNonemptyToolResult (toolName : String) : Content → Content
  | .none => .text (emptyToolResultMessage toolName)
  | .text value =>
      if isBlank value then .text (emptyToolResultMessage toolName)
      else .text value
  | .blocks items =>
      if items.isEmpty then .text (emptyToolResultMessage toolName)
      else
        match stringifyTextBlocks items with
        | some textPayload =>
            if isBlank textPayload then
              .text (emptyToolResultMessage toolName)
            else .blocks items
        | none => .blocks items

def toolResultPreviewChars : Nat := 1200

/-- `_render_tool_result_reference`. -/
def renderToolResultReference
    (filepath : String) (originalSize : Nat) (preview : String)
    (truncatedPreview : Bool) : String :=
  "[tool output persisted]\nFull output saved to: " ++ filepath ++
    "\nOriginal size: " ++ toString originalSize ++ " chars\nPreview:\n" ++
    preview ++
    (if truncatedPreview then
      "\n...\n(Read the saved file if you need the full output.)"
    else "")

/-- The text and the suffix of a result that can be written to a file. -/
def textPayload : Content → Option (String × String)
  | .none => none
  | .text value => some (value, "txt")
  | .blocks items =>
      (stringifyTextBlocks items).map fun text => (text, "json")

/-- `maybe_persist_tool_result`, if the file can be written. -/
def maybePersistToolResult
    (toolResultPath : Option (String → String → String))
    (toolCallId : String) (content : Content) (maxChars : Int) : Content :=
  match toolResultPath, textPayload content with
  | some path, some (text, suffix) =>
      if maxChars ≤ 0 ∨ (text.length : Int) ≤ maxChars then content
      else
        .text
          (renderToolResultReference (path toolCallId suffix) text.length
            (String.ofList (text.toList.take toolResultPreviewChars))
            (toolResultPreviewChars < text.length))
  | _, _ => content

/-- `AgentRunner._normalize_tool_result`. -/
def normalizeToolResult
    (spec : AgentRunSpec) (writeFails : Bool) (toolCallId toolName : String)
    (result : Content) : Content :=
  let result := ensureNonemptyToolResult toolName result
  let content :=
    if writeFails then result
    else
      maybePersistToolResult spec.toolResultPath toolCallId result
        spec.maxToolResultChars
  match content with
  | .text value => .text (truncateText value spec.maxToolResultChars)
  | content => content

/-! ## Entries -/

inductive Origin where
  | initial
  | turn
  | retry
deriving DecidableEq, Repr

structure Entry where
  message : Message
  origin : Origin
deriving DecidableEq, Repr

/-- `message.get(key) or default`. -/
def orDefault (value : Option String) (default : String) : String :=
  match value with
  | none => default
  | some value => if value.isEmpty then default else value

/-- The message of an entry under `AgentRunner._apply_tool_result_budget`. -/
def budgetedMessage
    (spec : AgentRunSpec) (input : IterationInput) (index : Nat)
    (message : Message) : Message :=
  if message.role ≠ .tool then message
  else
    { message with
      content :=
        normalizeToolResult spec (input.budgetWriteFails index)
          (orDefault message.toolCallId ("tool_" ++ toString index))
          (orDefault message.name "tool") message.content }

/-- `AgentRunner._apply_tool_result_budget`. -/
def applyToolResultBudget
    (spec : AgentRunSpec) (input : IterationInput) (entries : List Entry) :
    List Entry :=
  entries.mapIdx fun index entry =>
    { entry with
      message := budgetedMessage spec input index entry.message }

/-- `AgentRunner._append_final_message`. -/
def appendFinalMessage (entries : List Entry) (content : String) :
    List Entry :=
  let final : Entry := ⟨buildAssistantMessage content [] none [], .turn⟩
  if content.isEmpty then entries
  else
    match entries.getLast? with
    | none => [final]
    | some last =>
        if last.message.role = .assistant ∧ last.message.toolCalls = [] then
          if last.message.content = .text content then entries
          else entries.dropLast ++ [final]
        else entries ++ [final]

/-! ## The loop -/

inductive CheckpointPhase where
  | awaitingTools
  | toolsCompleted
  | finalResponse
deriving DecidableEq, Repr

/-- The payload of a runtime checkpoint. -/
structure RuntimeCheckpoint where
  phase : CheckpointPhase
  iteration : Nat
  assistantMessage : Message
  completedToolResults : List Message
  pendingToolCalls : List ToolCall
deriving DecidableEq, Repr

/-- A payload with the entries there are when it is stored. -/
structure Emission where
  checkpoint : RuntimeCheckpoint
  entries : List Entry

inductive StopReason where
  | completed
  | toolError
  | malformedToolCallBudgetExhausted
  | error
  | emptyFinalResponse
  | maxIterations
deriving DecidableEq, Repr

/-- The variables of `AgentRunner.run`, and the payloads it stored. -/
structure RunState where
  entries : List Entry
  malformedRetryCount : Nat
  lastMalformedInputHash : Option Int
  emitted : List Emission

/-- How an iteration ends: with `continue`, or with `break`. -/
inductive IterationEnd where
  | next (state : RunState)
  | stop (state : RunState) (finalContent : String) (reason : StopReason)

/-- A character of a tag, up to its case. -/
def tagCharMatches (char pattern : Char) : Bool :=
  char.toLower = pattern ||
    (pattern = 'i' && [0x130, 0x131].contains char.toNat)

/-- The rest of a line after an opening tag, up to its case. -/
def afterTag : List Char → List Char → Option (List Char)
  | line, [] => some line
  | char :: line, pattern :: tag =>
      if tagCharMatches char pattern then afterTag line tag else none
  | [], _ :: _ => none

/-- A line `<tag=name>` with blanks around it. -/
def isTagLine (tag : String) (line : List Char) : Bool :=
  match afterTag (line.dropWhile isSpace) tag.toList with
  | none => false
  | some rest =>
      let name := rest.takeWhile (· ≠ '>')
      !name.isEmpty &&
        match rest.dropWhile (· ≠ '>') with
        | [] => false
        | _ :: blanks => blanks.all isSpace

/-- `_looks_like_malformed_tool_call`. -/
def looksLikeMalformedToolCall : Option String → Bool
  | none => false
  | some content =>
      (content.toList.splitOn '\n').any fun line =>
        isTagLine "<function=" line || isTagLine "<parameter=" line

/-- `_malformed_tool_call_feedback`. -/
def malformedToolCallFeedback (toolNames : List String) : String :=
  "Your previous response looked like an attempted tool call, but it was " ++
  "not valid and no tool was executed. Do not treat that as a final " ++
  "answer. Re-emit the intended action as a valid tool call using one of " ++
  "the available tools: " ++
  (if toolNames = [] then "(no tools available)"
    else ", ".intercalate toolNames) ++
  ".\n\nIf you are emitting Qwen XML tool-call text, wrap it exactly like " ++
  "this:\n<tool_call>\n<function=tool_name>\n<parameter=arg_name>\nvalue\n" ++
  "</parameter>\n</function>\n</tool_call>\n" ++
  "Do not omit the <tool_call> wrapper."

def defaultErrorMessage : String :=
  "Sorry, I encountered an error calling the AI model."

def emptyFinalResponseMessage : String :=
  "I completed the tool steps but couldn't produce a final answer. " ++
  "Please try again or narrow the task."

def defaultMaxIterationsMessage (maxIterations : Nat) : String :=
  "I reached the maximum number of tool call iterations (" ++
  toString maxIterations ++
  ") without completing the task. You can try breaking the task into " ++
  "smaller steps."

namespace AgentRunner

variable (spec : AgentRunSpec) (iteration : Nat) (input : IterationInput)

/-- An iteration whose response calls tools. -/
def runTools (state : RunState) : IterationEnd :=
  let response := input.response
  let assistantMessage :=
    buildAssistantMessage (response.content.getD "") response.toolCalls
      response.reasoningContent response.thinkingBlocks
  let asked := state.entries ++ [⟨assistantMessage, .turn⟩]
  let awaiting : RunState :=
    { state with
      entries := asked
      malformedRetryCount := 0
      emitted :=
        state.emitted ++
          [⟨⟨.awaitingTools, iteration, assistantMessage, [],
            response.toolCalls⟩, asked⟩] }
  let runs := response.toolCalls.mapIdx input.runTool
  let fatalError :=
    if spec.failOnToolError then runs.findSome? ToolRun.error else none
  match fatalError with
  | some failure =>
      let error := "Error: " ++ failure
      .stop
        { awaiting with entries := appendFinalMessage asked error }
        error .toolError
  | none =>
      let toolMessages :=
        (response.toolCalls.zip runs).mapIdx fun index item =>
          toolMessage item.1
            (normalizeToolResult spec (input.resultWriteFails index)
              item.1.id item.1.name item.2.result)
      let answered := asked ++ toolMessages.map (⟨·, .turn⟩)
      .next
        { awaiting with
          entries := answered
          emitted :=
            awaiting.emitted ++
              [⟨⟨.toolsCompleted, iteration, assistantMessage, toolMessages,
                []⟩, answered⟩] }

/-- The count of malformed responses to one and the same input. -/
def malformedCount (state : RunState) : Nat :=
  if state.lastMalformedInputHash = some input.inputHash then
    state.malformedRetryCount + 1
  else 1

def malformedRetryId (count : Nat) : String :=
  "malformed_retry_" ++ (toString iteration ++ ("_" ++ toString count))

/-- An iteration whose response is a malformed tool call. -/
def retryMalformed (state : RunState) : IterationEnd :=
  let response := input.response
  let count := malformedCount input state
  let counted : RunState :=
    { state with
      malformedRetryCount := count
      lastMalformedInputHash := some input.inputHash }
  if spec.malformedRetryBudget < (count : Int) then
    let finalContent :=
      "Tool-call format invalid after " ++
      toString spec.malformedRetryBudget ++
      " retries. Last attempt began with: " ++
      String.ofList ((response.content.getD "").toList.take 300) ++ "..."
    .stop
      { counted with
        entries := appendFinalMessage state.entries finalContent }
      finalContent .malformedToolCallBudgetExhausted
  else
    let call : ToolCall :=
      ⟨malformedRetryId iteration count, invalidToolCallName, "{}"⟩
    .next
      { counted with
        entries :=
          state.entries ++
            [⟨buildAssistantMessage (response.content.getD "") [call]
                response.reasoningContent response.thinkingBlocks, .retry⟩,
              ⟨toolMessage call
                (.text (malformedToolCallFeedback spec.toolNames)),
                .retry⟩] }

/-- The response that is finalized: a blank one is asked for once more. -/
def finalResponse : LlmResponse :=
  if input.response.isError = false ∧
      isBlankText (input.finalizeContent input.response.content) = true then
    input.finalizationRetry
  else input.response

/-- `clean or error_message or default`. -/
def errorContent (clean : Option String) : String :=
  orDefault clean (orDefault spec.errorMessage defaultErrorMessage)

/-- An iteration whose response is final. -/
def finish (state : RunState) : IterationEnd :=
  let response := finalResponse input
  let clean := input.finalizeContent response.content
  if response.isError then
    let finalContent := errorContent spec clean
    .stop
      { state with
        entries := appendFinalMessage state.entries finalContent }
      finalContent .error
  else
    match clean with
    | none =>
        .stop
          { state with
            entries :=
              appendFinalMessage state.entries emptyFinalResponseMessage }
          emptyFinalResponseMessage .emptyFinalResponse
    | some text =>
        if isBlank text then
          .stop
            { state with
              entries :=
                appendFinalMessage state.entries emptyFinalResponseMessage }
            emptyFinalResponseMessage .emptyFinalResponse
        else
          let assistantMessage :=
            buildAssistantMessage text [] response.reasoningContent
              response.thinkingBlocks
          let answered := state.entries ++ [⟨assistantMessage, .turn⟩]
          .stop
            { state with
              entries := answered
              emitted :=
                state.emitted ++
                  [⟨⟨.finalResponse, iteration, assistantMessage, [], []⟩,
                    answered⟩] }
            text .completed

/-- The body of the loop. -/
def iterate (state : RunState) : IterationEnd :=
  let budgeted : RunState :=
    { state with
      entries := applyToolResultBudget spec input state.entries }
  if input.response.toolCalls ≠ [] then
    runTools spec iteration input budgeted
  else if input.response.isError = false ∧
      looksLikeMalformedToolCall input.response.content = true then
    retryMalformed spec iteration input budgeted
  else finish spec iteration input budgeted

section Iterate

variable {spec iteration input} {state : RunState}

theorem iterate_of_calls (calls : input.response.toolCalls ≠ []) :
    iterate spec iteration input state =
      runTools spec iteration input
        { state with
          entries := applyToolResultBudget spec input state.entries } :=
  if_pos calls

theorem iterate_of_malformed (noCalls : input.response.toolCalls = [])
    (malformed :
      input.response.isError = false ∧
        looksLikeMalformedToolCall input.response.content = true) :
    iterate spec iteration input state =
      retryMalformed spec iteration input
        { state with
          entries := applyToolResultBudget spec input state.entries } :=
  (if_neg (not_not_intro noCalls)).trans (if_pos malformed)

/-- An iteration ends as the function does that its response calls for. -/
theorem iterate_elim {motive : IterationEnd → Prop}
    (tools : input.response.toolCalls ≠ [] →
      motive (runTools spec iteration input
        { state with
          entries := applyToolResultBudget spec input state.entries }))
    (malformed :
      motive (retryMalformed spec iteration input
        { state with
          entries := applyToolResultBudget spec input state.entries }))
    (final :
      motive (finish spec iteration input
        { state with
          entries := applyToolResultBudget spec input state.entries })) :
    motive (iterate spec iteration input state) := by
  unfold iterate
  split
  · next calls => exact tools calls
  · split
    · exact malformed
    · exact final

end Iterate

end AgentRunner

/-- `AgentRunResult`, with the payloads that were stored. -/
structure AgentRunResult where
  entries : List Entry
  finalContent : String
  stopReason : StopReason
  emitted : List Emission

/-- `result.messages`. -/
def AgentRunResult.messages (result : AgentRunResult) : List Message :=
  stripSyntheticMalformedPairs (result.entries.map Entry.message)

namespace AgentRunner

variable (spec : AgentRunSpec) (inputs : Nat → IterationInput)

/-- What the `else` of the loop does. -/
def exhausted (state : RunState) : AgentRunResult :=
  let template :=
    spec.maxIterationsMessage.getD defaultMaxIterationsMessage
  let finalContent := template spec.maxIterations
  { entries := appendFinalMessage state.entries finalContent
    finalContent := finalContent
    stopReason := .maxIterations
    emitted := state.emitted }

/-- The loop from an iteration on, with so many to go. -/
def loop : Nat → Nat → RunState → AgentRunResult
  | 0, _, state => exhausted spec state
  | remaining + 1, iteration, state =>
      match iterate spec iteration (inputs iteration) state with
      | .next state => loop remaining (iteration + 1) state
      | .stop state finalContent reason =>
          { entries := state.entries
            finalContent := finalContent
            stopReason := reason
            emitted := state.emitted }

theorem loop_add_one (remaining iteration : Nat) (state : RunState) :
    loop spec inputs (remaining + 1) iteration state =
      match iterate spec iteration (inputs iteration) state with
      | .next state => loop spec inputs remaining (iteration + 1) state
      | .stop state finalContent reason =>
          { entries := state.entries
            finalContent := finalContent
            stopReason := reason
            emitted := state.emitted } :=
  rfl

/-- `AgentRunner.run`. -/
def run (initialMessages : List Message) : AgentRunResult :=
  loop spec inputs spec.maxIterations 0
    { entries := initialMessages.map (⟨·, .initial⟩)
      malformedRetryCount := 0
      lastMalformedInputHash := none
      emitted := [] }

end AgentRunner

end AgentSchedBench.Agent
