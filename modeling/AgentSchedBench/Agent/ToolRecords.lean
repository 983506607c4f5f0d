import AgentSchedBench.Library.Dict
import AgentSchedBench.Library.Parts
import AgentSchedBench.Agent.Transcript
import Mathlib.Data.List.TakeWhile

/-!
# The records of tool calls

`AgentRunner.run` executes the tool calls of a response, and the trace hook
writes an action for each result it finds at the end of the messages.  What a
call is executed with and what the action tells of it meet in dictionaries
whose keys are the ids of the calls.

The records of several agents are written to one trace in any order.
-/

namespace AgentSchedBench.Agent

/-! ## The hook -/

/-- What a tool tells of its last run. -/
structure StructuredResult where
  returncode : Int
  timedOut : Bool
deriving DecidableEq, Repr

/-- A result with the id and the name of its call. -/
structure ToolResult where
  toolCallId : String
  name : String
  content : String
  ok : Bool
deriving DecidableEq, Repr

/-- An action `tool_exec`. -/
structure ToolExec where
  agentId : String
  iteration : Nat
  actionId : String
  toolName : String
  toolCallId : String
  toolArgs : String
  toolResult : String
  success : Bool
  structured : Option StructuredResult
deriving DecidableEq, Repr

/-- The action for a result. -/
def toolExec (agentId : String) (iteration : Nat) (result : ToolResult)
    (toolArgs : String) (structured : Option StructuredResult) :
    ToolExec where
  agentId := agentId
  iteration := iteration
  actionId :=
    "tool_" ++ toString iteration ++ "_" ++
      (if result.toolCallId.isEmpty then result.name else result.toolCallId)
  toolName := result.name
  toolCallId := result.toolCallId
  toolArgs := toolArgs
  toolResult := result.content
  success :=
    match structured with
    | some structured => !structured.timedOut
    | none => result.ok
  structured := structured

/-- `AgentHookContext` -/
structure HookContext where
  iteration : Nat
  messages : List Message
  toolCalls : List ToolCall
  structuredResults : Dict String StructuredResult

section Hook

variable (strBlocks : List Block → String)

/-- `str(content)` -/
def Content.str : Content → String
  | .none => "None"
  | .text value => value
  | .blocks items => strBlocks items

def toolResult (toolCallId name content : String) : ToolResult where
  toolCallId := toolCallId
  name := name
  content := content
  ok := !startsWith content "Error"

/-- The result that a message holds. -/
def Message.toolResult (message : Message) : ToolResult :=
  Agent.toolResult (message.toolCallId.getD "")
    (message.name.getD "unknown") (message.content.str strBlocks)

/-- `_extract_tool_results` -/
def extractToolResults (messages : List Message) : List ToolResult :=
  ((messages.reverse.takeWhile (·.role == .tool)).map
    (·.toolResult strBlocks)).reverse

/-- Is the result not one of a malformed response? -/
def ToolResult.traceable (result : ToolResult) : Bool :=
  result.name != invalidToolCallName &&
    !(!result.toolCallId.isEmpty &&
      startsWith result.toolCallId "malformed_retry_")

/-- `tool_args_by_id` -/
def toolArgsById (toolCalls : List ToolCall) : Dict String String :=
  Dict.gather (toolCalls.map fun call => (call.id, some call.arguments))

/-- The action that `after_iteration` writes for a result. -/
def HookContext.action (context : HookContext) (agentId : String)
    (result : ToolResult) : ToolExec :=
  toolExec agentId context.iteration result
    (((toolArgsById context.toolCalls).get result.toolCallId).getD "")
    (context.structuredResults.get result.toolCallId)

/--
The actions that `after_iteration` writes.  The hooks are called through a
`CompositeHook`: what is raised at a result ends the loop, and nobody else
notices.
-/
def HookContext.actions (context : HookContext) (agentId : String)
    (raises : Nat → Bool) : List ToolExec :=
  let results :=
    (extractToolResults strBlocks context.messages).filter
      ToolResult.traceable
  (results.zipIdx.takeWhile (!raises ·.2)).map
    fun item => context.action agentId item.1

end Hook

/-! ## The run -/

/--
What an iteration of a traced run meets with.  An exception may end the run
when some of the calls have been executed, and the trace hook may raise when
it comes to a result.
-/
structure TracedInput where
  input : IterationInput
  structured : Nat → Option StructuredResult
  interrupted : Option (Nat → Bool)
  hookRaises : Nat → Bool

/-- A run of an agent, or of a subagent. -/
structure TracedRun where
  agentId : String
  spec : AgentRunSpec
  inputs : Nat → TracedInput
  initialMessages : List Message

def IterationEnd.state : IterationEnd → RunState
  | .next state => state
  | .stop state _ _ => state

namespace TracedRun

variable (run : TracedRun)

/-- The iterations that begin, with the state they begin in. -/
def iterationsFrom : Nat → Nat → RunState → List (Nat × RunState)
  | 0, _, _ => []
  | remaining + 1, iteration, state =>
      let traced := run.inputs iteration
      (iteration, state) ::
        if traced.interrupted.isSome then []
        else
          match AgentRunner.iterate run.spec iteration traced.input state with
          | .next state => iterationsFrom remaining (iteration + 1) state
          | .stop _ _ _ => []

def iterations : List (Nat × RunState) :=
  run.iterationsFrom run.spec.maxIterations 0
    { entries := run.initialMessages.map (⟨·, .initial⟩)
      malformedRetryCount := 0
      lastMalformedInputHash := none
      emitted := [] }

/-- The calls of the response in the context of the hook. -/
def contextToolCalls (input : IterationInput) : List ToolCall :=
  if input.response.toolCalls ≠ [] ∨
      (input.response.isError = false ∧
        looksLikeMalformedToolCall input.response.content = true) then
    input.response.toolCalls
  else (AgentRunner.finalResponse input).toolCalls

/-- The results that tools told of, by the ids of the calls. -/
def structuredResults (traced : TracedInput) :
    Dict String StructuredResult :=
  Dict.gather
    (traced.input.response.toolCalls.mapIdx fun index call =>
      (call.id, traced.structured index))

/-- The context in which `after_iteration` is called. -/
def context (iteration : Nat) (state : RunState) : HookContext :=
  let traced := run.inputs iteration
  { iteration := iteration
    messages :=
      (AgentRunner.iterate run.spec iteration traced.input
        state).state.entries.map Entry.message
    toolCalls := contextToolCalls traced.input
    structuredResults := structuredResults traced }

variable (strBlocks : List Block → String)

/-- The actions that are written at the end of an iteration. -/
def recordedIn (iteration : Nat) (state : RunState) : List ToolExec :=
  let traced := run.inputs iteration
  if traced.interrupted.isSome then []
  else
    (run.context iteration state).actions strBlocks run.agentId
      traced.hookRaises

/-- The action that tells of the execution of a call. -/
def ownAction (iteration index : Nat) (call : ToolCall) : ToolExec :=
  let traced := run.inputs iteration
  let content :=
    normalizeToolResult run.spec (traced.input.resultWriteFails index)
      call.id call.name (traced.input.runTool index call).result
  toolExec run.agentId iteration
    (toolResult call.id call.name (content.str strBlocks))
    call.arguments (traced.structured index)

/-- Has the call been executed when the iteration is over? -/
def executes (traced : TracedInput) (index : Nat) : Bool :=
  match traced.interrupted with
  | none => true
  | some executed => executed index

/-- For each call that an iteration executes, the action that tells of it. -/
def executedIn (iteration : Nat) : List ToolExec :=
  let traced := run.inputs iteration
  ((traced.input.response.toolCalls.zipIdx.filter
    (executes traced ·.2)).map
      fun item => run.ownAction strBlocks iteration item.2 item.1)

/-- The actions that the hook writes. -/
def recorded : List ToolExec :=
  run.iterations.flatMap fun begun =>
    run.recordedIn strBlocks begun.1 begun.2

/-- For each call that is executed, the action that tells of it. -/
def executed : List ToolExec :=
  run.iterations.flatMap fun begun => run.executedIn strBlocks begun.1

end TracedRun

/-! ## The messages at the end of an iteration -/

section Messages

variable {strBlocks : List Block → String}

/-- The results are those of the tool messages after the last other one. -/
theorem extractToolResults_append (front : List Message) {last : Message}
    {tools : List Message} (notTool : last.role ≠ .tool)
    (areTools : ∀ message ∈ tools, message.role = .tool) :
    extractToolResults strBlocks (front ++ [last] ++ tools) =
      tools.map (·.toolResult strBlocks) := by
  have areToolsReversed :
      ∀ message ∈ tools.reverse, (message.role == Role.tool) = true := by
    intro message member
    exact beq_iff_eq.mpr (areTools message (List.mem_reverse.mp member))
  rw [extractToolResults, List.reverse_append, List.takeWhile_append_of_pos
    areToolsReversed, List.reverse_append, List.reverse_singleton,
    List.singleton_append, List.takeWhile_cons_of_neg (by simpa using notTool),
    List.append_nil, List.map_reverse, List.reverse_reverse]

/-- After a reply there is no result. -/
theorem extractToolResults_reply (front : List Message) {last : Message}
    (notTool : last.role ≠ .tool) :
    extractToolResults strBlocks (front ++ [last]) = [] := by
  rw [← List.append_nil (front ++ [last]),
    extractToolResults_append front notTool (List.forall_mem_nil _)]
  rfl

/-- After a final message there is no result. -/
theorem extractToolResults_final (entries : List Entry) {content : String}
    (nonempty : content.isEmpty = false) :
    extractToolResults strBlocks
      ((appendFinalMessage entries content).map Entry.message) = [] := by
  rw [appendFinalMessage, if_neg (by simp [nonempty])]
  cases isLast : entries.getLast? with
  | none => exact extractToolResults_reply [] (by rintro ⟨⟩)
  | some last =>
      dsimp only
      split
      · next isReply =>
          split
          · obtain ⟨front, rfl⟩ := List.getLast?_eq_some_iff.mp isLast
            rw [List.map_append, List.map_singleton]
            apply extractToolResults_reply
            rw [isReply.1]
            rintro ⟨⟩
          · rw [List.map_append, List.map_singleton]
            exact extractToolResults_reply _ (by rintro ⟨⟩)
      · rw [List.map_append, List.map_singleton]
        exact extractToolResults_reply _ (by rintro ⟨⟩)

theorem orDefault_nonempty (value : Option String) {default : String}
    (nonempty : default.isEmpty = false) :
    (orDefault value default).isEmpty = false := by
  rw [orDefault.eq_def]
  split
  · exact nonempty
  · split
    · exact nonempty
    · simp_all

theorem errorContent_nonempty (spec : AgentRunSpec)
    (clean : Option String) :
    (AgentRunner.errorContent spec clean).isEmpty = false :=
  orDefault_nonempty _ (orDefault_nonempty _ (by decide))

variable {spec : AgentRunSpec} {iteration : Nat} {input : IterationInput}
  {state : RunState}

/-- At the end of a final iteration there is no result. -/
theorem extractToolResults_finish :
    extractToolResults strBlocks
      ((AgentRunner.finish spec iteration input
        state).state.entries.map Entry.message) = [] := by
  rw [AgentRunner.finish]
  dsimp only
  split
  · exact extractToolResults_final _ (errorContent_nonempty _ _)
  · have nonempty : emptyFinalResponseMessage.isEmpty = false := by decide
    split
    · exact extractToolResults_final _ nonempty
    · split
      · exact extractToolResults_final _ nonempty
      · dsimp only [IterationEnd.state]
        rw [List.map_append]
        exact extractToolResults_reply _ (by rintro ⟨⟩)

/-- The result of a malformed response is not traced. -/
theorem traceable_retryMalformed :
    (extractToolResults strBlocks
      ((AgentRunner.retryMalformed spec iteration input
        state).state.entries.map Entry.message)).filter
          ToolResult.traceable = [] := by
  rw [AgentRunner.retryMalformed]
  dsimp only
  split
  · rw [IterationEnd.state, extractToolResults_final]
    · rfl
    · rw [String.append_assoc, String.append_assoc, String.append_assoc]
      exact AgentRunner.append_nonempty _ (by decide)
  · rw [IterationEnd.state, List.map_append, List.map_cons, List.map_cons,
      List.map_nil, ← List.singleton_append, ← List.append_assoc,
      extractToolResults_append]
    · rfl
    · rintro ⟨⟩
    · intro message member
      rw [List.mem_singleton.mp member]
      rfl

/-- An iteration without tool calls leaves no result to be traced. -/
theorem traceable_iterate (noCalls : input.response.toolCalls = []) :
    (extractToolResults strBlocks
      ((AgentRunner.iterate spec iteration input
        state).state.entries.map Entry.message)).filter
          ToolResult.traceable = [] := by
  refine AgentRunner.iterate_elim
    (motive := fun ended =>
      (extractToolResults strBlocks
        (ended.state.entries.map Entry.message)).filter
          ToolResult.traceable = [])
    (fun calls => absurd noCalls calls) traceable_retryMalformed ?_
  rw [extractToolResults_finish]
  rfl

/-- The error that ends a run when tools must not fail. -/
def fatalError (spec : AgentRunSpec) (input : IterationInput) :
    Option String :=
  if spec.failOnToolError then
    (input.response.toolCalls.mapIdx input.runTool).findSome? ToolRun.error
  else none

/-- After a fatal error there is no result. -/
theorem extractToolResults_fatal
    (fatal : (fatalError spec input).isSome) :
    extractToolResults strBlocks
      ((AgentRunner.runTools spec iteration input
        state).state.entries.map Entry.message) = [] := by
  obtain ⟨failure, isFatal⟩ := Option.isSome_iff_exists.mp fatal
  rw [fatalError] at isFatal
  rw [AgentRunner.runTools]
  dsimp only
  rw [isFatal]
  have nonempty : "Error: " ≠ "" := by decide
  exact extractToolResults_final _ (AgentRunner.append_nonempty _ nonempty)

/-- The result of a call as the messages hold it. -/
def callResult (strBlocks : List Block → String) (spec : AgentRunSpec)
    (input : IterationInput) (item : ToolCall × Nat) : ToolResult :=
  toolResult item.1.id item.1.name
    ((normalizeToolResult spec (input.resultWriteFails item.2) item.1.id
      item.1.name (input.runTool item.2 item.1).result).str strBlocks)

/-- Otherwise there is a result for each call. -/
theorem extractToolResults_runTools
    (notFatal : fatalError spec input = none) :
    extractToolResults strBlocks
      ((AgentRunner.runTools spec iteration input
        state).state.entries.map Entry.message) =
      input.response.toolCalls.zipIdx.map
        (callResult strBlocks spec input) := by
  rw [fatalError] at notFatal
  rw [AgentRunner.runTools]
  dsimp only
  rw [notFatal]
  dsimp only [IterationEnd.state]
  rw [List.map_append, List.map_append, List.map_singleton,
    extractToolResults_append]
  · rw [List.map_map, List.map_map]
    apply List.ext_getElem
    · simp
    · intro index _ _
      simp [callResult, toolMessage, Message.toolResult]
  · rintro ⟨⟩
  · intro message member
    rw [List.map_map] at member
    obtain ⟨answer, isAnswer, rfl⟩ := List.mem_map.mp member
    obtain ⟨index, _, rfl⟩ := List.mem_mapIdx.mp isAnswer
    rfl

end Messages

/-! ## The actions of an iteration -/

section Actions

variable {strBlocks : List Block → String} {context : HookContext}
  {agentId : String} {raises : Nat → Bool} {results : List ToolResult}

/-- There is not more than an action for each result. -/
theorem HookContext.length_actions_le :
    (context.actions strBlocks agentId raises).length ≤
      ((extractToolResults strBlocks context.messages).filter
        ToolResult.traceable).length := by
  rw [actions, List.length_map]
  exact
    (List.takeWhile_prefix _).length_le.trans (le_of_eq List.length_zipIdx)

/-- There is an action for each result if all of them are traced. -/
theorem HookContext.length_actions_iff
    (found : extractToolResults strBlocks context.messages = results) :
    (context.actions strBlocks agentId raises).length = results.length ↔
      (∀ result ∈ results, result.traceable = true) ∧
        ∀ index < results.length, raises index = false := by
  constructor
  · intro same
    have atMost :
        (context.actions strBlocks agentId raises).length ≤
          (results.filter ToolResult.traceable).length := by
      rw [← found]
      exact length_actions_le
    have filtered := List.length_filter_le ToolResult.traceable results
    have traced := List.length_filter_eq_length_iff.mp
      (show (results.filter ToolResult.traceable).length =
        results.length by omega)
    refine ⟨traced, ?_⟩
    rw [actions, found, List.filter_eq_self.mpr traced, List.length_map]
      at same
    have all := (List.takeWhile_prefix _).eq_of_length
      (same.trans (List.length_zipIdx).symm)
    intro index inRange
    have here := List.takeWhile_eq_self_iff.mp all
      (results[index], index) (List.mk_mem_zipIdx_iff_getElem?.mpr
        (List.getElem?_eq_getElem inRange))
    simpa using here
  · rintro ⟨traced, noRaise⟩
    rw [actions, found, List.filter_eq_self.mpr traced, List.length_map,
      List.takeWhile_eq_self_iff.mpr, List.length_zipIdx]
    rintro ⟨result, index⟩ member
    have inRange := (List.mem_zipIdx' member).1
    simpa using noRaise index inRange

/-- The actions, when all results are traced. -/
theorem HookContext.actions_eq
    (found : extractToolResults strBlocks context.messages = results)
    (traced : ∀ result ∈ results, result.traceable = true)
    (noRaise : ∀ index < results.length, raises index = false) :
    context.actions strBlocks agentId raises =
      results.map (context.action agentId) := by
  rw [actions, found, List.filter_eq_self.mpr traced,
    List.takeWhile_eq_self_iff.mpr]
  · apply List.ext_getElem
    · simp
    · intro index _ _
      simp
  · rintro ⟨result, index⟩ member
    have inRange := (List.mem_zipIdx' member).1
    simpa using noRaise index inRange

end Actions

/-! ## When the records are right -/

theorem forall_mem_zipIdx_iff {α : Type} {items : List α}
    (holds : α → Prop) :
    (∀ item ∈ items, holds item) ↔
      ∀ item ∈ items.zipIdx, holds item.1 := by
  constructor
  · intro all item member
    exact all item.1 ((List.mem_zipIdx' member).2 ▸ List.getElem_mem _)
  · intro all item member
    obtain ⟨index, inRange, rfl⟩ := List.mem_iff_getElem.mp member
    exact all (items[index], index) (List.mk_mem_zipIdx_iff_getElem?.mpr
      (List.getElem?_eq_getElem inRange))

namespace TracedRun

/--
The calls of an iteration are recorded: no error is fatal, the calls are not
taken for those of a malformed response, calls with the same id are the same,
and the hook does not raise.
-/
structure Recordable (run : TracedRun) (iteration : Nat) : Prop where
  notFatal :
    run.spec.failOnToolError = true →
      ∀ item ∈ (run.inputs iteration).input.response.toolCalls.zipIdx,
        ((run.inputs iteration).input.runTool item.2 item.1).error = none
  traceable :
    ∀ call ∈ (run.inputs iteration).input.response.toolCalls,
      call.name ≠ invalidToolCallName ∧
        startsWith call.id "malformed_retry_" = false
  sameId :
    ∀ item ∈ (run.inputs iteration).input.response.toolCalls.zipIdx,
      ∀ other ∈ (run.inputs iteration).input.response.toolCalls.zipIdx,
        item.1.id = other.1.id →
          item.1.arguments = other.1.arguments ∧
            (run.inputs iteration).structured item.2 =
              (run.inputs iteration).structured other.2
  noRaise :
    ∀ index < (run.inputs iteration).input.response.toolCalls.length,
      (run.inputs iteration).hookRaises index = false

/--
An iteration that is interrupted has not executed a call; one that is not has
calls that are recorded.
-/
def KeepsCalls (run : TracedRun) (iteration : Nat) : Prop :=
  match (run.inputs iteration).interrupted with
  | some executed =>
      ∀ index < (run.inputs iteration).input.response.toolCalls.length,
        executed index = false
  | none => run.Recordable iteration

section Iteration

variable {strBlocks : List Block → String} {run : TracedRun}
  {iteration : Nat} {state : RunState}

theorem fatalError_eq_none_iff {spec : AgentRunSpec}
    {input : IterationInput} :
    fatalError spec input = none ↔
      (spec.failOnToolError = true →
        ∀ item ∈ input.response.toolCalls.zipIdx,
          (input.runTool item.2 item.1).error = none) := by
  rw [fatalError]
  cases spec.failOnToolError with
  | false => simp
  | true =>
      rw [if_pos rfl, List.findSome?_eq_none_iff, List.mapIdx_eq_zipIdx_map,
        List.forall_mem_map]
      simp

/-- Is the result of a call traced? -/
theorem traceable_callResult {spec : AgentRunSpec} {input : IterationInput}
    (item : ToolCall × Nat) :
    (callResult strBlocks spec input item).traceable = true ↔
      item.1.name ≠ invalidToolCallName ∧
        startsWith item.1.id "malformed_retry_" = false := by
  have emptyId : item.1.id.isEmpty = true →
      startsWith item.1.id "malformed_retry_" = false := by
    intro isEmpty
    rw [String.isEmpty_iff.mp isEmpty]
    rfl
  rw [ToolResult.traceable, callResult, toolResult]
  cases isEmpty : item.1.id.isEmpty with
  | true => simp [emptyId isEmpty]
  | false => simp

/-- The arguments are bound to the ids of the calls they belong to. -/
theorem toolArgsById_own_iff (calls : List ToolCall) :
    (∀ item ∈ calls.zipIdx,
      (toolArgsById calls).get item.1.id = some item.1.arguments) ↔
      ∀ item ∈ calls.zipIdx, ∀ other ∈ calls.zipIdx,
        item.1.id = other.1.id →
          item.1.arguments = other.1.arguments := by
  have own := Dict.gather_own_iff
    (calls.zipIdx.map fun item => (item.1.id, some item.1.arguments))
  have bindings :
      calls.map (fun call => (call.id, some call.arguments)) =
        calls.zipIdx.map
          fun item => (item.1.id, some item.1.arguments) := by
    conv_lhs => rw [← List.zipIdx_map_fst 0 calls, List.map_map]
    rfl
  rw [toolArgsById, bindings]
  simpa only [List.forall_mem_map, Option.some_inj] using own

/-- So are the results that tools tell of. -/
theorem structuredResults_own_iff (traced : TracedInput) :
    (∀ item ∈ traced.input.response.toolCalls.zipIdx,
      (structuredResults traced).get item.1.id =
        traced.structured item.2) ↔
      ∀ item ∈ traced.input.response.toolCalls.zipIdx,
        ∀ other ∈ traced.input.response.toolCalls.zipIdx,
          item.1.id = other.1.id →
            traced.structured item.2 = traced.structured other.2 := by
  have own := Dict.gather_own_iff
    (traced.input.response.toolCalls.zipIdx.map fun item =>
      (item.1.id, traced.structured item.2))
  rw [structuredResults, List.mapIdx_eq_zipIdx_map]
  simpa only [List.forall_mem_map] using own

/-- The calls that an iteration executes, if it is not interrupted. -/
theorem executedIn_eq
    (uninterrupted : (run.inputs iteration).interrupted = none) :
    run.executedIn strBlocks iteration =
      (run.inputs iteration).input.response.toolCalls.zipIdx.map
        fun item => run.ownAction strBlocks iteration item.2 item.1 := by
  have executesAll :
      ∀ item ∈ (run.inputs iteration).input.response.toolCalls.zipIdx,
        executes (run.inputs iteration) item.2 = true := by
    intro item _
    rw [executes, uninterrupted]
  rw [executedIn, List.filter_eq_self.mpr executesAll]

/-- An interrupted iteration is recorded if it has executed nothing. -/
theorem recordedIn_interrupted_iff {executed : Nat → Bool}
    (interrupted :
      (run.inputs iteration).interrupted = some executed) :
    (run.recordedIn strBlocks iteration state).Perm
        (run.executedIn strBlocks iteration) ↔
      ∀ index < (run.inputs iteration).input.response.toolCalls.length,
        executed index = false := by
  rw [recordedIn, executedIn, interrupted, Option.isSome_some, if_pos rfl,
    List.nil_perm, List.map_eq_nil_iff, List.filter_eq_nil_iff]
  simp only [executes, interrupted, Bool.not_eq_true]
  constructor
  · intro nothing index inRange
    exact nothing (_, index) (List.mk_mem_zipIdx_iff_getElem?.mpr
      (List.getElem?_eq_getElem inRange))
  · rintro nothing ⟨call, index⟩ member
    exact nothing index (List.mem_zipIdx' member).1

/-- Without calls there is nothing to be recorded. -/
theorem recordedIn_noCalls
    (uninterrupted : (run.inputs iteration).interrupted = none)
    (noCalls : (run.inputs iteration).input.response.toolCalls = []) :
    run.recordedIn strBlocks iteration state = [] := by
  rw [recordedIn, uninterrupted, Option.isSome_none, if_neg nofun,
    HookContext.actions, context]
  dsimp only
  rw [traceable_iterate noCalls]
  rfl

/-- The messages of an iteration with calls are those that tools leave. -/
theorem context_messages (state : RunState)
    (calls : (run.inputs iteration).input.response.toolCalls ≠ []) :
    ∃ state',
      (run.context iteration state).messages =
        (AgentRunner.runTools run.spec iteration
          (run.inputs iteration).input state').state.entries.map
            Entry.message := by
  rw [context]
  dsimp only
  rw [AgentRunner.iterate_of_calls calls]
  exact ⟨_, rfl⟩

/-- A fatal error leaves nothing recorded. -/
theorem recordedIn_fatal
    (uninterrupted : (run.inputs iteration).interrupted = none)
    (fatal : (fatalError run.spec (run.inputs iteration).input).isSome)
    (calls : (run.inputs iteration).input.response.toolCalls ≠ []) :
    run.recordedIn strBlocks iteration state = [] := by
  obtain ⟨state', messages⟩ := context_messages state calls
  rw [recordedIn, uninterrupted, Option.isSome_none, if_neg nofun,
    HookContext.actions, messages, extractToolResults_fatal fatal]
  rfl

/-- The dictionaries of an iteration give a call what is its own. -/
def FindsOwn (run : TracedRun) (iteration : Nat) (item : ToolCall × Nat) :
    Prop :=
  (toolArgsById
    (run.inputs iteration).input.response.toolCalls).get item.1.id =
      some item.1.arguments ∧
    (structuredResults (run.inputs iteration)).get item.1.id =
      (run.inputs iteration).structured item.2

theorem findsOwn_iff :
    (∀ item ∈ (run.inputs iteration).input.response.toolCalls.zipIdx,
      run.FindsOwn iteration item) ↔
      ∀ item ∈ (run.inputs iteration).input.response.toolCalls.zipIdx,
        ∀ other ∈ (run.inputs iteration).input.response.toolCalls.zipIdx,
          item.1.id = other.1.id →
            item.1.arguments = other.1.arguments ∧
              (run.inputs iteration).structured item.2 =
                (run.inputs iteration).structured other.2 := by
  have arguments := toolArgsById_own_iff
    (run.inputs iteration).input.response.toolCalls
  have structured := structuredResults_own_iff (run.inputs iteration)
  simp only [FindsOwn, forall_and, arguments, structured]

/-- The action for a result of such a call tells of it. -/
theorem action_own (state : RunState) {item : ToolCall × Nat}
    (calls : (run.inputs iteration).input.response.toolCalls ≠ [])
    (findsOwn : run.FindsOwn iteration item) :
    (run.context iteration state).action run.agentId
        (callResult strBlocks run.spec (run.inputs iteration).input item) =
      run.ownAction strBlocks iteration item.2 item.1 := by
  simp only [HookContext.action, context, contextToolCalls, callResult,
    toolResult, ownAction, calls, ne_eq, not_false_eq_true, true_or,
    if_true, findsOwn.1, findsOwn.2, Option.getD_some]

/-- A call that an action tells of is given what is its own. -/
theorem findsOwn_of_action (state : RunState) {item other : ToolCall × Nat}
    (member :
      other ∈ (run.inputs iteration).input.response.toolCalls.zipIdx)
    (same :
      (run.context iteration state).action run.agentId
          (callResult strBlocks run.spec (run.inputs iteration).input
            other) =
        run.ownAction strBlocks iteration item.2 item.1) :
    run.FindsOwn iteration item := by
  have calls : (run.inputs iteration).input.response.toolCalls ≠ [] := by
    intro noCalls
    rw [noCalls] at member
    cases member
  have isBound : ((toolArgsById
      (run.inputs iteration).input.response.toolCalls).get
        other.1.id).isSome = true := by
    apply Dict.gather_bound
    apply List.mem_map_of_mem
    exact (List.mem_zipIdx' member).2 ▸ List.getElem_mem _
  obtain ⟨found, bound⟩ := Option.isSome_iff_exists.mp isBound
  simp only [HookContext.action, context, contextToolCalls, callResult,
    toolResult, ownAction, calls, ne_eq, not_false_eq_true, true_or,
    if_true, bound, Option.getD_some] at same
  have sameId : other.1.id = item.1.id := congrArg ToolExec.toolCallId same
  have arguments : found = item.1.arguments :=
    congrArg ToolExec.toolArgs same
  have structured := congrArg ToolExec.structured same
  rw [FindsOwn, ← sameId, bound, arguments]
  exact ⟨rfl, structured⟩

/-- Without an interruption or a fatal error. -/
theorem recordedIn_executed_iff
    (uninterrupted : (run.inputs iteration).interrupted = none)
    (notFatal : fatalError run.spec (run.inputs iteration).input = none)
    (calls : (run.inputs iteration).input.response.toolCalls ≠ []) :
    (run.recordedIn strBlocks iteration state).Perm
        (run.executedIn strBlocks iteration) ↔
      run.Recordable iteration := by
  obtain ⟨state', messages⟩ := context_messages state calls
  have found :
      extractToolResults strBlocks (run.context iteration state).messages =
        (run.inputs iteration).input.response.toolCalls.zipIdx.map
          (callResult strBlocks run.spec (run.inputs iteration).input) := by
    rw [messages, extractToolResults_runTools notFatal]
  rw [executedIn_eq uninterrupted, recordedIn, uninterrupted,
    Option.isSome_none, if_neg nofun]
  constructor
  · intro same
    have sameLength := same.length_eq
    rw [List.length_map, ← List.length_map (callResult strBlocks run.spec
      (run.inputs iteration).input)] at sameLength
    obtain ⟨traced, noRaise⟩ :=
      (HookContext.length_actions_iff found).mp sameLength
    rw [HookContext.actions_eq found traced noRaise, List.map_map] at same
    rw [List.forall_mem_map] at traced
    rw [List.length_map, List.length_zipIdx] at noRaise
    refine ⟨fatalError_eq_none_iff.mp notFatal, ?_, ?_, noRaise⟩
    · refine (forall_mem_zipIdx_iff _).mpr fun item member => ?_
      exact (traceable_callResult item).mp (traced item member)
    · apply findsOwn_iff.mp
      intro item member
      have recorded := same.mem_iff.mpr (List.mem_map_of_mem member)
      obtain ⟨other, otherMember, action⟩ := List.mem_map.mp recorded
      exact findsOwn_of_action state otherMember action
  · intro recordable
    have traced : ∀ result ∈
        (run.inputs iteration).input.response.toolCalls.zipIdx.map
          (callResult strBlocks run.spec (run.inputs iteration).input),
        result.traceable = true := by
      rw [List.forall_mem_map]
      intro item member
      apply (traceable_callResult item).mpr
      exact (forall_mem_zipIdx_iff _).mp recordable.traceable item member
    rw [HookContext.actions_eq found traced
      (by simpa using recordable.noRaise), List.map_map]
    apply List.Perm.of_eq
    apply List.map_congr_left
    intro item member
    exact action_own state calls
      (findsOwn_iff.mpr recordable.sameId item member)

/-- The calls of an iteration are recorded just if the condition holds. -/
theorem recordedIn_iff :
    (run.recordedIn strBlocks iteration state).Perm
        (run.executedIn strBlocks iteration) ↔
      run.KeepsCalls iteration := by
  rw [KeepsCalls]
  cases interrupted : (run.inputs iteration).interrupted with
  | some executed => exact recordedIn_interrupted_iff interrupted
  | none =>
      dsimp only
      by_cases calls :
          (run.inputs iteration).input.response.toolCalls = []
      · rw [recordedIn_noCalls interrupted calls, executedIn_eq interrupted,
          calls]
        refine iff_of_true (List.Perm.refl _) ⟨?_, ?_, ?_, ?_⟩ <;>
          simp [calls]
      · cases fatal : fatalError run.spec (run.inputs iteration).input with
        | none => exact recordedIn_executed_iff interrupted fatal calls
        | some failure =>
            rw [recordedIn_fatal interrupted (by simp [fatal]) calls,
              executedIn_eq interrupted]
            apply iff_of_false
            · rw [List.nil_perm]
              simpa using calls
            · intro recordable
              have notFatal :=
                fatalError_eq_none_iff.mpr recordable.notFatal
              rw [fatal] at notFatal
              cases notFatal

end Iteration

/-! ## The run -/

section Run

variable {strBlocks : List Block → String} (run : TracedRun)

/-- The iterations have different numbers. -/
theorem iterationsFrom_numbers (remaining iteration : Nat)
    (state : RunState) :
    ((run.iterationsFrom remaining iteration state).map Prod.fst).Nodup ∧
      ∀ begun ∈ run.iterationsFrom remaining iteration state,
        iteration ≤ begun.1 := by
  induction remaining generalizing iteration state with
  | zero => exact ⟨List.nodup_nil, nofun⟩
  | succ remaining induction =>
      have ends {rest : List (Nat × RunState)}
          (numbered :
            (rest.map Prod.fst).Nodup ∧
              ∀ begun ∈ rest, iteration + 1 ≤ begun.1) :
          (((iteration, state) :: rest).map Prod.fst).Nodup ∧
            ∀ begun ∈ (iteration, state) :: rest,
              iteration ≤ begun.1 := by
        rw [List.map_cons, List.nodup_cons, List.forall_mem_cons]
        refine ⟨⟨?_, numbered.1⟩, Nat.le_refl _, ?_⟩
        · intro member
          obtain ⟨begun, later, same⟩ := List.mem_map.mp member
          have afterwards := numbered.2 begun later
          omega
        · intro begun later
          exact Nat.le_of_succ_le (numbered.2 begun later)
      rw [iterationsFrom]
      split
      · exact ends ⟨List.nodup_nil, nofun⟩
      · cases AgentRunner.iterate run.spec iteration
          (run.inputs iteration).input state with
        | next state => exact ends (induction _ _)
        | stop _ _ _ => exact ends ⟨List.nodup_nil, nofun⟩

theorem recordedIn_iteration {iteration : Nat} {state : RunState} :
    ∀ action ∈ run.recordedIn strBlocks iteration state,
      action.iteration = iteration := by
  intro action member
  rw [recordedIn] at member
  split at member
  · cases member
  · obtain ⟨result, _, rfl⟩ := List.mem_map.mp member
    rfl

theorem executedIn_iteration {iteration : Nat} :
    ∀ action ∈ run.executedIn strBlocks iteration,
      action.iteration = iteration := by
  intro action member
  obtain ⟨item, _, rfl⟩ := List.mem_map.mp member
  rfl

/-- A run is recorded just if the condition holds of each iteration. -/
theorem recorded_iff :
    (run.recorded strBlocks).Perm (run.executed strBlocks) ↔
      ∀ begun ∈ run.iterations, run.KeepsCalls begun.1 := by
  have distinct : (run.iterations.map Prod.fst).Nodup :=
    (run.iterationsFrom_numbers _ _ _).1
  rw [recorded, executed,
    Parts.perm_flatMap_iff Prod.fst ToolExec.iteration distinct
      (fun _ => run.recordedIn_iteration)
      (fun _ => run.executedIn_iteration)]
  simp only [recordedIn_iff]

end Run

end TracedRun

/-! ## The trace of several runs -/

section Trace

variable (strBlocks : List Block → String)

/-- The actions of the runs, each with the run that it belongs to. -/
def actionsOf (actions : TracedRun → List ToolExec)
    (runs : List TracedRun) : List (Nat × ToolExec) :=
  runs.zipIdx.flatMap fun item => (actions item.1).map (item.2, ·)

/-- The hooks of the runs write to one trace, in any order. -/
def WrittenBy (runs : List TracedRun) (trace : List (Nat × ToolExec)) :
    Prop :=
  trace.Perm (actionsOf (·.recorded strBlocks) runs)

/--
For each call that is executed there is one action, which has its name,
arguments and result, and there is no other action.
-/
def RecordsEachOnce (runs : List TracedRun)
    (trace : List (Nat × ToolExec)) : Prop :=
  trace.Perm (actionsOf (·.executed strBlocks) runs)

variable {strBlocks}

/-- The runs are compared one by one. -/
theorem actionsOf_perm_iff {left right : TracedRun → List ToolExec}
    {runs : List TracedRun} :
    (actionsOf left runs).Perm (actionsOf right runs) ↔
      ∀ run ∈ runs, (left run).Perm (right run) := by
  have belongs {actions : TracedRun → List ToolExec} :
      ∀ item : TracedRun × Nat, ∀ action ∈ (actions item.1).map (item.2, ·),
        action.1 = item.2 := by
    intro item action member
    obtain ⟨_, _, rfl⟩ := List.mem_map.mp member
    rfl
  have injective (index : Nat) :
      Function.Injective (fun action : ToolExec => (index, action)) :=
    fun _ _ same => congrArg Prod.snd same
  have distinct : (runs.zipIdx.map Prod.snd).Nodup := by
    rw [List.zipIdx_map_snd]
    exact List.nodup_range' _
  rw [actionsOf, actionsOf,
    Parts.perm_flatMap_iff Prod.snd Prod.fst distinct belongs belongs]
  simp only [List.map_perm_map_iff (injective _)]
  exact (forall_mem_zipIdx_iff fun run => (left run).Perm (right run)).symm

/--
Whatever order the hooks write in, each call that is executed is recorded once
if and only if in every iteration of every run the calls are recorded.
-/
theorem recordsEachOnce_iff (runs : List TracedRun)
    (trace : List (Nat × ToolExec))
    (written : WrittenBy strBlocks runs trace) :
    RecordsEachOnce strBlocks runs trace ↔
      ∀ run ∈ runs, ∀ begun ∈ run.iterations, run.KeepsCalls begun.1 := by
  calc
    RecordsEachOnce strBlocks runs trace
    _ ↔ (actionsOf (·.recorded strBlocks) runs).Perm
          (actionsOf (·.executed strBlocks) runs) :=
        ⟨written.symm.trans, written.trans⟩
    _ ↔ ∀ run ∈ runs,
          (run.recorded strBlocks).Perm (run.executed strBlocks) :=
        actionsOf_perm_iff
    _ ↔ ∀ run ∈ runs, ∀ begun ∈ run.iterations, run.KeepsCalls begun.1 := by
        simp only [TracedRun.recorded_iff]

/-! ### A failing call of a subagent -/

def makeCall : ToolCall where
  id := "call_1"
  name := "exec"
  arguments := "\x7b\"command\": \"make\"\x7d"

/-- An iteration in which `make` is called, with what comes of it. -/
def makeInput (ran : ToolRun) : IterationInput where
  response := ⟨none, [makeCall], false, none, []⟩
  finalizationRetry := ⟨none, [], false, none, []⟩
  finalizeContent := id
  runTool := fun _ _ => ran
  inputHash := 0
  budgetWriteFails := fun _ => false
  resultWriteFails := fun _ => false

/-- A run of a subagent that calls `make` in one iteration. -/
def makeRun (ran : ToolRun) (structured : StructuredResult) :
    TracedRun where
  agentId := "task/5f3c"
  spec :=
    { toolNames := ["exec"]
      maxIterations := 1
      maxToolResultChars := 16000
      errorMessage := none
      maxIterationsMessage := none
      failOnToolError := true
      toolResultPath := none
      malformedRetryBudget := 3 }
  inputs := fun _ =>
    { input := makeInput ran
      structured := fun _ => some structured
      interrupted := none
      hookRaises := fun _ => false }
  initialMessages := [plainMessage .user (.text "Build it.")]

/-- What is built is recorded. -/
theorem built_recorded :
    RecordsEachOnce (fun _ => "") [makeRun ⟨.text "ok", none⟩ ⟨0, false⟩]
      (actionsOf (·.recorded fun _ => "")
        [makeRun ⟨.text "ok", none⟩ ⟨0, false⟩]) := by
  refine (recordsEachOnce_iff _ _ (List.Perm.refl _)).mpr ?_
  intro run member begun _
  cases List.mem_singleton.mp member
  constructor
  · intro _ item _
    rfl
  · intro call isCall
    cases List.mem_singleton.mp isCall
    decide
  · rintro ⟨call, index⟩ isCall ⟨other, otherIndex⟩ isOther _
    cases List.mem_singleton.mp isCall
    cases List.mem_singleton.mp isOther
    exact ⟨rfl, rfl⟩
  · intro _ _
    rfl

/-- A command that times out ends the subagent, and is not recorded. -/
theorem fatal_call_not_recorded :
    WrittenBy (fun _ => "")
        [makeRun ⟨.text "Error: timed out", some "timed out"⟩ ⟨124, true⟩]
        [] ∧
      ¬ RecordsEachOnce (fun _ => "")
        [makeRun ⟨.text "Error: timed out", some "timed out"⟩ ⟨124, true⟩]
        [] := by
  constructor
  · rw [WrittenBy, List.nil_perm]
    decide
  · rw [RecordsEachOnce, List.nil_perm]
    decide

end Trace

end AgentSchedBench.Agent
