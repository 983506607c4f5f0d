import AgentSchedBench.Agent.CheckpointedActions
import AgentSchedBench.Library.Dict
import AgentSchedBench.Library.Tasks

/-!
# Executing tool calls

The calls of a reply are cut into batches, and the calls of a batch run as
tasks of the event loop, which take their steps on the shared world in any
order.  A batch is over when each of its tasks has returned; if one raises,
nothing is returned.

The log of a run has the calls in the order in which they came to their ends.
Whatever this order is, what a call returns stands where the call stood.
-/

namespace AgentSchedBench.Agent

/-! ## Batches -/

/-- A tool, as the runner asks it about its calls. -/
structure BatchTool where
  concurrencySafe : Bool

structure BatchSpec where
  concurrentTools : Bool
  /-- `spec.tools.get` -/
  tools : String → Option BatchTool

/-- `bool(tool and tool.concurrency_safe)` -/
def canBatch (spec : BatchSpec) (toolCall : ToolCall) : Bool :=
  (spec.tools toolCall.name).any BatchTool.concurrencySafe

/-- Calls that are in one batch with others may run at the same time. -/
def SafeBatch (spec : BatchSpec) (batch : List (ToolCall × Nat)) : Prop :=
  1 < batch.length → ∀ call ∈ batch, canBatch spec call.1 = true

theorem partitionFrom_safe {spec : BatchSpec} {current : List (ToolCall × Nat)}
    (safe : ∀ call ∈ current, canBatch spec call.1 = true)
    (calls : List (ToolCall × Nat)) :
    ∀ batch ∈ partitionFrom (canBatch spec) current calls, SafeBatch spec batch := by
  have ofCurrent {current : List (ToolCall × Nat)}
      (safe : ∀ call ∈ current, canBatch spec call.1 = true) :
      ∀ batch ∈ if current.isEmpty then [] else [current], SafeBatch spec batch := by
    intro batch member
    split at member
    · exact absurd member List.not_mem_nil
    · rw [List.mem_singleton.mp member]
      exact fun _ => safe
  induction calls generalizing current with
  | nil => exact ofCurrent safe
  | cons call calls induction =>
      rw [partitionFrom]
      split
      · next isSafe =>
          refine induction fun other member => ?_
          rcases List.mem_append.mp member with member | member
          · exact safe other member
          · rwa [List.mem_singleton.mp member]
      · intro batch member
        rcases List.mem_append.mp member with member | member
        · exact ofCurrent safe batch member
        · rcases List.mem_cons.mp member with rfl | member
          · exact fun several => absurd several (Nat.lt_irrefl 1)
          · exact induction (List.forall_mem_nil _) batch member

theorem partitionToolBatches_safe (spec : BatchSpec)
    (calls : List (ToolCall × Nat)) :
    ∀ batch ∈ partitionToolBatches spec.concurrentTools (canBatch spec) calls,
      SafeBatch spec batch := by
  rw [partitionToolBatches]
  split
  · exact partitionFrom_safe (List.forall_mem_nil _) calls
  · intro batch member
    obtain ⟨call, -, rfl⟩ := List.mem_map.mp member
    exact fun several => absurd several (Nat.lt_irrefl 1)

theorem partitionToolBatches_flatten (spec : BatchSpec)
    (calls : List (ToolCall × Nat)) :
    (partitionToolBatches spec.concurrentTools (canBatch spec) calls).flatten =
      calls := by
  rw [partitionToolBatches]
  split
  · exact partitionFrom_flatten (canBatch spec) [] calls
  · exact List.flatMap_singleton' calls

/-! ## What calls return -/

/-- An entry of `events`. -/
structure CallEvent where
  name : String
  status : String
  detail : String
deriving DecidableEq, Repr

/-- What `_run_tool` returns. -/
structure ToolReturn where
  result : Content
  event : CallEvent
  error : Option String
  toolCallId : String
  resourceTimeline : Option Json
  structuredResult : Option Json

/-- What a run of `_run_tool` finds out about its call. -/
structure CallOutcome where
  result : Content
  status : String
  detail : String
  error : Option String
  resourceTimeline : Option Json
  structuredResult : Option Json

/-- Each `return` of `_run_tool` names the call. -/
def CallOutcome.returned (toolCall : ToolCall) (outcome : CallOutcome) :
    ToolReturn where
  result := outcome.result
  event := ⟨toolCall.name, outcome.status, outcome.detail⟩
  error := outcome.error
  toolCallId := toolCall.id
  resourceTimeline := outcome.resourceTimeline
  structuredResult := outcome.structuredResult

/-- What `_execute_tools` returns. -/
structure ExecutedTools where
  results : List Content
  events : List CallEvent
  fatalError : Option String
  resourceTimelines : Dict String Json
  structuredResults : Dict String Json

namespace ExecutedTools

def empty : ExecutedTools := ⟨[], [], none, .empty, .empty⟩

/-- The body of the loop over what the calls have returned. -/
def add (executed : ExecutedTools) (returned : ToolReturn) : ExecutedTools where
  results := executed.results ++ [returned.result]
  events := executed.events ++ [returned.event]
  fatalError := executed.fatalError.or returned.error
  resourceTimelines :=
    match returned.resourceTimeline with
    | some timeline => executed.resourceTimelines.set returned.toolCallId timeline
    | none => executed.resourceTimelines
  structuredResults :=
    match returned.structuredResult with
    | some structured =>
        executed.structuredResults.set returned.toolCallId structured
    | none => executed.structuredResults

def ofReturns (toolResults : List ToolReturn) : ExecutedTools :=
  toolResults.foldl add empty

theorem foldl_add (executed : ExecutedTools) (toolResults : List ToolReturn) :
    (toolResults.foldl add executed).results =
        executed.results ++ toolResults.map ToolReturn.result ∧
      (toolResults.foldl add executed).events =
          executed.events ++ toolResults.map ToolReturn.event ∧
        (toolResults.foldl add executed).fatalError =
          executed.fatalError.or
            (toolResults.findSome? ToolReturn.error) := by
  induction toolResults generalizing executed with
  | nil => simp
  | cons returned rest induction =>
      obtain ⟨results, events, fatalError⟩ := induction (executed.add returned)
      rw [List.foldl_cons, results, events, fatalError]
      refine ⟨by simp [add], by simp [add], ?_⟩
      show (executed.fatalError.or returned.error).or _ = _
      rw [Option.or_assoc, List.findSome?_cons]
      cases returned.error <;> rfl

variable (toolResults : List ToolReturn)

theorem ofReturns_results :
    (ofReturns toolResults).results = toolResults.map ToolReturn.result := by
  rw [ofReturns, (foldl_add empty toolResults).1]
  rfl

theorem ofReturns_events :
    (ofReturns toolResults).events = toolResults.map ToolReturn.event := by
  rw [ofReturns, (foldl_add empty toolResults).2.1]
  rfl

theorem ofReturns_fatalError :
    (ofReturns toolResults).fatalError =
      toolResults.findSome? ToolReturn.error := by
  rw [ofReturns, (foldl_add empty toolResults).2.2]
  rfl

end ExecutedTools

/-! ## Tasks -/

/-- How a run of `_run_tool` ends. -/
inductive TaskEnd where
  | returned (outcome : CallOutcome)
  | raised (error : String)

/-- `_run_tool` as a coroutine: its steps from one await to the next, and its
ends. -/
structure RunTool (World Local : Type) where
  start : ToolCall → Local
  moves : World → Local → World → Local → Prop
  ends : World → Local → World → TaskEnd → Prop

inductive TaskPlace (Local : Type) where
  | running (place : Local)
  | ended (taskEnd : TaskEnd)

/-- A task, with the call that it runs and the position of the call. -/
structure ToolTask (Local : Type) where
  call : ToolCall × Nat
  place : TaskPlace Local

/-- A call that has come to its end. -/
structure LogEntry where
  call : ToolCall × Nat
  taskEnd : TaskEnd

/-- What the tasks share, and the log of those that have ended. -/
structure SharedRun (World : Type) where
  world : World
  log : List LogEntry

variable {World Local : Type}

inductive TaskMove (runTool : RunTool World Local) :
    SharedRun World → ToolTask Local → SharedRun World → ToolTask Local → Prop
    where
  | run {world later : World} {log : List LogEntry} {call : ToolCall × Nat}
      {place next : Local} (move : runTool.moves world place later next) :
      TaskMove runTool ⟨world, log⟩ ⟨call, .running place⟩
        ⟨later, log⟩ ⟨call, .running next⟩
  | finish {world later : World} {log : List LogEntry} {call : ToolCall × Nat}
      {place : Local} {taskEnd : TaskEnd}
      (ends : runTool.ends world place later taskEnd) :
      TaskMove runTool ⟨world, log⟩ ⟨call, .running place⟩
        ⟨later, log ++ [⟨call, taskEnd⟩]⟩ ⟨call, .ended taskEnd⟩

/-- What the task has returned. -/
def ToolTask.value (task : ToolTask Local) : Option ToolReturn :=
  match task.place with
  | .ended (.returned outcome) => some (outcome.returned task.call.1)
  | _ => none

/-- The call of a task that has ended, with its end. -/
def ToolTask.entry (task : ToolTask Local) : Option LogEntry :=
  match task.place with
  | .ended taskEnd => some ⟨task.call, taskEnd⟩
  | .running _ => none

/-! ## The run -/

/-- The calls that are awaited together; in a batch that is not gathered each
call is awaited alone. -/
def awaited (spec : BatchSpec) (toolCalls : List ToolCall) :
    List (List (ToolCall × Nat)) :=
  (partitionToolBatches spec.concurrentTools (canBatch spec)
      toolCalls.zipIdx).flatMap fun batch =>
    if spec.concurrentTools ∧ 1 < batch.length then [batch]
    else batch.map fun call => [call]

/-- Where `_execute_tools` is. -/
structure ExecuteState (World Local : Type) where
  shared : SharedRun World
  tasks : List (ToolTask Local)
  toolResults : List ToolReturn
  groups : List (List (ToolCall × Nat))

def startTask (runTool : RunTool World Local) (call : ToolCall × Nat) :
    ToolTask Local :=
  ⟨call, .running (runTool.start call.1)⟩

inductive ExecuteStep (runTool : RunTool World Local) :
    ExecuteState World Local → ExecuteState World Local → Prop where
  /-- The calls of the next group become tasks. -/
  | await {shared : SharedRun World} {toolResults : List ToolReturn}
      {group : List (ToolCall × Nat)} {groups : List (List (ToolCall × Nat))} :
      ExecuteStep runTool ⟨shared, [], toolResults, group :: groups⟩
        ⟨shared, group.map (startTask runTool), toolResults, groups⟩
  /-- One of the tasks takes a step. -/
  | task {shared later : SharedRun World} {tasks next : List (ToolTask Local)}
      {toolResults : List ToolReturn} {groups : List (List (ToolCall × Nat))}
      (step : Tasks.Step (TaskMove runTool) ⟨shared, tasks⟩ ⟨later, next⟩) :
      ExecuteStep runTool ⟨shared, tasks, toolResults, groups⟩
        ⟨later, next, toolResults, groups⟩
  /-- All tasks have returned. -/
  | extend {shared : SharedRun World} {tasks : List (ToolTask Local)}
      {toolResults values : List ToolReturn}
      {groups : List (List (ToolCall × Nat))}
      (returned : tasks.mapM ToolTask.value = some values) :
      ExecuteStep runTool ⟨shared, tasks, toolResults, groups⟩
        ⟨shared, [], toolResults ++ values, groups⟩

/-- The states that some order of steps leads to. -/
def ExecuteState.Reached (runTool : RunTool World Local) (spec : BatchSpec)
    (toolCalls : List ToolCall) (world : World)
    (state : ExecuteState World Local) : Prop :=
  Relation.ReflTransGen (ExecuteStep runTool)
    ⟨⟨world, []⟩, [], [], awaited spec toolCalls⟩ state

/-- `_execute_tools` returns. -/
def ExecuteState.Returns (state : ExecuteState World Local)
    (executed : ExecutedTools) : Prop :=
  state.tasks = [] ∧ state.groups = [] ∧
    executed = ExecutedTools.ofReturns state.toolResults

/-- Each call has ended once and returned, and its result and event stand where
the call stood; the error is that of the first call that has one. -/
structure Aligned (toolCalls : List ToolCall) (log : List LogEntry)
    (executed : ExecutedTools) : Prop where
  each_once : (log.map LogEntry.call).Perm toolCalls.zipIdx
  results : executed.results.length = toolCalls.length
  names : executed.events.map CallEvent.name = toolCalls.map ToolCall.name
  own : ∀ entry ∈ log, ∃ outcome, entry.taskEnd = .returned outcome ∧
    executed.results[entry.call.2]? = some outcome.result ∧
      executed.events[entry.call.2]? =
        some ⟨entry.call.1.name, outcome.status, outcome.detail⟩
  no_error : executed.fatalError = none → ∀ entry ∈ log, ∀ outcome,
    entry.taskEnd = .returned outcome → outcome.error = none
  first_error : ∀ error, executed.fatalError = some error →
    ∃ entry ∈ log, ∃ outcome, entry.taskEnd = .returned outcome ∧
      outcome.error = some error ∧
        ∀ other ∈ log, other.call.2 < entry.call.2 → ∀ earlier,
          other.taskEnd = .returned earlier → earlier.error = none

theorem awaited_flatten (spec : BatchSpec) (toolCalls : List ToolCall) :
    (awaited spec toolCalls).flatten = toolCalls.zipIdx := by
  have own (batch : List (ToolCall × Nat)) :
      (if spec.concurrentTools ∧ 1 < batch.length then [batch]
        else batch.map fun call => [call]).flatten = batch := by
    split
    · rw [List.flatten_singleton]
    · exact List.flatMap_singleton' batch
  rw [awaited]
  conv_rhs => rw [← partitionToolBatches_flatten spec toolCalls.zipIdx]
  generalize partitionToolBatches spec.concurrentTools (canBatch spec)
    toolCalls.zipIdx = batches
  induction batches with
  | nil => rfl
  | cons batch batches induction =>
      rw [List.flatMap_cons, List.flatten_append, own, induction,
        List.flatten_cons]

end AgentSchedBench.Agent
