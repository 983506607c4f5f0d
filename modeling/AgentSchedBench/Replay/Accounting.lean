import AgentSchedBench.Library.Loops
import AgentSchedBench.Trace.Files

/-!
# What the replay loop counts

A session is replayed action by action.  Each iteration of the loop counts
what has become of its action; an exception ends the iteration, and the
handler counts an error.  A failure that matches that of the source is counted
before the state is synchronised, so nothing may raise from there on.

What an iteration calls is given by an environment.  The statements that
decide between the counters are modelled with the errors they raise.
-/

namespace AgentSchedBench.Replay

open AgentSchedBench.Trace (Text Record isTruthy strip)
open TextLines (splitLines)

/-- What ends an iteration. -/
inductive ActionError where
  | attribute
  | value
  | index
  | assertion
  | call
deriving DecidableEq, Repr

/-! ## Values -/

/-- The texts that Python makes of values, and `int` of a text. -/
structure PythonText where
  repr : Json → Text
  int : Text → Option Int

namespace PythonText

variable (python : PythonText)

/-- `str(value)` -/
def str : Json → Text
  | .null => "None".toList
  | .bool true => "True".toList
  | .bool false => "False".toList
  | .int value => (toString value).toList
  | .float text =>
      if isTruthy (.float text) then python.repr (.float text)
      else if text.toList.head? = some '-' then "-0.0".toList
      else "0.0".toList
  | .str value => value.toList
  | .arr [] => "[]".toList
  | .obj [] => "\x7b\x7d".toList
  | value => python.repr value

/-- `str(value or default)` -/
def strOr (value : Json) (default : Text) : Text :=
  if isTruthy value then python.str value else default

end PythonText

/-- `value == text` -/
def isText (value : Json) (text : String) : Bool :=
  match value with
  | .str given => given == text
  | _ => false

/-- `record.get(name, default)` -/
def getOr (record : Record) (name : String) (default : Json) : Json :=
  (fieldOf record name).getD default

/-- `action.get("data", {})` -/
def actionData (action : Record) : Json := getOr action "data" (.obj [])

/-- `action.get("data") or {}` -/
def dataOrEmpty (action : Record) : Json :=
  let data := action.get "data"
  if isTruthy data then data else .obj []

/-- What follows the last occurrence of the marker. -/
def afterLast (marker text : Text) : Option Text :=
  ((text.tails.filter fun tail => marker.isPrefixOf tail).getLast?).map
    (·.drop marker.length)

/-! ## Commands -/

/-- `_exec_semantics_payload` -/
def execSemanticsPayload (toolArgs : Json) : Option Record :=
  let parsed : Option Record :=
    match toolArgs with
    | .str text =>
        match JsonText.loads (if text = "" then "\x7b\x7d" else text).toList with
        | some (.obj fields) => some fields
        | _ => none
    | .obj fields => some fields
    | _ => none
  parsed.map fun fields : Record =>
    match Record.get fields "exec" with
    | .obj payload => payload
    | _ => fields

/-- `_tool_uses_exec_semantics` -/
def toolUsesExecSemantics (toolName toolArgs : Json) : Bool :=
  match execSemanticsPayload toolArgs with
  | none => isText toolName "exec"
  | some payload =>
      (fieldOf payload "command").isSome || (fieldOf payload "commands").isSome

/-- `_structured_returncode` -/
def structuredReturncode : Json → Except ActionError (Option Int)
  | .null => .ok none
  | .int code => .ok (some code)
  | _ => .error .value

/-- `_structured_timed_out` -/
def structuredTimedOut : Json → Except ActionError (Option Bool)
  | .null => .ok none
  | .bool timedOut => .ok (some timedOut)
  | _ => .error .value

def exitCodeMarker : Text := "Exit code:".toList

/-- `_command_exit_code` -/
def commandExitCode (python : PythonText) (toolResult : Text)
    (returncode : Json) : Except ActionError (Option Int) :=
  match structuredReturncode returncode with
  | .error error => .error error
  | .ok (some code) => .ok (some code)
  | .ok none =>
      match afterLast exitCodeMarker toolResult with
      | none => .ok none
      | some suffix =>
          match splitLines (strip suffix) with
          | [] => .error .index
          | line :: _ =>
              if strip line = "<missing>".toList then .ok none
              else .ok (python.int (strip line))

def timeoutMarkers : List Text :=
  ["[timeout]".toList, "[resource_timeout]".toList,
    "[resource_stall_timeout]".toList]

/-- `_is_replay_wrapper_timeout_result` -/
def isReplayWrapperTimeoutResult (toolResult : Text) : Bool :=
  (splitLines toolResult).any fun line => timeoutMarkers.contains (strip line)

def timedOutAfter : Text := "Error: Command timed out after ".toList

/-- `_tool_result_indicates_wrapper_timeout` -/
def toolResultIndicatesWrapperTimeout (python : PythonText)
    (toolResult timedOut : Json) : Except ActionError Bool :=
  match structuredTimedOut timedOut with
  | .error error => .error error
  | .ok (some isTimeout) => .ok isTimeout
  | .ok none =>
      let text := python.strOr toolResult []
      .ok (decide (timedOutAfter <:+: text) ||
        isReplayWrapperTimeoutResult text)

/-- `_command_metadata` -/
def commandMetadata (python : PythonText) (toolName toolArgs : Json)
    (toolResult : Text) (toolSuccess : Bool) (returncode : Json) :
    Except ActionError Record :=
  if ¬ toolUsesExecSemantics toolName toolArgs then .ok []
  else
    match commandExitCode python toolResult returncode with
    | .error error => .error error
    | .ok none => .ok []
    | .ok (some code) =>
        .ok
          [("command_exit_code", .int code),
            ("command_success", .bool (code == 0)),
            ("replay_transport_success", .bool toolSuccess)]

/-! ## Tools -/

inductive ReplaySource where
  | subagentLaneReplay
  | skippedHostMode
  | messageNoop
  | replayedFromTrace
  | deniedCommandReplayedFromTrace
  | sourceArtifactUnavailable
  | restoredRuntimeArtifact
  | executedInContainer
deriving DecidableEq, Repr

inductive MismatchReason where
  | sourceArtifactUnavailable
  | timeoutMismatch
  | toolSuccessMismatch
  | commandExitCodeMismatch
  | casStateMismatch
deriving DecidableEq, Repr

/-- What the replay of a tool gives. -/
structure ToolOutcome where
  toolResult : Json
  toolSuccess : Bool
  replaySource : ReplaySource
  metadata : Record

/-- What `_execute_container_tool_call` returns. -/
structure ToolExecution where
  toolResult : Json
  toolSuccess : Bool
  metadata : Record

/-- How the restore of a checkpoint chain ends. -/
inductive RestoreEnd where
  | raises
  | fails
  | restored
deriving DecidableEq, Repr

/-- What the calls of an iteration come to. -/
structure ReplayCalls where
  -- the conversions and sleeps before the `try` statement
  startRaises : Bool
  llmRaises : Bool
  -- what is computed from the source before its failure is counted, and after
  sourceRaises : Bool
  artifactRaises : Bool
  deniedCommand : Option Text
  -- the path of an artifact that is not in the simulator's runtime
  missingArtifact : Option Text
  artifactMapped : Bool
  -- `none` when the call raises
  execution : Option ToolExecution
  normalizedOutputMatch : Bool
  -- the fold and the capture at a boundary, if they return, and what they give
  boundary : Option (Option Bool)
  oracleRaises : Bool
  restore : RestoreEnd
  restoreVerificationRaises : Bool
  -- the number of actions that are applied again, and whether one raises
  reapply : Option (Nat × Bool)
  -- the comparison after a restore, if there is one
  verification : Option Bool

/-- The session that is replayed. -/
structure CloudModelSession where
  sourceAgentId : Text
  -- the directory of the source trace
  sourceParent : Text
  hasContainer : Bool
  actions : List Record

/-- `_source_tool_success` -/
def sourceToolSuccess (data : Record) : Except ActionError Bool :=
  match data.get "success" with
  | .bool success => .ok success
  | .null => .ok (!isTruthy (data.get "error"))
  | _ => .error .value

/-- `_is_subagent_lane_action` -/
def isSubagentLaneAction (python : PythonText) (session : CloudModelSession)
    (action : Record) : Bool :=
  (session.sourceAgentId ++ ['/']).isPrefixOf
    (python.strOr (action.get "agent_id") [])

/-- `data.get("tool_result", data.get("result", ""))` -/
def sourceToolResult (data : Record) : Json :=
  getOr data "tool_result" (getOr data "result" (.str ""))

/-- `_source_tool_exec_metadata` -/
def sourceToolExecMetadata (data : Record) : Record :=
  (match data.get "returncode" with
    | .int code => [("returncode", .int code)]
    | _ => []) ++
  match data.get "timed_out" with
  | .bool timedOut => [("timed_out", .bool timedOut)]
  | _ => []

/-- `_artifact_unavailable_result` -/
def artifactUnavailableResult (path : Text) : Text :=
  "Error: source trace references an OpenClaw runtime artifact ".toList ++
    "that is unavailable in the simulator runtime: ".toList ++ path

/-- `_TRACE_REPLAY_TOOL_NAMES` -/
def traceReplayToolNames : List String := ["spawn", "web_search", "web_fetch"]

/-- A tool of the container, which is run unless the source denies it. -/
def containerTool (calls : ReplayCalls) (data : Record)
    (sourceSuccess : Bool) : Except ActionError ToolOutcome :=
  match calls.deniedCommand with
  | some command =>
      .ok
        { toolResult := sourceToolResult data
          toolSuccess := sourceSuccess
          replaySource := .deniedCommandReplayedFromTrace
          metadata :=
            (sourceToolExecMetadata data).withField "replay_denied_command"
              (.str (String.ofList command)) }
  | none =>
      if calls.artifactRaises then .error .call
      else
        match calls.missingArtifact with
        | some path =>
            .ok
              { toolResult :=
                  .str (String.ofList (artifactUnavailableResult path))
                toolSuccess := false
                replaySource := .sourceArtifactUnavailable
                metadata := [] }
        | none =>
            match calls.execution with
            | none => .error .call
            | some execution =>
                .ok
                  { toolResult := execution.toolResult
                    toolSuccess := execution.toolSuccess
                    replaySource :=
                      if calls.artifactMapped then .restoredRuntimeArtifact
                      else .executedInContainer
                    metadata := execution.metadata }

/-- The tool is run, or its result is taken from the trace. -/
def runTool (python : PythonText) (session : CloudModelSession)
    (calls : ReplayCalls) (action data : Record) (toolName : Json)
    (sourceSuccess : Bool) : Except ActionError ToolOutcome :=
  let fromTrace (result : Json) (source : ReplaySource) : ToolOutcome :=
    ⟨result, sourceSuccess, source, []⟩
  if isSubagentLaneAction python session action then
    .ok (fromTrace (sourceToolResult data) .subagentLaneReplay)
  else if ¬ session.hasContainer then
    .ok (fromTrace (sourceToolResult data) .skippedHostMode)
  else
    match toolName with
    | .str name =>
        if name = "message" then
          let result := sourceToolResult data
          .ok
            (fromTrace
              (if isTruthy result then result
                else .str "Message replayed as no-op")
              .messageNoop)
        else if name.startsWith "mcp_" ∨ name ∈ traceReplayToolNames then
          .ok
            (fromTrace (getOr data "tool_result" (.str ""))
              .replayedFromTrace)
        else containerTool calls data sourceSuccess
    -- no other value has `startswith`
    | _ => .error .attribute

/-- `_tool_mismatch_reason` -/
def toolMismatchReason (python : PythonText) (toolName toolArgs : Json)
    (data : Record) (sourceSuccess : Bool) (outcome : ToolOutcome) :
    Except ActionError (Option MismatchReason) :=
  let sourceResult := sourceToolResult data
  if outcome.replaySource = .sourceArtifactUnavailable then
    .ok (some .sourceArtifactUnavailable)
  else if ¬ toolUsesExecSemantics toolName toolArgs then
    .ok
      (if sourceSuccess = outcome.toolSuccess then none
        else some .toolSuccessMismatch)
  else do
    let sourceTimeout ←
      toolResultIndicatesWrapperTimeout python sourceResult
        (data.get "timed_out")
    let replayTimeout ←
      toolResultIndicatesWrapperTimeout python outcome.toolResult
        (outcome.metadata.get "timed_out")
    if sourceTimeout ≠ replayTimeout then return some .timeoutMismatch
    if sourceSuccess ≠ outcome.toolSuccess then
      return some .toolSuccessMismatch
    let sourceExit ←
      commandExitCode python (python.strOr sourceResult [])
        (data.get "returncode")
    let replayExit ←
      commandExitCode python (python.strOr outcome.toolResult [])
        (outcome.metadata.get "returncode")
    if sourceExit.isSome ∧ replayExit.isSome ∧ sourceExit ≠ replayExit then
      return some .commandExitCodeMismatch
    return none

/-! ## Checkpoints -/

/-- The spec of a field `checkpoint_after`, if it names a path. -/
def checkpointSpecOf (python : PythonText) (sourceParent : Text)
    (spec : Record) : Option Record :=
  let rawPath := spec.get "path"
  if ¬ isTruthy rawPath then none
  else
    let path := python.str rawPath
    let absolute :=
      if path.head? = some '/' then path else sourceParent ++ '/' :: path
    let root := python.strOr (spec.get "root") "/testbed".toList
    if root ≠ "/testbed".toList then none
    else
      let withPath := spec.withField "path" (.str (String.ofList absolute))
      let withKind := withPath.setDefault "kind" (.str "cas_manifest")
      let kind := python.str (withKind.get "kind")
      let withIncremental :=
        withKind.setDefault "incremental"
          (.bool (kind == "cas_manifest_incremental".toList))
      some (withIncremental.withField "root" (.str "/testbed"))

/-- `_checkpoint_after_spec` -/
def checkpointAfterSpec (python : PythonText) (sourceParent : Text) :
    Json → Except ActionError (Option Record)
  | .obj data =>
      match Record.get data "checkpoint_after" with
      | .str path =>
          .ok (checkpointSpecOf python sourceParent [("path", .str path)])
      | .obj spec => .ok (checkpointSpecOf python sourceParent spec)
      | _ => .ok none
  | _ => .error .attribute

/-- `_checkpoint_spec_is_incremental` -/
def checkpointSpecIsIncremental (python : PythonText) (spec : Record) :
    Bool :=
  (match spec.get "incremental" with
    | .bool true => true
    | _ => false) ||
    python.strOr (spec.get "kind") "cas_manifest".toList ==
      "cas_manifest_incremental".toList

/-- The chain up to a full checkpoint; the last action comes first. -/
def chainBack (python : PythonText) (sourceParent : Text)
    (chain : List Record) :
    List Record → Except ActionError (Option (List Record))
  | [] => .ok none
  | action :: earlier =>
      match checkpointAfterSpec python sourceParent (dataOrEmpty action) with
      | .error error => .error error
      | .ok none => chainBack python sourceParent chain earlier
      | .ok (some spec) =>
          if checkpointSpecIsIncremental python spec then
            chainBack python sourceParent (spec :: chain) earlier
          else .ok (some (spec :: chain))

/-- `_checkpoint_chain_specs_for_action` -/
def checkpointChainSpecsForAction (python : PythonText)
    (session : CloudModelSession) (targetIndex : Nat) :
    Except ActionError (Option (List Record)) :=
  match session.actions[targetIndex]? with
  | none => .ok none
  | some target =>
      match
        checkpointAfterSpec python session.sourceParent (dataOrEmpty target)
      with
      | .error error => .error error
      | .ok none => .ok none
      | .ok (some spec) =>
          if ¬ checkpointSpecIsIncremental python spec then .ok (some [spec])
          else
            chainBack python session.sourceParent []
              (session.actions.take (targetIndex + 1)).reverse

/-- The last of the earlier checkpoints; the last action comes first. -/
def fallbackBack (python : PythonText) (sourceParent : Text) :
    List (Record × Nat) → Except ActionError (Option Nat)
  | [] => .ok none
  | (action, index) :: earlier =>
      match checkpointAfterSpec python sourceParent (dataOrEmpty action) with
      | .error error => .error error
      | .ok (some _) => .ok (some index)
      | .ok none => fallbackBack python sourceParent earlier

/-! ## Forced synchronisation -/

/-- The fields of `forced_sync_fields` that the counters depend on. -/
structure ForcedSyncFields where
  attempted : Bool := false
  success : Option Bool := none
  continued : Option Bool := none
  status : Option String := none
deriving DecidableEq, Repr

namespace ForcedSyncFields

/-- A failure, under the status that it has. -/
def failed (fields : ForcedSyncFields) (status : String) : ForcedSyncFields :=
  { fields with
    success := some false
    continued := some false
    status := some status }

/-- What is set where nothing has been set. -/
def withDefaults (fields : ForcedSyncFields) : ForcedSyncFields :=
  let succeeded := fields.success = some true
  let status :=
    fields.status.getD
      (if succeeded then "checkpoint_restored_continuation"
        else "checkpoint_restore_failed")
  { fields with
    success := some (fields.success.getD false)
    status := some status
    continued :=
      some
        (fields.continued.getD
          (succeeded && status == "checkpoint_restored_continuation")) }

end ForcedSyncFields

section ForcedSync

variable (calls : ReplayCalls)

/-- `_restore_checkpoint_chain_to_container`, if there is a chain. -/
def restoreChain (chain : Option (List Record)) (fields : ForcedSyncFields) :
    Except ActionError ForcedSyncFields :=
  match chain with
  | none => .ok (fields.failed "checkpoint_full_missing")
  | some [] => .ok (fields.failed "checkpoint_missing")
  | some _ =>
      match calls.restore with
      | .raises => .error .call
      | .fails => .ok (fields.failed "checkpoint_restore_failed")
      | .restored =>
          .ok
            { fields with
              success := some true
              continued := some true
              status := some "checkpoint_restored_continuation" }

/--
The actions since an earlier checkpoint are applied again; are there any,
which cannot be verified?
-/
def reapplyActions (isFallback : Bool) (fields : ForcedSyncFields) :
    Except ActionError (ForcedSyncFields × Bool) :=
  if ¬ (fields.success = some true ∧ isFallback) then .ok (fields, false)
  else if calls.restoreVerificationRaises then .error .call
  else
    match calls.reapply with
    | none => .error .call
    | some (count, raises) =>
        .ok
          (if raises then fields.failed "reapply_failed" else fields,
            decide (0 < count))

/-- The state is compared, if it can be. -/
def verifyRestore (fields : ForcedSyncFields) : ForcedSyncFields :=
  if calls.verification = some false then
    fields.failed "verification_failed"
  else fields

/-- A checkpoint is restored; the handler of the block has no call to fail. -/
def syncWithChain (chain : Option (List Record)) (isFallback : Bool)
    (fields : ForcedSyncFields) : ForcedSyncFields :=
  let attempt : Except ActionError ForcedSyncFields := do
    let restored ← restoreChain calls chain fields
    let (applied, unverifiable) ← reapplyActions calls isFallback restored
    if applied.success = some true ∧ ¬ unverifiable then
      return verifyRestore calls applied
    return applied
  match attempt with
  | .ok fields => fields.withDefaults
  | .error _ => (fields.failed "checkpoint_restore_failed").withDefaults

/-- The state is set to the one the source had, or to an earlier one. -/
def forcedSync (python : PythonText) (session : CloudModelSession)
    (index : Nat) (data : Record) : Except ActionError ForcedSyncFields := do
  let attempted : ForcedSyncFields := { attempted := true }
  match
    ← checkpointAfterSpec python session.sourceParent (.obj data)
  with
  | some _ =>
      let chain ← checkpointChainSpecsForAction python session index
      return syncWithChain calls chain false attempted
  | none =>
      match
        ← fallbackBack python session.sourceParent
          (session.actions.zipIdx.take index).reverse
      with
      | none => return attempted.failed "checkpoint_missing"
      | some earlier =>
          let chain ← checkpointChainSpecsForAction python session earlier
          return syncWithChain calls chain true attempted

end ForcedSync

/-! ## Counters -/

/-- The counters of the loop. -/
structure ReplayCounters where
  succeeded : Nat := 0
  outcomeMismatches : Nat := 0
  unresolvedMismatches : Nat := 0
  replayActionErrors : Nat := 0
  fatalReplayErrors : Nat := 0
  forcedSyncActions : Nat := 0
  forcedSyncAttempts : Nat := 0
  forcedSyncSuccesses : Nat := 0
  forcedSyncContinued : Nat := 0
  sourceFailed : Nat := 0
  replayFailed : Nat := 0
  matchedFailed : Nat := 0
deriving DecidableEq, Repr

namespace ReplayCounters

variable (counters : ReplayCounters)

def withSource (sourceSuccess : Bool) : ReplayCounters :=
  { counters with
    sourceFailed := counters.sourceFailed + (!sourceSuccess).toNat }

def withReplay (toolSuccess : Bool) : ReplayCounters :=
  { counters with
    replayFailed := counters.replayFailed + (!toolSuccess).toNat }

/-- A failure of the source that has been met again. -/
def withMatched (toolSuccess matched : Bool) : ReplayCounters :=
  { counters with
    matchedFailed :=
      counters.matchedFailed + (!toolSuccess && matched).toNat }

def withForcedSync (fields : ForcedSyncFields) : ReplayCounters :=
  let succeeds := (fields.success == some true).toNat
  { counters with
    forcedSyncAttempts :=
      counters.forcedSyncAttempts + fields.attempted.toNat
    forcedSyncActions := counters.forcedSyncActions + succeeds
    forcedSyncSuccesses := counters.forcedSyncSuccesses + succeeds
    forcedSyncContinued :=
      counters.forcedSyncContinued +
        (fields.continued == some true).toNat }

/-- The outcome of a tool whose record has been written. -/
def withOutcome (matched toolSuccess continued : Bool)
    (source : ReplaySource) : ReplayCounters :=
  if matched then
    { counters with succeeded := counters.succeeded + toolSuccess.toNat }
  else
    { counters with
      outcomeMismatches := counters.outcomeMismatches + 1
      unresolvedMismatches :=
        counters.unresolvedMismatches + (!continued).toNat
      fatalReplayErrors :=
        counters.fatalReplayErrors +
          (source == .sourceArtifactUnavailable).toNat }

def failedActions : Nat :=
  counters.outcomeMismatches + counters.replayActionErrors

/-- `success` of the summary. -/
def success : Bool :=
  counters.failedActions == 0 && counters.fatalReplayErrors == 0

end ReplayCounters

/-! ## The loop -/

/-- How the body of the `try` statement ends, with the counters it leaves. -/
inductive IterationEnd where
  | raised (counters : ReplayCounters)
  | passed (counters : ReplayCounters)
deriving DecidableEq, Repr

/-- The handler counts an error. -/
def IterationEnd.counters : IterationEnd → ReplayCounters
  | .raised counters =>
      { counters with
        replayActionErrors := counters.replayActionErrors + 1 }
  | .passed counters => counters

/-- The state is compared where the source has a checkpoint. -/
def boundaryMismatch (calls : ReplayCalls) (atBoundary : Bool)
    (mismatch : Option MismatchReason) :
    Except ActionError (Option MismatchReason) :=
  if ¬ atBoundary then .ok mismatch
  else
    match calls.boundary with
    | none => .error .call
    | some compared =>
        .ok
          (if mismatch = none ∧ compared = some false then
            some .casStateMismatch
          else mismatch)

/-- What is found out about an outcome before it is counted. -/
structure Judgement where
  mismatch : Option MismatchReason
  effective : Option MismatchReason
  normalizedOutputMatch : Option Bool

section Loop

variable (python : PythonText) (session : CloudModelSession)

/-- The outcome is compared with that of the source. -/
def judgeOutcome (calls : ReplayCalls) (action data : Record)
    (toolName toolArgs : Json) (sourceSuccess : Bool)
    (outcome : ToolOutcome) : Except ActionError Judgement := do
  let mismatch ←
    toolMismatchReason python toolName toolArgs data sourceSuccess outcome
  let normalized :=
    if toolUsesExecSemantics toolName toolArgs then
      some calls.normalizedOutputMatch
    else none
  let spec ← checkpointAfterSpec python session.sourceParent (.obj data)
  let atBoundary :=
    spec.isSome && session.hasContainer &&
      !isSubagentLaneAction python session action
  let effective ← boundaryMismatch calls atBoundary mismatch
  if calls.oracleRaises then .error .call
  else return ⟨mismatch, effective, normalized⟩

/-- The fields of the record of a tool. -/
def recordTool (toolName toolArgs : Json) (outcome : ToolOutcome)
    (normalizedOutputMatch : Option Bool) : Except ActionError Record := do
  let fields ←
    commandMetadata python toolName toolArgs (python.str outcome.toolResult)
      outcome.toolSuccess (outcome.metadata.get "returncode")
  -- `assert normalized_output_match is not None`
  if toolUsesExecSemantics toolName toolArgs ∧ normalizedOutputMatch = none then
    .error .assertion
  else return fields

/-- What follows the count of a matched failure. -/
def endTool (calls : ReplayCalls) (index : Nat) (action data : Record)
    (toolName toolArgs : Json) (outcome : ToolOutcome)
    (judgement : Judgement) : Except ActionError ForcedSyncFields := do
  let fields ←
    if judgement.effective ≠ none ∧ session.hasContainer ∧
        ¬ isSubagentLaneAction python session action then
      forcedSync calls python session index data
    else .ok {}
  let _ ← recordTool python toolName toolArgs outcome
    judgement.normalizedOutputMatch
  return fields

/-- The tool branch of the loop. -/
def replayTool (index : Nat) (action data : Record) (toolName : Json)
    (calls : ReplayCalls) (counters : ReplayCounters) : IterationEnd :=
  let toolArgs := getOr data "tool_args" (.str "\x7b\x7d")
  match sourceToolSuccess data with
  | .error _ => .raised counters
  | .ok sourceSuccess =>
      if calls.sourceRaises then .raised counters
      else
        let counters := counters.withSource sourceSuccess
        match
          runTool python session calls action data toolName sourceSuccess
        with
        | .error _ => .raised counters
        | .ok outcome =>
            let counters := counters.withReplay outcome.toolSuccess
            match
              judgeOutcome python session calls action data toolName toolArgs
                sourceSuccess outcome
            with
            | .error _ => .raised counters
            | .ok judgement =>
                let matched := judgement.mismatch = none
                let counters :=
                  counters.withMatched outcome.toolSuccess matched
                match
                  endTool python session calls index action data toolName
                    toolArgs outcome judgement
                with
                | .error _ => .raised counters
                | .ok fields =>
                    .passed
                      ((counters.withForcedSync fields).withOutcome matched
                        outcome.toolSuccess (fields.continued == some true)
                        outcome.replaySource)

/-- The body of the `try` statement. -/
def replayBody (index : Nat) (action : Record) (calls : ReplayCalls)
    (counters : ReplayCounters) : IterationEnd :=
  let actionType := python.str (getOr action "action_type" (.str ""))
  if actionType = "llm_call".toList then
    if calls.llmRaises then .raised counters
    else .passed { counters with succeeded := counters.succeeded + 1 }
  else if actionType ≠ "tool_exec".toList then .passed counters
  else
    match actionData action with
    | .obj data =>
        let toolName := Record.get data "tool_name"
        if ¬ isTruthy toolName then .passed counters
        else replayTool python session index action data toolName calls counters
    | _ => .raised counters

/-- `_source_action_excluded_overhead_s`, as far as it raises. -/
def excludedOverhead (action : Record) : Except ActionError Unit :=
  match dataOrEmpty action with
  | .obj _ => .ok ()
  | _ => .error .attribute

/-- An iteration; what precedes its `try` statement ends the session. -/
def replayAction (index : Nat) (action : Record) (calls : ReplayCalls)
    (counters : ReplayCounters) : Except ActionError ReplayCounters := do
  if calls.startRaises then .error .call
  else
    excludedOverhead action
    return (replayBody python session index action calls counters).counters

/-- `_replay_cloud_model_session` -/
def replayCloudModelSession (calls : Nat → ReplayCalls) :
    Except ActionError ReplayCounters :=
  session.actions.zipIdx.foldlM
    (fun counters item =>
      replayAction python session item.2 item.1 (calls item.2) counters)
    {}

end Loop

end AgentSchedBench.Replay
