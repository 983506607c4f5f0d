import AgentSchedBench.Library.Dict
import AgentSchedBench.Replay.ForcedSyncRecord
import AgentSchedBench.Replay.MismatchOracle

/-!
# The record of a replayed tool

The oracle is asked while a tool is replayed, with what is known of the call.
What is known is then written into the record of the action, on whatever branch
the call was made, and the oracle may be asked again about the record.
-/

namespace AgentSchedBench.Replay

open AgentSchedBench.Trace (Text Record isTruthy)
open TextLines (splitLines)

/-! ## The response of the container -/

/-- `_response_result_indicates_timeout` -/
def resultIndicatesTimeout : Json → Bool
  | .str result =>
      decide (timedOutAfter <:+: result.toList) ||
        isReplayWrapperTimeoutResult result.toList
  | _ => false

/-- `resp.get("ok") is False` -/
def isFalse : Json → Bool
  | .bool value => !value
  | _ => false

/-- The value, where it is an integer. -/
def intOnly : Json → Option Json
  | .int value => some (.int value)
  | _ => none

/-- The value, where it is a truth value. -/
def boolOnly : Json → Option Json
  | .bool value => some (.bool value)
  | _ => none

/-- `metadata["timed_out"]` -/
def responseTimeout (response : Record) : Option Json :=
  match response.get "timed_out", response.get "returncode" with
  | .bool timedOut, _ => some (.bool timedOut)
  | _, .int returncode =>
      some
        (.bool
          (returncode == 124 && isFalse (response.get "ok") &&
            resultIndicatesTimeout (response.get "result")))
  | _, _ => none

/-- `_trace_tool_response_metadata` -/
def traceToolResponseMetadata (response : Record) : Record :=
  let codes :=
    (Record.setIf [] "returncode" (intOnly (response.get "returncode"))).setIf
      "timed_out" (responseTimeout response)
  ((codes.setIf "resource_timeout_policy"
      (fieldOf response "resource_timeout_policy")).setIf
    "resource_virtual_time_s" (fieldOf response "resource_virtual_time_s")).setIf
    "resource_stall_s" (fieldOf response "resource_stall_s")

/-! ## The comparison at a checkpoint -/

/-- What is compared of an entry of a manifest. -/
structure ComparedEntry where
  hash : String
  mode : Option Nat

/-- `format(mode, "o")` -/
def octal (mode : Nat) : String := String.ofList (Nat.toDigits 8 mode)

section Manifest

variable (source replay : Dict String ComparedEntry)

/-- `modified` -/
def modifiedPaths : List String :=
  source.keys.filter fun path =>
    match source.get path, replay.get path with
    | some before, some after => before.hash != after.hash
    | _, _ => false

/-- The modes of a path, where both sides have one. -/
def comparedModes (path : String) : Option (Nat × Nat) := do
  let before ← source.get path
  let after ← replay.get path
  let sourceMode ← before.mode
  let replayMode ← after.mode
  return (sourceMode, replayMode)

/-- `mode_mismatches` -/
def modeMismatches : List Json :=
  source.keys.filterMap fun path =>
    match comparedModes source replay path with
    | some (sourceMode, replayMode) =>
        if sourceMode = replayMode then none
        else
          some
            (.obj
              [("path", .str path),
                ("source_mode", .str (octal sourceMode)),
                ("replay_mode", .str (octal replayMode))])
    | none => none

/-- `added`, and `removed` with the manifests exchanged -/
def addedPaths : List String :=
  replay.keys.filter fun path => (source.get path).isNone

/-- `cas_manifest_match` -/
def casManifestMatch : Bool :=
  (modifiedPaths source replay).isEmpty &&
    (addedPaths replay source).isEmpty && (addedPaths source replay).isEmpty &&
    (modeMismatches source replay).isEmpty

/-- `_cas_manifest_comparison_fields` -/
def casManifestComparisonFields : Record :=
  let modified := modifiedPaths source replay
  let mismatches := modeMismatches source replay
  let available :=
    source.keys.any fun path => (comparedModes source replay path).isSome
  (((Record.setIf
      [("cas_manifest_match", .bool (casManifestMatch source replay)),
        ("cas_source_entries", .int source.keys.length),
        ("cas_replay_entries", .int replay.keys.length),
        ("cas_modified_count", .int modified.length),
        ("cas_added_count", .int (addedPaths source replay).length),
        ("cas_removed_count", .int (addedPaths replay source).length)]
      "cas_modified_examples"
      (if modified.isEmpty then none
        else some (.arr ((modified.take 10).map .str)))).setIf
    "cas_mode_mismatch_count"
      (if available then some (.int mismatches.length) else none)).setIf
    "cas_mode_mismatch_examples"
      (if available && !mismatches.isEmpty then some (.arr (mismatches.take 10))
        else none))

end Manifest

/-! ## The difference of the outputs -/

/-- `truncate_line` -/
def truncateLine (line : Text) : Text :=
  if line.length ≤ 240 then line
  else
    line.take 240 ++ "...<truncated ".toList ++
      (toString (line.length - 240)).toList ++ " chars>".toList

/-- A line, or what stands for one that is missing. -/
def lineAt (lines : List Text) (index : Nat) : Text :=
  (lines[index]?).getD "<missing>".toList

/-- The lines of a snippet. -/
def snippetLines (sourceLines replayLines : List Text) (start stop : Nat) :
    List Text :=
  (List.range' start (stop - start)).flatMap fun index =>
    let source := lineAt sourceLines index
    let replay := lineAt replayLines index
    if source = replay then ["  ".toList ++ truncateLine source]
    else ["- ".toList ++ truncateLine source, "+ ".toList ++ truncateLine replay]

/-- `_compute_output_diff_snippet` -/
def computeOutputDiffSnippet (source replay : Text) : Option Text :=
  if source = replay then none
  else
    let sourceLines := splitLines source
    let replayLines := splitLines replay
    let total := max sourceLines.length replayLines.length
    match (List.range total).find? fun index =>
        lineAt sourceLines index ≠ lineAt replayLines index with
    | some index =>
        some
          (['\n'].intercalate
            (snippetLines sourceLines replayLines (index - 1)
              (min total (index + 5))))
    | none => some "raw output differs without line-content difference".toList

/-- `"" if result is None else str(result)` -/
def rawText (python : PythonText) : Json → Text
  | .null => []
  | result => python.str result

/-! ## The record -/

/-- The text of a reason. -/
def MismatchReason.text : MismatchReason → String
  | .sourceArtifactUnavailable => "source_artifact_unavailable"
  | .timeoutMismatch => "timeout_mismatch"
  | .toolSuccessMismatch => "tool_success_mismatch"
  | .commandExitCodeMismatch => "command_exit_code_mismatch"
  | .casStateMismatch => "cas_state_mismatch"

def ReplaySource.text : ReplaySource → String
  | .subagentLaneReplay => "subagent_lane_replay"
  | .skippedHostMode => "skipped_host_mode"
  | .messageNoop => "message_noop"
  | .replayedFromTrace => "replayed_from_trace"
  | .deniedCommandReplayedFromTrace => "denied_command_replayed_from_trace"
  | .sourceArtifactUnavailable => "source_artifact_unavailable"
  | .restoredRuntimeArtifact => "restored_runtime_artifact"
  | .executedInContainer => "executed_in_container"

def OracleTier.number : OracleTier → Int
  | .one => 1
  | .two => 2
  | .three => 3

def OracleCategory.text : OracleCategory → String
  | .cosmetic => "cosmetic"
  | .contentDivergent => "content_divergent"
  | .unclassified => "unclassified"

/-- What the record takes from the session, the clock and the source. -/
structure RecordValues where
  actionId : String
  durationMs : Json
  sourceDurationMs : Json
  simulateSource : String
  replaySpeed : Json
  execEnvParity : String
  originalArtifactPath : Option String
  mappedArtifactPath : Option String
  -- the timeouts of the source and of the replay
  execTimeouts : Option (Json × Json)
  -- the timeline of the source, and whether the call was given it
  resourceTimeline : Option (Json × Bool)
  laneAgentId : Option String
  warmup : Bool
  sleepDrift : Record
  concurrentSourceExecs : Bool
  runInstanceId : String
  sourceAgentId : String
  manifestIndex : Json
  label : Option String

/-- What the calls of an iteration come to, with all that is recorded of it.
The metadata of a call is made from the response of the container, and the state
at a boundary is compared by its manifests. -/
structure RecordedCalls extends ReplayCalls where
  details : SyncDetails
  values : RecordValues
  -- the manifests of the source and of the replay at a boundary
  manifests : Option (Dict String ComparedEntry × Dict String ComparedEntry)
  laneActive : Bool
  fromResponse : ∀ result ∈ toReplayCalls.execution,
    result.metadata = [] ∨ ∃ response, result.metadata = traceToolResponseMetadata response
  fromManifests : ∀ compared ∈ toReplayCalls.boundary,
    compared = manifests.map fun pair => casManifestMatch pair.1 pair.2

/-- `cas_manifest_fields` at a boundary -/
def RecordedCalls.casFields (calls : RecordedCalls) : Record :=
  match calls.manifests with
  | some (source, replay) => casManifestComparisonFields source replay
  | none => []

/-- The fields of a decision, where there is one. -/
def tierEvidence : Option TierDecision → Json
  | none => .obj [("category", .str "skipped")]
  | some decision =>
      .obj
        [("category", .str decision.category.text),
          ("reason", .str decision.reason),
          ("semantic_match", .bool decision.semanticMatch)]

/-- The value, or null. -/
def orNull (value : Option Json) : Json := value.getD .null

/-- `oracle_verdict.evidence` -/
def OracleEvidence.fields (evidence : OracleEvidence) : Record :=
  [("source_returncode", orNull (evidence.sourceReturncode.map .int)),
    ("replay_returncode", orNull (evidence.replayReturncode.map .int)),
    ("source_timed_out", orNull (evidence.sourceTimedOut.map .bool)),
    ("replay_timed_out", orNull (evidence.replayTimedOut.map .bool)),
    ("timeout_mismatch", .bool evidence.timeoutMismatch),
    ("returncode_mismatch", orNull (evidence.returncodeMismatch.map .bool)),
    ("normalized_output_match", orNull (evidence.normalizedOutputMatch.map .bool)),
    ("output_diff_snippet_present", .bool evidence.outputDiffSnippetPresent),
    ("cas_manifest_match", orNull (evidence.casManifestMatch.map .bool)),
    ("cas_modified_count", orNull (evidence.casModifiedCount.map .int)),
    ("cas_removed_count", orNull (evidence.casRemovedCount.map .int)),
    ("cas_added_count", orNull (evidence.casAddedCount.map .int)),
    ("mismatch_reason", orNull (evidence.mismatchReason.map .str)),
    ("tiers",
      .obj
        [("1", tierEvidence evidence.tierOne),
          ("2", tierEvidence evidence.tierTwo),
          ("3", tierEvidence evidence.tierThree)])]

/-- What is recorded of a verdict. -/
def verdictFields : Option MismatchVerdict → Record
  | none => []
  | some verdict =>
      [("oracle_semantic_match", .bool verdict.semanticMatch),
        ("oracle_tier", .int verdict.tier.number),
        ("oracle_category", .str verdict.category.text),
        ("mismatch_oracle",
          .obj
            [("tier", .int verdict.tier.number),
              ("category", .str verdict.category.text),
              ("semantic_match", .bool verdict.semanticMatch),
              ("evidence", .obj verdict.evidence.fields)])]

/-- What has been found out about a call when its record is made. -/
structure ToolFindings where
  outcome : ToolOutcome
  judgement : Judgement
  snippet : Option Text
  casFields : Record
  verdict : Option MismatchVerdict
  sync : Record
  command : Record

/-- The signals of the call. -/
def liveSignals (data : Record) (outcome : ToolOutcome) (judgement : Judgement)
    (snippet : Option Text) (casFields : Record) : OracleSignals where
  sourceReturncode := data.get "returncode"
  replayReturncode := outcome.metadata.get "returncode"
  sourceTimedOut := data.get "timed_out"
  replayTimedOut := outcome.metadata.get "timed_out"
  normalizedOutputMatch := orNull (judgement.normalizedOutputMatch.map .bool)
  outputDiffSnippet := orNull (snippet.map fun text => .str (String.ofList text))
  casManifestMatch := casFields.get "cas_manifest_match"
  casModifiedCount := casFields.get "cas_modified_count"
  casRemovedCount := casFields.get "cas_removed_count"
  casAddedCount := casFields.get "cas_added_count"
  mismatchReason :=
    orNull (judgement.effective.map fun reason => .str reason.text)

/-- The codes, the verdict and the output, as they are set one by one. -/
def outcomeFields (values : RecordValues) (data : Record) (isExec : Bool)
    (findings : ToolFindings) : Record :=
  let outcome := findings.outcome
  let codes :=
    ((((findings.command.withField "source_action_id" (.str values.actionId)).setIf
      "source_returncode" (intOnly (data.get "returncode"))).setIf
      "replay_returncode" (intOnly (outcome.metadata.get "returncode"))).setIf
      "source_timed_out" (boolOnly (data.get "timed_out"))).setIf
      "replay_timed_out" (boolOnly (outcome.metadata.get "timed_out"))
  let judged :=
    (codes.update (verdictFields findings.verdict)).setIf "output_diff_snippet"
      (findings.snippet.map fun text => .str (String.ofList text))
  let normalized :=
    (judged.setIf "replay_env_parity"
      (if isExec then some (.str values.execEnvParity) else none)).setIf
      "normalized_output_match"
      (findings.judgement.normalizedOutputMatch.map .bool)
  ((normalized.setIf "source_artifact_path"
      (values.originalArtifactPath.map .str)).setIf
    "simulator_artifact_path" (values.mappedArtifactPath.map .str)).setIf
    "mismatch_reason"
    (findings.judgement.effective.map fun reason => .str reason.text)

/-- `extra_tool_fields` -/
def extraToolFields (values : RecordValues) (data : Record) (isExec : Bool)
    (findings : ToolFindings) : Record :=
  let found :=
    (((outcomeFields values data isExec findings).update
      findings.outcome.metadata).update findings.casFields).update findings.sync
  let timed :=
    (found.setIf "source_exec_timeout_s" (values.execTimeouts.map Prod.fst)).setIf
      "replay_exec_timeout_s" (values.execTimeouts.map Prod.snd)
  ((timed.setIf "source_resource_timeline"
      (values.resourceTimeline.map Prod.fst)).setIf
    "resource_timeout_policy"
    (values.resourceTimeline.map fun timeline =>
      .str (if timeline.2 then "resource_integrated" else "wall_clock"))).setIf
    "source_lane_agent_id" (values.laneAgentId.map .str)

/-- `sim_metrics` -/
def simMetrics (values : RecordValues) (source : ReplaySource) : Record :=
  (Record.update
    [("warmup", .bool values.warmup),
      ("source", .str source.text),
      ("sim_tool_format",
        .str
          (if source = .executedInContainer then "container_exec"
            else source.text))]
    values.sleepDrift).setIf "concurrent_source_execs"
    (if values.concurrentSourceExecs then some (.bool true) else none)

/-- The data of the record, with what `_make_trace_action` adds. -/
def toolData (values : RecordValues) (data : Record) (toolName toolArgs : Json)
    (sourceSuccess isExec : Bool) (findings : ToolFindings) : Record :=
  let outcome := findings.outcome
  ((Record.update
    [("tool_name", toolName),
      ("tool_args", toolArgs),
      ("tool_result", outcome.toolResult),
      ("duration_ms", values.durationMs),
      ("success", .bool outcome.toolSuccess),
      ("source_success", .bool sourceSuccess),
      ("replay_outcome_match", .bool findings.judgement.mismatch.isNone)]
    (extraToolFields values data isExec findings)).update
    [("simulate_source", .str values.simulateSource),
      ("source_duration_ms", values.sourceDurationMs),
      ("replay_mode", .str "cloud_model"),
      ("replay_speed", values.replaySpeed),
      ("replay_source", .str outcome.replaySource.text),
      ("sim_metrics", .obj (simMetrics values outcome.replaySource)),
      ("run_instance_id", .str values.runInstanceId),
      ("source_agent_id", .str values.sourceAgentId),
      ("manifest_index", values.manifestIndex)]).setIf
    "label" (values.label.map .str)

section Loop

variable (python : PythonText) (session : CloudModelSession)

/-- `forced_sync_fields`; `laneInduced` is `lane_induced_mismatch_candidate`. -/
def syncOfMismatch (index : Nat) (data : Record) (isLane : Bool)
    (calls : RecordedCalls) (effective : Option MismatchReason)
    (laneInduced : Bool) : Except ActionError Record :=
  match effective with
  | some reason =>
      if session.hasContainer && !isLane then
        forcedSyncFields python calls.toReplayCalls calls.details session index
          data reason.text laneInduced
      else .ok []
  | none => .ok []

/-- What is computed from the source before its failure is counted. -/
def readSource (calls : RecordedCalls) : Except ActionError Unit :=
  if calls.sourceRaises then .error .call else .ok ()

/-- The tool branch of the loop up to its record: the verdict that is computed,
and the data that is written. -/
def replayedTool (index : Nat) (action data : Record) (toolName : Json)
    (calls : RecordedCalls) :
    Except ActionError (Option MismatchVerdict × Record) := do
  let toolArgs := getOr data "tool_args" (.str "\x7b\x7d")
  let isExec := toolUsesExecSemantics toolName toolArgs
  let isLane := isSubagentLaneAction python session action
  let sourceSuccess ← sourceToolSuccess data
  readSource calls
  let outcome ←
    runTool python session calls.toReplayCalls action data toolName sourceSuccess
  let mismatch ←
    toolMismatchReason python toolName toolArgs data sourceSuccess outcome
  let normalized := if isExec then some calls.normalizedOutputMatch else none
  let spec ← checkpointAfterSpec python session.sourceParent (.obj data)
  let atBoundary := spec.isSome && session.hasContainer && !isLane
  let effective ← boundaryMismatch calls.toReplayCalls atBoundary mismatch
  let casFields := if atBoundary then calls.casFields else []
  let judgement : Judgement := ⟨mismatch, effective, normalized⟩
  let snippet :=
    if effective.isSome ∨ normalized = some false then
      computeOutputDiffSnippet (rawText python (sourceToolResult data))
        (rawText python outcome.toolResult)
    else none
  -- what the oracle does not accept raises
  match oracleVerdict (liveSignals data outcome judgement snippet casFields) with
  | .error _ => .error .value
  | .ok verdict =>
      let sync ←
        syncOfMismatch python session index data isLane calls effective
          (atBoundary && mismatch.isNone && calls.laneActive)
      let command ←
        commandMetadata python toolName toolArgs (python.str outcome.toolResult)
          outcome.toolSuccess (outcome.metadata.get "returncode")
      return (verdict,
        toolData calls.values data toolName toolArgs sourceSuccess isExec
          { outcome, judgement, snippet, casFields, verdict, sync, command })

end Loop

end AgentSchedBench.Replay
