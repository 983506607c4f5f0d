import AgentSchedBench.Library.Selections
import AgentSchedBench.Replay.Accounting

/-!
# Actions that are applied again

Where an action has no checkpoint, an earlier one is restored and the actions
since then are applied again. The loop and the second application each decide
by themselves which actions are calls in the container. They decide alike,
except that the second application does not ask for the lane of an action and
takes a tool name that is no text for its text.
-/

namespace AgentSchedBench.Replay

open AgentSchedBench.Trace (Text Record isTruthy strip)

/-! ## What an action asks of the container -/

/-- What is known of numbers, commands and the files of the simulator. -/
structure ReplayHost where
  python : PythonText
  -- `float(value)`, unless it raises
  float : Json → Option ℚ
  -- one of `EXEC_TOOL_DENY_PATTERNS` is found in a command
  matchesDenyPattern : Text → Bool
  lower : Text → Text
  isFile : Text → Bool
  runtimeArtifactRootMap : List (Text × Text)
  replaySpeed : ℚ
  commandTimeout : ℚ

/-- A call of `_execute_container_tool_call`. -/
structure ContainerCall where
  toolName : Json
  mappedToolArgs : Json
  commandTimeout : ℚ
  sourceExecTimeout : Option ℚ
  mappedArtifactPath : Option Text
  execResourceTimeline : Option Record

/-- What `_container_tool_runtime_args` returns. -/
structure RuntimeArgs where
  mappedToolArgs : Json
  originalArtifactPath : Option Text
  mappedArtifactPath : Option Text
  mappedExists : Bool

/-- `original_artifact_path is not None and not mapped_exists` -/
def RuntimeArgs.isMissing (args : RuntimeArgs) : Bool :=
  args.originalArtifactPath.isSome && !args.mappedExists

/-- `_tool_uses_single_exec_command_semantics` -/
def toolUsesSingleExecCommandSemantics (toolArgs : Json) : Bool :=
  match execSemanticsPayload toolArgs with
  | none => false
  | some payload =>
      (fieldOf payload "command").isSome && (fieldOf payload "commands").isNone

/-- `_SOURCE_RUNTIME_ARTIFACT_MARKERS` -/
def sourceRuntimeArtifactMarkers : List (Text × Text) :=
  [("/openclaw-runtime/tool-results/tool-results/".toList,
      "/openclaw-runtime/tool-results".toList),
    ("/runtime/tool-results/tool-results/".toList,
      "/runtime/tool-results".toList)]

/-- `text.find(part)`, unless it is negative -/
def findText (part text : Text) : Option Nat :=
  (text.tails.findIdx? fun tail => part.isPrefixOf tail)

/-- `source_runtime_artifact_root_from_path` -/
def sourceRuntimeArtifactRootFromPath (path : Text) : Option Text :=
  sourceRuntimeArtifactMarkers.findSome? fun (marker, rootSuffix) =>
    (findText marker path).map fun index => path.take index ++ rootSuffix

/-- `_is_source_runtime_artifact_path` -/
def isSourceRuntimeArtifactPath (path : Text) : Bool :=
  sourceRuntimeArtifactMarkers.any fun (marker, _) =>
    (findText marker path).isSome

/-- `_unwrap_tool_args`: the name of the tool, and its parameters -/
def unwrapToolArgs (toolName : Json) (toolArgs : String) :
    Except ActionError (Json × Record) :=
  let text := if toolArgs = "" then "\x7b\x7d" else toolArgs
  match JsonText.loads text.toList with
  | none => .error .value
  | some (.obj parsed) =>
      let ofTool :=
        match toolName with
        | .str name => if isTruthy toolName then Record.get parsed name else .null
        | _ => .null
      match ofTool, parsed with
      | .obj params, _ => .ok (toolName, params)
      | _, [(onlyName, .obj params)] =>
          .ok (if isTruthy toolName then toolName else .str onlyName, params)
      | _, _ => .ok (toolName, parsed)
  | some _ => .ok (toolName, [])

namespace ReplayHost

variable (host : ReplayHost)

/-- `float(data.get("duration_ms") or 0.0)` -/
def sourceDurationMs (data : Record) : Except ActionError ℚ :=
  let value := data.get "duration_ms"
  if isTruthy value then
    match host.float value with
    | some duration => .ok duration
    | none => .error .value
  else .ok 0

/-- `_source_exec_timeout_s` -/
def sourceExecTimeout (toolName toolArgs : Json) (sourceDurationMs : ℚ)
    (sourceSuccess : Bool) (sourceToolResult sourceTimedOut : Json) :
    Except ActionError (Option ℚ) :=
  if sourceDurationMs ≤ 0 then .ok none
  else if ¬ toolUsesExecSemantics toolName toolArgs then .ok none
  else
    let timeout := max (1 / 1000) (sourceDurationMs / 1000)
    match structuredTimedOut sourceTimedOut with
    | .error error => .error error
    | .ok (some timedOut) => .ok (if timedOut then some timeout else none)
    | .ok none =>
        let text := host.python.strOr sourceToolResult []
        if sourceSuccess then .ok none
        else if (findText timedOutAfter text).isNone ∧
            ¬ isReplayWrapperTimeoutResult text then .ok none
        else .ok (some timeout)

/-- `_SOURCE_EXEC_TIMEOUT_REPLAY_FLOOR_S` -/
def sourceExecTimeoutReplayFloor : ℚ := 5

/-- `_effective_source_exec_timeout_s` -/
def effectiveSourceExecTimeout :
    Option ℚ → Except ActionError (Option ℚ)
  | none => .ok none
  | some timeout =>
      if host.replaySpeed ≤ 0 then .error .value
      else
        .ok (some (max sourceExecTimeoutReplayFloor (timeout / host.replaySpeed)))

/-- `_nonnegative_number` -/
def nonnegativeNumber (value : Json) : Option ℚ :=
  (host.float value).filter fun number => decide (0 ≤ number)

/-- `value.get("version") == 1` -/
def isTimelineVersion : Json → Bool
  | .int value => value == 1
  | .bool value => value
  | .float text => host.float (.float text) == some 1
  | _ => false

/-- `valid_resource_timeline` -/
def validResourceTimeline (value : Json) : Option Record :=
  match value with
  | .obj timeline =>
      if host.isTimelineVersion (Record.get timeline "version") then
        match Record.get timeline "samples" with
        | .arr samples =>
            let isValid : Json → Bool
              | .obj sample =>
                  ((host.nonnegativeNumber (Record.get sample "dt_s")).any
                      fun seconds => decide (0 < seconds)) &&
                    ["cpu_core_s", "net_rx_bytes", "net_tx_bytes"].any
                      fun field =>
                        (host.nonnegativeNumber (Record.get sample field)).isSome
              | _ => false
            if samples.any isValid then some timeline else none
        | _ => none
      else none
  | _ => none

/-- `_denied_exec_command` -/
def deniedExecCommand (toolArgs : Json) : Option Text :=
  match execSemanticsPayload toolArgs with
  | none => none
  | some payload =>
      let texts : Json → List Text
        | .str command => [command.toList]
        | _ => []
      let rawCommands : List Text :=
        match payload.get "commands" with
        | .arr items => items.flatMap texts
        | _ => []
      (texts (payload.get "command") ++ rawCommands).find? fun command =>
        host.matchesDenyPattern (host.lower (strip command))

/-- `remap_source_runtime_artifact_tool_args` -/
def remapSourceRuntimeArtifactToolArgs (toolName : Json) (toolArgs : String) :
    Except ActionError (Json × Option Text × Option Text) := do
  let (resolvedName, params) ← unwrapToolArgs toolName toolArgs
  if ¬ isText resolvedName "read_file" then return (.str toolArgs, none, none)
  match params.get "path" with
  | .str path =>
      match sourceRuntimeArtifactRootFromPath path.toList with
      | none => return (.str toolArgs, none, none)
      | some sourceRoot =>
          match host.runtimeArtifactRootMap.lookup sourceRoot with
          | none => return (.str toolArgs, some path.toList, none)
          | some mappedRoot =>
              let mappedPath := mappedRoot ++ path.toList.drop sourceRoot.length
              let remapped :=
                params.withField "path" (.str (String.ofList mappedPath))
              return (.str (String.ofList (JsonText.dumps (.obj remapped))),
                some path.toList, some mappedPath)
  | _ => return (.str toolArgs, none, none)

/-- `source_runtime_artifact_path_from_tool_call` -/
def sourceRuntimeArtifactPathFromToolCall (toolName : Json)
    (toolArgs : String) : Except ActionError (Option Text) := do
  let (resolvedName, params) ← unwrapToolArgs toolName toolArgs
  if ¬ isText resolvedName "read_file" then return none
  match params.get "path" with
  | .str path =>
      return if isSourceRuntimeArtifactPath path.toList then some path.toList
        else none
  | _ => return none

/-- `_container_tool_runtime_args` -/
def containerToolRuntimeArgs (toolName toolArgs : Json) :
    Except ActionError RuntimeArgs :=
  match toolArgs with
  | .str text => do
      let (mappedArgs, sourcePath, mappedPath) ←
        host.remapSourceRuntimeArtifactToolArgs toolName text
      let mappedExists := mappedPath.any host.isFile
      let originalPath ←
        match sourcePath with
        | some path => .ok (some path)
        | none => sourceRuntimeArtifactPathFromToolCall toolName text
      return ⟨mappedArgs, originalPath, mappedPath, mappedExists⟩
  | _ => .ok ⟨toolArgs, none, none, false⟩

/-- `_tool_executes_in_container`; a list or a dictionary is no item of a
set. -/
def toolExecutesInContainer (toolName : Json) : Except ActionError Bool :=
  if ¬ isTruthy toolName then .ok false
  else if isText toolName "message" then .ok false
  else if "mcp_".toList.isPrefixOf (host.python.str toolName) then .ok false
  else
    match toolName with
    | .arr _ | .obj _ => .error .call
    | .str name => .ok (decide (name ∉ traceReplayToolNames))
    | _ => .ok true

end ReplayHost

/-! ## Which actions are called -/

namespace ReplayHost

variable (host : ReplayHost) (session : CloudModelSession)

/-- The timeout of a call, which the loop and the second application compute
alike from the source. -/
def replayExecTimeout (data : Record) : Except ActionError (Option ℚ) := do
  let duration ← host.sourceDurationMs data
  let sourceSuccess ← sourceToolSuccess data
  let timeout ←
    host.sourceExecTimeout (data.get "tool_name")
      (getOr data "tool_args" (.str "\x7b\x7d")) duration sourceSuccess
      (sourceToolResult data) (data.get "timed_out")
  host.effectiveSourceExecTimeout timeout

/-- The call of a tool with its arguments mapped. -/
def containerCall (data : Record) (args : RuntimeArgs)
    (replayTimeout : Option ℚ) : ContainerCall :=
  { toolName := data.get "tool_name"
    mappedToolArgs := args.mappedToolArgs
    commandTimeout := host.commandTimeout
    sourceExecTimeout := replayTimeout
    mappedArtifactPath := args.mappedArtifactPath
    execResourceTimeline :=
      if toolUsesSingleExecCommandSemantics args.mappedToolArgs then
        host.validResourceTimeline (data.get "resource_timeline")
      else none }

/-- The branches of the loop for a tool: its call in the container, if it is
one. -/
def loopTool (action data : Record) :
    Except ActionError (Option ContainerCall) := do
  let toolName := data.get "tool_name"
  let toolArgs := getOr data "tool_args" (.str "\x7b\x7d")
  if ¬ isTruthy toolName then return none
  let replayTimeout ← host.replayExecTimeout data
  if isSubagentLaneAction host.python session action then return none
  else if ¬ session.hasContainer then return none
  else
    match toolName with
    | .str name =>
        if name = "message" then return none
        else if "mcp_".toList.isPrefixOf name.toList ∨
            name ∈ traceReplayToolNames then return none
        else if (host.deniedExecCommand toolArgs).isSome then return none
        else
          let args ← host.containerToolRuntimeArgs toolName toolArgs
          if args.isMissing then return none
          else return some (host.containerCall data args replayTimeout)
    -- no other value has `startswith`
    | _ => .error .attribute

/-- What an action calls in the container when the loop replays it. -/
def loopAction (action : Record) : Except ActionError (Option ContainerCall) :=
  -- `str(value) == "tool_exec"`, which holds of that text only
  if ¬ isText (action.get "action_type") "tool_exec" then .ok none
  else
    match actionData action with
    | .obj data => host.loopTool session action data
    | _ => .error .attribute

/-- What is called when a tool is applied again. -/
def reapplyTool (data : Record) : Except ActionError (Option ContainerCall) := do
  let toolName := data.get "tool_name"
  let toolArgs := getOr data "tool_args" (.str "\x7b\x7d")
  let executes ← host.toolExecutesInContainer toolName
  if ¬ executes then return none
  else
    let replayTimeout ← host.replayExecTimeout data
    let args ← host.containerToolRuntimeArgs toolName toolArgs
    if args.isMissing then return none
    else if (host.deniedExecCommand toolArgs).isSome then return none
    else return some (host.containerCall data args replayTimeout)

def reapplyAction (action : Record) :
    Except ActionError (Option ContainerCall) :=
  if ¬ isText (action.get "action_type") "tool_exec" then .ok none
  else
    match dataOrEmpty action with
    | .obj data => host.reapplyTool data
    | _ => .error .attribute

end ReplayHost

/-- The actions from an index to another one, each with its index. -/
def CloudModelSession.actionRange (session : CloudModelSession)
    (startIndex endIndex : Nat) : List (Record × Nat) :=
  (session.actions.zipIdx.take (endIndex + 1)).drop startIndex

/-- The call of an action, unless it raises. -/
def called (result : Except ActionError (Option ContainerCall)) :
    Option ContainerCall :=
  result.toOption.join

/-- What `_reapply_forced_sync_actions` has done: the calls, the ids of their
actions, and the errors. -/
structure Reapplied where
  calls : List ContainerCall
  actionIds : List Text
  errors : List Text

/-- `str(action.get("action_id") or f"action-{index}")` -/
def reappliedActionId (python : PythonText) (index : Nat) (action : Record) :
    Text :=
  python.strOr (action.get "action_id")
    ("action-".toList ++ (toString index).toList)

/-- The text of an exception of a call. -/
def reapplyError (index : Nat) (actionId exception : Text) : Text :=
  "action_index=".toList ++ (toString index).toList ++ " action_id=".toList ++
    actionId ++ ": ".toList ++ exception

namespace ReplayHost

variable (host : ReplayHost) (session : CloudModelSession)

/-- The loop of `_reapply_forced_sync_actions`, given what exception a call
raises, if any. -/
def reapplyFrom (raises : ContainerCall → Option Text) :
    List (Record × Nat) → Except ActionError Reapplied
  | [] => .ok ⟨[], [], []⟩
  | (action, index) :: rest =>
      match host.reapplyAction action with
      | .error error => .error error
      | .ok none => reapplyFrom raises rest
      | .ok (some call) =>
          let actionId := reappliedActionId host.python index action
          match raises call with
          | some exception =>
              .ok ⟨[call], [actionId], [reapplyError index actionId exception]⟩
          | none =>
              (reapplyFrom raises rest).map fun later =>
                ⟨call :: later.calls, actionId :: later.actionIds, later.errors⟩

/-- `_reapply_forced_sync_actions` -/
def reapplyForcedSyncActions (raises : ContainerCall → Option Text)
    (startIndex endIndex : Nat) : Except ActionError Reapplied :=
  if ¬ session.hasContainer then .error .value
  else host.reapplyFrom raises (session.actionRange startIndex endIndex)

/-- What the loop calls in the container in these actions; an iteration that
raises calls nothing, and the next one follows. -/
def loopCalls (startIndex endIndex : Nat) : List ContainerCall :=
  (session.actionRange startIndex endIndex).filterMap fun item =>
    called (host.loopAction session item.1)

/-- The action is a tool of the container, which is not denied and whose
artifact, if it reads one, is there. -/
structure IsContainerTool (action data : Record) : Prop where
  isTool : isText (action.get "action_type") "tool_exec"
  hasData : dataOrEmpty action = .obj data
  executes : host.toolExecutesInContainer (data.get "tool_name") = .ok true
  allowed :
    host.deniedExecCommand (getOr data "tool_args" (.str "\x7b\x7d")) = none
  available : ∃ args,
    host.containerToolRuntimeArgs (data.get "tool_name")
      (getOr data "tool_args" (.str "\x7b\x7d")) = .ok args ∧
    args.isMissing = false

end ReplayHost

/-! ## How the loop and the second application differ -/

/-- `isinstance(value, str)` -/
def isStr : Json → Bool
  | .str _ => true
  | _ => false

section Calls

variable {α : Type} {host : ReplayHost} {session : CloudModelSession}

/-- The tools that are not run in the container. -/
theorem toolExecutesInContainer_str (name : String)
    (nonempty : isTruthy (.str name) = true) :
    host.toolExecutesInContainer (.str name) =
      .ok (!decide (name = "message" ∨ "mcp_".toList.isPrefixOf name.toList ∨
        name ∈ traceReplayToolNames)) := by
  have isText_message : isText (.str name) "message" = decide (name = "message") :=
    rfl
  have str_name : host.python.str (.str name) = name.toList := rfl
  unfold ReplayHost.toolExecutesInContainer
  rw [if_neg (not_not_intro nonempty), isText_message, str_name]
  by_cases isMessage : name = "message"
  · simp [isMessage]
  · by_cases isMcp : "mcp_".toList.isPrefixOf name.toList
    · simp only [isMessage, isMcp, decide_false, Bool.false_eq_true, if_false,
        if_true, true_or, or_true, decide_true, Bool.not_true]
    · simp only [isMessage, isMcp, decide_false, Bool.false_eq_true, if_false,
        false_or, decide_not]

theorem toolExecutesInContainer_unnamed {toolName : Json}
    (unnamed : ¬isTruthy toolName = true) :
    host.toolExecutesInContainer toolName = .ok false := by
  unfold ReplayHost.toolExecutesInContainer
  exact if_pos unnamed

theorem bind_eq_some {first : Except ActionError α}
    {next : α → Except ActionError (Option ContainerCall)}
    {call : ContainerCall} :
    (first >>= next) = .ok (some call) ↔
      ∃ middle, first = .ok middle ∧ next middle = .ok (some call) :=
  Loops.bind_eq_ok

theorem isTruthy_of_executes {toolName : Json}
    (executes : host.toolExecutesInContainer toolName = .ok true) :
    isTruthy toolName = true := by
  by_contra unnamed
  rw [toolExecutesInContainer_unnamed unnamed] at executes
  cases executes

/-- What is skipped under a condition has a call only without it. -/
theorem unless_eq_some {skips : Prop} [Decidable skips]
    {rest : Except ActionError (Option ContainerCall)} {call : ContainerCall} :
    (if skips then pure none else rest) = .ok (some call) ↔
      ¬skips ∧ rest = .ok (some call) := by
  by_cases isSkipped : skips
  · rw [if_pos isSkipped]
    exact iff_of_false (nofun) fun both => both.1 isSkipped
  · rw [if_neg isSkipped, and_iff_right isSkipped]

/-- What is called when a tool is applied again. -/
theorem reapplyTool_eq_some {data : Record} {call : ContainerCall} :
    host.reapplyTool data = .ok (some call) ↔
      host.toolExecutesInContainer (data.get "tool_name") = .ok true ∧
      ∃ replayTimeout, host.replayExecTimeout data = .ok replayTimeout ∧
      ∃ args,
        host.containerToolRuntimeArgs (data.get "tool_name")
          (getOr data "tool_args" (.str "\x7b\x7d")) = .ok args ∧
        ¬args.isMissing = true ∧
        ¬(host.deniedExecCommand
          (getOr data "tool_args" (.str "\x7b\x7d"))).isSome = true ∧
        host.containerCall data args replayTimeout = call := by
  unfold ReplayHost.reapplyTool
  simp only [bind_eq_some, unless_eq_some, not_not]
  constructor
  · rintro ⟨executes, isExecuted, runs, replayTimeout, isTimeout, args, isArgs,
      available, allowed, isCall⟩
    cases runs
    exact ⟨isExecuted, replayTimeout, isTimeout, args, isArgs, available,
      allowed, Option.some.inj (Except.ok.inj isCall)⟩
  · rintro ⟨isExecuted, replayTimeout, isTimeout, args, isArgs, available,
      allowed, rfl⟩
    exact ⟨true, isExecuted, rfl, replayTimeout, isTimeout, args, isArgs,
      available, allowed, rfl⟩

/-- The loop calls what is applied again, unless the action is one of a
subagent or the name of its tool is no text. -/
theorem loopTool_eq_some {action data : Record} {call : ContainerCall} :
    host.loopTool session action data = .ok (some call) ↔
      (¬isSubagentLaneAction host.python session action = true ∧
        session.hasContainer = true ∧ isStr (data.get "tool_name") = true) ∧
      host.reapplyTool data = .ok (some call) := by
  rw [reapplyTool_eq_some]
  unfold ReplayHost.loopTool
  simp only [bind_eq_some, unless_eq_some, not_not]
  cases isName : data.get "tool_name" with
  | str name =>
      simp only [unless_eq_some, bind_eq_some]
      constructor
      · rintro ⟨isNamed, replayTimeout, isTimeout, notLane, hasContainer,
          notMessage, notTrace, allowed, args, isArgs, available, isCall⟩
        refine ⟨⟨notLane, hasContainer, rfl⟩, ?_, replayTimeout, isTimeout, args,
          isArgs, available, allowed, Option.some.inj (Except.ok.inj isCall)⟩
        rw [toolExecutesInContainer_str name isNamed, decide_eq_false
          (not_or.mpr ⟨notMessage, notTrace⟩)]
        rfl
      · rintro ⟨⟨notLane, hasContainer, _⟩, executes, replayTimeout, isTimeout,
          args, isArgs, available, allowed, rfl⟩
        have isNamed := isTruthy_of_executes executes
        rw [toolExecutesInContainer_str name isNamed] at executes
        obtain ⟨notMessage, notTrace⟩ := not_or.mp (of_decide_eq_false
          (Bool.not_eq_eq_eq_not.mp (Except.ok.inj executes)))
        exact ⟨isNamed, replayTimeout, isTimeout, notLane, hasContainer,
          notMessage, notTrace, allowed, args, isArgs, available, rfl⟩
  | _ =>
      refine iff_of_false ?_ fun both => nomatch both.1.2.2
      rintro ⟨_, _, _, _, _, ⟨⟩⟩

/-- A dictionary is the data of an action for both; where the loop finds none
there is no tool. -/
theorem dataOrEmpty_cases (action : Record) :
    (∃ data, actionData action = .obj data ∧
      dataOrEmpty action = .obj data) ∨
    (∀ data, actionData action ≠ .obj data) ∧
      ∀ data, dataOrEmpty action = .obj data → data = [] := by
  unfold actionData dataOrEmpty getOr Trace.Record.get
  cases fieldOf action "data" with
  | none => exact .inl ⟨[], rfl, rfl⟩
  | some value =>
      rw [Option.getD_some, Option.getD_some]
      cases value with
      | obj data =>
          refine .inl ⟨data, rfl, ?_⟩
          cases data <;> rfl
      | _ =>
          refine .inr ⟨by rintro _ ⟨⟩, fun data isData => ?_⟩
          dsimp only at isData
          split at isData
          · cases isData
          · cases isData
            rfl

theorem reapplyTool_nil (call : ContainerCall) :
    host.reapplyTool [] ≠ .ok (some call) := by
  rw [Ne, reapplyTool_eq_some]
  rintro ⟨executes, _⟩
  cases isTruthy_of_executes executes

/-- The loop calls what is applied again of the parent's tools that have a
text for their name. -/
theorem loopAction_eq_some {action : Record} {call : ContainerCall} :
    host.loopAction session action = .ok (some call) ↔
      host.reapplyAction action = .ok (some call) ∧
      session.hasContainer = true ∧
      ∀ data, dataOrEmpty action = .obj data →
        ¬isSubagentLaneAction host.python session action = true ∧
          isStr (Record.get data "tool_name") = true := by
  rw [ReplayHost.loopAction, ReplayHost.reapplyAction]
  by_cases isTool : isText (action.get "action_type") "tool_exec" = true
  · rw [if_neg (not_not_intro isTool), if_neg (not_not_intro isTool)]
    rcases dataOrEmpty_cases action with
      ⟨data, isData, isSame⟩ | ⟨noData, isEmpty⟩
    · rw [isData, isSame]
      dsimp only
      rw [loopTool_eq_some]
      constructor
      · rintro ⟨⟨notLane, hasContainer, isName⟩, isCall⟩
        refine ⟨isCall, hasContainer, ?_⟩
        rintro _ ⟨rfl⟩
        exact ⟨notLane, isName⟩
      · rintro ⟨isCall, hasContainer, ofParent⟩
        obtain ⟨notLane, isName⟩ := ofParent data rfl
        exact ⟨⟨notLane, hasContainer, isName⟩, isCall⟩
    · refine iff_of_false ?_ ?_
      · split
        · next data isData => exact absurd isData (noData data)
        · exact nofun
      · rintro ⟨isCall, _⟩
        split at isCall
        · next data isData =>
            rw [isEmpty data isData] at isCall
            exact reapplyTool_nil call isCall
        · cases isCall
  · rw [if_pos isTool, if_pos isTool]
    exact iff_of_false (nofun) (nofun)

/-- What is applied again is a tool of the container. -/
theorem reapplyAction_isSome {action : Record} {call : Option ContainerCall}
    (returns : host.reapplyAction action = .ok call) :
    call.isSome = true ↔ ∃ data, host.IsContainerTool action data := by
  constructor
  · intro isSome
    obtain ⟨call, rfl⟩ := Option.isSome_iff_exists.mp isSome
    rw [ReplayHost.reapplyAction] at returns
    split at returns
    · cases returns
    · next isTool =>
        split at returns
        · next data isData =>
            obtain ⟨executes, _, _, args, isArgs, available, allowed, _⟩ :=
              reapplyTool_eq_some.mp returns
            exact ⟨data, not_not.mp isTool, isData, executes,
              Option.not_isSome_iff_eq_none.mp allowed, args, isArgs,
              Bool.not_eq_true _ ▸ available⟩
        · cases returns
  · rintro ⟨data, tool⟩
    obtain ⟨args, isArgs, available⟩ := tool.available
    rw [ReplayHost.reapplyAction, if_neg (not_not_intro tool.isTool),
      tool.hasData] at returns
    dsimp only at returns
    obtain ⟨replayTimeout, isTimeout⟩ : ∃ replayTimeout,
        host.replayExecTimeout data = .ok replayTimeout := by
      unfold ReplayHost.reapplyTool at returns
      simp only [tool.executes] at returns
      cases isTimeout : host.replayExecTimeout data with
      | error error =>
          rw [isTimeout] at returns
          cases returns
      | ok replayTimeout => exact ⟨replayTimeout, rfl⟩
    have isCall : host.reapplyTool data =
        .ok (some (host.containerCall data args replayTimeout)) :=
      reapplyTool_eq_some.mpr ⟨tool.executes, replayTimeout, isTimeout, args, isArgs,
        Bool.not_eq_true _ ▸ available,
        Option.not_isSome_iff_eq_none.mpr tool.allowed, rfl⟩
    cases returns.symm.trans isCall
    rfl

theorem called_eq_some {result : Except ActionError (Option ContainerCall)}
    {call : ContainerCall} :
    called result = some call ↔ result = .ok (some call) := by
  rw [called]
  cases result with
  | error error => exact iff_of_false (nofun) (nofun)
  | ok given =>
      cases given with
      | none => exact iff_of_false (nofun) (nofun)
      | some given => simp [Except.toOption]

/-- The loop calls nothing, or what is applied again. -/
theorem called_loopAction (host : ReplayHost) (session : CloudModelSession)
    (action : Record) :
    called (host.loopAction session action) = none ∨
      called (host.loopAction session action) =
        called (host.reapplyAction action) := by
  cases isCalled : called (host.loopAction session action) with
  | none => exact .inl rfl
  | some call =>
      have isCall := loopAction_eq_some.mp (called_eq_some.mp isCalled)
      exact .inr (called_eq_some.mpr isCall.1).symm

/-- What is applied again, if nothing raises. -/
theorem reapplyFrom_calls {raises : ContainerCall → Option Text}
    {items : List (Record × Nat)} {reapplied : Reapplied}
    (returns : host.reapplyFrom raises items = .ok reapplied)
    (noErrors : reapplied.errors = []) :
    (∀ item ∈ items, ∃ call, host.reapplyAction item.1 = .ok call) ∧
      reapplied.calls =
        items.filterMap fun item => called (host.reapplyAction item.1) := by
  induction items generalizing reapplied with
  | nil =>
      cases returns
      exact ⟨List.forall_mem_nil _, rfl⟩
  | cons item items induction =>
      obtain ⟨action, index⟩ := item
      rw [ReplayHost.reapplyFrom] at returns
      rw [List.forall_mem_cons, List.filterMap_cons]
      cases isCall : host.reapplyAction action with
      | error error =>
          rw [isCall] at returns
          cases returns
      | ok call =>
          rw [isCall] at returns
          cases call with
          | none =>
              obtain ⟨allReturn, calls⟩ := induction returns noErrors
              exact ⟨⟨⟨none, rfl⟩, allReturn⟩, calls⟩
          | some call =>
              dsimp only at returns
              cases isRaised : raises call with
              | some exception =>
                  rw [isRaised] at returns
                  cases returns
                  cases noErrors
              | none =>
                  rw [isRaised] at returns
                  cases isLater : host.reapplyFrom raises items with
                  | error error =>
                      rw [isLater] at returns
                      cases returns
                  | ok later =>
                      rw [isLater] at returns
                      cases returns
                      obtain ⟨allReturn, calls⟩ := induction isLater noErrors
                      exact ⟨⟨⟨some call, rfl⟩, allReturn⟩, congrArg _ calls⟩

end Calls

/-- A host without artifacts and denied commands. -/
def plainHost : ReplayHost :=
  { python := ⟨fun _ => [], fun _ => none⟩
    float := fun value =>
      match value with
      | .int number => some number
      | _ => none
    matchesDenyPattern := fun _ => false
    lower := id
    isFile := fun _ => false
    runtimeArtifactRootMap := []
    replaySpeed := 1
    commandTimeout := 600 }

/-- The arguments of a command that is run. -/
def makeArgs : String :=
  String.ofList (JsonText.dumps (.obj [("command", .str "make")]))

def makeData : Record :=
  [("tool_name", .str "exec"), ("tool_args", .str makeArgs),
    ("success", .bool true)]

/-- An agent runs the command. -/
def makeAction (agentId : String) : Record :=
  [("action_type", .str "tool_exec"), ("agent_id", .str agentId),
    ("action_id", .str "tool_0"), ("data", .obj makeData)]

def makeSession (agentIds : List String) : CloudModelSession :=
  ⟨"agent".toList, "/traces".toList, true, agentIds.map makeAction⟩

def makeCall : ContainerCall :=
  ⟨.str "exec", .str makeArgs, 600, none, none, none⟩

theorem unwrapToolArgs_make :
    unwrapToolArgs (.str "exec") makeArgs =
      .ok (.str "exec", [("command", .str "make")]) := by
  have wellFormed :
      JsonText.WellFormed (.obj [("command", .str "make")]) := by
    simp [JsonText.WellFormed, JsonText.WellFormedFields]
  have nonempty : makeArgs ≠ "" := by
    rw [makeArgs, JsonText.dumps]
    simp
  rw [unwrapToolArgs, if_neg nonempty, makeArgs, String.toList_ofList,
    JsonText.loads_dumps wellFormed]
  rfl

theorem replayExecTimeout_make :
    plainHost.replayExecTimeout makeData = .ok none := by
  have isDuration : plainHost.sourceDurationMs makeData = .ok 0 := rfl
  have isSuccess : sourceToolSuccess makeData = .ok true := rfl
  have isShort (toolName toolArgs result timedOut : Json) :
      plainHost.sourceExecTimeout toolName toolArgs 0 true result timedOut =
        .ok none := if_pos (le_refl 0)
  unfold ReplayHost.replayExecTimeout
  simp only [isDuration, isSuccess, bind, Except.bind, isShort]
  rfl

theorem containerToolRuntimeArgs_make :
    plainHost.containerToolRuntimeArgs (.str "exec") (.str makeArgs) =
      .ok ⟨.str makeArgs, none, none, false⟩ := by
  unfold ReplayHost.containerToolRuntimeArgs
    ReplayHost.remapSourceRuntimeArtifactToolArgs
    ReplayHost.sourceRuntimeArtifactPathFromToolCall
  simp only [unwrapToolArgs_make]
  rfl

theorem reapplyTool_make :
    plainHost.reapplyTool makeData = .ok (some makeCall) := by
  refine reapplyTool_eq_some.mpr ⟨?_, none, replayExecTimeout_make, _,
    containerToolRuntimeArgs_make, nofun, ?_, ?_⟩
  · exact (toolExecutesInContainer_str "exec" rfl).trans
      (congrArg Except.ok (by decide))
  · have noPattern : plainHost.deniedExecCommand (.str makeArgs) = none := by
      unfold ReplayHost.deniedExecCommand
      split
      · rfl
      · exact List.find?_eq_none.mpr (nofun)
    exact Option.not_isSome_iff_eq_none.mpr noPattern
  · exact congrArg (ContainerCall.mk _ _ _ _ _) (ite_self none)

theorem reapplyAction_make (agentId : String) :
    plainHost.reapplyAction (makeAction agentId) = .ok (some makeCall) :=
  reapplyTool_make

/-- The actions of two agents are applied again. -/
theorem reapply_make (first second third : String) :
    plainHost.reapplyForcedSyncActions (makeSession [first, second, third])
        (fun _ => none) 1 2 =
      .ok ⟨[makeCall, makeCall], ["tool_0".toList, "tool_0".toList], []⟩ := by
  have isRange : (makeSession [first, second, third]).actionRange 1 2 =
      [(makeAction second, 1), (makeAction third, 2)] := rfl
  have hasContainer :
      (makeSession [first, second, third]).hasContainer = true := rfl
  rw [ReplayHost.reapplyForcedSyncActions, isRange,
    if_neg (not_not_intro hasContainer), ReplayHost.reapplyFrom,
    reapplyAction_make, ReplayHost.reapplyFrom, reapplyAction_make]
  rfl

end AgentSchedBench.Replay
