import AgentSchedBench.Agent.TextEdit
import AgentSchedBench.Library.Loops
import AgentSchedBench.Trace.Collections
import Mathlib

/-!
# The artifacts of an attempt

However an attempt ends, it should leave its manifest, its results, the
resources it used, its tool calls and its output, and then end in that way.
All files are written after the tool calls have been read from its trace, so
that a trace that cannot be read loses them, and the error of the attempt.
-/

namespace AgentSchedBench.Trace

open Agent (decodeUtf8)
open JsonText TextLines

/-! ## Tool calls from a trace -/

/-- What stops `build_tool_calls_from_trace`. -/
inductive TraceFailure where
  -- bytes that are no UTF-8
  | decode
  -- `json.loads` raises, and not because the line is no JSON
  | limit
  | field (error : ReadError)
  -- a number that is no time
  | timestamp
deriving DecidableEq, Repr

/-- What Python makes of lines, of numbers and of values that are no texts. -/
structure PythonReading where
  -- a line nested too deeply, or with an integer of too many digits
  exceedsLimit : Text → Bool
  -- a line whose escapes give a surrogate that a tool call would keep
  keepsSurrogate : Text → Bool
  fromTimestamp : Json → Option String
  durationMs : Json → Json → Json
  str : Json → Text

namespace PythonReading

variable (python : PythonReading)

def rendering : Rendering where
  isoformat value := (python.fromTimestamp value).getD ""
  durationMs := python.durationMs
  str := python.str

/-- Does `_format_epoch` not raise? -/
def formats (value : Json) : Bool :=
  !isNumber value || (python.fromTimestamp value).isSome

/-- The lines that are not blank, without their margins. -/
def traceLines (text : Text) : List Text :=
  ((splitLines text).map strip).filter fun line => !line.isEmpty

/-- The entry of a line; one that is no JSON is skipped. -/
def lineEntry (line : Text) : Except TraceFailure (Option Record) :=
  if python.exceedsLimit line then .error .limit
  else
    match parseRecord line with
    | .ok record => .ok (some record)
    | .error .decode => .ok none
    | .error error => .error (.field error)

/-- The tool call of an entry, if it is one. -/
def entryCall (entry : Record) : Except TraceFailure (Option ToolCall) :=
  if ¬ isToolExec entry then .ok none
  else if ¬ python.formats (entry.get "ts_start") then .error .timestamp
  else if ¬ python.formats (entry.get "ts_end") then .error .timestamp
  else
    match toolCall python.rendering entry with
    | .ok call => .ok (some call)
    | .error error => .error (.field error)

def lineCall (line : Text) : Except TraceFailure (Option ToolCall) :=
  match python.lineEntry line with
  | .error failure => .error failure
  | .ok none => .ok none
  | .ok (some entry) => python.entryCall entry

/-- `build_tool_calls_from_trace`, on the bytes of the file. -/
def toolCallsFromTrace (raw : ByteArray) :
    Except TraceFailure (List ToolCall) :=
  match decodeUtf8 raw with
  | none => .error .decode
  | some text =>
      ((traceLines text).mapM python.lineCall).map (·.filterMap id)

/-- Can the tool calls of the trace be written as UTF-8? -/
def callsEncode (raw : ByteArray) : Bool :=
  match decodeUtf8 raw with
  | none => true
  | some text => (traceLines text).all fun line => !python.keepsSurrogate line

end PythonReading

/-! ## The attempt -/

/-- The result of the scaffold coroutine; its trace, if there is a file. -/
structure InnerResult extends AttemptResult where
  toolCalls : List ToolCall
  traceFile : Option ByteArray

/-- An exception, and what `str` makes of it. -/
structure InnerError where
  name : Text
  text : Text
  strRaises : Bool
  hasSurrogate : Bool
deriving DecidableEq, Repr

/-- How the scaffold coroutine ends; a cancellation is an exception. -/
inductive InnerEnd where
  | returned (result : InnerResult)
  | raised (error : InnerError)

/-- `_ERROR_EXIT_STATUSES` -/
def errorExitStatuses : List Text :=
  ["error".toList, "tool_error".toList, "empty_final_response".toList,
    "timeout".toList, "failed".toList]

local instance lawfulText : LawfulBEq Text := inferInstance

/-- `status` of the manifest. -/
def InnerEnd.status : InnerEnd → Text
  | .raised _ => "error".toList
  | .returned result =>
      if result.exitStatus = some "max_iterations".toList then
        "exhausted".toList
      else if ¬ result.success ∨ ∃ status ∈ result.exitStatus,
          status ∈ errorExitStatuses then
        "error".toList
      else "completed".toList

/-- `run_manifest.json`, as far as it depends on the ending. -/
structure RunManifest where
  status : Text
  exitCode : Nat
  exitStatus : Option Text
  error : Option Text
deriving DecidableEq, Repr

/-- `results.json`, as far as it depends on the ending. -/
structure ResultsPayload where
  success : Bool
  nIterations : Option Nat
deriving DecidableEq, Repr

/-- `resources.json`: how many samples there are, and what of the monitoring. -/
structure Resources where
  sampleCount : Nat
  monitoringDisabled : Bool
  monitoringStatus : Text
deriving DecidableEq, Repr

/-- What monitors the attempt. -/
structure Monitoring where
  enabled : Bool
  samples : Nat

def Monitoring.resources (monitoring : Monitoring) : Resources where
  sampleCount := monitoring.samples
  monitoringDisabled := !monitoring.enabled
  monitoringStatus :=
    if monitoring.samples ≠ 0 then "collected".toList
    else if monitoring.enabled then "enabled_no_samples".toList
    else "disabled".toList

/-- The files that an attempt writes. -/
structure AttemptFiles where
  manifest : Option RunManifest
  results : Option ResultsPayload
  resources : Option Resources
  toolCalls : Option (List ToolCall)
  stdout : Option Text

/-- How `run_attempt` ends. -/
inductive AttemptFinish where
  | as (ending : InnerEnd)
  | traceFailure (failure : TraceFailure)
  | unwritable

def InnerEnd.manifest (ending : InnerEnd) : RunManifest :=
  match ending with
  | .raised error => ⟨ending.status, 1, none, some error.text⟩
  | .returned result =>
      ⟨ending.status, if result.success then 0 else 1, result.exitStatus,
        result.error⟩

def InnerEnd.resultsPayload : InnerEnd → ResultsPayload
  | .raised _ => ⟨false, none⟩
  | .returned result => ⟨result.success, result.nIterations⟩

/-- The trace in the attempt directory, after that of the result is copied. -/
def InnerEnd.trace (ending : InnerEnd) (present : Option ByteArray) :
    Option ByteArray :=
  match ending with
  | .raised _ => present
  | .returned result => result.traceFile.or present

/-- The tool calls of the result, if there are any. -/
def InnerEnd.ownCalls : InnerEnd → List ToolCall
  | .raised _ => []
  | .returned result => result.toolCalls

/-- The exception, if there is one. -/
def InnerEnd.error : InnerEnd → Option InnerError
  | .raised error => some error
  | .returned _ => none

/-- The tool calls, and whether they can be written. -/
def InnerEnd.toolCalls (python : PythonReading) (ending : InnerEnd)
    (trace : Option ByteArray) :
    Except TraceFailure (List ToolCall × Bool) :=
  if ¬ ending.ownCalls.isEmpty then .ok (ending.ownCalls, true)
  else
    match trace with
    | none => .ok ([], true)
    | some raw =>
        (python.toolCallsFromTrace raw).map fun calls =>
          (calls, python.callsEncode raw)

/--
`run_attempt`, from the end of the coroutine on: the trace that is present,
what was monitored and the output of the container are given.
-/
def runAttempt (python : PythonReading) (ending : InnerEnd)
    (present : Option ByteArray) (monitoring : Monitoring) (stdout : Text) :
    AttemptFiles × AttemptFinish :=
  let files : AttemptFiles := ⟨none, none, none, none, none⟩
  if ending.error.any InnerError.strRaises then (files, .unwritable)
  else
    match ending.toolCalls python (ending.trace present) with
    | .error failure => (files, .traceFailure failure)
    | .ok (calls, encodes) =>
        -- the manifest is the first file that is written
        if ending.error.any InnerError.hasSurrogate then (files, .unwritable)
        else
          let files :=
            { files with
              manifest := some ending.manifest
              results := some ending.resultsPayload
              resources := some monitoring.resources }
          if ¬ encodes then (files, .unwritable)
          else
            ({ files with toolCalls := some calls, stdout := some stdout },
              .as ending)

/-! ## What it should leave -/

/-- All files are there. -/
structure AttemptFiles.Complete (files : AttemptFiles) : Prop where
  manifest : files.manifest.isSome
  results : files.results.isSome
  resources : files.resources.isSome
  toolCalls : files.toolCalls.isSome
  stdout : files.stdout.isSome

/-- A successful result without an exit status that stands for an error. -/
def InnerEnd.Successful : InnerEnd → Prop
  | .raised _ => False
  | .returned result =>
      result.success = true ∧
        ∀ status ∈ result.exitStatus, status ∉ errorExitStatuses

/-- The files are there, and the attempt ends as the coroutine did. -/
structure LeavesArtifacts (ending : InnerEnd)
    (outcome : AttemptFiles × AttemptFinish) : Prop where
  complete : outcome.1.Complete
  finish : outcome.2 = .as ending
  completed :
    ∀ manifest ∈ outcome.1.manifest,
      manifest.status = "completed".toList → ending.Successful

/-! ## When it does -/

/-- A tool call can be made of the entry, if it is one of a tool. -/
def PythonReading.EntryReads (python : PythonReading) (entry : Record) :
    Prop :=
  isToolExec entry = true →
    (isTruthy (entry.get "data") = false ∨
        ∃ data, entry.get "data" = .obj data) ∧
      python.formats (entry.get "ts_start") = true ∧
        python.formats (entry.get "ts_end") = true

/-- The line is no JSON, or an object of which a tool call can be made. -/
structure PythonReading.LineReads (python : PythonReading) (line : Text) :
    Prop where
  limit : python.exceedsLimit line = false
  entry :
    ∀ value, loads line = some value →
      ∃ entry, value = .obj entry ∧ python.EntryReads entry

/-- All lines of the trace can be read, and written as tool calls. -/
def PythonReading.TraceReads (python : PythonReading) (raw : ByteArray) :
    Prop :=
  ∃ text, decodeUtf8 raw = some text ∧
    ∀ line ∈ traceLines text,
      python.LineReads line ∧ python.keepsSurrogate line = false

/--
The text of an exception can be written; and so can the tool calls that are
read from a trace, unless there is none or the result has its own.
-/
structure EndsReadably (python : PythonReading) (ending : InnerEnd)
    (present : Option ByteArray) : Prop where
  error :
    ∀ error ∈ ending.error,
      error.strRaises = false ∧ error.hasSurrogate = false
  trace :
    ending.ownCalls = [] →
      ∀ raw ∈ ending.trace present, python.TraceReads raw

namespace PythonReading

variable {python : PythonReading}

theorem dictOrEmpty_ok (error : ReadError) (value : Json) :
    (∃ data, dictOrEmpty error value = .ok data) ↔
      isTruthy value = false ∨ ∃ data, value = .obj data := by
  rw [dictOrEmpty.eq_def]
  split
  · next fields => exact iff_of_true ⟨fields, rfl⟩ (.inr ⟨fields, rfl⟩)
  · next notObject =>
    have noData : ¬ ∃ data, value = .obj data := by
      rintro ⟨data, isData⟩
      exact notObject data isData
    cases isTruthy value with
    | true => simpa using noData
    | false => exact iff_of_true ⟨[], rfl⟩ (.inl rfl)

theorem toolCall_ok (rendering : Rendering) (entry : Record) :
    (∃ call, toolCall rendering entry = .ok call) ↔
      isTruthy (entry.get "data") = false ∨
        ∃ data, entry.get "data" = .obj data := by
  rw [← dictOrEmpty_ok .attribute, toolCall]
  cases dictOrEmpty .attribute (entry.get "data") with
  | error failure => exact ⟨nofun, nofun⟩
  | ok data => exact iff_of_true ⟨_, rfl⟩ ⟨data, rfl⟩

theorem entryCall_ok (entry : Record) :
    (∃ call, python.entryCall entry = .ok call) ↔
      python.EntryReads entry := by
  rw [entryCall, EntryReads]
  cases isTool : isToolExec entry with
  | false => simp
  | true =>
      rw [← toolCall_ok python.rendering]
      cases python.formats (entry.get "ts_start") with
      | false => simp
      | true =>
          cases python.formats (entry.get "ts_end") with
          | false => simp
          | true =>
              cases toolCall python.rendering entry with
              | error failure => simp
              | ok call => simp

/-- A line does not stop the reading exactly when it reads. -/
theorem lineCall_ok (line : Text) :
    (∃ call, python.lineCall line = .ok call) ↔ python.LineReads line := by
  rw [lineCall, lineEntry]
  cases limit : python.exceedsLimit line with
  | true =>
      refine iff_of_false (fun ⟨_, stops⟩ => nomatch stops) fun reads => ?_
      rw [reads.limit] at limit
      cases limit
  | false =>
      rw [if_neg Bool.false_ne_true, parseRecord.eq_def]
      cases isJson : loads line with
      | none =>
          refine iff_of_true ⟨none, rfl⟩ ⟨limit, fun value isValue => ?_⟩
          rw [isJson] at isValue
          cases isValue
      | some value =>
          have reads_iff :
              python.LineReads line ↔
                ∃ entry, value = .obj entry ∧ python.EntryReads entry := by
            constructor
            · exact fun reads => reads.entry value isJson
            · refine fun reads => ⟨limit, fun other isOther => ?_⟩
              cases Option.some.inj (isJson.symm.trans isOther)
              exact reads
          rw [reads_iff]
          cases value with
          | obj fields =>
              simp only [Json.obj.injEq, exists_eq_left']
              exact entryCall_ok fields
          | _ =>
              exact
                iff_of_false (fun ⟨_, stops⟩ => nomatch stops)
                  (fun ⟨_, isObject, _⟩ => nomatch isObject)

/-- The tool calls can be read exactly when each line reads. -/
theorem toolCallsFromTrace_ok (raw : ByteArray) :
    (∃ calls, python.toolCallsFromTrace raw = .ok calls) ↔
      ∃ text, decodeUtf8 raw = some text ∧
        ∀ line ∈ traceLines text, python.LineReads line := by
  rw [toolCallsFromTrace]
  cases decodeUtf8 raw with
  | none => simp
  | some text =>
      simp only [Option.some.injEq, exists_eq_left', ← lineCall_ok,
        ← Loops.exists_mapM_eq_ok]
      cases (traceLines text).mapM python.lineCall with
      | error failure => simp [Except.map]
      | ok calls => simp [Except.map]

theorem traceReads_iff (raw : ByteArray) :
    python.TraceReads raw ↔
      (∃ calls, python.toolCallsFromTrace raw = .ok calls) ∧
        python.callsEncode raw = true := by
  rw [toolCallsFromTrace_ok, TraceReads, callsEncode]
  cases decodeUtf8 raw with
  | none => simp
  | some text =>
      simp only [Option.some.injEq, exists_eq_left', List.all_eq_true,
        Bool.not_eq_true', ← forall_and]

end PythonReading

/-- An attempt is marked as completed only if it has succeeded. -/
theorem successful_of_completed {ending : InnerEnd}
    (completed : ending.status = "completed".toList) : ending.Successful := by
  cases ending with
  | raised error =>
      change "error".toList = _ at completed
      exact absurd completed (by decide)
  | returned result =>
      rw [InnerEnd.status] at completed
      split at completed
      · exact absurd completed (by decide)
      · split at completed
        · exact absurd completed (by decide)
        · next noError =>
          rw [not_or, not_not] at noError
          exact ⟨noError.1, fun status isStatus isError =>
            noError.2 ⟨status, isStatus, isError⟩⟩

theorem manifest_status (ending : InnerEnd) :
    ending.manifest.status = ending.status := by
  cases ending <;> rfl

/-- The tool calls are there, to be written, exactly when the trace reads. -/
theorem endToolCalls_ok {python : PythonReading} (ending : InnerEnd)
    (trace : Option ByteArray) :
    (∃ calls, ending.toolCalls python trace = .ok (calls, true)) ↔
      (ending.ownCalls = [] → ∀ raw ∈ trace, python.TraceReads raw) := by
  unfold InnerEnd.toolCalls
  cases own : ending.ownCalls with
  | cons call calls => exact iff_of_true ⟨_, rfl⟩ nofun
  | nil =>
      cases trace with
      | none => exact iff_of_true ⟨[], rfl⟩ fun _ => nofun
      | some raw =>
          simp only [Option.mem_some_iff, forall_eq', forall_const,
            python.traceReads_iff]
          cases python.toolCallsFromTrace raw with
          | error failure => simp [Except.map]
          | ok calls => simp [Except.map]

/-- Python, on lines that are short. -/
def plainReading : PythonReading where
  exceedsLimit _ := false
  keepsSurrogate _ := false
  fromTimestamp _ := some "1970-01-01T00:00:00Z"
  durationMs _ _ := .int 0
  str _ := []

end AgentSchedBench.Trace
