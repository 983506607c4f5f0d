import AgentSchedBench.Agent.Message
import AgentSchedBench.Library.JsonRoundTrip
import AgentSchedBench.Library.TextLines
import AgentSchedBench.Trace.Record

/-!
# Trace files

A trace file has one record on each line.  Three of its readers write the
file anew with settings in its header: the collector merges the metadata of
an attempt and stamps the configuration of a run, and terminal-bench adds its
own.  Two readers make a list of tool calls and the totals of a run.

A text is given by its characters.  Reading translates a carriage return to a
line feed, which ends a line like it.
-/

namespace AgentSchedBench.Trace

open JsonText TextLines
open Agent (isSpace)

abbrev Text := List Char

/-- What a reader of a trace file raises. -/
inductive ReadError where
  | decode
  | attribute
  | type
deriving DecidableEq, Repr

/-! ## Values -/

/--
`bool(value)`; a float is zero when all digits before its exponent are.
-/
def isTruthy : Json → Bool
  | .null => false
  | .bool value => value
  | .int value => value != 0
  | .float text =>
      (text.toList.takeWhile fun char => char != 'e' && char != 'E').any
        fun char => !(['-', '.', '0'].contains char)
  | .str text => text != ""
  | .arr items => !items.isEmpty
  | .obj fields => !fields.isEmpty

/-- `value or {}`, for a dictionary. -/
def dictOrEmpty (error : ReadError) : Json → Except ReadError Record
  | .obj fields => .ok fields
  | value => if isTruthy value then .error error else .ok []

/-- `isinstance(value, (int, float))` -/
def isNumber : Json → Bool
  | .bool _ | .int _ | .float _ => true
  | _ => false

/-! ## Lines -/

/-- The line of a record. -/
def recordLine (record : Record) : Text := dumps (.obj record) ++ ['\n']

/-- The file that a hook writes. -/
def traceText (records : List Record) : Text := records.flatMap recordLine

/-- `not line.strip()` -/
def isBlankLine (line : Text) : Bool := line.all isSpace

/-- `line.strip()` -/
def strip (line : Text) : Text :=
  ((line.dropWhile isSpace).reverse.dropWhile isSpace).reverse

/-- A text that grows at its end, and its blanks, are stripped to a text that
grows. -/
theorem strip_prefix {text grown : Text} (grows : text <+: grown) :
    strip text <+: strip grown := by
  obtain ⟨more, rfl⟩ := grows
  have isFront :
      ((text.dropWhile isSpace).reverse.dropWhile isSpace).reverse <+:
        text.dropWhile isSpace := by
    rw [← List.reverse_suffix, List.reverse_reverse]
    exact List.dropWhile_suffix _
  rw [strip, strip, List.dropWhile_append]
  split
  · next onlyBlanks =>
      rw [List.isEmpty_iff.mp onlyBlanks]
      exact List.nil_prefix
  · rw [List.reverse_append, List.dropWhile_append]
    split
    · exact List.prefix_rfl
    · rw [List.reverse_append, List.reverse_reverse]
      exact isFront.trans (List.prefix_append _ _)

/-- A text without blanks around it is not changed. -/
theorem strip_eq_self {text : Text}
    (front : ∀ char ∈ text.head?, isSpace char = false)
    (back : ∀ char ∈ text.getLast?, isSpace char = false) :
    strip text = text := by
  have keeps {text : Text}
      (front : ∀ char ∈ text.head?, isSpace char = false) :
      text.dropWhile isSpace = text := by
    cases text with
    | nil => rfl
    | cons char rest =>
        rw [List.dropWhile_cons_of_neg]
        simp [front char rfl]
  rw [strip, keeps front, keeps, List.reverse_reverse]
  rwa [List.head?_reverse]

/-- The break behind the last line can be split off. -/
theorem intercalate_lines (line : Text) (lines : List Text) :
    ['\n'].intercalate (line :: lines) ++ ['\n'] =
      (line :: lines).flatMap (· ++ ['\n']) := by
  induction lines generalizing line with
  | nil => simp
  | cons next lines induction =>
      rw [List.intercalate_cons_cons, List.append_assoc, induction]
      rfl

/-- A blank behind a text is stripped. -/
theorem strip_concat {text : Text} {blank : Char}
    (isBlank : isSpace blank = true)
    (front : ∀ char ∈ text.head?, isSpace char = false)
    (back : ∀ char ∈ text.getLast?, isSpace char = false) :
    strip (text ++ [blank]) = text := by
  cases text with
  | nil =>
      rw [strip, List.nil_append, List.dropWhile_cons_of_pos isBlank]
      rfl
  | cons first rest =>
      have firstPlain : ¬ isSpace first = true := by simp [front first rfl]
      have same := strip_eq_self front back
      rw [strip, List.dropWhile_cons_of_neg firstPlain] at same
      rw [strip, List.cons_append, List.dropWhile_cons_of_neg firstPlain,
        ← List.cons_append, List.reverse_append, List.reverse_singleton,
        List.singleton_append, List.dropWhile_cons_of_pos isBlank]
      exact same

theorem intercalate_head {lines : List Text} {line : Text}
    (nonempty : line ≠ []) :
    (['\n'].intercalate (line :: lines)).head? = line.head? := by
  by_cases noRest : lines = []
  · rw [noRest, List.intercalate_singleton]
  · rw [List.intercalate_cons_of_ne_nil noRest, List.append_assoc,
      List.head?_append_of_ne_nil _ nonempty]

theorem intercalate_getLast {lines : List Text} {line : Text}
    (nonempty : line ≠ []) :
    (['\n'].intercalate (lines ++ [line])).getLast? = line.getLast? := by
  induction lines with
  | nil => rw [List.nil_append, List.intercalate_singleton]
  | cons first rest induction =>
      have notNil : rest ++ [line] ≠ [] :=
        List.append_ne_nil_of_right_ne_nil _ (List.cons_ne_nil _ _)
      rw [List.cons_append, List.intercalate_cons_of_ne_nil notNil,
        List.getLast?_append, induction,
        List.getLast?_eq_some_getLast nonempty, Option.some_or]

/-- Lines that are printed are stripped of the break behind the last one. -/
theorem strip_lines {lines : List Text} (nonempty : ∀ line ∈ lines, line ≠ [])
    (front : ∀ line ∈ lines, ∀ char ∈ line.head?, isSpace char = false)
    (back : ∀ line ∈ lines, ∀ char ∈ line.getLast?, isSpace char = false) :
    strip (lines.flatMap fun line => line ++ ['\n']) =
      ['\n'].intercalate lines := by
  cases lines with
  | nil => rfl
  | cons line rest =>
      have notNil : line :: rest ≠ [] := List.cons_ne_nil line rest
      have headPlain : ∀ char ∈ (['\n'].intercalate (line :: rest)).head?,
          isSpace char = false := by
        rw [intercalate_head (nonempty line List.mem_cons_self)]
        exact front line List.mem_cons_self
      have lastPlain : ∀ char ∈ (['\n'].intercalate (line :: rest)).getLast?,
          isSpace char = false := by
        have member := List.getLast_mem notNil
        rw [← List.dropLast_append_getLast notNil,
          intercalate_getLast (nonempty _ member)]
        exact back _ member
      rw [← intercalate_lines, strip_concat (by decide) headPlain lastPlain]

/-- `json.loads(line)`, which then is asked for a field. -/
def parseRecord (line : Text) : Except ReadError Record :=
  match loads line with
  | none => .error .decode
  | some (.obj fields) => .ok fields
  | some _ => .error .attribute

/-- The lines that are not blank. -/
def someLines (lines : List Text) : List Text :=
  lines.filter fun line => !isBlankLine line

/-- The records of the lines. -/
def strictRecords (lines : List Text) : Except ReadError (List Record) :=
  lines.mapM parseRecord

/-- The records of the lines; a line that is not JSON is skipped. -/
def lenientRecords : List Text → Except ReadError (List Record)
  | [] => .ok []
  | line :: lines =>
      match parseRecord line with
      | .ok record => (lenientRecords lines).map (record :: ·)
      | .error .decode => lenientRecords lines
      | .error error => .error error

/-- The metadata of a trace, if it is its first record, and what follows. -/
def splitHeader :
    List Text → Except ReadError (Option Record × List Text)
  | [] => .ok (none, [])
  | line :: lines =>
      if isBlankLine line then splitHeader lines
      else
        match parseRecord line with
        | .ok record =>
            if record.hasType "trace_metadata" then .ok (some record, lines)
            else .ok (none, line :: lines)
        | .error .decode => splitHeader lines
        | .error error => .error error

/-! ## Settings -/

/-- A setting that is made if it is given. -/
def optional (name : String) (value : Option String) : Record :=
  value.toList.map fun value => (name, .str value)

/-- `_set_run_config` -/
def setRunConfig (merged : Record) (field : String × Json) :
    Except ReadError Record := do
  let runConfig ← dictOrEmpty .type (merged.get "run_config")
  return merged.withField "run_config"
    (.obj (runConfig.withField field.1 field.2))

/-- What the collector knows of an attempt. -/
structure AttemptSettings where
  benchmark : String
  harnessSplit : Option String
  executionEnvironment : String
  model : String
  apiBase : String
  maxIterations : Int
  instanceId : String
  mcpConfigLabel : Option String
  promptTemplate : Option String
  agentRuntimeMode : Option String
  runtimeProof : Record
  runConfigOverrides : Record
  generationConfig : Record
  containerExecEnv : Option (List (String × String))
  wellFormed :
    WellFormed (.obj runtimeProof) ∧ WellFormed (.obj runConfigOverrides) ∧
      WellFormed (.obj generationConfig) ∧
      ∀ env ∈ containerExecEnv, (env.map Prod.fst).Nodup

namespace AttemptSettings

/-- What a header has before the metadata of the trace. -/
def base : Record :=
  [("scaffold", .str "openclaw"), ("mode", .str "collect"),
    ("scaffold_capabilities", .obj [("unknown", .bool true)])]

/-- What a header is given if it does not have it. -/
def defaults (settings : AttemptSettings) : Record :=
  [("benchmark", .str settings.benchmark)] ++
    optional "benchmark_split" settings.harnessSplit ++
    [("model", .str settings.model), ("api_base", .str settings.apiBase),
      ("max_iterations", .int settings.maxIterations),
      ("instance_id", .str settings.instanceId)]

/-- What a header is given. -/
def values (settings : AttemptSettings) : Record :=
  optional "prompt_template" settings.promptTemplate ++
    optional "agent_runtime_mode" settings.agentRuntimeMode ++
    (if settings.runtimeProof.isEmpty then []
      else [("runtime_proof", .obj settings.runtimeProof)]) ++
    [("type", .str "trace_metadata"), ("trace_format_version", .int 5),
      ("execution_environment", .str settings.executionEnvironment)]

/-- What the run configuration of a header is given. -/
def runConfig (settings : AttemptSettings) : Record :=
  optional "mcp_config" settings.mcpConfigLabel ++
    settings.runConfigOverrides ++
    (if settings.generationConfig.isEmpty then []
      else [("generation", .obj settings.generationConfig)]) ++
    settings.containerExecEnv.toList.map fun env =>
      ("container_exec_env",
        .obj (env.map fun setting => (setting.1, .str setting.2)))

/-- The metadata that `_normalize_openclaw_trace` writes. -/
def merged (settings : AttemptSettings) (source : Option Record) :
    Except ReadError Record :=
  let merged := base.update (source.getD [])
  let merged := settings.defaults.foldl
    (fun merged field => merged.setDefault field.1 field.2) merged
  settings.runConfig.foldlM setRunConfig (merged.update settings.values)

end AttemptSettings

/-- What terminal-bench knows of a run. -/
structure TerminalBenchSettings where
  benchmarkSlug : String
  model : String
  maxIterations : Int
  agentImportPath : String
  mcpConfigLabel : Option String
  globalAgentTimeoutSec : Option Json
  llmTimeoutSec : Option Json
  tbProcessCleanupGraceSec : Json
  generationConfig : Record
  task : Record
  promptTemplate : String
  tbVersion : String
  hasInstance : (fieldOf task "instance_id").isSome
  wellFormed :
    WellFormed (.obj task) ∧ WellFormed (.obj generationConfig) ∧
      WellFormed tbProcessCleanupGraceSec ∧
      (∀ timeout ∈ globalAgentTimeoutSec, WellFormed timeout) ∧
      ∀ timeout ∈ llmTimeoutSec, WellFormed timeout

namespace TerminalBenchSettings

/-- What a header is given. -/
def values (settings : TerminalBenchSettings) : Record :=
  [("type", .str "trace_metadata"), ("trace_format_version", .int 5),
    ("mode", .str "collect"), ("scaffold", .str "openclaw"),
    ("execution_environment", .str "container"),
    ("benchmark", .str settings.benchmarkSlug),
    ("model", .str settings.model),
    ("max_iterations", .int settings.maxIterations),
    ("instance_id", settings.task.get "instance_id"),
    ("agent_runtime_mode", .str "host_controller"),
    ("prompt_template", .str settings.promptTemplate),
    ("task_source_kind", settings.task.get "task_source_kind"),
    ("task_source_id", settings.task.get "task_source_id"),
    ("task_source_path", settings.task.get "task_source_path"),
    ("tb_version", .str settings.tbVersion),
    ("tb_dataset", settings.task.get "tb_dataset"),
    ("tb_registry_source", settings.task.get "tb_registry_source"),
    ("adapter_kind", .str "terminal_bench_openclaw"),
    ("agent_import_path", .str settings.agentImportPath)]

/-- What the run configuration of a header is given. -/
def runConfig (settings : TerminalBenchSettings) : Record :=
  optional "mcp_config" settings.mcpConfigLabel ++
    settings.globalAgentTimeoutSec.toList.map
      (fun timeout => ("global_agent_timeout_sec", timeout)) ++
    settings.llmTimeoutSec.toList.map
      (fun timeout => ("llm_timeout_sec", timeout)) ++
    [("tb_process_cleanup_grace_sec", settings.tbProcessCleanupGraceSec)] ++
    if settings.generationConfig.isEmpty then []
    else [("generation", .obj settings.generationConfig)]

/-- `_trace_metadata`; the run configuration that is made is not empty. -/
def traceMetadata (settings : TerminalBenchSettings)
    (source : Option Record) : Except ReadError Record := do
  let merged := (source.getD []).update settings.values
  let runConfig ← dictOrEmpty .type (merged.get "run_config")
  return merged.withField "run_config"
    (.obj (runConfig.update settings.runConfig))

end TerminalBenchSettings

/-! ## Readers -/

/-- `_normalize_openclaw_trace` -/
def normalizeOpenclawTrace (settings : AttemptSettings) (text : Text) :
    Except ReadError Text := do
  let (source, lines) ← splitHeader (splitLines text)
  let merged ← settings.merged source
  let records ← lenientRecords (someLines lines)
  return traceText
    (merged :: records.filter fun record =>
      !record.hasType "trace_metadata")

/-- `_augment_trace_metadata`; the lines after the header are copied. -/
def augmentTraceMetadata (settings : TerminalBenchSettings) (text : Text) :
    Except ReadError Text := do
  let (source, lines) ← splitHeader (splitLines text)
  let merged ← settings.traceMetadata source
  return recordLine merged ++ (someLines lines).flatMap (· ++ ['\n'])

/-- The lines with the values in the first header that is found. -/
def stampLines (values : Record) :
    Bool → List Text → Except ReadError (List Text)
  | _, [] => .ok []
  | replaced, line :: lines => do
      let record ← parseRecord line
      if !replaced && record.hasType "trace_metadata" then
        let runConfig ← dictOrEmpty .type (record.get "run_config")
        let rest ← stampLines values true lines
        return dumps (.obj (record.withField "run_config"
          (.obj (runConfig.update values)))) :: rest
      else
        let rest ← stampLines values replaced lines
        return dumps (.obj record) :: rest

/-- `_stamp_trace_run_config` -/
def stampTraceRunConfig (values : Record) (text : Text) :
    Except ReadError Text := do
  let lines ← stampLines values false (someLines (splitLines text))
  return ['\n'].intercalate lines ++ ['\n']

/-- An entry of `tool_calls.json`. -/
structure ToolCall where
  timestamp : Option String
  tool : Json
  id : Json
  input : Json
  endTimestamp : Option String
  durationMs : Option Json
  resultPreview : Text

/-- What Python makes of numbers and of values that are no texts. -/
structure Rendering where
  isoformat : Json → String
  durationMs : Json → Json → Json
  str : Json → Text

/-- `_format_epoch` -/
def formatEpoch (rendering : Rendering) (ts : Json) : Option String :=
  if isNumber ts then some (rendering.isoformat ts) else none

/-- The arguments of a tool call. -/
def parsedInput : Json → Json
  | .str text => (loads text.toList).getD (.obj [("raw", .str text)])
  | value => if isTruthy value then value else .obj []

/-- `str(value or "")` -/
def resultText (rendering : Rendering) : Json → Text
  | .str text => text.toList
  | value => if isTruthy value then rendering.str value else []

/-- Is the record the execution of a tool? -/
def isToolExec (record : Record) : Bool :=
  record.hasType "action" && record.fieldIs "action_type" "tool_exec"

/-- The tool call of an action. -/
def toolCall (rendering : Rendering) (entry : Record) :
    Except ReadError ToolCall := do
  let data ← dictOrEmpty .attribute (entry.get "data")
  let tsStart := entry.get "ts_start"
  let tsEnd := entry.get "ts_end"
  let result := resultText rendering (data.get "tool_result")
  return {
    timestamp := formatEpoch rendering tsStart
    tool := (fieldOf data "tool_name").getD (.str "")
    id := (fieldOf entry "action_id").getD (.str "")
    input := parsedInput (data.get "tool_args")
    endTimestamp := formatEpoch rendering tsEnd
    durationMs :=
      if isNumber tsStart && isNumber tsEnd then
        some (rendering.durationMs tsStart tsEnd)
      else none
    resultPreview :=
      if 500 < result.length then result.take 500 ++ "...".toList
      else result }

/-- The tool calls of the records. -/
def toolCalls (rendering : Rendering) (records : List Record) :
    Except ReadError (List ToolCall) :=
  (records.filter isToolExec).mapM (toolCall rendering)

/-- `build_tool_calls_from_trace` -/
def buildToolCallsFromTrace (rendering : Rendering) (text : Text) :
    Except ReadError (List ToolCall) := do
  let lines := (splitLines text).map strip
  let records ← lenientRecords (lines.filter fun line => !line.isEmpty)
  toolCalls rendering records

/-- The totals of a run. -/
structure SummaryTotals where
  totalLlmMs : Json
  totalToolMs : Json
  totalTokens : Json
deriving Repr

/-- The totals of the last summary. -/
def summaryTotals (records : List Record) : SummaryTotals :=
  records.foldl
    (fun totals record =>
      if record.hasType "summary" then
        { totalLlmMs := record.get "total_llm_ms"
          totalToolMs := record.get "total_tool_ms"
          totalTokens := record.get "total_tokens" }
      else totals)
    { totalLlmMs := .null, totalToolMs := .null, totalTokens := .null }

/-- `_trace_summary_totals` -/
def traceSummaryTotals (text : Text) : Except ReadError SummaryTotals := do
  let records ← strictRecords (someLines (splitLines text))
  return summaryTotals records

end AgentSchedBench.Trace
