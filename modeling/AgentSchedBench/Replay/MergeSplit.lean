import AgentSchedBench.Library.Dict
import AgentSchedBench.Library.StableSort
import AgentSchedBench.Trace.Record
import Mathlib

/-!
# Merging and splitting worker traces

`_write_combined_worker_trace` reads the traces of all workers, sorts their
records by time, kind and position, and writes them behind one header.
`_split_trace_by_agent` gives each agent with an output directory its records.

The times of records are floats.  Only their order matters, and they are taken
from any linear order with a function that says what `float` makes of a value.
-/

namespace AgentSchedBench.Replay

open StableSort Trace

/-! ## Records -/

/-- A line of a trace file. -/
inductive TraceLine where
  | blank
  | invalid
  | value (json : Json)
deriving Repr

/-! ## Times -/

/-- What `float` makes of values, with the two defaults of the source. -/
structure FloatOf (Time : Type) where
  float : Json → Option Time
  zero : Time
  infinity : Time

namespace FloatOf

variable {Time : Type} (times : FloatOf Time)

/-- `_float_sort_value` -/
def floatSortValue (value : Option Json) (default : Time) : Time :=
  (value.bind times.float).getD default

/-- The first part of the sort key. -/
def sortTime (record : Record) : Time :=
  if record.hasType "action" then
    times.floatSortValue (fieldOf record "ts_start") times.infinity
  else if record.hasType "event" then
    times.floatSortValue (fieldOf record "ts") times.zero
  else times.floatSortValue (fieldOf record "ts") times.infinity

end FloatOf

/-- The second part of the sort key. -/
def sortRank (record : Record) : Nat :=
  if record.hasType "action" then 0
  else if record.hasType "event" then 1
  else if record.hasType "summary" then 2
  else 3

abbrev SortKey (Time : Type) := Time ×ₗ Nat ×ₗ Nat

/-- `_combined_trace_sort_key` -/
def combinedTraceSortKey {Time : Type} (times : FloatOf Time)
    (record : Record) (sequence : Nat) : SortKey Time :=
  toLex (times.sortTime record, toLex (sortRank record, sequence))

/-! ## Merging -/

/-- What a worker leaves for the parent, with its file if that exists. -/
structure WorkerResult where
  traceFile : Option (List TraceLine)
  taskOutputDirs : List (String × String)
deriving Repr

inductive TraceError where
  | missingWorkerTrace
  | invalidWorkerTrace
  | attributeError
  | unhashableAgent
deriving DecidableEq, Repr

section Merge

variable {Time : Type} (times : FloatOf Time)

/-- One line of a worker trace; `sequence` is the number of records. -/
def readWorkerLine (records : List (SortKey Time × Record))
    (line : TraceLine) :
    Except TraceError (List (SortKey Time × Record)) :=
  match line with
  | .blank => .ok records
  | .invalid => .error .invalidWorkerTrace
  | .value (.obj record) =>
      if Record.hasType record "trace_metadata" then .ok records
      else
        .ok
          (records ++
            [(combinedTraceSortKey times record records.length, record)])
  | .value _ => .error .attributeError

def readWorkerTrace (records : List (SortKey Time × Record))
    (result : WorkerResult) :
    Except TraceError (List (SortKey Time × Record)) :=
  match result.traceFile with
  | none => .error .missingWorkerTrace
  | some lines => lines.foldlM (readWorkerLine times) records

/-- `_write_combined_worker_trace`, behind the header it has logged. -/
def writeCombinedWorkerTrace [LinearOrder Time] (header : Record)
    (workerResults : List WorkerResult) :
    Except TraceError (List Record) := do
  let records ← workerResults.foldlM (readWorkerTrace times) []
  return header :: (sortBy Prod.fst records).map Prod.snd

end Merge

/-! ## Splitting -/

/-- What the header of a task trace takes from its session. -/
structure LoadedSession where
  sourceTrace : String
  sourceAgentId : String
  runInstanceId : String
  manifestIndex : Int
  scaffold : String
  executionEnvironment : String
  sourceModel : Json
  label : Option String
deriving Repr

namespace LoadedSession

variable (session : LoadedSession)

def labelValue : Json :=
  match session.label with
  | none => .null
  | some label => .str label

/-- The header of a task trace. -/
def taskMetadata (metadata : Record) : Record :=
  let entry : Record :=
    [("manifest_index", .int session.manifestIndex),
      ("source_trace", .str session.sourceTrace),
      ("source_agent_id", .str session.sourceAgentId),
      ("run_instance_id", .str session.runInstanceId),
      ("label", session.labelValue)]
  let updates : Record :=
    [("scaffold", .str session.scaffold),
      ("execution_environment", .str session.executionEnvironment),
      ("instance_id", .str session.runInstanceId),
      ("run_instance_id", .str session.runInstanceId),
      ("source_agent_id", .str session.sourceAgentId),
      ("task_id", .str session.sourceAgentId),
      ("manifest_index", .int session.manifestIndex),
      ("label", session.labelValue),
      ("source_trace", .str session.sourceTrace),
      ("source_trace_count", .int 1),
      ("source_traces", .arr [.str session.sourceTrace]),
      ("source_trace_entries", .arr [.obj entry]),
      ("source_agent_ids", .arr [.str session.sourceAgentId]),
      ("run_instance_ids", .arr [.str session.runInstanceId]),
      ("source_models", .arr [session.sourceModel]),
      ("source_model", session.sourceModel)]
  updates.foldl (fun record field => record.withField field.1 field.2)
    metadata

end LoadedSession

/-- A session and the directory it is written to. -/
structure TaskTarget where
  session : LoadedSession
  outDir : String
deriving Repr

/-- `_worker_task_output_dirs` -/
def workerTaskOutputDirs (workerResults : List WorkerResult) :
    Dict String String :=
  workerResults.foldl
    (fun dirs result =>
      result.taskOutputDirs.foldl
        (fun dirs entry => dirs.set entry.1 entry.2) dirs)
    Dict.empty

/-- The sessions of `_split_combined_worker_trace_by_agent`. -/
def taskTargets (sessions : List LoadedSession)
    (workerResults : List WorkerResult) : List TaskTarget :=
  sessions.filterMap fun session =>
    ((workerTaskOutputDirs workerResults).get session.runInstanceId).map
      fun outDir => ⟨session, outDir⟩

/-- `agent_dirs` and `sessions_by_agent`. -/
def targetsByAgent (targets : List TaskTarget) : Dict String TaskTarget :=
  targets.foldl
    (fun dict target => dict.set target.session.runInstanceId target)
    Dict.empty

structure SplitState where
  perAgent : Dict String (List Record)
  metadata : Option Record

/-- One record of the combined trace. -/
def splitRecord (state : SplitState) (record : Record) :
    Except TraceError SplitState :=
  if record.hasType "trace_metadata" then
    .ok { state with metadata := some record }
  else
    match fieldOf record "agent_id" with
    | some (.str agent) =>
        match state.perAgent.get agent with
        | some records =>
            .ok
              { state with
                perAgent := state.perAgent.set agent (records ++ [record]) }
        | none => .ok state
    | some (.arr _) => .error .unhashableAgent
    | some (.obj _) => .error .unhashableAgent
    | _ => .ok state

/-- A `trace.jsonl` of one task. -/
structure TaskTrace where
  outDir : String
  header : Option Record
  records : List Record
deriving Repr

/-- `_split_trace_by_agent`: the trace it writes for each agent. -/
def splitTraceByAgent (combined : List Record) (targets : List TaskTarget) :
    Except TraceError (List (String × TaskTrace)) := do
  let byAgent := targetsByAgent targets
  let start : SplitState :=
    { perAgent :=
        byAgent.items.foldl (fun dict entry => dict.set entry.1 [])
          Dict.empty
      metadata := none }
  let final ← combined.foldlM splitRecord start
  return final.perAgent.items.filterMap fun (agent, records) =>
    (byAgent.get agent).map fun target =>
      (agent,
        { outDir := target.outDir
          header := final.metadata.map target.session.taskMetadata
          records := records })

/-- `_split_combined_worker_trace_by_agent` -/
def splitCombinedWorkerTraceByAgent (combined : List Record)
    (sessions : List LoadedSession) (workerResults : List WorkerResult) :
    Except TraceError (List (String × TaskTrace)) :=
  splitTraceByAgent combined (taskTargets sessions workerResults)

/-! ## What is merged -/

/-- The record on a line, if the line has one and it is no header. -/
def TraceLine.record? : TraceLine → Option Record
  | .value (.obj record) =>
      if Record.hasType record "trace_metadata" then none else some record
  | _ => none

/-- The line has no value or an object, and the record an agent. -/
def TraceLine.Readable : TraceLine → Prop
  | .blank => True
  | .value (.obj record) =>
      Record.hasType record "trace_metadata" = false →
        ∃ agent, fieldOf record "agent_id" = some (.str agent)
  | _ => False

namespace WorkerResult

variable (result : WorkerResult)

/-- The records of the worker's file, without its header. -/
def records : List Record :=
  (result.traceFile.getD []).filterMap TraceLine.record?

/-- The records of one agent in the worker's file. -/
def agentRecords (agent : String) : List Record :=
  result.records.filter (Record.ofAgent agent)

/-- The worker has written a file of records that belong to agents. -/
def Readable : Prop :=
  ∃ lines, result.traceFile = some lines ∧ ∀ line ∈ lines, line.Readable

end WorkerResult

section Merge

variable {Time : Type} (times : FloatOf Time)

/-- The records with their sort keys, counted from a position. -/
def withKeys (start : Nat) (records : List Record) :
    List (SortKey Time × Record) :=
  (records.zipIdx start).map fun entry =>
    (combinedTraceSortKey times entry.1 entry.2, entry.1)

theorem withKeys_append (start : Nat) (front back : List Record) :
    withKeys times start (front ++ back) =
      withKeys times start front ++
        withKeys times (start + front.length) back := by
  simp [withKeys, List.zipIdx_append]

theorem length_withKeys (start : Nat) (records : List Record) :
    (withKeys times start records).length = records.length := by
  simp [withKeys]

theorem map_snd_withKeys (start : Nat) (records : List Record) :
    (withKeys times start records).map Prod.snd = records := by
  rw [withKeys, List.map_map]
  exact List.zipIdx_map_fst start records

theorem readWorkerLine_readable {line : TraceLine} (readable : line.Readable)
    (records : List Record) :
    readWorkerLine times (withKeys times 0 records) line =
      .ok (withKeys times 0 (records ++ line.record?.toList)) := by
  cases line with
  | blank => simp [readWorkerLine, TraceLine.record?]
  | invalid => exact readable.elim
  | value json =>
      cases json with
      | obj record =>
          rw [readWorkerLine, TraceLine.record?]
          split
          · simp
          · rw [length_withKeys, Option.toList_some, withKeys_append,
              Nat.zero_add]
            rfl
      | _ => exact readable.elim

theorem readWorkerTrace_readable {result : WorkerResult}
    (readable : result.Readable) (records : List Record) :
    readWorkerTrace times (withKeys times 0 records) result =
      .ok (withKeys times 0 (records ++ result.records)) := by
  obtain ⟨lines, written, readable⟩ := readable
  rw [readWorkerTrace, written, WorkerResult.records, written]
  simp only [Option.getD_some]
  clear written
  induction lines generalizing records with
  | nil => simp; rfl
  | cons line rest induction =>
      rw [List.foldlM_cons,
        readWorkerLine_readable times (readable line List.mem_cons_self)]
      show rest.foldlM (readWorkerLine times) _ = _
      rw [induction _ fun other member =>
        readable other (List.mem_cons_of_mem line member),
        List.append_assoc, List.filterMap_cons]
      cases line.record? <;> rfl

/-- The combined trace of workers that have all written their files. -/
theorem writeCombinedWorkerTrace_readable [LinearOrder Time]
    (header : Record) {workerResults : List WorkerResult}
    (readable : ∀ result ∈ workerResults, result.Readable) :
    writeCombinedWorkerTrace times header workerResults =
      .ok
        (header ::
          (sortBy Prod.fst
            (withKeys times 0
              (workerResults.flatMap WorkerResult.records))).map
            Prod.snd) := by
  have loop : ∀ records : List Record,
      workerResults.foldlM (readWorkerTrace times)
          (withKeys times 0 records) =
        .ok
          (withKeys times 0
            (records ++ workerResults.flatMap WorkerResult.records)) := by
    induction workerResults with
    | nil =>
        intro records
        rw [List.flatMap_nil, List.append_nil]
        rfl
    | cons result rest induction =>
        intro records
        rw [List.foldlM_cons,
          readWorkerTrace_readable times
            (readable result List.mem_cons_self)]
        show rest.foldlM (readWorkerTrace times) _ = _
        rw [induction fun other member =>
          readable other (List.mem_cons_of_mem result member),
          List.append_assoc, List.flatMap_cons]
  rw [writeCombinedWorkerTrace]
  have fromNothing := loop []
  rw [List.nil_append] at fromNothing
  rw [show ([] : List (SortKey Time × Record)) = withKeys times 0 [] from rfl,
    fromNothing]
  rfl

/-- The order of the records that the merge keeps. -/
def SortsBefore [LinearOrder Time] (left right : Record) : Prop :=
  toLex (times.sortTime left, sortRank left) ≤
    toLex (times.sortTime right, sortRank right)

theorem sortKey_le_iff [LinearOrder Time] (left right : Record)
    {first second : Nat} (inOrder : first < second) :
    combinedTraceSortKey times left first ≤
        combinedTraceSortKey times right second ↔
      SortsBefore times left right := by
  rw [combinedTraceSortKey, combinedTraceSortKey, SortsBefore,
    Prod.Lex.toLex_le_toLex, Prod.Lex.toLex_le_toLex,
    Prod.Lex.toLex_le_toLex]
  have ranks :
      (sortRank left < sortRank right ∨
          sortRank left = sortRank right ∧ first ≤ second) ↔
        sortRank left ≤ sortRank right := by
    omega
  simp only
  rw [ranks]

theorem mem_withKeys (start : Nat) (records : List Record)
    (entry : SortKey Time × Record) :
    entry ∈ withKeys times start records ↔
      ∃ index, records[index]? = some entry.2 ∧
        entry.1 = combinedTraceSortKey times entry.2 (start + index) := by
  constructor
  · intro member
    obtain ⟨⟨record, position⟩, inside, rfl⟩ := List.mem_map.mp member
    obtain ⟨low, here⟩ := List.mk_mem_zipIdx_iff_le_and_getElem?_sub.mp inside
    exact ⟨position - start, here, by rw [Nat.add_sub_cancel' low]⟩
  · rintro ⟨index, here, key⟩
    refine List.mem_map.mpr ⟨(entry.2, start + index), ?_, ?_⟩
    · rw [List.mk_mem_zipIdx_iff_le_and_getElem?_sub]
      exact ⟨Nat.le_add_right start index, by simpa using here⟩
    · rw [← key]

/-- With their positions the records of a kind are in the same order. -/
theorem pairwise_withKeys [LinearOrder Time] (kind : Record → Bool)
    (start : Nat) (records : List Record) :
    ((withKeys times start records).filter fun entry =>
        kind entry.2).Pairwise (fun left right => left.1 ≤ right.1) ↔
      (records.filter kind).Pairwise (SortsBefore times) := by
  induction records generalizing start with
  | nil => simp [withKeys]
  | cons record rest induction =>
      have first : withKeys times start (record :: rest) =
          (combinedTraceSortKey times record start, record) ::
            withKeys times (start + 1) rest := rfl
      rw [first, List.filter_cons, List.filter_cons]
      by_cases wanted : kind record = true
      · rw [if_pos wanted, if_pos wanted, List.pairwise_cons,
          List.pairwise_cons, induction (start + 1)]
        refine and_congr_left fun _ => ?_
        constructor
        · intro before other member
          obtain ⟨inRest, kept⟩ := List.mem_filter.mp member
          obtain ⟨index, here⟩ := List.mem_iff_getElem?.mp inRest
          have later : start < start + 1 + index := by omega
          refine (sortKey_le_iff times record other later).mp ?_
          refine before (_, other) (List.mem_filter.mpr ⟨?_, kept⟩)
          exact (mem_withKeys times _ _ _).mpr ⟨index, here, rfl⟩
        · intro before entry member
          obtain ⟨inside, kept⟩ := List.mem_filter.mp member
          obtain ⟨index, here, key⟩ := (mem_withKeys times _ _ _).mp inside
          rw [key]
          refine (sortKey_le_iff times record entry.2 (by omega)).mpr ?_
          exact
            before entry.2
              (List.mem_filter.mpr ⟨List.mem_of_getElem? here, kept⟩)
      · rw [if_neg wanted, if_neg wanted]
        exact induction (start + 1)

end Merge

/-! ## What is split -/

/-- The record is no header and belongs to an agent. -/
def Owned (record : Record) : Prop :=
  record.hasType "trace_metadata" = false ∧
    ∃ agent, fieldOf record "agent_id" = some (.str agent)

theorem splitRecord_owned {record : Record} (owned : Owned record)
    (state : SplitState) :
    ∃ next, splitRecord state record = .ok next ∧
      next.metadata = state.metadata ∧
      ∀ agent, next.perAgent.get agent =
        (state.perAgent.get agent).map fun records =>
          records ++ [record].filter (Record.ofAgent agent) := by
  obtain ⟨noHeader, owner, named⟩ := owned
  have belongs : ∀ agent, Record.ofAgent agent record = (owner == agent) := by
    intro agent
    rw [Record.ofAgent, Record.fieldIs, named]
  simp only [splitRecord, noHeader, Bool.false_eq_true, if_false, named]
  cases known : state.perAgent.get owner with
  | none =>
      refine ⟨state, rfl, rfl, ?_⟩
      intro agent
      by_cases same : owner = agent
      · subst agent
        rw [known]
        rfl
      · simp [belongs, same]
  | some records =>
      refine ⟨_, rfl, rfl, ?_⟩
      intro agent
      by_cases same : agent = owner
      · subst agent
        simp [known, belongs]
      · have other : owner ≠ agent := fun equal => same equal.symm
        simp [same, belongs, other]

theorem foldlM_splitRecord {records : List Record}
    (owned : ∀ record ∈ records, Owned record) (state : SplitState) :
    ∃ final, records.foldlM splitRecord state = .ok final ∧
      final.metadata = state.metadata ∧
      ∀ agent, final.perAgent.get agent =
        (state.perAgent.get agent).map fun before =>
          before ++ records.filter (Record.ofAgent agent) := by
  induction records generalizing state with
  | nil => exact ⟨state, rfl, rfl, by simp⟩
  | cons record rest induction =>
      obtain ⟨next, stepped, nextHeader, nextAgents⟩ :=
        splitRecord_owned (owned record List.mem_cons_self) state
      obtain ⟨final, folded, finalHeader, finalAgents⟩ :=
        induction
          (fun other member => owned other (List.mem_cons_of_mem record member))
          next
      refine ⟨final, ?_, finalHeader.trans nextHeader, ?_⟩
      · rw [List.foldlM_cons, stepped]
        exact folded
      · intro agent
        rw [finalAgents, nextAgents, Option.map_map]
        congr 1
        funext before
        rw [Function.comp, List.append_assoc, ← List.filter_append]
        rfl

/-- Every agent with a target starts without records. -/
theorem get_emptyLists (entries : List (String × TaskTarget))
    (start : Dict String (List Record)) (agent : String) :
    (entries.foldl (fun dict entry => dict.set entry.1 []) start).get agent =
      if agent ∈ entries.map Prod.fst then some [] else start.get agent := by
  induction entries generalizing start with
  | nil => rfl
  | cons entry rest induction =>
      rw [List.foldl_cons, induction, List.map_cons, Dict.get_set]
      by_cases inRest : agent ∈ rest.map Prod.fst
      · simp [inRest]
      · by_cases here : agent = entry.1 <;> simp [inRest, here]

/-- The trace that is written for each agent. -/
theorem splitTraceByAgent_owned {header : Record} {records : List Record}
    (isHeader : header.hasType "trace_metadata" = true)
    (owned : ∀ record ∈ records, Owned record) (targets : List TaskTarget) :
    ∃ written, splitTraceByAgent (header :: records) targets = .ok written ∧
      ∀ agent trace, (agent, trace) ∈ written ↔
        ∃ target, (targetsByAgent targets).get agent = some target ∧
          trace =
            { outDir := target.outDir
              header := some (target.session.taskMetadata header)
              records := records.filter (Record.ofAgent agent) } := by
  obtain ⟨final, folded, finalHeader, finalAgents⟩ :=
    foldlM_splitRecord owned
      { perAgent :=
          (targetsByAgent targets).items.foldl
            (fun dict entry => dict.set entry.1 []) Dict.empty
        metadata := some header }
  have started : ∀ agent, final.perAgent.get agent =
      ((targetsByAgent targets).get agent).map fun _ =>
        records.filter (Record.ofAgent agent) := by
    intro agent
    rw [finalAgents agent, get_emptyLists]
    simp only [Dict.mem_map_items]
    cases (targetsByAgent targets).get agent <;> rfl
  have split : splitTraceByAgent (header :: records) targets =
      .ok
        (final.perAgent.items.filterMap fun (agent, records) =>
          ((targetsByAgent targets).get agent).map fun target =>
            (agent,
              { outDir := target.outDir
                header := final.metadata.map target.session.taskMetadata
                records := records })) := by
    rw [splitTraceByAgent]
    simp only [List.foldlM_cons, splitRecord, isHeader, if_true]
    show (List.foldlM splitRecord _ records >>= _) = _
    rw [folded]
    rfl
  refine ⟨_, split, ?_⟩
  intro agent trace
  rw [List.mem_filterMap]
  constructor
  · rintro ⟨⟨owner, lines⟩, member, made⟩
    rw [Dict.mem_items, started] at member
    obtain ⟨target, found, rfl⟩ := Option.map_eq_some_iff.mp member
    simp only [found, Option.map_some, Option.some.injEq,
      Prod.mk.injEq, finalHeader] at made
    obtain ⟨rfl, rfl⟩ := made
    exact ⟨target, found, rfl⟩
  · rintro ⟨target, found, rfl⟩
    refine ⟨(agent, records.filter (Record.ofAgent agent)), ?_, ?_⟩
    · rw [Dict.mem_items, started, found]
      rfl
    · simp only [found, Option.map_some, finalHeader]

/-! ## Merging and then splitting -/

section Merge

variable {Time : Type} [LinearOrder Time] (times : FloatOf Time)

theorem sortsBefore_of_key_le (left right : Record) {first second : Nat}
    (before :
      combinedTraceSortKey times left first ≤
        combinedTraceSortKey times right second) :
    SortsBefore times left right := by
  rw [combinedTraceSortKey, combinedTraceSortKey, Prod.Lex.toLex_le_toLex,
    Prod.Lex.toLex_le_toLex] at before
  rw [SortsBefore, Prod.Lex.toLex_le_toLex]
  rcases before with earlier | ⟨same, lower | ⟨rank, _⟩⟩
  · exact .inl earlier
  · exact .inr ⟨same, lower.le⟩
  · exact .inr ⟨same, rank.le⟩

/-- The merged records, behind the header. -/
def mergedRecords (records : List Record) : List Record :=
  (sortBy Prod.fst (withKeys times 0 records)).map Prod.snd

theorem mergedRecords_perm (records : List Record) :
    (mergedRecords times records).Perm records := by
  have same := (sortBy_perm Prod.fst (withKeys times 0 records)).map Prod.snd
  rwa [map_snd_withKeys] at same

theorem mergedRecords_sorted (records : List Record) :
    (mergedRecords times records).Pairwise (SortsBefore times) := by
  rw [mergedRecords, List.pairwise_map]
  refine
    (sortBy_sorted Prod.fst (withKeys times 0 records)).imp_of_mem ?_
  intro left right leftInside rightInside before
  have same := sortBy_perm Prod.fst (withKeys times 0 records)
  obtain ⟨_, _, leftKey⟩ :=
    (mem_withKeys times 0 records left).mp (same.mem_iff.mp leftInside)
  obtain ⟨_, _, rightKey⟩ :=
    (mem_withKeys times 0 records right).mp (same.mem_iff.mp rightInside)
  rw [leftKey, rightKey] at before
  exact sortsBefore_of_key_le times left.2 right.2 before

/-- The merge keeps the order of records that were in its order. -/
theorem filter_mergedRecords_iff (kind : Record → Bool)
    (records : List Record) :
    (mergedRecords times records).filter kind = records.filter kind ↔
      (records.filter kind).Pairwise (SortsBefore times) := by
  constructor
  · intro same
    rw [← same]
    exact (mergedRecords_sorted times records).filter kind
  · intro sorted
    have kept :=
      (filter_sortBy_iff Prod.fst (fun entry => kind entry.2)
        (withKeys times 0 records)).mpr
        ((pairwise_withKeys times kind 0 records).mpr sorted)
    have mapped := congrArg (List.map Prod.snd) kept
    have asFilter : ∀ entries : List (SortKey Time × Record),
        (entries.filter fun entry => kind entry.2).map Prod.snd =
          (entries.map Prod.snd).filter kind := by
      intro entries
      rw [List.filter_map]
      rfl
    rw [asFilter, asFilter, map_snd_withKeys] at mapped
    exact mapped

/-- The records of an agent that only one worker has. -/
theorem flatMap_records_filter {front back : List WorkerResult}
    {source : WorkerResult} {agent : String}
    (oneFile : ∀ other ∈ front ++ back, other.agentRecords agent = []) :
    ((front ++ source :: back).flatMap WorkerResult.records).filter
        (Record.ofAgent agent) =
      source.agentRecords agent := by
  have none : ∀ results : List WorkerResult,
      (∀ other ∈ results, other.agentRecords agent = []) →
        (results.flatMap WorkerResult.records).filter
          (Record.ofAgent agent) = [] := by
    intro results absent
    rw [List.filter_flatMap, List.flatMap_eq_nil_iff]
    exact absent
  rw [List.flatMap_append, List.flatMap_cons, List.filter_append,
    List.filter_append,
    none front fun other member =>
      oneFile other (List.mem_append_left back member),
    none back fun other member =>
      oneFile other (List.mem_append_right front member),
    List.nil_append, List.append_nil]
  rfl

theorem records_owned {result : WorkerResult} (readable : result.Readable) :
    ∀ record ∈ result.records, Owned record := by
  obtain ⟨lines, written, readable⟩ := readable
  intro record member
  rw [WorkerResult.records, written, Option.getD_some] at member
  obtain ⟨line, inside, found⟩ := List.mem_filterMap.mp member
  have fine := readable line inside
  cases line with
  | value json =>
      cases json with
      | obj fields =>
          rw [TraceLine.record?] at found
          split at found
          · cases found
          · rename_i noHeader
            cases found
            rw [Bool.not_eq_true] at noHeader
            exact ⟨noHeader, fine noHeader⟩
      | _ => cases found
  | _ => cases found

end Merge

/-- Times that are integers, or infinite. -/
def integerTimes : FloatOf (WithTop Int) where
  float
    | .int value => some value
    | _ => none
  zero := (0 : Int)
  infinity := ⊤

/-- An action of the agent that starts at a time. -/
def actionAt (time : Int) : Record :=
  [("type", .str "action"), ("agent_id", .str "agent"),
    ("ts_start", .int time)]

def eventAt (time : Int) : Record :=
  [("type", .str "event"), ("agent_id", .str "agent"), ("ts", .int time)]

def agentSummary : Record :=
  [("type", .str "summary"), ("agent_id", .str "agent")]

def combinedHeader : Record :=
  [("type", .str "trace_metadata")]

def agentSession : LoadedSession where
  sourceTrace := "trace.jsonl"
  sourceAgentId := "source"
  runInstanceId := "agent"
  manifestIndex := 0
  scaffold := "openclaw"
  executionEnvironment := "container"
  sourceModel := .str "unknown"
  label := none

def workerWith (records : List Record) : WorkerResult where
  traceFile := some (records.map fun record => .value (.obj record))
  taskOutputDirs := [("agent", "attempt_1")]

end AgentSchedBench.Replay
