import Mathlib.Data.Prod.Lex
import Mathlib.Data.Rat.Defs
import Mathlib.Data.String.Basic
import AgentSchedBench.Agent.SessionFiles
import AgentSchedBench.Library.StableSort

/-!
# The session of a trace

A session is read from a trace as the actions of its primary agent and of the
agents below it.  Agents are told apart by their ids as texts, but the actions
of the primary agent are selected by their ids as they are.
-/

namespace AgentSchedBench.Replay

open JsonText StableSort TextLines Trace

/-! ## Reading -/

/-- What Python makes of the values of a record; a conversion that raises gives
none. -/
structure ActionReading (F : Type) where
  str : Json → String
  float : Json → Option F
  zero : F
  int : Json → Option Int

variable {F : Type} (reading : ActionReading F)

/-- `str(record.get("agent_id"))` -/
def agentText (record : Record) : String :=
  match record.get "agent_id" with
  | .str text => text
  | value => reading.str value

/-- An action that names an agent. -/
def isAction (record : Record) : Bool :=
  record.hasType "action" && isTruthy (record.get "agent_id")

/-- The records of a trace file. -/
def traceRecords (text : Text) : Except ReadError (List Record) :=
  strictRecords (((fileLines text).map strip).filter fun line => !line.isEmpty)

/-! ## Selection -/

/-- The agent before the first slash. -/
def rootAgent (agent : String) : String :=
  String.ofList (agent.toList.takeWhile (· ≠ '/'))

/-- `metadata_agent_id` -/
def metadataAgentId (records : List Record) : Option String :=
  match (records.filter fun record => record.hasType "trace_metadata").getLast? with
  | some metadata =>
      match metadata.get "instance_id" with
      | .str agent => some agent
      | _ => none
  | none => none

/-- `primary_agent_id` -/
def primaryAgent (records : List Record) : Option String :=
  let agents := (records.filter isAction).map (agentText reading)
  match agents with
  | [] => none
  | first :: _ =>
      let ofFirst :=
        if '/' ∈ first.toList ∧ rootAgent first ∈ agents then rootAgent first
        else first
      match metadataAgentId records with
      | some agent => some (if agent ∈ agents then agent else ofFirst)
      | none => some ofFirst

/-- The agent is below the other one. -/
def isBelow (agent primary : String) : Bool :=
  (primary ++ "/").toList.isPrefixOf agent.toList

/-- The actions of the primary agent and of those below it. -/
def sessionActions (primary : String) (records : List Record) : List Record :=
  (records.filter isAction).filter fun action =>
    action.ofAgent primary || isBelow (agentText reading action) primary

/-- A number of an action, which may be left out. -/
def actionFloat (action : Record) (name : String) : Option F :=
  match fieldOf action name with
  | some value => reading.float value
  | none => some reading.zero

def actionInt (action : Record) (name : String) : Option Int :=
  match fieldOf action name with
  | some value => reading.int value
  | none => some 0

/-- `str(action.get("action_id", ""))` -/
def actionIdText (action : Record) : String :=
  match fieldOf action "action_id" with
  | some (.str text) => text
  | some value => reading.str value
  | none => ""

/-- The key of the sort. -/
def actionKey (action : Record) : Option (F ×ₗ F ×ₗ Int ×ₗ String) := do
  let start ← actionFloat reading action "ts_start"
  let stop ← actionFloat reading action "ts_end"
  let iteration ← actionInt reading action "iteration"
  return toLex (start, toLex (stop, toLex (iteration, actionIdText reading action)))

/-- What is read from a trace. -/
structure TraceSession where
  primaryAgentId : String
  metadata : Option Record
  actions : List Record
  summary : Option Record

inductive SessionError where
  | read (error : ReadError)
  | noAction
  | noPrimary
  | sortKey

/-- `actions.sort(key=..)`; each key is made before the sort. -/
def sortActions [LinearOrder F] (actions : List Record) : Option (List Record) :=
  (actions.mapM fun action =>
    (actionKey reading action).map fun key => (key, action)).map fun keyed =>
      (sortBy Prod.fst keyed).map Prod.snd

/-- The session of the records. -/
def recordsSession [LinearOrder F] (records : List Record) : Except SessionError TraceSession :=
  match primaryAgent reading records with
  | none => .error .noAction
  | some primary =>
      if primary ∉ (records.filter isAction).map (agentText reading) then
        .error .noPrimary
      else
        match sortActions reading (sessionActions reading primary records) with
        | none => .error .sortKey
        | some actions =>
            .ok {
              primaryAgentId := primary
              metadata :=
                (records.filter fun record =>
                  record.hasType "trace_metadata").getLast?
              actions
              summary :=
                (records.filter fun record =>
                  record.hasType "summary" && isTruthy (record.get "agent_id") &&
                    agentText reading record == primary).getLast? }

/-- `_parse_trace_session_file` -/
def parseTraceSessionFile [LinearOrder F] (text : Text) : Except SessionError TraceSession :=
  match traceRecords text with
  | .error error => .error (.read error)
  | .ok records => recordsSession reading records

/-! ## What is selected -/

/-- An action of a model call or of a tool. -/
def isCallOrTool (record : Record) : Bool :=
  record.fieldIs "action_type" "llm_call" ||
    record.fieldIs "action_type" "tool_exec"

/-- The record is an action of the agent, or of one below it. -/
def belongsTo (primary : String) (record : Record) : Bool :=
  isAction record && isCallOrTool record &&
    (agentText reading record == primary ||
      isBelow (agentText reading record) primary)

/-- The session has the actions of its agents, each once, by their start. -/
structure TraceSession.Selects [LinearOrder F] (session : TraceSession)
    (records : List Record) : Prop where
  primary : primaryAgent reading records = some session.primaryAgentId
  selected : session.actions.Perm
    (records.filter (belongsTo reading session.primaryAgentId))
  sorted : session.actions.Pairwise fun earlier later =>
    ∃ start ∈ actionFloat reading earlier "ts_start",
      ∃ next ∈ actionFloat reading later "ts_start", start ≤ next

variable {reading}

theorem ofAgent_iff {record : Record} {agent : String} :
    record.ofAgent agent = true ↔ record.get "agent_id" = .str agent := by
  rw [Record.ofAgent, Record.fieldIs, Record.get]
  cases fieldOf record "agent_id" with
  | none => simp
  | some value => cases value <;> simp

/-- An id that is a text is the agent's as it is. -/
theorem agentText_eq_iff {record : Record} {agent text : String}
    (isText : record.get "agent_id" = .str text) :
    agentText reading record = agent ↔ record.ofAgent agent = true := by
  rw [ofAgent_iff, agentText, isText, Json.str.injEq]

/-- The keys are those of the actions. -/
theorem mapM_actionKey {actions : List Record}
    {keyed : List ((F ×ₗ F ×ₗ Int ×ₗ String) × Record)}
    (isKeyed : (actions.mapM fun action =>
      (actionKey reading action).map fun key => (key, action)) = some keyed) :
    keyed.map Prod.snd = actions ∧
      ∀ pair ∈ keyed, actionKey reading pair.2 = some pair.1 := by
  induction actions generalizing keyed with
  | nil =>
      cases isKeyed
      exact ⟨rfl, nofun⟩
  | cons action actions induction =>
      rw [List.mapM_cons] at isKeyed
      simp only [Option.bind_eq_bind, Option.bind_eq_some_iff, Option.map_eq_some_iff,
        Option.pure_def, Option.some_inj] at isKeyed
      obtain ⟨_, ⟨key, isKey, rfl⟩, rest, isRest, rfl⟩ := isKeyed
      obtain ⟨same, keys⟩ := induction isRest
      exact ⟨by rw [List.map_cons, same],
        List.forall_mem_cons.mpr ⟨isKey, keys⟩⟩

/-- The first part of a key is the start of the action. -/
theorem start_of_actionKey {action : Record} {key : F ×ₗ F ×ₗ Int ×ₗ String}
    (isKey : actionKey reading action = some key) :
    actionFloat reading action "ts_start" = some (ofLex key).1 := by
  simp only [actionKey, Option.bind_eq_bind, Option.bind_eq_some_iff,
    Option.pure_def, Option.some_inj] at isKey
  obtain ⟨start, isStart, _, _, _, _, rfl⟩ := isKey
  exact isStart

/-- The actions are sorted by their start. -/
theorem sortActions_spec [LinearOrder F] {actions sorted : List Record}
    (isSorted : sortActions reading actions = some sorted) :
    sorted.Perm actions ∧ sorted.Pairwise fun earlier later =>
      ∃ start ∈ actionFloat reading earlier "ts_start",
        ∃ next ∈ actionFloat reading later "ts_start", start ≤ next := by
  obtain ⟨keyed, isKeyed, rfl⟩ := Option.map_eq_some_iff.mp isSorted
  obtain ⟨same, keys⟩ := mapM_actionKey isKeyed
  have perm := sortBy_perm Prod.fst keyed
  refine ⟨same ▸ perm.map Prod.snd, ?_⟩
  rw [List.pairwise_map]
  refine (sortBy_sorted Prod.fst keyed).imp_of_mem ?_
  intro earlier later isEarlier isLater le
  refine ⟨_, start_of_actionKey (keys earlier (perm.subset isEarlier)), _,
    start_of_actionKey (keys later (perm.subset isLater)), ?_⟩
  exact Prod.Lex.monotone_fst _ _ le

/-- What is parsed is made of the records. -/
theorem recordsSession_spec [LinearOrder F] {records : List Record} {session : TraceSession}
    (isParsed : recordsSession reading records = .ok session) :
    primaryAgent reading records = some session.primaryAgentId ∧
      sortActions reading (sessionActions reading session.primaryAgentId records) =
        some session.actions := by
  rw [recordsSession] at isParsed
  split at isParsed
  · cases isParsed
  · next isPrimary =>
      split at isParsed
      · cases isParsed
      · split at isParsed
        · cases isParsed
        · next isSorted =>
            cases isParsed
            exact ⟨isPrimary, isSorted⟩

/-- No agent is below itself. -/
theorem isBelow_self (agent : String) : isBelow agent agent = false := by
  rw [Bool.eq_false_iff]
  intro isPrefix
  have le := (List.isPrefixOf_iff_prefix.mp isPrefix).length_le
  rw [String.toList_append, List.length_append] at le
  have slash : "/".toList.length = 1 := rfl
  omega

/-- What is selected from the records. -/
theorem mem_sessionActions {records : List Record} {primary : String}
    {action : Record} :
    action ∈ sessionActions reading primary records ↔
      (action ∈ records ∧ isAction action = true) ∧
        (action.ofAgent primary = true ∨
          isBelow (agentText reading action) primary = true) := by
  rw [sessionActions, List.mem_filter, List.mem_filter, Bool.or_eq_true]

/-- Where the ids of the primary agent are texts, all of its actions are
selected. -/
theorem sessionActions_eq {records : List Record} {primary : String}
    (valid : ∀ record ∈ records, isAction record = true →
      isCallOrTool record = true)
    (texts : ∀ action ∈ records, isAction action = true →
      agentText reading action = primary →
        ∃ agent, action.get "agent_id" = .str agent) :
    sessionActions reading primary records =
      records.filter (belongsTo reading primary) := by
  rw [sessionActions, List.filter_filter]
  refine List.filter_congr fun record isRecord => ?_
  rw [belongsTo]
  cases isAct : isAction record with
  | false => rw [Bool.and_false, Bool.false_and, Bool.false_and]
  | true =>
      rw [valid record isRecord isAct, Bool.and_true, Bool.true_and, Bool.true_and]
      congr 1
      rw [Bool.eq_iff_iff, beq_iff_eq]
      constructor
      · intro isOf
        rw [agentText, ofAgent_iff.mp isOf]
      · intro isPrimary
        obtain ⟨_, isText⟩ := texts record isRecord isAct isPrimary
        exact (agentText_eq_iff isText).mp isPrimary

/-- The records of a file are read as they were written. -/
theorem traceRecords_traceText {records : List Record}
    (wellFormed : ∀ record ∈ records, WellFormed (.obj record)) :
    traceRecords (traceText records) = .ok records := by
  rw [traceRecords, Agent.fileLines_traceText wellFormed, List.map_map,
    List.filter_eq_self.mpr, ← strictRecords_dumps wellFormed]
  · exact congrArg strictRecords (List.map_congr_left fun record _ => strip_dumps record)
  · intro line isLine
    obtain ⟨record, _, rfl⟩ := List.mem_map.mp isLine
    rw [Function.comp_apply, strip_dumps, dumps_obj]
    rfl

/-- Integers as Python reads them. -/
def integerReading : ActionReading ℚ where
  str
    | .int value => toString value
    | _ => ""
  float
    | .int value => some value
    | _ => none
  zero := 0
  int
    | .int value => some value
    | _ => none

/-- An action of an agent. -/
def agentAction (agent : Json) (start : Int) : Record :=
  [("type", .str "action"), ("action_type", .str "llm_call"), ("agent_id", agent),
    ("ts_start", .int start)]

theorem agentAction_wellFormed {agent : Json} (start : Int)
    (wellFormed : WellFormed agent) : WellFormed (.obj (agentAction agent start)) := by
  rw [agentAction, wellFormed_obj]
  exact ⟨by simp, by simp [WellFormed, wellFormed]⟩

/-- Two agents take part in the trace. -/
def twoAgents : List Record :=
  [agentAction (.str "a/b") 5, agentAction (.str "c") 2, agentAction (.str "a") 3]

theorem twoAgents_wellFormed : ∀ record ∈ twoAgents, WellFormed (.obj record) := by
  simp only [twoAgents, List.forall_mem_cons]
  exact ⟨agentAction_wellFormed 5 trivial, agentAction_wellFormed 2 trivial,
    agentAction_wellFormed 3 trivial, List.forall_mem_nil _⟩

/-- A parsed session has the actions of its agents if and only if no action of
its primary agent has an id that is no text. -/
theorem selects_iff [LinearOrder F] {text : Text} {records : List Record} {session : TraceSession}
    (isRead : traceRecords text = .ok records)
    (valid : ∀ record ∈ records, isAction record = true →
      isCallOrTool record = true)
    (isParsed : parseTraceSessionFile reading text = .ok session) :
    session.Selects reading records ↔
      ∀ primary ∈ primaryAgent reading records, ∀ action ∈ records,
        isAction action = true → agentText reading action = primary →
          ∃ agent, action.get "agent_id" = .str agent := by
  rw [parseTraceSessionFile, isRead] at isParsed
  obtain ⟨isPrimary, isSorted⟩ := recordsSession_spec isParsed
  obtain ⟨perm, sorted⟩ := sortActions_spec isSorted
  constructor
  · intro selects primary primaryMem action isRecord isAct ofPrimary
    obtain rfl := Option.some_inj.mp (isPrimary.symm.trans primaryMem)
    -- The action belongs to the session, so it is among those that were kept.
    have belongs : action ∈ records.filter
        (belongsTo reading session.primaryAgentId) := by
      rw [List.mem_filter, belongsTo, isAct, valid action isRecord isAct, ofPrimary,
        beq_self_eq_true]
      exact ⟨isRecord, rfl⟩
    have isKept := perm.subset (selects.selected.symm.subset belongs)
    rcases (mem_sessionActions.mp isKept).2 with isOf | below
    · exact ⟨_, ofAgent_iff.mp isOf⟩
    · rw [ofPrimary, isBelow_self] at below
      cases below
  · intro texts
    refine ⟨isPrimary, ?_, sorted⟩
    rw [← sessionActions_eq valid (texts _ isPrimary)]
    exact perm

/-- The agent below `a` belongs to its session, the agent `c` does not. -/
theorem twoAgents_selected :
    ({ primaryAgentId := "a"
       metadata := none
       actions := [agentAction (.str "a") 3, agentAction (.str "a/b") 5]
       summary := none } : TraceSession).Selects integerReading twoAgents := by
  have isParsed :
      parseTraceSessionFile integerReading (traceText twoAgents) = .ok
        { primaryAgentId := "a"
          metadata := none
          actions := [agentAction (.str "a") 3, agentAction (.str "a/b") 5]
          summary := none } := by
    rw [parseTraceSessionFile, traceRecords_traceText twoAgents_wellFormed]
    rfl
  refine (selects_iff (traceRecords_traceText twoAgents_wellFormed) ?_ isParsed).mpr ?_
  · decide
  · intro primary _ action isRecord _ _
    simp only [twoAgents, List.mem_cons, List.not_mem_nil, or_false] at isRecord
    rcases isRecord with rfl | rfl | rfl
    · exact ⟨_, rfl⟩
    · exact ⟨_, rfl⟩
    · exact ⟨_, rfl⟩

/-- The only action of a trace is dropped, since the id of its agent is a
number. -/
theorem numberedAgent_dropped :
    traceRecords (traceText [agentAction (.int 7) 3]) =
        .ok [agentAction (.int 7) 3] ∧
      ∃ session, parseTraceSessionFile integerReading
          (traceText [agentAction (.int 7) 3]) = .ok session ∧
        session.actions = [] ∧
        ¬ session.Selects integerReading [agentAction (.int 7) 3] := by
  have wellFormed :
      ∀ record ∈ [agentAction (.int 7) 3], WellFormed (.obj record) := by
    rw [List.forall_mem_singleton]
    exact agentAction_wellFormed 3 trivial
  refine ⟨traceRecords_traceText wellFormed,
    { primaryAgentId := "7", metadata := none, actions := [], summary := none },
    ?_, rfl, ?_⟩
  · rw [parseTraceSessionFile, traceRecords_traceText wellFormed]
    rfl
  · intro selects
    have none := selects.selected.length_eq
    revert none
    decide

end AgentSchedBench.Replay
