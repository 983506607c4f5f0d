import AgentSchedBench.Agent.RunReply
import AgentSchedBench.Trace.Record

/-!
# The outcome of a run

The agent loop stores the outcome of a turn under the key of the session.
`SessionRunner.run` looks it up under the session key that it was given, takes
a missing outcome for a completed one, and corrects that when the trace has an
event of a failed model call.
-/

namespace AgentSchedBench.Agent

open Trace

/-! ## Outcomes -/

/-- The text of a stop reason. -/
def StopReason.text : StopReason → String
  | .completed => "completed"
  | .toolError => "tool_error"
  | .malformedToolCallBudgetExhausted =>
      "malformed_tool_call_budget_exhausted"
  | .error => "error"
  | .emptyFinalResponse => "empty_final_response"
  | .maxIterations => "max_iterations"

/-- An entry of `_last_run_outcomes`. -/
structure RunOutcome where
  stopReason : String
  error : Option String
deriving DecidableEq, Repr

/-- The fields `stop_reason` and `error` of an `AgentRunResult`. -/
def AgentRunResult.outcome (result : AgentRunResult) : RunOutcome where
  stopReason := result.stopReason.text
  error :=
    match result.stopReason with
    | .completed => none
    | .maxIterations => none
    | _ => some result.finalContent

/-- What `_dispatch` stores after an exception. -/
def raisedOutcome : RunOutcome where
  stopReason := "error"
  error := some "Sorry, I encountered an error."

/-- How the turn of the prompt ends: an exception may come before or after
the agent loop has returned. -/
inductive TurnEnd where
  | replied (result : AgentRunResult)
  | raised (result : Option AgentRunResult)

namespace TurnEnd

/-- The outcome that the agent had. -/
def outcome : TurnEnd → RunOutcome
  | .replied result => result.outcome
  | .raised _ => raisedOutcome

/-- `_last_run_outcomes` after the turn. -/
def lastRunOutcomes (message : DispatchedMessage) :
    TurnEnd → Dict String RunOutcome
  | .replied result => Dict.empty.set message.loadedKey result.outcome
  | .raised none => Dict.empty.set message.sessionKey raisedOutcome
  | .raised (some result) =>
      (Dict.empty.set message.loadedKey result.outcome).set
        message.sessionKey raisedOutcome

end TurnEnd

/-! ## What a run reports -/

/-- `_trace_has_llm_error`; there may be no trace file. -/
def traceHasLlmError (trace : Option (List Record)) : Bool :=
  (trace.getD []).any fun record =>
    record.hasType "event" && record.fieldIs "event" "llm_error"

/-- `_resolve_run_outcome` -/
def resolveRunOutcome (outcome : Option RunOutcome)
    (content : Option String) (trace : Option (List Record)) : RunOutcome :=
  let stopReason :=
    orDefault (outcome.map RunOutcome.stopReason) "completed"
  let error := outcome.bind RunOutcome.error
  if stopReason = "completed" ∧ error = none ∧
      traceHasLlmError trace = true then
    { stopReason := "error"
      error := some (orDefault content "LLM returned error.") }
  else if error = none ∧ stopReason ≠ "completed" ∧
      orDefault content "" ≠ "" then
    { stopReason := stopReason, error := content }
  else { stopReason := stopReason, error := error }

/--
What `SessionRunner.run` reports, if it returns: it does when a message comes
under the result key.
-/
def RunRequest.reports (request : RunRequest) (turnEnd : TurnEnd)
    (trace : Option (List Record)) : Option RunOutcome :=
  let final :=
    match turnEnd with
    | .replied result =>
        systemReply request.message (some result.finalContent)
    | .raised _ => errorReply request.message
  if final.key = request.resultKey then
    some
      (resolveRunOutcome
        ((turnEnd.lastRunOutcomes request.message).get request.sessionKey)
        (some final.content) trace)
  else none

/--
The result has the stop reason, and the error if there is one; a completed
run has no error.
-/
structure RunOutcome.CarriedBy (outcome result : RunOutcome) : Prop where
  stopReason : result.stopReason = outcome.stopReason
  error : ∀ text, outcome.error = some text → result.error = some text
  completed :
    outcome.stopReason = "completed" → result.error = outcome.error

/-- The run returns and reports the agent's outcome. -/
def RunRequest.ReportsOutcome (request : RunRequest) (turnEnd : TurnEnd)
    (trace : Option (List Record)) : Prop :=
  ∃ result, request.reports turnEnd trace = some result ∧
    turnEnd.outcome.CarriedBy result

/-! ## When the outcome is reported -/

namespace RunRequest

variable (request : RunRequest)

/-- The session of the prompt has the result key. -/
theorem message_loadedKey :
    request.message.loadedKey = request.resultKey :=
  promptReply_key request none

theorem errorReply_key_ne :
    (errorReply request.message).key ≠ request.resultKey := by
  intro same
  have lengths := congrArg String.length same
  simp [OutboundMessage.key, errorReply, message, resultKey] at lengths

theorem reports_raised (result : Option AgentRunResult)
    (trace : Option (List Record)) :
    request.reports (.raised result) trace = none := by
  rw [reports]
  exact if_neg request.errorReply_key_ne

theorem reports_replied (result : AgentRunResult)
    (trace : Option (List Record)) :
    request.reports (.replied result) trace =
      some
        (resolveRunOutcome
          (if request.sessionKey = request.resultKey then some result.outcome
            else none)
          (some (systemReply request.message
            (some result.finalContent)).content) trace) := by
  rw [reports, if_pos (promptReply_key request _), TurnEnd.lastRunOutcomes,
    request.message_loadedKey, Dict.get_set, Dict.get_empty]

end RunRequest

theorem RunOutcome.carriedBy_iff (outcome result : RunOutcome) :
    outcome.CarriedBy result ↔
      result.stopReason = outcome.stopReason ∧
        (∀ text, outcome.error = some text → result.error = some text) ∧
        (outcome.stopReason = "completed" → result.error = outcome.error) :=
  ⟨fun carried => ⟨carried.stopReason, carried.error, carried.completed⟩,
    fun ⟨stopReason, error, completed⟩ => ⟨stopReason, error, completed⟩⟩

/-- A stored outcome is carried, unless the trace denies its completion. -/
theorem carriedBy_resolve_stored (result : AgentRunResult)
    (content : Option String) (trace : Option (List Record)) :
    result.outcome.CarriedBy
        (resolveRunOutcome (some result.outcome) content trace) ↔
      (result.stopReason = .completed → traceHasLlmError trace = false) := by
  obtain ⟨entries, finalContent, stopReason, emitted⟩ := result
  rw [RunOutcome.carriedBy_iff, resolveRunOutcome]
  cases stopReason <;> cases traceHasLlmError trace <;>
    simp [AgentRunResult.outcome, StopReason.text, orDefault]
  all_goals
    split
    · simp
    · split <;> rfl

/-- A missing outcome is taken for a completed one. -/
theorem carriedBy_resolve_missing (result : AgentRunResult)
    (content : String) (trace : Option (List Record)) :
    result.outcome.CarriedBy
        (resolveRunOutcome none (some content) trace) ↔
      (result.stopReason = .completed ∧ traceHasLlmError trace = false) ∨
        (result.stopReason = .error ∧ traceHasLlmError trace = true ∧
          result.finalContent =
            orDefault (some content) "LLM returned error.") := by
  obtain ⟨entries, finalContent, stopReason, emitted⟩ := result
  rw [RunOutcome.carriedBy_iff, resolveRunOutcome]
  cases stopReason <;> cases traceHasLlmError trace <;>
    simp [AgentRunResult.outcome, StopReason.text, orDefault]
  exact eq_comm

/-- The content of the reply is the final content, unless that is empty. -/
theorem finalContent_reported (request : RunRequest) (finalContent : String) :
    finalContent =
        orDefault
          (some (systemReply request.message (some finalContent)).content)
          "LLM returned error." ↔
      finalContent ≠ "" := by
  by_cases empty : finalContent = ""
  · subst empty
    simp [systemReply, orDefault]
  · simp [systemReply, orDefault, empty]

/--
The outcome is reported if and only if the turn replies and, when the session
key is the result key, a completed run has no failed model call in its trace;
when it is another key, the run was completed without such a call or ended
with one.
-/
theorem reportsOutcome_iff (request : RunRequest) (turnEnd : TurnEnd)
    (trace : Option (List Record)) :
    request.ReportsOutcome turnEnd trace ↔
      ∃ result, turnEnd = .replied result ∧
        if request.sessionKey = request.resultKey then
          result.stopReason = .completed → traceHasLlmError trace = false
        else
          (result.stopReason = .completed ∧
              traceHasLlmError trace = false) ∨
            (result.stopReason = .error ∧ traceHasLlmError trace = true ∧
              result.finalContent ≠ "") := by
  cases turnEnd with
  | raised result =>
      constructor
      · rintro ⟨_, reported, _⟩
        rw [request.reports_raised] at reported
        cases reported
      · rintro ⟨_, other, _⟩
        cases other
  | replied result =>
      rw [RunRequest.ReportsOutcome, request.reports_replied]
      simp only [Option.some.injEq, exists_eq_left', TurnEnd.outcome,
        TurnEnd.replied.injEq]
      split
      · exact carriedBy_resolve_stored result _ trace
      · rw [carriedBy_resolve_missing, finalContent_reported]

/-- A benchmark run that has reached its iteration limit. -/
def limitReached : AgentRunResult where
  entries := []
  finalContent := "I reached the maximum number of tool call iterations."
  stopReason := .maxIterations
  emitted := []

/-- It is reported as completed. -/
theorem limit_reported_completed :
    fixBug.reports (.replied limitReached) (some []) =
        some { stopReason := "completed", error := none } ∧
      ¬ fixBug.ReportsOutcome (.replied limitReached) (some []) := by
  have reported : fixBug.reports (.replied limitReached) (some []) =
      some { stopReason := "completed", error := none } := by
    decide
  refine ⟨reported, ?_⟩
  rintro ⟨result, found, carried⟩
  rw [reported] at found
  cases found
  exact absurd carried.stopReason (by decide)

end AgentSchedBench.Agent
