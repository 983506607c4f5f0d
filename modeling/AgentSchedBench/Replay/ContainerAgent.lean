import AgentSchedBench.Library.Pipes
import AgentSchedBench.Trace.Files
import Mathlib.Logic.Relation

/-!
# The agent in the container

`ContainerAgent` sends a request as a line and takes the next line that looks
like an object for its response; neither has an id.  An agent that is too late
or gone is replaced by a new one.  What the old one has not read it may still
execute, but nobody reads what it answers.

A call can be cancelled wherever the source awaits.
-/

namespace AgentSchedBench.Replay

open JsonText Pipes
open Trace (Text strip)

/-! ## Calls -/

/-- A call of `execute`, with the tool of its request. -/
structure RequestCall where
  number : Nat
  tool : String
deriving DecidableEq, Repr

/-- `_IDEMPOTENT_TOOLS` -/
def idempotentTools : List String := ["read_file", "list_dir"]

def RequestCall.Idempotent (call : RequestCall) : Prop :=
  call.tool ∈ idempotentTools

instance (call : RequestCall) : Decidable call.Idempotent :=
  inferInstanceAs (Decidable (_ ∈ _))

abbrev AgentLine := Line RequestCall Text

abbrev AgentProcess := Server RequestCall Text

/-- What a call returns: a line of the agent, or a response of its own. -/
inductive Reply where
  | parsed (line : AgentLine) (response : Json)
  | failed (result : Text) (returncode : Option Int)
  | raised

/-- A request failed in the first `try` block, or the agent has ended. -/
inductive Failure where
  | timeout
  | endOfStream
deriving DecidableEq, Repr

/-- What a call that is not repeated returns after the restart. -/
def Failure.reply : Failure → Reply
  | timeout => .failed "[timeout]".toList (some 124)
  | endOfStream => .failed "Error: agent process crashed".toList none

/-- Where the call is. -/
inductive CallPhase where
  | idle
  -- the top of the loop over the attempts
  | top (call : RequestCall) (attempt : Nat)
  | restartingFirst (call : RequestCall)
  | restartingAfter (call : RequestCall) (attempt : Nat) (failure : Failure)
  -- the request has been written
  | waiting (call : RequestCall) (attempt : Nat)
  | skipping (call : RequestCall) (skipped : Nat)
deriving DecidableEq, Repr

/--
The state of a `ContainerAgent`.  Those `left` are the requests that agents
have not read before they were replaced; `executed` are all that an agent has
begun to execute.
-/
structure AgentState where
  calls : Nat
  phase : CallPhase
  process : Option AgentProcess
  left : List RequestCall
  executed : List RequestCall
  returned : List (RequestCall × Reply)

namespace AgentState

def start : AgentState where
  calls := 0
  phase := .idle
  process := none
  left := []
  executed := []
  returned := []

variable (state : AgentState)

/-- The requests that the process may still execute. -/
def unread : List RequestCall :=
  match state.process with
  | none => []
  | some process => process.unread

/-- `stop` first sets `_process` to `None`. -/
def stop (phase : CallPhase) : AgentState :=
  { state with
    phase := phase
    process := none
    left := state.left ++ state.unread }

/-- The call is over. -/
def finish (call : RequestCall) (reply : Reply) : AgentState :=
  { state with
    phase := .idle
    returned := state.returned ++ [(call, reply)] }

/-- The request is written to the process. -/
def write (process : AgentProcess) (call : RequestCall) (attempt : Nat) :
    AgentState :=
  { state with
    phase := .waiting call attempt
    process := some (process.send call) }

end AgentState

/-! ## Lines -/

/-- `decoded.startswith("{")` -/
def LooksLikeObject (text : Text) : Prop := (strip text).head? = some '{'

instance (text : Text) : Decidable (LooksLikeObject text) :=
  inferInstanceAs (Decidable (_ = _))

/-- `json.loads(decoded)`, or the response for a line that is not JSON. -/
def parseLine (line : AgentLine) : Reply :=
  match loads (strip line.text) with
  | some response => .parsed line response
  | none =>
      .failed
        ("Error: invalid agent response: ".toList ++
          (strip line.text).take 200) none

/-- The number of lines that may be skipped. -/
def maxSkipped : Nat := 50

/-- A line has been read, after as many that were skipped. -/
def AgentState.afterLine (state : AgentState) (call : RequestCall)
    (skipped : Nat) (line : AgentLine) : AgentState :=
  if skipped = maxSkipped then
    state.finish call
      (.failed "Error: agent emitted no JSON response".toList none)
  else if LooksLikeObject line.text then state.finish call (parseLine line)
  else { state with phase := .skipping call skipped }

/-! ## Steps -/

/-- Why the next line is not read. -/
inductive PipeError where
  | timeout
  | brokenPipe
  | connectionReset
deriving DecidableEq, Repr

/-- What a pipe error gives while lines are skipped. -/
def PipeError.reply : PipeError → Reply
  | timeout | brokenPipe => .failed "[timeout]".toList (some 124)
  | connectionReset => .raised

inductive AgentEvent where
  | call (tool : String)
  | opens
  | closes
  | loops
  | starts
  | startFails
  | readsLine
  | endOfStream
  | pipeFails (error : PipeError)
  | overlong (rest : Option Text)
  | cancelled
  | agent (act : Act Text)
  | leftAgent

/-- The call of a phase in which a line is awaited. -/
def CallPhase.awaits : CallPhase → Option RequestCall
  | waiting call _ | skipping call _ => some call
  | _ => none

inductive AgentStep : AgentState → AgentEvent → AgentState → Prop where
  | call {state : AgentState} (tool : String) (isIdle : state.phase = .idle) :
      AgentStep state (.call tool)
        { state with
          calls := state.calls + 1
          phase := .top ⟨state.calls, tool⟩ 0 }
  -- `start` and `stop`, which others call between requests
  | opens {state : AgentState} (isIdle : state.phase = .idle) :
      AgentStep state .opens
        { state.stop .idle with process := some Server.fresh }
  | closes {state : AgentState} (isIdle : state.phase = .idle) :
      AgentStep state .closes (state.stop .idle)
  | writes {state : AgentState} {call : RequestCall} {attempt : Nat}
      {process : AgentProcess} (isTop : state.phase = .top call attempt)
      (more : attempt < 2) (alive : state.process = some process) :
      AgentStep state .loops (state.write process call attempt)
  | unencodable {state : AgentState} {call : RequestCall} {attempt : Nat}
      (isTop : state.phase = .top call attempt) :
      AgentStep state .loops (state.finish call .raised)
  | restarts {state : AgentState} {call : RequestCall}
      (isTop : state.phase = .top call 0)
      -- an agent that has ended may have no return code yet
      (dead : ∀ process ∈ state.process, process.ended = true) :
      AgentStep state .loops (state.stop (.restartingFirst call))
  | givesUp {state : AgentState} {call : RequestCall}
      (isTop : state.phase = .top call 1)
      (dead : ∀ process ∈ state.process, process.ended = true) :
      AgentStep state .loops
        (state.finish call (.failed "Error: agent process dead".toList none))
  | exhausted {state : AgentState} {call : RequestCall} {attempt : Nat}
      (isTop : state.phase = .top call attempt) (noMore : 2 ≤ attempt) :
      AgentStep state .loops
        (state.finish call
          (.failed "Error: agent restart failed".toList none))
  | startsFirst {state : AgentState} {call : RequestCall}
      (restarting : state.phase = .restartingFirst call) :
      AgentStep state .starts (state.write Server.fresh call 0)
  | startsAgain {state : AgentState} {call : RequestCall} {attempt : Nat}
      {failure : Failure}
      (restarting : state.phase = .restartingAfter call attempt failure)
      (idempotent : call.Idempotent) :
      AgentStep state .starts
        { state with
          phase := .top call (attempt + 1)
          process := some Server.fresh }
  | startsInVain {state : AgentState} {call : RequestCall} {attempt : Nat}
      {failure : Failure}
      (restarting : state.phase = .restartingAfter call attempt failure)
      (notIdempotent : ¬ call.Idempotent) :
      AgentStep state .starts
        { state.finish call failure.reply with process := some Server.fresh }
  | startFailsFirst {state : AgentState} {call : RequestCall}
      (restarting : state.phase = .restartingFirst call) :
      AgentStep state .startFails (state.finish call .raised)
  | startFailsAfter {state : AgentState} {call : RequestCall} {attempt : Nat}
      {failure : Failure}
      (restarting : state.phase = .restartingAfter call attempt failure) :
      AgentStep state .startFails (state.finish call .raised)
  | readsFirst {state : AgentState} {call : RequestCall} {attempt : Nat}
      {process : AgentProcess} {line : AgentLine} {rest : List AgentLine}
      (waits : state.phase = .waiting call attempt)
      (isProcess : state.process = some process)
      (isNext : process.lines = line :: rest) :
      AgentStep state .readsLine
        (AgentState.afterLine
          { state with process := some { process with lines := rest } }
          call 0 line)
  | readsNext {state : AgentState} {call : RequestCall} {skipped : Nat}
      {process : AgentProcess} {line : AgentLine} {rest : List AgentLine}
      (skips : state.phase = .skipping call skipped)
      (isProcess : state.process = some process)
      (isNext : process.lines = line :: rest) :
      AgentStep state .readsLine
        (AgentState.afterLine
          { state with process := some { process with lines := rest } }
          call (skipped + 1) line)
  | endsFirst {state : AgentState} {call : RequestCall} {attempt : Nat}
      {process : AgentProcess} (waits : state.phase = .waiting call attempt)
      (isProcess : state.process = some process)
      (ended : process.ended = true) (allRead : process.lines = []) :
      AgentStep state .endOfStream
        (state.stop (.restartingAfter call attempt .endOfStream))
  | endsNext {state : AgentState} {call : RequestCall} {skipped : Nat}
      {process : AgentProcess} (skips : state.phase = .skipping call skipped)
      (isProcess : state.process = some process)
      (ended : process.ended = true) (allRead : process.lines = []) :
      -- an empty line is skipped as well
      AgentStep state .endOfStream
        (state.afterLine call (skipped + 1) ⟨[], none⟩)
  | failsFirst {state : AgentState} {call : RequestCall} {attempt : Nat}
      (waits : state.phase = .waiting call attempt) (error : PipeError) :
      AgentStep state (.pipeFails error)
        (state.stop (.restartingAfter call attempt .timeout))
  | failsNext {state : AgentState} {call : RequestCall} {skipped : Nat}
      (skips : state.phase = .skipping call skipped) (error : PipeError) :
      -- here the agent is not replaced
      AgentStep state (.pipeFails error) (state.finish call error.reply)
  | overlong {state : AgentState} {call : RequestCall}
      {process : AgentProcess} {line : AgentLine} {rest : List AgentLine}
      (awaits : state.phase.awaits = some call)
      (isProcess : state.process = some process)
      (isNext : process.lines = line :: rest) (tail : Option Text) :
      -- the reader drops what it has of the line and raises
      AgentStep state (.overlong tail)
        (AgentState.finish
          { state with
            process := some
              { process with
                lines :=
                  (tail.map fun text => ⟨text, line.origin⟩).toList ++ rest } }
          call .raised)
  | cancelled {state : AgentState} (suspended : state.phase ≠ .idle)
      (notTop : ∀ call attempt, state.phase ≠ .top call attempt) :
      AgentStep state .cancelled { state with phase := .idle }
  | agent {state : AgentState} {process next : AgentProcess} {act : Act Text}
      {started : List RequestCall} (isProcess : state.process = some process)
      (step : Server.Step process act started next) :
      AgentStep state (.agent act)
        { state with
          process := some next
          executed := state.executed ++ started }
  | leftAgent {state : AgentState} {front back : List RequestCall}
      {call : RequestCall} (isLeft : state.left = front ++ call :: back) :
      AgentStep state .leftAgent
        { state with
          left := front ++ back
          executed := state.executed ++ [call] }

/-- Reached from the start by steps that meet a condition. -/
def AgentState.Reached (meets : AgentState → AgentEvent → Prop)
    (state : AgentState) : Prop :=
  Relation.ReflTransGen
    (fun before after =>
      ∃ event, meets before event ∧ AgentStep before event after)
    AgentState.start state

/-! ## The properties -/

/-- A response that a call returns was written for its request. -/
def Corresponds (state : AgentState) : Prop :=
  ∀ call line response, (call, Reply.parsed line response) ∈ state.returned →
    line.origin = some call

/-- A request that is not safe to repeat is executed at most once per call. -/
def AtMostOnce (state : AgentState) : Prop :=
  ∀ call : RequestCall, ¬ call.Idempotent → state.executed.count call ≤ 1

end AgentSchedBench.Replay
