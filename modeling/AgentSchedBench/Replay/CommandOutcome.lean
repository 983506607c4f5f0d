import AgentSchedBench.Library.Decimals
import AgentSchedBench.Library.Utf8
import AgentSchedBench.Trace.Files
import Mathlib

/-!
# The outcome of a command

A command is run by `ExecTool` when a trace is collected, and by the agent in
the container when it is replayed.  The first reads bytes and maps a death by
signal to an exit status; the second reads text and hands on what Python
tells.  Both write the streams and the status into one text, which is cut in
the middle when it is long.
-/

namespace AgentSchedBench.Replay

open Decimals JsonText TextLines Utf8
open Agent (isSpace)
open Trace (Text strip)

/-! ## Outcomes -/

/-- How a process ends. -/
inductive Status where
  | exited (code : UInt8)
  | killed (signal : Nat) (positive : 0 < signal)

/-- `Popen.returncode` -/
def Status.returncode : Status → Int
  | exited code => code.toNat
  | killed signal _ => -signal

/-- What a command that ends within its timeout has written, and its end. -/
structure CommandOutcome where
  stdout : List UInt8
  stderr : List UInt8
  status : Status

/-- What a tool call gives. -/
structure CommandResult where
  text : Text
  returncode : Option Int
  timedOut : Option Bool
deriving DecidableEq, Repr

/-! ## The text of a result -/

/-- `_MAX_OUTPUT` -/
def maxOutput : Nat := 10000

/-- `_truncate_output`, and the end of `_execute_in_container` -/
def truncateOutput (text : Text) (limit : Nat) : Text :=
  if text.length ≤ limit then text
  else
    let half := limit / 2
    text.take half ++
      ("\n\n... (".toList ++ withCommas (text.length - limit) ++
        " chars truncated) ...\n\n".toList) ++
      text.drop (text.length - half)

/-- The last part of a result. -/
def exitCodeText (returncode : Int) : Text :=
  "\nExit code: ".toList ++ dumpInt returncode

/-- `_format_exec_result` -/
def formatExecResult (stdout stderr : Text) (returncode : Int) : Text :=
  ['\n'].intercalate
    ((if stdout.isEmpty then [] else [stdout]) ++
      (if stderr.all isSpace then [] else ["STDERR:\n".toList ++ stderr]) ++
      [exitCodeText returncode])

def commandTimeoutText : Text := "Error: Command timed out after ".toList

/-- `_format_command_timeout` -/
def formatCommandTimeout (timeout : Nat) : Text :=
  commandTimeoutText ++ dumpNat timeout ++ " seconds".toList

/-! ## Collection -/

/-- The process of `docker exec`, which has ended. -/
structure ContainerProcess where
  stdout : List UInt8
  stderr : List UInt8
  returncode : Int

/-- `_CONTAINER_EXEC_WRAPPER`, when the command ends in time -/
def containerExecWrapper (outcome : CommandOutcome) : ContainerProcess :=
  let returncode := outcome.status.returncode
  { stdout := outcome.stdout
    stderr := outcome.stderr
    -- of the status with which it exits one byte is kept
    returncode :=
      (if returncode < 0 then 128 + |returncode| else returncode) % 256 }

local instance lawfulText : LawfulBEq Text := inferInstance

/--
`_execute_in_container`.  The marker is the one that the wrapper writes after
a timeout.
-/
def executeInContainer (marker : Text) (timeout : Nat)
    (process : ContainerProcess) : CommandResult :=
  let stderr := decodeReplace process.stderr
  if !process.stderr.isEmpty ∧ process.returncode = 124 ∧
      marker ∈ splitLines stderr then
    ⟨formatCommandTimeout timeout, some 124, some true⟩
  else
    let outputParts :=
      (if process.stdout.isEmpty then []
        else [decodeReplace process.stdout]) ++
        (if !process.stderr.isEmpty ∧ !stderr.all isSpace then
          ["STDERR:\n".toList ++ stderr]
        else []) ++
        [exitCodeText process.returncode]
    ⟨truncateOutput (['\n'].intercalate outputParts) maxOutput,
      some process.returncode, some false⟩

/-! ## The agent in the container -/

/-- A response of the agent. -/
structure AgentResponse where
  ok : Bool
  result : Text
  returncode : Option Int
  timedOut : Option Bool

/-- What `communicate` returns of a pipe in text mode. -/
def readPipe (bytes : List UInt8) : Option Text :=
  (decode bytes).map translateNewlines

/-- The response to an error that the agent's main loop catches. -/
def dispatchFailed (error : Text) : AgentResponse :=
  ⟨false, "Error: agent dispatch failed: ".toList ++ error, none, none⟩

section Handler

variable (undecodable : List UInt8 → List UInt8 → Text)

/-- The response that is made of both streams, if they can be decoded. -/
def withStreams (stdout stderr : List UInt8)
    (respond : Text → Text → AgentResponse) : AgentResponse :=
  match readPipe stdout, readPipe stderr with
  | some stdout, some stderr => respond stdout stderr
  | _, _ => dispatchFailed (undecodable stdout stderr)

/-- The response for a command that has ended. -/
def completedResponse (outcome : CommandOutcome) : AgentResponse :=
  withStreams undecodable outcome.stdout outcome.stderr fun stdout stderr =>
    let returncode := outcome.status.returncode
    ⟨true, truncateOutput (formatExecResult stdout stderr returncode) maxOutput,
      some returncode, some false⟩

/-- `text.rsplit(separator, 1)`, if the separator is in the text -/
def rsplit (separator : Text) : Text → Option (Text × Text)
  | [] => if separator = [] then some ([], []) else none
  | char :: text =>
      match rsplit separator text with
      | some (front, back) => some (char :: front, back)
      | none =>
          (stripFront separator (char :: text)).map fun back => ([], back)

/-- `_insert_before_final_exit_code` -/
def insertBeforeFinalExitCode (text marker : Text) : Text :=
  let exitMarker := "\nExit code:".toList
  match rsplit exitMarker text with
  | none => if text.isEmpty then marker else text ++ '\n' :: marker
  | some (front, back) =>
      (if front.isEmpty then marker else front ++ '\n' :: marker) ++
        exitMarker ++ back

/--
What is found when the command has not ended within a sample interval: does
the virtual time reach the timeout, is the command stalled, and what it has
written if it is killed then.
-/
structure ResourceSample where
  reachesTimeout : Bool
  stalls : Bool
  stdout : List UInt8
  stderr : List UInt8

/-- The response for a command that is killed at a sample. -/
def killedResponse (marker : Text) (sample : ResourceSample) : AgentResponse :=
  withStreams undecodable sample.stdout sample.stderr fun stdout stderr =>
    let output :=
      insertBeforeFinalExitCode (formatExecResult stdout stderr 124) marker
    ⟨false, truncateOutput output maxOutput, some 124, some true⟩

/--
`_run_shell_command_with_resource_timeout`, with the samples that are taken
before the command ends.
-/
def runShellCommandWithResourceTimeout (outcome : CommandOutcome) :
    List ResourceSample → AgentResponse
  | [] => completedResponse undecodable outcome
  | sample :: samples =>
      if sample.reachesTimeout then
        killedResponse undecodable "[resource_timeout]".toList sample
      else if sample.stalls then
        killedResponse undecodable "[resource_stall_timeout]".toList sample
      else runShellCommandWithResourceTimeout outcome samples

/-- How the agent runs a command: with or without a resource timeline. -/
inductive ExecPath where
  | plain (timesOut : Bool)
  | resourceTimed (samples : List ResourceSample)

/-- `handle_exec` -/
def handleExec (timeout : Nat) (outcome : CommandOutcome) :
    ExecPath → AgentResponse
  | .resourceTimed samples =>
      runShellCommandWithResourceTimeout undecodable outcome samples
  | .plain false => completedResponse undecodable outcome
  | .plain true => ⟨false, formatCommandTimeout timeout, some 124, some true⟩

/-- The command ends before a timeout. -/
def ExecPath.InTime : ExecPath → Prop
  | plain timesOut => timesOut = false
  | resourceTimed samples =>
      ∀ sample ∈ samples, sample.reachesTimeout = false ∧ sample.stalls = false

/-- Within the timeout both paths give the same response. -/
theorem handleExec_inTime {timeout : Nat} {outcome : CommandOutcome}
    {path : ExecPath} (inTime : path.InTime) :
    handleExec undecodable timeout outcome path =
      completedResponse undecodable outcome := by
  cases path with
  | plain timesOut =>
      cases inTime
      rfl
  | resourceTimed samples =>
      rw [handleExec]
      rw [ExecPath.InTime] at inTime
      induction samples with
      | nil => rfl
      | cons sample samples induction =>
          rw [List.forall_mem_cons] at inTime
          rw [runShellCommandWithResourceTimeout, inTime.1.1, inTime.1.2]
          exact induction inTime.2

end Handler

/-! ## Replay -/

/-- `_final_exit_code` -/
def finalExitCode (result : Text) : Option Int :=
  let lines :=
    ((splitLines result).map strip).filter fun line => !line.isEmpty
  match lines.getLast? with
  | none => none
  | some line =>
      (stripFront "Exit code:".toList line).bind fun value =>
        parseInt (strip value)

/-- `_response_result_indicates_timeout` -/
def responseResultIndicatesTimeout (result : Text) : Bool :=
  decide (commandTimeoutText <:+: result) ||
    (splitLines result).any fun line =>
      ["[timeout]", "[resource_timeout]", "[resource_stall_timeout]"].any
        fun marker => strip line == marker.toList

/-- The field `timed_out` of `_trace_tool_response_metadata`. -/
def responseTimedOut (response : AgentResponse) : Option Bool :=
  match response.timedOut with
  | some timedOut => some timedOut
  | none =>
      response.returncode.map fun returncode =>
        returncode == 124 && !response.ok &&
          responseResultIndicatesTimeout response.result

/--
What `execute_trace_tool_detailed` makes of the response to a command, and
whether the tool has succeeded.
-/
def executeTraceToolDetailed (response : AgentResponse) :
    CommandResult × Bool :=
  let timedOut := responseTimedOut response
  let result := response.result
  match response.returncode with
  | none =>
      (⟨if (finalExitCode result).isNone then
          strip (result ++ "\n\nExit code: <missing>".toList)
        else result,
        none, timedOut⟩, false)
  | some returncode =>
      if returncode = 124 ∧ commandTimeoutText <:+: result then
        (⟨result, some returncode, timedOut⟩, response.ok)
      else
        (⟨if finalExitCode result ≠ some returncode then
            strip (result ++ "\n\nExit code: ".toList ++ dumpInt returncode)
          else result,
          some returncode, timedOut⟩, response.ok)

/-! ## Truncation -/

section Truncate

variable {text other : Text} {limit : Nat}

theorem truncateOutput_short (short : text.length ≤ limit) :
    truncateOutput text limit = text := if_pos short

/-- What stands in place of the characters that are cut. -/
def cutNote (cut : Nat) : Text :=
  "\n\n... (".toList ++ withCommas cut ++ " chars truncated) ...\n\n".toList

theorem cutNote_injective {cut otherCut : Nat}
    (same : cutNote cut = cutNote otherCut) : cut = otherCut := by
  unfold cutNote at same
  exact withCommas_injective
    (List.append_cancel_left (List.append_cancel_right same))

theorem length_cutNote (cut : Nat) : 2 ≤ (cutNote cut).length := by
  unfold cutNote
  simp

theorem truncateOutput_long (long : limit < text.length) :
    truncateOutput text limit =
      text.take (limit / 2) ++ cutNote (text.length - limit) ++
        text.drop (text.length - limit / 2) :=
  if_neg (Nat.not_le.mpr long)

theorem length_truncateOutput (long : limit < text.length) :
    limit < (truncateOutput text limit).length := by
  have note := length_cutNote (text.length - limit)
  rw [truncateOutput_long long]
  simp only [List.length_append, List.length_take, List.length_drop]
  omega

theorem truncateOutput_short_iff :
    (truncateOutput text limit).length ≤ limit ↔ text.length ≤ limit := by
  constructor
  · intro short
    by_contra long
    exact Nat.not_le.mpr (length_truncateOutput (Nat.not_le.mp long)) short
  · intro short
    rwa [truncateOutput_short short]

/-- The number of characters that are cut tells the length of a text. -/
theorem length_of_truncateOutput
    (same : truncateOutput text limit = truncateOutput other limit) :
    text.length = other.length := by
  have alike : text.length ≤ limit ↔ other.length ≤ limit := by
    rw [← truncateOutput_short_iff, same, truncateOutput_short_iff]
  by_cases short : text.length ≤ limit
  · rw [truncateOutput_short short,
      truncateOutput_short (alike.mp short)] at same
    rw [same]
  · have long := Nat.not_le.mp short
    have otherLong := Nat.not_le.mp (mt alike.mpr short)
    rw [truncateOutput_long long, truncateOutput_long otherLong] at same
    have fronts := (List.append_inj' same (by
      rw [List.length_drop, List.length_drop]
      omega)).1
    have notes := (List.append_inj fronts (by
      rw [List.length_take, List.length_take]
      omega)).2
    have cut := cutNote_injective notes
    omega

/-- A short end of a text is kept. -/
theorem truncateOutput_append {last : Text}
    (short : last.length ≤ limit / 2) :
    ∃ front, truncateOutput (text ++ last) limit = front ++ last := by
  by_cases whole : (text ++ last).length ≤ limit
  · exact ⟨text, truncateOutput_short whole⟩
  · rw [truncateOutput_long (Nat.not_le.mp whole), List.length_append,
      List.drop_append_of_le_length (by omega), ← List.append_assoc]
    exact ⟨_, rfl⟩

/-- Each carriage return is in the part of the text that is cut. -/
def ReturnsHidden (text : Text) (limit : Nat) : Prop :=
  ∀ index, text[index]? = some '\r' →
    limit / 2 ≤ index ∧ index + limit / 2 < text.length

theorem map_asLineFeed : text = text.map asLineFeed ↔ '\r' ∉ text := by
  induction text with
  | nil => simp
  | cons char rest induction =>
      rw [List.map_cons, List.cons.injEq, induction, List.mem_cons, not_or]
      refine and_congr_left' ?_
      rw [asLineFeed]
      split
      · next isReturn => simp [isReturn]
      · next notReturn => simp [Ne.symm notReturn]

theorem returnsHidden_iff :
    ReturnsHidden text limit ↔
      '\r' ∉ text.take (limit / 2) ∧
        '\r' ∉ text.drop (text.length - limit / 2) := by
  rw [ReturnsHidden]
  constructor
  · intro hidden
    constructor
    · intro member
      obtain ⟨index, isReturn⟩ := List.mem_iff_getElem?.mp member
      rw [List.getElem?_take] at isReturn
      split at isReturn
      · next early => exact absurd early (Nat.not_lt.mpr (hidden _ isReturn).1)
      · cases isReturn
    · intro member
      obtain ⟨index, isReturn⟩ := List.mem_iff_getElem?.mp member
      rw [List.getElem?_drop] at isReturn
      have cut := (hidden _ isReturn).2
      omega
  · rintro ⟨early, late⟩ index isReturn
    constructor
    · by_contra before
      refine early (List.mem_iff_getElem?.mpr ⟨index, ?_⟩)
      rw [List.getElem?_take, if_pos (Nat.not_le.mp before), isReturn]
    · by_contra behind
      refine late (List.mem_iff_getElem?.mpr
        ⟨index - (text.length - limit / 2), ?_⟩)
      rw [List.getElem?_drop, Nat.add_sub_cancel' (by omega), isReturn]

/-- The text is the same without carriage returns if and only if none of them
is in the parts that are kept. -/
theorem truncateOutput_map (even : limit ≤ limit / 2 + limit / 2) :
    truncateOutput text limit = truncateOutput (text.map asLineFeed) limit ↔
      ReturnsHidden text limit := by
  by_cases short : text.length ≤ limit
  · rw [truncateOutput_short short,
      truncateOutput_short (by rwa [List.length_map]), map_asLineFeed]
    constructor
    · intro noReturn index isReturn
      exact absurd (List.mem_of_getElem? isReturn) noReturn
    · intro hidden member
      obtain ⟨index, isReturn⟩ := List.mem_iff_getElem?.mp member
      have cut := hidden index isReturn
      omega
  · have long := Nat.not_le.mp short
    rw [returnsHidden_iff, ← map_asLineFeed, ← map_asLineFeed,
      truncateOutput_long long,
      truncateOutput_long (by rwa [List.length_map]), List.length_map,
      List.map_take, List.map_drop]
    constructor
    · intro same
      have sides := List.append_inj' same (by simp)
      exact ⟨(List.append_inj sides.1 (by simp)).1, sides.2⟩
    · rintro ⟨front, back⟩
      rw [← front, ← back]

end Truncate

end AgentSchedBench.Replay
