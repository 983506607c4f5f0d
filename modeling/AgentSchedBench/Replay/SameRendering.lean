import AgentSchedBench.Replay.ExitCodes

/-!
# When a command is rendered alike

The replay agent reads the streams strictly and in text mode, and it keeps the
sign of a death by signal.  So the result is that of the collection if the
command exits, if its streams can be decoded, and if no carriage return is to
be seen in the text that is made of them.
-/

namespace AgentSchedBench.Replay

open Decimals JsonText TextLines Utf8
open Agent (isSpace)
open Trace (Text strip strip_eq_self)

/-! ## The text of an outcome -/

/-- No carriage return that is shown is followed by a line feed. -/
def Unpaired (stdout stderr : Text) : Prop :=
  ¬ Paired stdout ∧ (stderr.all isSpace ∨ ¬ Paired stderr)

theorem translateNewlines_isEmpty (text : Text) :
    (translateNewlines text).isEmpty = text.isEmpty := by
  rw [Bool.eq_iff_iff, List.isEmpty_iff, List.isEmpty_iff,
    translateNewlines_eq_nil]

theorem translateNewlines_blank (text : Text) :
    (translateNewlines text).all isSpace = text.all isSpace :=
  all_translateNewlines text (by decide) (by decide)

/-- Without pairs the text in text mode has line feeds for carriage returns. -/
theorem streamsText_translate {stdout stderr : Text}
    (unpaired : Unpaired stdout stderr) :
    streamsText (translateNewlines stdout) (translateNewlines stderr) =
      (streamsText stdout stderr).map asLineFeed := by
  have kept : ("STDERR:\n".toList).map asLineFeed = "STDERR:\n".toList := by
    decide
  unfold streamsText
  rw [translateNewlines_isEmpty, translateNewlines_blank, List.map_append,
    translateNewlines_eq_map unpaired.1]
  congr 1
  · split
    · rfl
    · rw [List.map_append]
      rfl
  · split
    · rfl
    · next shown =>
        rw [translateNewlines_eq_map (unpaired.2.resolve_left shown),
          List.map_append, List.map_append, kept]
        rfl

theorem length_streamsText (stdout stderr : Text) :
    (streamsText stdout stderr).length =
      (if stdout.isEmpty then 0 else stdout.length + 1) +
        (if stderr.all isSpace then 0 else stderr.length + 9) := by
  unfold streamsText
  rw [List.length_append]
  congr 1
  · split <;> simp
  · split
    · rfl
    · simp

/-- A pair makes the text in text mode shorter. -/
theorem unpaired_of_length {stdout stderr : Text}
    (same :
      (streamsText (translateNewlines stdout)
        (translateNewlines stderr)).length =
        (streamsText stdout stderr).length) :
    Unpaired stdout stderr := by
  rw [length_streamsText, length_streamsText, translateNewlines_isEmpty,
    translateNewlines_blank] at same
  have stdoutLength := length_translateNewlines_le stdout
  have stderrLength := length_translateNewlines_le stderr
  constructor
  · intro paired
    have shorter := length_translateNewlines_lt paired
    have shown : ¬ stdout.isEmpty := by
      intro isEmpty
      rw [List.isEmpty_iff.mp isEmpty] at shorter
      exact Nat.not_lt_zero _ shorter
    rw [if_neg shown, if_neg shown] at same
    split at same <;> omega
  · by_contra! shown
    have shorter := length_translateNewlines_lt shown.2
    rw [if_neg shown.1, if_neg shown.1] at same
    split at same <;> omega

theorem exitCodeText_map (code : Nat) :
    (exitCodeText code).map asLineFeed = exitCodeText code := by
  rw [eq_comm, map_asLineFeed]
  intro member
  unfold exitCodeText at member
  rcases List.mem_append.mp member with isFront | isDigit
  · exact absurd isFront (by decide)
  · exact absurd ((dumpNat_digits code).1 _ isDigit) (by decide)

/-- The text is cut to the same in text mode. -/
theorem truncateOutput_translate {stdout stderr : Text} {code limit : Nat}
    (even : limit ≤ limit / 2 + limit / 2) :
    truncateOutput (formatExecResult stdout stderr code) limit =
        truncateOutput
          (formatExecResult (translateNewlines stdout)
            (translateNewlines stderr) code) limit ↔
      Unpaired stdout stderr ∧
        ReturnsHidden (streamsText stdout stderr ++ exitCodeText code) limit
    := by
  rw [formatExecResult_eq, formatExecResult_eq, ← truncateOutput_map even,
    List.map_append, exitCodeText_map]
  constructor
  · intro same
    have lengths := length_of_truncateOutput same
    rw [List.length_append, List.length_append, Nat.add_right_cancel_iff]
      at lengths
    have unpaired := unpaired_of_length lengths.symm
    rw [streamsText_translate unpaired] at same
    exact ⟨unpaired, same⟩
  · rintro ⟨unpaired, same⟩
    rw [streamsText_translate unpaired]
    exact same

/-! ## The exit code that is read off -/

/-- The last line of a result. -/
def exitCodeLine (code : Nat) : Text := exitCodeLabel ++ ' ' :: dumpNat code

theorem exitCodeText_eq (code : Nat) :
    exitCodeText code = '\n' :: exitCodeLine code :=
  exitCodeText_eq_label code

/-- The exit code at the end of a text is found. -/
theorem finalExitCode_append (front : Text) (code : Nat) :
    finalExitCode (front ++ exitCodeText code) = some (code : Int) :=
  (readsBack_append (fun _ => []) front code).1

/-! ## Collection -/

section Rendering

variable (marker : Text) (timeout : Nat)
  (undecodable : List UInt8 → List UInt8 → Text) {outcome : CommandOutcome}

theorem containerExecWrapper_exited {code : UInt8}
    (exited : outcome.status = .exited code) :
    (containerExecWrapper outcome).returncode = code.toNat := by
  have small := code.toNat_lt
  rw [containerExecWrapper, exited, Status.returncode]
  dsimp only
  rw [if_neg (by omega)]
  omega

/-- Collection never tells of a negative status. -/
theorem containerExecWrapper_nonneg :
    0 ≤ (containerExecWrapper outcome).returncode :=
  Int.emod_nonneg _ (by decide)

/-- The collection takes the outcome for a timeout. -/
def LooksTimedOut (process : ContainerProcess) : Prop :=
  process.returncode = 124 ∧ marker ∈ splitLines (decodeReplace process.stderr)

theorem executeInContainer_timedOut {process : ContainerProcess}
    (looksTimedOut : LooksTimedOut marker process) :
    executeInContainer marker timeout process =
      ⟨formatCommandTimeout timeout, some 124, some true⟩ := by
  have shown : process.stderr ≠ [] := by
    intro isEmpty
    have member := looksTimedOut.2
    rw [isEmpty] at member
    cases member
  unfold executeInContainer
  rw [if_pos]
  exact ⟨by simpa using shown, looksTimedOut⟩

theorem executeInContainer_ended {process : ContainerProcess}
    (ended : ¬ LooksTimedOut marker process) :
    executeInContainer marker timeout process =
      ⟨truncateOutput
          (formatExecResult (decodeReplace process.stdout)
            (decodeReplace process.stderr) process.returncode) maxOutput,
        some process.returncode, some false⟩ := by
  have stdoutEmpty :
      (decodeReplace process.stdout).isEmpty = process.stdout.isEmpty := by
    rw [Bool.eq_iff_iff, List.isEmpty_iff, List.isEmpty_iff,
      decodeReplace_eq_nil]
  unfold executeInContainer formatExecResult
  rw [if_neg (fun looksTimedOut => ended looksTimedOut.2), stdoutEmpty]
  by_cases stderrEmpty : process.stderr = []
  · rw [stderrEmpty]
    rfl
  · have shown : (!process.stderr.isEmpty) = true := by
      simpa using stderrEmpty
    simp only [shown, true_and]
    cases (decodeReplace process.stderr).all isSpace <;> rfl

theorem executeInContainer_returncode (process : ContainerProcess) :
    (executeInContainer marker timeout process).returncode =
      some process.returncode := by
  by_cases looksTimedOut : LooksTimedOut marker process
  · rw [executeInContainer_timedOut marker timeout looksTimedOut,
      looksTimedOut.1]
  · rw [executeInContainer_ended marker timeout looksTimedOut]

/-! ## Replay -/

theorem executeTraceToolDetailed_returncode (response : AgentResponse) :
    (executeTraceToolDetailed response).1.returncode = response.returncode := by
  unfold executeTraceToolDetailed
  cases response.returncode with
  | none => rfl
  | some returncode =>
      dsimp only
      split <;> rfl

theorem length_exitCodeText (code : UInt8) :
    (exitCodeText code.toNat).length ≤ maxOutput / 2 := by
  have label : exitCodeLabel.length = 10 := by decide
  have digits : (dumpNat code.toNat).length ≤ 3 :=
    length_dumpNat (by decide) (code.toNat_lt.trans (by decide))
  have half : maxOutput / 2 = 5000 := rfl
  rw [exitCodeText_eq, exitCodeLine, List.length_cons, List.length_append,
    List.length_cons]
  omega

/-- The response for a command that has exited is handed on. -/
theorem executeTraceToolDetailed_exited {code : UInt8}
    (exited : outcome.status = .exited code) {stdout stderr : Text}
    (stdoutRead : readPipe outcome.stdout = some stdout)
    (stderrRead : readPipe outcome.stderr = some stderr) :
    executeTraceToolDetailed (completedResponse undecodable outcome) =
      (⟨truncateOutput (formatExecResult stdout stderr code.toNat) maxOutput,
        some code.toNat, some false⟩, true) := by
  have short := length_exitCodeText code
  have found :
      finalExitCode
          (truncateOutput (formatExecResult stdout stderr code.toNat)
            maxOutput) =
        some (code.toNat : Int) := by
    rw [formatExecResult_eq]
    obtain ⟨front, same⟩ : ∃ front,
        truncateOutput
            (streamsText stdout stderr ++ exitCodeText code.toNat)
            maxOutput =
          front ++ exitCodeText code.toNat :=
      truncateOutput_append short
    rw [same, finalExitCode_append]
  rw [completedResponse, withStreams, stdoutRead, stderrRead, exited]
  unfold executeTraceToolDetailed
  simp only [Status.returncode, responseTimedOut, found, ne_eq,
    not_true_eq_false, if_false, ite_self]

/-- A stream that cannot be decoded leaves no return code. -/
theorem completedResponse_undecodable
    (bad : readPipe outcome.stdout = none ∨ readPipe outcome.stderr = none) :
    (completedResponse undecodable outcome).returncode = none := by
  rw [completedResponse, withStreams]
  rcases bad with stdoutBad | stderrBad
  · rw [stdoutBad]
    rfl
  · rw [stderrBad]
    cases readPipe outcome.stdout <;> rfl

/-! ## Both -/

/-- On each path that ends in time the replay gives the collection's result. -/
def SameResults (collectTimeout : Nat) (outcome : CommandOutcome) : Prop :=
  ∀ path : ExecPath, path.InTime →
    (executeTraceToolDetailed (handleExec undecodable timeout outcome path)).1 =
      executeInContainer marker collectTimeout (containerExecWrapper outcome)

/--
The command exits, does not write the marker of a timeout with the status of
one, and its streams are UTF-8 without a carriage return that would be seen.
-/
def RendersAlike (outcome : CommandOutcome) : Prop :=
  ∃ code stdout stderr,
    outcome.status = .exited code ∧
      decode outcome.stdout = some stdout ∧
      decode outcome.stderr = some stderr ∧
      ¬ (code.toNat = 124 ∧ marker ∈ splitLines stderr) ∧
      Unpaired stdout stderr ∧
      ReturnsHidden
        (streamsText stdout stderr ++ exitCodeText code.toNat) maxOutput

variable {marker timeout undecodable} {collectTimeout : Nat}

/-- The paths do not matter within the timeout. -/
theorem sameResults_completed :
    SameResults marker timeout undecodable collectTimeout outcome ↔
      (executeTraceToolDetailed (completedResponse undecodable outcome)).1 =
        executeInContainer marker collectTimeout
          (containerExecWrapper outcome) := by
  constructor
  · intro same
    exact same (.plain false) rfl
  · intro same path inTime
    rw [handleExec_inTime undecodable inTime]
    exact same

theorem sameResults_returncode
    (same : SameResults marker timeout undecodable collectTimeout outcome) :
    (completedResponse undecodable outcome).returncode =
      some (containerExecWrapper outcome).returncode := by
  have returncodes :=
    congrArg CommandResult.returncode (sameResults_completed.mp same)
  rwa [executeTraceToolDetailed_returncode, executeInContainer_returncode]
    at returncodes

/-- What can be decoded has been read in text mode. -/
theorem readPipe_eq_some {bytes : List UInt8} {text : Text}
    (decoded : decode bytes = some text) :
    readPipe bytes = some (translateNewlines text) := by
  rw [readPipe, decoded, Option.map_some]

theorem decoded_of_sameResults
    (same : SameResults marker timeout undecodable collectTimeout outcome) :
    ∃ stdout stderr,
      decode outcome.stdout = some stdout ∧
        decode outcome.stderr = some stderr := by
  have returncode := sameResults_returncode same
  have readable : ¬ (readPipe outcome.stdout = none ∨
      readPipe outcome.stderr = none) := by
    intro bad
    rw [completedResponse_undecodable undecodable bad] at returncode
    cases returncode
  rw [not_or, readPipe, readPipe, Option.map_eq_none_iff,
    Option.map_eq_none_iff] at readable
  obtain ⟨stdout, isStdout⟩ := Option.ne_none_iff_exists'.mp readable.1
  obtain ⟨stderr, isStderr⟩ := Option.ne_none_iff_exists'.mp readable.2
  exact ⟨stdout, stderr, isStdout, isStderr⟩

/-- A death by signal is told otherwise. -/
theorem exited_of_sameResults
    (same : SameResults marker timeout undecodable collectTimeout outcome) :
    ∃ code, outcome.status = .exited code := by
  cases isStatus : outcome.status with
  | exited code => exact ⟨code, rfl⟩
  | killed signal positive =>
      obtain ⟨stdout, stderr, isStdout, isStderr⟩ :=
        decoded_of_sameResults same
      have returncode := sameResults_returncode same
      rw [completedResponse, withStreams, readPipe_eq_some isStdout,
        readPipe_eq_some isStderr, isStatus] at returncode
      have negative := Option.some.inj returncode
      have nonneg : 0 ≤ (containerExecWrapper outcome).returncode :=
        containerExecWrapper_nonneg
      rw [← negative, Status.returncode] at nonneg
      omega

section Exited

variable {code : UInt8} {stdout stderr : Text}
  (exited : outcome.status = .exited code)
  (isStdout : decode outcome.stdout = some stdout)
  (isStderr : decode outcome.stderr = some stderr)

include exited isStderr in
theorem looksTimedOut_iff :
    LooksTimedOut marker (containerExecWrapper outcome) ↔
      code.toNat = 124 ∧ marker ∈ splitLines stderr := by
  have shown :
      decodeReplace (containerExecWrapper outcome).stderr = stderr :=
    decodeReplace_eq isStderr
  rw [LooksTimedOut, containerExecWrapper_exited exited, shown]
  exact and_congr_left' (by omega)

include exited isStdout isStderr in
/-- What has exited and can be decoded is rendered alike if its text is. -/
theorem sameResults_exited :
    SameResults marker timeout undecodable collectTimeout outcome ↔
      ¬ (code.toNat = 124 ∧ marker ∈ splitLines stderr) ∧
        Unpaired stdout stderr ∧
        ReturnsHidden
          (streamsText stdout stderr ++ exitCodeText code.toNat) maxOutput
    := by
  rw [sameResults_completed,
    executeTraceToolDetailed_exited undecodable exited
      (readPipe_eq_some isStdout) (readPipe_eq_some isStderr),
    ← looksTimedOut_iff exited isStderr]
  by_cases looksTimedOut :
      LooksTimedOut marker (containerExecWrapper outcome)
  · rw [executeInContainer_timedOut marker collectTimeout looksTimedOut]
    refine iff_of_false ?_ (fun holds => holds.1 looksTimedOut)
    intro same
    have timedOut := congrArg CommandResult.timedOut same
    cases timedOut
  · have even : maxOutput ≤ maxOutput / 2 + maxOutput / 2 := by decide
    have shown :
        decodeReplace (containerExecWrapper outcome).stdout = stdout ∧
          decodeReplace (containerExecWrapper outcome).stderr = stderr :=
      ⟨decodeReplace_eq isStdout, decodeReplace_eq isStderr⟩
    rw [executeInContainer_ended marker collectTimeout looksTimedOut,
      containerExecWrapper_exited exited, ← truncateOutput_translate even,
      CommandResult.mk.injEq, shown.1, shown.2]
    constructor
    · rintro ⟨same, -, -⟩
      exact ⟨looksTimedOut, same.symm⟩
    · rintro ⟨-, same⟩
      exact ⟨same.symm, rfl, rfl⟩

end Exited

/-- The results are the same if and only if the outcome renders alike. -/
theorem sameResults_iff :
    SameResults marker timeout undecodable collectTimeout outcome ↔
      RendersAlike marker outcome := by
  constructor
  · intro same
    obtain ⟨code, exited⟩ := exited_of_sameResults same
    obtain ⟨stdout, stderr, isStdout, isStderr⟩ := decoded_of_sameResults same
    exact ⟨code, stdout, stderr, exited, isStdout, isStderr,
      (sameResults_exited exited isStdout isStderr).mp same⟩
  · rintro ⟨code, stdout, stderr, exited, isStdout, isStderr, alike⟩
    exact (sameResults_exited exited isStdout isStderr).mpr alike

end Rendering

/-- The shell is killed: 137 in the trace is -9 in the replay. -/
theorem killed_not_sameResults :
    ¬ SameResults "__OPENCLAW_EXEC_WRAPPER_TIMEOUT__0".toList 600
        (fun _ _ => "invalid start byte".toList) 300
        ⟨[], [], .killed 9 (by decide)⟩ := by
  intro same
  obtain ⟨code, exited⟩ := exited_of_sameResults same
  cases exited

end AgentSchedBench.Replay
