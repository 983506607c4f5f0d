import AgentSchedBench.Replay.Accounting

/-!
# The counters add up

Each iteration counts its action once.  What follows the count of a matched
failure raises nothing: its statements have been passed before, with the same
values.  The data of an action that is a tool call and no dictionary raises
before its name is known, and is counted as an error of no tool.
-/

namespace AgentSchedBench.Replay

open AgentSchedBench.Trace (Text Record isTruthy strip)
open TextLines (splitLines)

/-! ## Exit codes -/

section ExitCodes

variable {python : PythonText}

/-- The texts of the values that are falsy. -/
def falsyTexts : List Text :=
  ["None".toList, "False".toList, "0".toList, "0.0".toList, "-0.0".toList,
    [], "[]".toList, "\x7b\x7d".toList]

theorem str_of_falsy {value : Json} (isFalsy : isTruthy value = false) :
    python.str value ∈ falsyTexts := by
  cases value with
  | null => exact .head _
  | bool value =>
      cases value with
      | false => exact .tail _ (.head _)
      | true => cases isFalsy
  | int value =>
      have isZero : value = 0 := by simpa [isTruthy] using isFalsy
      subst isZero
      exact .tail _ (.tail _ (.head _))
  | float text =>
      rw [PythonText.str, if_neg (by rw [isFalsy]; exact Bool.false_ne_true)]
      split
      · exact .tail _ (.tail _ (.tail _ (.tail _ (.head _))))
      · exact .tail _ (.tail _ (.tail _ (.head _)))
  | str value =>
      have isEmpty : value = "" := by simpa [isTruthy] using isFalsy
      subst isEmpty
      exact .tail _ (.tail _ (.tail _ (.tail _ (.tail _ (.head _)))))
  | arr items =>
      cases items with
      | nil =>
          exact
            .tail _ (.tail _ (.tail _ (.tail _ (.tail _ (.tail _ (.head _))))))
      | cons item items => cases isFalsy
  | obj fields =>
      cases fields with
      | nil => exact List.mem_of_mem_getLast? rfl
      | cons field fields => cases isFalsy

/-- They tell no exit code. -/
theorem no_exitCode_of_falsy :
    ∀ text ∈ falsyTexts, afterLast exitCodeMarker text = none := by
  decide

/-- What has passed for `value or ""` passes for the value. -/
theorem commandExitCode_str {value returncode : Json}
    (passed :
      ∃ code,
        commandExitCode python (python.strOr value []) returncode =
          .ok code) :
    ∃ code,
      commandExitCode python (python.str value) returncode = .ok code := by
  by_cases isTrue : isTruthy value = true
  · rw [PythonText.strOr, if_pos isTrue] at passed
    exact passed
  · have isFalsy := Bool.eq_false_iff.mpr isTrue
    rw [commandExitCode] at passed ⊢
    rw [no_exitCode_of_falsy _ (str_of_falsy isFalsy)]
    split
    · next error isError =>
      rw [isError] at passed
      exact passed
    · exact ⟨_, rfl⟩
    · exact ⟨_, rfl⟩

/-- The fields of a command are found where its outcome matches. -/
theorem commandMetadata_of_matched {toolName toolArgs : Json} {data : Record}
    {sourceSuccess : Bool} {outcome : ToolOutcome}
    (matched :
      toolMismatchReason python toolName toolArgs data sourceSuccess outcome =
        .ok none) :
    ∃ fields,
      commandMetadata python toolName toolArgs
          (python.str outcome.toolResult) outcome.toolSuccess
          (outcome.metadata.get "returncode") =
        .ok fields := by
  rw [commandMetadata]
  split
  · exact ⟨_, rfl⟩
  · next usesExec =>
    rw [toolMismatchReason] at matched
    split at matched
    · cases matched
    · obtain ⟨sourceTimeout, -, matched⟩ := Loops.bind_eq_ok.mp matched
      obtain ⟨replayTimeout, -, matched⟩ := Loops.bind_eq_ok.mp matched
      split at matched
      · cases matched
      · split at matched
        · cases matched
        · obtain ⟨sourceExit, -, matched⟩ := Loops.bind_eq_ok.mp matched
          obtain ⟨replayExit, isExit, -⟩ := Loops.bind_eq_ok.mp matched
          obtain ⟨code, isCode⟩ := commandExitCode_str ⟨_, isExit⟩
          rw [isCode]
          cases code with
          | none => exact ⟨_, rfl⟩
          | some code => exact ⟨_, rfl⟩

end ExitCodes

/-! ## Checkpoints -/

/-- The data of an action are a dictionary, or nothing. -/
def HasReadableData (action : Record) : Prop :=
  (dataOrEmpty action).isObj = true

section Checkpoints

variable (python : PythonText) (sourceParent : Text)

theorem checkpointAfterSpec_total {data : Json} (isObj : data.isObj = true) :
    ∃ spec, checkpointAfterSpec python sourceParent data = .ok spec := by
  cases data with
  | obj data =>
      rw [checkpointAfterSpec]
      split
      · exact ⟨_, rfl⟩
      · exact ⟨_, rfl⟩
      · exact ⟨_, rfl⟩
  | _ => cases isObj

theorem chainBack_total {actions : List Record} (chain : List Record)
    (readable : ∀ action ∈ actions, HasReadableData action) :
    ∃ specs, chainBack python sourceParent chain actions = .ok specs := by
  induction actions generalizing chain with
  | nil => exact ⟨_, rfl⟩
  | cons action earlier induction =>
      rw [List.forall_mem_cons] at readable
      obtain ⟨spec, isSpec⟩ :=
        checkpointAfterSpec_total python sourceParent readable.1
      rw [chainBack, isSpec]
      cases spec with
      | none => exact induction chain readable.2
      | some spec =>
          dsimp only
          split
          · exact induction (spec :: chain) readable.2
          · exact ⟨_, rfl⟩

theorem fallbackBack_total {actions : List (Record × Nat)}
    (readable : ∀ item ∈ actions, HasReadableData item.1) :
    ∃ index, fallbackBack python sourceParent actions = .ok index := by
  induction actions with
  | nil => exact ⟨_, rfl⟩
  | cons item earlier induction =>
      obtain ⟨action, index⟩ := item
      rw [List.forall_mem_cons] at readable
      obtain ⟨spec, isSpec⟩ :=
        checkpointAfterSpec_total python sourceParent readable.1
      rw [fallbackBack, isSpec]
      cases spec with
      | none => exact induction readable.2
      | some spec => exact ⟨_, rfl⟩

theorem checkpointChain_total {session : CloudModelSession}
    (readable : ∀ action ∈ session.actions, HasReadableData action)
    (targetIndex : Nat) :
    ∃ specs,
      checkpointChainSpecsForAction python session targetIndex =
        .ok specs := by
  rw [checkpointChainSpecsForAction]
  split
  · exact ⟨_, rfl⟩
  · next target isTarget =>
    obtain ⟨spec, isSpec⟩ :=
      checkpointAfterSpec_total python session.sourceParent
        (readable target (List.mem_of_getElem? isTarget))
    rw [isSpec]
    cases spec with
    | none => exact ⟨_, rfl⟩
    | some spec =>
        dsimp only
        split
        · exact ⟨_, rfl⟩
        · refine chainBack_total python _ [] fun action member => ?_
          exact
            readable action
              (List.mem_of_mem_take (List.mem_reverse.mp member))

/-- Where all data can be read, the synchronisation raises nothing. -/
theorem forcedSync_total {session : CloudModelSession} (calls : ReplayCalls)
    (readable : ∀ action ∈ session.actions, HasReadableData action)
    (index : Nat) (data : Record) :
    ∃ fields, forcedSync calls python session index data = .ok fields := by
  obtain ⟨spec, isSpec⟩ :=
    checkpointAfterSpec_total python session.sourceParent
      (rfl : (Json.obj data).isObj = true)
  rw [forcedSync]
  cases spec with
  | some spec =>
      obtain ⟨chain, isChain⟩ := checkpointChain_total python readable index
      exact
        ⟨_, Loops.bind_eq_ok.mpr
          ⟨_, isSpec, Loops.bind_eq_ok.mpr ⟨chain, isChain, rfl⟩⟩⟩
  | none =>
      have readableBefore :
          ∀ item ∈ (session.actions.zipIdx.take index).reverse,
            HasReadableData item.1 := by
        intro item member
        have isItem := List.mem_of_mem_take (List.mem_reverse.mp member)
        exact readable _ (List.fst_mem_of_mem_zipIdx isItem)
      obtain ⟨earlier, isEarlier⟩ :=
        fallbackBack_total python session.sourceParent readableBefore
      cases earlier with
      | none =>
          exact
            ⟨_, Loops.bind_eq_ok.mpr
              ⟨_, isSpec, Loops.bind_eq_ok.mpr ⟨_, isEarlier, rfl⟩⟩⟩
      | some earlier =>
          obtain ⟨chain, isChain⟩ :=
            checkpointChain_total python readable earlier
          exact
            ⟨_, Loops.bind_eq_ok.mpr
              ⟨_, isSpec, Loops.bind_eq_ok.mpr
                ⟨_, isEarlier,
                  Loops.bind_eq_ok.mpr ⟨chain, isChain, rfl⟩⟩⟩⟩

end Checkpoints

/-! ## Forced synchronisation -/

namespace ForcedSyncFields

/-- What has been continued has succeeded, and has been attempted. -/
structure Ordered (fields : ForcedSyncFields) : Prop where
  continued : fields.continued = some true → fields.success = some true
  success : fields.success = some true → fields.attempted = true

variable {fields : ForcedSyncFields}

theorem failed_ordered (fields : ForcedSyncFields) (status : String) :
    (fields.failed status).Ordered :=
  ⟨nofun, nofun⟩

theorem Ordered.withDefaults (ordered : fields.Ordered) :
    fields.withDefaults.Ordered := by
  obtain ⟨attempted, success, continued, status⟩ := fields
  constructor
  · intro isContinued
    cases continued with
    | some continued =>
        have succeeded := ordered.continued isContinued
        dsimp only at succeeded
        subst succeeded
        rfl
    | none =>
        have both := Option.some.inj isContinued
        rw [Option.getD_none, Bool.and_eq_true, decide_eq_true_eq] at both
        have succeeded := both.1
        dsimp only at succeeded
        subst succeeded
        rfl
  · intro isSuccess
    refine ordered.success ?_
    cases success with
    | none => exact absurd (Option.some.inj isSuccess) Bool.false_ne_true
    | some success => exact isSuccess

end ForcedSyncFields

theorem restoreChain_ordered {calls : ReplayCalls}
    {chain : Option (List Record)} {fields restored : ForcedSyncFields}
    (attempted : fields.attempted = true)
    (isRestored : restoreChain calls chain fields = .ok restored) :
    restored.Ordered := by
  rw [restoreChain.eq_def] at isRestored
  split at isRestored
  · cases isRestored
    exact fields.failed_ordered _
  · cases isRestored
    exact fields.failed_ordered _
  · split at isRestored
    · cases isRestored
    · cases isRestored
      exact fields.failed_ordered _
    · cases isRestored
      exact ⟨fun _ => rfl, fun _ => attempted⟩

theorem reapplyActions_ordered {calls : ReplayCalls} {isFallback : Bool}
    {fields : ForcedSyncFields} {applied : ForcedSyncFields × Bool}
    (ordered : fields.Ordered)
    (isApplied : reapplyActions calls isFallback fields = .ok applied) :
    applied.1.Ordered := by
  rw [reapplyActions] at isApplied
  split at isApplied
  · cases isApplied
    exact ordered
  · split at isApplied
    · cases isApplied
    · split at isApplied
      · cases isApplied
      · cases isApplied
        dsimp only
        split
        · exact fields.failed_ordered _
        · exact ordered

theorem syncWithChain_ordered (calls : ReplayCalls)
    (chain : Option (List Record)) (isFallback : Bool)
    {fields : ForcedSyncFields} (attempted : fields.attempted = true) :
    (syncWithChain calls chain isFallback fields).Ordered := by
  rw [syncWithChain]
  dsimp only
  split
  · next synced isSynced =>
    refine ForcedSyncFields.Ordered.withDefaults ?_
    obtain ⟨restored, isRestored, isSynced⟩ := Loops.bind_eq_ok.mp isSynced
    obtain ⟨applied, isApplied, isSynced⟩ := Loops.bind_eq_ok.mp isSynced
    have ordered :=
      reapplyActions_ordered (restoreChain_ordered attempted isRestored)
        isApplied
    split at isSynced
    · cases isSynced
      rw [verifyRestore]
      split
      · exact applied.1.failed_ordered _
      · exact ordered
    · cases isSynced
      exact ordered
  · exact (fields.failed_ordered _).withDefaults

theorem forcedSync_ordered {python : PythonText}
    {session : CloudModelSession} {calls : ReplayCalls} {index : Nat}
    {data : Record} {fields : ForcedSyncFields}
    (isSynced : forcedSync calls python session index data = .ok fields) :
    fields.Ordered := by
  rw [forcedSync] at isSynced
  obtain ⟨spec, -, isSynced⟩ := Loops.bind_eq_ok.mp isSynced
  cases spec with
  | some spec =>
      obtain ⟨chain, -, isSynced⟩ := Loops.bind_eq_ok.mp isSynced
      cases isSynced
      exact syncWithChain_ordered calls chain false rfl
  | none =>
      obtain ⟨earlier, -, isSynced⟩ := Loops.bind_eq_ok.mp isSynced
      cases earlier with
      | none =>
          cases isSynced
          exact ForcedSyncFields.failed_ordered _ _
      | some earlier =>
          obtain ⟨chain, -, isSynced⟩ := Loops.bind_eq_ok.mp isSynced
          cases isSynced
          exact syncWithChain_ordered calls chain true rfl

/-! ## After the count of a matched failure -/

section Loop

variable {python : PythonText} {session : CloudModelSession}

/-- What a judgement has found out. -/
theorem judgeOutcome_ok {calls : ReplayCalls} {action data : Record}
    {toolName toolArgs : Json} {sourceSuccess : Bool}
    {outcome : ToolOutcome} {judgement : Judgement}
    (isJudged :
      judgeOutcome python session calls action data toolName toolArgs
          sourceSuccess outcome =
        .ok judgement) :
    toolMismatchReason python toolName toolArgs data sourceSuccess outcome =
        .ok judgement.mismatch ∧
      (toolUsesExecSemantics toolName toolArgs = true →
        judgement.normalizedOutputMatch ≠ none) := by
  rw [judgeOutcome] at isJudged
  obtain ⟨mismatch, isMismatch, isJudged⟩ := Loops.bind_eq_ok.mp isJudged
  obtain ⟨spec, -, isJudged⟩ := Loops.bind_eq_ok.mp isJudged
  obtain ⟨effective, -, isJudged⟩ := Loops.bind_eq_ok.mp isJudged
  split at isJudged
  · cases isJudged
  · cases isJudged
    refine ⟨isMismatch, fun usesExec => ?_⟩
    rw [if_pos usesExec]
    exact Option.some_ne_none _

/-- Nothing raises once a matched failure is counted. -/
theorem endTool_total {calls : ReplayCalls} (index : Nat)
    {action data : Record} {toolName toolArgs : Json} {sourceSuccess : Bool}
    {outcome : ToolOutcome} {judgement : Judgement}
    (readable : ∀ action ∈ session.actions, HasReadableData action)
    (isJudged :
      judgeOutcome python session calls action data toolName toolArgs
          sourceSuccess outcome =
        .ok judgement)
    (matched : judgement.mismatch = none) :
    ∃ fields,
      endTool python session calls index action data toolName toolArgs
          outcome judgement =
        .ok fields := by
  obtain ⟨isMismatch, hasOutput⟩ := judgeOutcome_ok isJudged
  rw [matched] at isMismatch
  obtain ⟨metadata, isMetadata⟩ := commandMetadata_of_matched isMismatch
  have isRecorded :
      recordTool python toolName toolArgs outcome
          judgement.normalizedOutputMatch =
        .ok metadata := by
    refine Loops.bind_eq_ok.mpr ⟨metadata, isMetadata, if_neg ?_⟩
    rintro ⟨usesExec, isNone⟩
    exact hasOutput usesExec isNone
  rw [endTool]
  split
  · obtain ⟨fields, isSynced⟩ :=
      forcedSync_total python calls readable index data
    exact
      ⟨fields, Loops.bind_eq_ok.mpr
        ⟨fields, isSynced, Loops.bind_eq_ok.mpr ⟨_, isRecorded, rfl⟩⟩⟩
  · exact
      ⟨_, Loops.bind_eq_ok.mpr
        ⟨_, rfl, Loops.bind_eq_ok.mpr ⟨_, isRecorded, rfl⟩⟩⟩

theorem endTool_ordered {calls : ReplayCalls} {index : Nat}
    {action data : Record} {toolName toolArgs : Json}
    {outcome : ToolOutcome} {judgement : Judgement}
    {fields : ForcedSyncFields}
    (isEnd :
      endTool python session calls index action data toolName toolArgs
          outcome judgement =
        .ok fields) :
    fields.Ordered := by
  rw [endTool] at isEnd
  split at isEnd
  · obtain ⟨synced, isSynced, isEnd⟩ := Loops.bind_eq_ok.mp isEnd
    obtain ⟨recorded, -, isEnd⟩ := Loops.bind_eq_ok.mp isEnd
    cases isEnd
    exact forcedSync_ordered isSynced
  · obtain ⟨synced, isSynced, isEnd⟩ := Loops.bind_eq_ok.mp isEnd
    obtain ⟨recorded, -, isEnd⟩ := Loops.bind_eq_ok.mp isEnd
    cases isEnd
    cases isSynced
    exact ⟨nofun, nofun⟩

end Loop

/-! ## Counters -/

namespace ReplayCounters

/-- The counters each of which is for one kind of end. -/
def partition (counters : ReplayCounters) : Nat :=
  counters.succeeded + counters.matchedFailed + counters.outcomeMismatches +
    counters.replayActionErrors

/-- What is counted in two counters is counted in the wider one too. -/
structure Consistent (counters : ReplayCounters) : Prop where
  continued : counters.forcedSyncContinued ≤ counters.forcedSyncSuccesses
  successes : counters.forcedSyncSuccesses ≤ counters.forcedSyncAttempts
  unresolved : counters.unresolvedMismatches ≤ counters.outcomeMismatches
  fatal : counters.fatalReplayErrors ≤ counters.outcomeMismatches

variable {counters : ReplayCounters}

theorem Consistent.withSource (consistent : counters.Consistent)
    (sourceSuccess : Bool) : (counters.withSource sourceSuccess).Consistent :=
  ⟨consistent.continued, consistent.successes, consistent.unresolved,
    consistent.fatal⟩

theorem Consistent.withReplay (consistent : counters.Consistent)
    (toolSuccess : Bool) : (counters.withReplay toolSuccess).Consistent :=
  ⟨consistent.continued, consistent.successes, consistent.unresolved,
    consistent.fatal⟩

theorem Consistent.withMatched (consistent : counters.Consistent)
    (toolSuccess matched : Bool) :
    (counters.withMatched toolSuccess matched).Consistent :=
  ⟨consistent.continued, consistent.successes, consistent.unresolved,
    consistent.fatal⟩

theorem Consistent.raised (consistent : counters.Consistent) :
    (IterationEnd.raised counters).counters.Consistent :=
  ⟨consistent.continued, consistent.successes, consistent.unresolved,
    consistent.fatal⟩

theorem Consistent.withForcedSync (consistent : counters.Consistent)
    {fields : ForcedSyncFields} (ordered : fields.Ordered) :
    (counters.withForcedSync fields).Consistent where
  continued := by
    refine Nat.add_le_add consistent.continued (Bool.toNat_le_toNat ?_)
    intro isContinued
    rw [beq_iff_eq] at isContinued ⊢
    exact ordered.continued isContinued
  successes := by
    refine Nat.add_le_add consistent.successes (Bool.toNat_le_toNat ?_)
    intro isSuccess
    rw [beq_iff_eq] at isSuccess
    exact ordered.success isSuccess
  unresolved := consistent.unresolved
  fatal := consistent.fatal

theorem Consistent.withOutcome (consistent : counters.Consistent)
    (matched toolSuccess continued : Bool) (source : ReplaySource) :
    (counters.withOutcome matched toolSuccess continued source).Consistent := by
  rw [ReplayCounters.withOutcome]
  split
  · exact
      ⟨consistent.continued, consistent.successes, consistent.unresolved,
        consistent.fatal⟩
  · exact
      { continued := consistent.continued
        successes := consistent.successes
        unresolved :=
          Nat.add_le_add consistent.unresolved (Bool.toNat_le _)
        fatal := Nat.add_le_add consistent.fatal (Bool.toNat_le _) }

/-- A matched failure is counted at once, any other outcome at the end. -/
theorem partition_outcome (fields : ForcedSyncFields)
    (matched toolSuccess continued : Bool) (source : ReplaySource) :
    (((counters.withMatched toolSuccess matched).withForcedSync
          fields).withOutcome matched toolSuccess continued source).partition =
      counters.partition + 1 := by
  rw [withOutcome]
  cases matched
  · cases toolSuccess <;> simp [partition, withForcedSync, withMatched] <;> omega
  · cases toolSuccess <;> simp [partition, withForcedSync, withMatched] <;> omega

theorem partition_unmatched (counters : ReplayCounters)
    (toolSuccess : Bool) :
    (counters.withMatched toolSuccess false).partition =
      counters.partition := by
  simp [withMatched, partition]

theorem partition_raised (counters : ReplayCounters) :
    (IterationEnd.raised counters).counters.partition =
      counters.partition + 1 :=
  rfl

end ReplayCounters

/-! ## Iterations -/

/-- `str(action.get("action_type", ""))` -/
def actionType (python : PythonText) (action : Record) : Text :=
  python.str (getOr action "action_type" (.str ""))

def IsLlmCall (python : PythonText) (action : Record) : Prop :=
  actionType python action = "llm_call".toList

def IsToolExec (python : PythonText) (action : Record) : Prop :=
  actionType python action = "tool_exec".toList

/-- The tool of the action, if its data can be asked for one. -/
def toolName? (action : Record) : Option Json :=
  match actionData action with
  | .obj data => some (Record.get data "tool_name")
  | _ => none

instance (python : PythonText) (action : Record) :
    Decidable (IsLlmCall python action) :=
  inferInstanceAs (Decidable (_ = _))

instance (python : PythonText) (action : Record) :
    Decidable (IsToolExec python action) :=
  inferInstanceAs (Decidable (_ = _))

theorem toolName?_eq_none {action : Record} :
    toolName? action = none ↔ ¬ (actionData action).isObj = true := by
  rw [toolName?]
  split
  · next data isData =>
    rw [isData]
    exact ⟨nofun, fun noObject => absurd rfl noObject⟩
  · next noDictionary =>
    refine iff_of_true rfl fun isObject => ?_
    cases isData : actionData action with
    | obj data => exact noDictionary data isData
    | _ =>
        rw [isData] at isObject
        cases isObject

/-- Is the action the execution of a tool that has a name? -/
def IsNamedTool (python : PythonText) (action : Record) : Prop :=
  IsToolExec python action ∧ (toolName? action).any isTruthy = true

instance (python : PythonText) (action : Record) :
    Decidable (IsNamedTool python action) :=
  inferInstanceAs (Decidable (_ ∧ _))

/-- The data of a tool execution are no dictionary. -/
def HasNoTool (python : PythonText) (action : Record) : Prop :=
  IsToolExec python action ∧ toolName? action = none

instance (python : PythonText) (action : Record) :
    Decidable (HasNoTool python action) :=
  inferInstanceAs (Decidable (_ ∧ _))

section Iterations

variable {python : PythonText} {session : CloudModelSession}
variable {counters : ReplayCounters}

/-- The tool branch counts its action once. -/
theorem replayTool_counts
    (readable : ∀ action ∈ session.actions, HasReadableData action)
    (consistent : counters.Consistent) (index : Nat) (action data : Record)
    (toolName : Json) (calls : ReplayCalls) :
    let after :=
      (replayTool python session index action data toolName calls
        counters).counters
    after.partition = counters.partition + 1 ∧ after.Consistent := by
  rw [replayTool]
  dsimp only
  split
  · exact ⟨rfl, consistent.raised⟩
  · next sourceSuccess isSource =>
    split
    · exact ⟨rfl, consistent.raised⟩
    · have sourceCounted := consistent.withSource sourceSuccess
      split
      · exact ⟨rfl, sourceCounted.raised⟩
      · next outcome isOutcome =>
        have replayCounted := sourceCounted.withReplay outcome.toolSuccess
        split
        · exact ⟨rfl, replayCounted.raised⟩
        · next judgement isJudged =>
          have matchedCounted :=
            replayCounted.withMatched outcome.toolSuccess
              (judgement.mismatch = none)
          split
          · next error isError =>
            -- a matched failure has been counted, and cannot come here
            have notMatched : judgement.mismatch ≠ none := by
              intro matched
              obtain ⟨fields, isEnd⟩ :=
                endTool_total index readable isJudged matched
              exact nomatch isEnd.symm.trans isError
            refine ⟨?_, matchedCounted.raised⟩
            rw [ReplayCounters.partition_raised, decide_eq_false notMatched,
              ReplayCounters.partition_unmatched]
            rfl
          · next fields isEnd =>
            exact
              ⟨ReplayCounters.partition_outcome fields _ _ _ _,
                (matchedCounted.withForcedSync
                  (endTool_ordered isEnd)).withOutcome _ _ _ _⟩

/-- What an action adds to the counters that are one for each end. -/
def addedBy (python : PythonText) (action : Record) : Nat :=
  (decide (IsLlmCall python action)).toNat +
    (decide (IsNamedTool python action)).toNat +
    (decide (HasNoTool python action)).toNat

theorem not_llmCall {action : Record} (isExec : IsToolExec python action) :
    ¬ IsLlmCall python action := by
  intro isLlm
  exact absurd (isLlm.symm.trans isExec) (by decide)

theorem addedBy_notTool {action : Record}
    (notExec : ¬ IsToolExec python action) :
    addedBy python action = (decide (IsLlmCall python action)).toNat := by
  have notNamed : ¬ IsNamedTool python action := fun named => notExec named.1
  have hasTool : ¬ HasNoTool python action := fun noTool => notExec noTool.1
  rw [addedBy, decide_eq_false notNamed, decide_eq_false hasTool]
  rfl

theorem addedBy_tool {action data : Record}
    (isExec : IsToolExec python action)
    (isData : actionData action = .obj data) :
    addedBy python action =
      (isTruthy (Record.get data "tool_name")).toNat := by
  have isName : toolName? action = some (Record.get data "tool_name") := by
    rw [toolName?, isData]
  have hasTool : ¬ HasNoTool python action :=
    fun noTool => nomatch noTool.2.symm.trans isName
  have isNamed :
      IsNamedTool python action ↔
        isTruthy (Record.get data "tool_name") = true := by
    rw [IsNamedTool, isName, Option.any_some]
    exact and_iff_right isExec
  rw [addedBy, decide_eq_false (not_llmCall isExec),
    decide_eq_false hasTool, Bool.toNat_false, Nat.zero_add, Nat.add_zero]
  simp only [isNamed, Bool.decide_eq_true]

theorem addedBy_noTool {action : Record} (isExec : IsToolExec python action)
    (noName : toolName? action = none) : addedBy python action = 1 := by
  have notNamed : ¬ IsNamedTool python action := by
    rintro ⟨-, named⟩
    rw [noName] at named
    cases named
  have noTool : HasNoTool python action := ⟨isExec, noName⟩
  rw [addedBy, decide_eq_false (not_llmCall isExec),
    decide_eq_false notNamed, decide_eq_true noTool]
  rfl

/-- The body of the `try` statement counts what is to be counted. -/
theorem replayBody_counts
    (readable : ∀ action ∈ session.actions, HasReadableData action)
    (consistent : counters.Consistent) (index : Nat) (action : Record)
    (calls : ReplayCalls) :
    let after :=
      (replayBody python session index action calls counters).counters
    after.partition = counters.partition + addedBy python action ∧
      after.Consistent := by
  rw [replayBody]
  dsimp only
  split
  · next isLlm =>
    have notExec : ¬ IsToolExec python action :=
      fun isExec => not_llmCall isExec isLlm
    rw [addedBy_notTool notExec,
      decide_eq_true (show IsLlmCall python action from isLlm),
      Bool.toNat_true]
    split
    · exact ⟨rfl, consistent.raised⟩
    · refine ⟨?_, consistent.continued, consistent.successes,
        consistent.unresolved, consistent.fatal⟩
      simp only [IterationEnd.counters, ReplayCounters.partition]
      omega
  · next notLlm =>
    split
    · next notExec =>
      rw [addedBy_notTool notExec,
        decide_eq_false (show ¬ IsLlmCall python action from notLlm)]
      exact ⟨rfl, consistent⟩
    · next isExec =>
      rw [not_not] at isExec
      split
      · next data isData =>
        rw [addedBy_tool isExec isData]
        split
        · next unnamed =>
          rw [Bool.eq_false_iff.mpr unnamed]
          exact ⟨rfl, consistent⟩
        · next named =>
          rw [not_not] at named
          rw [named]
          exact replayTool_counts readable consistent index action data _ calls
      · next noDictionary =>
        have noName : toolName? action = none := by
          rw [toolName?]
          split
          · next data isData => exact absurd isData (noDictionary data)
          · rfl
        rw [addedBy_noTool isExec noName]
        exact ⟨rfl, consistent.raised⟩

end Iterations

/-! ## Sessions -/

section Sessions

variable {python : PythonText} {session : CloudModelSession}
variable {calls : Nat → ReplayCalls} {counters : ReplayCounters}

/-- A session that ends has data that can be asked for a checkpoint. -/
theorem readable_of_ended
    (ended : replayCloudModelSession python session calls = .ok counters) :
    ∀ action ∈ session.actions, HasReadableData action := by
  have readable :
      ∀ item ∈ session.actions.zipIdx, HasReadableData item.1 := by
    refine
      Loops.foldlM_invariant _
        (fun visited _ => ∀ item ∈ visited, HasReadableData item.1) nofun ?_
        ended
    intro visited item member state next holds replayed
    rw [replayAction] at replayed
    split at replayed
    · cases replayed
    · obtain ⟨_, isReadable, -⟩ := Loops.bind_eq_ok.mp replayed
      intro other otherMember
      rcases List.mem_append.mp otherMember with before | isLast
      · exact holds other before
      · rw [List.mem_singleton] at isLast
        subst isLast
        rw [excludedOverhead.eq_def] at isReadable
        rw [HasReadableData]
        split at isReadable
        · next fields isFields =>
          rw [isFields]
          rfl
        · cases isReadable
  intro action member
  obtain ⟨index, isAt⟩ := List.getElem?_of_mem member
  exact readable (action, index) (List.mk_mem_zipIdx_iff_getElem?.mpr isAt)

/-- A session that ends has counted what its actions add. -/
theorem session_counts
    (ended : replayCloudModelSession python session calls = .ok counters) :
    counters.partition = (session.actions.map (addedBy python)).sum ∧
      counters.Consistent := by
  have readable := readable_of_ended ended
  have counted :=
    Loops.foldlM_invariant _
      (fun visited (counters : ReplayCounters) =>
        counters.partition =
            (visited.map fun item => addedBy python item.1).sum ∧
          counters.Consistent)
      ⟨rfl, Nat.le_refl 0, Nat.le_refl 0, Nat.le_refl 0, Nat.le_refl 0⟩
      ?_ ended
  · obtain ⟨isSum, consistent⟩ := counted
    have sameActions :
        (session.actions.zipIdx.map fun item => addedBy python item.1) =
          session.actions.map (addedBy python) :=
      List.map_map.symm.trans
        (congrArg (List.map (addedBy python))
          (List.zipIdx_map_fst 0 session.actions))
    exact ⟨isSum.trans (congrArg List.sum sameActions), consistent⟩
  · rintro visited item - before after ⟨isSum, consistent⟩ replayed
    rw [replayAction] at replayed
    split at replayed
    · cases replayed
    · obtain ⟨-, -, replayed⟩ := Loops.bind_eq_ok.mp replayed
      cases replayed
      obtain ⟨counts, kept⟩ :=
        replayBody_counts readable consistent item.2 item.1 (calls item.2)
      refine ⟨?_, kept⟩
      rw [counts, isSum, List.map_append, List.sum_append, List.map_singleton,
        List.sum_singleton]

/-- The accounts of a session that has ended. -/
structure AddsUp (python : PythonText) (actions : List Record)
    (counters : ReplayCounters) : Prop where
  partition :
    actions.countP (fun action => IsLlmCall python action) +
        actions.countP (fun action => IsNamedTool python action) =
      counters.succeeded + counters.matchedFailed +
        counters.outcomeMismatches + counters.replayActionErrors
  continued : counters.forcedSyncContinued ≤ counters.forcedSyncSuccesses
  successes : counters.forcedSyncSuccesses ≤ counters.forcedSyncAttempts
  unresolved : counters.unresolvedMismatches ≤ counters.outcomeMismatches
  success :
    counters.success = true ↔
      counters.outcomeMismatches = 0 ∧ counters.replayActionErrors = 0

theorem sum_toNat (test : Record → Bool) (actions : List Record) :
    (actions.map fun action => (test action).toNat).sum =
      actions.countP test := by
  induction actions with
  | nil => rfl
  | cons action actions induction =>
      rw [List.map_cons, List.sum_cons, induction, List.countP_cons]
      cases test action with
      | false => exact Nat.zero_add _
      | true => exact Nat.add_comm 1 _

/-- The actions that have no tool are counted, and are none of the two. -/
theorem sum_addedBy (python : PythonText) (actions : List Record) :
    (actions.map (addedBy python)).sum =
      actions.countP (fun action => IsLlmCall python action) +
          actions.countP (fun action => IsNamedTool python action) +
        actions.countP (fun action => HasNoTool python action) := by
  rw [← sum_toNat, ← sum_toNat, ← sum_toNat, ← List.sum_map_add,
    ← List.sum_map_add]
  rfl

theorem success_iff (consistent : counters.Consistent) :
    counters.success = true ↔
      counters.outcomeMismatches = 0 ∧ counters.replayActionErrors = 0 := by
  have fatal := consistent.fatal
  rw [ReplayCounters.success, ReplayCounters.failedActions,
    Bool.and_eq_true, beq_iff_eq, beq_iff_eq]
  omega

/--
The accounts of a session that ends add up exactly when the data of each tool
execution are a dictionary.
-/
theorem addsUp_iff
    (ended : replayCloudModelSession python session calls = .ok counters) :
    AddsUp python session.actions counters ↔
      ∀ action ∈ session.actions, IsToolExec python action →
        (actionData action).isObj = true := by
  obtain ⟨isSum, consistent⟩ := session_counts ended
  rw [sum_addedBy] at isSum
  have noneLost :
      session.actions.countP (fun action => HasNoTool python action) = 0 ↔
        ∀ action ∈ session.actions, IsToolExec python action →
          (actionData action).isObj = true := by
    rw [List.countP_eq_zero]
    refine forall₂_congr fun action _ => ?_
    rw [decide_eq_true_eq, HasNoTool, not_and, toolName?_eq_none, not_not]
  rw [← noneLost]
  constructor
  · intro addsUp
    have isPartition := addsUp.partition
    rw [ReplayCounters.partition] at isSum
    omega
  · intro noneLost
    rw [noneLost, ReplayCounters.partition] at isSum
    exact
      { partition := isSum.symm
        continued := consistent.continued
        successes := consistent.successes
        unresolved := consistent.unresolved
        success := success_iff consistent }

end Sessions

/-! ## An action without data -/

/-- No value of the session has a text of its own, or is a number. -/
def plainPython : PythonText := ⟨fun _ => [], fun _ => none⟩

def quietCalls : ReplayCalls where
  startRaises := false
  llmRaises := false
  sourceRaises := false
  artifactRaises := false
  deniedCommand := none
  missingArtifact := none
  artifactMapped := false
  execution := none
  normalizedOutputMatch := true
  boundary := some none
  oracleRaises := false
  restore := .fails
  restoreVerificationRaises := false
  reapply := none
  verification := none

/-- A session of one tool execution, with these data. -/
def sessionWith (data : Json) : CloudModelSession where
  sourceAgentId := "agent".toList
  sourceParent := "/traces".toList
  hasContainer := false
  actions :=
    [[("agent_id", .str "agent"), ("action_type", .str "tool_exec"),
      ("data", data)]]

/-- The data of the action are `null`: an error is counted, and no tool. -/
theorem nullData_not_addsUp :
    ¬ ∀ (python : PythonText) (session : CloudModelSession)
        (calls : Nat → ReplayCalls) (counters : ReplayCounters),
      replayCloudModelSession python session calls = .ok counters →
        AddsUp python session.actions counters := by
  intro always
  have addsUp :=
    always plainPython (sessionWith .null) (fun _ => quietCalls)
      { replayActionErrors := 1 } rfl
  exact absurd addsUp.partition (by decide)

/-- A tool that is skipped without a container is counted. -/
theorem skippedTool_addsUp :
    AddsUp plainPython
      (sessionWith (.obj [("tool_name", .str "exec")])).actions
      { succeeded := 1 } :=
  (addsUp_iff
    (rfl :
      replayCloudModelSession plainPython
          (sessionWith (.obj [("tool_name", .str "exec")]))
          (fun _ => quietCalls) =
        .ok { succeeded := 1 })).mpr (by decide)

end AgentSchedBench.Replay
