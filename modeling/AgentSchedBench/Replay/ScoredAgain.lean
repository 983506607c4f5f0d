import AgentSchedBench.Replay.ToolRecord

/-!
# Scoring a record again

The fields that the oracle reads are set once: where the outcome is known, in
the metadata of the call, or in the comparison of the manifests.  Nothing else
that is recorded has one of these names, so the oracle finds in the record what
it was asked about.
-/

namespace AgentSchedBench.Replay

open AgentSchedBench.Trace (Text Record isTruthy)
open AgentSchedBench.Trace.Record

/-! ## Names -/

/-- The names that the oracle reads. -/
def oracleNames : List String :=
  ["source_returncode", "replay_returncode", "returncode", "source_timed_out",
    "replay_timed_out", "timed_out", "normalized_output_match",
    "output_diff_snippet", "cas_manifest_match", "cas_modified_count",
    "cas_removed_count", "cas_added_count", "mismatch_reason"]

/-- The record has no name that the oracle reads. -/
structure Silent (record : Record) : Prop where
  avoids : ∀ name ∈ Record.names record, name ∉ oracleNames

section Names

variable {record fields : Record} {name key : String} {value : Json}

theorem Silent.update (silent : Silent record) (isSilent : Silent fields) :
    Silent (record.update fields) := by
  refine ⟨fun name member => ?_⟩
  have avoids : ∀ field ∈ record.update fields, field.1 ∉ oracleNames :=
    forall_update
      (fun field isField => silent.avoids field.1 (List.mem_map_of_mem isField))
      (fun field isField => isSilent.avoids field.1 (List.mem_map_of_mem isField))
  obtain ⟨field, inUpdate, rfl⟩ := List.mem_map.mp member
  exact avoids field inUpdate

theorem Silent.withField (silent : Silent record) (other : name ∉ oracleNames) :
    Silent (record.withField name value) := by
  refine ⟨fun found member => ?_⟩
  rw [names_withField] at member
  split at member
  · exact silent.avoids found member
  · rcases List.mem_append.mp member with old | new
    · exact silent.avoids found old
    · rw [List.mem_singleton.mp new]
      exact other

theorem Silent.setIf (silent : Silent record) (other : name ∉ oracleNames)
    (value : Option Json) : Silent (record.setIf name value) := by
  cases value with
  | none => exact silent
  | some value => exact silent.withField other

theorem Silent.setDefault (silent : Silent record) (other : name ∉ oracleNames) :
    Silent (record.setDefault name value) := by
  rw [Record.setDefault]
  split
  · exact silent
  · refine ⟨fun found member => ?_⟩
    rw [names, List.map_append] at member
    rcases List.mem_append.mp member with old | new
    · exact silent.avoids found old
    · rw [List.mem_singleton.mp new]
      exact other

theorem Silent.fieldOf (silent : Silent record) (isOracle : key ∈ oracleNames) :
    fieldOf record key = none := by
  rw [← Option.not_isSome_iff_eq_none, fieldOf_isSome]
  exact fun member => silent.avoids key member isOracle

theorem fieldOf_setIf_other (isOracle : key ∈ oracleNames)
    (other : name ∉ oracleNames) (value : Option Json) :
    fieldOf (record.setIf name value) key = fieldOf record key := by
  rw [fieldOf_setIf, if_neg]
  rintro rfl
  exact other isOracle

theorem fieldOf_update_silent (isOracle : key ∈ oracleNames)
    (silent : Silent fields) :
    fieldOf (record.update fields) key = fieldOf record key :=
  fieldOf_update fun member => silent.avoids key member isOracle

end Names

/-! ## Forced synchronisation -/

section Sync

variable {python : PythonText} {calls : ReplayCalls} {details : SyncDetails}

theorem silent_restoreBase (path kind root : String) (sizeBytes : Option Int) :
    Silent (checkpointRestoreBaseFields path kind root sizeBytes) := by
  refine Silent.setIf ?_ (by decide) _
  exact ⟨by simp [names, oracleNames]⟩

theorem silent_restoreFailed (path kind root status error : String)
    (elapsedMs : Json) (archiveExists : Option Bool) (sizeBytes : Option Int) :
    Silent (checkpointRestoreFailedFields path kind root status error elapsedMs
      archiveExists sizeBytes) := by
  refine Silent.setIf ((silent_restoreBase ..).update ?_) (by decide) _
  exact ⟨by simp [names, oracleNames]⟩

theorem silent_restored (spec : Record) :
    Silent (checkpointRestoredFields python details spec) := by
  refine (silent_restoreBase ..).update ?_
  exact ⟨by simp [names, oracleNames]⟩

theorem silent_chain (specs : List Record) :
    Silent (checkpointChainFields python details specs) := by
  exact ⟨by simp [names, oracleNames, checkpointChainFields]⟩

theorem silent_restoreResult {spec restored : Record}
    {chain : Option (List Record)}
    (isResult : restoreResult python calls details spec chain = some restored) :
    Silent restored := by
  match chain with
  | none =>
      rw [restoreResult, Option.some_inj] at isResult
      rw [← isResult]
      exact silent_restoreFailed ..
  | some [] =>
      rw [restoreResult, Option.some_inj] at isResult
      rw [← isResult]
      exact silent_restoreFailed ..
  | some (first :: rest) =>
      rw [restoreResult] at isResult
      dsimp only at isResult
      split at isResult
      · cases isResult
      · rw [Option.some_inj] at isResult
        rw [← isResult]
        exact (silent_restoreFailed ..).update (silent_chain _)
      · rw [Option.some_inj] at isResult
        rw [← isResult]
        exact (silent_restored _).update (silent_chain _)

theorem silent_verification (verified : Option Bool) :
    Silent (verificationFields details verified) := by
  cases verified <;> exact ⟨by simp [names, oracleNames, verificationFields, Record.setIf]⟩

theorem silent_failed (status error : String) :
    Silent (syncFailedFields status error) := by
  exact ⟨by simp [names, oracleNames, syncFailedFields]⟩

theorem Silent.verifySync {fields : Record} (silent : Silent fields) :
    Silent (verifySync calls details fields) := by
  have isSilent : Silent (verificationFields details calls.verification) :=
    silent_verification calls.verification
  have verified := silent.update isSilent
  rw [Replay.verifySync]
  split
  · refine verified.update ?_
    exact ⟨by simp [names, oracleNames]⟩
  · exact verified

theorem Silent.reapplySync {fields : Record} (silent : Silent fields) :
    Silent (reapplySync calls details fields).1 := by
  rw [Replay.reapplySync]
  split
  · exact silent
  · have isSilent : Silent
        [("forced_sync_restore_verified", boolOrNull details.restoreVerified),
          ("forced_sync_restore_verification",
            .obj details.restoreVerification)] :=
      ⟨by simp [names, oracleNames]⟩
    have verified := silent.update isSilent
    dsimp only
    split
    · exact verified
    · next count failed _ =>
        have isReapplied : Silent (reapplyFields details count) :=
          ⟨by simp [names, oracleNames, reapplyFields]⟩
        have applied := verified.update isReapplied
        split
        · dsimp only
          exact applied.update (silent_failed ..)
        · split
          · dsimp only
            refine applied.update ?_
            exact ⟨by simp [names, oracleNames, unverifiableFields]⟩
          · dsimp only
            refine (applied.update ?_).verifySync
            exact ⟨by simp [names, oracleNames]⟩

theorem Silent.attemptSync {fields spec : Record} {chain : Option (List Record)}
    {isFallback : Bool} (silent : Silent fields) :
    Silent (attemptSync python calls details spec chain isFallback fields).1 := by
  rw [Replay.attemptSync]
  split
  · exact silent
  · next restored isResult =>
      have updated := silent.update (silent_restoreResult isResult)
      dsimp only
      split
      · exact updated
      · split
        · exact updated.reapplySync
        · exact updated.verifySync

theorem Silent.syncFields {fields spec : Record} {chain : Option (List Record)}
    {isFallback : Bool} (silent : Silent fields) :
    Silent (syncFields python calls details spec chain isFallback fields) := by
  have attempted : Silent
      (Replay.attemptSync python calls details spec chain isFallback fields).1 :=
    silent.attemptSync
  rw [Replay.syncFields]
  dsimp only
  refine (((Silent.setDefault ?_ (by decide)).withField (by decide)).setDefault
    (by decide)).setDefault (by decide) |>.withField (by decide)
  split
  · exact attempted.update (silent_failed ..)
  · exact attempted

/-- The fields of a synchronisation have no name that the oracle reads. -/
theorem silent_forcedSyncFields {session : CloudModelSession} {index : Nat}
    {data sync : Record} {reason : String} {laneInduced : Bool}
    (isSync : forcedSyncFields python calls details session index data reason
      laneInduced = .ok sync) : Silent sync := by
  obtain ⟨spec, _, isSync⟩ := Loops.bind_eq_ok.mp isSync
  cases spec with
  | some spec =>
      obtain ⟨chain, _, isSync⟩ := Loops.bind_eq_ok.mp isSync
      cases isSync
      refine Silent.syncFields (Silent.setIf ?_ (by decide) _)
      exact ⟨by simp [names, oracleNames]⟩
  | none =>
      obtain ⟨earlier, _, isSync⟩ := Loops.bind_eq_ok.mp isSync
      cases earlier with
      | none =>
          cases isSync
          refine Silent.setIf ?_ (by decide) _
          exact ⟨by simp [names, oracleNames]⟩
      | some earlier =>
          obtain ⟨spec, _, isSync⟩ := Loops.bind_eq_ok.mp isSync
          obtain ⟨chain, _, isSync⟩ := Loops.bind_eq_ok.mp isSync
          cases isSync
          refine Silent.syncFields (Silent.setIf ?_ (by decide) _)
          exact ⟨by simp [names, oracleNames]⟩

end Sync

/-! ## Metadata and manifests -/

/-- Each name once, and only these. -/
structure HasNames (allowed : List String) (record : Record) : Prop where
  distinct : (names record).Nodup
  only : ∀ name ∈ names record, name ∈ allowed

section HasNames

variable {allowed : List String} {record : Record} {name key : String}

theorem HasNames.withField (has : HasNames allowed record)
    (isAllowed : name ∈ allowed) (value : Json) :
    HasNames allowed (record.withField name value) := by
  refine ⟨nodup_withField has.distinct name value, fun found member => ?_⟩
  rw [names_withField] at member
  split at member
  · exact has.only found member
  · rcases List.mem_append.mp member with old | new
    · exact has.only found old
    · rw [List.mem_singleton.mp new]
      exact isAllowed

theorem HasNames.setIf (has : HasNames allowed record)
    (isAllowed : name ∈ allowed) (value : Option Json) :
    HasNames allowed (record.setIf name value) := by
  cases value with
  | none => exact has
  | some value => exact has.withField isAllowed value

theorem hasNames_nil : HasNames allowed ([] : Record) :=
  ⟨List.nodup_nil, nofun⟩

theorem HasNames.not_mem (has : HasNames allowed record) (other : key ∉ allowed) :
    key ∉ names record :=
  fun member => other (has.only key member)

end HasNames

/-- The names of metadata. -/
def metadataNames : List String :=
  ["returncode", "timed_out", "resource_timeout_policy",
    "resource_virtual_time_s", "resource_stall_s", "replay_denied_command"]

/-- The names of a comparison. -/
def casNames : List String :=
  ["cas_manifest_match", "cas_source_entries", "cas_replay_entries",
    "cas_modified_count", "cas_added_count", "cas_removed_count",
    "cas_modified_examples", "cas_mode_mismatch_count",
    "cas_mode_mismatch_examples"]

theorem hasNames_response (response : Record) :
    HasNames metadataNames (traceToolResponseMetadata response) :=
  ((((hasNames_nil.setIf (by decide) _).setIf (by decide) _).setIf
    (by decide) _).setIf (by decide) _).setIf (by decide) _

theorem hasNames_source (data : Record) :
    HasNames metadataNames (sourceToolExecMetadata data) := by
  rw [sourceToolExecMetadata]
  constructor
  · split <;> split <;> simp [names]
  · split <;> split <;> simp [names, metadataNames]

theorem hasNames_containerTool {calls : RecordedCalls} {data : Record}
    {sourceSuccess : Bool} {outcome : ToolOutcome}
    (ran : containerTool calls.toReplayCalls data sourceSuccess = .ok outcome) :
    HasNames metadataNames outcome.metadata := by
  rw [containerTool] at ran
  split at ran
  · cases ran
    exact (hasNames_source data).withField (by decide) _
  · split at ran
    · cases ran
    · split at ran
      · cases ran
        exact hasNames_nil
      · split at ran
        · cases ran
        · next execution isExecution =>
            cases ran
            rcases calls.fromResponse execution isExecution with empty | ⟨_, isMade⟩
            · dsimp only
              rw [empty]
              exact hasNames_nil
            · dsimp only
              rw [isMade]
              exact hasNames_response _

/-- The metadata of a call has the names of metadata. -/
theorem hasNames_runTool {python : PythonText} {session : CloudModelSession}
    {calls : RecordedCalls} {action data : Record} {toolName : Json}
    {sourceSuccess : Bool} {outcome : ToolOutcome}
    (ran : runTool python session calls.toReplayCalls action data toolName
      sourceSuccess = .ok outcome) : HasNames metadataNames outcome.metadata := by
  unfold runTool at ran
  dsimp only at ran
  split at ran
  · cases ran
    exact hasNames_nil
  · split at ran
    · cases ran
      exact hasNames_nil
    · split at ran
      · split at ran
        · cases ran
          exact hasNames_nil
        · split at ran
          · cases ran
            exact hasNames_nil
          · exact hasNames_containerTool ran
      · cases ran

theorem hasNames_casFields (calls : RecordedCalls) :
    HasNames casNames calls.casFields := by
  rw [RecordedCalls.casFields]
  split
  · rw [casManifestComparisonFields]
    refine ((HasNames.setIf ⟨?_, ?_⟩ (by decide) _).setIf (by decide) _).setIf
      (by decide) _
    · simp [names]
    · simp [names, casNames]
  · exact hasNames_nil

theorem silent_commandMetadata {python : PythonText} {toolName toolArgs : Json}
    {toolResult : Text} {toolSuccess : Bool} {returncode : Json} {command : Record}
    (isCommand : commandMetadata python toolName toolArgs toolResult toolSuccess
      returncode = .ok command) :
    Silent command ∧ (names command).Nodup := by
  rw [commandMetadata] at isCommand
  split at isCommand
  · cases isCommand
    exact ⟨⟨nofun⟩, List.nodup_nil⟩
  · split at isCommand
    · cases isCommand
    · cases isCommand
      exact ⟨⟨nofun⟩, List.nodup_nil⟩
    · cases isCommand
      exact ⟨⟨by simp [names, oracleNames]⟩, by simp [names]⟩

theorem silent_verdict (verdict : Option MismatchVerdict) :
    Silent (verdictFields verdict) := by
  cases verdict with
  | none => exact ⟨nofun⟩
  | some verdict => exact ⟨by simp [names, oracleNames, verdictFields]⟩

/-! ## What is found in the record -/

/-- The findings come from the calls that make them. -/
structure ToolFindings.Recorded (findings : ToolFindings) : Prop where
  metadata : HasNames metadataNames findings.outcome.metadata
  casFields : HasNames casNames findings.casFields
  sync : Silent findings.sync
  command : Silent findings.command
  distinct : (names findings.command).Nodup

section Lookup

variable {values : RecordValues} {data : Record} {toolName toolArgs : Json}
  {sourceSuccess isExec : Bool} {findings : ToolFindings} {key : String}

theorem ToolFindings.Recorded.nodup_extra (recorded : findings.Recorded) :
    (names (extraToolFields values data isExec findings)).Nodup := by
  have outcome : (names (outcomeFields values data isExec findings)).Nodup := by
    have codes := nodup_setIf (nodup_setIf (nodup_setIf (nodup_setIf
      (nodup_withField recorded.distinct "source_action_id"
        (.str values.actionId))
      "source_returncode" (intOnly (data.get "returncode")))
      "replay_returncode" (intOnly (findings.outcome.metadata.get "returncode")))
      "source_timed_out" (boolOnly (data.get "timed_out")))
      "replay_timed_out" (boolOnly (findings.outcome.metadata.get "timed_out"))
    exact nodup_setIf (nodup_setIf (nodup_setIf (nodup_setIf (nodup_setIf
      (nodup_setIf (nodup_update codes _) _ _) _ _) _ _) _ _) _ _) _ _
  exact nodup_setIf (nodup_setIf (nodup_setIf (nodup_setIf (nodup_setIf
    (nodup_update (nodup_update (nodup_update outcome _) _) _) _ _) _ _) _ _)
    _ _) _ _

/-- What the oracle reads of the record is what has been found out. -/
theorem ToolFindings.Recorded.fieldOf_toolData (recorded : findings.Recorded)
    (isOracle : key ∈ oracleNames) :
    fieldOf (toolData values data toolName toolArgs sourceSuccess isExec findings)
        key =
      fieldOf (((outcomeFields values data isExec findings).update
        findings.outcome.metadata).update findings.casFields) key := by
  have base : fieldOf
      [("tool_name", toolName),
        ("tool_args", toolArgs),
        ("tool_result", findings.outcome.toolResult),
        ("duration_ms", values.durationMs),
        ("success", .bool findings.outcome.toolSuccess),
        ("source_success", .bool sourceSuccess),
        ("replay_outcome_match", .bool findings.judgement.mismatch.isNone)]
      key = none :=
    Silent.fieldOf ⟨by simp [names, oracleNames]⟩ isOracle
  rw [toolData, fieldOf_setIf_other isOracle (by decide),
    fieldOf_update_silent isOracle ⟨by simp [names, oracleNames]⟩,
    fieldOf_update_distinct recorded.nodup_extra, base, Option.or_none,
    extraToolFields, fieldOf_setIf_other isOracle (by decide),
    fieldOf_setIf_other isOracle (by decide),
    fieldOf_setIf_other isOracle (by decide),
    fieldOf_setIf_other isOracle (by decide),
    fieldOf_setIf_other isOracle (by decide),
    fieldOf_update_silent isOracle recorded.sync]

/-- The fields that are set one by one, and no other. -/
theorem ToolFindings.Recorded.fieldOf_outcomeFields
    (recorded : findings.Recorded) (isOracle : key ∈ oracleNames) :
    fieldOf (outcomeFields values data isExec findings) key =
      if key = "source_returncode" then intOnly (data.get "returncode")
      else if key = "replay_returncode" then
        intOnly (findings.outcome.metadata.get "returncode")
      else if key = "source_timed_out" then boolOnly (data.get "timed_out")
      else if key = "replay_timed_out" then
        boolOnly (findings.outcome.metadata.get "timed_out")
      else if key = "output_diff_snippet" then
        findings.snippet.map fun text => .str (String.ofList text)
      else if key = "normalized_output_match" then
        findings.judgement.normalizedOutputMatch.map .bool
      else if key = "mismatch_reason" then
        findings.judgement.effective.map fun reason => .str reason.text
      else none := by
  have command : fieldOf findings.command key = none :=
    recorded.command.fieldOf isOracle
  have keeps (record : Record) :
      fieldOf (record.update (verdictFields findings.verdict)) key =
        fieldOf record key :=
    fieldOf_update_silent isOracle (silent_verdict _)
  simp only [oracleNames, List.mem_cons, List.not_mem_nil, or_false] at isOracle
  rcases isOracle with rfl | rfl | rfl | rfl | rfl | rfl | rfl | rfl | rfl | rfl |
    rfl | rfl | rfl <;>
  simp [outcomeFields, fieldOf_setIf, fieldOf_withField, keeps, command]

/-- A field that neither the metadata nor the manifests set. -/
theorem ToolFindings.Recorded.fieldOf_outcome (recorded : findings.Recorded)
    (isOracle : key ∈ oracleNames) (notMetadata : key ∉ metadataNames)
    (notCas : key ∉ casNames) :
    fieldOf (toolData values data toolName toolArgs sourceSuccess isExec findings)
        key =
      fieldOf (outcomeFields values data isExec findings) key := by
  rw [recorded.fieldOf_toolData isOracle,
    fieldOf_update (recorded.casFields.not_mem notCas),
    fieldOf_update (recorded.metadata.not_mem notMetadata)]

/-- A field of the metadata. -/
theorem ToolFindings.Recorded.fieldOf_metadata (recorded : findings.Recorded)
    (isKey : key = "returncode" ∨ key = "timed_out") :
    fieldOf (toolData values data toolName toolArgs sourceSuccess isExec findings)
        key =
      fieldOf findings.outcome.metadata key := by
  have isOracle : key ∈ oracleNames := by
    rcases isKey with rfl | rfl <;> decide
  have notCas : key ∉ casNames := by
    rcases isKey with rfl | rfl <;> decide
  have unset : fieldOf (outcomeFields values data isExec findings) key = none := by
    rw [recorded.fieldOf_outcomeFields isOracle]
    rcases isKey with rfl | rfl <;> simp
  rw [recorded.fieldOf_toolData isOracle,
    fieldOf_update (recorded.casFields.not_mem notCas),
    fieldOf_update_distinct recorded.metadata.distinct, unset, Option.or_none]

/-- A field of the manifests. -/
theorem ToolFindings.Recorded.fieldOf_casFields (recorded : findings.Recorded)
    (isOracle : key ∈ oracleNames) (isCas : key ∈ casNames) :
    fieldOf (toolData values data toolName toolArgs sourceSuccess isExec findings)
        key =
      fieldOf findings.casFields key := by
  have notMetadata : key ∉ metadataNames := by
    simp only [casNames, List.mem_cons, List.not_mem_nil, or_false] at isCas
    rcases isCas with rfl | rfl | rfl | rfl | rfl | rfl | rfl | rfl | rfl <;> decide
  have unset : fieldOf (outcomeFields values data isExec findings) key = none := by
    rw [recorded.fieldOf_outcomeFields isOracle]
    simp only [casNames, List.mem_cons, List.not_mem_nil, or_false] at isCas
    rcases isCas with rfl | rfl | rfl | rfl | rfl | rfl | rfl | rfl | rfl <;> simp
  rw [recorded.fieldOf_toolData isOracle,
    fieldOf_update_distinct recorded.casFields.distinct,
    fieldOf_update (recorded.metadata.not_mem notMetadata), unset, Option.or_none]

theorem intOnly_getD (value : Json) : (intOnly value).getD value = value := by
  cases value <;> rfl

theorem boolOnly_getD (value : Json) : (boolOnly value).getD value = value := by
  cases value <;> rfl

theorem intOnly_null {value : Json} (isInt : IsIntOrNull value) :
    (intOnly value).getD .null = value := by
  cases value <;> trivial

theorem boolOnly_null {value : Json} (isBool : IsBoolOrNull value) :
    (boolOnly value).getD .null = value := by
  cases value <;> trivial

/-- The signals of the record are those of the call. -/
theorem ToolFindings.Recorded.signalsOf_toolData (recorded : findings.Recorded)
    (isInt : IsIntOrNull (data.get "returncode"))
    (isBool : IsBoolOrNull (data.get "timed_out")) :
    signalsOf
        (toolData values data toolName toolArgs sourceSuccess isExec findings) =
      liveSignals data findings.outcome findings.judgement findings.snippet
        findings.casFields := by
  have cas (key : String) (isOracle : key ∈ oracleNames) (isCas : key ∈ casNames) :
      Record.get
          (toolData values data toolName toolArgs sourceSuccess isExec findings)
          key = findings.casFields.get key := by
    rw [Record.get, recorded.fieldOf_casFields isOracle isCas, Record.get]
  have metadata (key : String) (isKey : key = "returncode" ∨ key = "timed_out") :
      Record.get
          (toolData values data toolName toolArgs sourceSuccess isExec findings)
          key = findings.outcome.metadata.get key := by
    rw [Record.get, recorded.fieldOf_metadata isKey, Record.get]
  have set (key : String) (isOracle : key ∈ oracleNames)
      (notMetadata : key ∉ metadataNames) (notCas : key ∉ casNames) :
      fieldOf
          (toolData values data toolName toolArgs sourceSuccess isExec findings)
          key = _ :=
    (recorded.fieldOf_outcome isOracle notMetadata notCas).trans
      (recorded.fieldOf_outcomeFields isOracle)
  rw [signalsOf, liveSignals]
  congr 1
  · rw [Record.get, set _ (by decide) (by decide) (by decide), if_pos rfl]
    exact intOnly_null isInt
  · rw [getOr, set _ (by decide) (by decide) (by decide),
      metadata _ (Or.inl rfl)]
    exact intOnly_getD _
  · rw [Record.get, set _ (by decide) (by decide) (by decide)]
    exact boolOnly_null isBool
  · rw [getOr, set _ (by decide) (by decide) (by decide),
      metadata _ (Or.inr rfl)]
    exact boolOnly_getD _
  · rw [Record.get, set _ (by decide) (by decide) (by decide)]
    rfl
  · rw [Record.get, set _ (by decide) (by decide) (by decide)]
    rfl
  · exact cas _ (by decide) (by decide)
  · exact cas _ (by decide) (by decide)
  · exact cas _ (by decide) (by decide)
  · exact cas _ (by decide) (by decide)
  · rw [Record.get, set _ (by decide) (by decide) (by decide)]
    rfl

end Lookup

theorem silent_syncOfMismatch {python : PythonText} {session : CloudModelSession}
    {index : Nat} {data sync : Record} {isLane laneInduced : Bool}
    {calls : RecordedCalls} {effective : Option MismatchReason}
    (isSync : syncOfMismatch python session index data isLane calls effective
      laneInduced = .ok sync) : Silent sync := by
  unfold syncOfMismatch at isSync
  split at isSync
  · split at isSync
    · exact silent_forcedSyncFields isSync
    · cases isSync
      exact ⟨nofun⟩
  · cases isSync
    exact ⟨nofun⟩

/-- The oracle answers alike when it is asked about the record. -/
theorem replayedTool_scored_again {python : PythonText}
    {session : CloudModelSession} {index : Nat} {action data : Record}
    {toolName : Json} {calls : RecordedCalls} {verdict : Option MismatchVerdict}
    {written : Record}
    (isReplayed : replayedTool python session index action data toolName calls =
      .ok (verdict, written)) :
    verdictFromActionData written = .ok verdict := by
  obtain ⟨sourceSuccess, _, isReplayed⟩ := Loops.bind_eq_ok.mp isReplayed
  obtain ⟨_, _, isReplayed⟩ := Loops.bind_eq_ok.mp isReplayed
  obtain ⟨outcome, ran, isReplayed⟩ := Loops.bind_eq_ok.mp isReplayed
  obtain ⟨mismatch, _, isReplayed⟩ := Loops.bind_eq_ok.mp isReplayed
  obtain ⟨spec, _, isReplayed⟩ := Loops.bind_eq_ok.mp isReplayed
  obtain ⟨effective, _, isReplayed⟩ := Loops.bind_eq_ok.mp isReplayed
  dsimp only at isReplayed
  split at isReplayed
  · cases isReplayed
  · next answered =>
      obtain ⟨sync, isSync, isReplayed⟩ := Loops.bind_eq_ok.mp isReplayed
      obtain ⟨command, isCommand, isReplayed⟩ := Loops.bind_eq_ok.mp isReplayed
      cases isReplayed
      obtain ⟨isInt, isBool⟩ := signals_of_oracleVerdict answered
      obtain ⟨silentCommand, distinct⟩ := silent_commandMetadata isCommand
      rw [verdictFromActionData, ToolFindings.Recorded.signalsOf_toolData ?_ isInt
        isBool]
      · exact answered
      · refine ⟨hasNames_runTool ran, ?_, silent_syncOfMismatch isSync, silentCommand,
          distinct⟩
        dsimp only
        split
        · exact hasNames_casFields calls
        · exact hasNames_nil

/-- No value of the command has a text of its own. -/
def noTexts : PythonText := ⟨fun _ => [], fun _ => none⟩

/-- A command that has succeeded. -/
def commandData : Record :=
  [("tool_name", .str "exec"), ("tool_args", .obj [("command", .str "make")]),
    ("tool_result", .str "ok"), ("success", .bool true), ("returncode", .int 0),
    ("timed_out", .bool false)]

def commandAction : Record := [("agent_id", .str "a"), ("data", .obj commandData)]

def commandSession : CloudModelSession where
  sourceAgentId := "a".toList
  sourceParent := []
  hasContainer := true
  actions := [commandAction]

/-- The command fails when it is replayed. -/
def commandResponse : Record :=
  [("ok", .bool false), ("result", .str "no rule"), ("returncode", .int 2)]

def commandCalls : RecordedCalls where
  startRaises := false
  llmRaises := false
  sourceRaises := false
  artifactRaises := false
  deniedCommand := none
  missingArtifact := none
  artifactMapped := false
  execution :=
    some ⟨.str "no rule", false, traceToolResponseMetadata commandResponse⟩
  normalizedOutputMatch := false
  boundary := none
  oracleRaises := false
  restore := .fails
  restoreVerificationRaises := false
  reapply := none
  verification := none
  details := ⟨0, "", "", false, none, 0, .null, none, [], [], [], [], none, "", .null⟩
  values :=
    ⟨"call", .null, .null, "", .null, "", none, none, none, none, none, false, [],
      false, "", "", .null, none⟩
  manifests := none
  laneActive := false
  fromResponse := by
    rintro _ ⟨⟩
    exact Or.inr ⟨commandResponse, rfl⟩
  fromManifests := nofun

/-- The command is found to diverge, and so is its record. -/
theorem commandCall_scored_again :
    ∃ verdict written,
      replayedTool noTexts commandSession 0 commandAction commandData (.str "exec")
          commandCalls = .ok (some verdict, written) ∧
        verdict.category = .contentDivergent ∧
        verdictFromActionData written = .ok (some verdict) := by
  have diverges :
      (replayedTool noTexts commandSession 0 commandAction commandData (.str "exec")
          commandCalls).toOption.map
        (fun result => result.1.map MismatchVerdict.category) =
        some (some .contentDivergent) := by
    decide +kernel
  match isReplayed : replayedTool noTexts commandSession 0 commandAction
      commandData (.str "exec") commandCalls with
  | .error _ =>
      rw [isReplayed] at diverges
      cases diverges
  | .ok (none, _) =>
      rw [isReplayed] at diverges
      cases diverges
  | .ok (some verdict, written) =>
      rw [isReplayed] at diverges
      exact ⟨verdict, written, rfl, Option.some_inj.mp (Option.some_inj.mp diverges),
        replayedTool_scored_again isReplayed⟩

end AgentSchedBench.Replay
