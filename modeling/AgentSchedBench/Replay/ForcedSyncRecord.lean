import AgentSchedBench.Replay.Accounting

/-!
# What is recorded of a forced synchronisation

The fields are collected while a checkpoint is restored; what raises on the way
leaves the ones that are there.
-/

namespace AgentSchedBench.Trace.Record

/-- `record[name] = value`, where there is a value. -/
def setIf (record : Record) (name : String) (value : Option Json) : Record :=
  match value with
  | some value => record.withField name value
  | none => record

theorem fieldOf_setIf (record : Record) (name : String) (value : Option Json)
    (other : String) :
    fieldOf (record.setIf name value) other =
      if other = name then value.or (fieldOf record name)
      else fieldOf record other := by
  cases value with
  | none =>
      rw [setIf, Option.none_or]
      split
      · next same => rw [same]
      · rfl
  | some value => exact fieldOf_withField record name value other

theorem nodup_setIf {record : Record} (distinct : record.names.Nodup)
    (name : String) (value : Option Json) :
    (record.setIf name value).names.Nodup := by
  cases value with
  | none => exact distinct
  | some value => exact nodup_withField distinct name value

end AgentSchedBench.Trace.Record

namespace AgentSchedBench.Replay

open AgentSchedBench.Trace (Text Record)

/-! ## Restoring a checkpoint -/

/-- `_checkpoint_restore_base_fields` -/
def checkpointRestoreBaseFields (path kind root : String)
    (sizeBytes : Option Int) : Record :=
  Record.setIf
    [("checkpoint_kind", .str kind),
      ("checkpoint_path", .str path),
      ("checkpoint_root", .str root),
      ("restore_overhead_excluded", .bool true),
      ("forced_sync_checkpoint_kind", .str kind),
      ("forced_sync_checkpoint", .str path),
      ("forced_sync_root", .str root)]
    "checkpoint_size_bytes" (sizeBytes.map .int)

/-- `_checkpoint_restore_failed_fields` -/
def checkpointRestoreFailedFields (path kind root status error : String)
    (elapsedMs : Json) (archiveExists : Option Bool)
    (sizeBytes : Option Int) : Record :=
  let fields :=
    (checkpointRestoreBaseFields path kind root sizeBytes).update
      [("forced_sync_success", .bool false),
        ("forced_sync_status", .str status),
        ("forced_sync_error", .str error),
        ("forced_sync_resolved", .bool false),
        ("forced_sync_continued", .bool false),
        ("restore_elapsed_ms", elapsedMs),
        ("forced_sync_elapsed_ms", elapsedMs)]
  fields.setIf "checkpoint_archive_exists" (archiveExists.map .bool)

/-- What the calls of a synchronisation give beside their outcome. -/
structure SyncDetails where
  -- the checkpoint of the chain that could not be restored
  failedAt : Nat
  failedStatus : String
  failedError : String
  archiveExists : Bool
  sizeBytes : Option Int
  totalSizeBytes : Int
  restoreElapsedMs : Json
  -- the comparison after the restore, before actions are applied again
  restoreVerified : Option Bool
  restoreVerification : Record
  reappliedIds : List String
  reapplyErrors : List String
  -- the comparison at the end, or why there is none
  verification : Record
  verificationError : Option String
  exceptionText : String
  elapsedMs : Json

section Sync

variable (python : PythonText) (calls : ReplayCalls) (details : SyncDetails)

/-- The path, the kind and the root of a spec. -/
def specPath (spec : Record) : String :=
  String.ofList (python.str (spec.get "path"))

def specKind (spec : Record) (default : String) : String :=
  String.ofList (python.strOr (spec.get "kind") default.toList)

def specRoot (spec : Record) : String :=
  String.ofList (python.strOr (spec.get "root") "/testbed".toList)

/-- `_restore_checkpoint_to_container`, when it succeeds -/
def checkpointRestoredFields (spec : Record) : Record :=
  (checkpointRestoreBaseFields (specPath python spec)
      (specKind python spec "cas_manifest") (specRoot python spec)
      details.sizeBytes).update
    [("forced_sync_success", .bool true),
      ("forced_sync_status", .str "checkpoint_restored_continuation"),
      ("forced_sync_resolved", .bool false),
      ("forced_sync_continued", .bool true),
      ("forced_sync_elapsed_ms", details.restoreElapsedMs),
      ("checkpoint_archive_exists", .bool true),
      ("restore_elapsed_ms", details.restoreElapsedMs),
      ("restore_root_exists", .bool true),
      ("tar_extraction_returncode", .int 0)]

/-- The fields of a chain, set over those of its last restore. -/
def checkpointChainFields (specs : List Record) : Record :=
  let paths : Json := .arr (specs.map fun spec => .str (specPath python spec))
  let kinds : Json :=
    .arr (specs.map fun spec => .str (specKind python spec "cas_manifest"))
  [("restore_elapsed_ms", details.restoreElapsedMs),
    ("forced_sync_elapsed_ms", details.restoreElapsedMs),
    ("checkpoint_restore_chain_length", .int specs.length),
    ("checkpoint_restore_chain_paths", paths),
    ("checkpoint_restore_chain_kinds", kinds),
    ("checkpoint_restore_chain_size_bytes", .int details.totalSizeBytes),
    ("forced_sync_checkpoint_chain_length", .int specs.length),
    ("forced_sync_checkpoint_chain", paths)]

/-- `restore_result`; `none` when the restore raises -/
def restoreResult (spec : Record) : Option (List Record) → Option Record
  | none =>
      some
        (checkpointRestoreFailedFields (specPath python spec)
          (specKind python spec "cas_manifest_incremental")
          (specRoot python spec) "checkpoint_full_missing"
          "incremental checkpoint has no preceding full checkpoint"
          details.restoreElapsedMs (some details.archiveExists) none)
  | some [] =>
      some
        (checkpointRestoreFailedFields "." "cas_manifest_incremental" "/testbed"
          "checkpoint_missing" "no checkpoint chain available"
          details.restoreElapsedMs none none)
  | some (first :: rest) =>
      let specs := first :: rest
      match calls.restore with
      | .raises => none
      | .fails =>
          let failed := (specs[details.failedAt]?).getD first
          some
            ((checkpointRestoreFailedFields (specPath python failed)
              (specKind python failed "cas_manifest") (specRoot python failed)
              details.failedStatus details.failedError details.restoreElapsedMs
              (some details.archiveExists) details.sizeBytes).update
                (checkpointChainFields python details specs))
      | .restored =>
          some
            ((checkpointRestoredFields python details
              (rest.getLast?.getD first)).update
                (checkpointChainFields python details specs))

/-! ## Verification -/

/-- The truth value, where there is one. -/
def boolOrNull : Option Bool → Json
  | some value => .bool value
  | none => .null

/-- `_verify_forced_sync_restore_state`, or
`_forced_sync_verification_unavailable_fields` -/
def verificationFields (verified : Option Bool) : Record :=
  match verified with
  | some isMatch =>
      [("forced_sync_verified", .bool isMatch),
        ("forced_sync_verification", .obj details.verification)]
  | none =>
      [("forced_sync_verified", .null),
        ("forced_sync_verification",
          .obj
            (Record.setIf [("snapshot_captured", .bool false)] "error"
              (details.verificationError.map .str)))]

/-- The state is compared with that of the source. -/
def verifySync (fields : Record) : Record :=
  let verified := fields.update (verificationFields details calls.verification)
  if calls.verification = some false then
    verified.update
      [("forced_sync_success", .bool false),
        ("forced_sync_continued", .bool false),
        ("forced_sync_status", .str "verification_failed")]
  else verified

/-- `forced_sync_fields.get("forced_sync_success") is True` -/
def syncSucceeded (fields : Record) : Bool :=
  match fields.get "forced_sync_success" with
  | .bool success => success
  | _ => false

/-- `_reapply_forced_sync_actions` -/
def reapplyFields (count : Nat) : Record :=
  [("forced_sync_reapplied_action_count", .int count),
    ("forced_sync_reapplied_action_ids", .arr (details.reappliedIds.map .str)),
    ("forced_sync_reapply_errors", .arr (details.reapplyErrors.map .str))]

/-- A failure of the synchronisation. -/
def syncFailedFields (status error : String) : Record :=
  [("forced_sync_success", .bool false),
    ("forced_sync_resolved", .bool false),
    ("forced_sync_continued", .bool false),
    ("forced_sync_status", .str status),
    ("forced_sync_error", .str error)]

/-- The fields of a state that cannot be verified. -/
def unverifiableFields : Record :=
  [("forced_sync_verified", .null),
    ("forced_sync_verify_reason", .str "reapplied_actions_unverifiable"),
    ("forced_sync_verification",
      .obj
        [("restore_verified", boolOrNull details.restoreVerified),
          ("restore_verification", .obj details.restoreVerification),
          ("reason", .str "reapplied_actions_unverifiable")])]

/-- The actions since an earlier checkpoint are applied again; does that
raise? -/
def reapplySync (fields : Record) : Record × Bool :=
  if calls.restoreVerificationRaises then (fields, true)
  else
    let verified :=
      fields.update
        [("forced_sync_restore_verified", boolOrNull details.restoreVerified),
          ("forced_sync_restore_verification", .obj details.restoreVerification)]
    match calls.reapply with
    | none => (verified, true)
    | some (count, failed) =>
        let applied := verified.update (reapplyFields details count)
        if failed then
          (applied.update
            (syncFailedFields "reapply_failed"
              ("; ".intercalate details.reapplyErrors)), false)
        else if 0 < count then
          (applied.update (unverifiableFields details), false)
        else
          (verifySync calls details
            (applied.update
              [("forced_sync_verified", boolOrNull details.restoreVerified),
                ("forced_sync_verification",
                  .obj details.restoreVerification)]), false)

/-- The body of the `try` statement; does it raise? -/
def attemptSync (spec : Record) (chain : Option (List Record))
    (isFallback : Bool) (fields : Record) : Record × Bool :=
  match restoreResult python calls details spec chain with
  | none => (fields, true)
  | some restored =>
      let fields := fields.update restored
      if ¬ syncSucceeded fields then (fields, false)
      else if isFallback then reapplySync calls details fields
      else (verifySync calls details fields, false)

/-- The fields of a synchronisation from a checkpoint. -/
def syncFields (spec : Record) (chain : Option (List Record))
    (isFallback : Bool) (attempted : Record) : Record :=
  let (fields, raised) :=
    attemptSync python calls details spec chain isFallback attempted
  let fields :=
    if raised then
      fields.update
        (syncFailedFields "checkpoint_restore_failed" details.exceptionText)
    else fields
  let success := syncSucceeded fields
  let fields :=
    ((fields.setDefault "forced_sync_success" (.bool false)).withField
      "forced_sync_resolved" (.bool false)).setDefault "forced_sync_status"
        (.str
          (if success then "checkpoint_restored_continuation"
            else "checkpoint_restore_failed"))
  let continued :=
    success && fields.fieldIs "forced_sync_status" "checkpoint_restored_continuation"
  (fields.setDefault "forced_sync_continued" (.bool continued)).withField
    "forced_sync_elapsed_ms" details.elapsedMs

/-- `forced_sync_fields`, where there is a mismatch -/
def forcedSyncFields (session : CloudModelSession) (index : Nat)
    (data : Record) (reason : String) (laneInduced : Bool) :
    Except ActionError Record := do
  let candidate : Option Json := if laneInduced then some (.bool true) else none
  match ← checkpointAfterSpec python session.sourceParent (.obj data) with
  | some spec =>
      let chain ← checkpointChainSpecsForAction python session index
      return syncFields python calls details spec chain false
        (Record.setIf
          [("forced_sync_attempted", .bool true),
            ("forced_sync_reason", .str reason),
            ("forced_sync_overhead_excluded", .bool true)]
          "lane_induced_mismatch_candidate" candidate)
  | none =>
      match
        ← fallbackBack python session.sourceParent
          (session.actions.zipIdx.take index).reverse
      with
      | none =>
          return Record.setIf
            [("forced_sync_attempted", .bool true),
              ("forced_sync_success", .bool false),
              ("forced_sync_resolved", .bool false),
              ("forced_sync_continued", .bool false),
              ("forced_sync_reason", .str reason),
              ("forced_sync_status", .str "checkpoint_missing"),
              ("forced_sync_error",
                .str "no checkpoint available (searched entire trace history)")]
            "lane_induced_mismatch_candidate" candidate
      | some earlier =>
          let action := (session.actions[earlier]?).getD []
          let spec ←
            checkpointAfterSpec python session.sourceParent (dataOrEmpty action)
          let chain ← checkpointChainSpecsForAction python session earlier
          return syncFields python calls details (spec.getD []) chain true
            (Record.setIf
              [("forced_sync_attempted", .bool true),
                ("forced_sync_reason", .str reason),
                ("forced_sync_overhead_excluded", .bool true),
                ("forced_sync_fallback", .bool true),
                ("forced_sync_fallback_from_action_index", .int earlier),
                ("forced_sync_fallback_from_action_id",
                  .str
                    (String.ofList
                      (python.str (getOr action "action_id" (.str "")))))]
              "lane_induced_mismatch_candidate" candidate)

end Sync

end AgentSchedBench.Replay
