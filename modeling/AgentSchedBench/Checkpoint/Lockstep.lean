import AgentSchedBench.Checkpoint.Deferred
import Mathlib.Data.List.Forall2

/-!
# Deferred and synchronous checkpoints

`SyncRun` is the synchronous schedule over the events of the deferred one.
The two go in lockstep as long as the probe sees what the snapshots see: the
hooks then hold the same baseline, and each action has the same manifest in
both, so that the chains restore the same trees.
-/

namespace AgentSchedBench.Checkpoint

open FileSystem

/-! ## The synchronous schedule -/

/-- A session with the checkpoint results of its actions. -/
structure SyncRun where
  session : Session
  actions : List CheckpointAfter

def SyncRun.start (blobs : BlobStore) : SyncRun :=
  ⟨Session.start blobs, []⟩

/-- Tool calls are checkpointed at once; there is nothing to wait for. -/
def SyncRun.step (config : HookConfig) (run : SyncRun) :
    ScheduleEvent → SyncRun
  | .tool call =>
      { session := run.session.step config call.toCheckpointCall
        actions := run.actions ++
          [(checkpointAfterTool config run.session.hook
            call.toCheckpointCall).1] }
  | _ => run

def SyncRun.run
    (config : HookConfig) (run : SyncRun) (events : List ScheduleEvent) :
    SyncRun :=
  events.foldl (SyncRun.step config) run

/-! ## Restoring an action -/

/-- A full checkpoint starts the chain anew, an incremental one extends it. -/
def extendChain
    (chain : List CheckpointRecord) (checkpointAfter : CheckpointAfter) :
    List CheckpointRecord :=
  match checkpointAfter with
  | .recorded record =>
      if record.kind = .casManifestFull then [record]
      else chain ++ [record]
  | _ => chain

/-- The checkpoints that lead to the state at an action. -/
def chainAt (actions : List CheckpointAfter) (action : Nat) :
    List CheckpointRecord :=
  (actions.take (action + 1)).foldl extendChain []

/-- Restore the state at an action from its chain. -/
def restoredAt
    (manifestFiles : String → Option Manifest) (blobs : BlobStore)
    (actions : List CheckpointAfter) (action : Nat) (fs : Fs FileData) :
    RestoreResult :=
  match
      (chainAt actions action).mapM fun record =>
        manifestFiles record.path with
  | none => .error (.manifestMissing, fs)
  | some manifests => restoreCheckpointChain blobs manifests fs

def SyncRun.restoredAt (run : SyncRun) : Nat → Fs FileData → RestoreResult :=
  Checkpoint.restoredAt run.session.hook.manifestFiles
    run.session.hook.blobs run.actions

def DeferredHook.restoredAt (hook : DeferredHook) :
    Nat → Fs FileData → RestoreResult :=
  Checkpoint.restoredAt hook.checkpointBackend.manifestFiles
    hook.checkpointBackend.blobs hook.actions

/-! ## Lockstep -/

/-- Two records of one manifest. -/
structure SameRecord
    (files other : String → Option Manifest)
    (left right : CheckpointRecord) : Prop where
  kind : left.kind = right.kind
  manifest :
    ∃ manifest, files left.path = some manifest ∧
      other right.path = some manifest

/-- Both schedules recorded one manifest, or neither recorded any. -/
inductive SameOutcome (files other : String → Option Manifest) :
    CheckpointAfter → CheckpointAfter → Prop where
  | recorded {left right : CheckpointRecord}
      (same : SameRecord files other left right) :
      SameOutcome files other (.recorded left) (.recorded right)
  | unrecorded {left right : CheckpointAfter}
      (leftNot : ∀ record, left ≠ .recorded record)
      (rightNot : ∀ record, right ≠ .recorded record) :
      SameOutcome files other left right

/-- The hooks compare the next tree against the same baseline. -/
structure SameBaseline (hook : HookState) (deferred : DeferredHook) :
    Prop where
  full :
    hook.lastFullCheckpointNs.isSome =
      deferred.lastDeferredCheckpointSnapshot.isSome
  incremental :
    hook.lastIncrementalCheckpointNs.isSome =
      deferred.lastDeferredCheckpointSnapshot.isSome
  snapshot :
    hook.checkpointSnapshotEntries =
      deferred.checkpointBackend.checkpointSnapshotEntries
  hasSnapshot :
    hook.checkpointSnapshotEntries.isSome =
      deferred.lastDeferredCheckpointSnapshot.isSome
  chainBytes :
    hook.checkpointChainBytesSinceFull =
      deferred.checkpointChainBytesSinceFull
  cache :
    hook.checkpointHashCache =
      deferred.checkpointBackend.checkpointHashCache
  blobs : hook.blobs = deferred.checkpointBackend.blobs

/-- A synchronous run and a settled deferred hook after the same events. -/
structure Lockstep
    (calls : List ScheduledCall) (run : SyncRun) (deferred : DeferredHook) :
    Prop where
  accounted : deferred.Accounted calls
  based : run.session.Based
  baseline : SameBaseline run.session.hook deferred
  actions :
    List.Forall₂
      (SameOutcome run.session.hook.manifestFiles
        deferred.checkpointBackend.manifestFiles)
      run.actions deferred.actions

/-- What a call with something to record needs. -/
structure CaptureAgrees
    (config : HookConfig) (run : SyncRun) (deferred : DeferredHook)
    (call : ScheduledCall) : Prop where
  probed :
    ∀ previous, deferred.lastDeferredCheckpointSnapshot = some previous →
      call.probeFault = false ∧
        anyFileNewerThan call.tree previous.timestampNs = true
  clocks :
    anyFileNewerThan call.tree call.markerBeforeNs =
      anyFileNewerThan call.tree call.captureMarkerNs
  readable : call.manifestUnreadable = false
  nameFresh :
    ∀ record, .recorded record ∈ run.actions →
      record.path ≠ manifestName config call.toolCallId
  snapshotFresh :
    ∀ record, .recorded record ∈ deferred.actions →
      record.path ≠ snapshotManifestName call.captureMarkerNs

/-- What a call with nothing to record needs: no rebaseline on a false alarm. -/
def QuietAgrees
    (config : HookConfig) (deferred : DeferredHook) (call : ScheduledCall) :
    Prop :=
  ∀ previous, deferred.lastDeferredCheckpointSnapshot = some previous →
    deferred.forceFull config = true →
      call.probeFault = true ∨
        anyFileNewerThan call.tree previous.timestampNs = false

/-- The probe sees in every call of a run what the snapshots see. -/
def RunAgrees
    (config : HookConfig) (run : SyncRun) (deferred : DeferredHook) :
    List ScheduleEvent → Prop
  | [] => True
  | event :: rest =>
      (∀ call, event = .tool call →
        let settled := awaitPendingCheckpointCaptures deferred
        (Attempts run.session call.toCheckpointCall →
            CaptureAgrees config run settled call) ∧
          (¬ Attempts run.session call.toCheckpointCall →
            QuietAgrees config settled call)) ∧
        RunAgrees config (run.step config event)
          (deferred.step config event) rest

/-- The calls among the events. -/
def toolCalls : List ScheduleEvent → List ScheduledCall
  | [] => []
  | .tool call :: rest => call :: toolCalls rest
  | _ :: rest => toolCalls rest

/-! ### What lockstep gives -/

section SameOutcome

variable {files other : String → Option Manifest}

theorem extendChain_rel :
    ∀ {chain : List CheckpointRecord} {chain' : List CheckpointRecord},
      List.Forall₂ (SameRecord files other) chain chain' →
        ∀ {left right : CheckpointAfter},
          SameOutcome files other left right →
            List.Forall₂ (SameRecord files other)
              (extendChain chain left) (extendChain chain' right) := by
  intro chain chain' chains left right outcome
  cases outcome with
  | recorded same =>
      simp only [extendChain, same.kind]
      split
      · exact .cons same .nil
      · exact List.rel_append chains (.cons same .nil)
  | unrecorded leftNot rightNot =>
      have keeps :
          ∀ after chain, (∀ record, after ≠ .recorded record) →
            extendChain chain after = chain := by
        intro after chain notRecorded
        cases after with
        | recorded record => exact (notRecorded record rfl).elim
        | _ => rfl
      rwa [keeps left chain leftNot, keeps right chain' rightNot]

theorem mapM_manifest_eq
    {chain chain' : List CheckpointRecord}
    (same : List.Forall₂ (SameRecord files other) chain chain') :
    (chain.mapM fun record => files record.path) =
      chain'.mapM fun record => other record.path := by
  induction same with
  | nil => rfl
  | cons head tail induction =>
      obtain ⟨manifest, left, right⟩ := head.manifest
      simp only [List.mapM_cons, left, right, induction]

theorem restoredAt_eq
    {actions actions' : List CheckpointAfter}
    (same : List.Forall₂ (SameOutcome files other) actions actions')
    (blobs : BlobStore) (action : Nat) (fs : Fs FileData) :
    restoredAt files blobs actions action fs =
      restoredAt other blobs actions' action fs := by
  have chains :
      List.Forall₂ (SameRecord files other) (chainAt actions action)
        (chainAt actions' action) := by
    have step :
        Relator.LiftFun (List.Forall₂ (SameRecord files other))
          (Relator.LiftFun (SameOutcome files other)
            (List.Forall₂ (SameRecord files other)))
          extendChain extendChain :=
      fun _ _ chains _ _ outcome => extendChain_rel chains outcome
    exact List.rel_foldl step .nil (List.forall₂_take (action + 1) same)
  rw [restoredAt, restoredAt, mapM_manifest_eq chains]

/-- Records keep their manifests while no file of theirs is written. -/
theorem forall₂_sameOutcome_of_fresh
    {files' other' : String → Option Manifest}
    {actions actions' : List CheckpointAfter}
    (same : List.Forall₂ (SameOutcome files other) actions actions')
    (kept :
      ∀ record, .recorded record ∈ actions →
        files' record.path = files record.path)
    (keptOther :
      ∀ record, .recorded record ∈ actions' →
        other' record.path = other record.path) :
    List.Forall₂ (SameOutcome files' other') actions actions' := by
  induction same with
  | nil => exact .nil
  | cons head tail induction =>
      refine .cons ?_ (induction
        (fun record member => kept record (List.mem_cons_of_mem _ member))
        (fun record member =>
          keptOther record (List.mem_cons_of_mem _ member)))
      cases head with
      | unrecorded leftNot rightNot => exact .unrecorded leftNot rightNot
      | recorded same =>
          obtain ⟨manifest, left, right⟩ := same.manifest
          refine .recorded ⟨same.kind, manifest, ?_, ?_⟩
          · rwa [kept _ List.mem_cons_self]
          · rwa [keptOther _ List.mem_cons_self]

end SameOutcome

/-! ### One event -/

/-- With the changed paths given, the marker does not matter. -/
theorem writeCasEntry_since
    (tree : Tree) {sinceNs otherNs : Option Int}
    {changedPaths : Option (List RelPath)}
    (same : changedPaths = none → sinceNs = otherNs) :
    writeCasEntry tree sinceNs changedPaths =
      writeCasEntry tree otherNs changedPaths := by
  cases changedPaths with
  | none => rw [same rfl]
  | some paths => rfl

theorem writeCasManifest_since
    (tree : Tree) {sinceNs otherNs : Option Int}
    {changedPaths : Option (List RelPath)}
    (same : changedPaths = none → sinceNs = otherNs)
    (deletedPaths : List RelPath) (hashCache : HashCache)
    (blobs : BlobStore) :
    writeCasManifest tree sinceNs deletedPaths changedPaths hashCache blobs =
      writeCasManifest tree otherNs deletedPaths changedPaths hashCache
        blobs := by
  rw [writeCasManifest, writeCasManifest, writeCasEntry_since tree same]

theorem interruptedWrite_since
    (tree : Tree) {sinceNs otherNs : Option Int}
    {changedPaths : Option (List RelPath)}
    (same : changedPaths = none → sinceNs = otherNs)
    (hashCache : HashCache) (blobs : BlobStore) (fault : WriteFault) :
    interruptedWrite tree sinceNs changedPaths hashCache blobs fault =
      interruptedWrite tree otherNs changedPaths hashCache blobs fault := by
  cases changedPaths with
  | none => rw [same rfl]
  | some paths => rfl

theorem Session.step_unrecorded
    {config : HookConfig} {session : Session} {call : CheckpointCall}
    {after : CheckpointAfter} {hook : HookState}
    (result : checkpointAfterTool config session.hook call = (after, hook))
    (notRecorded : ∀ record, after ≠ .recorded record) :
    session.step config call = { session with hook := hook } := by
  rw [Session.step, result]
  cases after with
  | recorded record => exact (notRecorded record rfl).elim
  | _ => rfl

theorem DeferredHook.captureNow_unrecorded
    (hook : DeferredHook) (call : ScheduledCall)
    (incrementalSince : Option SandboxSnapshot) (forceFull : Bool)
    (notTaken :
      ∀ snapshot,
        (captureHostSnapshot hook.checkpointBackend incrementalSince
          call).1 ≠ .taken snapshot) :
    let after := hook.captureNow call incrementalSince forceFull
    after.lastDeferredCheckpointSnapshot =
        hook.lastDeferredCheckpointSnapshot ∧
      after.checkpointChainBytesSinceFull =
        hook.checkpointChainBytesSinceFull ∧
      ∃ outcome, after.actions = hook.actions ++ [outcome] ∧
        ∀ record, outcome ≠ .recorded record := by
  simp only [DeferredHook.captureNow, captureCheckpointDeferred]
  cases result :
      (captureHostSnapshot hook.checkpointBackend incrementalSince
        call).1 with
  | failed message => exact ⟨rfl, rfl, _, rfl, by simp⟩
  | unchanged =>
      cases incrementalSince <;> exact ⟨rfl, rfl, _, rfl, by simp⟩
  | taken snapshot => exact (notTaken snapshot result).elim

theorem DeferredHook.captureNow_recorded
    (hook : DeferredHook) (call : ScheduledCall)
    (incrementalSince : Option SandboxSnapshot) (forceFull : Bool)
    {snapshot : SandboxSnapshot}
    (taken :
      (captureHostSnapshot hook.checkpointBackend incrementalSince
        call).1 = .taken snapshot) :
    let after := hook.captureNow call incrementalSince forceFull
    after.lastDeferredCheckpointSnapshot = some snapshot ∧
      after.checkpointChainBytesSinceFull =
        (if snapshot.kind = .casManifestFull then 0
        else hook.checkpointChainBytesSinceFull + snapshot.chainBytes) ∧
      ∃ record, after.actions = hook.actions ++ [.recorded record] ∧
        record.path = snapshot.manifestPath ∧
        record.kind = snapshot.kind := by
  simp only [DeferredHook.captureNow, captureCheckpointDeferred, taken]
  exact ⟨rfl, rfl, _, rfl, rfl, rfl⟩

section Step

variable
  {config : HookConfig} {calls : List ScheduledCall} {run : SyncRun}
  {deferred next : DeferredHook} {call : ScheduledCall} {hook : HookState}

theorem Lockstep.unrecorded
    {after after' : CheckpointAfter}
    (lock : Lockstep calls run deferred)
    (result :
      checkpointAfterTool config run.session.hook call.toCheckpointCall =
        (after, hook))
    (notRecorded : ∀ record, after ≠ .recorded record)
    (accounted : next.Accounted (calls ++ [call]))
    (baseline : SameBaseline hook next)
    (appended : next.actions = deferred.actions ++ [after'])
    (notRecorded' : ∀ record, after' ≠ .recorded record)
    (kept :
      ∀ record, .recorded record ∈ run.actions →
        hook.manifestFiles record.path =
          run.session.hook.manifestFiles record.path)
    (kept' :
      ∀ record, .recorded record ∈ deferred.actions →
        next.checkpointBackend.manifestFiles record.path =
          deferred.checkpointBackend.manifestFiles record.path) :
    Lockstep (calls ++ [call]) (run.step config (.tool call)) next := by
  have stepped := Session.step_unrecorded result notRecorded
  refine ⟨accounted, lock.based.step, ?_, ?_⟩
  · simpa only [SyncRun.step, stepped] using baseline
  · simp only [SyncRun.step, stepped, result, appended]
    exact List.rel_append
      (forall₂_sameOutcome_of_fresh lock.actions kept kept')
      (.cons (.unrecorded notRecorded notRecorded') .nil)

theorem Lockstep.recorded
    {record record' : CheckpointRecord}
    (lock : Lockstep calls run deferred)
    (result :
      checkpointAfterTool config run.session.hook call.toCheckpointCall =
        (.recorded record, hook))
    (accounted : next.Accounted (calls ++ [call]))
    (baseline : SameBaseline hook next)
    (appended : next.actions = deferred.actions ++ [.recorded record'])
    (same :
      SameRecord hook.manifestFiles next.checkpointBackend.manifestFiles
        record record')
    (kept :
      ∀ record, .recorded record ∈ run.actions →
        hook.manifestFiles record.path =
          run.session.hook.manifestFiles record.path)
    (kept' :
      ∀ record, .recorded record ∈ deferred.actions →
        next.checkpointBackend.manifestFiles record.path =
          deferred.checkpointBackend.manifestFiles record.path) :
    Lockstep (calls ++ [call]) (run.step config (.tool call)) next := by
  have stepped :
      (run.session.step config call.toCheckpointCall).hook = hook := by
    rw [Session.step, result]
  refine ⟨accounted, lock.based.step, ?_, ?_⟩
  · simpa only [SyncRun.step, stepped] using baseline
  · simp only [SyncRun.step, stepped, result, appended]
    exact List.rel_append
      (forall₂_sameOutcome_of_fresh lock.actions kept kept')
      (.cons (.recorded same) .nil)

/-- The baselines stay the same where neither schedule records. -/
theorem SameBaseline.unrecorded
    {since : Option SandboxSnapshot}
    (same : SameBaseline hook deferred) (force : Bool) (hashCache : HashCache)
    (blobs : BlobStore) (manifestFiles : String → Option Manifest)
    (notTaken :
      ∀ snapshot,
        (captureHostSnapshot deferred.checkpointBackend since call).1 ≠
          .taken snapshot)
    (left :
      (captureHostSnapshot deferred.checkpointBackend since call).2 =
        ⟨deferred.checkpointBackend.checkpointSnapshotEntries, hashCache,
          blobs, manifestFiles⟩) :
    SameBaseline
      { hook with checkpointHashCache := hashCache, blobs := blobs }
      (deferred.captureNow call since force) := by
  obtain ⟨last, bytes, -⟩ :=
    deferred.captureNow_unrecorded call since force notTaken
  obtain ⟨-, -, -, -, backend⟩ := deferred.captureNow_fields call since force
  simp only [captureCheckpointDeferred, left] at backend
  exact
    { full := by rw [last]; exact same.full
      incremental := by rw [last]; exact same.incremental
      snapshot := by rw [backend]; exact same.snapshot
      hasSnapshot := by rw [last]; exact same.hasSnapshot
      chainBytes := by rw [bytes]; exact same.chainBytes
      cache := by rw [backend]
      blobs := by rw [backend] }

/-- Both schedules write the manifest of one difference. -/
theorem Lockstep.write
    {current : CheckpointSnapshot}
    (paths : Option (List RelPath × List RelPath))
    {since : Option SandboxSnapshot} {force : Bool} {plan : ManifestPlan}
    (lock : Lockstep calls run deferred)
    (agrees : CaptureAgrees config run deferred call)
    (taken : snapshotCheckpointEntries call.tree = .ok current)
    (result :
      checkpointAfterTool config run.session.hook call.toCheckpointCall =
        writePlanned config run.session.hook call.toCheckpointCall current
          plan)
    (captured :
      captureHostSnapshot deferred.checkpointBackend since call =
        writeCapture deferred.checkpointBackend since call current paths)
    (deletedPaths : (paths.map Prod.fst).getD [] = plan.deletedPaths)
    (changedPaths : paths.map Prod.snd = plan.changedPaths)
    (sinceNs :
      plan.changedPaths = none →
        since.map SandboxSnapshot.timestampNs = plan.incrementalSinceNs)
    (isFull : plan.isFull = since.isNone)
    (notFirst :
      plan.isFull = false →
        run.session.hook.lastFullCheckpointNs.isSome = true) :
    Lockstep (calls ++ [call]) (run.step config (.tool call))
      (deferred.captureNow call since force) := by
  have accounted :=
    lock.accounted.captureNow since force
      (captured ▸ writeCapture_keepsBaseline paths taken agrees.readable)
  have same := lock.baseline
  obtain ⟨-, actions, -, -, backend⟩ :=
    deferred.captureNow_fields call since force
  simp only [captureCheckpointDeferred] at backend
  rw [writePlanned] at result
  rw [writeCapture, deletedPaths, changedPaths, ← same.cache, ← same.blobs]
    at captured
  cases fault : call.writeFault with
  | some fault =>
      simp only [fault] at result captured
      rw [interruptedWrite_since call.tree sinceNs] at captured
      have notTaken :
          ∀ snapshot,
            (captureHostSnapshot deferred.checkpointBackend since call).1 ≠
              .taken snapshot := by simp [captured]
      obtain ⟨-, -, outcome, appended, notRecorded⟩ :=
        deferred.captureNow_unrecorded call since force notTaken
      refine lock.unrecorded result (by simp) accounted
        (same.unrecorded _ _ _ _ notTaken (by rw [captured])) appended
        notRecorded (fun _ _ => rfl) (fun _ _ => ?_)
      rw [backend, captured]
  | none =>
      simp only [fault] at result captured
      rw [writeCasManifest_since call.tree sinceNs] at captured
      cases written :
          writeCasManifest call.tree plan.incrementalSinceNs
            plan.deletedPaths plan.changedPaths
            run.session.hook.checkpointHashCache
            run.session.hook.blobs with
      | error failure =>
          simp only [written] at result captured
          have notTaken :
              ∀ snapshot,
                (captureHostSnapshot deferred.checkpointBackend since
                  call).1 ≠ .taken snapshot := by simp [captured]
          obtain ⟨-, -, outcome, appended, notRecorded⟩ :=
            deferred.captureNow_unrecorded call since force notTaken
          refine lock.unrecorded result (by simp) accounted ?_ appended
            notRecorded (fun _ _ => rfl) (fun _ _ => ?_)
          · exact same.unrecorded _ _ _ _ notTaken (by
              rw [captured, same.cache, same.blobs])
          · rw [backend, captured]
      | ok both =>
          obtain ⟨manifest, state⟩ := both
          simp only [written] at result captured
          rw [agrees.clocks] at result
          by_cases newer :
              anyFileNewerThan call.tree call.captureMarkerNs = true
          · simp only [newer, if_true] at result captured
            have notTaken :
                ∀ snapshot,
                  (captureHostSnapshot deferred.checkpointBackend since
                    call).1 ≠ .taken snapshot := by simp [captured]
            obtain ⟨-, -, outcome, appended, notRecorded⟩ :=
              deferred.captureNow_unrecorded call since force notTaken
            refine lock.unrecorded result (by simp) accounted ?_ appended
              notRecorded ?_ ?_
            · have kept := same.unrecorded force _ _ _ notTaken
                (by rw [captured])
              exact ⟨kept.full, kept.incremental, kept.snapshot,
                kept.hasSnapshot, kept.chainBytes, kept.cache, kept.blobs⟩
            · intro record member
              exact Function.update_of_ne (agrees.nameFresh record member) _ _
            · intro record member
              rw [backend, captured]
              exact Function.update_of_ne
                (agrees.snapshotFresh record member) _ _
          · simp only [newer, if_false, agrees.readable,
              Bool.false_eq_true] at result captured
            obtain ⟨last, bytes, record, appended, path, kind⟩ :=
              deferred.captureNow_recorded call since force
                (by rw [captured])
            rw [captured] at backend
            refine lock.recorded result accounted ?_ appended ?_ ?_ ?_
            · refine ⟨?_, ?_, ?_, ?_, ?_, ?_, ?_⟩
              · rw [last]
                cases planned : plan.isFull with
                | true => simp
                | false => simpa using notFirst planned
              · simp [last]
              · simp [backend]
              · simp [last]
              · rw [bytes, isFull, same.chainBytes]
                cases since <;> simp
              · rw [backend]
              · rw [backend]
            · refine ⟨?_, manifest, ?_, ?_⟩
              · rw [kind, isFull]
              · exact Function.update_self _ _ _
              · rw [backend, path]
                exact Function.update_self _ _ _
            · intro other member
              exact Function.update_of_ne (agrees.nameFresh other member) _ _
            · intro other member
              rw [backend]
              exact Function.update_of_ne
                (agrees.snapshotFresh other member) _ _

/-- Nothing is recorded and nothing is captured. -/
theorem Lockstep.idle
    (after : CheckpointAfter) {after' : CheckpointAfter}
    (lock : Lockstep calls run deferred)
    (result :
      checkpointAfterTool config run.session.hook call.toCheckpointCall =
        (after, run.session.hook))
    (notRecorded : ∀ record, after ≠ .recorded record)
    (notRecorded' : ∀ record, after' ≠ .recorded record) :
    Lockstep (calls ++ [call]) (run.step config (.tool call))
      (deferred.addAction after') :=
  have same := lock.baseline
  lock.unrecorded result notRecorded (lock.accounted.addAction after')
    ⟨same.full, same.incremental, same.snapshot, same.hasSnapshot,
      same.chainBytes, same.cache, same.blobs⟩
    rfl notRecorded' (fun _ _ => rfl) (fun _ _ => rfl)

/-- Nothing is recorded and a capture comes back without a manifest. -/
theorem Lockstep.idleCapture
    {after : CheckpointAfter} (captureResult : CaptureResult)
    {since : Option SandboxSnapshot} {force : Bool}
    (lock : Lockstep calls run deferred)
    (result :
      checkpointAfterTool config run.session.hook call.toCheckpointCall =
        (after, run.session.hook))
    (notRecorded : ∀ record, after ≠ .recorded record)
    (captured :
      captureHostSnapshot deferred.checkpointBackend since call =
        (captureResult, deferred.checkpointBackend))
    (notTaken : ∀ snapshot, captureResult ≠ .taken snapshot) :
    Lockstep (calls ++ [call]) (run.step config (.tool call))
      (deferred.captureNow call since force) := by
  have same := lock.baseline
  have keeps :
      CaptureKeepsBaseline deferred.checkpointBackend call
        (captureHostSnapshot deferred.checkpointBackend since call) := by
    rw [captured, CaptureKeepsBaseline]
    cases captureResult with
    | taken snapshot => exact (notTaken snapshot rfl).elim
    | _ => rfl
  have stays :
      ∀ snapshot,
        (captureHostSnapshot deferred.checkpointBackend since call).1 ≠
          .taken snapshot := by
    rw [captured]
    exact notTaken
  obtain ⟨-, -, outcome, appended, notRecorded'⟩ :=
    deferred.captureNow_unrecorded call since force stays
  obtain ⟨-, -, -, -, backend⟩ := deferred.captureNow_fields call since force
  simp only [captureCheckpointDeferred, captured] at backend
  refine lock.unrecorded result notRecorded
    (lock.accounted.captureNow since force keeps) ?_ appended notRecorded'
    (fun _ _ => rfl) (fun _ _ => by rw [backend])
  have kept :=
    same.unrecorded force
      deferred.checkpointBackend.checkpointHashCache
      deferred.checkpointBackend.blobs
      deferred.checkpointBackend.manifestFiles stays (by rw [captured])
  rw [← same.cache, ← same.blobs] at kept
  exact kept

/-- The three ways of the deferred schedule on an `exec` call. -/
theorem DeferredHook.toolNow_cases
    (on : config.checkpointing = true)
    (isExec : (singleExecCommandArgs call.toolName call.toolArgs).isSome) :
    (∃ previous outcome,
        deferred.lastDeferredCheckpointSnapshot = some previous ∧
          (call.probeFault = true ∨
            anyFileNewerThan call.tree previous.timestampNs = false) ∧
          deferred.toolNow config call = deferred.addAction outcome ∧
          ∀ record, outcome ≠ .recorded record) ∨
      (deferred.lastDeferredCheckpointSnapshot = none ∧
        deferred.toolNow config call =
          deferred.captureNow call none false) ∨
      ∃ previous,
        deferred.lastDeferredCheckpointSnapshot = some previous ∧
          call.probeFault = false ∧
          anyFileNewerThan call.tree previous.timestampNs = true ∧
          deferred.toolNow config call =
            deferred.captureNow call
              (if deferred.forceFull config then none else some previous)
              (deferred.forceFull config) := by
  have isNotNone :
      (singleExecCommandArgs call.toolName call.toolArgs).isNone = false := by
    simpa [Option.isSome_iff_ne_none] using isExec
  rw [DeferredHook.toolNow]
  simp only [on, isNotNone, Bool.not_true, Bool.or_self,
    Bool.false_eq_true, if_false]
  cases last : deferred.lastDeferredCheckpointSnapshot with
  | none => exact Or.inr (Or.inl ⟨rfl, rfl⟩)
  | some previous =>
      dsimp only
      split
      · next fault =>
          exact Or.inl ⟨previous, _, rfl, Or.inl fault, rfl, by simp⟩
      · next noFault =>
          split
          · next old =>
              exact Or.inl ⟨previous, _, rfl, Or.inr (by simpa using old),
                rfl, by simp⟩
          · next newer =>
              exact Or.inr (Or.inr ⟨previous, rfl, by simpa using noFault,
                by simpa using newer, rfl⟩)

/-- Where the synchronous hook gives up, no capture does more. -/
theorem Lockstep.givesUp
    (message : String)
    (lock : Lockstep calls run deferred)
    (on : config.checkpointing = true)
    (isExec : (singleExecCommandArgs call.toolName call.toolArgs).isSome)
    (result :
      checkpointAfterTool config run.session.hook call.toCheckpointCall =
        (.error message, run.session.hook))
    (captured :
      ∀ since, captureHostSnapshot deferred.checkpointBackend since call =
        (.failed "checkpoint failed", deferred.checkpointBackend)) :
    Lockstep (calls ++ [call]) (run.step config (.tool call))
      (deferred.toolNow config call) := by
  rcases deferred.toolNow_cases on isExec with
    ⟨previous, outcome, _, _, equal, notRecorded⟩ | ⟨_, equal⟩ |
    ⟨previous, _, _, _, equal⟩ <;> rw [equal]
  · exact lock.idle _ result (by simp) notRecorded
  · exact lock.idleCapture _ result (by simp) (captured _) (by simp)
  · exact lock.idleCapture _ result (by simp) (captured _) (by simp)

theorem SameBaseline.forceFull
    (config : HookConfig) (same : SameBaseline hook deferred) :
    forceFullCheckpoint config hook = deferred.forceFull config := by
  cases bytes : config.rebaselineBytes <;>
    simp [forceFullCheckpoint, DeferredHook.forceFull, bytes, same.full,
      same.chainBytes]

/-- With no baseline yet both schedules write a full manifest. -/
theorem Lockstep.writeFirst
    {current : CheckpointSnapshot}
    (lock : Lockstep calls run deferred)
    (agrees : CaptureAgrees config run deferred call)
    (taken : snapshotCheckpointEntries call.tree = .ok current)
    (result :
      checkpointAfterTool config run.session.hook call.toCheckpointCall =
        writePlanned config run.session.hook call.toCheckpointCall current
          (planManifest config run.session.hook current))
    (available : (!call.rootAvailable || call.snapshotFault) = false)
    (full :
      run.session.hook.lastFullCheckpointNs = none ∨
        forceFullCheckpoint config run.session.hook = true)
    (force : Bool) :
    Lockstep (calls ++ [call]) (run.step config (.tool call))
      (deferred.captureNow call none force) := by
  have plan := planManifest_full config current full
  refine lock.write none agrees taken result ?_ ?_ ?_ ?_ ?_ ?_
  · rw [captureHostSnapshot, available, taken]
    rfl
  · rw [plan]; rfl
  · rw [plan]; rfl
  · rw [plan]; intro; rfl
  · rw [plan]; rfl
  · rw [plan]; simp

/-- With a baseline both schedules compute one difference. -/
theorem SameBaseline.paths
    {previous : SandboxSnapshot}
    (same : SameBaseline hook deferred)
    (last : deferred.lastDeferredCheckpointSnapshot = some previous)
    (current : CheckpointSnapshot) :
    ∃ snapshot,
      hook.checkpointSnapshotEntries = some snapshot ∧
        precomputedPaths hook current =
          some (computeCheckpointDeletedPaths (some snapshot) current,
            computeCheckpointChangedPaths snapshot current) ∧
        capturePaths deferred.checkpointBackend (some previous) current =
          precomputedPaths hook current := by
  obtain ⟨snapshot, isSnapshot⟩ :
      ∃ snapshot, hook.checkpointSnapshotEntries = some snapshot := by
    rw [← Option.isSome_iff_exists, same.hasSnapshot, last]; rfl
  obtain ⟨sinceNs, isSince⟩ :
      ∃ sinceNs, hook.lastIncrementalCheckpointNs = some sinceNs := by
    rw [← Option.isSome_iff_exists, same.incremental, last]; rfl
  refine ⟨snapshot, isSnapshot, ?_, ?_⟩
  · simp only [precomputedPaths, isSnapshot, isSince]
  · simp only [capturePaths, precomputedPaths, ← same.snapshot, isSnapshot,
      isSince]

/-- With a baseline both schedules write the difference to it. -/
theorem Lockstep.writeNext
    {current : CheckpointSnapshot} {previous : SandboxSnapshot}
    (lock : Lockstep calls run deferred)
    (agrees : CaptureAgrees config run deferred call)
    (taken : snapshotCheckpointEntries call.tree = .ok current)
    (result :
      checkpointAfterTool config run.session.hook call.toCheckpointCall =
        writePlanned config run.session.hook call.toCheckpointCall current
          (planManifest config run.session.hook current))
    (available : (!call.rootAvailable || call.snapshotFault) = false)
    (last : deferred.lastDeferredCheckpointSnapshot = some previous)
    (notForced : forceFullCheckpoint config run.session.hook = false)
    (differs :
      precomputedPaths run.session.hook current ≠ some ([], []))
    (force : Bool) :
    Lockstep (calls ++ [call]) (run.step config (.tool call))
      (deferred.captureNow call (some previous) force) := by
  have same := lock.baseline
  have notFirst : run.session.hook.lastFullCheckpointNs.isSome = true := by
    rw [same.full, last]; rfl
  obtain ⟨snapshot, isSnapshot, pathsAre, paths⟩ := same.paths last current
  have plan := planManifest_incremental config current notFirst
    notForced isSnapshot
  refine lock.write (precomputedPaths run.session.hook current)
    agrees taken result ?_ ?_ ?_ ?_ ?_ ?_
  · rw [captureHostSnapshot, if_neg (by simp [available]), taken]
    dsimp only
    rw [paths]
    split
    · next none => exact (differs none).elim
    · rfl
  · rw [pathsAre, plan]; rfl
  · rw [pathsAre, plan]; rfl
  · rw [plan]; intro none; cases none
  · rw [plan]; rfl
  · exact fun _ => notFirst

/-- One tool call keeps the schedules in lockstep. -/
theorem Lockstep.tool
    (lock : Lockstep calls run deferred)
    (label : config.checkpointRootLabel = "/testbed")
    (agrees :
      Attempts run.session call.toCheckpointCall →
        CaptureAgrees config run deferred call)
    (quiet :
      ¬ Attempts run.session call.toCheckpointCall →
        QuietAgrees config deferred call) :
    Lockstep (calls ++ [call]) (run.step config (.tool call))
      (deferred.toolNow config call) := by
  by_cases on :
      config.checkpointing = true ∧
        (singleExecCommandArgs call.toolName call.toolArgs).isSome = true
  case neg =>
    have off :
        (!config.checkpointing ||
          (singleExecCommandArgs call.toolName call.toolArgs).isNone) =
            true := by
      simpa [Option.isSome_iff_ne_none, Classical.or_iff_not_imp_left]
        using on
    rw [DeferredHook.toolNow, if_pos off]
    refine lock.idle .notTaken ?_ (by simp) (by simp)
    rw [checkpointAfterTool]
    cases isOn : config.checkpointing with
    | false => rfl
    | true =>
        rw [isOn, Bool.not_true, Bool.false_or] at off
        rw [if_neg (by simp), if_pos off]
  obtain ⟨isOn, isExec⟩ := on
  have isNotNone :
      (singleExecCommandArgs call.toolName call.toolArgs).isNone = false := by
    simpa [Option.isSome_iff_ne_none] using isExec
  cases available : !call.rootAvailable || call.snapshotFault with
  | true =>
      have captured : ∀ since,
          captureHostSnapshot deferred.checkpointBackend since call =
            (.failed "checkpoint failed", deferred.checkpointBackend) := by
        intro since
        rw [captureHostSnapshot, if_pos available]
      cases root : call.rootAvailable with
      | false =>
          refine lock.givesUp "checkpoint root is unavailable" isOn isExec ?_
            captured
          simp [checkpointAfterTool, isOn, isNotNone, root]
      | true =>
          rw [root, Bool.not_true, Bool.false_or] at available
          refine lock.givesUp "checkpoint failed" isOn isExec ?_
            captured
          simp [checkpointAfterTool, isOn, isNotNone, root, label, available]
  | false =>
      obtain ⟨root, noFault⟩ : call.rootAvailable = true ∧
          call.snapshotFault = false := by simpa using available
      cases taken : snapshotCheckpointEntries call.tree with
      | error failure =>
          refine lock.givesUp "checkpoint failed" isOn isExec ?_
            (fun since => ?_)
          · simp [checkpointAfterTool, isOn, isNotNone, root, label, noFault,
              taken]
          · rw [captureHostSnapshot, if_neg (by simp [available]), taken]
      | ok current =>
          by_cases nothing :
              precomputedPaths run.session.hook current = some ([], [])
          · have result :
                checkpointAfterTool config run.session.hook
                    call.toCheckpointCall =
                  (.skipped, run.session.hook) := by
              simp [checkpointAfterTool, isOn, isNotNone, root, label,
                noFault, taken, nothing]
            have unchanged :
                ¬ Attempts run.session call.toCheckpointCall :=
              fun attempts => lock.based.differs attempts taken nothing
            rcases deferred.toolNow_cases isOn isExec with
              ⟨previous, outcome, _, _, equal, notRecorded⟩ |
              ⟨last, equal⟩ | ⟨previous, last, noProbeFault, newer, equal⟩
            · rw [equal]
              exact lock.idle _ result (by simp) notRecorded
            · have noSince := lock.baseline.incremental
              rw [last] at noSince
              rw [precomputedPaths,
                Option.isNone_iff_eq_none.mp
                  (Option.isSome_eq_false_iff.mp noSince)] at nothing
              cases nothing
            · have notForced : deferred.forceFull config = false := by
                by_contra forced
                rw [Bool.not_eq_false] at forced
                rcases quiet unchanged previous last forced with
                  fault | old
                · rw [noProbeFault] at fault
                  cases fault
                · rw [newer] at old
                  cases old
              obtain ⟨_, _, _, paths⟩ := lock.baseline.paths last current
              rw [equal, notForced, if_neg (by simp)]
              refine lock.idleCapture .unchanged result (by simp) ?_ (by simp)
              rw [captureHostSnapshot, if_neg (by simp [available]), taken]
              dsimp only
              rw [paths, nothing]
          · have result :
                checkpointAfterTool config run.session.hook
                    call.toCheckpointCall =
                  writePlanned config run.session.hook
                    call.toCheckpointCall current
                    (planManifest config run.session.hook current) := by
              simp only [checkpointAfterTool, isOn, isNotNone, root, label,
                noFault, taken, Bool.not_true, Bool.false_eq_true, if_false,
                ne_eq, not_true_eq_false]
            have agreed :=
              agrees (lock.based.attempts
                ⟨isExec, current, taken, nothing⟩)
            rcases deferred.toolNow_cases isOn isExec with
              ⟨previous, outcome, last, missed, _, _⟩ |
              ⟨last, equal⟩ | ⟨previous, last, _, _, equal⟩
            · obtain ⟨noProbeFault, newer⟩ := agreed.probed previous last
              rw [noProbeFault, newer] at missed
              simp at missed
            · have noFull := lock.baseline.full
              rw [last] at noFull
              rw [equal]
              exact lock.writeFirst agreed taken result available
                (Or.inl (by simpa using noFull)) _
            · rw [equal]
              have forceFull := lock.baseline.forceFull config
              cases forced : deferred.forceFull config with
              | true =>
                  rw [if_pos rfl]
                  exact lock.writeFirst agreed taken result available
                    (Or.inr (forceFull.trans forced)) _
              | false =>
                  rw [if_neg (by simp)]
                  exact lock.writeNext agreed taken result available last
                    (forceFull.trans forced) nothing _

end Step

/-! ## Runs -/

theorem Lockstep.start (blobs : BlobStore) :
    Lockstep [] (SyncRun.start blobs) (DeferredHook.start blobs) where
  accounted := DeferredHook.start_accounted blobs
  based := Session.start_based blobs
  baseline := ⟨rfl, rfl, rfl, rfl, rfl, rfl, rfl⟩
  actions := .nil

/-- Lockstep with the hook that a run of events settles to. -/
theorem Lockstep.run
    {config : HookConfig} {calls : List ScheduledCall} {run : SyncRun}
    {deferred : DeferredHook} {events : List ScheduleEvent}
    (lock :
      Lockstep calls run (awaitPendingCheckpointCaptures deferred))
    (orderly : deferred.Orderly)
    (label : config.checkpointRootLabel = "/testbed")
    (agrees : RunAgrees config run deferred events) :
    Lockstep (calls ++ toolCalls events) (run.run config events)
      (awaitPendingCheckpointCaptures (deferred.run config events)) := by
  induction events generalizing calls run deferred with
  | nil =>
      rw [toolCalls, List.append_nil]
      exact lock
  | cons event rest induction =>
      have stepped := orderly.step config event
      obtain ⟨eventAgrees, restAgrees⟩ := agrees
      cases event with
      | tool call =>
          obtain ⟨changed, unchanged⟩ := eventAgrees call rfl
          have next := lock.tool label changed unchanged
          rw [← awaitPending_tool config orderly call] at next
          rw [toolCalls, List.append_cons]
          exact induction next stepped restAgrees
      | turn =>
          rw [← awaitPending_turn config orderly] at lock
          exact induction lock stepped restAgrees
      | drain =>
          have settled := awaitPending_of_none (awaitPending_pending deferred)
          rw [← settled] at lock
          exact induction lock stepped restAgrees

theorem DeferredHook.run_drain
    (config : HookConfig) (hook : DeferredHook)
    (events : List ScheduleEvent) :
    hook.run config (events ++ [.drain]) =
      awaitPendingCheckpointCaptures (hook.run config events) := by
  rw [DeferredHook.run, List.foldl_append]
  rfl

section Checks

variable
  {config : HookConfig} {run : SyncRun} {deferred : DeferredHook}
  {call : ScheduledCall}

instance CheckpointAfter.decidableForall
    (actions : List CheckpointAfter) (test : CheckpointRecord → Prop)
    [DecidablePred test] :
    Decidable (∀ record, .recorded record ∈ actions → test record) :=
  decidable_of_iff
    (actions.all
      (fun
        | .recorded record => decide (test record)
        | _ => true) = true)
    (by
      rw [List.all_eq_true]
      constructor
      · intro holds record member
        simpa using holds _ member
      · intro holds after member
        cases after with
        | recorded record => simpa using holds record member
        | _ => rfl)

/-- The conditions on a call are computed from the state before it. -/
instance CaptureAgrees.decidable :
    Decidable (CaptureAgrees config run deferred call) :=
  decidable_of_iff
    ((∀ previous ∈ deferred.lastDeferredCheckpointSnapshot,
        call.probeFault = false ∧
          anyFileNewerThan call.tree previous.timestampNs = true) ∧
      anyFileNewerThan call.tree call.markerBeforeNs =
        anyFileNewerThan call.tree call.captureMarkerNs ∧
      call.manifestUnreadable = false ∧
      (∀ record, .recorded record ∈ run.actions →
        record.path ≠ manifestName config call.toolCallId) ∧
      ∀ record, .recorded record ∈ deferred.actions →
        record.path ≠ snapshotManifestName call.captureMarkerNs)
    ⟨fun ⟨probed, clocks, readable, fresh, freshSnapshot⟩ =>
        ⟨probed, clocks, readable, fresh, freshSnapshot⟩,
      fun agrees => ⟨agrees.probed, agrees.clocks, agrees.readable,
        agrees.nameFresh, agrees.snapshotFresh⟩⟩

instance QuietAgrees.decidable :
    Decidable (QuietAgrees config deferred call) :=
  inferInstanceAs (Decidable
    (∀ previous ∈ deferred.lastDeferredCheckpointSnapshot,
      deferred.forceFull config = true →
        call.probeFault = true ∨
          anyFileNewerThan call.tree previous.timestampNs = false))

end Checks

/--
In every run whose probe sees what the snapshots see, the drained schedule
has a checkpoint wherever the synchronous one has, restores the same there,
and accounts for each of its captures.
-/
theorem deferred_restores
    (config : HookConfig) (label : config.checkpointRootLabel = "/testbed")
    (blobs : BlobStore) (events : List ScheduleEvent)
    (agrees :
      RunAgrees config (SyncRun.start blobs) (DeferredHook.start blobs)
        events) :
    let sync := (SyncRun.start blobs).run config events
    let deferred :=
      (DeferredHook.start blobs).run config (events ++ [.drain])
    (∀ action record,
        sync.actions[action]? = some (.recorded record) →
          (∃ other,
            deferred.actions[action]? = some (.recorded other)) ∧
            ∀ fs, deferred.restoredAt action fs =
              sync.restoredAt action fs) ∧
      deferred.Accounted (toolCalls events) := by
  intro sync deferred
  have lock :=
    (Lockstep.start blobs).run
      (DeferredHook.orderly_of_none rfl) label agrees
  rw [List.nil_append, ← DeferredHook.run_drain] at lock
  refine ⟨?_, lock.accounted⟩
  intro action record recorded
  constructor
  · obtain ⟨count, outcomes⟩ := List.forall₂_iff_get.mp lock.actions
    obtain ⟨bound, isRecord⟩ := List.getElem?_eq_some_iff.mp recorded
    have outcome := outcomes action bound (count ▸ bound)
    rw [List.get_eq_getElem, isRecord] at outcome
    generalize isOther :
      (deferred.actions.get ⟨action, count ▸ bound⟩) = other at outcome
    cases outcome with
    | recorded same => exact ⟨_, List.getElem?_eq_some_iff.mpr ⟨_, isOther⟩⟩
    | unrecorded notRecorded _ => exact (notRecorded record rfl).elim
  · intro fs
    rw [DeferredHook.restoredAt, SyncRun.restoredAt,
      ← lock.baseline.blobs]
    exact (restoredAt_eq lock.actions _ action fs).symm

/-! ## Two schedules -/

/-- An `exec` call whose capture runs soon after it. -/
def deferredExec
    (toolCallId : String) (markerBeforeNs : Int) (tree : Tree) :
    ScheduledCall where
  toCheckpointCall := execCall toolCallId markerBeforeNs tree
  captureMarkerNs := markerBeforeNs + 1
  probeFault := false
  manifestUnreadable := false

/-- The output is written at a later time. -/
def laterTree (time : Int) : Tree :=
  Tree.ofObjects
    [(["run.sh"], .file ⟨"d1", 0o100644⟩, ⟨5, 1⟩),
      (["out.txt"], .file ⟨"e2", 0o100644⟩, ⟨6, time⟩)]
    (fun _ => false) (by
      intro item member
      simp only [List.mem_cons, List.not_mem_nil, or_false] at member
      rcases member with rfl | rfl <;> refine ⟨?_, ?_, rfl, ?_⟩ <;>
        dsimp only <;> decide)

/-- A full, a failed, a skipped and two incremental checkpoints. -/
def deferredEvents : List ScheduleEvent :=
  [.tool (deferredExec "call_1" 10 scriptTree), .turn,
    .tool { deferredExec "call_2" 20 (laterTree 15) with
      writeFault := some ⟨1, false⟩ },
    .drain, .tool (deferredExec "call_3" 30 scriptTree), .turn, .drain,
    .tool (deferredExec "call_4" 40 (laterTree 35)),
    .tool (deferredExec "call_5" 50 (laterTree 45)), .turn]

/-- The output is edited in place and gets its old modification time back. -/
def touchedEvents : List ScheduleEvent :=
  [.tool (deferredExec "call_1" 10 scriptTree), .turn, .drain,
    .tool (deferredExec "call_2" 20 (laterTree 1))]

/-- The recorded tree itself has nothing to record. -/
theorem not_attempts_of_recorded
    {session : Session} {call : CheckpointCall}
    (recorded : session.recordedTree = some call.tree) :
    ¬ Attempts session call := by
  intro attempts
  obtain ⟨path, changed | dropped⟩ := attempts.2 call.tree recorded
  · obtain ⟨entry, isEntry, _, requires⟩ := changed
    rw [isEntry] at requires
    rw [Tree.snapshotAt] at isEntry
    split at isEntry
    · obtain ⟨object, _, rfl⟩ := Option.map_eq_some_iff.mp isEntry
      simp [checkpointEntryRequiresManifest] at requires
    · cases isEntry
  · obtain ⟨_, old, isOld, differs⟩ := dropped
    exact differs old isOld rfl

theorem deferred_restores_events :
    (∀ action record,
        ((SyncRun.start fun _ => none).run hostConfig
            deferredEvents).actions[action]? = some (.recorded record) →
          (∃ other,
            ((DeferredHook.start fun _ => none).run hostConfig
              (deferredEvents ++ [.drain])).actions[action]? =
                some (.recorded other)) ∧
            ∀ fs,
              ((DeferredHook.start fun _ => none).run hostConfig
                  (deferredEvents ++ [.drain])).restoredAt action fs =
                ((SyncRun.start fun _ => none).run hostConfig
                  deferredEvents).restoredAt action fs) ∧
      ((DeferredHook.start fun _ => none).run hostConfig
        (deferredEvents ++ [.drain])).Accounted
          (toolCalls deferredEvents) := by
  refine deferred_restores hostConfig rfl (fun _ => none) deferredEvents
    ⟨?_, ?_, ?_, ?_, ?_, ?_, ?_, ?_, ?_, ?_, trivial⟩
  all_goals
    rintro call equal
    cases equal
  · exact ⟨fun _ => by decide +kernel, fun _ => by decide +kernel⟩
  · exact ⟨fun _ => by decide +kernel, fun _ => by decide +kernel⟩
  · exact ⟨fun attempts => (not_attempts_of_recorded rfl attempts).elim,
      fun _ => by decide +kernel⟩
  · exact ⟨fun _ => by decide +kernel, fun _ => by decide +kernel⟩
  · exact ⟨fun _ => by decide +kernel, fun _ => by decide +kernel⟩

/-- The file that a restored state has at a path. -/
def restoredFile (result : RestoreResult) (path : RelPath) :
    Option (Option CasManifestValue) :=
  result.toOption.map fun after => entriesBelow after restoreRoot path

/-- The probe misses the edit, so the deferred chain keeps the old output. -/
theorem deferred_restores_touched :
    ∃ events action record,
      ((SyncRun.start fun _ => none).run hostConfig
          events).actions[action]? = some (.recorded record) ∧
        ((DeferredHook.start fun _ => none).run hostConfig
            (events ++ [.drain])).restoredAt action Fs.empty ≠
          ((SyncRun.start fun _ => none).run hostConfig
            events).restoredAt action Fs.empty := by
  refine ⟨touchedEvents, 1, _, rfl, fun equal => ?_⟩
  have output :=
    congrArg (fun result => restoredFile result ["out.txt"]) equal
  revert output
  decide +kernel

end AgentSchedBench.Checkpoint
