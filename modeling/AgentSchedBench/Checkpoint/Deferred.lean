import AgentSchedBench.Checkpoint.Collector
import AgentSchedBench.Checkpoint.Restore

/-!
# The deferred host checkpoint

With deferred scheduling the hook decides by a probe for recent modification
times whether a capture is needed, starts it as a task of the event loop, and
awaits the task before the next tools run.  `DeferredHook.step` follows that
life of a capture, with the event loop free to run a task at any moment.

At most one capture is ever pending, so every hook can be compared with the
one it settles to once that capture is consumed.  A settled hook accounts for
its captures: each was consumed once, on its own action, and compared against
the snapshot of the capture recorded last before it.
-/

namespace AgentSchedBench.Checkpoint

open FileSystem

/-! ## The walk backend -/

/-- A call, with what only the deferred schedule meets at it. -/
structure ScheduledCall extends CheckpointCall where
  captureMarkerNs : Int
  probeFault : Bool
  manifestUnreadable : Bool

/-- The fields of a `SandboxSnapshot` that the hook reads. -/
structure SandboxSnapshot where
  manifestPath : String
  kind : CheckpointKind
  chainBytes : Nat
  timestampNs : Int
deriving DecidableEq, Repr

/-- A `WalkBackend` on the host, and the files it writes. -/
structure WalkBackend where
  checkpointSnapshotEntries : Option CheckpointSnapshot
  checkpointHashCache : HashCache
  blobs : BlobStore
  manifestFiles : String → Option Manifest

/-- What `capture_snapshot` does: raise, return its argument, or capture. -/
inductive CaptureResult where
  | failed (message : String)
  | unchanged
  | taken (snapshot : SandboxSnapshot)
deriving DecidableEq, Repr

/-- The file name of a captured manifest. -/
def snapshotManifestName (markerNs : Int) : String :=
  "snapshot-" ++ toString markerNs ++ "-manifest.json"

/-- The differences to the baseline, if the capture is incremental. -/
def capturePaths
    (backend : WalkBackend) (incrementalSince : Option SandboxSnapshot)
    (current : CheckpointSnapshot) : Option (List RelPath × List RelPath) :=
  match incrementalSince, backend.checkpointSnapshotEntries with
  | some _, some previous =>
      some (computeCheckpointDeletedPaths (some previous) current,
        computeCheckpointChangedPaths previous current)
  | _, _ => none

/-- The second half of `_capture_host_snapshot`. -/
def writeCapture
    (backend : WalkBackend) (incrementalSince : Option SandboxSnapshot)
    (call : ScheduledCall) (current : CheckpointSnapshot)
    (paths : Option (List RelPath × List RelPath)) :
    CaptureResult × WalkBackend :=
  let sinceNs := incrementalSince.map SandboxSnapshot.timestampNs
  let deletedPaths := (paths.map Prod.fst).getD []
  let changedPaths := paths.map Prod.snd
  match call.writeFault with
  | some fault =>
      let left :=
        interruptedWrite call.tree sinceNs changedPaths
          backend.checkpointHashCache backend.blobs fault
      (.failed "checkpoint failed",
        { backend with checkpointHashCache := left.1, blobs := left.2 })
  | none =>
      match
          writeCasManifest call.tree sinceNs deletedPaths changedPaths
            backend.checkpointHashCache backend.blobs with
      | .error _ => (.failed "checkpoint failed", backend)
      | .ok (manifest, state) =>
          let name := snapshotManifestName call.captureMarkerNs
          if anyFileNewerThan call.tree call.captureMarkerNs then
            (.failed "checkpoint failed: filesystem changed during checkpoint",
              { backend with
                checkpointHashCache := state.hashCache
                blobs := state.blobs
                manifestFiles :=
                  Function.update backend.manifestFiles name none })
          else
            -- the baseline advances before the manifest is read back
            let written :=
              { checkpointSnapshotEntries := some current
                checkpointHashCache := state.hashCache
                blobs := state.blobs
                manifestFiles :=
                  Function.update backend.manifestFiles name
                    (some manifest) }
            if call.manifestUnreadable then
              (.failed "checkpoint failed", written)
            else
              (.taken
                  { manifestPath := name
                    kind :=
                      if incrementalSince.isNone then .casManifestFull
                      else .casManifestIncremental
                    chainBytes := state.totalUniqueBytes
                    timestampNs := call.captureMarkerNs },
                written)

/-- `_capture_host_snapshot`. -/
def captureHostSnapshot
    (backend : WalkBackend) (incrementalSince : Option SandboxSnapshot)
    (call : ScheduledCall) : CaptureResult × WalkBackend :=
  if !call.rootAvailable || call.snapshotFault then
    (.failed "checkpoint failed", backend)
  else
    match snapshotCheckpointEntries call.tree with
    | .error _ => (.failed "checkpoint failed", backend)
    | .ok current =>
        match capturePaths backend incrementalSince current with
        | some ([], []) => (.unchanged, backend)
        | paths => writeCapture backend incrementalSince call current paths

/-! ## The deferred hook -/

/-- The result of a capture task, with the baseline it compared against. -/
structure CaptureDone where
  checkpointAfter : CheckpointAfter
  snapshot : Option SandboxSnapshot
  baseline : Option CheckpointSnapshot

/-- A `_PendingCheckpointCapture`; `action` names its action data. -/
structure PendingCapture where
  action : Nat
  call : ScheduledCall
  incrementalSince : Option SandboxSnapshot
  forceFull : Bool
  done : Option CaptureDone

/-- A consumed capture: its action, its call and its result. -/
structure AppliedCapture where
  action : Nat
  call : ScheduledCall
  done : CaptureDone

/--
The deferred checkpoint fields of the hook and the checkpoint results of its
actions.  `scheduled` and `applied` are the history of the pending list.
-/
structure DeferredHook where
  lastFullCheckpointNs : Option Int
  lastIncrementalCheckpointNs : Option Int
  checkpointChainBytesSinceFull : Nat
  checkpointBackend : WalkBackend
  lastDeferredCheckpointSnapshot : Option SandboxSnapshot
  pendingCheckpointCaptures : List PendingCapture
  actions : List CheckpointAfter
  scheduled : List Nat
  applied : List AppliedCapture

def DeferredHook.start (blobs : BlobStore) : DeferredHook where
  lastFullCheckpointNs := none
  lastIncrementalCheckpointNs := none
  checkpointChainBytesSinceFull := 0
  checkpointBackend := ⟨none, fun _ => none, blobs, fun _ => none⟩
  lastDeferredCheckpointSnapshot := none
  pendingCheckpointCaptures := []
  actions := []
  scheduled := []
  applied := []

/-- `_capture_checkpoint_deferred`. -/
def captureCheckpointDeferred
    (backend : WalkBackend) (pending : PendingCapture) :
    CaptureDone × WalkBackend :=
  let baseline := backend.checkpointSnapshotEntries
  let captured :=
    captureHostSnapshot backend pending.incrementalSince pending.call
  let done : CaptureDone :=
    match captured.1 with
    | .failed message => ⟨.error message, none, baseline⟩
    | .unchanged => ⟨.skipped, pending.incrementalSince, baseline⟩
    | .taken snapshot =>
        ⟨.recorded
            { path := snapshot.manifestPath
              kind := snapshot.kind
              incrementalSinceNs :=
                pending.incrementalSince.map SandboxSnapshot.timestampNs
              rebaseline := pending.forceFull
              chainBytes := snapshot.chainBytes },
          some snapshot, baseline⟩
  (done, captured.2)

/-- The task of a pending capture, run to its end unless it is done. -/
def PendingCapture.finish
    (pending : PendingCapture) (backend : WalkBackend) :
    CaptureDone × WalkBackend :=
  match pending.done with
  | some done => (done, backend)
  | none => captureCheckpointDeferred backend pending

/-- `_record_deferred_checkpoint_snapshot`. -/
def recordDeferredCheckpointSnapshot
    (hook : DeferredHook) (snapshot : SandboxSnapshot)
    (checkpointAfter : CheckpointAfter) : DeferredHook :=
  match checkpointAfter with
  | .recorded record =>
      { hook with
        lastFullCheckpointNs :=
          if record.kind = .casManifestFull then some snapshot.timestampNs
          else hook.lastFullCheckpointNs
        checkpointChainBytesSinceFull :=
          if record.kind = .casManifestFull then 0
          else hook.checkpointChainBytesSinceFull + record.chainBytes
        lastIncrementalCheckpointNs := some snapshot.timestampNs
        lastDeferredCheckpointSnapshot := some snapshot }
  | _ => hook

/-- `_apply_deferred_checkpoint_result`. -/
def applyDeferredCheckpointResult
    (hook : DeferredHook) (pending : PendingCapture) (done : CaptureDone) :
    DeferredHook :=
  let recorded :=
    match done.snapshot with
    | some snapshot =>
        recordDeferredCheckpointSnapshot hook snapshot done.checkpointAfter
    | none => hook
  { recorded with
    actions := recorded.actions.set pending.action done.checkpointAfter
    applied := recorded.applied ++ [⟨pending.action, pending.call, done⟩] }

/-- One turn of the loop in `_await_pending_checkpoint_captures`. -/
def consumePending (hook : DeferredHook) (pending : PendingCapture) :
    DeferredHook :=
  let finished := pending.finish hook.checkpointBackend
  applyDeferredCheckpointResult
    { hook with checkpointBackend := finished.2 } pending finished.1

/-- `_await_pending_checkpoint_captures`. -/
def awaitPendingCheckpointCaptures (hook : DeferredHook) : DeferredHook :=
  hook.pendingCheckpointCaptures.foldl consumePending
    { hook with pendingCheckpointCaptures := [] }

/-- `_schedule_checkpoint_capture`, for the action that is being recorded. -/
def scheduleCheckpointCapture
    (hook : DeferredHook) (call : ScheduledCall)
    (incrementalSince : Option SandboxSnapshot) (forceFull : Bool) :
    DeferredHook :=
  { hook with
    pendingCheckpointCaptures :=
      hook.pendingCheckpointCaptures ++
        [⟨hook.actions.length, call, incrementalSince, forceFull, none⟩]
    scheduled := hook.scheduled ++ [hook.actions.length] }

/-- The rebaseline test of the deferred schedule. -/
def DeferredHook.forceFull (config : HookConfig) (hook : DeferredHook) :
    Bool :=
  hook.lastDeferredCheckpointSnapshot.isSome &&
    match config.rebaselineBytes with
    | none => false
    | some bound => bound ≤ hook.checkpointChainBytesSinceFull

/-- The decision of the deferred schedule, with nothing pending. -/
def probeAndSchedule
    (config : HookConfig) (hook : DeferredHook) (call : ScheduledCall) :
    CheckpointAfter × DeferredHook :=
  match hook.lastDeferredCheckpointSnapshot with
  | none =>
      (.notTaken, scheduleCheckpointCapture hook call none false)
  | some previous =>
      if call.probeFault then (.error "checkpoint probe failed", hook)
      else if !anyFileNewerThan call.tree previous.timestampNs then
        (.skipped, hook)
      else
        (.notTaken,
          scheduleCheckpointCapture hook call
            (if hook.forceFull config then none else some previous)
            (hook.forceFull config))

/-- `_checkpoint_after_tool_deferred`. -/
def checkpointAfterToolDeferred
    (config : HookConfig) (hook : DeferredHook) (call : ScheduledCall) :
    CheckpointAfter × DeferredHook :=
  if !config.checkpointing then (.notTaken, hook)
  else if (singleExecCommandArgs call.toolName call.toolArgs).isNone then
    (.notTaken, hook)
  else
    probeAndSchedule config (awaitPendingCheckpointCaptures hook) call

/-- What happens to the hook: a tool call, a turn of the event loop, a drain. -/
inductive ScheduleEvent where
  | tool (call : ScheduledCall)
  | turn
  | drain

/-- Append an action with its checkpoint result. -/
def DeferredHook.addAction
    (hook : DeferredHook) (checkpointAfter : CheckpointAfter) :
    DeferredHook :=
  { hook with actions := hook.actions ++ [checkpointAfter] }

/-- The event loop runs the next pending task that is not done. -/
def runPending (backend : WalkBackend) :
    List PendingCapture → List PendingCapture × WalkBackend
  | [] => ([], backend)
  | pending :: rest =>
      match pending.done with
      | none =>
          let finished := captureCheckpointDeferred backend pending
          ({ pending with done := some finished.1 } :: rest, finished.2)
      | some _ =>
          let later := runPending backend rest
          (pending :: later.1, later.2)

/-- One event. -/
def DeferredHook.step
    (config : HookConfig) (hook : DeferredHook) :
    ScheduleEvent → DeferredHook
  | .tool call =>
      let result := checkpointAfterToolDeferred config hook call
      result.2.addAction result.1
  | .turn =>
      let turned :=
        runPending hook.checkpointBackend hook.pendingCheckpointCaptures
      { hook with
        pendingCheckpointCaptures := turned.1
        checkpointBackend := turned.2 }
  | .drain => awaitPendingCheckpointCaptures hook

def DeferredHook.run
    (config : HookConfig) (hook : DeferredHook)
    (events : List ScheduleEvent) : DeferredHook :=
  events.foldl (DeferredHook.step config) hook

/-! ## Settling a hook -/

/-- A capture that runs at once and is consumed on its own action. -/
def DeferredHook.captureNow
    (hook : DeferredHook) (call : ScheduledCall)
    (incrementalSince : Option SandboxSnapshot) (forceFull : Bool) :
    DeferredHook :=
  let action := hook.actions.length
  let finished :=
    captureCheckpointDeferred hook.checkpointBackend
      ⟨action, call, incrementalSince, forceFull, none⟩
  let captured := { hook with checkpointBackend := finished.2 }
  let recorded :=
    match finished.1.snapshot with
    | some snapshot =>
        recordDeferredCheckpointSnapshot captured snapshot
          finished.1.checkpointAfter
    | none => captured
  { recorded with
    actions := hook.actions ++ [finished.1.checkpointAfter]
    scheduled := hook.scheduled ++ [action]
    applied := hook.applied ++ [⟨action, call, finished.1⟩] }

/-- A tool call of a hook that leaves nothing pending. -/
def DeferredHook.toolNow
    (config : HookConfig) (hook : DeferredHook) (call : ScheduledCall) :
    DeferredHook :=
  if !config.checkpointing ||
      (singleExecCommandArgs call.toolName call.toolArgs).isNone then
    hook.addAction .notTaken
  else
    match hook.lastDeferredCheckpointSnapshot with
    | none => hook.captureNow call none false
    | some previous =>
        if call.probeFault then
          hook.addAction (.error "checkpoint probe failed")
        else if !anyFileNewerThan call.tree previous.timestampNs then
          hook.addAction .skipped
        else
          hook.captureNow call
            (if hook.forceFull config then none else some previous)
            (hook.forceFull config)

/-- At most one capture is pending, for an action that exists. -/
structure DeferredHook.Orderly (hook : DeferredHook) : Prop where
  single : hook.pendingCheckpointCaptures.length ≤ 1
  known :
    ∀ pending ∈ hook.pendingCheckpointCaptures,
      pending.action < hook.actions.length

theorem recordDeferredCheckpointSnapshot_actions
    (hook : DeferredHook) (snapshot : SandboxSnapshot)
    (checkpointAfter : CheckpointAfter) :
    (recordDeferredCheckpointSnapshot hook snapshot
      checkpointAfter).actions = hook.actions := by
  cases checkpointAfter <;> rfl

theorem recordDeferredCheckpointSnapshot_pending
    (hook : DeferredHook) (snapshot : SandboxSnapshot)
    (checkpointAfter : CheckpointAfter) :
    (recordDeferredCheckpointSnapshot hook snapshot
      checkpointAfter).pendingCheckpointCaptures =
      hook.pendingCheckpointCaptures := by
  cases checkpointAfter <;> rfl

@[simp]
theorem consumePending_pending
    (hook : DeferredHook) (pending : PendingCapture) :
    (consumePending hook pending).pendingCheckpointCaptures =
      hook.pendingCheckpointCaptures := by
  rw [consumePending, applyDeferredCheckpointResult]
  dsimp only
  cases (pending.finish hook.checkpointBackend).1.snapshot with
  | none => rfl
  | some snapshot => rw [recordDeferredCheckpointSnapshot_pending]

@[simp]
theorem consumePending_length
    (hook : DeferredHook) (pending : PendingCapture) :
    (consumePending hook pending).actions.length = hook.actions.length := by
  rw [consumePending, applyDeferredCheckpointResult]
  dsimp only
  cases (pending.finish hook.checkpointBackend).1.snapshot with
  | none => simp
  | some snapshot => simp [recordDeferredCheckpointSnapshot_actions]

theorem awaitPending_of_none
    {hook : DeferredHook} (none : hook.pendingCheckpointCaptures = []) :
    awaitPendingCheckpointCaptures hook = hook := by
  rw [awaitPendingCheckpointCaptures, none]
  obtain ⟨⟩ := hook
  cases none
  rfl

@[simp]
theorem awaitPending_pending (hook : DeferredHook) :
    (awaitPendingCheckpointCaptures hook).pendingCheckpointCaptures = [] := by
  rw [awaitPendingCheckpointCaptures]
  induction hook.pendingCheckpointCaptures using List.reverseRecOn with
  | nil => rfl
  | append_singleton rest pending induction =>
      rw [List.foldl_append, List.foldl_cons, List.foldl_nil,
        consumePending_pending, induction]

theorem awaitPending_length (hook : DeferredHook) :
    (awaitPendingCheckpointCaptures hook).actions.length =
      hook.actions.length := by
  rw [awaitPendingCheckpointCaptures]
  induction hook.pendingCheckpointCaptures using List.reverseRecOn with
  | nil => rfl
  | append_singleton rest pending induction =>
      rw [List.foldl_append, List.foldl_cons, List.foldl_nil,
        consumePending_length, induction]

theorem DeferredHook.orderly_of_none
    {hook : DeferredHook} (none : hook.pendingCheckpointCaptures = []) :
    hook.Orderly where
  single := by simp [none]
  known := by simp [none]

/-- A turn of the event loop does not matter once the hook has settled. -/
theorem awaitPending_turn
    (config : HookConfig) {hook : DeferredHook} (orderly : hook.Orderly) :
    awaitPendingCheckpointCaptures (hook.step config .turn) =
      awaitPendingCheckpointCaptures hook := by
  have single := orderly.single
  rw [awaitPendingCheckpointCaptures, awaitPendingCheckpointCaptures,
    DeferredHook.step]
  rcases pendings : hook.pendingCheckpointCaptures with
    _ | ⟨pending, _ | ⟨other, rest⟩⟩
  · rfl
  · cases done : pending.done with
    | some result => rw [runPending, done]; rfl
    | none =>
        simp [runPending, done, consumePending, PendingCapture.finish,
          applyDeferredCheckpointResult]
  · simp [pendings] at single

theorem awaitPending_addAction
    {hook : DeferredHook} (orderly : hook.Orderly)
    (checkpointAfter : CheckpointAfter) :
    awaitPendingCheckpointCaptures (hook.addAction checkpointAfter) =
      (awaitPendingCheckpointCaptures hook).addAction checkpointAfter := by
  have single := orderly.single
  have known := orderly.known
  rw [awaitPendingCheckpointCaptures, awaitPendingCheckpointCaptures,
    DeferredHook.addAction]
  rcases pendings : hook.pendingCheckpointCaptures with
    _ | ⟨pending, _ | ⟨other, rest⟩⟩
  · rfl
  · have bound := known pending (by simp [pendings])
    simp only [List.foldl_cons, List.foldl_nil, consumePending,
      applyDeferredCheckpointResult]
    cases (pending.finish hook.checkpointBackend).1.snapshot with
    | none => simp [DeferredHook.addAction, List.set_append_left, bound]
    | some snapshot =>
        cases (pending.finish hook.checkpointBackend).1.checkpointAfter <;>
          simp [recordDeferredCheckpointSnapshot, DeferredHook.addAction,
            List.set_append_left, bound]
  · simp [pendings] at single

/-- A capture that is scheduled and consumed is one that runs at once. -/
theorem awaitPending_schedule
    {hook : DeferredHook} (none : hook.pendingCheckpointCaptures = [])
    (call : ScheduledCall) (incrementalSince : Option SandboxSnapshot)
    (forceFull : Bool) :
    awaitPendingCheckpointCaptures
        ((scheduleCheckpointCapture hook call incrementalSince
          forceFull).addAction .notTaken) =
      hook.captureNow call incrementalSince forceFull := by
  rw [awaitPendingCheckpointCaptures, DeferredHook.captureNow]
  simp only [scheduleCheckpointCapture, DeferredHook.addAction, none,
    List.nil_append, List.foldl_cons, List.foldl_nil, consumePending,
    PendingCapture.finish, applyDeferredCheckpointResult]
  cases (captureCheckpointDeferred hook.checkpointBackend
    ⟨hook.actions.length, call, incrementalSince, forceFull,
      Option.none⟩).1.snapshot with
  | none => simp
  | some snapshot =>
      cases (captureCheckpointDeferred hook.checkpointBackend
        ⟨hook.actions.length, call, incrementalSince, forceFull,
          Option.none⟩).1.checkpointAfter <;>
        simp [recordDeferredCheckpointSnapshot]

theorem awaitPending_tool
    (config : HookConfig) {hook : DeferredHook} (orderly : hook.Orderly)
    (call : ScheduledCall) :
    awaitPendingCheckpointCaptures (hook.step config (.tool call)) =
      (awaitPendingCheckpointCaptures hook).toolNow config call := by
  have settled := awaitPending_pending hook
  rw [DeferredHook.step, checkpointAfterToolDeferred, DeferredHook.toolNow]
  split
  · next off => simp [off, awaitPending_addAction orderly]
  · next on =>
      split
      · next noExec => simp [noExec, awaitPending_addAction orderly]
      · next isExec =>
          rw [if_neg (by simpa using ⟨by simpa using on, by simpa using isExec⟩),
            probeAndSchedule]
          generalize awaitPendingCheckpointCaptures hook = now at settled ⊢
          have quiet :
              ∀ after,
                awaitPendingCheckpointCaptures (now.addAction after) =
                  now.addAction after :=
            fun after => awaitPending_of_none settled
          cases now.lastDeferredCheckpointSnapshot with
          | none => exact awaitPending_schedule settled call _ _
          | some previous =>
              dsimp only
              split
              · exact quiet _
              · split
                · exact quiet _
                · exact awaitPending_schedule settled call _ _

theorem DeferredHook.Orderly.step
    (config : HookConfig) {hook : DeferredHook} (orderly : hook.Orderly)
    (event : ScheduleEvent) : (hook.step config event).Orderly := by
  cases event with
  | drain => exact DeferredHook.orderly_of_none (awaitPending_pending hook)
  | turn =>
      have single := orderly.single
      have known := orderly.known
      rw [DeferredHook.step]
      rcases pendings : hook.pendingCheckpointCaptures with
        _ | ⟨pending, _ | ⟨other, rest⟩⟩
      · exact DeferredHook.orderly_of_none rfl
      · rw [pendings] at known
        have bound := known pending List.mem_cons_self
        cases done : pending.done <;>
          exact ⟨by simp [runPending, done], by simpa [runPending, done]⟩
      · simp [pendings] at single
  | tool call =>
      rw [DeferredHook.step, checkpointAfterToolDeferred]
      have grown :
          ∀ after, (hook.addAction after).Orderly := fun after =>
        ⟨orderly.single, fun pending member => by
          simpa [DeferredHook.addAction] using
            Nat.lt_succ_of_lt (orderly.known pending member)⟩
      split
      · exact grown _
      · split
        · exact grown _
        · have settled := awaitPending_pending hook
          generalize awaitPendingCheckpointCaptures hook = now at settled ⊢
          have scheduled : ∀ since force,
              ((scheduleCheckpointCapture now call since force).addAction
                .notTaken).Orderly := fun since force =>
            ⟨by simp [scheduleCheckpointCapture, DeferredHook.addAction,
                settled],
              by simp [scheduleCheckpointCapture, DeferredHook.addAction,
                settled]⟩
          rw [probeAndSchedule]
          cases now.lastDeferredCheckpointSnapshot with
          | none => exact scheduled _ _
          | some previous =>
              dsimp only
              split
              · exact DeferredHook.orderly_of_none settled
              · split
                · exact DeferredHook.orderly_of_none settled
                · exact scheduled _ _

/-! ## The account of the captures -/

/-- The snapshot of the last capture that was recorded. -/
def lastRecordedSnapshot (applied : List AppliedCapture) :
    Option CheckpointSnapshot :=
  applied.foldl
    (fun last capture =>
      match capture.done.checkpointAfter with
      | .recorded _ => (snapshotCheckpointEntries capture.call.tree).toOption
      | _ => last)
    none

/-- The captures consumed by a hook that has settled. -/
structure DeferredHook.Accounted
    (calls : List ScheduledCall) (hook : DeferredHook) : Prop where
  settled : hook.pendingCheckpointCaptures = []
  actionCount : hook.actions.length = calls.length
  consumed : hook.scheduled = hook.applied.map AppliedCapture.action
  once : hook.scheduled.Nodup
  ownAction :
    ∀ capture ∈ hook.applied,
      hook.actions[capture.action]? = some capture.done.checkpointAfter ∧
        calls[capture.action]? = some capture.call
  recorded :
    hook.checkpointBackend.checkpointSnapshotEntries =
      lastRecordedSnapshot hook.applied
  baseline :
    ∀ earlier capture later,
      hook.applied = earlier ++ capture :: later →
        capture.done.baseline = lastRecordedSnapshot earlier

/-- The baseline of the backend advances exactly with a capture taken. -/
def CaptureKeepsBaseline
    (backend : WalkBackend) (call : ScheduledCall)
    (captured : CaptureResult × WalkBackend) : Prop :=
  match captured.1 with
  | .taken _ =>
      captured.2.checkpointSnapshotEntries =
        (snapshotCheckpointEntries call.tree).toOption
  | _ =>
      captured.2.checkpointSnapshotEntries =
        backend.checkpointSnapshotEntries

theorem writeCapture_keepsBaseline
    {backend : WalkBackend} {incrementalSince : Option SandboxSnapshot}
    {call : ScheduledCall} {current : CheckpointSnapshot}
    (paths : Option (List RelPath × List RelPath))
    (taken : snapshotCheckpointEntries call.tree = .ok current)
    (readable : call.manifestUnreadable = false) :
    CaptureKeepsBaseline backend call
      (writeCapture backend incrementalSince call current paths) := by
  rw [writeCapture]
  cases call.writeFault with
  | some fault => rfl
  | none =>
      dsimp only
      cases writeCasManifest call.tree
        (incrementalSince.map SandboxSnapshot.timestampNs)
        ((paths.map Prod.fst).getD []) (paths.map Prod.snd)
        backend.checkpointHashCache backend.blobs with
      | error failure => rfl
      | ok written =>
          dsimp only
          split
          · rfl
          · rw [if_neg (by simp [readable])]
            simp [CaptureKeepsBaseline, taken, Except.toOption]

section Accounted

variable
  {calls : List ScheduledCall} {hook : DeferredHook} {call : ScheduledCall}

theorem DeferredHook.start_accounted (blobs : BlobStore) :
    (DeferredHook.start blobs).Accounted [] where
  settled := rfl
  actionCount := rfl
  consumed := rfl
  once := List.nodup_nil
  ownAction _ member := by cases member
  recorded := rfl
  baseline earlier capture later split := by
    cases earlier <;> cases split

theorem DeferredHook.Accounted.addAction
    (accounted : hook.Accounted calls) (checkpointAfter : CheckpointAfter) :
    (hook.addAction checkpointAfter).Accounted (calls ++ [call]) where
  settled := accounted.settled
  actionCount := by simp [DeferredHook.addAction, accounted.actionCount]
  consumed := accounted.consumed
  once := accounted.once
  ownAction capture member := by
    obtain ⟨result, ofCall⟩ := accounted.ownAction capture member
    have inActions := (List.getElem?_eq_some_iff.mp result).1
    have inCalls := (List.getElem?_eq_some_iff.mp ofCall).1
    exact ⟨(List.getElem?_append_left inActions).trans result,
      (List.getElem?_append_left inCalls).trans ofCall⟩
  recorded := accounted.recorded
  baseline := accounted.baseline

theorem DeferredHook.captureNow_fields
    (hook : DeferredHook) (call : ScheduledCall)
    (incrementalSince : Option SandboxSnapshot) (forceFull : Bool) :
    let finished :=
      captureCheckpointDeferred hook.checkpointBackend
        ⟨hook.actions.length, call, incrementalSince, forceFull, none⟩
    let after := hook.captureNow call incrementalSince forceFull
    after.pendingCheckpointCaptures = hook.pendingCheckpointCaptures ∧
      after.actions = hook.actions ++ [finished.1.checkpointAfter] ∧
      after.scheduled = hook.scheduled ++ [hook.actions.length] ∧
      after.applied =
        hook.applied ++ [⟨hook.actions.length, call, finished.1⟩] ∧
      after.checkpointBackend = finished.2 := by
  intro finished after
  dsimp only [after, DeferredHook.captureNow]
  cases finished.1.snapshot with
  | none => exact ⟨rfl, rfl, rfl, rfl, rfl⟩
  | some snapshot =>
      dsimp only
      cases finished.1.checkpointAfter <;> exact ⟨rfl, rfl, rfl, rfl, rfl⟩

/-- A capture that advances the baseline as it should is accounted for. -/
theorem DeferredHook.Accounted.captureNow
    (accounted : hook.Accounted calls)
    (incrementalSince : Option SandboxSnapshot) (forceFull : Bool)
    (keeps :
      CaptureKeepsBaseline hook.checkpointBackend call
        (captureHostSnapshot hook.checkpointBackend incrementalSince
          call)) :
    (hook.captureNow call incrementalSince forceFull).Accounted
      (calls ++ [call]) := by
  obtain ⟨pending, actions, scheduled, applied, backend⟩ :=
    hook.captureNow_fields call incrementalSince forceFull
  have count := accounted.actionCount
  refine ⟨pending.trans accounted.settled, ?_, ?_, ?_, ?_, ?_, ?_⟩
  · simp [actions, count]
  · simp [scheduled, applied, accounted.consumed]
  · rw [scheduled, List.nodup_append]
    refine ⟨accounted.once, by simp, ?_⟩
    intro action member other isLast same
    rw [accounted.consumed, List.mem_map] at member
    obtain ⟨capture, isCapture, rfl⟩ := member
    have bound :=
      (List.getElem?_eq_some_iff.mp
        (accounted.ownAction capture isCapture).1).1
    rw [List.mem_singleton.mp isLast] at same
    omega
  · intro capture member
    rw [applied, List.mem_append, List.mem_singleton] at member
    rw [actions]
    rcases member with old | rfl
    · obtain ⟨result, ofCall⟩ := accounted.ownAction capture old
      have inActions := (List.getElem?_eq_some_iff.mp result).1
      have inCalls := (List.getElem?_eq_some_iff.mp ofCall).1
      exact ⟨(List.getElem?_append_left inActions).trans result,
        (List.getElem?_append_left inCalls).trans ofCall⟩
    · exact ⟨by simp, by simp [count]⟩
  · rw [backend, applied, lastRecordedSnapshot, List.foldl_append,
      List.foldl_cons, List.foldl_nil, ← lastRecordedSnapshot,
      ← accounted.recorded]
    rw [CaptureKeepsBaseline] at keeps
    simp only [captureCheckpointDeferred]
    cases result :
        (captureHostSnapshot hook.checkpointBackend incrementalSince
          call).1 with
    | failed message => simpa [result] using keeps
    | unchanged => simpa [result] using keeps
    | taken snapshot => simpa [result] using keeps
  · intro earlier capture later isSplit
    rw [applied] at isSplit
    rcases List.eq_nil_or_concat later with rfl | ⟨front, last, rfl⟩
    · obtain ⟨rfl, lastIs⟩ := List.append_inj' isSplit rfl
      cases lastIs
      rw [← accounted.recorded]
      simp only [captureCheckpointDeferred]
      cases (captureHostSnapshot hook.checkpointBackend incrementalSince
        call).1 <;> rfl
    · rw [List.concat_eq_append, ← List.cons_append,
        ← List.append_assoc] at isSplit
      exact accounted.baseline earlier capture front
        (List.append_inj' isSplit rfl).1

end Accounted

end AgentSchedBench.Checkpoint
