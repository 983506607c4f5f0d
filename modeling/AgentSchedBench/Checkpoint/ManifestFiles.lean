import AgentSchedBench.Library.Slots
import AgentSchedBench.Checkpoint.HostContainer
import AgentSchedBench.Checkpoint.Lockstep
import Mathlib

/-!
# Recorded manifests stay

The trace hook checkpoints in one of three schedules: on the host, in the
container, or deferred.  In each of them a checkpoint touches one manifest
file, whose name comes from the tool call id or from a clock, so that the
files behind the records stay as long as no name comes twice.
-/

namespace AgentSchedBench.Checkpoint

open FileSystem

/-! ## The hook in its three schedules -/

/-- A tool call, with what any of the schedules meets at it. -/
structure TraceCall extends ScheduledCall where
  links : HardLinks tree
  nowNs : Int

def TraceCall.toContainerCall (call : TraceCall) : ContainerCall where
  toCheckpointCall := call.toCheckpointCall
  links := call.links
  nowNs := call.nowNs

/-- What happens to the hook. -/
inductive TraceEvent where
  | tool (call : TraceCall)
  | turn
  | drain

def TraceEvent.scheduled : TraceEvent → ScheduleEvent
  | .tool call => .tool call.toScheduledCall
  | .turn => .turn
  | .drain => .drain

/-- The hook inside a container, with the results of its actions. -/
structure ContainerRun where
  hook : HookState
  actions : List CheckpointAfter

/-- `_checkpoint_after_tool` with a container. -/
def checkpointInContainer
    (config : HookConfig) (hook : HookState) (call : ContainerCall) :
    CheckpointAfter × HookState :=
  if !config.checkpointing then (.notTaken, hook)
  else if (singleExecCommandArgs call.toolName call.toolArgs).isNone then
    (.notTaken, hook)
  else checkpointContainerAfterTool config hook call

/-- Tool calls are checkpointed at once; there is nothing to wait for. -/
def ContainerRun.step (config : HookConfig) (run : ContainerRun) :
    TraceEvent → ContainerRun
  | .tool call =>
      let result := checkpointInContainer config run.hook call.toContainerCall
      ⟨result.2, run.actions ++ [result.1]⟩
  | _ => run

/-- The schedules. -/
inductive Schedule where
  | host
  | container
  | deferred
deriving DecidableEq, Repr

/-- A deferred hook waits for one capture at most, of an action without one. -/
structure DeferredHook.Waiting (hook : DeferredHook) : Prop
    extends DeferredHook.Orderly hook where
  waiting :
    ∀ pending ∈ hook.pendingCheckpointCaptures,
      hook.actions[pending.action]? = some .notTaken

/-- The hook in one of its schedules. -/
inductive TraceHook where
  | host (run : SyncRun)
  | container (run : ContainerRun)
  | deferred (hook : DeferredHook) (waiting : hook.Waiting)

/-- The records that the actions written so far refer to. -/
def TraceHook.actions : TraceHook → List CheckpointAfter
  | .host run => run.actions
  | .container run => run.actions
  | .deferred hook _ => hook.actions

def TraceHook.manifestFiles : TraceHook → String → Option Manifest
  | .host run => run.session.hook.manifestFiles
  | .container run => run.hook.manifestFiles
  | .deferred hook _ => hook.checkpointBackend.manifestFiles

/-! ## What a checkpoint does to the manifest files -/

/-- A checkpoint that touches one name, and leaves there what it records. -/
structure TouchesOnly
    (before after : String → Option Manifest) (outcome : CheckpointAfter)
    (name : String) : Prop where
  frame : ∀ other, other ≠ name → after other = before other
  recorded :
    ∀ record, outcome = .recorded record →
      record.path = name ∧ (after name).isSome

/-- A checkpoint that touches nothing. -/
structure TouchesNothing
    (before after : String → Option Manifest) (outcome : CheckpointAfter) :
    Prop where
  frame : after = before
  notRecorded : ∀ record, outcome ≠ .recorded record

theorem TouchesNothing.only
    {before after : String → Option Manifest} {outcome : CheckpointAfter}
    (nothing : TouchesNothing before after outcome) (name : String) :
    TouchesOnly before after outcome name where
  frame other _ := congrFun nothing.frame other
  recorded record isRecorded :=
    (nothing.notRecorded record isRecorded).elim

/-- The call meets no error before it has a manifest to write. -/
structure ReachesManifest (hook : HookState) (call : CheckpointCall) :
    Prop where
  writes : WritesManifest hook call
  rootAvailable : call.rootAvailable = true
  readable : call.snapshotFault = false
  writable : call.writeFault = none

/-- A call that does not get there touches nothing. -/
theorem checkpointAfterTool_nothing
    (config : HookConfig) {hook : HookState} {call : CheckpointCall}
    (stops : ¬ ReachesManifest hook call) :
    TouchesNothing hook.manifestFiles
      (checkpointAfterTool config hook call).2.manifestFiles
      (checkpointAfterTool config hook call).1 := by
  have quiet :
      ∀ outcome, (∀ record, outcome ≠ CheckpointAfter.recorded record) →
        TouchesNothing hook.manifestFiles
          (outcome, hook).2.manifestFiles (outcome, hook).1 :=
    fun outcome notRecorded => ⟨rfl, notRecorded⟩
  rw [checkpointAfterTool]
  split
  · exact quiet _ (by simp)
  split
  · exact quiet _ (by simp)
  next isExec =>
  split
  · exact quiet _ (by simp)
  next available =>
  split
  · exact quiet _ (by simp)
  split
  · exact quiet _ (by simp)
  next readable =>
  cases taken : snapshotCheckpointEntries call.tree with
  | error failure => exact quiet _ (by simp)
  | ok current =>
      dsimp only
      split
      · exact quiet _ (by simp)
      · next differs =>
          rw [writePlanned]
          cases fault : call.writeFault with
          | some fault => exact ⟨rfl, by simp⟩
          | none =>
              refine (stops ⟨⟨?_, current, taken, ?_⟩, ?_, ?_, fault⟩).elim
              · simpa [Option.isSome_iff_ne_none] using isExec
              · exact fun same => differs same
              · simpa using available
              · simpa using readable

theorem checkpointAfterTool_touches
    (config : HookConfig) (hook : HookState) (call : CheckpointCall) :
    TouchesNothing hook.manifestFiles
        (checkpointAfterTool config hook call).2.manifestFiles
        (checkpointAfterTool config hook call).1 ∨
      ReachesManifest hook call ∧
        TouchesOnly hook.manifestFiles
          (checkpointAfterTool config hook call).2.manifestFiles
          (checkpointAfterTool config hook call).1
          (manifestName config call.toolCallId) := by
  by_cases reaches : ReachesManifest hook call
  case neg => exact Or.inl (checkpointAfterTool_nothing config reaches)
  rcases checkpointAfterTool_cases config hook call with
    quiet | ⟨record, after, current, manifest, state, equal, recording⟩
  · rcases quiet.files with same | ⟨_, removed⟩
    · exact Or.inl ⟨same, quiet.notRecorded⟩
    · right
      refine ⟨reaches, ?_, fun record isRecorded =>
        (quiet.notRecorded record isRecorded).elim⟩
      intro other apart
      rw [removed, Function.update_of_ne apart]
  · right
    rw [equal]
    refine ⟨reaches, ?_, ?_⟩
    · intro other apart
      rw [recording.files, Function.update_of_ne apart]
    · rintro other same
      cases same
      refine ⟨recording.path, ?_⟩
      rw [recording.files, Function.update_self]
      rfl

theorem Session.step_hook
    (config : HookConfig) (session : Session) (call : CheckpointCall) :
    (session.step config call).hook =
      (checkpointAfterTool config session.hook call).2 := by
  rw [Session.step]
  split <;> simp_all only

/-- The container has something to record, or a full checkpoint is due. -/
def WritesContainerManifest
    (config : HookConfig) (hook : HookState) (call : ContainerCall) : Prop :=
  (singleExecCommandArgs call.toolName call.toolArgs).isSome ∧
    (hook.checkpointSnapshotEntries = none ∨
      forceFullCheckpoint config hook = true ∨
      (snapshotWalk call.tree
        (hook.checkpointSnapshotEntries.getD Dict.empty)).changed.keys ≠ [] ∨
      computeDeletedPaths hook.checkpointSnapshotEntries
        (snapshotWalk call.tree
          (hook.checkpointSnapshotEntries.getD Dict.empty)).entries ≠ [])

theorem checkpointInContainer_touches
    (config : HookConfig) (hook : HookState) (call : ContainerCall) :
    TouchesNothing hook.manifestFiles
        (checkpointInContainer config hook call).2.manifestFiles
        (checkpointInContainer config hook call).1 ∨
      WritesContainerManifest config hook call ∧
        TouchesOnly hook.manifestFiles
          (checkpointInContainer config hook call).2.manifestFiles
          (checkpointInContainer config hook call).1
          (manifestName config call.toolCallId) := by
  have quiet :
      ∀ outcome, (∀ record, outcome ≠ CheckpointAfter.recorded record) →
        TouchesNothing hook.manifestFiles
          (outcome, hook).2.manifestFiles (outcome, hook).1 :=
    fun outcome notRecorded => ⟨rfl, notRecorded⟩
  rw [checkpointInContainer]
  split
  · exact Or.inl (quiet _ (by simp))
  split
  · exact Or.inl (quiet _ (by simp))
  next isExec =>
  rw [checkpointContainerAfterTool]
  cases result :
      runContainerCheckpoint call hook.checkpointSnapshotEntries
        (forceFullCheckpoint config hook) hook.blobs with
  | error message => exact Or.inl (quiet _ (by simp))
  | skipped => exact Or.inl (quiet _ (by simp))
  | written manifest isFull snapshot chainBytes blobs =>
      right
      refine ⟨⟨by simpa [Option.isSome_iff_ne_none] using isExec, ?_⟩,
        ?_, ?_⟩
      · by_contra nothing
        simp only [not_or, ne_eq, not_not, Bool.not_eq_true] at nothing
        obtain ⟨notFirst, notForced, noChange, noneGone⟩ := nothing
        rw [runContainerCheckpoint, notForced] at result
        dsimp only at result
        split at result
        · cases result
        · rw [if_pos] at result
          · cases result
          · simpa [Option.isSome_iff_ne_none, noChange, noneGone]
              using notFirst
      · intro other apart
        exact Function.update_of_ne apart _ _
      · rintro record same
        cases same
        refine ⟨rfl, ?_⟩
        simp

theorem writeCapture_touches
    (backend : WalkBackend) (incrementalSince : Option SandboxSnapshot)
    (call : ScheduledCall) (current : CheckpointSnapshot)
    (paths : Option (List RelPath × List RelPath)) :
    let captured := writeCapture backend incrementalSince call current paths
    (∀ other, other ≠ snapshotManifestName call.captureMarkerNs →
        captured.2.manifestFiles other = backend.manifestFiles other) ∧
      ∀ snapshot, captured.1 = .taken snapshot →
        snapshot.manifestPath = snapshotManifestName call.captureMarkerNs ∧
          (captured.2.manifestFiles
            (snapshotManifestName call.captureMarkerNs)).isSome := by
  rw [writeCapture]
  cases call.writeFault with
  | some fault => simp
  | none =>
      dsimp only
      cases writeCasManifest call.tree
        (incrementalSince.map SandboxSnapshot.timestampNs)
        ((paths.map Prod.fst).getD []) (paths.map Prod.snd)
        backend.checkpointHashCache backend.blobs with
      | error failure => simp
      | ok written =>
          dsimp only
          split
          · refine ⟨?_, by simp⟩
            intro other apart
            exact Function.update_of_ne apart _ _
          · split
            · refine ⟨?_, by simp⟩
              intro other apart
              exact Function.update_of_ne apart _ _
            · constructor
              · intro other apart
                exact Function.update_of_ne apart _ _
              · rintro snapshot same
                cases same
                simp

theorem captureCheckpointDeferred_touches
    (backend : WalkBackend) (pending : PendingCapture) :
    TouchesOnly backend.manifestFiles
      (captureCheckpointDeferred backend pending).2.manifestFiles
      (captureCheckpointDeferred backend pending).1.checkpointAfter
      (snapshotManifestName pending.call.captureMarkerNs) := by
  have captured :
      (∀ other, other ≠ snapshotManifestName pending.call.captureMarkerNs →
          (captureHostSnapshot backend pending.incrementalSince
            pending.call).2.manifestFiles other =
              backend.manifestFiles other) ∧
        ∀ snapshot,
          (captureHostSnapshot backend pending.incrementalSince
            pending.call).1 = .taken snapshot →
            snapshot.manifestPath =
                snapshotManifestName pending.call.captureMarkerNs ∧
              ((captureHostSnapshot backend pending.incrementalSince
                pending.call).2.manifestFiles
                (snapshotManifestName
                  pending.call.captureMarkerNs)).isSome := by
    rw [captureHostSnapshot]
    split
    · simp
    · cases snapshotCheckpointEntries pending.call.tree with
      | error failure => simp
      | ok current =>
          dsimp only
          split
          · simp
          · exact writeCapture_touches backend pending.incrementalSince
              pending.call current _
  obtain ⟨frame, taken⟩ := captured
  rw [captureCheckpointDeferred]
  refine ⟨frame, ?_⟩
  dsimp only
  cases result :
      (captureHostSnapshot backend pending.incrementalSince
        pending.call).1 with
  | failed message => simp
  | unchanged => simp
  | taken snapshot =>
      rintro record same
      cases same
      exact taken snapshot result

/-! ## The deferred hook -/

/-- A record of an action, or of a capture that is done, has the name. -/
def DeferredHook.RefersTo (hook : DeferredHook) (name : String) : Prop :=
  (∃ record, .recorded record ∈ hook.actions ∧ record.path = name) ∨
    ∃ pending ∈ hook.pendingCheckpointCaptures, ∃ done record,
      pending.done = some done ∧ done.checkpointAfter = .recorded record ∧
        record.path = name

/-- A capture that is still to run has the name. -/
def DeferredHook.Captures (hook : DeferredHook) (name : String) : Prop :=
  ∃ pending ∈ hook.pendingCheckpointCaptures,
    pending.done = none ∧
      name = snapshotManifestName pending.call.captureMarkerNs

/-- What a part of a step does to the references and to the files. -/
structure DeferredHook.Advances (hook next : DeferredHook) : Prop where
  frame :
    ∀ name, ¬ hook.Captures name →
      next.checkpointBackend.manifestFiles name =
        hook.checkpointBackend.manifestFiles name
  refers : ∀ name, hook.RefersTo name → next.RefersTo name
  filled :
    ∀ name, next.RefersTo name →
      hook.RefersTo name ∨
        (next.checkpointBackend.manifestFiles name).isSome

section Deferred

variable {hook next : DeferredHook}

@[simp]
theorem consumePending_actions
    (hook : DeferredHook) (pending : PendingCapture) :
    (consumePending hook pending).actions =
      hook.actions.set pending.action
        (pending.finish hook.checkpointBackend).1.checkpointAfter := by
  rw [consumePending, applyDeferredCheckpointResult]
  dsimp only
  cases (pending.finish hook.checkpointBackend).1.snapshot with
  | none => rfl
  | some snapshot => rw [recordDeferredCheckpointSnapshot_actions]

@[simp]
theorem consumePending_backend
    (hook : DeferredHook) (pending : PendingCapture) :
    (consumePending hook pending).checkpointBackend =
      (pending.finish hook.checkpointBackend).2 := by
  rw [consumePending, applyDeferredCheckpointResult]
  dsimp only
  cases (pending.finish hook.checkpointBackend).1.snapshot with
  | none => rfl
  | some snapshot =>
      cases (pending.finish hook.checkpointBackend).1.checkpointAfter <;> rfl

theorem DeferredHook.Advances.refl (hook : DeferredHook) :
    hook.Advances hook where
  frame _ _ := rfl
  refers _ refers := refers
  filled _ refers := Or.inl refers

/-- The actions and the captures of a hook that waits for one capture. -/
theorem DeferredHook.Waiting.single_set
    (waiting : hook.Waiting) {pending : PendingCapture}
    (only : hook.pendingCheckpointCaptures = [pending])
    (after : CheckpointAfter) (record : CheckpointRecord) :
    .recorded record ∈ hook.actions.set pending.action after ↔
      .recorded record ∈ hook.actions ∨ after = .recorded record := by
  have inPending : pending ∈ hook.pendingCheckpointCaptures := by
    simp [only]
  have bound := waiting.known pending inPending
  have empty := waiting.waiting pending inPending
  constructor
  · intro member
    rcases List.mem_or_eq_of_mem_set member with old | new
    · exact Or.inl old
    · exact Or.inr new.symm
  · rintro (member | same)
    · rcases List.mem_iff_getElem.mp member with ⟨index, inRange, found⟩
      apply List.mem_iff_getElem.mpr
      refine ⟨index, by simpa using inRange, ?_⟩
      rw [List.getElem_set_ne, found]
      rintro rfl
      rw [List.getElem?_eq_getElem inRange, found] at empty
      cases empty
    · rw [same]
      exact List.mem_set bound _

/-- Waiting for the capture. -/
theorem DeferredHook.Waiting.awaited (waiting : hook.Waiting) :
    hook.Advances (awaitPendingCheckpointCaptures hook) := by
  have single := waiting.single
  rcases pendings : hook.pendingCheckpointCaptures with
    _ | ⟨pending, _ | ⟨other, rest⟩⟩
  · rw [awaitPending_of_none pendings]
    exact DeferredHook.Advances.refl hook
  · have member : pending ∈ hook.pendingCheckpointCaptures := by
      simp [pendings]
    have members := waiting.single_set pendings
      (pending.finish hook.checkpointBackend).1.checkpointAfter
    have settled :
        awaitPendingCheckpointCaptures hook =
          consumePending { hook with pendingCheckpointCaptures := [] }
            pending := by
      rw [awaitPendingCheckpointCaptures, pendings, List.foldl_cons,
        List.foldl_nil]
    cases isDone : pending.done with
    | some done =>
        have finished :
            pending.finish hook.checkpointBackend =
              (done, hook.checkpointBackend) := by
          rw [PendingCapture.finish, isDone]
        rw [finished] at members
        rw [settled]
        refine ⟨?_, ?_, ?_⟩
        · intro name _
          rw [consumePending_backend, finished]
        · rintro name (⟨record, old, path⟩ |
            ⟨other, inPending, otherDone, record, isOther, after, path⟩)
          · left
            refine ⟨record, ?_, path⟩
            rw [consumePending_actions, finished]
            exact (members record).mpr (Or.inl old)
          · left
            refine ⟨record, ?_, path⟩
            rw [pendings, List.mem_singleton] at inPending
            subst inPending
            rw [isDone] at isOther
            cases isOther
            rw [consumePending_actions, finished]
            exact (members record).mpr (Or.inr after)
        · rintro name (⟨record, new, path⟩ | ⟨other, inPending, _⟩)
          · left
            rw [consumePending_actions, finished] at new
            rcases (members record).mp new with old | after
            · exact Or.inl ⟨record, old, path⟩
            · exact Or.inr
                ⟨pending, member, done, record, isDone, after, path⟩
          · simp at inPending
    | none =>
        have finished :
            pending.finish hook.checkpointBackend =
              captureCheckpointDeferred hook.checkpointBackend pending := by
          rw [PendingCapture.finish, isDone]
        have touches :=
          captureCheckpointDeferred_touches hook.checkpointBackend pending
        rw [finished] at members
        rw [settled]
        refine ⟨?_, ?_, ?_⟩
        · intro name apart
          rw [consumePending_backend, finished]
          apply touches.frame
          rintro rfl
          exact apart ⟨pending, member, isDone, rfl⟩
        · rintro name (⟨record, old, path⟩ |
            ⟨other, inPending, otherDone, record, isOther, _, _⟩)
          · left
            refine ⟨record, ?_, path⟩
            rw [consumePending_actions, finished]
            exact (members record).mpr (Or.inl old)
          · rw [pendings, List.mem_singleton] at inPending
            subst inPending
            rw [isDone] at isOther
            cases isOther
        · rintro name (⟨record, new, path⟩ | ⟨other, inPending, _⟩)
          · rw [consumePending_actions, finished] at new
            rcases (members record).mp new with old | after
            · exact Or.inl (Or.inl ⟨record, old, path⟩)
            · right
              obtain ⟨isName, filled⟩ := touches.recorded record after
              rw [consumePending_backend, finished, ← path, isName]
              exact filled
          · simp at inPending
  · simp [pendings] at single

/-- A turn of the event loop runs the capture. -/
theorem DeferredHook.Waiting.turned
    (waiting : hook.Waiting) (config : HookConfig) :
    hook.Advances (hook.step config .turn) := by
  have single := waiting.single
  rw [DeferredHook.step]
  rcases pendings : hook.pendingCheckpointCaptures with
    _ | ⟨pending, _ | ⟨other, rest⟩⟩
  · constructor
    · intro name _
      rfl
    · rintro name (old | ⟨other, inPending, _⟩)
      · exact Or.inl old
      · simp [pendings] at inPending
    · rintro name (old | ⟨other, inPending, _⟩)
      · exact Or.inl (Or.inl old)
      · simp [runPending] at inPending
  · have member : pending ∈ hook.pendingCheckpointCaptures := by
      simp [pendings]
    cases isDone : pending.done with
    | some done =>
        simp only [runPending, isDone]
        rw [← pendings]
        exact DeferredHook.Advances.refl hook
    | none =>
        have touches :=
          captureCheckpointDeferred_touches hook.checkpointBackend pending
        simp only [runPending, isDone]
        constructor
        · intro name apart
          apply touches.frame
          rintro rfl
          exact apart ⟨pending, member, isDone, rfl⟩
        · rintro name (old | ⟨other, inPending, done, record, isOther, _⟩)
          · exact Or.inl old
          · rw [pendings, List.mem_singleton] at inPending
            subst inPending
            rw [isDone] at isOther
            cases isOther
        · rintro name (old |
            ⟨other, inPending, done, record, isOther, after, path⟩)
          · exact Or.inl (Or.inl old)
          · right
            rw [List.mem_singleton] at inPending
            subst inPending
            cases isOther
            obtain ⟨isName, filled⟩ := touches.recorded record after
            rw [← path, isName]
            exact filled
  · simp [pendings] at single

/-- Adding an action that records nothing leaves references and files. -/
theorem DeferredHook.Advances.then_same
    (advances : hook.Advances next) {last : DeferredHook}
    (files :
      last.checkpointBackend.manifestFiles =
        next.checkpointBackend.manifestFiles)
    (same : ∀ name, last.RefersTo name ↔ next.RefersTo name) :
    hook.Advances last where
  frame name apart := by
    rw [files]
    exact advances.frame name apart
  refers name old := (same name).mpr (advances.refers name old)
  filled name new := by
    rw [files]
    exact advances.filled name ((same name).mp new)

theorem DeferredHook.refersTo_addAction
    (hook : DeferredHook) {outcome : CheckpointAfter}
    (notRecorded : ∀ record, outcome ≠ .recorded record) (name : String) :
    (hook.addAction outcome).RefersTo name ↔ hook.RefersTo name := by
  have actions :
      ∀ record, .recorded record ∈ (hook.addAction outcome).actions ↔
        .recorded record ∈ hook.actions := by
    intro record
    simp [DeferredHook.addAction, (notRecorded record).symm]
  simp only [DeferredHook.RefersTo, actions]
  rfl

theorem DeferredHook.refersTo_schedule
    (hook : DeferredHook) (call : ScheduledCall)
    (since : Option SandboxSnapshot) (force : Bool) (name : String) :
    (scheduleCheckpointCapture hook call since force).RefersTo name ↔
      hook.RefersTo name := by
  constructor
  · rintro (old | ⟨pending, member, done, record, isDone, after, path⟩)
    · exact Or.inl old
    · right
      rcases List.mem_append.mp member with before | last
      · exact ⟨pending, before, done, record, isDone, after, path⟩
      · rw [List.mem_singleton] at last
        subst last
        cases isDone
  · rintro (old | ⟨pending, member, rest⟩)
    · exact Or.inl old
    · exact Or.inr ⟨pending, List.mem_append_left _ member, rest⟩

theorem DeferredHook.Waiting.tool
    (waiting : hook.Waiting) (config : HookConfig) (call : ScheduledCall) :
    hook.Advances (hook.step config (.tool call)) := by
  have notTaken :
      ∀ record, CheckpointAfter.notTaken ≠ .recorded record := by simp
  rw [DeferredHook.step, checkpointAfterToolDeferred]
  split
  · exact (DeferredHook.Advances.refl hook).then_same rfl
      (hook.refersTo_addAction notTaken)
  split
  · exact (DeferredHook.Advances.refl hook).then_same rfl
      (hook.refersTo_addAction notTaken)
  have awaited := waiting.awaited
  generalize awaitPendingCheckpointCaptures hook = now at awaited ⊢
  have scheduled :
      ∀ since force,
        hook.Advances
          ((scheduleCheckpointCapture now call since force).addAction
            .notTaken) := by
    intro since force
    refine awaited.then_same ?_ fun name => ?_
    · rfl
    rw [DeferredHook.refersTo_addAction _ notTaken,
      now.refersTo_schedule call since force]
  rw [probeAndSchedule]
  cases now.lastDeferredCheckpointSnapshot with
  | none => exact scheduled none false
  | some previous =>
      dsimp only
      split
      · exact awaited.then_same rfl (now.refersTo_addAction (by simp))
      split
      · exact awaited.then_same rfl (now.refersTo_addAction (by simp))
      · exact scheduled _ _

theorem DeferredHook.Waiting.advances
    (waiting : hook.Waiting) (config : HookConfig)
    (event : ScheduleEvent) : hook.Advances (hook.step config event) := by
  cases event with
  | tool call => exact waiting.tool config call
  | turn => exact waiting.turned config
  | drain => exact waiting.awaited

theorem DeferredHook.waiting_of_none
    (none : hook.pendingCheckpointCaptures = []) : hook.Waiting where
  toOrderly := DeferredHook.orderly_of_none none
  waiting := by simp [none]

theorem DeferredHook.Waiting.step
    (waiting : hook.Waiting) (config : HookConfig)
    (event : ScheduleEvent) : (hook.step config event).Waiting := by
  refine ⟨waiting.toOrderly.step config event, ?_⟩
  have settled := awaitPending_pending hook
  cases event with
  | drain =>
      intro pending member
      rw [DeferredHook.step, settled] at member
      cases member
  | turn =>
      intro pending member
      have single := waiting.single
      rcases pendings : hook.pendingCheckpointCaptures with
        _ | ⟨only, _ | ⟨other, rest⟩⟩
      · simp [DeferredHook.step, pendings, runPending] at member
      · have empty := waiting.waiting only (by simp [pendings])
        cases isDone : only.done with
        | none =>
            simp only [DeferredHook.step, pendings, runPending, isDone,
              List.mem_singleton] at member
            subst member
            exact empty
        | some done =>
            simp only [DeferredHook.step, pendings, runPending, isDone,
              List.mem_singleton] at member
            subst member
            exact empty
      · simp [pendings] at single
  | tool call =>
      rw [DeferredHook.step, checkpointAfterToolDeferred]
      have appended :
          ∀ pending ∈ hook.pendingCheckpointCaptures,
            (hook.addAction .notTaken).actions[pending.action]? =
              some .notTaken := by
        intro pending member
        have bound := waiting.known pending member
        rw [DeferredHook.addAction, List.getElem?_append_left bound]
        exact waiting.waiting pending member
      split
      · exact appended
      split
      · exact appended
      generalize awaitPendingCheckpointCaptures hook = now at settled ⊢
      have scheduled :
          ∀ since force, ∀ pending ∈
            ((scheduleCheckpointCapture now call since force).addAction
              .notTaken).pendingCheckpointCaptures,
            ((scheduleCheckpointCapture now call since force).addAction
              .notTaken).actions[pending.action]? = some .notTaken := by
        intro since force pending member
        simp only [DeferredHook.addAction, scheduleCheckpointCapture,
          settled, List.nil_append, List.mem_singleton] at member ⊢
        subst member
        simp
      rw [probeAndSchedule]
      cases now.lastDeferredCheckpointSnapshot with
      | none => exact scheduled none false
      | some previous =>
          dsimp only
          split
          · simp [DeferredHook.addAction, settled]
          split
          · simp [DeferredHook.addAction, settled]
          · exact scheduled _ _

end Deferred

/-! ## The manifests of a run -/

namespace TraceHook

/-- The hook as constructed. -/
def start (schedule : Schedule) (blobs : BlobStore) : TraceHook :=
  match schedule with
  | .host => .host (SyncRun.start blobs)
  | .container => .container ⟨HookState.start blobs, []⟩
  | .deferred =>
      .deferred (DeferredHook.start blobs)
        (DeferredHook.waiting_of_none rfl)

/-- One event. -/
def step (config : HookConfig) (hook : TraceHook) (event : TraceEvent) :
    TraceHook :=
  match hook with
  | .host run => .host (run.step config event.scheduled)
  | .container run => .container (run.step config event)
  | .deferred hook waiting =>
      .deferred (hook.step config event.scheduled)
        (waiting.step config event.scheduled)

def run (config : HookConfig) (hook : TraceHook) (events : List TraceEvent) :
    TraceHook :=
  events.foldl (step config) hook

/-- A record of an action, or of a capture that is done, has the name. -/
def RefersTo (hook : TraceHook) (name : String) : Prop :=
  match hook with
  | .host run => ∃ record, .recorded record ∈ run.actions ∧ record.path = name
  | .container run =>
      ∃ record, .recorded record ∈ run.actions ∧ record.path = name
  | .deferred hook _ => hook.RefersTo name

/-- The event writes or unlinks a manifest of the name. -/
def Touches
    (config : HookConfig) (hook : TraceHook) (event : TraceEvent)
    (name : String) : Prop :=
  match hook, event with
  | .host run, .tool call =>
      ReachesManifest run.session.hook call.toCheckpointCall ∧
        name = manifestName config call.toolCallId
  | .container run, .tool call =>
      WritesContainerManifest config run.hook call.toContainerCall ∧
        name = manifestName config call.toolCallId
  | .deferred hook _, _ => hook.Captures name
  | _, _ => False

section Synchronous

variable
  {before after : String → Option Manifest} {outcome : CheckpointAfter}
  {actions : List CheckpointAfter}

/-- An action that records a manifest refers to one that is there. -/
theorem refers_append
    {name : String} (touches : TouchesOnly before after outcome name)
    {other : String}
    (refers :
      ∃ record, CheckpointAfter.recorded record ∈ actions ++ [outcome] ∧
        record.path = other) :
    (∃ record, CheckpointAfter.recorded record ∈ actions ∧
        record.path = other) ∨
      (after other).isSome := by
  obtain ⟨record, member, path⟩ := refers
  rcases List.mem_append.mp member with old | new
  · exact Or.inl ⟨record, old, path⟩
  · right
    rw [List.mem_singleton] at new
    obtain ⟨isName, filled⟩ := touches.recorded record new.symm
    rw [← path, isName]
    exact filled

end Synchronous

/-- The hook as a store of manifest files. -/
def store (config : HookConfig) :
    Slots.System TraceHook TraceEvent String Manifest where
  step := step config
  content := TraceHook.manifestFiles
  refersTo := RefersTo
  touches := Touches config
  frame := by
    intro hook event name apart
    cases hook with
    | host run =>
        cases event with
        | tool call =>
            simp only [step, manifestFiles, SyncRun.step,
              TraceEvent.scheduled, Session.step_hook]
            rcases checkpointAfterTool_touches config run.session.hook
              call.toCheckpointCall with nothing | ⟨writes, only⟩
            · exact congrFun nothing.frame name
            · exact only.frame name fun same => apart ⟨writes, same⟩
        | turn => rfl
        | drain => rfl
    | container run =>
        cases event with
        | tool call =>
            rcases checkpointInContainer_touches config run.hook
              call.toContainerCall with nothing | ⟨writes, only⟩
            · exact congrFun nothing.frame name
            · exact only.frame name fun same => apart ⟨writes, same⟩
        | turn => rfl
        | drain => rfl
    | deferred hook waiting =>
        exact (waiting.advances config event.scheduled).frame name apart
  refers_step := by
    intro hook event name refers
    cases hook with
    | host run =>
        cases event with
        | tool call =>
            obtain ⟨record, member, path⟩ := refers
            exact ⟨record, List.mem_append_left _ member, path⟩
        | turn => exact refers
        | drain => exact refers
    | container run =>
        cases event with
        | tool call =>
            obtain ⟨record, member, path⟩ := refers
            exact ⟨record, List.mem_append_left _ member, path⟩
        | turn => exact refers
        | drain => exact refers
    | deferred hook waiting =>
        exact (waiting.advances config event.scheduled).refers name refers
  refers_new := by
    intro hook event name refers
    cases hook with
    | host run =>
        cases event with
        | tool call =>
            simp only [step, manifestFiles, SyncRun.step,
              TraceEvent.scheduled, Session.step_hook]
            rcases checkpointAfterTool_touches config run.session.hook
              call.toCheckpointCall with nothing | ⟨_, only⟩
            · exact refers_append (nothing.only name) refers
            · exact refers_append only refers
        | turn => exact Or.inl refers
        | drain => exact Or.inl refers
    | container run =>
        cases event with
        | tool call =>
            rcases checkpointInContainer_touches config run.hook
              call.toContainerCall with nothing | ⟨_, only⟩
            · exact refers_append (nothing.only name) refers
            · exact refers_append only refers
        | turn => exact Or.inl refers
        | drain => exact Or.inl refers
    | deferred hook waiting =>
        exact (waiting.advances config event.scheduled).filled name refers

end TraceHook

/-- No checkpoint of the run comes to a name that a record refers to. -/
def NamesFresh
    (config : HookConfig) (hook : TraceHook) (events : List TraceEvent) :
    Prop :=
  (TraceHook.store config).Fresh hook events

/-- Every record's manifest is there, and the rest of the run keeps it. -/
def ManifestsStable
    (config : HookConfig) (hook : TraceHook) (events : List TraceEvent) :
    Prop :=
  ∀ before after, events = before ++ after →
    ∀ record, .recorded record ∈ (hook.run config before).actions →
      ∃ manifest,
        (hook.run config before).manifestFiles record.path = some manifest ∧
          (hook.run config events).manifestFiles record.path =
            some manifest

/--
A run in which no checkpoint comes to the name of a recorded manifest leaves
every recorded manifest as it was.
-/
theorem manifests_stable
    (config : HookConfig) (schedule : Schedule) (blobs : BlobStore)
    (events : List TraceEvent)
    (fresh : NamesFresh config (TraceHook.start schedule blobs) events) :
    ManifestsStable config (TraceHook.start schedule blobs) events := by
  rintro before after rfl record member
  have filled :
      (TraceHook.store config).Filled (TraceHook.start schedule blobs) := by
    intro name refers
    cases schedule with
    | host =>
        obtain ⟨_, none, _⟩ := refers
        cases none
    | container =>
        obtain ⟨_, none, _⟩ := refers
        cases none
    | deferred =>
        rcases refers with ⟨_, none, _⟩ | ⟨_, none, _⟩
        · cases none
        · cases none
  apply (TraceHook.store config).content_kept filled fresh
  change TraceHook.RefersTo
    ((TraceHook.start schedule blobs).run config before) record.path
  generalize (TraceHook.start schedule blobs).run config before = reached
    at member ⊢
  cases reached with
  | host run => exact ⟨record, member, rfl⟩
  | container run => exact ⟨record, member, rfl⟩
  | deferred hook waiting => exact Or.inl ⟨record, member, rfl⟩

/-! ## Two runs -/

/-- An `exec` call on the script and its output. -/
def scriptTraceCall (toolCallId : String) : TraceCall where
  toScheduledCall := deferredExec toolCallId 10 scriptTree
  links := scriptContainerCall.links
  nowNs := 10

/-- An `exec` call after which the output is new. -/
def outputTraceCall (toolCallId : String) : TraceCall where
  toScheduledCall := deferredExec toolCallId 20 outputTree
  links := HardLinks.ofObjects outputTree_closed
    (fun path => if path = ["run.sh"] then 1 else 2) (by decide)
  nowNs := 20

theorem manifests_stable_output :
    ManifestsStable hostConfig (TraceHook.start .host fun _ => none)
      [.tool (scriptTraceCall "call_1"), .tool (outputTraceCall "call_2")] := by
  apply manifests_stable
  refine ⟨?_, ?_, trivial⟩
  · rintro name - ⟨record, none, -⟩
    cases none
  · rintro name ⟨-, isName⟩ ⟨record, member, path⟩
    have recorded :
        ∀ record, .recorded record ∈
          ((TraceHook.start .host fun _ => none).step hostConfig
            (.tool (scriptTraceCall "call_1"))).actions →
          record.path ≠ manifestName hostConfig "call_2" := by
      decide +kernel
    exact recorded _ member (path.trans isName)

/-- A tool call id that comes twice overwrites the first manifest. -/
theorem manifests_stable_repeated :
    ¬ ManifestsStable hostConfig (TraceHook.start .host fun _ => none)
      [.tool (scriptTraceCall "call_1"), .tool (outputTraceCall "call_1")] := by
  intro stable
  obtain ⟨record, member⟩ :
      ∃ record, .recorded record ∈
        ((TraceHook.start .host fun _ => none).run hostConfig
          [.tool (scriptTraceCall "call_1")]).actions :=
    ⟨_, List.mem_singleton.mpr rfl⟩
  obtain ⟨manifest, first, last⟩ :=
    stable [.tool (scriptTraceCall "call_1")]
      [.tool (outputTraceCall "call_1")] rfl record member
  have isName :
      ∀ record, .recorded record ∈
        ((TraceHook.start .host fun _ => none).run hostConfig
          [.tool (scriptTraceCall "call_1")]).actions →
        record.path = "call_1-manifest.json" := by
    decide +kernel
  rw [isName _ member] at first last
  have present := congrArg
    (Option.map fun manifest => manifest.entries.get ["run.sh"])
    (first.trans last.symm)
  revert present
  decide +kernel

end AgentSchedBench.Checkpoint
