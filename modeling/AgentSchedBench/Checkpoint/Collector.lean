import AgentSchedBench.Checkpoint.Apply
import AgentSchedBench.Library.Json

/-!
# The synchronous host checkpoint

`checkpointAfterTool` follows `TraceCollectorHook._checkpoint_after_tool` in
host mode, with every return path and with what each of them leaves in the
hook, in the hash cache, in the blob store and among the manifest files.

A session runs the hook over tool calls and remembers which of the recorded
manifests follow the last full one.  The invariant of a session says that the
snapshot of the hook is the one of the last recorded tree, that every cached
digest was read from a tree of the session, and that the manifests applied in
order give the entries of the last recorded tree.
-/

namespace AgentSchedBench.Checkpoint

open FileSystem

/-! ## The hook -/

/-- What the constructor of the hook fixes. -/
structure HookConfig where
  checkpointing : Bool
  checkpointRootLabel : String
  rebaselineBytes : Option Nat
  /-- `str.isalnum` of one character. -/
  isAlnum : Char → Bool

/-- The checkpoint fields of the hook, and the files it writes. -/
structure HookState where
  lastFullCheckpointNs : Option Int
  lastIncrementalCheckpointNs : Option Int
  checkpointSnapshotEntries : Option CheckpointSnapshot
  checkpointChainBytesSinceFull : Nat
  checkpointHashCache : HashCache
  blobs : BlobStore
  manifestFiles : String → Option Manifest

/-- The hook as constructed; the blob store is shared between sessions. -/
def HookState.start (blobs : BlobStore) : HookState where
  lastFullCheckpointNs := none
  lastIncrementalCheckpointNs := none
  checkpointSnapshotEntries := none
  checkpointChainBytesSinceFull := 0
  checkpointHashCache _ := none
  blobs := blobs
  manifestFiles _ := none

/-- The kinds of manifest. -/
inductive CheckpointKind where
  | casManifestFull
  | casManifestIncremental
deriving DecidableEq, Repr

/-- The dictionary returned for a written manifest. -/
structure CheckpointRecord where
  path : String
  kind : CheckpointKind
  incrementalSinceNs : Option Int
  rebaseline : Bool
  chainBytes : Nat
deriving DecidableEq, Repr

/-- What a call of `_checkpoint_after_tool` returns. -/
inductive CheckpointAfter where
  | notTaken
  | error (message : String)
  | skipped
  | recorded (record : CheckpointRecord)
deriving DecidableEq, Repr

/-- Where an `OSError` interrupts the writing of a manifest. -/
structure WriteFault where
  visited : Nat
  digestCached : Bool

/-- One call, with the tree and the clock it finds. -/
structure CheckpointCall where
  toolCallId : String
  toolName : String
  toolArgs : Option Json
  rootAvailable : Bool
  markerBeforeNs : Int
  tree : Tree
  snapshotFault : Bool
  writeFault : Option WriteFault

/-- `_single_exec_command_args`; the arguments are `none` if not JSON. -/
def singleExecCommandArgs (toolName : String) (args : Option Json) :
    Option (List (String × Json)) :=
  if toolName ≠ "exec" then none
  else
    match args.bind Json.fields? with
    | none => none
    | some parsed =>
        let payload :=
          match fieldOf parsed "exec" with
          | some (.obj inner) => inner
          | _ => parsed
        if (fieldOf payload "command").isNone ∨
            (fieldOf payload "commands").isSome then none
        else some payload

/-- `_sanitize_checkpoint_name`. -/
def sanitizeCheckpointName (isAlnum : Char → Bool) (value : String) :
    String :=
  let safe := value.toList.map fun ch =>
    if isAlnum ch ∨ ch ∈ ['-', '_'] then ch else '_'
  let cut := String.ofList (safe.take 96)
  if cut = "" then "tool" else cut

/-- The file name of the manifest of a tool call. -/
def manifestName (config : HookConfig) (toolCallId : String) : String :=
  sanitizeCheckpointName config.isAlnum toolCallId ++ "-manifest.json"

/-- `_any_file_newer_than`. -/
def anyFileNewerThan (tree : Tree) (markerNs : Int) : Bool :=
  markerNs < (tree.stat []).mtimeNs ||
    (tree.osWalk checkpointSkipDirs.contains).any fun item =>
      (item.dirnames ++ item.filenames).any fun name =>
        markerNs < (tree.stat (item.dirpath ++ [name])).mtimeNs

/-- The rebaseline test: has the chain outgrown its bound? -/
def forceFullCheckpoint (config : HookConfig) (hook : HookState) : Bool :=
  hook.lastFullCheckpointNs.isSome &&
    match config.rebaselineBytes with
    | none => false
    | some bound => bound ≤ hook.checkpointChainBytesSinceFull

/-- The differences the hook computes before it decides anything else. -/
def precomputedPaths (hook : HookState) (current : CheckpointSnapshot) :
    Option (List RelPath × List RelPath) :=
  match hook.lastIncrementalCheckpointNs, hook.checkpointSnapshotEntries with
  | some _, some previous =>
      some (computeCheckpointDeletedPaths (some previous) current,
        computeCheckpointChangedPaths previous current)
  | _, _ => none

/-- What an interrupted `_write_cas_manifest` leaves behind. -/
def interruptedWrite
    (tree : Tree) (sinceNs : Option Int)
    (changedPaths : Option (List RelPath))
    (hashCache : HashCache) (blobs : BlobStore) (fault : WriteFault) :
    HashCache × BlobStore :=
  match
      ((iterCheckpointEntries tree).take fault.visited).foldlM
        (writeCasEntry tree sinceNs changedPaths)
        ⟨Dict.empty, hashCache, blobs, 0⟩ with
  | .error _ => (hashCache, blobs)
  | .ok state =>
      match (iterCheckpointEntries tree)[fault.visited]? with
      | none => (state.hashCache, state.blobs)
      | some path =>
          match fault.digestCached &&
              manifestSelects tree sinceNs changedPaths path,
            tree.get path with
          | true, some (.file data) =>
              (cacheDigest state.hashCache tree path data.digest, state.blobs)
          | _, _ => (state.hashCache, state.blobs)

/-- The arguments of `_write_cas_manifest` that the hook decides on. -/
structure ManifestPlan where
  isFull : Bool
  rebaseline : Bool
  incrementalSinceNs : Option Int
  deletedPaths : List RelPath
  changedPaths : Option (List RelPath)

/-- The decision between a full and an incremental manifest. -/
def planManifest
    (config : HookConfig) (hook : HookState) (current : CheckpointSnapshot) :
    ManifestPlan :=
  let isFirst := hook.lastFullCheckpointNs.isNone
  let forceFull := forceFullCheckpoint config hook
  match hook.checkpointSnapshotEntries with
  | some previous =>
      if isFirst ∨ forceFull then ⟨true, forceFull, none, [], none⟩
      else
        let paths := (precomputedPaths hook current).getD
          (computeCheckpointDeletedPaths (some previous) current,
            computeCheckpointChangedPaths previous current)
        ⟨false, false, hook.lastIncrementalCheckpointNs, paths.1,
          some paths.2⟩
  | none =>
      if isFirst ∨ forceFull then ⟨true, forceFull, none, [], none⟩
      else ⟨false, false, hook.lastIncrementalCheckpointNs, [], none⟩

/-- The second half: write the manifest, look for changes, record. -/
def writePlanned
    (config : HookConfig) (hook : HookState) (call : CheckpointCall)
    (current : CheckpointSnapshot) (plan : ManifestPlan) :
    CheckpointAfter × HookState :=
  match call.writeFault with
  | some fault =>
      let left :=
        interruptedWrite call.tree plan.incrementalSinceNs plan.changedPaths
          hook.checkpointHashCache hook.blobs fault
      (.error "checkpoint failed",
        { hook with checkpointHashCache := left.1, blobs := left.2 })
  | none =>
      match
          writeCasManifest call.tree plan.incrementalSinceNs plan.deletedPaths
            plan.changedPaths hook.checkpointHashCache hook.blobs with
      | .error _ => (.error "checkpoint failed", hook)
      | .ok (manifest, state) =>
          let name := manifestName config call.toolCallId
          if anyFileNewerThan call.tree call.markerBeforeNs then
            (.error
                "checkpoint failed: filesystem changed during checkpoint",
              { hook with
                checkpointHashCache := state.hashCache
                blobs := state.blobs
                manifestFiles :=
                  Function.update hook.manifestFiles name none })
          else
            (.recorded
                { path := name
                  kind :=
                    if plan.isFull then .casManifestFull
                    else .casManifestIncremental
                  incrementalSinceNs := plan.incrementalSinceNs
                  rebaseline := plan.rebaseline
                  chainBytes := state.totalUniqueBytes },
              { lastFullCheckpointNs :=
                  if plan.isFull then some call.markerBeforeNs
                  else hook.lastFullCheckpointNs
                lastIncrementalCheckpointNs := some call.markerBeforeNs
                checkpointSnapshotEntries := some current
                checkpointChainBytesSinceFull :=
                  if plan.isFull then 0
                  else hook.checkpointChainBytesSinceFull +
                    state.totalUniqueBytes
                checkpointHashCache := state.hashCache
                blobs := state.blobs
                manifestFiles :=
                  Function.update hook.manifestFiles name (some manifest) })

/-- `_checkpoint_after_tool` without a container. -/
def checkpointAfterTool
    (config : HookConfig) (hook : HookState) (call : CheckpointCall) :
    CheckpointAfter × HookState :=
  if !config.checkpointing then (.notTaken, hook)
  else if (singleExecCommandArgs call.toolName call.toolArgs).isNone then
    (.notTaken, hook)
  else if !call.rootAvailable then
    (.error "checkpoint root is unavailable", hook)
  else if config.checkpointRootLabel ≠ "/testbed" then
    (.error
        ("unsupported checkpoint root: " ++ config.checkpointRootLabel),
      hook)
  else if call.snapshotFault then (.error "checkpoint failed", hook)
  else
    match snapshotCheckpointEntries call.tree with
    | .error _ => (.error "checkpoint failed", hook)
    | .ok current =>
        match precomputedPaths hook current with
        | some ([], []) => (.skipped, hook)
        | _ =>
            writePlanned config hook call current
              (planManifest config hook current)

/-! ## What one call does to the hook -/

/-- The fields that only a recorded checkpoint may change. -/
structure KeepsBaseline (before after : HookState) : Prop where
  lastFull : after.lastFullCheckpointNs = before.lastFullCheckpointNs
  lastIncremental :
    after.lastIncrementalCheckpointNs = before.lastIncrementalCheckpointNs
  snapshot :
    after.checkpointSnapshotEntries = before.checkpointSnapshotEntries
  chainBytes :
    after.checkpointChainBytesSinceFull =
      before.checkpointChainBytesSinceFull

theorem KeepsBaseline.refl (hook : HookState) : KeepsBaseline hook hook :=
  ⟨rfl, rfl, rfl, rfl⟩

/-- The call gets as far as writing a manifest. -/
def WritesManifest (hook : HookState) (call : CheckpointCall) : Prop :=
  (singleExecCommandArgs call.toolName call.toolArgs).isSome ∧
    ∃ current, snapshotCheckpointEntries call.tree = .ok current ∧
      precomputedPaths hook current ≠ some ([], [])

/-- The blob store only gains blobs, and stays intact with a true cache. -/
def BlobsGrow
    (tree : Tree) (hashCache : HashCache) (before after : BlobStore) : Prop :=
  before.Intact → CacheCurrent hashCache tree →
    after.Intact ∧ ∀ digest, (before digest).isSome → (after digest).isSome

/-- A call that records nothing. -/
structure QuietCall
    (config : HookConfig) (hook : HookState) (call : CheckpointCall)
    (result : CheckpointAfter × HookState) : Prop where
  notRecorded : ∀ record, result.1 ≠ .recorded record
  baseline : KeepsBaseline hook result.2
  cache :
    CacheAdvances call.tree hook.checkpointHashCache
      result.2.checkpointHashCache
  blobs :
    BlobsGrow call.tree hook.checkpointHashCache hook.blobs result.2.blobs
  files :
    result.2.manifestFiles = hook.manifestFiles ∨
      (WritesManifest hook call ∧
        result.2.manifestFiles =
          Function.update hook.manifestFiles
            (manifestName config call.toolCallId) none)

/-- A call that records the manifest of its plan. -/
structure RecordingCall
    (config : HookConfig) (hook : HookState) (call : CheckpointCall)
    (record : CheckpointRecord) (after : HookState)
    (current : CheckpointSnapshot) (manifest : Manifest)
    (state : WriteState) : Prop where
  writes : WritesManifest hook call
  taken : snapshotCheckpointEntries call.tree = .ok current
  written :
    writeCasManifest call.tree
        (planManifest config hook current).incrementalSinceNs
        (planManifest config hook current).deletedPaths
        (planManifest config hook current).changedPaths
        hook.checkpointHashCache hook.blobs = .ok (manifest, state)
  path : record.path = manifestName config call.toolCallId
  kind :
    record.kind = .casManifestFull ↔
      (planManifest config hook current).isFull = true
  lastFull :
    after.lastFullCheckpointNs =
      if (planManifest config hook current).isFull then
        some call.markerBeforeNs
      else hook.lastFullCheckpointNs
  lastIncremental :
    after.lastIncrementalCheckpointNs = some call.markerBeforeNs
  snapshot : after.checkpointSnapshotEntries = some current
  cache : after.checkpointHashCache = state.hashCache
  blobs : after.blobs = state.blobs
  files :
    after.manifestFiles =
      Function.update hook.manifestFiles
        (manifestName config call.toolCallId) (some manifest)

theorem cacheAdvances_refl (tree : Tree) (hashCache : HashCache) :
    CacheAdvances tree hashCache hashCache :=
  fun _ => Or.inl rfl

theorem CacheAdvances.cacheDigest
    {tree : Tree} {before after : HashCache}
    (advances : CacheAdvances tree before after)
    {path : RelPath} {data : FileData}
    (isFile : tree.get path = some (.file data)) :
    CacheAdvances tree before (cacheDigest after tree path data.digest) := by
  intro other
  by_cases same : other = path
  · subst same
    exact Or.inr ⟨data, isFile, by
      simp [Checkpoint.cacheDigest, advances.cachedDigest_eq isFile]⟩
  · simpa [Checkpoint.cacheDigest, same] using advances other

theorem blobsGrow_refl
    (tree : Tree) (hashCache : HashCache) (blobs : BlobStore) :
    BlobsGrow tree hashCache blobs blobs :=
  fun intact _ => ⟨intact, fun _ old => old⟩

theorem blobsGrow_of_written
    {tree : Tree} {sinceNs : Option Int}
    {changedPaths : Option (List RelPath)} {hashCache : HashCache}
    {blobs : BlobStore} {visited : List RelPath} {state : WriteState}
    (folded :
      visited.foldlM (writeCasEntry tree sinceNs changedPaths)
        ⟨Dict.empty, hashCache, blobs, 0⟩ = .ok state) :
    BlobsGrow tree hashCache blobs state.blobs := by
  intro intact current
  have kept := writeCasEntries_storeInvariant folded intact current
  exact ⟨kept.intact, kept.grows⟩

/-- The part of the loop that an error cuts off only adds to the stores. -/
theorem interruptedWrite_advances
    (tree : Tree) (sinceNs : Option Int)
    (changedPaths : Option (List RelPath))
    (hashCache : HashCache) (blobs : BlobStore) (fault : WriteFault) :
    CacheAdvances tree hashCache
        (interruptedWrite tree sinceNs changedPaths hashCache blobs
          fault).1 ∧
      BlobsGrow tree hashCache blobs
        (interruptedWrite tree sinceNs changedPaths hashCache blobs
          fault).2 := by
  rw [interruptedWrite]
  cases folded :
      ((iterCheckpointEntries tree).take fault.visited).foldlM
        (writeCasEntry tree sinceNs changedPaths)
        ⟨Dict.empty, hashCache, blobs, 0⟩ with
  | error failure =>
      exact ⟨cacheAdvances_refl tree hashCache,
        blobsGrow_refl tree hashCache blobs⟩
  | ok state =>
      have advances : CacheAdvances tree hashCache state.hashCache :=
        (Loops.foldlM_invariant (writeCasEntry tree sinceNs changedPaths)
          (WriteInvariant tree (manifestSelects tree sinceNs changedPaths)
            hashCache)
          ⟨by simp, cacheAdvances_refl tree hashCache⟩
          (fun visited item _ =>
            writeCasEntry_invariant tree sinceNs changedPaths hashCache
              visited item)
          folded).cache
      have grows := blobsGrow_of_written folded
      dsimp only
      split
      · exact ⟨advances, grows⟩
      · split
        · next isFile => exact ⟨advances.cacheDigest isFile, grows⟩
        · exact ⟨advances, grows⟩

theorem writePlanned_cases
    (config : HookConfig) {hook : HookState} {call : CheckpointCall}
    {current : CheckpointSnapshot}
    (writes : WritesManifest hook call)
    (taken : snapshotCheckpointEntries call.tree = .ok current) :
    QuietCall config hook call
        (writePlanned config hook call current
          (planManifest config hook current)) ∨
      ∃ record after manifest state,
        writePlanned config hook call current
            (planManifest config hook current) =
          (.recorded record, after) ∧
        RecordingCall config hook call record after current manifest
          state := by
  rw [writePlanned]
  cases call.writeFault with
  | some fault =>
      obtain ⟨advances, grows⟩ :=
        interruptedWrite_advances call.tree
          (planManifest config hook current).incrementalSinceNs
          (planManifest config hook current).changedPaths
          hook.checkpointHashCache hook.blobs fault
      exact Or.inl
        ⟨by simp, ⟨rfl, rfl, rfl, rfl⟩, advances, grows, Or.inl rfl⟩
  | none =>
      cases written :
          writeCasManifest call.tree
            (planManifest config hook current).incrementalSinceNs
            (planManifest config hook current).deletedPaths
            (planManifest config hook current).changedPaths
            hook.checkpointHashCache hook.blobs with
      | error failure =>
          exact Or.inl ⟨by simp, KeepsBaseline.refl hook,
            cacheAdvances_refl _ _, blobsGrow_refl _ _ _, Or.inl rfl⟩
      | ok result =>
          obtain ⟨manifest, state⟩ := result
          dsimp only
          split
          · exact Or.inl ⟨by simp, ⟨rfl, rfl, rfl, rfl⟩,
              (writeCasManifest_invariant written).cache,
              blobsGrow_of_written (writeCasManifest_eq_ok written).1,
              Or.inr ⟨writes, rfl⟩⟩
          · refine Or.inr ⟨_, _, manifest, state, rfl, ?_⟩
            refine ⟨writes, taken, written, rfl, ?_, rfl, rfl, rfl, rfl, rfl,
              rfl⟩
            cases (planManifest config hook current).isFull <;> simp

/-- A call records nothing and keeps the baseline, or records its tree. -/
theorem checkpointAfterTool_cases
    (config : HookConfig) (hook : HookState) (call : CheckpointCall) :
    QuietCall config hook call (checkpointAfterTool config hook call) ∨
      ∃ record after current manifest state,
        checkpointAfterTool config hook call = (.recorded record, after) ∧
        RecordingCall config hook call record after current manifest
          state := by
  have quiet :
      ∀ outcome, (∀ record, outcome ≠ .recorded record) →
        QuietCall config hook call (outcome, hook) :=
    fun outcome notRecorded =>
      ⟨notRecorded, KeepsBaseline.refl hook, cacheAdvances_refl _ _,
        blobsGrow_refl _ _ _, Or.inl rfl⟩
  rw [checkpointAfterTool]
  split
  · exact Or.inl (quiet _ (by simp))
  split
  · exact Or.inl (quiet _ (by simp))
  next isExec =>
  split
  · exact Or.inl (quiet _ (by simp))
  split
  · exact Or.inl (quiet _ (by simp))
  split
  · exact Or.inl (quiet _ (by simp))
  cases taken : snapshotCheckpointEntries call.tree with
  | error failure => exact Or.inl (quiet _ (by simp))
  | ok current =>
      dsimp only
      split
      · exact Or.inl (quiet _ (by simp))
      · next differs =>
          have writes : WritesManifest hook call :=
            ⟨by simpa [Option.isSome_iff_ne_none] using isExec, current,
              taken, fun same => differs same⟩
          rcases writePlanned_cases config writes taken with
            isQuiet | ⟨record, after, manifest, state, equal, recording⟩
          · exact Or.inl isQuiet
          · exact Or.inr
              ⟨record, after, current, manifest, state, equal, recording⟩

/-! ## Sessions -/

/-- A hook with the records since the last full one and their last tree. -/
structure Session where
  hook : HookState
  chain : List CheckpointRecord
  recordedTree : Option Tree

def Session.start (blobs : BlobStore) : Session :=
  ⟨HookState.start blobs, [], none⟩

/-- Run the hook on one call. -/
def Session.step
    (config : HookConfig) (session : Session) (call : CheckpointCall) :
    Session :=
  match checkpointAfterTool config session.hook call with
  | (.recorded record, hook) =>
      { hook := hook
        chain :=
          if record.kind = .casManifestFull then [record]
          else session.chain ++ [record]
        recordedTree := some call.tree }
  | (_, hook) => { session with hook := hook }

/-- Run the hook on the calls in order. -/
def Session.run
    (config : HookConfig) (session : Session) (calls : List CheckpointCall) :
    Session :=
  calls.foldl (Session.step config) session

/-- Apply the manifests of the recorded checkpoints in order. -/
def appliedChain
    (manifestFiles : String → Option Manifest)
    (chain : List CheckpointRecord) : EntryMap :=
  (chain.filterMap fun record => manifestFiles record.path).foldl
    (fun entries manifest => applyManifest manifest entries)
    (fun _ => none)

/-- Something changed since the last recorded tree, as the hook sees it. -/
def Attempts (session : Session) (call : CheckpointCall) : Prop :=
  (singleExecCommandArgs call.toolName call.toolArgs).isSome ∧
    ∀ previous, session.recordedTree = some previous →
      ∃ path, Changed previous call.tree path ∨
        Dropped previous call.tree path

/-- What a call must not do for the chain to stay true. -/
structure CallSeen
    (config : HookConfig) (session : Session) (call : CheckpointCall) :
    Prop where
  nameFresh :
    ∀ record ∈ session.chain,
      record.path ≠ manifestName config call.toolCallId
  noGit : NoGitEntry call.tree
  modes :
    ∀ previous, session.recordedTree = some previous →
      forceFullCheckpoint config session.hook = false →
        ModesSeen previous call.tree

/-- Every call that has something to record is seen in full. -/
def RunSeen (config : HookConfig) (session : Session) :
    List CheckpointCall → Prop
  | [] => True
  | call :: rest =>
      (Attempts session call → CallSeen config session call) ∧
        RunSeen config (session.step config call) rest

/-- Every cached digest was read from one of the trees. -/
def CacheRead (trees : List Tree) (hashCache : HashCache) : Prop :=
  ∀ path stat digest, hashCache path = some (stat, digest) →
    ∃ tree ∈ trees, ∃ data, tree.get path = some (.file data) ∧
      tree.stat path = stat ∧ data.digest = digest

/-- In all of the trees a file's content is determined by its fingerprint. -/
def Fingerprinted (trees : List Tree) : Prop :=
  ∀ previous ∈ trees, ∀ tree ∈ trees, ContentsSeen previous tree

/-- The hook's baseline is the snapshot of the last recorded tree. -/
structure Session.Based (session : Session) : Prop where
  fresh :
    session.recordedTree = none →
      session.hook.lastFullCheckpointNs = none ∧
        session.hook.lastIncrementalCheckpointNs = none ∧ session.chain = []
  baseline :
    ∀ tree, session.recordedTree = some tree →
      session.hook.lastFullCheckpointNs.isSome ∧
        session.hook.lastIncrementalCheckpointNs.isSome ∧
        ∃ snapshot,
          session.hook.checkpointSnapshotEntries = some snapshot ∧
            snapshotCheckpointEntries tree = .ok snapshot

/-- What a session over some trees always keeps. -/
structure Session.Tracked (trees : List Tree) (session : Session) :
    Prop extends Session.Based session where
  cache : CacheRead trees session.hook.checkpointHashCache
  known : ∀ tree, session.recordedTree = some tree → tree ∈ trees

/-- The invariant of a session whose calls are seen in full. -/
structure Session.Accounted (trees : List Tree) (session : Session) :
    Prop extends Session.Tracked trees session where
  applied :
    ∀ tree, session.recordedTree = some tree →
      appliedChain session.hook.manifestFiles session.chain = tree.entries

section Accounted

variable
  {trees : List Tree} {config : HookConfig} {session : Session}
  {call : CheckpointCall}

theorem CacheRead.current
    {hashCache : HashCache} {tree : Tree}
    (read : CacheRead trees hashCache) (known : tree ∈ trees)
    (fingerprinted : Fingerprinted trees) :
    CacheCurrent hashCache tree := by
  intro path data isFile
  rw [cachedDigest]
  cases cached : hashCache path with
  | none => rfl
  | some entry =>
      obtain ⟨stat, digest⟩ := entry
      dsimp only
      split
      · next fits =>
          obtain ⟨other, otherKnown, old, oldFile, oldStat, rfl⟩ :=
            read path stat digest cached
          exact fingerprinted other otherKnown tree known path old data
            oldFile isFile (oldStat.trans fits)
      · rfl

theorem CacheRead.advance
    {before after : HashCache} {tree : Tree}
    (read : CacheRead trees before) (known : tree ∈ trees)
    (fingerprinted : Fingerprinted trees)
    (advances : CacheAdvances tree before after) :
    CacheRead trees after := by
  intro path stat digest cached
  rcases advances path with same | ⟨data, isFile, isNew⟩
  · exact read path stat digest (same ▸ cached)
  · rw [cached, read.current known fingerprinted path data isFile] at isNew
    cases isNew
    exact ⟨tree, known, data, isFile, rfl, rfl⟩

theorem Session.start_based (blobs : BlobStore) :
    (Session.start blobs).Based where
  fresh _ := ⟨rfl, rfl, rfl⟩
  baseline _ recorded := by cases recorded

theorem Session.start_tracked (trees : List Tree) (blobs : BlobStore) :
    (Session.start blobs).Tracked trees where
  toBased := Session.start_based blobs
  cache _ _ _ cached := by cases cached
  known _ recorded := by cases recorded

theorem Session.start_accounted (trees : List Tree) (blobs : BlobStore) :
    (Session.start blobs).Accounted trees where
  toTracked := Session.start_tracked trees blobs
  applied _ recorded := by cases recorded

/-- The hook writes a manifest only where something changed. -/
theorem Session.Based.attempts
    (based : session.Based)
    (writes : WritesManifest session.hook call) :
    Attempts session call := by
  obtain ⟨isExec, current, taken, differs⟩ := writes
  refine ⟨isExec, ?_⟩
  intro previous recorded
  obtain ⟨_, hasIncremental, snapshot, isSnapshot, before⟩ :=
    based.baseline previous recorded
  obtain ⟨sinceNs, isSince⟩ := Option.isSome_iff_exists.mp hasIncremental
  by_contra nothing
  apply differs
  rw [precomputedPaths, isSince, isSnapshot]
  dsimp only
  congr 2
  · rw [List.eq_nil_iff_forall_not_mem]
    intro path member
    apply nothing
    refine ⟨path, Or.inr ?_⟩
    rw [mem_computeCheckpointDeletedPaths,
      snapshotCheckpointEntries_get before] at member
    simpa only [Dropped, snapshotCheckpointEntries_get taken] using member
  · rw [List.eq_nil_iff_forall_not_mem]
    intro path member
    apply nothing
    refine ⟨path, Or.inl ?_⟩
    rw [mem_computeCheckpointChangedPaths,
      snapshotCheckpointEntries_get before,
      snapshotCheckpointEntries_get taken] at member
    exact member

/-- Where something changed, the differences are not empty. -/
theorem Session.Based.differs
    {current : CheckpointSnapshot}
    (based : session.Based) (attempts : Attempts session call)
    (taken : snapshotCheckpointEntries call.tree = .ok current) :
    precomputedPaths session.hook current ≠ some ([], []) := by
  intro nothing
  cases recorded : session.recordedTree with
  | none =>
      rw [precomputedPaths, (based.fresh recorded).2.1] at nothing
      cases nothing
  | some previous =>
      obtain ⟨_, hasIncremental, snapshot, isSnapshot, before⟩ :=
        based.baseline previous recorded
      obtain ⟨sinceNs, isSince⟩ :=
        Option.isSome_iff_exists.mp hasIncremental
      rw [precomputedPaths, isSince, isSnapshot] at nothing
      simp only [Option.some.injEq, Prod.mk.injEq,
        List.eq_nil_iff_forall_not_mem] at nothing
      obtain ⟨path, changed | dropped⟩ := attempts.2 previous recorded
      · apply nothing.2 path
        rw [mem_computeCheckpointChangedPaths,
          snapshotCheckpointEntries_get before,
          snapshotCheckpointEntries_get taken]
        exact changed
      · apply nothing.1 path
        rw [mem_computeCheckpointDeletedPaths,
          snapshotCheckpointEntries_get before]
        simpa only [Dropped, snapshotCheckpointEntries_get taken]
          using dropped

theorem appliedChain_congr
    {files : String → Option Manifest} (other : String → Option Manifest)
    {chain : List CheckpointRecord}
    (equal : ∀ record ∈ chain, files record.path = other record.path) :
    appliedChain files chain = appliedChain other chain := by
  rw [appliedChain, appliedChain, List.filterMap_congr equal]

theorem appliedChain_append
    (files : String → Option Manifest) (chain : List CheckpointRecord)
    {record : CheckpointRecord} {manifest : Manifest}
    (present : files record.path = some manifest) :
    appliedChain files (chain ++ [record]) =
      applyManifest manifest (appliedChain files chain) := by
  simp [appliedChain, present]

theorem Session.Based.quiet
    {hook : HookState} {after : CheckpointAfter}
    (based : session.Based)
    (isQuiet : QuietCall config session.hook call (after, hook)) :
    ({ session with hook := hook } : Session).Based where
  fresh missing := by
    obtain ⟨noFull, noIncremental, noChain⟩ := based.fresh missing
    exact ⟨isQuiet.baseline.lastFull.trans noFull,
      isQuiet.baseline.lastIncremental.trans noIncremental, noChain⟩
  baseline tree recorded := by
    have old := based.baseline tree recorded
    have kept := isQuiet.baseline
    dsimp only at kept ⊢
    rw [kept.lastFull, kept.lastIncremental, kept.snapshot]
    exact old

theorem Session.Tracked.quiet
    {hook : HookState} {after : CheckpointAfter}
    (tracked : session.Tracked trees)
    (known : call.tree ∈ trees) (fingerprinted : Fingerprinted trees)
    (isQuiet : QuietCall config session.hook call (after, hook)) :
    ({ session with hook := hook } : Session).Tracked trees where
  toBased := tracked.toBased.quiet isQuiet
  cache := tracked.cache.advance known fingerprinted isQuiet.cache
  known := tracked.known

/-- A quiet call keeps what the session accounts for. -/
theorem Session.Accounted.quiet
    {hook : HookState} {after : CheckpointAfter}
    (accounted : session.Accounted trees)
    (known : call.tree ∈ trees) (fingerprinted : Fingerprinted trees)
    (seen : Attempts session call → CallSeen config session call)
    (isQuiet : QuietCall config session.hook call (after, hook)) :
    ({ session with hook := hook } : Session).Accounted trees where
  toTracked := accounted.toTracked.quiet known fingerprinted isQuiet
  applied tree recorded := by
    rw [← accounted.applied tree recorded]
    apply appliedChain_congr _
    intro record member
    rcases isQuiet.files with same | ⟨writes, removed⟩
    · exact congrFun same record.path
    · have fresh := (seen (accounted.attempts writes)).nameFresh record member
      dsimp only at removed ⊢
      rw [removed, Function.update_of_ne fresh]

theorem planManifest_full
    (config : HookConfig) {hook : HookState} (current : CheckpointSnapshot)
    (full :
      hook.lastFullCheckpointNs = none ∨
        forceFullCheckpoint config hook = true) :
    planManifest config hook current =
      ⟨true, forceFullCheckpoint config hook, none, [], none⟩ := by
  rw [planManifest]
  rcases full with first | forced
  · cases hook.checkpointSnapshotEntries <;> simp [first]
  · cases hook.checkpointSnapshotEntries <;> simp [forced]

theorem planManifest_incremental
    (config : HookConfig) {hook : HookState} {snapshot : CheckpointSnapshot}
    (current : CheckpointSnapshot)
    (notFirst : hook.lastFullCheckpointNs.isSome)
    (notForced : forceFullCheckpoint config hook = false)
    (isSnapshot : hook.checkpointSnapshotEntries = some snapshot) :
    planManifest config hook current =
      ⟨false, false, hook.lastIncrementalCheckpointNs,
        computeCheckpointDeletedPaths (some snapshot) current,
        some (computeCheckpointChangedPaths snapshot current)⟩ := by
  have paths :
      (precomputedPaths hook current).getD
          (computeCheckpointDeletedPaths (some snapshot) current,
            computeCheckpointChangedPaths snapshot current) =
        (computeCheckpointDeletedPaths (some snapshot) current,
          computeCheckpointChangedPaths snapshot current) := by
    rw [precomputedPaths, isSnapshot]
    cases hook.lastIncrementalCheckpointNs <;> rfl
  have isNotFirst : hook.lastFullCheckpointNs.isNone = false := by
    simpa [Option.isSome_iff_ne_none] using notFirst
  rw [planManifest, isSnapshot]
  simp only [isNotFirst, notForced, Bool.false_eq_true, or_self, if_false,
    paths]

/-- The manifest recorded is the full one, or the next to the baseline's. -/
theorem Session.Tracked.manifest_cases
    {record : CheckpointRecord} {hook : HookState}
    {current : CheckpointSnapshot} {manifest : Manifest} {state : WriteState}
    (tracked : session.Tracked trees)
    (recording :
      RecordingCall config session.hook call record hook current manifest
        state) :
    (record.kind = .casManifestFull ∧
        FullOf call.tree session.hook.checkpointHashCache manifest) ∨
      (record.kind ≠ .casManifestFull ∧
        forceFullCheckpoint config session.hook = false ∧
        ∃ previous, session.recordedTree = some previous ∧
          IncrementalOf previous call.tree session.hook.checkpointHashCache
            manifest) := by
  have written := recording.written
  by_cases full :
      session.hook.lastFullCheckpointNs = none ∨
        forceFullCheckpoint config session.hook = true
  · have plan := planManifest_full config current full
    rw [plan] at written
    exact Or.inl ⟨recording.kind.mpr (by rw [plan]),
      writeCasManifest_full written⟩
  · rw [not_or, Bool.not_eq_true, ← ne_eq, ← Option.isSome_iff_ne_none]
      at full
    cases recordedTree : session.recordedTree with
    | none =>
        rw [(tracked.fresh recordedTree).1] at full
        exact absurd full.1 (by simp)
    | some previous =>
        obtain ⟨_, _, snapshot, isSnapshot, before⟩ :=
          tracked.baseline previous recordedTree
        have plan :=
          planManifest_incremental config current full.1 full.2
            isSnapshot
        refine Or.inr ⟨?_, full.2, previous, rfl, ?_⟩
        · intro isFull
          have planFull := recording.kind.mp isFull
          rw [plan] at planFull
          cases planFull
        · rw [plan] at written
          exact writeCasManifest_incremental before recording.taken written

theorem Session.Based.recorded
    {record : CheckpointRecord} {hook : HookState}
    {current : CheckpointSnapshot} {manifest : Manifest} {state : WriteState}
    {chain : List CheckpointRecord}
    (based : session.Based)
    (recording :
      RecordingCall config session.hook call record hook current manifest
        state) :
    (⟨hook, chain, some call.tree⟩ : Session).Based := by
  refine ⟨fun missing => (nomatch missing), ?_⟩
  rintro tree equal
  cases equal
  refine ⟨?_, by simp [recording.lastIncremental], current,
    recording.snapshot, recording.taken⟩
  dsimp only
  rw [recording.lastFull]
  split
  · rfl
  · next notFull =>
      cases recordedTree : session.recordedTree with
      | none =>
          rw [planManifest_full _ current
            (Or.inl (based.fresh recordedTree).1)] at notFull
          exact (notFull rfl).elim
      | some previous => exact (based.baseline previous recordedTree).1

theorem Session.Tracked.recorded
    {record : CheckpointRecord} {hook : HookState}
    {current : CheckpointSnapshot} {manifest : Manifest} {state : WriteState}
    {chain : List CheckpointRecord}
    (tracked : session.Tracked trees)
    (known : call.tree ∈ trees) (fingerprinted : Fingerprinted trees)
    (recording :
      RecordingCall config session.hook call record hook current manifest
        state) :
    (⟨hook, chain, some call.tree⟩ : Session).Tracked trees := by
  refine ⟨tracked.toBased.recorded recording, ?_, ?_⟩
  · dsimp only
    rw [recording.cache]
    exact tracked.cache.advance known fingerprinted
      (writeCasManifest_invariant recording.written).cache
  · rintro tree equal
    cases equal
    exact known

/-- A recorded checkpoint accounts for the tree it recorded. -/
theorem Session.Accounted.recorded
    {record : CheckpointRecord} {hook : HookState}
    {current : CheckpointSnapshot} {manifest : Manifest} {state : WriteState}
    (accounted : session.Accounted trees)
    (known : call.tree ∈ trees) (fingerprinted : Fingerprinted trees)
    (seen : Attempts session call → CallSeen config session call)
    (recording :
      RecordingCall config session.hook call record hook current manifest
        state) :
    (⟨hook,
        if record.kind = .casManifestFull then [record]
        else session.chain ++ [record],
        some call.tree⟩ : Session).Accounted trees := by
  refine ⟨accounted.toTracked.recorded known fingerprinted recording, ?_⟩
  have callSeen := seen (accounted.attempts recording.writes)
  have cacheCurrent := accounted.cache.current known fingerprinted
  have present : hook.manifestFiles record.path = some manifest := by
    rw [recording.files, recording.path, Function.update_self]
  rintro tree equal
  cases equal
  dsimp only
  rcases accounted.manifest_cases recording with
    ⟨isFull, full⟩ | ⟨notFull, notForced, previous, recordedTree, incremental⟩
  · rw [if_pos isFull, ← List.nil_append [record],
      appliedChain_append _ _ present]
    exact applyManifest_full full cacheCurrent callSeen.noGit
  · rw [if_neg notFull, appliedChain_append _ _ present,
      appliedChain_congr session.hook.manifestFiles,
      accounted.applied previous recordedTree]
    · exact applyManifest_incremental incremental cacheCurrent callSeen.noGit
        (fingerprinted previous
          (accounted.known previous recordedTree) call.tree known)
        (callSeen.modes previous recordedTree notForced)
    · intro other member
      rw [recording.files,
        Function.update_of_ne (callSeen.nameFresh other member)]

/-- One call, seen from its session. -/
theorem Session.step_cases
    (config : HookConfig) (session : Session) (call : CheckpointCall) :
    (∃ after hook,
        checkpointAfterTool config session.hook call = (after, hook) ∧
          session.step config call = { session with hook := hook } ∧
          QuietCall config session.hook call (after, hook)) ∨
      ∃ record hook current manifest state,
        checkpointAfterTool config session.hook call =
            (.recorded record, hook) ∧
          session.step config call =
            ⟨hook,
              if record.kind = .casManifestFull then [record]
              else session.chain ++ [record],
              some call.tree⟩ ∧
          RecordingCall config session.hook call record hook current
            manifest state := by
  rcases checkpointAfterTool_cases config session.hook call with
    isQuiet | ⟨record, hook, current, manifest, state, equal, recording⟩
  · left
    cases result : checkpointAfterTool config session.hook call with
    | mk after hook =>
        rw [result] at isQuiet
        refine ⟨after, hook, rfl, ?_, isQuiet⟩
        rw [Session.step, result]
        cases after with
        | recorded record => exact (isQuiet.notRecorded record rfl).elim
        | notTaken => rfl
        | error message => rfl
        | skipped => rfl
  · right
    refine ⟨record, hook, current, manifest, state, equal, ?_, recording⟩
    rw [Session.step, equal]

theorem Session.Based.step (based : session.Based) :
    (session.step config call).Based := by
  rcases Session.step_cases config session call with
    ⟨after, hook, _, stepped, isQuiet⟩ |
    ⟨record, hook, current, manifest, state, _, stepped, recording⟩
  · rw [stepped]
    exact based.quiet isQuiet
  · rw [stepped]
    exact based.recorded recording

/-- One call keeps the account. -/
theorem Session.Accounted.step
    (accounted : session.Accounted trees)
    (known : call.tree ∈ trees) (fingerprinted : Fingerprinted trees)
    (seen : Attempts session call → CallSeen config session call) :
    (session.step config call).Accounted trees := by
  rcases Session.step_cases config session call with
    ⟨after, hook, _, stepped, isQuiet⟩ |
    ⟨record, hook, current, manifest, state, _, stepped, recording⟩
  · rw [stepped]
    exact accounted.quiet known fingerprinted seen isQuiet
  · rw [stepped]
    exact accounted.recorded known fingerprinted seen recording

theorem Session.Accounted.run
    (accounted : session.Accounted trees) (calls : List CheckpointCall)
    (known : ∀ call ∈ calls, call.tree ∈ trees)
    (fingerprinted : Fingerprinted trees)
    (seen : RunSeen config session calls) :
    (session.run config calls).Accounted trees := by
  induction calls generalizing session with
  | nil => exact accounted
  | cons call rest induction =>
      exact induction
        (accounted.step (known call List.mem_cons_self) fingerprinted seen.1)
        (fun other member => known other (List.mem_cons_of_mem call member))
        seen.2

end Accounted

/--
Over every run whose calls are seen in full, the manifests since the last
full one give the entries of the last recorded tree.
-/
theorem run_appliedChain
    (config : HookConfig) (blobs : BlobStore) (calls : List CheckpointCall)
    (fingerprinted : Fingerprinted (calls.map CheckpointCall.tree))
    (seen : RunSeen config (Session.start blobs) calls) (tree : Tree)
    (recorded :
      ((Session.start blobs).run config calls).recordedTree = some tree) :
    appliedChain
        ((Session.start blobs).run config calls).hook.manifestFiles
        ((Session.start blobs).run config calls).chain =
      tree.entries :=
  ((Session.start_accounted (calls.map CheckpointCall.tree) blobs).run calls
    (fun _ member => List.mem_map_of_mem member) fingerprinted seen).applied
      tree recorded

/-! ## Two sessions -/

/-- The configuration of a collection on the host. -/
def hostConfig : HookConfig where
  checkpointing := true
  checkpointRootLabel := "/testbed"
  rebaselineBytes := none
  isAlnum := Char.isAlphanum

/-- An `exec` call that meets no error. -/
def execCall (toolCallId : String) (markerBeforeNs : Int) (tree : Tree) :
    CheckpointCall where
  toolCallId := toolCallId
  toolName := "exec"
  toolArgs := some (.obj [("command", .str "make")])
  rootAvailable := true
  markerBeforeNs := markerBeforeNs
  tree := tree
  snapshotFault := false
  writeFault := none

theorem scriptTree_closed :
    ObjectsClosed
      [(["run.sh"], .file ⟨"d1", 0o100644⟩, ⟨5, 1⟩),
        (["out.txt"], .file ⟨"e1", 0o100644⟩, ⟨5, 1⟩)] := by
  decide

/-- A script and its output. -/
def scriptTree : Tree :=
  Tree.ofObjects
    [(["run.sh"], .file ⟨"d1", 0o100644⟩, ⟨5, 1⟩),
      (["out.txt"], .file ⟨"e1", 0o100644⟩, ⟨5, 1⟩)]
    (fun _ => false) scriptTree_closed

theorem outputTree_closed :
    ObjectsClosed
      [(["run.sh"], .file ⟨"d1", 0o100644⟩, ⟨5, 1⟩),
        (["out.txt"], .file ⟨"e2", 0o100644⟩, ⟨5, 2⟩)] := by
  decide

/-- The output is new. -/
def outputTree : Tree :=
  Tree.ofObjects
    [(["run.sh"], .file ⟨"d1", 0o100644⟩, ⟨5, 1⟩),
      (["out.txt"], .file ⟨"e2", 0o100644⟩, ⟨5, 2⟩)]
    (fun _ => false) outputTree_closed

/-- The output is new, and `chmod +x` was applied to the script. -/
def chmodTree : Tree :=
  Tree.ofObjects
    [(["run.sh"], .file ⟨"d1", 0o100755⟩, ⟨5, 1⟩),
      (["out.txt"], .file ⟨"e2", 0o100644⟩, ⟨5, 2⟩)]
    (fun _ => false) (by decide)

/-- A full, a failed, a skipped and an incremental checkpoint. -/
def outputCalls : List CheckpointCall :=
  [execCall "call_1" 10 scriptTree,
    { execCall "call_2" 20 outputTree with writeFault := some ⟨1, false⟩ },
    execCall "call_3" 30 scriptTree,
    execCall "call_4" 40 outputTree]

theorem outputTrees_fingerprinted :
    Fingerprinted (outputCalls.map CheckpointCall.tree) := by
  intro previous previousKnown tree known
  simp only [outputCalls, execCall, List.map_cons, List.map_nil,
    List.mem_cons, List.not_mem_nil, or_false] at previousKnown known
  rcases previousKnown with rfl | rfl | rfl | rfl <;>
    rcases known with rfl | rfl | rfl | rfl <;>
    exact contentsSeen_of_paths (by decide)

theorem run_appliedChain_output :
    appliedChain
        ((Session.start fun _ => none).run hostConfig
          outputCalls).hook.manifestFiles
        ((Session.start fun _ => none).run hostConfig outputCalls).chain =
      outputTree.entries := by
  refine run_appliedChain hostConfig (fun _ => none) outputCalls
    outputTrees_fingerprinted ?_ outputTree rfl
  refine ⟨fun _ => ⟨by decide, ?_, fun _ recorded => nomatch recorded⟩,
    fun _ => ⟨by decide +kernel, ?_, ?_⟩,
    fun _ => ⟨by decide +kernel, ?_, ?_⟩,
    fun _ => ⟨by decide +kernel, ?_, ?_⟩, trivial⟩
  · exact noGitEntry_of_paths (by decide)
  · exact noGitEntry_of_paths (by decide)
  · intro previous recorded _
    cases (show some scriptTree = some previous from recorded)
    exact modesSeen_of_paths (by decide)
  · exact noGitEntry_of_paths (by decide)
  · intro previous recorded _
    cases (show some scriptTree = some previous from recorded)
    exact modesSeen_of_paths (by decide)
  · exact noGitEntry_of_paths (by decide)
  · intro previous recorded _
    cases (show some scriptTree = some previous from recorded)
    exact modesSeen_of_paths (by decide)

/-- The mode change has no fingerprint, so the chain keeps the old mode. -/
theorem run_appliedChain_chmod :
    ∃ calls tree,
      Fingerprinted (calls.map CheckpointCall.tree) ∧
        ((Session.start fun _ => none).run hostConfig calls).recordedTree =
          some tree ∧
        appliedChain
            ((Session.start fun _ => none).run hostConfig
              calls).hook.manifestFiles
            ((Session.start fun _ => none).run hostConfig calls).chain ≠
          tree.entries := by
  refine ⟨[execCall "call_1" 10 scriptTree, execCall "call_2" 20 chmodTree],
    chmodTree, ?_, rfl, ?_⟩
  · intro previous previousKnown tree known
    simp only [execCall, List.map_cons, List.map_nil,
      List.mem_cons, List.not_mem_nil, or_false] at previousKnown known
    rcases previousKnown with rfl | rfl <;> rcases known with rfl | rfl <;>
      exact contentsSeen_of_paths (by decide)
  · intro equal
    have modes := congrFun equal ["run.sh"]
    revert modes
    decide +kernel

end AgentSchedBench.Checkpoint
