import AgentSchedBench.Checkpoint.Container
import AgentSchedBench.Checkpoint.RestoreStep
import Mathlib

/-!
# The host and the container checkpoint

Both implementations are brought to one form: what a call has to record is a
set of captured paths, and each of them skips, fails or writes a manifest whose
entries are those paths.  The two agree exactly when they take the same way and
write the same entries, or, for a forced full checkpoint, entries that restore
the same tree.
-/

namespace AgentSchedBench.Checkpoint

open FileSystem

/-! ## What there is to record -/

/-- An `exec` call in a readable tree without special files. -/
structure PlainCall (config : HookConfig) (call : CheckpointCall) : Prop where
  checkpointing : config.checkpointing = true
  label : config.checkpointRootLabel = "/testbed"
  isExec : (singleExecCommandArgs call.toolName call.toolArgs).isSome = true
  rootAvailable : call.rootAvailable = true
  readable : call.snapshotFault = false
  writable : call.writeFault = none
  plain : ∀ path, call.tree.get path ≠ some .special

/-- The baseline is there once a checkpoint is recorded, with proper paths. -/
structure HookState.Consistent (hook : HookState) : Prop where
  full :
    hook.lastFullCheckpointNs.isSome = hook.checkpointSnapshotEntries.isSome
  incremental :
    hook.lastIncrementalCheckpointNs.isSome =
      hook.checkpointSnapshotEntries.isSome
  paths :
    ∀ previous, hook.checkpointSnapshotEntries = some previous →
      ∀ path, (previous.get path).isSome → path ≠ [] ∧ ValidPath path

/-- The entries that the script compares against. -/
def scriptPrevious (config : HookConfig) (hook : HookState) :
    CheckpointSnapshot :=
  if forceFullCheckpoint config hook then Dict.empty
  else hook.checkpointSnapshotEntries.getD Dict.empty

/-- A captured file or link that changed. -/
def Records
    (previous : CheckpointSnapshot) (tree : Tree) (path : RelPath) : Prop :=
  tree.Captured path ∧ (changedValue tree previous path).isSome

/-- No file or link changed, and nothing is gone or of another type. -/
structure Unchanged (previous : CheckpointSnapshot) (tree : Tree) :
    Prop where
  recorded : ∀ path, ¬ Records previous tree path
  present :
    ∀ path old, previous.get path = some old → ".git" ∉ path →
      ∃ new, tree.snapshotAt path = some new ∧
        new.entryType = old.entryType

/-- The call has a baseline and nothing changed since. -/
def NothingToRecord (hook : HookState) (tree : Tree) : Prop :=
  ∃ previous, hook.checkpointSnapshotEntries = some previous ∧
    Unchanged previous tree

/-- Two hard links of one file that is not stored are to be recorded. -/
def LinksUnstored
    (previous : CheckpointSnapshot) (blobs : BlobStore) (tree : Tree)
    (links : HardLinks tree) : Prop :=
  ∃ path other data, path ≠ other ∧ Records previous tree path ∧
    Records previous tree other ∧ links.inode path = links.inode other ∧
    tree.get path = some (.file data) ∧
    (∃ otherData, tree.get other = some (.file otherData)) ∧
    blobs data.digest = none

/-- The two manifests have one entry for the path. -/
def RecordsAlike
    (hashCache : HashCache) (tree : Tree) (path : RelPath) : Prop :=
  ".git" ∉ path ∧
    ∀ data, tree.get path = some (.file data) →
      cachedDigest hashCache tree path data.digest = data.digest

section Snapshot

variable {previous current : CheckpointSnapshot} {tree : Tree}

theorem entryChanged_eq
    (previous : CheckpointSnapshot) (path : RelPath)
    (entry : CheckpointSnapshotEntry) :
    entryChanged previous path entry =
      checkpointEntryRequiresManifest (previous.get path) entry := by
  rw [entryChanged]
  cases previous.get path <;> rfl

theorem entryChanged_empty (path : RelPath)
    (entry : CheckpointSnapshotEntry) :
    entryChanged Dict.empty path entry = true := rfl

/-- The host selects the paths that the script records. -/
theorem records_iff_changed
    (taken : snapshotCheckpointEntries tree = .ok current) (path : RelPath) :
    Records previous tree path ↔
      path ∈ computeCheckpointChangedPaths previous current := by
  rw [mem_computeCheckpointChangedPaths, snapshotCheckpointEntries_get taken,
    Records, Tree.snapshotAt, changedValue]
  by_cases captured : tree.Captured path
  · rcases found : tree.get path with _ | data | target | _ | _
    · simp
    · simp [captured, checkpointEntryType, entryChanged_eq]
    · simp [captured, checkpointEntryType, entryChanged_eq]
    · simp [captured, checkpointEntryType]
    · exact (snapshotCheckpointEntries_supported taken path captured
        found).elim
  · simp [captured]

/-- A full manifest records every captured file and link. -/
theorem records_empty (tree : Tree) (hashCache : HashCache)
    (path : RelPath) :
    Records Dict.empty tree path ↔
      tree.Captured path ∧
        (manifestEntryAt tree hashCache path).isSome := by
  rw [Records, changedValue, manifestEntryAt]
  rcases tree.get path with _ | data | target | _ | _ <;>
    simp [entryChanged_empty]

theorem precomputedPaths_eq_nil_iff
    {hook : HookState} (consistent : hook.Consistent)
    (taken : snapshotCheckpointEntries tree = .ok current) :
    precomputedPaths hook current = some ([], []) ↔
      NothingToRecord hook tree := by
  rw [precomputedPaths, NothingToRecord]
  have hasMarker := consistent.incremental
  cases baseline : hook.checkpointSnapshotEntries with
  | none => cases hook.lastIncrementalCheckpointNs <;> simp
  | some previous =>
      rw [baseline] at hasMarker
      obtain ⟨sinceNs, isSince⟩ := Option.isSome_iff_exists.mp hasMarker
      simp only [isSince, Option.some.injEq, Prod.mk.injEq,
        exists_eq_left', List.eq_nil_iff_forall_not_mem,
        ← records_iff_changed taken]
      constructor
      · rintro ⟨deleted, changed⟩
        refine ⟨changed, fun path old before outside => ?_⟩
        have stays := deleted path
        rw [mem_computeCheckpointDeletedPaths,
          snapshotCheckpointEntries_get taken] at stays
        push Not at stays
        obtain ⟨new, now, same⟩ := stays outside old before
        exact ⟨new, now, same⟩
      · intro unchanged
        refine ⟨fun path deleted => ?_, unchanged.recorded⟩
        rw [mem_computeCheckpointDeletedPaths,
          snapshotCheckpointEntries_get taken] at deleted
        obtain ⟨outside, old, before, differs⟩ := deleted
        obtain ⟨new, now, same⟩ :=
          unchanged.present path old before outside
        exact differs new now same

/-- The two functions for deleted paths differ in their tests' order only. -/
theorem computeDeletedPaths_eq
    {entries : CheckpointSnapshot}
    (same : ∀ path, entries.get path = current.get path)
    (prevEntries : Option CheckpointSnapshot) :
    computeDeletedPaths prevEntries entries =
      computeCheckpointDeletedPaths prevEntries current := by
  cases prevEntries with
  | none => rfl
  | some prevEntries =>
      simp only [computeDeletedPaths, computeCheckpointDeletedPaths]
      congr 1
      apply List.filter_congr
      intro path member
      rw [same]
      cases prevEntries.get path <;> cases current.get path <;> rfl

end Snapshot

/-! ## The host -/

/-- A manifest whose entries are those of some paths. -/
structure ManifestOf
    (records : RelPath → Prop)
    (entryAt : RelPath → Option ManifestEntry) (manifest : Manifest) :
    Prop where
  recorded :
    ∀ path, records path → manifest.entries.get path = entryAt path
  others : ∀ path, ¬ records path → manifest.entries.get path = none

/-- The deleted paths that both sides put into a manifest. -/
def deletedFrom
    (config : HookConfig) (hook : HookState)
    (current : CheckpointSnapshot) : List RelPath :=
  sortPaths
    ((computeCheckpointDeletedPaths
      (if forceFullCheckpoint config hook then none
        else hook.checkpointSnapshotEntries) current).filter
      (!checkpointRelpathIsSkipped ·))

section Outcome

variable
  {config : HookConfig} {hook : HookState} {call : CheckpointCall}
  {current : CheckpointSnapshot}

theorem PlainCall.supported (plain : PlainCall config call) :
    call.tree.Supported :=
  fun path _ => plain.plain path

theorem forceFull_isSome
    (forced : forceFullCheckpoint config hook = true) :
    hook.lastFullCheckpointNs.isSome = true := by
  rw [forceFullCheckpoint, Bool.and_eq_true] at forced
  exact forced.1

theorem host_skipped
    (plain : PlainCall config call) (consistent : hook.Consistent)
    (nothing : NothingToRecord hook call.tree) :
    checkpointAfterTool config hook call = (.skipped, hook) := by
  obtain ⟨current, taken⟩ := snapshotCheckpointEntries_total plain.supported
  have isNotNone :
      (singleExecCommandArgs call.toolName call.toolArgs).isNone = false := by
    simpa [Option.isSome_iff_ne_none] using plain.isExec
  simp [checkpointAfterTool, plain.checkpointing, isNotNone,
    plain.rootAvailable, plain.label, plain.readable, taken,
    (precomputedPaths_eq_nil_iff consistent taken).mpr nothing]

/-- What the host writes if it writes anything. -/
theorem host_plan
    (config : HookConfig) (consistent : hook.Consistent)
    (taken : snapshotCheckpointEntries call.tree = .ok current) :
    ∃ manifest state,
      writeCasManifest call.tree
          (planManifest config hook current).incrementalSinceNs
          (planManifest config hook current).deletedPaths
          (planManifest config hook current).changedPaths
          hook.checkpointHashCache hook.blobs = .ok (manifest, state) ∧
        (planManifest config hook current).isFull =
          (hook.checkpointSnapshotEntries.isNone ||
            forceFullCheckpoint config hook) ∧
        (planManifest config hook current).rebaseline =
          forceFullCheckpoint config hook ∧
        ManifestOf (Records (scriptPrevious config hook) call.tree)
          (manifestEntryAt call.tree hook.checkpointHashCache) manifest ∧
        manifest.deletedPaths = deletedFrom config hook current := by
  have supported := snapshotCheckpointEntries_supported taken
  obtain ⟨manifest, state, written⟩ :=
    writeCasManifest_total supported
      (planManifest config hook current).incrementalSinceNs
      (planManifest config hook current).deletedPaths
      (planManifest config hook current).changedPaths
      hook.checkpointHashCache hook.blobs
  refine ⟨manifest, state, written, ?_⟩
  have entries := writeCasManifest_entries written
  have deleted := congrArg Manifest.deletedPaths
    (writeCasManifest_eq_ok written).2
  have hasFull := consistent.full
  by_cases full :
      hook.lastFullCheckpointNs = none ∨
        forceFullCheckpoint config hook = true
  · have plan := planManifest_full config current full
    have isEmpty : scriptPrevious config hook = Dict.empty := by
      rw [scriptPrevious]
      rcases full with first | forced
      · rw [first] at hasFull
        rw [Option.isNone_iff_eq_none.mp
          (Option.isSome_eq_false_iff.mp hasFull.symm)]
        simp
      · rw [if_pos forced]
    rw [plan] at entries deleted ⊢
    simp only [manifestSelects, and_true] at entries
    refine ⟨?_, rfl, ?_, ?_⟩
    · rcases full with first | forced
      · rw [first] at hasFull
        simp [Option.isSome_eq_false_iff.mp hasFull.symm]
      · simp [forced]
    · rw [isEmpty]
      constructor
      · intro path recorded
        rw [entries, if_pos recorded.1]
      · intro path notRecorded
        rw [records_empty call.tree hook.checkpointHashCache, not_and,
          Bool.not_eq_true, Option.isSome_eq_false_iff,
          Option.isNone_iff_eq_none] at notRecorded
        rw [entries]
        split
        · next captured => exact notRecorded captured
        · rfl
    · rw [deleted, deletedFrom]
      rcases full with first | forced
      · rw [first] at hasFull
        rw [Option.isNone_iff_eq_none.mp
          (Option.isSome_eq_false_iff.mp hasFull.symm)]
        simp [computeCheckpointDeletedPaths]
      · simp [forced, computeCheckpointDeletedPaths]
  · rw [not_or, ← ne_eq, ← Option.isSome_iff_ne_none, Bool.not_eq_true]
      at full
    rw [full.1] at hasFull
    obtain ⟨previous, isPrevious⟩ :=
      Option.isSome_iff_exists.mp hasFull.symm
    have plan :=
      planManifest_incremental config current full.1 full.2
        isPrevious
    have isScript : scriptPrevious config hook = previous := by
      simp [scriptPrevious, full.2, isPrevious]
    rw [plan] at entries deleted ⊢
    have selects :
        ∀ path, manifestSelects call.tree hook.lastIncrementalCheckpointNs
            (some (computeCheckpointChangedPaths previous current))
            path = true ↔ Records previous call.tree path := by
      intro path
      rw [manifestSelects, List.contains_iff_mem,
        records_iff_changed taken]
    refine ⟨by simp [isPrevious, full.2], full.2.symm, ?_, ?_⟩
    · rw [isScript]
      constructor
      · intro path recorded
        rw [entries, if_pos ⟨recorded.1, (selects path).mpr recorded⟩]
      · intro path notRecorded
        rw [entries, if_neg fun both =>
          notRecorded ((selects path).mp both.2)]
    · rw [deleted, deletedFrom, if_neg (by simp [full.2]), isPrevious]

theorem host_writes
    (plain : PlainCall config call) (consistent : hook.Consistent)
    (some : ¬ NothingToRecord hook call.tree)
    (taken : snapshotCheckpointEntries call.tree = .ok current) :
    checkpointAfterTool config hook call =
      writePlanned config hook call current
        (planManifest config hook current) := by
  have isNotNone :
      (singleExecCommandArgs call.toolName call.toolArgs).isNone = false := by
    simpa [Option.isSome_iff_ne_none] using plain.isExec
  have differs :=
    mt (precomputedPaths_eq_nil_iff consistent taken).mp some
  simp only [checkpointAfterTool, plain.checkpointing, isNotNone,
    plain.rootAvailable, plain.label, plain.readable, taken,
    Bool.not_true, Bool.false_eq_true, if_false, ne_eq, not_true_eq_false]

end Outcome

/-! ## The container -/

/-- The entry of a path with the digest of its content. -/
def actualEntryAt (tree : Tree) (path : RelPath) : Option ManifestEntry :=
  manifestEntryAt tree (fun _ => none) path

section Container

variable
  {config : HookConfig} {hook : HookState} {call : ContainerCall}
  {previous : CheckpointSnapshot} {tree : Tree} {blobs : BlobStore}

theorem changedValue_entry
    {path : RelPath} {value : ChangedEntry}
    (found : changedValue tree previous path = some value) :
    actualEntryAt tree path = some (manifestEntryOf value) := by
  rw [changedValue] at found
  rw [actualEntryAt, manifestEntryAt]
  rcases isObject : tree.get path with _ | data | target | _ | _ <;>
    simp only [isObject] at found ⊢
  · cases found
  · split at found
    · cases found
      rfl
    · cases found
  · split at found
    · cases found
      rfl
    · cases found
  · cases found
  · cases found

theorem changed_eq_some_iff (path : RelPath) (value : ChangedEntry) :
    (snapshotWalk tree previous).changed.get path = some value ↔
      tree.Captured path ∧ changedValue tree previous path = some value := by
  rw [snapshotWalk_changed]
  split
  · next captured => simp [captured]
  · next notCaptured => simp [notCaptured]

theorem changedValue_file
    {path : RelPath} {hash : Digest} {mode size : Nat} {mtimeNs : Int}
    (found :
      changedValue tree previous path =
        some (.file hash mode size mtimeNs)) :
    ∃ data, tree.get path = some (.file data) ∧ data.digest = hash := by
  rw [changedValue] at found
  rcases isObject : tree.get path with _ | data | target | _ | _ <;>
    simp only [isObject] at found
  · cases found
  · split at found
    · cases found
      exact ⟨data, rfl, rfl⟩
    · cases found
  · split at found <;> cases found
  · cases found
  · cases found

theorem mem_missingPaths (path : RelPath) :
    path ∈ missingPaths blobs (snapshotWalk tree previous).changed ↔
      Records previous tree path ∧
        ∃ data, tree.get path = some (.file data) ∧
          blobs data.digest = none := by
  rw [missingPaths, List.mem_filter, Dict.mem_keys, Records]
  constructor
  · rintro ⟨present, missing⟩
    obtain ⟨value, isValue⟩ := Option.isSome_iff_exists.mp present
    obtain ⟨captured, isChanged⟩ := (changed_eq_some_iff path value).mp isValue
    rw [isValue] at missing
    cases value with
    | symlink target => cases missing
    | file hash mode size mtimeNs =>
        obtain ⟨data, isFile, rfl⟩ := changedValue_file isChanged
        exact ⟨⟨captured, by simp [isChanged]⟩, data, isFile,
          by simpa using missing⟩
  · rintro ⟨⟨captured, isChanged⟩, data, isFile, missing⟩
    obtain ⟨value, isValue⟩ := Option.isSome_iff_exists.mp isChanged
    have found := (changed_eq_some_iff path value).mpr ⟨captured, isValue⟩
    refine ⟨by simp [found], ?_⟩
    rw [found]
    rw [changedValue, isFile] at isValue
    dsimp only at isValue
    split at isValue
    · cases isValue
      simpa using missing
    · cases isValue

theorem linksUnstored_iff (links : HardLinks tree) :
    LinksUnstored previous blobs tree links ↔
      LinkMissing tree links
        (missingPaths blobs (snapshotWalk tree previous).changed) := by
  simp only [LinksUnstored, LinkMissing, mem_missingPaths]
  constructor
  · rintro ⟨path, other, data, apart, records, otherRecords, same, isFile,
      ⟨otherData, otherFile⟩, missing⟩
    obtain ⟨rfl, _⟩ := links.linked path other data otherData isFile
      otherFile same
    exact ⟨path, ⟨records, data, isFile, missing⟩, other,
      ⟨otherRecords, data, otherFile, missing⟩, apart, same⟩
  · rintro ⟨path, ⟨records, data, isFile, missing⟩, other,
      ⟨otherRecords, otherData, otherFile, _⟩, apart, same⟩
    exact ⟨path, other, data, apart, records, otherRecords, same, isFile,
      ⟨otherData, otherFile⟩, missing⟩

/-- The contents fetched verify unless two missing files are linked. -/
theorem verifyBlobs_iff (links : HardLinks tree) :
    verifyBlobs (snapshotWalk tree previous).changed
        (fetchBlobs tree links
          (missingPaths blobs (snapshotWalk tree previous).changed))
        (missingPaths blobs (snapshotWalk tree previous).changed) =
          .ok () ↔
      ¬ LinksUnstored previous blobs tree links := by
  have files :
      ∀ path ∈ missingPaths blobs (snapshotWalk tree previous).changed,
        ∃ data, tree.get path = some (.file data) := by
    intro path member
    obtain ⟨_, data, isFile, _⟩ := (mem_missingPaths path).mp member
    exact ⟨data, isFile⟩
  obtain ⟨inodes, holds⟩ := fetchBlobs_invariant links files
  rw [linksUnstored_iff, ← fetchBlobs_complete_iff files,
    verifyBlobs_eq_ok]
  intro path _ digest content hash mode size mtimeNs value
  obtain ⟨_, data, isFile, rfl⟩ := holds.actual path digest content
  obtain ⟨other, otherFile, rfl⟩ :=
    changedValue_file ((changed_eq_some_iff path _).mp value).2
  rw [isFile] at otherFile
  cases otherFile
  rfl

/-- What the container writes once every missing file was fetched. -/
theorem container_manifest
    (links : HardLinks tree) (blobs : BlobStore) (deletedPaths : List RelPath)
    (fetched : ¬ LinksUnstored previous blobs tree links) :
    ∃ manifest state,
      writeContainerManifest (snapshotWalk tree previous).changed
          deletedPaths
          (fetchBlobs tree links
            (missingPaths blobs (snapshotWalk tree previous).changed))
          blobs = .ok (manifest, state) ∧
        ManifestOf
          (fun path => Records previous tree path ∧ ".git" ∉ path)
          (actualEntryAt tree) manifest ∧
        manifest.deletedPaths =
          sortPaths (deletedPaths.filter
            (!checkpointRelpathIsSkipped ·)) ∧
        (blobs.Intact → state.blobs.Intact) ∧
        ∀ path digest mode size mtimeNs,
          manifest.entries.get path =
              some (.file (some digest) mode size mtimeNs) →
            (state.blobs digest).isSome := by
  have complete := fetched
  rw [linksUnstored_iff, ← fetchBlobs_complete_iff] at complete
  swap
  · intro path member
    obtain ⟨_, data, isFile, _⟩ := (mem_missingPaths path).mp member
    exact ⟨data, isFile⟩
  obtain ⟨inodes, holds⟩ :=
    fetchBlobs_invariant links fun path member => by
      obtain ⟨_, data, isFile, _⟩ := (mem_missingPaths path).mp member
      exact ⟨data, isFile⟩
  obtain ⟨manifest, state, written, entries, deleted, facts⟩ :=
    writeContainerManifest_total (snapshotWalk tree previous).changed
      (fetchBlobs tree links
        (missingPaths blobs (snapshotWalk tree previous).changed))
      blobs deletedPaths (by
        intro path hash mode size mtimeNs value
        obtain ⟨captured, isChanged⟩ :=
          (changed_eq_some_iff path _).mp value
        obtain ⟨data, isFile, rfl⟩ := changedValue_file isChanged
        cases inStore : blobs data.digest with
        | some content => exact Or.inl rfl
        | none =>
            right
            obtain ⟨digest, content⟩ := Option.isSome_iff_exists.mp
              (complete path ((mem_missingPaths path).mpr
                ⟨⟨captured, by simp [isChanged]⟩, data, isFile, inStore⟩))
            obtain ⟨_, other, otherFile, rfl⟩ :=
              holds.actual path digest content
            rw [isFile] at otherFile
            cases otherFile
            exact content)
  refine ⟨manifest, state, written, ⟨?_, ?_⟩, deleted, facts.intact, ?_⟩
  · rintro path ⟨⟨captured, isChanged⟩, outside⟩
    obtain ⟨value, isValue⟩ := Option.isSome_iff_exists.mp isChanged
    have found := (changed_eq_some_iff path value).mpr ⟨captured, isValue⟩
    have listed : path ∈ sortPaths (snapshotWalk tree previous).changed.keys := by
      rw [mem_sortPaths, Dict.mem_keys, found]
      rfl
    rw [entries, facts.entries, if_pos ⟨listed, outside⟩, found,
      changedValue_entry isValue]
    rfl
  · intro path notRecorded
    rw [entries, facts.entries]
    split
    · next both =>
        rw [mem_sortPaths, Dict.mem_keys] at both
        obtain ⟨value, found⟩ := Option.isSome_iff_exists.mp both.1
        obtain ⟨captured, isValue⟩ :=
          (changed_eq_some_iff path value).mp found
        exact (notRecorded ⟨⟨captured, by simp [isValue]⟩, both.2⟩).elim
    · rfl
  · rw [entries]
    exact facts.stored

end Container

/-! ## Comparing manifests -/

/-- The store has every blob that a manifest names. -/
def HoldsBlobs (blobs : BlobStore) (manifest : Manifest) : Prop :=
  ∀ path digest mode size mtimeNs,
    manifest.entries.get path =
        some (.file (some digest) mode size mtimeNs) →
      blobs digest = some digest

/-- Over any file system both manifests restore, to the same tree. -/
def RestoreSame (manifest other : Manifest) : Prop :=
  ∀ blobs, HoldsBlobs blobs manifest → HoldsBlobs blobs other → ∀ fs,
    ∃ after otherAfter,
      restoreCasManifest blobs true manifest fs = .ok after ∧
        restoreCasManifest blobs true other fs = .ok otherAfter ∧
        ∀ relpath, after.get (restoreRoot ++ relpath) =
          otherAfter.get (restoreRoot ++ relpath)

section Compare

variable
  {tree : Tree} {previous : CheckpointSnapshot} {hashCache : HashCache}
  {blobs : BlobStore} {manifest other : Manifest}

theorem records_object
    {path : RelPath} (records : Records previous tree path) :
    (∃ data, tree.get path = some (.file data)) ∨
      ∃ target, tree.get path = some (.symlink target) := by
  obtain ⟨_, isChanged⟩ := records
  rw [changedValue] at isChanged
  rcases isObject : tree.get path with _ | data | target | _ | _ <;>
    simp only [isObject] at isChanged
  · cases isChanged
  · exact Or.inl ⟨data, rfl⟩
  · exact Or.inr ⟨target, rfl⟩
  · cases isChanged
  · cases isChanged

/-- The cached digest of a path decides whether its entry is the actual one. -/
theorem manifestEntryAt_eq_actual_iff (path : RelPath) :
    manifestEntryAt tree hashCache path = actualEntryAt tree path ↔
      ∀ data, tree.get path = some (.file data) →
        cachedDigest hashCache tree path data.digest = data.digest := by
  rw [actualEntryAt, manifestEntryAt, manifestEntryAt]
  rcases tree.get path with _ | data | target | _ | _ <;>
    simp [cachedDigest]

/-- The entries agree when every recorded path is recorded alike. -/
theorem entries_agree_iff
    (host :
      ManifestOf (Records previous tree) (manifestEntryAt tree hashCache)
        manifest)
    (container :
      ManifestOf (fun path => Records previous tree path ∧ ".git" ∉ path)
        (actualEntryAt tree) other) :
    (∀ path, manifest.entries.get path = other.entries.get path) ↔
      ∀ path, Records previous tree path →
        RecordsAlike hashCache tree path := by
  constructor
  · intro same path records
    have equal := same path
    rw [host.recorded path records] at equal
    by_cases inside : ".git" ∈ path
    · rw [container.others path fun both => both.2 inside] at equal
      rcases records_object records with ⟨data, isFile⟩ | ⟨target, isLink⟩
      · simp [manifestEntryAt, isFile] at equal
      · simp [manifestEntryAt, isLink] at equal
    · rw [container.recorded path ⟨records, inside⟩] at equal
      exact ⟨inside, (manifestEntryAt_eq_actual_iff path).mp equal⟩
  · intro alike path
    by_cases records : Records previous tree path
    · obtain ⟨outside, actual⟩ := alike path records
      rw [host.recorded path records,
        container.recorded path ⟨records, outside⟩]
      exact (manifestEntryAt_eq_actual_iff path).mpr actual
    · rw [host.others path records,
        container.others path fun both => records both.1]

theorem ManifestOf.entriesOf
    {records : RelPath → Prop}
    (made : ManifestOf records (manifestEntryAt tree hashCache) manifest)
    (captured : ∀ path, records path → tree.Captured path)
    (holds : HoldsBlobs blobs manifest) :
    EntriesOf tree blobs manifest := by
  intro path entry present
  by_cases recorded : records path
  · refine ⟨captured path recorded, ?_⟩
    have isEntry := made.recorded path recorded
    rw [present, manifestEntryAt] at isEntry
    rcases isObject : tree.get path with _ | data | target | _ | _ <;>
      simp only [isObject] at isEntry
    · cases isEntry
    · cases isEntry
      exact ⟨_, rfl, holds path _ _ _ _ present⟩
    · cases isEntry
      exact ⟨_, rfl, rfl⟩
    · cases isEntry
    · cases isEntry
  · rw [made.others path recorded] at present
    cases present

/-- Full manifests restore alike when what is restored is recorded alike. -/
theorem restoreSame_iff
    (host :
      ManifestOf (Records Dict.empty tree) (manifestEntryAt tree hashCache)
        manifest)
    (container :
      ManifestOf (fun path => Records Dict.empty tree path ∧ ".git" ∉ path)
        (actualEntryAt tree) other)
    (deleted :
      ∀ path ∈ manifest.deletedPaths, path ≠ [] ∧ ValidPath path)
    (otherDeleted :
      ∀ path ∈ other.deletedPaths, path ≠ [] ∧ ValidPath path) :
    RestoreSame manifest other ↔
      ∀ path, Records Dict.empty tree path →
        isPreservedRelpath path = false →
          RecordsAlike hashCache tree path := by
  have restored :
      ∀ blobs, HoldsBlobs blobs manifest → HoldsBlobs blobs other → ∀ fs,
        ∃ after otherAfter,
          restoreCasManifest blobs true manifest fs = .ok after ∧
            restoreCasManifest blobs true other fs = .ok otherAfter ∧
            Overlaid manifest (clearedRoot fs) after ∧
            Overlaid other (clearedRoot fs) otherAfter := by
    intro blobs holds otherHolds fs
    have entries := host.entriesOf (fun _ records => records.1) holds
    have otherEntries :=
      container.entriesOf (fun _ records => records.1.1) otherHolds
    obtain ⟨after, isRestored, overlaid⟩ :=
      restore_cleared (entries.safe deleted) entries fs
    obtain ⟨otherAfter, otherRestored, otherOverlaid⟩ :=
      restore_cleared (otherEntries.safe otherDeleted) otherEntries fs
    exact ⟨after, otherAfter, isRestored, otherRestored, overlaid,
      otherOverlaid⟩
  constructor
  · intro same path records kept
    obtain ⟨after, otherAfter, isRestored, otherRestored, overlaid,
        otherOverlaid⟩ :=
      restored (fun digest => some digest) (fun _ _ _ _ _ _ => rfl)
        (fun _ _ _ _ _ _ => rfl) Fs.empty
    obtain ⟨_, _, isAfter, isOtherAfter, agree⟩ :=
      same (fun digest => some digest) (fun _ _ _ _ _ _ => rfl)
        (fun _ _ _ _ _ _ => rfl) Fs.empty
    rw [isRestored] at isAfter
    rw [otherRestored] at isOtherAfter
    cases isAfter
    cases isOtherAfter
    obtain ⟨object, writes⟩ : ∃ object, Writes manifest path object := by
      simp only [Writes, kept, true_and, host.recorded path records]
      rcases records_object records with ⟨data, isFile⟩ | ⟨target, isLink⟩
      · simp [manifestEntryAt, isFile, entryObject]
      · simp [manifestEntryAt, isLink, entryObject]
    have placed := agree path
    rw [overlaid.placed path object writes] at placed
    have notInside :
        ∀ written object, Writes other written object →
          ".git" ∉ written := by
      intro written object writes inside
      rw [Writes, container.others written fun both => both.2 inside]
        at writes
      cases writes.2
    by_cases inside : ".git" ∈ path
    · rcases otherOverlaid.cases path with
        ⟨written, otherWrites, _⟩ |
        ⟨written, _, otherWrites, isPrefix, _, _⟩ |
        ⟨_, _, _, _, _, missing⟩ | ⟨_, isKept⟩
      · exact (notInside path written otherWrites inside).elim
      · exact (notInside written _ otherWrites
          (isPrefix.subset inside)).elim
      · rw [missing] at placed
        cases placed
      · rw [isKept, clearedRoot_get Fs.empty _ records.1.1 kept] at placed
        cases placed
    · refine ⟨inside, fun data isFile => ?_⟩
      have otherWrites :
          Writes other path
            (.file ⟨data.digest, sIMode data.mode⟩) := by
        refine ⟨kept, ?_⟩
        rw [container.recorded path ⟨records, inside⟩, actualEntryAt,
          manifestEntryAt, isFile]
        rfl
      rw [otherOverlaid.placed path _ otherWrites] at placed
      have isWritten := writes.2
      rw [host.recorded path records, manifestEntryAt, isFile] at isWritten
      cases placed
      simpa [entryObject] using isWritten
  · intro alike blobs holds otherHolds fs
    obtain ⟨after, otherAfter, isRestored, otherRestored, overlaid,
        otherOverlaid⟩ := restored blobs holds otherHolds fs
    refine ⟨after, otherAfter, isRestored, otherRestored,
      overlaid.agree otherOverlaid fun path object => ?_⟩
    rw [Writes, Writes]
    refine and_congr_right fun kept => ?_
    by_cases records : Records Dict.empty tree path
    · obtain ⟨outside, actual⟩ := alike path records kept
      rw [host.recorded path records,
        container.recorded path ⟨records, outside⟩,
        (manifestEntryAt_eq_actual_iff path).mpr actual]
    · rw [host.others path records,
        container.others path fun both => records both.1]

end Compare

/-! ## The container's outcome -/

section ContainerOutcome

variable
  {config : HookConfig} {hook : HookState} {call : ContainerCall}
  {current : CheckpointSnapshot}

/-- The container skips when nothing changed and nothing is forced. -/
theorem containerSkips_iff
    (consistent : hook.Consistent)
    (taken : snapshotCheckpointEntries call.tree = .ok current) :
    (!hook.checkpointSnapshotEntries.isNone &&
        !forceFullCheckpoint config hook &&
        !(!(snapshotWalk call.tree
            (scriptPrevious config hook)).changed.keys.isEmpty ||
          !(computeCheckpointDeletedPaths hook.checkpointSnapshotEntries
            current).isEmpty)) = true ↔
      NothingToRecord hook call.tree ∧
        forceFullCheckpoint config hook = false := by
  cases forced : forceFullCheckpoint config hook with
  | true => simp
  | false =>
      rw [← precomputedPaths_eq_nil_iff consistent taken, precomputedPaths,
        scriptPrevious, forced]
      have hasMarker := consistent.incremental
      cases baseline : hook.checkpointSnapshotEntries with
      | none =>
          cases hook.lastIncrementalCheckpointNs <;> simp
      | some previous =>
          rw [baseline] at hasMarker
          obtain ⟨sinceNs, isSince⟩ :=
            Option.isSome_iff_exists.mp hasMarker
          have noKeys :
              (snapshotWalk call.tree previous).changed.keys = [] ↔
                computeCheckpointChangedPaths previous current = [] := by
            simp only [List.eq_nil_iff_forall_not_mem, Dict.mem_keys,
              ← records_iff_changed taken, Records, snapshotWalk_changed]
            refine forall_congr' fun path => not_congr ?_
            split
            · next captured => simp [captured]
            · next notCaptured => simp [notCaptured]
          simp only [isSince, Option.getD_some, Bool.false_eq_true,
            if_false]
          simp [noKeys, and_comm]

theorem container_newer
    (config : HookConfig) (hook : HookState)
    (newer : changedDuringWalk call.tree call.nowNs = true) :
    ∃ message,
      checkpointContainerAfterTool config hook call =
        (.error message, hook) := by
  simp [checkpointContainerAfterTool, runContainerCheckpoint, newer]

/-- The run of the container once its walk met nothing newer. -/
theorem runContainerCheckpoint_eq
    (plain : PlainCall config call.toCheckpointCall)
    (taken : snapshotCheckpointEntries call.tree = .ok current)
    (quiet : changedDuringWalk call.tree call.nowNs = false) :
    runContainerCheckpoint call hook.checkpointSnapshotEntries
        (forceFullCheckpoint config hook) hook.blobs =
      if !hook.checkpointSnapshotEntries.isNone &&
          !forceFullCheckpoint config hook &&
          !(!(snapshotWalk call.tree
              (scriptPrevious config hook)).changed.keys.isEmpty ||
            !(computeCheckpointDeletedPaths hook.checkpointSnapshotEntries
              current).isEmpty) then
        .skipped
      else
        let changed :=
          (snapshotWalk call.tree (scriptPrevious config hook)).changed
        let missing := missingPaths hook.blobs changed
        let contents := fetchBlobs call.tree call.links missing
        match verifyBlobs changed contents missing with
        | .error _ => .error "checkpoint blob missing"
        | .ok () =>
            match
                writeContainerManifest changed
                  (computeCheckpointDeletedPaths
                    hook.checkpointSnapshotEntries current)
                  contents hook.blobs with
            | .error _ => .error "checkpoint failed"
            | .ok (manifest, state) =>
                .written manifest
                  (hook.checkpointSnapshotEntries.isNone ||
                    forceFullCheckpoint config hook)
                  (snapshotWalk call.tree
                    (scriptPrevious config hook)).entries
                  state.totalUniqueBytes state.blobs := by
  have entries :
      ∀ path,
        (snapshotWalk call.tree
          (scriptPrevious config hook)).entries.get path =
            current.get path := fun path => by
    rw [snapshotWalk_entries _ _ plain.supported,
      snapshotCheckpointEntries_get taken]
  rw [runContainerCheckpoint, if_neg (by simp [quiet]),
    ← computeDeletedPaths_eq entries]
  rfl

theorem container_skipped
    (plain : PlainCall config call.toCheckpointCall)
    (consistent : hook.Consistent)
    (taken : snapshotCheckpointEntries call.tree = .ok current)
    (quiet : changedDuringWalk call.tree call.nowNs = false)
    (nothing : NothingToRecord hook call.tree)
    (notForced : forceFullCheckpoint config hook = false) :
    checkpointContainerAfterTool config hook call = (.skipped, hook) := by
  rw [checkpointContainerAfterTool,
    runContainerCheckpoint_eq plain taken quiet,
    if_pos ((containerSkips_iff consistent taken).mpr
      ⟨nothing, notForced⟩)]

theorem container_unstored
    (plain : PlainCall config call.toCheckpointCall)
    (consistent : hook.Consistent)
    (taken : snapshotCheckpointEntries call.tree = .ok current)
    (quiet : changedDuringWalk call.tree call.nowNs = false)
    (writes :
      ¬ (NothingToRecord hook call.tree ∧
        forceFullCheckpoint config hook = false))
    (unstored :
      LinksUnstored (scriptPrevious config hook) hook.blobs call.tree
        call.links) :
    ∃ message,
      checkpointContainerAfterTool config hook call =
        (.error message, hook) := by
  rw [checkpointContainerAfterTool,
    runContainerCheckpoint_eq plain taken quiet,
    if_neg (mt (containerSkips_iff consistent taken).mp writes)]
  have notVerified := mt (verifyBlobs_iff call.links).mp
    (not_not_intro unstored)
  dsimp only
  cases verified : verifyBlobs
      (snapshotWalk call.tree (scriptPrevious config hook)).changed
      (fetchBlobs call.tree call.links
        (missingPaths hook.blobs
          (snapshotWalk call.tree (scriptPrevious config hook)).changed))
      (missingPaths hook.blobs
        (snapshotWalk call.tree (scriptPrevious config hook)).changed) with
  | error failure => exact ⟨_, rfl⟩
  | ok passed => exact (notVerified verified).elim

theorem container_recorded
    (plain : PlainCall config call.toCheckpointCall)
    (consistent : hook.Consistent)
    (taken : snapshotCheckpointEntries call.tree = .ok current)
    (quiet : changedDuringWalk call.tree call.nowNs = false)
    (writes :
      ¬ (NothingToRecord hook call.tree ∧
        forceFullCheckpoint config hook = false))
    (stored :
      ¬ LinksUnstored (scriptPrevious config hook) hook.blobs call.tree
        call.links) :
    ∃ record after manifest,
      checkpointContainerAfterTool config hook call =
          (.recorded record, after) ∧
        record.kind =
          (if hook.checkpointSnapshotEntries.isNone ||
              forceFullCheckpoint config hook then .casManifestFull
          else .casManifestIncremental) ∧
        after.manifestFiles record.path = some manifest ∧
        ManifestOf
          (fun path =>
            Records (scriptPrevious config hook) call.tree path ∧
              ".git" ∉ path)
          (actualEntryAt call.tree) manifest ∧
        manifest.deletedPaths =
          sortPaths
            ((computeCheckpointDeletedPaths
              hook.checkpointSnapshotEntries current).filter
              (!checkpointRelpathIsSkipped ·)) := by
  obtain ⟨manifest, state, written, made, deleted, _, _⟩ :=
    container_manifest call.links hook.blobs
      (computeCheckpointDeletedPaths hook.checkpointSnapshotEntries current)
      stored
  have verified := (verifyBlobs_iff call.links).mpr stored
  rw [checkpointContainerAfterTool,
    runContainerCheckpoint_eq plain taken quiet,
    if_neg (mt (containerSkips_iff consistent taken).mp writes)]
  simp only [verified, written]
  exact ⟨_, _, manifest, rfl, rfl, Function.update_self _ _ _, made,
    deleted⟩

end ContainerOutcome

/-! ## Agreement -/

/--
Both report nothing changed, both fail, or both write a manifest of one kind:
with the same entries and deleted paths, or restoring the same if forced.
-/
def ResultsAgree (host container : CheckpointAfter × HookState) : Prop :=
  match host.1, container.1 with
  | .skipped, .skipped => True
  | .error _, .error _ => True
  | .recorded record, .recorded other =>
      record.kind = other.kind ∧
        ∃ manifest otherManifest,
          host.2.manifestFiles record.path = some manifest ∧
            container.2.manifestFiles other.path = some otherManifest ∧
            if record.rebaseline then RestoreSame manifest otherManifest
            else
              (∀ path, manifest.entries.get path =
                otherManifest.entries.get path) ∧
                manifest.deletedPaths = otherManifest.deletedPaths
  | _, _ => False

/-- The three ways in which host and container agree. -/
inductive SameOutcomeWhen
    (config : HookConfig) (hook : HookState) (call : ContainerCall) :
    Prop where
  | skip
      (nothing : NothingToRecord hook call.tree)
      (notForced : forceFullCheckpoint config hook = false)
      (quiet : changedDuringWalk call.tree call.nowNs = false)
  | fail
      (something : ¬ NothingToRecord hook call.tree)
      (newer : anyFileNewerThan call.tree call.markerBeforeNs = true)
      (fails :
        changedDuringWalk call.tree call.nowNs = true ∨
          LinksUnstored (scriptPrevious config hook) hook.blobs call.tree
            call.links)
  | record
      (something : ¬ NothingToRecord hook call.tree)
      (notNewer : anyFileNewerThan call.tree call.markerBeforeNs = false)
      (quiet : changedDuringWalk call.tree call.nowNs = false)
      (stored :
        ¬ LinksUnstored (scriptPrevious config hook) hook.blobs call.tree
          call.links)
      (alike :
        ∀ path, Records (scriptPrevious config hook) call.tree path →
          (forceFullCheckpoint config hook = true →
            isPreservedRelpath path = false) →
            RecordsAlike hook.checkpointHashCache call.tree path)

section Agreement

variable
  {config : HookConfig} {hook : HookState} {call : ContainerCall}
  {current : CheckpointSnapshot}

theorem host_newer
    (plain : PlainCall config call.toCheckpointCall)
    (consistent : hook.Consistent)
    (taken : snapshotCheckpointEntries call.tree = .ok current)
    (something : ¬ NothingToRecord hook call.tree)
    (newer : anyFileNewerThan call.tree call.markerBeforeNs = true) :
    ∃ message after,
      checkpointAfterTool config hook call.toCheckpointCall =
        (.error message, after) := by
  obtain ⟨manifest, state, written, -⟩ :=
    host_plan config consistent taken
  rw [host_writes plain consistent something taken, writePlanned,
    plain.writable]
  simp only [written, newer, if_true]
  exact ⟨_, _, rfl⟩

theorem host_recorded
    (plain : PlainCall config call.toCheckpointCall)
    (consistent : hook.Consistent)
    (taken : snapshotCheckpointEntries call.tree = .ok current)
    (something : ¬ NothingToRecord hook call.tree)
    (notNewer : anyFileNewerThan call.tree call.markerBeforeNs = false) :
    ∃ record after manifest,
      checkpointAfterTool config hook call.toCheckpointCall =
          (.recorded record, after) ∧
        record.kind =
          (if hook.checkpointSnapshotEntries.isNone ||
              forceFullCheckpoint config hook then .casManifestFull
          else .casManifestIncremental) ∧
        record.rebaseline = forceFullCheckpoint config hook ∧
        after.manifestFiles record.path = some manifest ∧
        ManifestOf (Records (scriptPrevious config hook) call.tree)
          (manifestEntryAt call.tree hook.checkpointHashCache) manifest ∧
        manifest.deletedPaths = deletedFrom config hook current := by
  obtain ⟨manifest, state, written, isFull, rebaseline, made, deleted⟩ :=
    host_plan config consistent taken
  rw [host_writes plain consistent something taken, writePlanned,
    plain.writable]
  simp only [written, notNewer, Bool.false_eq_true, if_false]
  refine ⟨_, _, manifest, rfl, ?_, rebaseline, Function.update_self _ _ _,
    made, deleted⟩
  dsimp only
  rw [isFull]

theorem deletedPaths_proper
    (consistent : hook.Consistent) (path : RelPath)
    (member :
      path ∈ sortPaths
        ((computeCheckpointDeletedPaths hook.checkpointSnapshotEntries
          current).filter (!checkpointRelpathIsSkipped ·))) :
    path ≠ [] ∧ ValidPath path := by
  rw [mem_sortPaths, List.mem_filter] at member
  cases baseline : hook.checkpointSnapshotEntries with
  | none => simp [baseline, computeCheckpointDeletedPaths] at member
  | some previous =>
      rw [baseline, mem_computeCheckpointDeletedPaths] at member
      obtain ⟨⟨_, old, before, _⟩, _⟩ := member
      exact consistent.paths previous baseline path (by simp [before])

/-- Two recorded manifests agree when their paths are recorded alike. -/
theorem manifests_agree_iff
    (config : HookConfig) {manifest other : Manifest}
    (consistent : hook.Consistent)
    (host :
      ManifestOf (Records (scriptPrevious config hook) call.tree)
        (manifestEntryAt call.tree hook.checkpointHashCache) manifest)
    (container :
      ManifestOf
        (fun path =>
          Records (scriptPrevious config hook) call.tree path ∧
            ".git" ∉ path)
        (actualEntryAt call.tree) other)
    (deleted : manifest.deletedPaths = deletedFrom config hook current)
    (otherDeleted :
      other.deletedPaths =
        sortPaths
          ((computeCheckpointDeletedPaths hook.checkpointSnapshotEntries
            current).filter (!checkpointRelpathIsSkipped ·))) :
    (if forceFullCheckpoint config hook then RestoreSame manifest other
      else
        (∀ path, manifest.entries.get path = other.entries.get path) ∧
          manifest.deletedPaths = other.deletedPaths) ↔
      ∀ path, Records (scriptPrevious config hook) call.tree path →
        (forceFullCheckpoint config hook = true →
          isPreservedRelpath path = false) →
          RecordsAlike hook.checkpointHashCache call.tree path := by
  cases forced : forceFullCheckpoint config hook with
  | false =>
      have same : manifest.deletedPaths = other.deletedPaths := by
        rw [deleted, otherDeleted, deletedFrom, if_neg (by simp [forced])]
      simp only [Bool.false_eq_true, if_false, same, and_true,
        false_implies, true_implies]
      exact entries_agree_iff host container
  | true =>
      have isEmpty : scriptPrevious config hook = Dict.empty := by
        rw [scriptPrevious, if_pos forced]
      rw [isEmpty] at host container ⊢
      simp only [if_true, true_implies]
      apply restoreSame_iff host container
      · intro path member
        rw [deleted, deletedFrom, if_pos forced] at member
        simp [computeCheckpointDeletedPaths] at member
      · intro path member
        rw [otherDeleted] at member
        exact deletedPaths_proper consistent path member

/--
Host and container agree on a call exactly when nothing is to be recorded and
none is forced, when both fail, or when both record each path alike.
-/
theorem host_container_agree_iff
    (config : HookConfig) (hook : HookState) (call : ContainerCall)
    (plain : PlainCall config call.toCheckpointCall)
    (consistent : hook.Consistent) :
    ResultsAgree (checkpointAfterTool config hook call.toCheckpointCall)
        (checkpointContainerAfterTool config hook call) ↔
      SameOutcomeWhen config hook call := by
  obtain ⟨current, taken⟩ := snapshotCheckpointEntries_total plain.supported
  by_cases nothing : NothingToRecord hook call.tree
  · rw [host_skipped plain consistent nothing]
    cases newer : changedDuringWalk call.tree call.nowNs with
    | true =>
        obtain ⟨message, equal⟩ :=
          container_newer config hook newer
        rw [equal]
        constructor
        · exact False.elim
        · intro outcome
          cases outcome with
          | skip _ _ quiet => rw [newer] at quiet; cases quiet
          | fail something => exact (something nothing).elim
          | record something => exact (something nothing).elim
    | false =>
        cases forced : forceFullCheckpoint config hook with
        | false =>
            rw [container_skipped plain consistent taken newer nothing
              forced]
            exact ⟨fun _ => .skip nothing forced newer, fun _ => trivial⟩
        | true =>
            have never : ¬ SameOutcomeWhen config hook call := by
              intro outcome
              cases outcome with
              | skip _ notForced => rw [forced] at notForced; cases notForced
              | fail something => exact something nothing
              | record something => exact something nothing
            have writes :
                ¬ (NothingToRecord hook call.tree ∧
                  forceFullCheckpoint config hook = false) := by
              simp [forced]
            refine iff_of_false ?_ never
            by_cases unstored :
                LinksUnstored (scriptPrevious config hook) hook.blobs
                  call.tree call.links
            · obtain ⟨message, equal⟩ :=
                container_unstored plain consistent taken newer writes
                  unstored
              rw [equal]
              exact id
            · obtain ⟨record, after, manifest, equal, -⟩ :=
                container_recorded plain consistent taken newer writes
                  unstored
              rw [equal]
              exact id
  · have writes :
        ¬ (NothingToRecord hook call.tree ∧
          forceFullCheckpoint config hook = false) :=
      fun both => nothing both.1
    cases newer : anyFileNewerThan call.tree call.markerBeforeNs with
    | true =>
        obtain ⟨message, after, isHost⟩ :=
          host_newer plain consistent taken nothing newer
        rw [isHost]
        by_cases fails :
            changedDuringWalk call.tree call.nowNs = true ∨
              LinksUnstored (scriptPrevious config hook) hook.blobs
                call.tree call.links
        · refine iff_of_true ?_ (.fail nothing newer fails)
          cases walked : changedDuringWalk call.tree call.nowNs with
          | true =>
              obtain ⟨_, equal⟩ :=
                container_newer config hook walked
              rw [equal]
              trivial
          | false =>
              have unstored :=
                fails.resolve_left (by simp [walked])
              obtain ⟨_, equal⟩ :=
                container_unstored plain consistent taken walked writes
                  unstored
              rw [equal]
              trivial
        · rw [not_or, Bool.not_eq_true] at fails
          obtain ⟨record, after, manifest, equal, -⟩ :=
            container_recorded plain consistent taken fails.1 writes fails.2
          rw [equal]
          refine iff_of_false id ?_
          intro outcome
          cases outcome with
          | skip isNothing => exact nothing isNothing
          | fail _ _ either =>
              exact either.elim (by simp [fails.1]) fails.2
          | record _ notNewer => rw [newer] at notNewer; cases notNewer
    | false =>
        obtain ⟨record, after, manifest, isHost, kind, rebaseline, filed,
            made, deleted⟩ :=
          host_recorded plain consistent taken nothing newer
        rw [isHost]
        by_cases fails :
            changedDuringWalk call.tree call.nowNs = true ∨
              LinksUnstored (scriptPrevious config hook) hook.blobs
                call.tree call.links
        · refine iff_of_false ?_ ?_
          · cases walked : changedDuringWalk call.tree call.nowNs with
            | true =>
                obtain ⟨_, equal⟩ :=
                  container_newer config hook walked
                rw [equal]
                exact id
            | false =>
                obtain ⟨_, equal⟩ :=
                  container_unstored plain consistent taken walked writes
                    (fails.resolve_left (by simp [walked]))
                rw [equal]
                exact id
          · intro outcome
            cases outcome with
            | skip isNothing => exact nothing isNothing
            | fail _ isNewer => rw [newer] at isNewer; cases isNewer
            | record _ _ quiet stored =>
                exact fails.elim (by simp [quiet]) stored
        · rw [not_or, Bool.not_eq_true] at fails
          obtain ⟨other, otherAfter, otherManifest, equal, otherKind,
              otherFiled, otherMade, otherDeleted⟩ :=
            container_recorded plain consistent taken fails.1 writes fails.2
          have compared :=
            manifests_agree_iff config consistent made otherMade
              deleted otherDeleted
          rw [equal, ResultsAgree]
          simp only [kind, otherKind, true_and, filed, otherFiled,
            rebaseline, Option.some.injEq, exists_and_left,
            exists_eq_left', compared]
          constructor
          · intro alike
            exact .record nothing newer fails.1 fails.2 alike
          · intro outcome
            cases outcome with
            | skip isNothing => exact (nothing isNothing).elim
            | fail _ isNewer => rw [newer] at isNewer; cases isNewer
            | record _ _ _ _ alike => exact alike

end Agreement

/-! ## Two first checkpoints -/

/-- Files of a listed tree that share an inode are listed alike. -/
def HardLinks.ofObjects
    {objects : List (RelPath × Object FileData × Stat)}
    {linkToDir : RelPath → Bool} (closed : ObjectsClosed objects)
    (inode : RelPath → Nat)
    (alike :
      ∀ item ∈ objects, ∀ other ∈ objects,
        inode item.1 = inode other.1 → item.2 = other.2) :
    HardLinks (Tree.ofObjects objects linkToDir closed) where
  inode := inode
  linked path other data otherData isFile otherFile same := by
    have listed :
        ∀ path data, objectAt objects path = some (.file data) →
          ∃ item ∈ objects, objects.find? (·.1 = path) = some item ∧
            item.1 = path ∧ item.2.1 = .file data := by
      intro path data isFile
      rw [objectAt] at isFile
      split at isFile
      · cases isFile
      · obtain ⟨item, found, isData⟩ := Option.map_eq_some_iff.mp isFile
        exact ⟨item, List.mem_of_find?_eq_some found, found,
          by simpa using List.find?_some found, isData⟩
    obtain ⟨item, member, found, rfl, isData⟩ := listed path data isFile
    obtain ⟨otherItem, otherMember, otherFound, rfl, isOther⟩ :=
      listed other otherData otherFile
    have equal := alike item member otherItem otherMember same
    refine ⟨?_, ?_⟩
    · rw [equal, isOther] at isData
      cases isData
      rfl
    · simp only [Tree.ofObjects, found, otherFound, Option.map_some, equal]

theorem ne_special_of_paths
    {tree : Tree} (plain : ∀ path ∈ tree.paths, tree.get path ≠ some .special)
    (path : RelPath) :
    tree.get path ≠ some .special := by
  intro found
  exact plain path ((tree.mem_paths path).mpr (by simp [found])) found

theorem HookState.start_consistent (blobs : BlobStore) :
    (HookState.start blobs).Consistent where
  full := rfl
  incremental := rfl
  paths _ isPrevious := nomatch isPrevious

/-- The first call on the script and its output, each with its own inode. -/
def scriptContainerCall : ContainerCall where
  toCheckpointCall := execCall "call_1" 10 scriptTree
  links := HardLinks.ofObjects scriptTree_closed
    (fun path => if path = ["run.sh"] then 1 else 2) (by decide)
  nowNs := 10

theorem host_container_agree_script :
    ResultsAgree
      (checkpointAfterTool hostConfig (HookState.start fun _ => none)
        scriptContainerCall.toCheckpointCall)
      (checkpointContainerAfterTool hostConfig
        (HookState.start fun _ => none) scriptContainerCall) := by
  have plain :
      PlainCall hostConfig scriptContainerCall.toCheckpointCall :=
    ⟨rfl, rfl, rfl, rfl, rfl, rfl, ne_special_of_paths (by decide)⟩
  have listed :
      ∀ path data, scriptTree.get path = some (.file data) →
        path = ["run.sh"] ∨ path = ["out.txt"] := by
    intro path data isFile
    have member := (scriptTree.mem_paths path).mpr (by simp [isFile])
    rcases List.mem_cons.mp member with rfl | member
    · cases isFile
    · simpa using member
  refine (host_container_agree_iff _ _ _ plain
    (HookState.start_consistent _)).mpr (.record ?_ ?_ ?_ ?_ ?_)
  · rintro ⟨previous, isPrevious, -⟩
    cases isPrevious
  · decide +kernel
  · decide +kernel
  · rintro ⟨path, other, data, apart, -, -, same, isFile,
      ⟨otherData, otherFile⟩, -⟩
    rcases listed path data isFile with rfl | rfl <;>
      rcases listed other otherData otherFile with rfl | rfl
    · exact apart rfl
    · exact absurd same (by decide)
    · exact absurd same (by decide)
    · exact apart rfl
  · intro path records _
    refine ⟨?_, fun data _ => rfl⟩
    rcases records_object records with ⟨data, isFile⟩ | ⟨target, isLink⟩
    · rcases listed path data isFile with rfl | rfl <;> decide
    · have member := (scriptTree.mem_paths path).mpr (by
        rw [show scriptTree.get path = _ from isLink]
        rfl)
      rcases List.mem_cons.mp member with rfl | member
      · decide
      · have either : path = ["run.sh"] ∨ path = ["out.txt"] := by
          simpa using member
        rcases either with rfl | rfl <;> decide

/-- One file under two names. -/
def twoNamesTree : Tree :=
  Tree.ofObjects
    [(["run.sh"], .file ⟨"d1", 0o100644⟩, ⟨5, 1⟩),
      (["start.sh"], .file ⟨"d1", 0o100644⟩, ⟨5, 1⟩)]
    (fun _ => false) (by decide)

/-- The host records both names; the container finds no blob for one. -/
theorem host_container_differ_twoNames :
    ∃ call : ContainerCall,
      PlainCall hostConfig call.toCheckpointCall ∧
        (HookState.start fun _ => none).Consistent ∧
        ¬ ResultsAgree
          (checkpointAfterTool hostConfig (HookState.start fun _ => none)
            call.toCheckpointCall)
          (checkpointContainerAfterTool hostConfig
            (HookState.start fun _ => none) call) := by
  let call : ContainerCall :=
    { toCheckpointCall := execCall "call_1" 10 twoNamesTree
      links := HardLinks.ofObjects (by decide) (fun _ => 1) (by decide)
      nowNs := 10 }
  refine ⟨call, ⟨rfl, rfl, rfl, rfl, rfl, rfl,
    ne_special_of_paths (by decide)⟩, HookState.start_consistent _, ?_⟩
  obtain ⟨record, host⟩ :
      ∃ record,
        (checkpointAfterTool hostConfig (HookState.start fun _ => none)
          call.toCheckpointCall).1 = .recorded record :=
    ⟨_, rfl⟩
  have container :
      (checkpointContainerAfterTool hostConfig
        (HookState.start fun _ => none) call).1 =
        .error "checkpoint blob missing" := by
    decide +kernel
  rw [ResultsAgree, host, container]
  exact id

end AgentSchedBench.Checkpoint
