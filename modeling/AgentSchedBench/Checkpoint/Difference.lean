import AgentSchedBench.Checkpoint.Manifest

/-!
# What the manifests of two successive trees record

The changed-path and the deleted-path functions compare snapshots.  Snapshots
are read off trees, so the manifest written for a tree against the snapshot
of an earlier one is described here by the two trees alone, up to the digests
that the hash cache supplies.
-/

namespace AgentSchedBench.Checkpoint

open FileSystem

/-- A path whose entry an incremental manifest repeats. -/
def Changed (previous tree : Tree) (path : RelPath) : Prop :=
  ∃ entry, tree.snapshotAt path = some entry ∧ entry.entryType ≠ .dir ∧
    checkpointEntryRequiresManifest (previous.snapshotAt path) entry = true

/-- A path that an incremental manifest lists as deleted. -/
def Dropped (previous tree : Tree) (path : RelPath) : Prop :=
  ".git" ∉ path ∧
    ∃ old, previous.snapshotAt path = some old ∧
      ∀ new, tree.snapshotAt path = some new → new.entryType ≠ old.entryType

/-- The manifest of a full checkpoint. -/
structure FullOf
    (tree : Tree) (hashCache : HashCache) (manifest : Manifest) : Prop where
  entries :
    ∀ path, manifest.entries.get path =
      if tree.Captured path then manifestEntryAt tree hashCache path else none
  deletedPaths : ∀ path, path ∉ manifest.deletedPaths

/-- The manifest of an incremental checkpoint. -/
structure IncrementalOf
    (previous tree : Tree) (hashCache : HashCache) (manifest : Manifest) :
    Prop where
  changed :
    ∀ path, Changed previous tree path →
      manifest.entries.get path = manifestEntryAt tree hashCache path
  unchanged :
    ∀ path, ¬ Changed previous tree path →
      manifest.entries.get path = none
  deletedPaths :
    ∀ path, path ∈ manifest.deletedPaths ↔ Dropped previous tree path

/-! ## The type of a path -/

/-- The checkpoint type of the object at a path. -/
def Tree.typeAt (tree : Tree) (path : RelPath) : Option CheckpointEntryType :=
  (tree.get path).map checkpointEntryType

@[simp]
theorem Tree.typeAt_eq_none
    (tree : Tree) (path : RelPath) :
    tree.typeAt path = none ↔ tree.get path = none := by
  simp [Tree.typeAt]

theorem typeAt_eq_dir
    (tree : Tree) (path : RelPath) :
    tree.typeAt path = some .dir ↔ tree.get path = some .dir := by
  rw [Tree.typeAt]
  cases tree.get path with
  | none => simp
  | some object => cases object <;> simp [checkpointEntryType]

/-- Outside `.git` everything but the root is captured. -/
theorem captured_of_outside
    (tree : Tree) {path : RelPath} (nonempty : path ≠ [])
    (outside : ".git" ∉ path) :
    tree.Captured path ↔ (tree.get path).isSome := by
  constructor
  · exact fun captured => captured.2.1
  · intro present
    exact ⟨nonempty, present,
      fun inside => outside (List.mem_of_mem_dropLast inside),
      fun _ last => outside (List.mem_of_getLast? last)⟩

theorem snapshotAt_type
    (tree : Tree) {path : RelPath} (captured : tree.Captured path) :
    (tree.snapshotAt path).map CheckpointSnapshotEntry.entryType =
      tree.typeAt path := by
  rw [Tree.snapshotAt, if_pos captured, Tree.typeAt]
  cases tree.get path <;> rfl

theorem snapshotAt_of_outside
    (tree : Tree) {path : RelPath} (nonempty : path ≠ [])
    (outside : ".git" ∉ path) :
    tree.snapshotAt path =
      (tree.get path).map fun object =>
        ⟨checkpointEntryType object, some (tree.stat path)⟩ := by
  rw [Tree.snapshotAt]
  split
  · rfl
  · next notCaptured =>
      rw [captured_of_outside tree nonempty outside,
        Option.not_isSome_iff_eq_none] at notCaptured
      rw [notCaptured]
      rfl

theorem snapshotAt_isSome
    {tree : Tree} {path : RelPath} {entry : CheckpointSnapshotEntry}
    (found : tree.snapshotAt path = some entry) :
    tree.Captured path ∧ tree.typeAt path = some entry.entryType ∧
      entry.sizeMtime = some (tree.stat path) := by
  rw [Tree.snapshotAt] at found
  split at found
  · next captured =>
      obtain ⟨object, present, rfl⟩ := Option.map_eq_some_iff.mp found
      exact ⟨captured, by simp [Tree.typeAt, present], rfl⟩
  · cases found

/-- A path is dropped when its type is no longer what it was. -/
theorem dropped_iff
    {previous tree : Tree} {path : RelPath} :
    Dropped previous tree path ↔
      path ≠ [] ∧ ".git" ∉ path ∧ (previous.get path).isSome ∧
        tree.typeAt path ≠ previous.typeAt path := by
  constructor
  · rintro ⟨outside, old, oldFound, differs⟩
    obtain ⟨captured, oldType, _⟩ := snapshotAt_isSome oldFound
    refine ⟨captured.1, outside, captured.2.1, ?_⟩
    rw [oldType]
    intro same
    have nowCaptured : tree.Captured path := by
      rw [captured_of_outside tree captured.1 outside]
      rw [Tree.typeAt] at same
      obtain ⟨object, present, _⟩ := Option.map_eq_some_iff.mp same
      simp [present]
    have snapshotType := snapshotAt_type tree nowCaptured
    rw [same] at snapshotType
    obtain ⟨new, newFound, newType⟩ := Option.map_eq_some_iff.mp snapshotType
    exact differs new newFound newType
  · rintro ⟨nonempty, outside, present, differs⟩
    have captured := (captured_of_outside previous nonempty outside).mpr present
    obtain ⟨object, found⟩ := Option.isSome_iff_exists.mp present
    refine ⟨outside, ⟨checkpointEntryType object, some (previous.stat path)⟩,
      by rw [Tree.snapshotAt, if_pos captured, found]; rfl, ?_⟩
    intro new newFound same
    apply differs
    rw [(snapshotAt_isSome newFound).2.1, same, Tree.typeAt, found]
    rfl

/-- Above a surviving object no type changes. -/
theorem not_dropped_above
    {previous tree : Tree} {ancestor path : RelPath}
    (isPrefix : ancestor <+: path) (apart : ancestor ≠ path)
    (before : (previous.get path).isSome) (after : (tree.get path).isSome) :
    ¬ Dropped previous tree ancestor := by
  rw [dropped_iff]
  rintro ⟨_, _, _, differs⟩
  apply differs
  rw [Tree.typeAt, Tree.typeAt,
    previous.dir_of_isPrefix isPrefix apart before,
    tree.dir_of_isPrefix isPrefix apart after]

/-- What lay below a dropped path is dropped or was inside `.git`. -/
theorem dropped_below
    {previous tree : Tree} {ancestor path : RelPath}
    (isPrefix : ancestor <+: path) (outside : ".git" ∉ path)
    (before : (previous.get path).isSome)
    (dropped : Dropped previous tree ancestor) :
    Dropped previous tree path := by
  rcases eq_or_ne ancestor path with rfl | apart
  · exact dropped
  · have nonempty : path ≠ [] := by
      rintro rfl
      exact apart (List.prefix_nil.mp isPrefix)
    rw [dropped_iff]
    refine ⟨nonempty, outside, before, ?_⟩
    intro same
    obtain ⟨object, found⟩ := Option.isSome_iff_exists.mp before
    have after : (tree.get path).isSome := by
      rw [Tree.typeAt, Tree.typeAt, found] at same
      obtain ⟨now, present, _⟩ := Option.map_eq_some_iff.mp same
      simp [present]
    exact not_dropped_above isPrefix apart before after dropped

/-! ## The manifests that are written -/

section Written

variable
  {previous tree : Tree} {snapshot current : CheckpointSnapshot}
  {hashCache : HashCache} {blobs : BlobStore} {manifest : Manifest}
  {state : WriteState}

theorem writeCasManifest_full
    (written :
      writeCasManifest tree none [] none hashCache blobs =
        .ok (manifest, state)) :
    FullOf tree hashCache manifest where
  entries path := by
    rw [writeCasManifest_entries written path]
    simp [manifestSelects]
  deletedPaths path := by
    rw [mem_writeCasManifest_deletedPaths written path]
    simp

theorem writeCasManifest_incremental
    {sinceNs : Option Int}
    (before : snapshotCheckpointEntries previous = .ok snapshot)
    (now : snapshotCheckpointEntries tree = .ok current)
    (written :
      writeCasManifest tree sinceNs
        (computeCheckpointDeletedPaths (some snapshot) current)
        (some (computeCheckpointChangedPaths snapshot current))
        hashCache blobs = .ok (manifest, state)) :
    IncrementalOf previous tree hashCache manifest := by
  have selects :
      ∀ path,
        manifestSelects tree sinceNs
            (some (computeCheckpointChangedPaths snapshot current)) path =
            true ↔
          Changed previous tree path := by
    intro path
    rw [manifestSelects, List.contains_iff_mem,
      mem_computeCheckpointChangedPaths, snapshotCheckpointEntries_get now,
      snapshotCheckpointEntries_get before, Changed]
  refine ⟨?_, ?_, ?_⟩
  · intro path changed
    obtain ⟨entry, found, _⟩ := id changed
    rw [writeCasManifest_entries written path,
      if_pos ⟨(snapshotAt_isSome found).1, (selects path).mpr changed⟩]
  · intro path unchanged
    rw [writeCasManifest_entries written path, if_neg]
    exact fun both => unchanged ((selects path).mp both.2)
  · intro path
    rw [mem_writeCasManifest_deletedPaths written path,
      mem_computeCheckpointDeletedPaths, Dropped,
      snapshotCheckpointEntries_get before]
    simp only [snapshotCheckpointEntries_get now]
    tauto

/-- An unselected file or link is as it was, up to its fingerprint. -/
theorem not_changed_iff
    {path : RelPath} {object : Object FileData}
    (captured : tree.Captured path) (present : tree.get path = some object)
    (notDir : object ≠ .dir) :
    ¬ Changed previous tree path ↔
      previous.Captured path ∧
        previous.typeAt path = some (checkpointEntryType object) ∧
        previous.stat path = tree.stat path := by
  have snapshot :
      tree.snapshotAt path =
        some ⟨checkpointEntryType object, some (tree.stat path)⟩ := by
    rw [Tree.snapshotAt, if_pos captured, present]
    rfl
  have typeNotDir : checkpointEntryType object ≠ .dir := by
    cases object <;> simp [checkpointEntryType] at notDir ⊢
  rw [Changed, snapshot]
  simp only [Option.some.injEq, exists_eq_left', typeNotDir, ne_eq,
    not_false_eq_true, true_and]
  cases old : previous.snapshotAt path with
  | none =>
      simp only [checkpointEntryRequiresManifest, not_true_eq_false, false_iff]
      rintro ⟨oldCaptured, oldType, _⟩
      have oldSnapshot := snapshotAt_type previous oldCaptured
      rw [old, oldType] at oldSnapshot
      cases oldSnapshot
  | some entry =>
      obtain ⟨oldCaptured, oldType, oldStat⟩ := snapshotAt_isSome old
      rw [checkpointEntryRequiresManifest, oldStat, oldType]
      by_cases sameType : entry.entryType = checkpointEntryType object
      · simp [sameType, oldCaptured]
      · simp [sameType]

end Written

end AgentSchedBench.Checkpoint
