import AgentSchedBench.Checkpoint.Tree

/-!
# Snapshots, differences and manifests of the host collector

`snapshotCheckpointEntries`, `computeCheckpointChangedPaths`,
`computeCheckpointDeletedPaths` and `writeCasManifest` follow
`_session_runner.py`.  A manifest is written by one loop over the captured
paths whose accumulator holds the entries, the hash cache, the blob store and
the number of bytes newly stored.
-/

namespace AgentSchedBench.Checkpoint

open FileSystem

/-! ## Snapshots -/

/-- `CheckpointEntryType`; a link's type includes its target. -/
inductive CheckpointEntryType where
  | dir
  | file
  | symlink (target : Path)
  | other
deriving DecidableEq, Repr

/-- `_checkpoint_entry_type`. -/
def checkpointEntryType : Object FileData → CheckpointEntryType
  | .dir => .dir
  | .file _ => .file
  | .symlink target => .symlink target
  | .special => .other

/-- A snapshot entry; entries of the older bare form have no fingerprint. -/
structure CheckpointSnapshotEntry where
  entryType : CheckpointEntryType
  sizeMtime : Option Stat
deriving DecidableEq, Repr

abbrev CheckpointSnapshot := Dict RelPath CheckpointSnapshotEntry

/-- The `OSError`s of the collector. -/
inductive CheckpointError where
  | statFailed (path : RelPath)
  | unsupportedEntryType (path : RelPath)
deriving DecidableEq, Repr

/-- `_checkpoint_snapshot_entry` for one visited path. -/
def checkpointSnapshotEntry (tree : Tree) (path : RelPath) :
    Except CheckpointError (Option CheckpointSnapshotEntry) :=
  match tree.get path with
  | none => .error (.statFailed path)
  | some .special => .error (.unsupportedEntryType path)
  | some object =>
      .ok (some ⟨checkpointEntryType object, some (tree.stat path)⟩)

/-- `_snapshot_checkpoint_entries`. -/
def snapshotCheckpointEntries (tree : Tree) :
    Except CheckpointError CheckpointSnapshot :=
  (iterCheckpointEntries tree).foldlM
    (Dict.collect (checkpointSnapshotEntry tree)) Dict.empty

/-- The snapshot entry of a path, read off the tree. -/
def Tree.snapshotAt (tree : Tree) (path : RelPath) :
    Option CheckpointSnapshotEntry :=
  if tree.Captured path then
    (tree.get path).map fun object =>
      ⟨checkpointEntryType object, some (tree.stat path)⟩
  else none

/-- No special file lies where the collector looks. -/
def Tree.Supported (tree : Tree) : Prop :=
  ∀ path, tree.Captured path → tree.get path ≠ some .special

theorem snapshotCheckpointEntries_get
    {tree : Tree} {snapshot : CheckpointSnapshot}
    (taken : snapshotCheckpointEntries tree = .ok snapshot)
    (path : RelPath) :
    snapshot.get path = tree.snapshotAt path := by
  have visited :=
    Dict.get_foldlM_collect (checkpointSnapshotEntry tree) _ taken path
  rw [mem_iterCheckpointEntries] at visited
  by_cases captured : tree.Captured path
  · have computed := visited.1 captured
    rw [Tree.snapshotAt, if_pos captured]
    rw [checkpointSnapshotEntry] at computed
    cases found : tree.get path with
    | none => simp [found] at computed
    | some object =>
        cases object <;> simp [found] at computed
        all_goals simp [← computed]
  · rw [Tree.snapshotAt, if_neg captured]
    exact visited.2 captured

theorem snapshotCheckpointEntries_supported
    {tree : Tree} {snapshot : CheckpointSnapshot}
    (taken : snapshotCheckpointEntries tree = .ok snapshot) :
    tree.Supported := by
  intro path captured special
  have computed :=
    (Dict.get_foldlM_collect (checkpointSnapshotEntry tree) _ taken path).1
      ((mem_iterCheckpointEntries tree path).mpr captured)
  simp [checkpointSnapshotEntry, special] at computed

theorem snapshotCheckpointEntries_total
    {tree : Tree} (supported : tree.Supported) :
    ∃ snapshot, snapshotCheckpointEntries tree = .ok snapshot := by
  apply Dict.foldlM_collect_total
  intro path visited
  have captured := (mem_iterCheckpointEntries tree path).mp visited
  rw [checkpointSnapshotEntry]
  cases found : tree.get path with
  | none => simp [Tree.Captured, found] at captured
  | some object =>
      cases object with
      | special => exact (supported path captured found).elim
      | file data => exact ⟨_, rfl⟩
      | symlink target => exact ⟨_, rfl⟩
      | dir => exact ⟨_, rfl⟩

/-! ## Changed and deleted paths -/

/-- `_checkpoint_entry_requires_manifest`. -/
def checkpointEntryRequiresManifest
    (previous : Option CheckpointSnapshotEntry)
    (current : CheckpointSnapshotEntry) : Bool :=
  match previous with
  | none => true
  | some previous =>
      if previous.entryType ≠ current.entryType then true
      else
        match previous.sizeMtime, current.sizeMtime with
        | some previousStat, some currentStat => previousStat ≠ currentStat
        | _, _ => true

/-- `_compute_checkpoint_changed_paths`. -/
def computeCheckpointChangedPaths
    (previous current : CheckpointSnapshot) : List RelPath :=
  current.keys.filter fun path =>
    match current.get path with
    | none => false
    | some entry =>
        entry.entryType ≠ .dir &&
          checkpointEntryRequiresManifest (previous.get path) entry

/-- `sorted` on path strings. -/
def sortPaths (paths : List RelPath) : List RelPath :=
  paths.insertionSort fun left right =>
    "/".intercalate left ≤ "/".intercalate right

@[simp]
theorem mem_sortPaths (paths : List RelPath) (path : RelPath) :
    path ∈ sortPaths paths ↔ path ∈ paths :=
  (List.perm_insertionSort _ paths).mem_iff

/-- `_compute_checkpoint_deleted_paths`. -/
def computeCheckpointDeletedPaths
    (previous : Option CheckpointSnapshot) (current : CheckpointSnapshot) :
    List RelPath :=
  match previous with
  | none => []
  | some previous =>
      sortPaths <| previous.keys.filter fun path =>
        (match previous.get path, current.get path with
          | some old, some new => new.entryType ≠ old.entryType
          | _, none => true
          | none, some _ => false) &&
          !checkpointRelpathIsSkipped path

theorem mem_computeCheckpointChangedPaths
    (previous current : CheckpointSnapshot) (path : RelPath) :
    path ∈ computeCheckpointChangedPaths previous current ↔
      ∃ entry, current.get path = some entry ∧ entry.entryType ≠ .dir ∧
        checkpointEntryRequiresManifest (previous.get path) entry = true := by
  rw [computeCheckpointChangedPaths, List.mem_filter, current.mem_keys]
  cases current.get path <;> simp

theorem mem_computeCheckpointDeletedPaths
    (previous current : CheckpointSnapshot) (path : RelPath) :
    path ∈ computeCheckpointDeletedPaths (some previous) current ↔
      ".git" ∉ path ∧
        ∃ old, previous.get path = some old ∧
          ∀ new, current.get path = some new →
            new.entryType ≠ old.entryType := by
  rw [computeCheckpointDeletedPaths, mem_sortPaths, List.mem_filter,
    previous.mem_keys]
  have skipped :
      (!checkpointRelpathIsSkipped path) = true ↔ ".git" ∉ path := by
    rw [Bool.not_eq_true', ← Bool.not_eq_true,
      checkpointRelpathIsSkipped_iff]
  cases previous.get path <;> cases current.get path <;>
    simp [Bool.and_eq_true, skipped, and_comm]

/-! ## Manifests -/

/--
The value a manifest has for a path.  The collector writes the first two
forms with all their fields; the others stand for what a reader may find in a
manifest from elsewhere.
-/
inductive ManifestEntry where
  | file (hash : Option Digest) (mode : Option Nat)
      (size : Option Nat) (mtimeNs : Option Int)
  | symlink (target : Option Path)
  | unknownType
  | notDict
deriving DecidableEq, Repr

structure Manifest where
  entries : Dict RelPath ManifestEntry
  deletedPaths : List RelPath

/-- `CheckpointHashCacheEntry`s by path. -/
abbrev HashCache := RelPath → Option (Stat × Digest)

/-- The blob store: what the blob filed under a digest really hashes to. -/
abbrev BlobStore := Digest → Option Digest

/-- The variables of the loop in `_write_cas_manifest`. -/
structure WriteState where
  entries : Dict RelPath ManifestEntry
  hashCache : HashCache
  blobs : BlobStore
  totalUniqueBytes : Nat

/-- The two `continue` tests on a file or link. -/
def manifestSelects
    (tree : Tree) (incrementalSinceNs : Option Int)
    (changedPaths : Option (List RelPath)) (path : RelPath) : Bool :=
  match changedPaths, incrementalSinceNs with
  | some changedPaths, _ => changedPaths.contains path
  | none, some sinceNs => sinceNs < (tree.stat path).mtimeNs
  | none, none => true

/-- The digest taken for a file: the cached one if its fingerprint fits. -/
def cachedDigest
    (hashCache : HashCache) (tree : Tree) (path : RelPath)
    (actual : Digest) : Digest :=
  match hashCache path with
  | some (stat, digest) => if stat = tree.stat path then digest else actual
  | none => actual

/-- The hash cache after that lookup. -/
def cacheDigest
    (hashCache : HashCache) (tree : Tree) (path : RelPath)
    (actual : Digest) : HashCache :=
  Function.update hashCache path
    (some (tree.stat path, cachedDigest hashCache tree path actual))

/-- The body of the loop in `_write_cas_manifest`. -/
def writeCasEntry
    (tree : Tree) (incrementalSinceNs : Option Int)
    (changedPaths : Option (List RelPath))
    (state : WriteState) (path : RelPath) :
    Except CheckpointError WriteState :=
  match tree.get path with
  | none => .error (.statFailed path)
  | some .special => .error (.unsupportedEntryType path)
  | some .dir => .ok state
  | some (.symlink target) =>
      if manifestSelects tree incrementalSinceNs changedPaths path then
        .ok { state with
          entries := state.entries.set path (.symlink (some target)) }
      else .ok state
  | some (.file data) =>
      if manifestSelects tree incrementalSinceNs changedPaths path then
        let digest := cachedDigest state.hashCache tree path data.digest
        let stored := (state.blobs digest).isSome
        .ok
          { entries :=
              state.entries.set path
                (.file (some digest) (some (sIMode data.mode))
                  (some (tree.stat path).size)
                  (some (tree.stat path).mtimeNs))
            hashCache := cacheDigest state.hashCache tree path data.digest
            blobs :=
              if stored then state.blobs
              else Function.update state.blobs digest (some data.digest)
            totalUniqueBytes :=
              if stored then state.totalUniqueBytes
              else state.totalUniqueBytes + (tree.stat path).size }
      else .ok state

/-- `_write_cas_manifest`: the manifest and the state its loop leaves. -/
def writeCasManifest
    (tree : Tree) (incrementalSinceNs : Option Int)
    (deletedPaths : List RelPath) (changedPaths : Option (List RelPath))
    (hashCache : HashCache) (blobs : BlobStore) :
    Except CheckpointError (Manifest × WriteState) := do
  let state ←
    (iterCheckpointEntries tree).foldlM
      (writeCasEntry tree incrementalSinceNs changedPaths)
      ⟨Dict.empty, hashCache, blobs, 0⟩
  return (⟨state.entries,
    sortPaths (deletedPaths.filter (!checkpointRelpathIsSkipped ·))⟩, state)

/-! ## What a manifest records -/

/-- The entry a manifest has for a captured path it selects. -/
def manifestEntryAt
    (tree : Tree) (hashCache : HashCache) (path : RelPath) :
    Option ManifestEntry :=
  match tree.get path with
  | some (.file data) =>
      some (.file (some (cachedDigest hashCache tree path data.digest))
        (some (sIMode data.mode)) (some (tree.stat path).size)
        (some (tree.stat path).mtimeNs))
  | some (.symlink target) => some (.symlink (some target))
  | _ => none

/-- The cache entry of a path is old, or current and of a file just written. -/
def CacheAdvances
    (tree : Tree) (before after : HashCache) : Prop :=
  ∀ path, after path = before path ∨
    ∃ data, tree.get path = some (.file data) ∧
      after path =
        some (tree.stat path, cachedDigest before tree path data.digest)

theorem CacheAdvances.cachedDigest_eq
    {tree : Tree} {before after : HashCache}
    (advances : CacheAdvances tree before after)
    {path : RelPath} {data : FileData}
    (isFile : tree.get path = some (.file data)) :
    cachedDigest after tree path data.digest =
      cachedDigest before tree path data.digest := by
  rcases advances path with same | ⟨other, isOther, cached⟩
  · simp [cachedDigest, same]
  · rw [isFile] at isOther
    cases isOther
    simp [cachedDigest, cached]

/-- The invariant of the loop in `_write_cas_manifest`. -/
structure WriteInvariant
    (tree : Tree) (selected : RelPath → Bool) (hashCache : HashCache)
    (visited : List RelPath) (state : WriteState) : Prop where
  written :
    ∀ path, state.entries.get path =
      if path ∈ visited ∧ selected path then
        manifestEntryAt tree hashCache path
      else none
  cache : CacheAdvances tree hashCache state.hashCache

theorem writeCasEntry_invariant
    (tree : Tree) (sinceNs : Option Int)
    (changedPaths : Option (List RelPath)) (hashCache : HashCache)
    (visited : List RelPath) (item : RelPath) (state next : WriteState)
    (holds :
      WriteInvariant tree (manifestSelects tree sinceNs changedPaths)
        hashCache visited state)
    (stepped : writeCasEntry tree sinceNs changedPaths state item = .ok next) :
    WriteInvariant tree (manifestSelects tree sinceNs changedPaths)
      hashCache (visited ++ [item]) next := by
  have unselected :
      (manifestSelects tree sinceNs changedPaths item = false ∨
        manifestEntryAt tree hashCache item = none) →
      ∀ path, state.entries.get path =
        if path ∈ visited ++ [item] ∧
            manifestSelects tree sinceNs changedPaths path then
          manifestEntryAt tree hashCache path
        else none := by
    intro skip path
    rw [holds.written path]
    by_cases same : path = item
    · subst same
      rcases skip with skip | skip <;> simp [skip]
    · simp [same]
  have selected :
      ∀ value, manifestSelects tree sinceNs changedPaths item = true →
        manifestEntryAt tree hashCache item = some value →
        ∀ path, (state.entries.set item value).get path =
          if path ∈ visited ++ [item] ∧
              manifestSelects tree sinceNs changedPaths path then
            manifestEntryAt tree hashCache path
          else none := by
    intro value keep entry path
    rw [Dict.get_set, holds.written path]
    by_cases same : path = item
    · subst same
      simp [keep, entry]
    · simp [same]
  rw [writeCasEntry] at stepped
  cases found : tree.get item with
  | none => simp [found] at stepped
  | some object =>
      cases object with
      | special => simp [found] at stepped
      | dir =>
          simp only [found, Except.ok.injEq] at stepped
          subst next
          exact ⟨unselected (Or.inr (by simp [manifestEntryAt, found])),
            holds.cache⟩
      | symlink target =>
          simp only [found] at stepped
          split at stepped
          · next keep =>
              cases stepped
              exact ⟨selected _ keep (by simp [manifestEntryAt, found]),
                holds.cache⟩
          · next skip =>
              cases stepped
              exact ⟨unselected (Or.inl (by simpa using skip)), holds.cache⟩
      | file data =>
          simp only [found] at stepped
          split at stepped
          · next keep =>
              cases stepped
              have digest := holds.cache.cachedDigest_eq found
              refine ⟨?_, ?_⟩
              · exact selected _ keep
                  (by simp [manifestEntryAt, found, digest])
              · intro path
                by_cases same : path = item
                · subst same
                  exact Or.inr ⟨data, found, by simp [cacheDigest, digest]⟩
                · simpa [cacheDigest, same] using holds.cache path
          · next skip =>
              cases stepped
              exact ⟨unselected (Or.inl (by simpa using skip)), holds.cache⟩

section Written

variable
  {tree : Tree} {sinceNs : Option Int} {deletedPaths : List RelPath}
  {changedPaths : Option (List RelPath)} {hashCache : HashCache}
  {blobs : BlobStore} {manifest : Manifest} {state : WriteState}

theorem writeCasManifest_eq_ok
    (written :
      writeCasManifest tree sinceNs deletedPaths changedPaths hashCache
        blobs = .ok (manifest, state)) :
    (iterCheckpointEntries tree).foldlM
        (writeCasEntry tree sinceNs changedPaths)
        ⟨Dict.empty, hashCache, blobs, 0⟩ = .ok state ∧
      manifest =
        ⟨state.entries,
          sortPaths
            (deletedPaths.filter (!checkpointRelpathIsSkipped ·))⟩ := by
  obtain ⟨final, folded, result⟩ := Loops.bind_eq_ok.mp written
  cases result
  exact ⟨folded, rfl⟩

theorem writeCasManifest_invariant
    (written :
      writeCasManifest tree sinceNs deletedPaths changedPaths hashCache
        blobs = .ok (manifest, state)) :
    WriteInvariant tree (manifestSelects tree sinceNs changedPaths)
      hashCache (iterCheckpointEntries tree) state :=
  Loops.foldlM_invariant (writeCasEntry tree sinceNs changedPaths)
    (WriteInvariant tree (manifestSelects tree sinceNs changedPaths) hashCache)
    ⟨by simp, fun _ => Or.inl rfl⟩
    (fun visited item _ =>
      writeCasEntry_invariant tree sinceNs changedPaths hashCache visited item)
    (writeCasManifest_eq_ok written).1

theorem writeCasManifest_entries
    (written :
      writeCasManifest tree sinceNs deletedPaths changedPaths hashCache
        blobs = .ok (manifest, state))
    (path : RelPath) :
    manifest.entries.get path =
      if tree.Captured path ∧ manifestSelects tree sinceNs changedPaths path
      then manifestEntryAt tree hashCache path
      else none := by
  rw [(writeCasManifest_eq_ok written).2]
  simpa only [mem_iterCheckpointEntries] using
    (writeCasManifest_invariant written).written path

theorem mem_writeCasManifest_deletedPaths
    (written :
      writeCasManifest tree sinceNs deletedPaths changedPaths hashCache
        blobs = .ok (manifest, state))
    (path : RelPath) :
    path ∈ manifest.deletedPaths ↔ path ∈ deletedPaths ∧ ".git" ∉ path := by
  rw [(writeCasManifest_eq_ok written).2, mem_sortPaths, List.mem_filter,
    Bool.not_eq_true', ← Bool.not_eq_true, checkpointRelpathIsSkipped_iff]

end Written

theorem writeCasEntry_total
    {tree : Tree} (supported : tree.Supported)
    (sinceNs : Option Int) (changedPaths : Option (List RelPath))
    (state : WriteState) {path : RelPath} (captured : tree.Captured path) :
    ∃ next, writeCasEntry tree sinceNs changedPaths state path =
      .ok next := by
  rw [writeCasEntry]
  cases found : tree.get path with
  | none => simp [Tree.Captured, found] at captured
  | some object =>
      cases object with
      | special => exact (supported path captured found).elim
      | dir => exact ⟨_, rfl⟩
      | symlink target =>
          dsimp only
          split <;> exact ⟨_, rfl⟩
      | file data =>
          dsimp only
          split <;> exact ⟨_, rfl⟩

theorem writeCasManifest_total
    {tree : Tree} (supported : tree.Supported)
    (sinceNs : Option Int) (deletedPaths : List RelPath)
    (changedPaths : Option (List RelPath)) (hashCache : HashCache)
    (blobs : BlobStore) :
    ∃ manifest state,
      writeCasManifest tree sinceNs deletedPaths changedPaths hashCache
        blobs = .ok (manifest, state) := by
  obtain ⟨state, folded, _⟩ :=
    Loops.foldlM_total (writeCasEntry tree sinceNs changedPaths)
      (fun _ _ => True) (iterCheckpointEntries tree)
      ⟨Dict.empty, hashCache, blobs, 0⟩ trivial (by
        intro _ path visited state _
        obtain ⟨next, stepped⟩ :=
          writeCasEntry_total supported sinceNs changedPaths state
            ((mem_iterCheckpointEntries tree path).mp visited)
        exact ⟨next, stepped, trivial⟩)
  exact ⟨_, state, by rw [writeCasManifest, folded]; rfl⟩

/-! ## The blob store -/

/-- Every blob hashes to the digest it is filed under. -/
def BlobStore.Intact (blobs : BlobStore) : Prop :=
  ∀ digest content, blobs digest = some content → content = digest

/-- The blob of every cached digest is in the store. -/
def CacheStored (hashCache : HashCache) (blobs : BlobStore) : Prop :=
  ∀ path stat digest, hashCache path = some (stat, digest) →
    (blobs digest).isSome

/-- What the writer keeps of the store. -/
structure StoreInvariant
    (before : BlobStore) (state : WriteState) : Prop where
  intact : state.blobs.Intact
  grows : ∀ digest, (before digest).isSome → (state.blobs digest).isSome
  entriesStored :
    ∀ path digest mode size mtimeNs,
      state.entries.get path = some (.file (some digest) mode size mtimeNs) →
      (state.blobs digest).isSome

/-- Every digest the cache supplies for a tree is the digest of the file. -/
def CacheCurrent (hashCache : HashCache) (tree : Tree) : Prop :=
  ∀ path data, tree.get path = some (.file data) →
    cachedDigest hashCache tree path data.digest = data.digest

/-- A digest without a blob is the one of the file at hand. -/
def NewBlobsActual
    (tree : Tree) (hashCache : HashCache) (blobs : BlobStore)
    (path : RelPath) : Prop :=
  ∀ data, tree.get path = some (.file data) →
    (blobs (cachedDigest hashCache tree path data.digest)).isSome = false →
      cachedDigest hashCache tree path data.digest = data.digest

theorem CacheStored.newBlobsActual
    {hashCache : HashCache} {blobs : BlobStore}
    (stored : CacheStored hashCache blobs) (tree : Tree) (path : RelPath) :
    NewBlobsActual tree hashCache blobs path := by
  intro data _ missing
  rw [cachedDigest] at missing ⊢
  cases cached : hashCache path with
  | none => rfl
  | some entry =>
      obtain ⟨stat, digest⟩ := entry
      simp only [cached] at missing ⊢
      split at missing
      · rw [stored path stat digest cached] at missing
        cases missing
      · next apart => rw [if_neg apart]

/-- The blob store after a file has been written. -/
theorem storeBlob_spec
    {blobs : BlobStore} {digest content : Digest}
    (intact : blobs.Intact)
    (newIsActual : (blobs digest).isSome = false → digest = content) :
    let stored :=
      if (blobs digest).isSome then blobs
      else Function.update blobs digest (some content)
    BlobStore.Intact stored ∧ (stored digest).isSome ∧
      ∀ other, (blobs other).isSome → (stored other).isSome := by
  intro stored
  cases there : (blobs digest).isSome with
  | true =>
      have same : stored = blobs := if_pos there
      rw [same]
      exact ⟨intact, there, fun _ old => old⟩
  | false =>
      have same : stored = Function.update blobs digest (some content) :=
        if_neg (by simp [there])
      rw [same]
      refine ⟨?_, by simp, ?_⟩
      · intro other found filed
        by_cases isNew : other = digest
        · subst isNew
          rw [Function.update_self, Option.some.injEq] at filed
          rw [← filed, newIsActual there]
        · rw [Function.update_of_ne isNew] at filed
          exact intact other found filed
      · intro other old
        by_cases isNew : other = digest
        · simp [isNew]
        · rw [Function.update_of_ne isNew]
          exact old

theorem writeCasEntry_storeInvariant
    {tree : Tree} {sinceNs : Option Int}
    {changedPaths : Option (List RelPath)} {before : BlobStore}
    {item : RelPath} {state next : WriteState}
    (holds : StoreInvariant before state)
    (actual : NewBlobsActual tree state.hashCache state.blobs item)
    (stepped : writeCasEntry tree sinceNs changedPaths state item = .ok next) :
    StoreInvariant before next := by
  rw [writeCasEntry] at stepped
  cases found : tree.get item with
  | none => simp [found] at stepped
  | some object =>
      cases object with
      | special => simp [found] at stepped
      | dir =>
          simp only [found, Except.ok.injEq] at stepped
          exact stepped ▸ holds
      | symlink target =>
          simp only [found] at stepped
          split at stepped
          · cases stepped
            refine ⟨holds.intact, holds.grows, ?_⟩
            intro path digest mode size mtimeNs entry
            rw [Dict.get_set] at entry
            split at entry
            · cases entry
            · exact holds.entriesStored path digest mode size mtimeNs entry
          · cases stepped
            exact holds
      | file data =>
          simp only [found] at stepped
          split at stepped
          · cases stepped
            obtain ⟨intact, present, grows⟩ :=
              storeBlob_spec holds.intact (actual data found)
            refine ⟨intact,
              fun other old => grows other (holds.grows other old), ?_⟩
            intro path other mode size mtimeNs entry
            rw [Dict.get_set] at entry
            split at entry
            · cases entry
              exact present
            · exact grows other
                (holds.entriesStored path other mode size mtimeNs entry)
          · cases stepped
            exact holds

theorem writeCasEntry_cacheStored
    {tree : Tree} {sinceNs : Option Int}
    {changedPaths : Option (List RelPath)} {item : RelPath}
    {state next : WriteState}
    (stored : CacheStored state.hashCache state.blobs)
    (stepped : writeCasEntry tree sinceNs changedPaths state item = .ok next) :
    CacheStored next.hashCache next.blobs := by
  rw [writeCasEntry] at stepped
  cases found : tree.get item with
  | none => simp [found] at stepped
  | some object =>
      cases object with
      | special => simp [found] at stepped
      | dir =>
          simp only [found, Except.ok.injEq] at stepped
          exact stepped ▸ stored
      | symlink target =>
          simp only [found] at stepped
          split at stepped <;> cases stepped <;> exact stored
      | file data =>
          simp only [found] at stepped
          split at stepped
          · cases stepped
            intro path stat digest cached
            dsimp only [cacheDigest] at cached ⊢
            by_cases same : path = item
            · subst same
              simp only [Function.update_self, Option.some.injEq,
                Prod.mk.injEq] at cached
              rw [← cached.2]
              split <;> simp_all
            · rw [Function.update_of_ne same] at cached
              have old := stored path stat digest cached
              split
              · exact old
              · by_cases isNew :
                    digest =
                      cachedDigest state.hashCache tree item data.digest
                · simp [isNew]
                · rw [Function.update_of_ne isNew]
                  exact old
          · cases stepped
            exact stored

section Stored

variable
  {tree : Tree} {sinceNs : Option Int} {deletedPaths : List RelPath}
  {changedPaths : Option (List RelPath)} {hashCache : HashCache}
  {blobs : BlobStore} {manifest : Manifest} {state : WriteState}

theorem writeCasManifest_storeInvariant
    (written :
      writeCasManifest tree sinceNs deletedPaths changedPaths hashCache
        blobs = .ok (manifest, state))
    (intact : blobs.Intact) (stored : CacheStored hashCache blobs) :
    StoreInvariant blobs state ∧
      CacheStored state.hashCache state.blobs :=
  Loops.foldlM_invariant (writeCasEntry tree sinceNs changedPaths)
    (fun _ state => StoreInvariant blobs state ∧
      CacheStored state.hashCache state.blobs)
    ⟨⟨intact, fun _ old => old, by simp⟩, stored⟩
    (fun _ item _ _ _ holds stepped =>
      ⟨writeCasEntry_storeInvariant holds.1
          (holds.2.newBlobsActual tree item) stepped,
        writeCasEntry_cacheStored holds.2 stepped⟩)
    (writeCasManifest_eq_ok written).1

/-- A prefix of the loop, from a cache that is current for the tree. -/
theorem writeCasEntries_storeInvariant
    {visited : List RelPath}
    (folded :
      visited.foldlM (writeCasEntry tree sinceNs changedPaths)
        ⟨Dict.empty, hashCache, blobs, 0⟩ = .ok state)
    (intact : blobs.Intact) (current : CacheCurrent hashCache tree) :
    StoreInvariant blobs state :=
  (Loops.foldlM_invariant (writeCasEntry tree sinceNs changedPaths)
    (fun seen state => StoreInvariant blobs state ∧
      WriteInvariant tree (manifestSelects tree sinceNs changedPaths)
        hashCache seen state)
    ⟨⟨intact, fun _ old => old, by simp⟩,
      ⟨by simp, fun _ => Or.inl rfl⟩⟩
    (fun seen item _ before next holds stepped =>
      ⟨writeCasEntry_storeInvariant holds.1
          (fun data isFile _ =>
            (holds.2.cache.cachedDigest_eq isFile).trans
              (current item data isFile)) stepped,
        writeCasEntry_invariant tree sinceNs changedPaths hashCache seen item
          before next holds.2 stepped⟩)
    folded).1

/-- An entry of the type of an object, whose blob is stored. -/
def RecordedAs (blobs : BlobStore) :
    Object FileData → ManifestEntry → Prop
  | .file _, .file (some hash) (some _) _ _ => blobs hash = some hash
  | .symlink target, .symlink (some recorded) => recorded = target
  | _, _ => False

/-- All entries are recorded for captured paths of a tree. -/
def EntriesOf
    (tree : Tree) (blobs : BlobStore) (manifest : Manifest) : Prop :=
  ∀ path entry, manifest.entries.get path = some entry →
    tree.Captured path ∧
      ∃ object, tree.get path = some object ∧ RecordedAs blobs object entry

theorem EntriesOf.grow
    {tree : Tree} {blobs final : BlobStore} {manifest : Manifest}
    (entries : EntriesOf tree blobs manifest)
    (grows : ∀ digest, (blobs digest).isSome → (final digest).isSome)
    (finalIntact : final.Intact) :
    EntriesOf tree final manifest := by
  intro path entry present
  obtain ⟨captured, object, found, recorded⟩ := entries path entry present
  refine ⟨captured, object, found, ?_⟩
  cases object with
  | symlink target =>
      cases entry with
      | symlink other => cases other <;> exact recorded
      | file hash mode size mtimeNs => exact recorded.elim
      | unknownType => exact recorded.elim
      | notDict => exact recorded.elim
  | dir => exact recorded.elim
  | special => exact recorded.elim
  | file data =>
      cases entry with
      | symlink target => exact recorded.elim
      | unknownType => exact recorded.elim
      | notDict => exact recorded.elim
      | file hash mode size mtimeNs =>
          cases hash with
          | none => exact recorded.elim
          | some hash =>
              cases mode with
              | none => exact recorded.elim
              | some mode =>
                  have stored : blobs hash = some hash := recorded
                  obtain ⟨content, filed⟩ := Option.isSome_iff_exists.mp
                    (grows hash (by simp [stored]))
                  change final hash = some hash
                  rw [filed, finalIntact hash content filed]

/-- The blobs of a manifest stay in every store that grows from its own. -/
theorem StoreInvariant.entriesOf
    {before final : BlobStore}
    (kept : StoreInvariant before state)
    (written :
      writeCasManifest tree sinceNs deletedPaths changedPaths hashCache
        blobs = .ok (manifest, state))
    (grows : ∀ digest, (state.blobs digest).isSome → (final digest).isSome)
    (finalIntact : final.Intact) :
    EntriesOf tree final manifest := by
  intro path entry present
  have entriesAre := (writeCasManifest_eq_ok written).2
  have blobThere :
      ∀ digest mode size mtimeNs,
        entry = .file (some digest) mode size mtimeNs →
          final digest = some digest := by
    rintro digest mode size mtimeNs rfl
    have inStore :=
      grows digest (kept.entriesStored path digest mode size mtimeNs
        (by rw [entriesAre] at present; exact present))
    obtain ⟨content, found⟩ := Option.isSome_iff_exists.mp inStore
    rw [found, finalIntact digest content found]
  rw [writeCasManifest_entries written path] at present
  split at present
  · next selected =>
      refine ⟨selected.1, ?_⟩
      rw [manifestEntryAt] at present
      cases found : tree.get path with
      | none => simp [found] at present
      | some object =>
          cases object with
          | dir => simp [found] at present
          | special => simp [found] at present
          | symlink target =>
              simp only [found, Option.some.injEq] at present
              subst entry
              exact ⟨_, rfl, rfl⟩
          | file data =>
              simp only [found, Option.some.injEq] at present
              subst entry
              exact ⟨_, rfl, blobThere _ _ _ _ rfl⟩
  · cases present

end Stored

end AgentSchedBench.Checkpoint
