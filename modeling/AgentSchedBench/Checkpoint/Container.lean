import AgentSchedBench.Checkpoint.Collector

/-!
# The checkpoint inside a container

`checkpointContainerAfterTool` follows `_checkpoint_container_after_tool` and
`run_container_checkpoint`: a script walks the tree in the container and hashes
what changed, a second one streams the missing files as a tar archive, and the
host writes the manifest and the blobs.

The walk of the script visits the paths that the host visits and compares them
as the host does; a tar archive holds a file only once, and its hard links by
reference, which the host does not read.
-/

namespace AgentSchedBench.Checkpoint

open FileSystem

/-! ## The snapshot script -/

/-- The inodes of the files of a tree: hard links share their file. -/
structure HardLinks (tree : Tree) where
  inode : RelPath → Nat
  linked :
    ∀ path other data otherData,
      tree.get path = some (.file data) →
        tree.get other = some (.file otherData) →
          inode path = inode other →
            data = otherData ∧ tree.stat path = tree.stat other

/-- A value of `changed` in the script. -/
inductive ChangedEntry where
  | file (hash : Digest) (mode size : Nat) (mtimeNs : Int)
  | symlink (target : Path)
deriving DecidableEq, Repr

/-- The dictionaries that the script fills. -/
structure SnapshotState where
  entries : CheckpointSnapshot
  changed : Dict RelPath ChangedEntry

/-- `entry_changed`. -/
def entryChanged
    (prevEntries : CheckpointSnapshot) (rel : RelPath)
    (entry : CheckpointSnapshotEntry) : Bool :=
  match prevEntries.get rel with
  | none => true
  | some previous =>
      if previous.entryType ≠ entry.entryType then true
      else
        match previous.sizeMtime, entry.sizeMtime with
        | some previousSizeMtime, some currentSizeMtime =>
            previousSizeMtime ≠ currentSizeMtime
        | _, _ => true

/-- Record an entry, and its value if the entry changed. -/
def recordEntry
    (prevEntries : CheckpointSnapshot) (state : SnapshotState)
    (rel : RelPath) (entry : CheckpointSnapshotEntry)
    (value : ChangedEntry) : SnapshotState where
  entries := state.entries.set rel entry
  changed :=
    if entryChanged prevEntries rel entry then state.changed.set rel value
    else state.changed

/-- `record_symlink`. -/
def recordSymlink
    (tree : Tree) (prevEntries : CheckpointSnapshot)
    (state : SnapshotState) (rel : RelPath) (target : Path) :
    SnapshotState :=
  recordEntry prevEntries state rel
    ⟨.symlink target, some (tree.stat rel)⟩ (.symlink target)

/-- The body of the loop over `dirnames`: only links are recorded. -/
def snapshotDirname
    (tree : Tree) (prevEntries : CheckpointSnapshot)
    (state : SnapshotState) (rel : RelPath) : SnapshotState :=
  match tree.get rel with
  | some (.symlink target) =>
      recordSymlink tree prevEntries state rel target
  | _ => state

/-- The statements on `dirpath`. -/
def snapshotDirpath
    (tree : Tree) (prevEntries : CheckpointSnapshot)
    (state : SnapshotState) (rel : RelPath) : SnapshotState :=
  if rel.isEmpty then state
  else
    match tree.get rel with
    | some .dir =>
        { state with
          entries := state.entries.set rel ⟨.dir, some (tree.stat rel)⟩ }
    | some (.symlink target) =>
        recordSymlink tree prevEntries state rel target
    | _ => state

/-- The body of the loop over `filenames`; special files are left out. -/
def snapshotFilename
    (tree : Tree) (prevEntries : CheckpointSnapshot)
    (state : SnapshotState) (rel : RelPath) : SnapshotState :=
  match tree.get rel with
  | some .dir =>
      { state with
        entries := state.entries.set rel ⟨.dir, some (tree.stat rel)⟩ }
  | some (.file data) =>
      recordEntry prevEntries state rel ⟨.file, some (tree.stat rel)⟩
        (.file data.digest (sIMode data.mode) (tree.stat rel).size
          (tree.stat rel).mtimeNs)
  | some (.symlink target) =>
      recordSymlink tree prevEntries state rel target
  | _ => state

/-- The first walk of the script. -/
def snapshotWalk (tree : Tree) (prevEntries : CheckpointSnapshot) :
    SnapshotState :=
  (tree.osWalk checkpointSkipDirs.contains).foldl
    (fun state item =>
      let links :=
        (item.dirnames.map (item.dirpath ++ [·])).foldl
          (snapshotDirname tree prevEntries) state
      let directory := snapshotDirpath tree prevEntries links item.dirpath
      (item.filenames.map (item.dirpath ++ [·])).foldl
        (snapshotFilename tree prevEntries) directory)
    ⟨Dict.empty, Dict.empty⟩

/-- The second walk: is anything but the root newer than the script? -/
def changedDuringWalk (tree : Tree) (nowNs : Int) : Bool :=
  (tree.osWalk checkpointSkipDirs.contains).any fun item =>
    (item.dirnames ++ item.filenames).any fun name =>
      nowNs < (tree.stat (item.dirpath ++ [name])).mtimeNs

/-! ## Blobs -/

/--
One path of the tar archive and what is read back from it: a further path to
an archived inode becomes a link member, which the reader skips.
-/
def fetchBlob
    (tree : Tree) (links : HardLinks tree)
    (state : List Nat × Dict RelPath Digest) (rel : RelPath) :
    List Nat × Dict RelPath Digest :=
  match tree.get rel with
  | some (.file data) =>
      if links.inode rel ∈ state.1 then state
      else (links.inode rel :: state.1, state.2.set rel data.digest)
  | _ => state

/-- `_fetch_blobs`. -/
def fetchBlobs
    (tree : Tree) (links : HardLinks tree) (paths : List RelPath) :
    Dict RelPath Digest :=
  (paths.foldl (fetchBlob tree links) ([], Dict.empty)).2

/-- The paths whose blobs the host does not have. -/
def missingPaths (blobs : BlobStore) (changed : Dict RelPath ChangedEntry) :
    List RelPath :=
  changed.keys.filter fun rel =>
    match changed.get rel with
    | some (.file hash _ _ _) => (blobs hash).isNone
    | _ => false

/-- The `RuntimeError`s of the container checkpoint. -/
inductive ContainerError where
  | blobMissing (rel : RelPath)
  | digestMismatch (rel : RelPath)
  | notVerified (rel : RelPath)
deriving DecidableEq, Repr

/-- The loop that verifies the contents of the missing paths. -/
def verifyBlobs
    (changed : Dict RelPath ChangedEntry) (contents : Dict RelPath Digest)
    (missing : List RelPath) : Except ContainerError Unit :=
  forM missing fun rel =>
    match contents.get rel, changed.get rel with
    | none, _ => .error (.blobMissing rel)
    | some actual, some (.file hash _ _ _) =>
        if actual ≠ hash then .error (.digestMismatch rel) else .ok ()
    | some _, _ => .ok ()

/-- The variables of the loop in `_write_container_manifest`. -/
structure ContainerWriteState where
  entries : Dict RelPath ManifestEntry
  blobs : BlobStore
  totalUniqueBytes : Nat

/-- The body of that loop. -/
def writeContainerEntry
    (changed : Dict RelPath ChangedEntry)
    (verifiedBlobs : Dict RelPath Digest)
    (state : ContainerWriteState) (rel : RelPath) :
    Except ContainerError ContainerWriteState :=
  if checkpointRelpathIsSkipped rel then .ok state
  else
    match changed.get rel with
    | none => .ok state
    | some (.symlink target) =>
        .ok { state with
          entries := state.entries.set rel (.symlink (some target)) }
    | some (.file digest mode size mtimeNs) =>
        let entries :=
          state.entries.set rel
            (.file (some digest) (some mode) (some size) (some mtimeNs))
        if (state.blobs digest).isSome then
          .ok { state with entries := entries }
        else
          match verifiedBlobs.get rel with
          | none => .error (.notVerified rel)
          | some verified =>
              if verified ≠ digest then .error (.digestMismatch rel)
              else
                .ok
                  { entries := entries
                    blobs :=
                      Function.update state.blobs digest (some verified)
                    totalUniqueBytes := state.totalUniqueBytes + size }

/-- `_write_container_manifest`. -/
def writeContainerManifest
    (changed : Dict RelPath ChangedEntry) (deletedPaths : List RelPath)
    (verifiedBlobs : Dict RelPath Digest) (blobs : BlobStore) :
    Except ContainerError (Manifest × ContainerWriteState) := do
  let state ←
    (sortPaths changed.keys).foldlM
      (writeContainerEntry changed verifiedBlobs) ⟨Dict.empty, blobs, 0⟩
  return (⟨state.entries,
    sortPaths (deletedPaths.filter (!checkpointRelpathIsSkipped ·))⟩, state)

/-! ## The checkpoint -/

/-- `_compute_deleted_paths`. -/
def computeDeletedPaths
    (prevEntries : Option CheckpointSnapshot)
    (currentEntries : CheckpointSnapshot) : List RelPath :=
  match prevEntries with
  | none => []
  | some prevEntries =>
      sortPaths <| prevEntries.keys.filter fun path =>
        (match currentEntries.get path, prevEntries.get path with
          | some current, some previous =>
              current.entryType ≠ previous.entryType
          | none, _ => true
          | some _, none => false) &&
          !checkpointRelpathIsSkipped path

/-- What `run_container_checkpoint` returns. -/
inductive ContainerResult where
  | error (message : String)
  | skipped
  | written (manifest : Manifest) (isFull : Bool)
      (currentSnapshot : CheckpointSnapshot) (chainBytes : Nat)
      (blobs : BlobStore)

/-- A tool call, with the links of its tree and the container's clock. -/
structure ContainerCall extends CheckpointCall where
  links : HardLinks tree
  nowNs : Int

/-- `run_container_checkpoint`, in a container with a usable Python. -/
def runContainerCheckpoint
    (call : ContainerCall) (prevSnapshotEntries : Option CheckpointSnapshot)
    (forceFull : Bool) (blobs : BlobStore) : ContainerResult :=
  let snapshotPrevEntries :=
    if forceFull then Dict.empty else prevSnapshotEntries.getD Dict.empty
  let snapshot := snapshotWalk call.tree snapshotPrevEntries
  if changedDuringWalk call.tree call.nowNs then
    .error "checkpoint failed: filesystem changed during checkpoint"
  else
    let deletedPaths :=
      computeDeletedPaths prevSnapshotEntries snapshot.entries
    let isFirst := prevSnapshotEntries.isNone
    let hasChanges :=
      !snapshot.changed.keys.isEmpty || !deletedPaths.isEmpty
    if !isFirst && !forceFull && !hasChanges then .skipped
    else
      let missing := missingPaths blobs snapshot.changed
      let blobContents := fetchBlobs call.tree call.links missing
      match verifyBlobs snapshot.changed blobContents missing with
      | .error _ => .error "checkpoint blob missing"
      | .ok () =>
          match
              writeContainerManifest snapshot.changed deletedPaths
                blobContents blobs with
          | .error _ => .error "checkpoint failed"
          | .ok (manifest, state) =>
              .written manifest (isFirst || forceFull) snapshot.entries
                state.totalUniqueBytes state.blobs

/-- `_checkpoint_container_after_tool`. -/
def checkpointContainerAfterTool
    (config : HookConfig) (hook : HookState) (call : ContainerCall) :
    CheckpointAfter × HookState :=
  let isFirst := hook.lastFullCheckpointNs.isNone
  let forceFull := forceFullCheckpoint config hook
  let name := manifestName config call.toolCallId
  match
      runContainerCheckpoint call hook.checkpointSnapshotEntries forceFull
        hook.blobs with
  | .error message => (.error message, hook)
  | .skipped => (.skipped, hook)
  | .written manifest isFull currentSnapshot chainBytes blobs =>
      (.recorded
          { path := name
            kind :=
              if isFull then .casManifestFull else .casManifestIncremental
            incrementalSinceNs :=
              if isFirst ∨ forceFull then none
              else hook.lastIncrementalCheckpointNs
            rebaseline := forceFull
            chainBytes := chainBytes },
        { hook with
          lastFullCheckpointNs :=
            if isFull then some call.nowNs else hook.lastFullCheckpointNs
          lastIncrementalCheckpointNs := some call.nowNs
          checkpointSnapshotEntries := some currentSnapshot
          checkpointChainBytesSinceFull :=
            if isFull then 0
            else hook.checkpointChainBytesSinceFull + chainBytes
          blobs := blobs
          manifestFiles :=
            Function.update hook.manifestFiles name (some manifest) })

/-! ## What the script finds -/

/-- The value the script has for a path that changed. -/
def changedValue
    (tree : Tree) (prevEntries : CheckpointSnapshot) (path : RelPath) :
    Option ChangedEntry :=
  match tree.get path with
  | some (.file data) =>
      if entryChanged prevEntries path ⟨.file, some (tree.stat path)⟩ then
        some (.file data.digest (sIMode data.mode) (tree.stat path).size
          (tree.stat path).mtimeNs)
      else none
  | some (.symlink target) =>
      if entryChanged prevEntries path
          ⟨.symlink target, some (tree.stat path)⟩ then
        some (.symlink target)
      else none
  | _ => none

/-- The snapshot entry the script has for a path. -/
def scriptEntry (tree : Tree) (path : RelPath) :
    Option CheckpointSnapshotEntry :=
  match tree.get path with
  | none => none
  | some .special => none
  | some object =>
      some ⟨checkpointEntryType object, some (tree.stat path)⟩

section Walk

variable (tree : Tree) (prevEntries : CheckpointSnapshot)

/-- The three loops over a directory are one loop over what they record. -/
theorem snapshotItem_eq
    (state : SnapshotState) {item : WalkItem}
    (isDir : tree.get item.dirpath = some .dir) :
    (item.filenames.map (item.dirpath ++ [·])).foldl
        (snapshotFilename tree prevEntries)
        (snapshotDirpath tree prevEntries
          ((item.dirnames.map (item.dirpath ++ [·])).foldl
            (snapshotDirname tree prevEntries) state)
          item.dirpath) =
      (((item.dirnames.filter fun name =>
          tree.isLink (item.dirpath ++ [name])).map (item.dirpath ++ [·])) ++
        (if item.dirpath.isEmpty then [] else [item.dirpath]) ++
        item.filenames.map (item.dirpath ++ [·])).foldl
          (snapshotFilename tree prevEntries) state := by
  rw [List.foldl_append, List.foldl_append]
  have links :
      ∀ (names : List String) (state : SnapshotState),
        (names.map (item.dirpath ++ [·])).foldl
            (snapshotDirname tree prevEntries) state =
          ((names.filter fun name =>
            tree.isLink (item.dirpath ++ [name])).map
              (item.dirpath ++ [·])).foldl
                (snapshotFilename tree prevEntries) state := by
    intro names
    induction names with
    | nil => exact fun _ => rfl
    | cons name rest induction =>
        intro state
        rw [List.map_cons, List.foldl_cons, induction, List.filter_cons]
        rcases found : tree.get (item.dirpath ++ [name]) with
          _ | data | target | _ | _ <;>
          simp [Tree.isLink, snapshotDirname, snapshotFilename, found]
  rw [links]
  congr 1
  rw [snapshotDirpath]
  split
  · rfl
  · rw [List.foldl_cons, List.foldl_nil, snapshotFilename, isDir]

theorem snapshotWalk_eq :
    snapshotWalk tree prevEntries =
      (iterCheckpointEntries tree).foldl
        (snapshotFilename tree prevEntries) ⟨Dict.empty, Dict.empty⟩ := by
  rw [snapshotWalk, iterCheckpointEntries, List.foldl_flatMap]
  apply List.foldl_ext
  intro state item member
  obtain ⟨dirpath, isDir, _, rfl⟩ := (tree.mem_osWalk _ item).mp member
  exact snapshotItem_eq tree prevEntries state isDir

/-- After some paths the dictionaries have exactly their entries. -/
structure SnapshotInvariant
    (visited : List RelPath) (state : SnapshotState) : Prop where
  entries :
    ∀ path, state.entries.get path =
      if path ∈ visited then scriptEntry tree path else none
  changed :
    ∀ path, state.changed.get path =
      if path ∈ visited then changedValue tree prevEntries path else none

theorem snapshotFilename_invariant
    {visited : List RelPath} {state : SnapshotState} (item : RelPath)
    (holds : SnapshotInvariant tree prevEntries visited state) :
    SnapshotInvariant tree prevEntries (visited ++ [item])
      (snapshotFilename tree prevEntries state item) := by
  have stays :
      ∀ {α : Type} {values : RelPath → Option α} {dict : Dict RelPath α},
        (∀ path, dict.get path =
          if path ∈ visited then values path else none) →
          values item = none →
            ∀ path, dict.get path =
              if path ∈ visited ++ [item] then values path else none := by
    intro α values dict before missing path
    rw [before]
    by_cases same : path = item
    · subst same
      simp [missing]
    · simp [same]
  have adds :
      ∀ {α : Type} {values : RelPath → Option α} {dict : Dict RelPath α}
        {value : α},
        (∀ path, dict.get path =
          if path ∈ visited then values path else none) →
          values item = some value →
            ∀ path, (dict.set item value).get path =
              if path ∈ visited ++ [item] then values path else none := by
    intro α values dict value before found path
    rw [Dict.get_set, before]
    by_cases same : path = item
    · subst same
      simp [found]
    · simp [same]
  have records :
      ∀ entry value,
        scriptEntry tree item = some entry →
          changedValue tree prevEntries item =
            (if entryChanged prevEntries item entry then some value
            else none) →
            SnapshotInvariant tree prevEntries (visited ++ [item])
              (recordEntry prevEntries state item entry value) := by
    intro entry value isEntry isValue
    refine ⟨adds holds.entries isEntry, ?_⟩
    rw [recordEntry]
    split at isValue
    · next isChanged =>
        simpa only [isChanged, if_true] using adds holds.changed isValue
    · next same =>
        simpa only [same, Bool.false_eq_true, if_false] using
          stays holds.changed isValue
  rw [snapshotFilename]
  rcases found : tree.get item with _ | data | target | _ | _
  · exact ⟨stays holds.entries (by simp [scriptEntry, found]),
      stays holds.changed (by simp [changedValue, found])⟩
  · exact records _ _ (by simp [scriptEntry, found, checkpointEntryType])
      (by simp [changedValue, found])
  · exact records _ _ (by simp [scriptEntry, found, checkpointEntryType])
      (by simp [changedValue, found])
  · exact ⟨adds holds.entries
        (by simp [scriptEntry, found, checkpointEntryType]),
      stays holds.changed (by simp [changedValue, found])⟩
  · exact ⟨stays holds.entries (by simp [scriptEntry, found]),
      stays holds.changed (by simp [changedValue, found])⟩

theorem snapshotWalk_invariant :
    SnapshotInvariant tree prevEntries (iterCheckpointEntries tree)
      (snapshotWalk tree prevEntries) := by
  rw [snapshotWalk_eq]
  exact Loops.foldl_invariant (snapshotFilename tree prevEntries)
    (SnapshotInvariant tree prevEntries) _ _
    ⟨by simp, by simp⟩
    (fun _ item _ _ holds =>
      snapshotFilename_invariant tree prevEntries item holds)

theorem snapshotWalk_changed (path : RelPath) :
    (snapshotWalk tree prevEntries).changed.get path =
      if tree.Captured path then changedValue tree prevEntries path
      else none := by
  simpa only [mem_iterCheckpointEntries] using
    (snapshotWalk_invariant tree prevEntries).changed path

/-- On a tree without special files the script has the host's snapshot. -/
theorem snapshotWalk_entries (supported : tree.Supported) (path : RelPath) :
    (snapshotWalk tree prevEntries).entries.get path =
      tree.snapshotAt path := by
  have visited := (snapshotWalk_invariant tree prevEntries).entries path
  simp only [mem_iterCheckpointEntries] at visited
  rw [visited, Tree.snapshotAt]
  by_cases captured : tree.Captured path
  · have plain := supported path captured
    rw [if_pos captured, if_pos captured, scriptEntry]
    rcases found : tree.get path with _ | data | target | _ | _
    · rfl
    · rfl
    · rfl
    · rfl
    · exact (plain found).elim
  · rw [if_neg captured, if_neg captured]

end Walk

/-! ## What the archive holds -/

/-- Two missing files share an inode, so that one of them is not archived. -/
def LinkMissing
    (tree : Tree) (links : HardLinks tree) (missing : List RelPath) : Prop :=
  ∃ path ∈ missing, ∃ other ∈ missing,
    path ≠ other ∧ links.inode path = links.inode other

/-- What the archive holds after some of the paths. -/
structure FetchInvariant
    (tree : Tree) (links : HardLinks tree)
    (visited : List RelPath) (state : List Nat × Dict RelPath Digest) :
    Prop where
  seen :
    ∀ inode ∈ state.1, ∃ path ∈ visited, links.inode path = inode ∧
      (state.2.get path).isSome
  listed : ∀ path ∈ visited, links.inode path ∈ state.1
  actual :
    ∀ path digest, state.2.get path = some digest →
      path ∈ visited ∧
        ∃ data, tree.get path = some (.file data) ∧ data.digest = digest
  once :
    ∀ path other, (state.2.get path).isSome → (state.2.get other).isSome →
      links.inode path = links.inode other → path = other

section Fetch

variable {tree : Tree} {links : HardLinks tree}

theorem fetchBlob_invariant
    {visited : List RelPath} {state : List Nat × Dict RelPath Digest}
    {item : RelPath} {data : FileData}
    (isFile : tree.get item = some (.file data))
    (holds : FetchInvariant tree links visited state) :
    FetchInvariant tree links (visited ++ [item])
      (fetchBlob tree links state item) := by
  simp only [fetchBlob, isFile]
  by_cases archived : links.inode item ∈ state.1
  · rw [if_pos archived]
    refine ⟨?_, ?_, ?_, holds.once⟩
    · intro inode member
      obtain ⟨path, known, same, present⟩ := holds.seen inode member
      exact ⟨path, List.mem_append_left _ known, same, present⟩
    · intro path member
      rcases List.mem_append.mp member with old | new
      · exact holds.listed path old
      · rw [List.mem_singleton.mp new]
        exact archived
    · intro path digest present
      obtain ⟨known, content⟩ := holds.actual path digest present
      exact ⟨List.mem_append_left _ known, content⟩
  · rw [if_neg archived]
    have fresh :
        ∀ path, (state.2.get path).isSome →
          links.inode path ≠ links.inode item := by
      intro path present same
      obtain ⟨digest, isContent⟩ := Option.isSome_iff_exists.mp present
      exact archived
        (same ▸ holds.listed path (holds.actual path digest isContent).1)
    refine ⟨?_, ?_, ?_, ?_⟩
    · intro inode member
      rcases List.mem_cons.mp member with rfl | old
      · exact ⟨item, by simp, rfl, by simp⟩
      · obtain ⟨path, known, same, present⟩ := holds.seen inode old
        refine ⟨path, List.mem_append_left _ known, same, ?_⟩
        rw [Dict.get_set]
        split
        · rfl
        · exact present
    · intro path member
      rcases List.mem_append.mp member with old | new
      · exact List.mem_cons_of_mem _ (holds.listed path old)
      · rw [List.mem_singleton.mp new]
        exact List.mem_cons_self
    · intro path digest present
      rw [Dict.get_set] at present
      split at present
      · next same =>
          subst same
          exact ⟨by simp, data, isFile, Option.some.inj present⟩
      · obtain ⟨known, content⟩ := holds.actual path digest present
        exact ⟨List.mem_append_left _ known, content⟩
    · intro path other present otherPresent same
      rw [Dict.get_set] at present otherPresent
      split at present <;> split at otherPresent
      · next isItem otherIsItem => rw [isItem, otherIsItem]
      · next isItem _ =>
          exact (fresh other otherPresent (isItem ▸ same.symm)).elim
      · next _ otherIsItem =>
          exact (fresh path present (otherIsItem ▸ same)).elim
      · exact holds.once path other present otherPresent same

theorem fetchBlobs_invariant
    {tree : Tree} (links : HardLinks tree) {missing : List RelPath}
    (files : ∀ path ∈ missing, ∃ data, tree.get path = some (.file data)) :
    ∃ inodes,
      FetchInvariant tree links missing
        (inodes, fetchBlobs tree links missing) := by
  refine ⟨(missing.foldl (fetchBlob tree links) ([], Dict.empty)).1, ?_⟩
  exact Loops.foldl_invariant (fetchBlob tree links)
    (FetchInvariant tree links) missing ([], Dict.empty)
    ⟨by simp, by simp, by simp, by simp⟩
    (fun _ item member _ holds => by
      obtain ⟨data, isFile⟩ := files item member
      exact fetchBlob_invariant isFile holds)

/-- Every missing file is archived unless two of them are linked. -/
theorem fetchBlobs_complete_iff
    {missing : List RelPath}
    (files : ∀ path ∈ missing, ∃ data, tree.get path = some (.file data)) :
    (∀ path ∈ missing, ((fetchBlobs tree links missing).get path).isSome) ↔
      ¬ LinkMissing tree links missing := by
  obtain ⟨inodes, holds⟩ := fetchBlobs_invariant links files
  constructor
  · rintro complete ⟨path, member, other, otherMember, apart, same⟩
    exact apart
      (holds.once path other (complete path member)
        (complete other otherMember) same)
  · intro noLink path member
    obtain ⟨other, otherMember, same, present⟩ :=
      holds.seen _ (holds.listed path member)
    by_cases equal : path = other
    · rw [equal]
      exact present
    · exact (noLink ⟨path, member, other, otherMember, equal,
        same.symm⟩).elim

theorem verifyBlobs_eq_ok
    {changed : Dict RelPath ChangedEntry} {missing : List RelPath}
    {contents : Dict RelPath Digest}
    (actual :
      ∀ path ∈ missing, ∀ digest, contents.get path = some digest →
        ∀ hash mode size mtimeNs,
          changed.get path = some (.file hash mode size mtimeNs) →
            digest = hash) :
    verifyBlobs changed contents missing = .ok () ↔
      ∀ path ∈ missing, (contents.get path).isSome := by
  rw [verifyBlobs, Loops.forM_eq_ok]
  refine forall₂_congr fun path member => ?_
  cases content : contents.get path with
  | none => simp
  | some digest =>
      have correct := actual path member digest content
      cases value : changed.get path with
      | none => simp
      | some entry =>
          cases entry with
          | symlink target => simp
          | file hash mode size mtimeNs =>
              simp [correct hash mode size mtimeNs value]

end Fetch

/-! ## What the manifest holds -/

/-- The manifest entry of a changed path. -/
def manifestEntryOf : ChangedEntry → ManifestEntry
  | .file hash mode size mtimeNs =>
      .file (some hash) (some mode) (some size) (some mtimeNs)
  | .symlink target => .symlink (some target)

/-- What the loop in `_write_container_manifest` has written. -/
structure ContainerWritten
    (changed : Dict RelPath ChangedEntry) (before : BlobStore)
    (visited : List RelPath) (state : ContainerWriteState) : Prop where
  entries :
    ∀ path, state.entries.get path =
      if path ∈ visited ∧ ".git" ∉ path then
        (changed.get path).map manifestEntryOf
      else none
  grows : ∀ digest, (before digest).isSome → (state.blobs digest).isSome
  stored :
    ∀ path digest mode size mtimeNs,
      state.entries.get path =
          some (.file (some digest) mode size mtimeNs) →
        (state.blobs digest).isSome
  intact : before.Intact → state.blobs.Intact

section Write

variable
  {changed : Dict RelPath ChangedEntry} {verified : Dict RelPath Digest}
  {before : BlobStore}

theorem writeContainerEntry_written
    {visited : List RelPath} {state : ContainerWriteState} {item : RelPath}
    (known :
      ∀ hash mode size mtimeNs,
        changed.get item = some (.file hash mode size mtimeNs) →
          (before hash).isSome ∨ verified.get item = some hash)
    (holds : ContainerWritten changed before visited state) :
    ∃ next, writeContainerEntry changed verified state item = .ok next ∧
      ContainerWritten changed before (visited ++ [item]) next := by
  have skips :
      (".git" ∈ item ∨ changed.get item = none) →
        ContainerWritten changed before (visited ++ [item]) state := by
    intro skip
    refine ⟨fun path => ?_, holds.grows, holds.stored, holds.intact⟩
    rw [holds.entries]
    by_cases same : path = item
    · subst same
      rcases skip with inside | missing
      · simp [inside]
      · simp [missing]
    · simp [same]
  have adds :
      ∀ value, ".git" ∉ item → changed.get item = some value →
        ∀ path,
          (state.entries.set item (manifestEntryOf value)).get path =
            if path ∈ visited ++ [item] ∧ ".git" ∉ path then
              (changed.get path).map manifestEntryOf
            else none := by
    intro value outside found path
    rw [Dict.get_set, holds.entries]
    by_cases same : path = item
    · subst same
      simp [outside, found]
    · simp [same]
  rw [writeContainerEntry]
  by_cases inside : ".git" ∈ item
  · rw [if_pos ((checkpointRelpathIsSkipped_iff item).mpr inside)]
    exact ⟨state, rfl, skips (Or.inl inside)⟩
  rw [if_neg (mt (checkpointRelpathIsSkipped_iff item).mp inside)]
  cases found : changed.get item with
  | none => exact ⟨state, rfl, skips (Or.inr found)⟩
  | some value =>
      cases value with
      | symlink target =>
          refine ⟨_, rfl, adds _ inside found, holds.grows, ?_,
            holds.intact⟩
          intro path digest mode size mtimeNs present
          rw [Dict.get_set] at present
          split at present
          · cases present
          · exact holds.stored path digest mode size mtimeNs present
      | file hash fileMode fileSize fileMtimeNs =>
          dsimp only
          by_cases inStore : (state.blobs hash).isSome = true
          · rw [if_pos inStore]
            refine ⟨_, rfl, adds _ inside found, holds.grows, ?_,
              holds.intact⟩
            intro path digest mode size mtimeNs present
            rw [Dict.get_set] at present
            split at present
            · cases present
              exact inStore
            · exact holds.stored path digest mode size mtimeNs present
          · rw [if_neg inStore]
            have isVerified : verified.get item = some hash := by
              rcases known _ _ _ _ found with old | fetched
              · exact (inStore (holds.grows hash old)).elim
              · exact fetched
            simp only [isVerified, ne_eq, not_true_eq_false, if_false]
            have fills :
                ∀ digest, (state.blobs digest).isSome →
                  (Function.update state.blobs hash (some hash)
                    digest).isSome := by
              intro digest old
              by_cases same : digest = hash
              · simp [same]
              · simpa [same] using old
            refine ⟨_, rfl, adds _ inside found,
              fun digest old => fills digest (holds.grows digest old), ?_,
              ?_⟩
            · intro path digest mode size mtimeNs present
              rw [Dict.get_set] at present
              split at present
              · cases present
                simp
              · exact fills digest
                  (holds.stored path digest mode size mtimeNs present)
            · intro intact digest content filed
              by_cases same : digest = hash
              · subst same
                simpa using filed.symm
              · simp only [Function.update_of_ne same] at filed
                exact holds.intact intact digest content filed

/-- With every file stored or verified, the manifest is written. -/
theorem writeContainerManifest_total
    (changed : Dict RelPath ChangedEntry) (verified : Dict RelPath Digest)
    (before : BlobStore) (deletedPaths : List RelPath)
    (known :
      ∀ path hash mode size mtimeNs,
        changed.get path = some (.file hash mode size mtimeNs) →
          (before hash).isSome ∨ verified.get path = some hash) :
    ∃ manifest state,
      writeContainerManifest changed deletedPaths verified before =
          .ok (manifest, state) ∧
        manifest.entries = state.entries ∧
        manifest.deletedPaths =
          sortPaths (deletedPaths.filter (!checkpointRelpathIsSkipped ·)) ∧
        ContainerWritten changed before (sortPaths changed.keys) state := by
  obtain ⟨state, folded, holds⟩ :=
    Loops.foldlM_total (writeContainerEntry changed verified)
      (ContainerWritten changed before) (sortPaths changed.keys)
      ⟨Dict.empty, before, 0⟩
      ⟨by simp, fun _ old => old, by simp, fun intact => intact⟩
      (fun visited item _ state holds =>
        writeContainerEntry_written (known item) holds)
  refine ⟨⟨state.entries,
    sortPaths (deletedPaths.filter (!checkpointRelpathIsSkipped ·))⟩,
    state, ?_, rfl, rfl, holds⟩
  rw [writeContainerManifest, folded]
  rfl

end Write

end AgentSchedBench.Checkpoint
