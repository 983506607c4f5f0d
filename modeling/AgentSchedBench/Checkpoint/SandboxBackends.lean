import AgentSchedBench.Checkpoint.HostContainer
import AgentSchedBench.Checkpoint.OverlayChain

/-!
# The checkpoint backends of the sandbox

`DockerBackend.capture_snapshot` walks the tree of the container, reads the
upper layer of its file system, or does both and compares the two manifests.
The walk is relative to the last walk; the overlay capture is relative to a
time, which in verify mode is the start of the container if nothing else is
given.
-/

namespace AgentSchedBench.Checkpoint

open FileSystem

/-! ## Captures -/

/-- The container as a capture finds it, with the clocks that it reads. -/
structure SandboxCall where
  layers : Layers
  links : HardLinks layers.merged
  nowNs : Int
  markerBeforeNs : Int

/-- The call that the container checkpoint is made for. -/
def SandboxCall.walk (call : SandboxCall) : ContainerCall where
  toolCallId := ""
  toolName := ""
  toolArgs := none
  rootAvailable := true
  markerBeforeNs := call.markerBeforeNs
  tree := call.layers.merged
  snapshotFault := false
  writeFault := none
  links := call.links
  nowNs := call.nowNs

def SandboxCall.overlay (call : SandboxCall) : OverlayCall where
  layers := call.layers
  markerBeforeNs := call.markerBeforeNs

/-- What the backends keep: the start of the container and the last walk. -/
structure DockerBackend where
  checkpointStartMarkerNs : Option Int
  checkpointSnapshotEntries : Option CheckpointSnapshot
  blobs : BlobStore

def DockerBackend.start (markerNs : Option Int) (blobs : BlobStore) :
    DockerBackend where
  checkpointStartMarkerNs := markerNs
  checkpointSnapshotEntries := none
  blobs := blobs

/-- `_normalized_manifest_entries` on one entry. -/
inductive NormalizedEntry where
  | symlink (target : Option Path)
  | file (hash : Option Digest) (mode : Option Nat)
  | notDict
deriving DecidableEq, Repr

def normalizedEntry : ManifestEntry → NormalizedEntry
  | .symlink target => .symlink target
  | .file hash mode _ _ => .file hash (mode.map sIMode)
  | .unknownType => .file none none
  | .notDict => .notDict

/-- `_normalized_deleted_paths`. -/
def normalizedDeletedPaths (manifest : Manifest) : List String :=
  (manifest.deletedPaths.map fun path =>
    "/".intercalate path).insertionSort (· ≤ ·)

/-- What `checkpoint_manifest_differences` reports. -/
structure ManifestDifferences where
  onlyWalk : List RelPath
  onlyOverlay : List RelPath
  mismatched : List RelPath
  deletedPaths : Option (List String × List String)
deriving DecidableEq, Repr

def ManifestDifferences.none : ManifestDifferences where
  onlyWalk := []
  onlyOverlay := []
  mismatched := []
  deletedPaths := .none

/-- `checkpoint_manifest_differences` on the two manifests. -/
def manifestDifferences (walk overlay : Manifest) : ManifestDifferences where
  onlyWalk :=
    sortPaths (walk.entries.keys.filter fun path =>
      (overlay.entries.get path).isNone)
  onlyOverlay :=
    sortPaths (overlay.entries.keys.filter fun path =>
      (walk.entries.get path).isNone)
  mismatched :=
    sortPaths (walk.entries.keys.filter fun path =>
      match walk.entries.get path, overlay.entries.get path with
      | some entry, some other =>
          normalizedEntry entry ≠ normalizedEntry other
      | _, _ => false)
  deletedPaths :=
    let walkDeleted := normalizedDeletedPaths walk
    let overlayDeleted := normalizedDeletedPaths overlay
    if walkDeleted = overlayDeleted then .none
    else some (walkDeleted, overlayDeleted)

/-- The exceptions of a capture. -/
inductive CaptureError where
  | walk (message : String)
  | overlay (failure : OverlayError)
  | startMarkerMissing
  | entriesMissing
  | verificationFailed (differences : ManifestDifferences)

/-- `checkpoint_manifest_differences`, which wants both manifests. -/
def checkpointManifestDifferences (walk overlay : DiskSnapshot) :
    Except CaptureError ManifestDifferences :=
  match walk.manifest, overlay.manifest with
  | some walkManifest, some overlayManifest =>
      .ok (manifestDifferences walkManifest overlayManifest)
  | _, _ => .error .entriesMissing

namespace DockerBackend

variable (backend : DockerBackend) (call : SandboxCall)

/-- `WalkBackend._capture_container_snapshot`. -/
def captureWalk (incrementalSince : Option DiskSnapshot) :
    Except CaptureError DiskSnapshot × DockerBackend :=
  match
      runContainerCheckpoint call.walk backend.checkpointSnapshotEntries
        incrementalSince.isNone backend.blobs with
  | .skipped =>
      match incrementalSince with
      | none =>
          (.error
            (.walk
              "container checkpoint skipped without a base snapshot"),
            backend)
      | some snapshot => (.ok snapshot, backend)
  | .error message => (.error (.walk message), backend)
  | .written manifest isFull currentSnapshot _ blobs =>
      (.ok
          { manifest := some manifest
            incremental := !isFull
            timestampNs := call.nowNs },
        { backend with
          checkpointSnapshotEntries := some currentSnapshot
          blobs := blobs })

/-- `OverlayBackend.capture_snapshot` on the backend's blobs. -/
def captureUpper (incrementalSince : Option DiskSnapshot) :
    Except CaptureError DiskSnapshot × DockerBackend :=
  match captureOverlay call.overlay incrementalSince backend.blobs with
  | (result, blobs) =>
      (result.mapError .overlay, { backend with blobs := blobs })

/-- The snapshot that a verified capture is relative to. -/
def effectiveSince (incrementalSince : Option DiskSnapshot) :
    Option DiskSnapshot :=
  incrementalSince.or
    (backend.checkpointStartMarkerNs.map fun markerNs =>
      { manifest := none, incremental := false, timestampNs := markerNs })

/--
`_capture_backends_for_verification`: the walk, then the overlay capture,
which runs to its end when the walk has failed.
-/
def captureBoth (since : DiskSnapshot) :
    Except CaptureError (DiskSnapshot × DiskSnapshot) × DockerBackend :=
  match backend.captureWalk call (some since) with
  | (walk, walked) =>
      match walked.captureUpper call (some since) with
      | (overlay, after) =>
          (do return (← walk, ← overlay), after)

/-- `_capture_verified_snapshot`. -/
def captureVerified (incrementalSince : Option DiskSnapshot) :
    Except CaptureError DiskSnapshot × DockerBackend :=
  match backend.effectiveSince incrementalSince with
  | none => (.error .startMarkerMissing, backend)
  | some since =>
      match backend.captureBoth call since with
      | (.error failure, after) => (.error failure, after)
      | (.ok (walk, overlay), after) =>
          (do
            let differences ← checkpointManifestDifferences walk overlay
            if differences ≠ .none then
              throw (.verificationFailed differences)
            return walk, after)

end DockerBackend

/-! ## What a walk records -/

/-- The entry that a walk has for a path. -/
def walkEntry (tree : Tree) (path : RelPath) :
    Option CheckpointSnapshotEntry :=
  if tree.Captured path then scriptEntry tree path else none

/-- A path outside `.git` that is gone or of another type since a walk. -/
def WalkDeletes
    (previous : Option CheckpointSnapshot) (tree : Tree) (path : RelPath) :
    Prop :=
  ".git" ∉ path ∧
    ∃ snapshot old, previous = some snapshot ∧
      snapshot.get path = some old ∧
        ∀ new, walkEntry tree path = some new →
          new.entryType ≠ old.entryType

/-- Nothing changed since the last walk. -/
def WalkSkips (previous : Option CheckpointSnapshot) (tree : Tree) : Prop :=
  previous.isSome = true ∧
    (∀ path, ¬ Records (previous.getD Dict.empty) tree path) ∧
      ∀ path, ¬ WalkDeletes previous tree path

/-- The manifest of a walk relative to another one, unless forced in full. -/
structure WalkManifest
    (previous : Option CheckpointSnapshot) (forced : Bool) (tree : Tree)
    (manifest : Manifest) : Prop where
  entries :
    ManifestOf
      (fun path =>
        Records
          (if forced then Dict.empty else previous.getD Dict.empty) tree
          path ∧ ".git" ∉ path)
      (actualEntryAt tree) manifest
  deletedPaths :
    ∀ path, path ∈ manifest.deletedPaths ↔ WalkDeletes previous tree path
  distinct :
    (∀ snapshot, previous = some snapshot → snapshot.keys.Nodup) →
      manifest.deletedPaths.Nodup

/-- The snapshot of a walk: what it has for each path, once. -/
structure SnapshotOf (tree : Tree) (snapshot : CheckpointSnapshot) :
    Prop where
  entries : ∀ path, snapshot.get path = walkEntry tree path
  distinct : snapshot.keys.Nodup

section Walk

variable {tree : Tree}

theorem Dict.nodup_set
    {α : Type} {dict : Dict RelPath α} (distinct : dict.keys.Nodup)
    (key : RelPath) (value : α) : (dict.set key value).keys.Nodup := by
  rw [Dict.set]
  dsimp only
  split
  · exact distinct
  · next fresh =>
      rw [List.nodup_append]
      refine ⟨distinct, List.nodup_singleton key, ?_⟩
      intro old member other isKey same
      rw [List.mem_singleton.mp isKey] at same
      exact fresh (same ▸ member)

theorem snapshotFilename_nodup
    (previous : CheckpointSnapshot) {state : SnapshotState}
    (distinct : state.entries.keys.Nodup) (path : RelPath) :
    (snapshotFilename tree previous state path).entries.keys.Nodup := by
  rw [snapshotFilename]
  rcases tree.get path with _ | data | target | _ | _
  · exact distinct
  · exact Dict.nodup_set distinct _ _
  · exact Dict.nodup_set distinct _ _
  · exact Dict.nodup_set distinct _ _
  · exact distinct

theorem snapshotWalk_snapshotOf
    (tree : Tree) (previous : CheckpointSnapshot) :
    SnapshotOf tree (snapshotWalk tree previous).entries := by
  constructor
  · intro path
    rw [(snapshotWalk_invariant tree previous).entries path]
    simp only [mem_iterCheckpointEntries]
    rfl
  · rw [snapshotWalk_eq]
    exact Loops.foldl_invariant (snapshotFilename tree previous)
      (fun _ state => state.entries.keys.Nodup) _ _ List.nodup_nil
      (fun _ path _ _ distinct =>
        snapshotFilename_nodup previous distinct path)

theorem mem_computeDeletedPaths
    {current : CheckpointSnapshot} (isCurrent : SnapshotOf tree current)
    (previous : Option CheckpointSnapshot) (path : RelPath) :
    path ∈ computeDeletedPaths previous current ↔
      WalkDeletes previous tree path := by
  cases previous with
  | none => simp [computeDeletedPaths, WalkDeletes]
  | some previous =>
      rw [computeDeletedPaths, mem_sortPaths, List.mem_filter,
        previous.mem_keys, isCurrent.entries, WalkDeletes]
      have skipped :
          (!checkpointRelpathIsSkipped path) = true ↔ ".git" ∉ path := by
        rw [Bool.not_eq_true', ← Bool.not_eq_true,
          checkpointRelpathIsSkipped_iff]
      rw [Bool.and_eq_true, skipped]
      cases before : previous.get path with
      | none => simp [before]
      | some old =>
          cases now : walkEntry tree path <;> simp [before, and_comm]

theorem nodup_computeDeletedPaths
    (previous : Option CheckpointSnapshot) (current : CheckpointSnapshot)
    (distinct :
      ∀ snapshot, previous = some snapshot → snapshot.keys.Nodup) :
    (computeDeletedPaths previous current).Nodup := by
  cases previous with
  | none => exact List.nodup_nil
  | some previous =>
      exact nodup_sortPaths ((distinct previous rfl).filter _)

/-- The changed paths of the script are those that it records. -/
theorem changed_keys_iff (previous : CheckpointSnapshot) :
    (snapshotWalk tree previous).changed.keys.isEmpty = true ↔
      ∀ path, ¬ Records previous tree path := by
  rw [List.isEmpty_iff, List.eq_nil_iff_forall_not_mem]
  apply forall_congr'
  intro path
  rw [Dict.mem_keys, snapshotWalk_changed, Records]
  by_cases captured : tree.Captured path <;> simp [captured]

/-- What the container checkpoint returns, unless it fails. -/
inductive WalkResult
    (call : ContainerCall) (previous : Option CheckpointSnapshot)
    (forced : Bool) (blobs : BlobStore) : ContainerResult → Prop where
  | error (message : String) :
      WalkResult call previous forced blobs (.error message)
  | skipped
      (notForced : forced = false) (skips : WalkSkips previous call.tree) :
      WalkResult call previous forced blobs .skipped
  | written
      {manifest : Manifest} {current : CheckpointSnapshot}
      {chainBytes : Nat} {after : BlobStore}
      (changes : forced = false → ¬ WalkSkips previous call.tree)
      (made : WalkManifest previous forced call.tree manifest)
      (isCurrent : SnapshotOf call.tree current)
      (intact : blobs.Intact → after.Intact) :
      WalkResult call previous forced blobs
        (.written manifest (previous.isNone || forced) current chainBytes
          after)

theorem runContainerCheckpoint_result
    (call : ContainerCall) (previous : Option CheckpointSnapshot)
    (forced : Bool) (blobs : BlobStore) :
    WalkResult call previous forced blobs
      (runContainerCheckpoint call previous forced blobs) := by
  rw [runContainerCheckpoint]
  dsimp only
  generalize isBase :
    (if forced then Dict.empty else previous.getD Dict.empty) = base
  have isCurrent := snapshotWalk_snapshotOf call.tree base
  have deletes := mem_computeDeletedPaths isCurrent previous
  split
  · exact .error _
  have skips :
      (!previous.isNone && !forced &&
          !(!(snapshotWalk call.tree base).changed.keys.isEmpty ||
            !(computeDeletedPaths previous
              (snapshotWalk call.tree base).entries).isEmpty)) = true ↔
        forced = false ∧ WalkSkips previous call.tree := by
    cases forced with
    | true => simp
    | false =>
        have same : previous.getD Dict.empty = base := by simpa using isBase
        have nothing :
            (computeDeletedPaths previous
              (snapshotWalk call.tree base).entries).isEmpty = true ↔
                ∀ path, ¬ WalkDeletes previous call.tree path := by
          rw [List.isEmpty_iff, List.eq_nil_iff_forall_not_mem]
          simp only [deletes]
        rw [WalkSkips, same, ← changed_keys_iff, ← nothing]
        cases previous <;> simp
  split
  · next skipped =>
      rw [skips] at skipped
      exact .skipped skipped.1 skipped.2
  · next changes =>
    rw [skips] at changes
    split
    · exact .error _
    · next verified =>
        obtain ⟨manifest, state, written, made, deletedPaths, intact, _⟩ :=
          container_manifest call.links blobs
            (computeDeletedPaths previous
              (snapshotWalk call.tree base).entries)
            ((verifyBlobs_iff call.links).mp verified)
        rw [written]
        refine .written
          (fun notForced skipped => changes ⟨notForced, skipped⟩)
          ⟨?_, ?_, ?_⟩ isCurrent intact
        · rw [isBase]
          exact made
        · intro path
          rw [deletedPaths, mem_sortPaths, List.mem_filter, deletes,
            Bool.not_eq_true', ← Bool.not_eq_true,
            checkpointRelpathIsSkipped_iff]
          exact ⟨fun both => both.1, fun deleted => ⟨deleted, deleted.1⟩⟩
        · intro distinct
          rw [deletedPaths]
          exact nodup_sortPaths
            ((nodup_computeDeletedPaths previous _ distinct).filter _)

end Walk

/-! ## Comparing the captures -/

/-- The normal form of an entry with this value. -/
def normalizedValue : CasManifestValue → NormalizedEntry
  | .file hash mode => .file (some hash) mode
  | .symlink target => .symlink (some target)

/-- The manifest records what the upper layer has newer than a time. -/
structure MatchesUpper
    (upper : UpperLayer) (sinceNs : Option Int) (manifest : Manifest) :
    Prop where
  recorded :
    ∀ path, upper.Recorded sinceNs path →
      (manifest.entries.get path).map normalizedEntry =
        (upper.entries path).map normalizedValue
  notRecorded :
    ∀ path, ¬ upper.Recorded sinceNs path →
      manifest.entries.get path = none
  deletedPaths :
    ∀ path, path ∈ manifest.deletedPaths ↔ upper.Deleted sinceNs path
  distinct : manifest.deletedPaths.Nodup

section Compare

variable {upper : UpperLayer} {sinceNs : Option Int} {manifest : Manifest}

theorem normalizedEntry_of_value
    {entry : ManifestEntry} {value : CasManifestValue}
    (isValue : entryValue entry = some value) :
    normalizedEntry entry = normalizedValue value := by
  cases entry with
  | file hash mode size mtimeNs =>
      cases hash with
      | none => cases isValue
      | some hash =>
          cases isValue
          rfl
  | symlink target =>
      cases target with
      | none => cases isValue
      | some target =>
          cases isValue
          rfl
  | unknownType => cases isValue
  | notDict => cases isValue

theorem OverlayManifest.matchesUpper
    {blobs : BlobStore}
    (made : OverlayManifest upper sinceNs blobs manifest) :
    MatchesUpper upper sinceNs manifest where
  recorded path recorded := by
    obtain ⟨entry, found, isValue⟩ := made.recorded path recorded
    obtain ⟨value, present⟩ := Option.isSome_iff_exists.mp recorded.1
    rw [present] at isValue
    rw [found, present, Option.map_some, Option.map_some,
      normalizedEntry_of_value isValue]
  notRecorded := made.notRecorded
  deletedPaths := made.deletedPaths
  distinct := made.distinct

/-- Two manifests that match one upper layer do not differ. -/
theorem MatchesUpper.differences
    {other : Manifest} (walk : MatchesUpper upper sinceNs manifest)
    (overlay : MatchesUpper upper sinceNs other) :
    manifestDifferences manifest other = .none := by
  have entries :
      ∀ path, (manifest.entries.get path).map normalizedEntry =
        (other.entries.get path).map normalizedEntry := by
    intro path
    by_cases recorded : upper.Recorded sinceNs path
    · rw [walk.recorded path recorded, overlay.recorded path recorded]
    · rw [walk.notRecorded path recorded, overlay.notRecorded path recorded]
  have present :
      ∀ path, (manifest.entries.get path).isNone =
        (other.entries.get path).isNone := by
    intro path
    have same := congrArg Option.isNone (entries path)
    rwa [Option.isNone_map, Option.isNone_map] at same
  have onlyWalk :
      (manifest.entries.keys.filter fun path =>
        (other.entries.get path).isNone) = [] := by
    rw [List.filter_eq_nil_iff]
    intro path member missing
    rw [manifest.entries.mem_keys] at member
    rw [← present, Option.isNone_iff_eq_none] at missing
    rw [missing] at member
    cases member
  have onlyOverlay :
      (other.entries.keys.filter fun path =>
        (manifest.entries.get path).isNone) = [] := by
    rw [List.filter_eq_nil_iff]
    intro path member missing
    rw [other.entries.mem_keys] at member
    rw [present, Option.isNone_iff_eq_none] at missing
    rw [missing] at member
    cases member
  have mismatched :
      (manifest.entries.keys.filter fun path =>
        match manifest.entries.get path, other.entries.get path with
        | some entry, some otherEntry =>
            normalizedEntry entry ≠ normalizedEntry otherEntry
        | _, _ => false) = [] := by
    rw [List.filter_eq_nil_iff]
    intro path _ differs
    have same := entries path
    cases found : manifest.entries.get path with
    | none => simp [found] at differs
    | some entry =>
        cases otherFound : other.entries.get path with
        | none => simp [found, otherFound] at differs
        | some otherEntry =>
            rw [found, otherFound] at same
            simp [found, otherFound, Option.some.inj same] at differs
  have deleted :
      normalizedDeletedPaths manifest = normalizedDeletedPaths other := by
    have permuted : manifest.deletedPaths.Perm other.deletedPaths :=
      (List.perm_ext_iff_of_nodup walk.distinct overlay.distinct).mpr
        fun path => by rw [walk.deletedPaths, overlay.deletedPaths]
    rw [normalizedDeletedPaths, normalizedDeletedPaths]
    apply List.Perm.eq_of_pairwise'
      (List.pairwise_insertionSort _ _) (List.pairwise_insertionSort _ _)
    exact (List.perm_insertionSort _ _).trans
      ((permuted.map _).trans (List.perm_insertionSort _ _).symm)
  rw [manifestDifferences, onlyWalk, onlyOverlay, mismatched]
  dsimp only
  rw [if_pos deleted]
  rfl

end Compare

/-! ## Verified runs -/

/-- A history of verified captures, each relative to a snapshot or to none. -/
abbrev VerifyHistory := List (SandboxCall × Option DiskSnapshot)

/-- The backend after the captures of a history. -/
def verifyRun (backend : DockerBackend) (history : VerifyHistory) :
    DockerBackend :=
  history.foldl
    (fun backend item => (backend.captureVerified item.1 item.2).2) backend

/-- If both backends capture, the comparison reports no difference. -/
def DockerBackend.ComparesEqual
    (backend : DockerBackend) (call : SandboxCall)
    (incrementalSince : Option DiskSnapshot) : Prop :=
  ∀ since walk overlay, backend.effectiveSince incrementalSince = some since →
    (backend.captureBoth call since).1 = .ok (walk, overlay) →
      checkpointManifestDifferences walk overlay = .ok .none

/-- No comparison of the history reports a difference. -/
def NoFalseAlarm (backend : DockerBackend) (history : VerifyHistory) : Prop :=
  ∀ (before after : VerifyHistory)
    (item : SandboxCall × Option DiskSnapshot),
      history = before ++ item :: after →
        (verifyRun backend before).ComparesEqual item.1 item.2

/--
The upper layer has newer than the snapshot's time what changed since the last
walk; if nothing changed, it has what that snapshot records.
-/
structure DockerBackend.SeesAlike
    (backend : DockerBackend) (call : SandboxCall) (since : DiskSnapshot)
    (upper : UpperLayer) : Prop where
  skipped :
    WalkSkips backend.checkpointSnapshotEntries call.layers.merged →
      ∃ manifest, since.manifest = some manifest ∧
        MatchesUpper upper (some since.timestampNs) manifest
  recorded :
    ¬ WalkSkips backend.checkpointSnapshotEntries call.layers.merged →
      ∀ path,
        Records (backend.checkpointSnapshotEntries.getD Dict.empty)
            call.layers.merged path ∧ ".git" ∉ path ↔
          upper.Recorded (some since.timestampNs) path
  deleted :
    ¬ WalkSkips backend.checkpointSnapshotEntries call.layers.merged →
      ∀ path,
        WalkDeletes backend.checkpointSnapshotEntries call.layers.merged
            path ↔
          upper.Deleted (some since.timestampNs) path

/-- At each capture the two backends see the same changes. -/
def ChangesAlike (backend : DockerBackend) (history : VerifyHistory) : Prop :=
  ∀ (before after : VerifyHistory)
    (item : SandboxCall × Option DiskSnapshot),
      history = before ++ item :: after →
        ∀ since upper,
          (verifyRun backend before).effectiveSince item.2 = some since →
            item.1.layers.upper = some upper →
              (verifyRun backend before).SeesAlike item.1 since upper

section Verify

variable
  {backend : DockerBackend} {call : SandboxCall} {since : DiskSnapshot}
  {upper : UpperLayer}

/-- The last walk has each of its paths once. -/
def DockerBackend.Distinct (backend : DockerBackend) : Prop :=
  ∀ snapshot, backend.checkpointSnapshotEntries = some snapshot →
    snapshot.keys.Nodup

/-- A walk fails, skips, or records and is remembered. -/
theorem DockerBackend.captureWalk_cases
    (backend : DockerBackend) (call : SandboxCall)
    (since : Option DiskSnapshot) :
    (∃ failure, backend.captureWalk call since = (.error failure, backend)) ∨
      (∃ snapshot, since = some snapshot ∧
        WalkSkips backend.checkpointSnapshotEntries call.layers.merged ∧
          backend.captureWalk call since = (.ok snapshot, backend)) ∨
      ∃ manifest current blobs,
        (since.isNone = false →
            ¬ WalkSkips backend.checkpointSnapshotEntries
              call.layers.merged) ∧
          WalkManifest backend.checkpointSnapshotEntries since.isNone
            call.layers.merged manifest ∧
          SnapshotOf call.layers.merged current ∧
          backend.captureWalk call since =
            (.ok
              { manifest := some manifest
                incremental :=
                  !(backend.checkpointSnapshotEntries.isNone ||
                    since.isNone)
                timestampNs := call.nowNs },
              { backend with
                checkpointSnapshotEntries := some current
                blobs := blobs }) := by
  have result :=
    runContainerCheckpoint_result call.walk
      backend.checkpointSnapshotEntries since.isNone backend.blobs
  rw [captureWalk.eq_def]
  generalize
    runContainerCheckpoint call.walk backend.checkpointSnapshotEntries
      since.isNone backend.blobs = ran at result
  cases result with
  | error message => exact Or.inl ⟨_, rfl⟩
  | skipped notForced skips =>
      cases since with
      | none => exact Or.inl ⟨_, rfl⟩
      | some snapshot =>
          exact Or.inr (Or.inl ⟨snapshot, rfl, skips, rfl⟩)
  | written changes made isCurrent intact =>
      exact Or.inr (Or.inr ⟨_, _, _, changes, made, isCurrent, rfl⟩)

theorem DockerBackend.captureWalk_distinct
    (distinct : backend.Distinct) (call : SandboxCall)
    (since : Option DiskSnapshot) :
    (backend.captureWalk call since).2.Distinct := by
  rcases backend.captureWalk_cases call since with
    ⟨_, failed⟩ | ⟨_, _, _, skipped⟩ | ⟨_, _, _, _, _, isCurrent, written⟩
  · rw [failed]
    exact distinct
  · rw [skipped]
    exact distinct
  · rw [written]
    rintro snapshot ⟨⟩
    exact isCurrent.distinct

theorem DockerBackend.captureVerified_distinct
    (distinct : backend.Distinct) (call : SandboxCall)
    (incrementalSince : Option DiskSnapshot) :
    (backend.captureVerified call incrementalSince).2.Distinct := by
  rw [captureVerified]
  cases backend.effectiveSince incrementalSince with
  | none => exact distinct
  | some since =>
      have kept : (backend.captureBoth call since).2.Distinct :=
        captureWalk_distinct distinct call (some since)
      dsimp only
      rcases captured : backend.captureBoth call since with
        ⟨failure | ⟨walk, overlay⟩, after⟩
      · rw [captured] at kept
        exact kept
      · rw [captured] at kept
        exact kept

/-- What two captures that both succeed have recorded. -/
theorem DockerBackend.captureBoth_cases
    {walk overlay : DiskSnapshot}
    (captured : (backend.captureBoth call since).1 = .ok (walk, overlay)) :
    (∃ upper manifest blobs,
      call.layers.upper = some upper ∧
        overlay.manifest = some manifest ∧
          OverlayManifest upper (some since.timestampNs) blobs manifest) ∧
      ((walk = since ∧
          WalkSkips backend.checkpointSnapshotEntries
            call.layers.merged) ∨
        ∃ manifest, walk.manifest = some manifest ∧
          ¬ WalkSkips backend.checkpointSnapshotEntries
            call.layers.merged ∧
          WalkManifest backend.checkpointSnapshotEntries false
            call.layers.merged manifest) := by
  rw [captureBoth] at captured
  rcases walked : backend.captureWalk call (some since) with
    ⟨failure | walkSnapshot, between⟩
  · rw [walked] at captured
    cases captured
  rcases captureds : between.captureUpper call (some since) with
    ⟨failure | overlaySnapshot, after⟩
  · rw [walked] at captured
    dsimp only at captured
    rw [captureds] at captured
    cases captured
  rw [walked] at captured
  dsimp only at captured
  rw [captureds] at captured
  cases captured
  constructor
  · rw [captureUpper] at captureds
    rcases upperCaptured :
        captureOverlay call.overlay (some since) between.blobs with
      ⟨failure | snapshot, blobs⟩
    · rw [upperCaptured] at captureds
      cases captureds
    · rw [upperCaptured] at captureds
      cases captureds
      obtain ⟨upper, manifest, hasUpper, rfl, made⟩ :=
        captureOverlay_recorded upperCaptured
      exact ⟨upper, manifest, blobs, hasUpper, rfl, made⟩
  · rcases backend.captureWalk_cases call (some since) with
      ⟨_, failed⟩ | ⟨snapshot, same, skips, skipped⟩ |
      ⟨manifest, _, _, changes, made, _, written⟩
    · rw [walked] at failed
      cases failed
    · rw [walked] at skipped
      cases skipped
      cases same
      exact Or.inl ⟨rfl, skips⟩
    · rw [walked] at written
      cases written
      exact Or.inr ⟨manifest, rfl, changes rfl, made⟩

/-- The manifest of a walk that sees alike matches the upper layer. -/
theorem WalkManifest.matchesUpper
    {manifest : Manifest}
    (made :
      WalkManifest backend.checkpointSnapshotEntries false
        call.layers.merged manifest)
    (distinct : backend.Distinct)
    (hasUpper : call.layers.upper = some upper)
    (recorded :
      ∀ path,
        Records (backend.checkpointSnapshotEntries.getD Dict.empty)
            call.layers.merged path ∧ ".git" ∉ path ↔
          upper.Recorded (some since.timestampNs) path)
    (deleted :
      ∀ path,
        WalkDeletes backend.checkpointSnapshotEntries call.layers.merged
            path ↔
          upper.Deleted (some since.timestampNs) path) :
    MatchesUpper upper (some since.timestampNs) manifest where
  recorded path isRecorded := by
    have records := (recorded path).mpr isRecorded
    rw [made.entries.recorded path records, actualEntryAt]
    have entries : call.layers.merged.entries path = upper.entries path := by
      rw [Layers.merged, hasUpper]
      exact UpperLayer.merged_entries isRecorded.1
    have value :
        (manifestEntryAt call.layers.merged (fun _ => none) path).bind
            entryValue = upper.entries path := by
      rw [manifestEntryAt_value (fun _ _ _ => rfl), ← entries,
        Tree.entries_of_not_skipped _ records.2]
    obtain ⟨hasValue, isValue⟩ := Option.isSome_iff_exists.mp isRecorded.1
    rw [isValue] at value ⊢
    obtain ⟨entry, present, valueIs⟩ := Option.bind_eq_some_iff.mp value
    rw [present, Option.map_some, Option.map_some,
      normalizedEntry_of_value valueIs]
  notRecorded path notRecorded :=
    made.entries.others path fun records =>
      notRecorded ((recorded path).mp records)
  deletedPaths path := by rw [made.deletedPaths, deleted]
  distinct := made.distinct distinct

/-- Where both see alike, the comparison reports nothing. -/
theorem DockerBackend.SeesAlike.comparesEqual
    {walk overlay : DiskSnapshot}
    (alike : backend.SeesAlike call since upper)
    (distinct : backend.Distinct)
    (hasUpper : call.layers.upper = some upper)
    (captured : (backend.captureBoth call since).1 = .ok (walk, overlay)) :
    checkpointManifestDifferences walk overlay = .ok .none := by
  obtain ⟨⟨other, overlayManifest, blobs, hasOther, isOverlay, made⟩,
    walked⟩ := captureBoth_cases captured
  rw [hasUpper] at hasOther
  cases hasOther
  rw [checkpointManifestDifferences.eq_def, isOverlay]
  by_cases skips :
      WalkSkips backend.checkpointSnapshotEntries call.layers.merged
  · obtain ⟨manifest, hasManifest, isMatch⟩ := alike.skipped skips
    rcases walked with ⟨rfl, _⟩ | ⟨_, _, changes, _⟩
    · rw [hasManifest]
      exact congrArg Except.ok (isMatch.differences made.matchesUpper)
    · exact (changes skips).elim
  · rcases walked with ⟨_, skipped⟩ | ⟨walkManifest, isWalk, _, walkMade⟩
    · exact (skips skipped).elim
    · rw [isWalk]
      exact congrArg Except.ok
        ((walkMade.matchesUpper distinct hasUpper (alike.recorded skips)
          (alike.deleted skips)).differences made.matchesUpper)

theorem verifyRun_distinct
    (distinct : backend.Distinct) (history : VerifyHistory) :
    (verifyRun backend history).Distinct := by
  induction history generalizing backend with
  | nil => exact distinct
  | cons item rest induction =>
      exact induction
        (DockerBackend.captureVerified_distinct distinct item.1 item.2)

theorem verify_no_false_alarm
    (markerNs : Option Int) (blobs : BlobStore) (history : VerifyHistory)
    (alike : ChangesAlike (DockerBackend.start markerNs blobs) history) :
    NoFalseAlarm (DockerBackend.start markerNs blobs) history := by
  intro before after item split since walk overlay isSince captured
  have distinct : (DockerBackend.start markerNs blobs).Distinct := by
    intro snapshot impossible
    cases impossible
  obtain ⟨⟨upper, _, _, hasUpper, _⟩, _⟩ :=
    DockerBackend.captureBoth_cases captured
  exact (alike before after item split since upper isSince
    hasUpper).comparesEqual (verifyRun_distinct distinct before) hasUpper
      captured

end Verify

/-! ## A lower file at the first capture -/

/-- Every file has an inode of its own. -/
def HardLinks.single (tree : Tree) : HardLinks tree where
  inode path := tree.paths.idxOf path
  linked path other data otherData isFile otherFile same := by
    have listed : path ∈ tree.paths :=
      (tree.mem_paths path).mpr (by rw [isFile]; rfl)
    have equal := (List.idxOf_inj listed).mp same
    subst equal
    rw [isFile] at otherFile
    cases otherFile
    exact ⟨rfl, rfl⟩

/-- A capture of two layers, all clocks at one time. -/
def sandboxCall (lower : Tree) (upper : UpperLayer) (nowNs : Int) :
    SandboxCall where
  layers := ⟨lower, some upper, fun _ => false⟩
  links := HardLinks.single _
  nowNs := nowNs
  markerBeforeNs := nowNs

instance (previous : CheckpointSnapshot) (tree : Tree) (path : RelPath) :
    Decidable (Records previous tree path) :=
  inferInstanceAs (Decidable (_ ∧ _))

theorem firstUpper_plain (path : RelPath) :
    firstUpper.deletes path = false := by
  by_contra deleted
  obtain ⟨front, name, _, special, _⟩ :=
    UpperLayer.deletes_iff (Bool.not_eq_false _ ▸ deleted)
  obtain ⟨item, member, _, isSpecial⟩ := mem_of_objectAt (by simp) special
  simp only [fileItem, List.mem_singleton] at member
  rw [member] at isSpecial
  cases isSpecial

theorem verify_no_false_alarm_fresh :
    NoFalseAlarm (DockerBackend.start (some 1) fun _ => none)
      [(sandboxCall emptyLower firstUpper 5, none)] := by
  apply verify_no_false_alarm
  intro before after item split since upper isSince hasUpper
  rcases before with _ | ⟨first, rest⟩
  · cases split
    cases isSince
    cases hasUpper
    constructor
    · rintro ⟨hasPrevious, _⟩
      cases hasPrevious
    · intro _ path
      have check :
          ∀ path ∈ (overlayCall emptyLower firstUpper 5).layers.merged.paths,
            (Records Dict.empty
                (overlayCall emptyLower firstUpper 5).layers.merged path ∧
              ".git" ∉ path ↔
              firstUpper.Recorded (some 1) path) := by
        decide +kernel
      constructor
      · intro records
        exact (check path ((Tree.mem_paths _ path).mpr
          records.1.1.2.1)).mp records
      · intro recorded
        apply (check path (Tree.mem_paths_of_entry _)).mpr recorded
        change ((firstUpper.mergedTree emptyLower _).entries path).isSome
        rw [UpperLayer.merged_entries recorded.1]
        exact recorded.1
    · intro _ path
      constructor
      · rintro ⟨_, _, _, impossible, _⟩
        cases impossible
      · rintro ⟨_, deleted, _⟩
        rw [firstUpper_plain] at deleted
        cases deleted
  · simp at split

/-- The first walk records the file of the lower layer. -/
theorem verify_alarms_on_lower :
    ¬ NoFalseAlarm (DockerBackend.start (some 1) fun _ => none)
      [(sandboxCall imageLower firstUpper 5, none)] := by
  intro equal
  have reported :
      ((DockerBackend.start (some 1) fun _ => none).captureBoth
        (sandboxCall imageLower firstUpper 5)
        ⟨none, false, 1⟩).1.toOption.bind
          (fun both =>
            (checkpointManifestDifferences both.1 both.2).toOption) =
        some ⟨[["kept"]], [], [], none⟩ := by
    decide +kernel
  obtain ⟨⟨walk, overlay⟩, captured, compared⟩ :=
    Option.bind_eq_some_iff.mp reported
  cases both :
      ((DockerBackend.start (some 1) fun _ => none).captureBoth
        (sandboxCall imageLower firstUpper 5) ⟨none, false, 1⟩).1 with
  | error failure =>
      rw [both] at captured
      cases captured
  | ok found =>
      rw [both] at captured
      cases captured
      rw [equal [] [] _ rfl ⟨none, false, 1⟩ walk overlay rfl both]
        at compared
      cases compared

end AgentSchedBench.Checkpoint
