import AgentSchedBench.Checkpoint.Restore
import AgentSchedBench.Checkpoint.SandboxBackends

/-!
# The replay's own snapshot

At a boundary the replay captures a snapshot of its sandbox and compares its
entries with the folded ones of the source.  An incremental snapshot is merged
with `prev_cas_manifest`, the entries that the last capture left.

The replay never says what its captures are relative to.  A walk is then full
and an overlay capture reads the whole upper layer; a verified capture is
relative to the last walk, whatever became of the entries of that one.
`SyncStatus` follows whether they are still those of the last walk.
-/

namespace AgentSchedBench.Checkpoint

open FileSystem

/-! ## Capturing -/

inductive CheckpointBackend where
  | walk
  | overlay
  | verify
deriving DecidableEq, Repr

/-- `DockerBackend.capture_snapshot`. -/
def DockerBackend.captureSnapshot
    (kind : CheckpointBackend) (backend : DockerBackend) (call : SandboxCall)
    (incrementalSince : Option DiskSnapshot) :
    Except CaptureError DiskSnapshot × DockerBackend :=
  match kind with
  | .walk => backend.captureWalk call incrementalSince
  | .overlay => backend.captureUpper call incrementalSince
  | .verify => backend.captureVerified call incrementalSince

/-- The `ValueError`s of `_sandbox_snapshot_entries_to_cas_entries`. -/
inductive SnapshotEntryError where
  | notDict
  | symlinkTargetMissing
  | unsupportedEntryType
  | hashMissing
deriving DecidableEq, Repr

/-- The body of its loop on one entry. -/
def sandboxSnapshotEntry :
    ManifestEntry → Except SnapshotEntryError CasManifestValue
  | .notDict => .error .notDict
  | .symlink none => .error .symlinkTargetMissing
  | .symlink (some target) => .ok (.symlink target)
  | .unknownType => .error .unsupportedEntryType
  | .file none _ _ _ => .error .hashMissing
  | .file (some hash) mode _ _ => .ok (.file hash (mode.map sIMode))

def sandboxEntryOf (manifest : Manifest) (relpath : RelPath) :
    Except SnapshotEntryError (Option CasManifestValue) :=
  match manifest.entries.get relpath with
  | none => .ok none
  | some entry => (sandboxSnapshotEntry entry).map some

/-- `_sandbox_snapshot_entries_to_cas_entries`. -/
def sandboxSnapshotEntriesToCasEntries (manifest : Manifest) :
    Except SnapshotEntryError CasManifestEntries :=
  manifest.entries.keys.foldlM (Dict.collect (sandboxEntryOf manifest))
    Dict.empty

/-- The entries of a snapshot, merged into the previous ones. -/
def mergedReplayEntries
    (snapshot : DiskSnapshot) (previousManifest : Option CasManifestEntries) :
    Option CasManifestEntries :=
  match snapshot.manifest with
  | none => none
  | some manifest =>
      match sandboxSnapshotEntriesToCasEntries manifest with
      | .error _ => none
      | .ok replayEntries =>
          match snapshot.incremental, previousManifest with
          | true, some previous =>
              some ((manifest.deletedPaths.foldl Dict.pop previous).update
                replayEntries)
          | _, _ => some replayEntries

/-- `_capture_replay_snapshot_manifest_diagnostic`; no entries on failure. -/
def captureReplaySnapshot
    (kind : CheckpointBackend) (backend : DockerBackend) (call : SandboxCall)
    (previousManifest : Option CasManifestEntries) :
    Option CasManifestEntries × DockerBackend :=
  match backend.captureSnapshot kind call none with
  | (.error _, after) => (none, after)
  | (.ok snapshot, after) =>
      (mergedReplayEntries snapshot previousManifest, after)

/-! ## The captures of a replay -/

/-- Are the previous entries those of the last walk? -/
inductive SyncStatus where
  | fresh
  | inStep
  | behind
deriving DecidableEq, Repr

/-- Does the capture make a walk that is remembered? -/
def DockerBackend.walks
    (kind : CheckpointBackend) (backend : DockerBackend)
    (call : SandboxCall) : Bool :=
  match kind with
  | .overlay => false
  | .walk =>
      match
          runContainerCheckpoint call.walk backend.checkpointSnapshotEntries
            true backend.blobs with
      | .written .. => true
      | _ => false
  | .verify =>
      backend.checkpointStartMarkerNs.isSome &&
        match
            runContainerCheckpoint call.walk
              backend.checkpointSnapshotEntries false backend.blobs with
        | .written .. => true
        | _ => false

/-- The backend and `prev_cas_manifest`, with the tree walked last. -/
structure ReplayCaptures where
  backend : DockerBackend
  prevCasManifest : Option CasManifestEntries
  walked : Option Tree
  status : SyncStatus

def ReplayCaptures.start (markerNs : Option Int) (blobs : BlobStore) :
    ReplayCaptures where
  backend := DockerBackend.start markerNs blobs
  prevCasManifest := none
  walked := none
  status := .fresh

/--
What a replay does with its captures: a comparison at a boundary, a reset
after a restore, the capture that verifies a restore, and the one before
actions are applied again, whose entries are dropped.
-/
inductive ReplayEvent where
  | boundary (call : SandboxCall)
  | reset
  | verification (call : SandboxCall)
  | preReapply (call : SandboxCall)

def SyncStatus.reset : SyncStatus → SyncStatus
  | .fresh => .fresh
  | _ => .behind

/-- After a capture that was given the previous entries. -/
def SyncStatus.captured (status : SyncStatus) (walks kept : Bool) :
    SyncStatus :=
  if !walks then status
  else if kept && status ≠ .behind then .inStep
  else .behind

namespace ReplayCaptures

variable (kind : CheckpointBackend)

/-- The capture of an event, and what it leaves of the backend. -/
def capture
    (state : ReplayCaptures) (call : SandboxCall)
    (previousManifest : Option CasManifestEntries) :
    Option CasManifestEntries × ReplayCaptures :=
  let result :=
    captureReplaySnapshot kind state.backend call previousManifest
  (result.1,
    { state with
      backend := result.2
      walked :=
        if state.backend.walks kind call then some call.layers.merged
        else state.walked })

def step (state : ReplayCaptures) : ReplayEvent → ReplayCaptures
  | .boundary call =>
      let (entries, next) := state.capture kind call state.prevCasManifest
      { next with
        prevCasManifest := entries.or state.prevCasManifest
        status :=
          state.status.captured (state.backend.walks kind call)
            entries.isSome }
  | .reset =>
      { state with prevCasManifest := none, status := state.status.reset }
  | .verification call =>
      let (entries, next) := state.capture kind call none
      { next with
        prevCasManifest := entries
        status :=
          state.status.reset.captured (state.backend.walks kind call)
            entries.isSome }
  | .preReapply call =>
      let (_, next) := state.capture kind call none
      { next with
        status :=
          state.status.captured (state.backend.walks kind call) false }

def run (state : ReplayCaptures) (events : List ReplayEvent) :
    ReplayCaptures :=
  events.foldl (step kind) state

end ReplayCaptures

/-- The entries are those of all files and links outside `.git`. -/
def WholeTree (tree : Tree) (entries : CasManifestEntries) : Prop :=
  ∀ path, entries.get path = tree.entries path

/-- At each boundary the replay compares the whole tree. -/
def ComparesWholeTree
    (kind : CheckpointBackend) (start : ReplayCaptures)
    (events : List ReplayEvent) : Prop :=
  ∀ (before after : List ReplayEvent) (call : SandboxCall),
    events = before ++ .boundary call :: after →
      ∀ entries,
        ((start.run kind before).capture kind call
          (start.run kind before).prevCasManifest).1 = some entries →
          WholeTree call.layers.merged entries

/-- Content and mode of a file change with its size or time only. -/
def FingerprintsTell (previous tree : Tree) : Prop :=
  ∀ path, ".git" ∉ path → ∀ old new,
    previous.get path = some (.file old) →
      tree.get path = some (.file new) →
        previous.stat path = tree.stat path →
          objectValue (.file old) = objectValue (.file new)

/--
A walk always sees the whole tree; the overlay does if all of it is in the
upper layer; a verified capture does if the previous entries are those of the
last walk and the fingerprints tell what changed since.
-/
def ReplayCaptures.SeesWhole
    (kind : CheckpointBackend) (state : ReplayCaptures)
    (call : SandboxCall) : Prop :=
  match kind with
  | .walk => True
  | .overlay =>
      ∀ upper, call.layers.upper = some upper →
        ∀ path, (call.layers.merged.entries path).isSome →
          (upper.entries path).isSome
  | .verify =>
      state.status ≠ .behind ∧
        ∀ tree, state.walked = some tree →
          FingerprintsTell tree call.layers.merged

/-- Each boundary of the run sees the whole tree. -/
def RunSeesWhole
    (kind : CheckpointBackend) (start : ReplayCaptures)
    (events : List ReplayEvent) : Prop :=
  ∀ (before after : List ReplayEvent) (call : SandboxCall),
    events = before ++ .boundary call :: after →
      (start.run kind before).SeesWhole kind call

/-! ## The entries of one manifest -/

section Entries

variable {manifest : Manifest} {entries : CasManifestEntries}

theorem sandboxSnapshotEntry_value
    {entry : ManifestEntry} {value : CasManifestValue}
    (converted : sandboxSnapshotEntry entry = .ok value) :
    entryValue entry = some value := by
  rcases entry with ⟨_ | hash, mode, size, mtimeNs⟩ | ⟨_ | target⟩ | _ | _
  · cases converted
  · cases converted
    rfl
  · cases converted
  · cases converted
    rfl
  · cases converted
  · cases converted

/-- The converted entries are what the manifest says. -/
theorem sandboxEntries_get
    (converted :
      sandboxSnapshotEntriesToCasEntries manifest = .ok entries)
    (path : RelPath) :
    entries.get path = (manifest.entries.get path).bind entryValue := by
  obtain ⟨listed, unlisted⟩ :=
    Dict.get_foldlM_collect (sandboxEntryOf manifest) _ converted path
  rw [manifest.entries.mem_keys] at listed unlisted
  cases found : manifest.entries.get path with
  | none =>
      rw [found] at unlisted
      exact unlisted (by simp)
  | some entry =>
      rw [found] at listed
      have isEntry := listed rfl
      rw [sandboxEntryOf, found] at isEntry
      dsimp only at isEntry
      cases isValue : sandboxSnapshotEntry entry with
      | error failure =>
          rw [isValue] at isEntry
          cases isEntry
      | ok value =>
          rw [isValue] at isEntry
          rw [Option.bind_some, sandboxSnapshotEntry_value isValue]
          exact (Except.ok.inj isEntry).symm

/-- A full manifest is taken as it is. -/
theorem mergedReplayEntries_full
    {snapshot : DiskSnapshot} {previous : Option CasManifestEntries}
    (hasManifest : snapshot.manifest = some manifest)
    (full : snapshot.incremental = false)
    (merged : mergedReplayEntries snapshot previous = some entries)
    (path : RelPath) :
    entries.get path = (manifest.entries.get path).bind entryValue := by
  rw [mergedReplayEntries, hasManifest, full] at merged
  dsimp only at merged
  cases converted : sandboxSnapshotEntriesToCasEntries manifest with
  | error failure =>
      rw [converted] at merged
      cases merged
  | ok replayEntries =>
      rw [converted] at merged
      cases merged
      exact sandboxEntries_get converted path

/-- An incremental manifest is applied to the previous entries. -/
theorem mergedReplayEntries_incremental
    {snapshot : DiskSnapshot} {previous : CasManifestEntries}
    (hasManifest : snapshot.manifest = some manifest)
    (incremental : snapshot.incremental = true)
    (merged : mergedReplayEntries snapshot (some previous) = some entries)
    (path : RelPath) :
    entries.get path = applyManifest manifest previous.get path := by
  rw [mergedReplayEntries, hasManifest, incremental] at merged
  dsimp only at merged
  cases converted : sandboxSnapshotEntriesToCasEntries manifest with
  | error failure =>
      rw [converted] at merged
      cases merged
  | ok replayEntries =>
      rw [converted] at merged
      cases merged
      rw [Dict.get_update, Dict.get_foldl_pop,
        sandboxEntries_get converted, applyManifest]
      congr

end Entries

/-! ## What one capture sees -/

section Walk

variable
  {last tree : Tree} {snapshot : CheckpointSnapshot}
  {manifest : Manifest} {path : RelPath}

theorem walkEntry_of_outside
    (nonempty : path ≠ []) (outside : ".git" ∉ path) :
    walkEntry tree path = scriptEntry tree path := by
  rw [walkEntry]
  split
  · rfl
  · next notCaptured =>
      rw [captured_of_outside tree nonempty outside,
        Option.not_isSome_iff_eq_none] at notCaptured
      rw [scriptEntry, notCaptured]

/-- The recorded entry of a path is that of the tree. -/
theorem actualEntryAt_value (outside : ".git" ∉ path) :
    (actualEntryAt tree path).bind entryValue = tree.entries path := by
  rw [actualEntryAt, manifestEntryAt_value (fun _ _ _ => rfl),
    tree.entries_of_not_skipped outside]

/-- A file or link outside `.git`, as a walk finds it. -/
theorem walkEntry_of_value
    {value : CasManifestValue} (hasValue : tree.entries path = some value) :
    ∃ object, tree.get path = some object ∧ objectValue object = some value ∧
      tree.Captured path ∧
      walkEntry tree path =
        some ⟨checkpointEntryType object, some (tree.stat path)⟩ := by
  have outside : ".git" ∉ path := by
    intro inside
    rw [tree.entries_of_inside inside] at hasValue
    cases hasValue
  rw [tree.entries_of_not_skipped outside] at hasValue
  obtain ⟨object, present, isValue⟩ := Option.bind_eq_some_iff.mp hasValue
  have nonempty : path ≠ [] := by
    rintro rfl
    rw [tree.root_dir] at present
    cases present
    cases isValue
  have captured : tree.Captured path := by
    rw [captured_of_outside tree nonempty outside, present]
    rfl
  refine ⟨object, present, isValue, captured, ?_⟩
  rw [walkEntry, if_pos captured, scriptEntry, present]
  cases object with
  | special => cases isValue
  | dir => cases isValue
  | file data => rfl
  | symlink target => rfl

/-- What was walked with the type of a file or link has a value. -/
theorem value_of_walkEntry
    {entry : CheckpointSnapshotEntry} (object : Object FileData)
    (outside : ".git" ∉ path) (walked : walkEntry tree path = some entry)
    (sameType : entry.entryType = checkpointEntryType object)
    (hasValue : (objectValue object).isSome) :
    (tree.entries path).isSome := by
  rw [tree.entries_of_not_skipped outside]
  rw [walkEntry] at walked
  split at walked
  · rw [scriptEntry] at walked
    rcases present : tree.get path with _ | data | target | _ | _ <;>
      rw [present] at walked
    · cases walked
    · rfl
    · rfl
    · cases walked
      cases object with
      | special => cases hasValue
      | dir => cases hasValue
      | file data => cases sameType
      | symlink target => cases sameType
    · cases walked
  · cases walked

/-- A file or link that is not recorded was walked alike before. -/
theorem snapshot_of_not_records
    {object : Object FileData} (captured : tree.Captured path)
    (present : tree.get path = some object)
    (hasValue : (objectValue object).isSome)
    (same : ¬ Records snapshot tree path) :
    snapshot.get path =
      some ⟨checkpointEntryType object, some (tree.stat path)⟩ := by
  have unchanged :
      entryChanged snapshot path
        ⟨checkpointEntryType object, some (tree.stat path)⟩ = false := by
    by_contra changed
    rw [Bool.not_eq_false] at changed
    apply same
    refine ⟨captured, ?_⟩
    rw [changedValue, present]
    cases object with
    | file data =>
        rw [checkpointEntryType] at changed
        simp [changed]
    | symlink target =>
        rw [checkpointEntryType] at changed
        simp [changed]
    | dir => cases hasValue
    | special => cases hasValue
  rw [entryChanged] at unchanged
  cases before : snapshot.get path with
  | none =>
      rw [before] at unchanged
      cases unchanged
  | some old =>
      obtain ⟨oldType, oldStat⟩ := old
      rw [before] at unchanged
      dsimp only at unchanged
      split at unchanged
      · cases unchanged
      · next sameType =>
          cases oldStat with
          | none => cases unchanged
          | some oldStat =>
              rw [ne_eq, not_not] at sameType
              have sameStat : oldStat = tree.stat path := by
                simpa using unchanged
              rw [sameType, sameStat]

/-- What is not recorded again had its value, and still has. -/
theorem entries_of_not_records
    {value : CasManifestValue} (isLast : SnapshotOf last snapshot)
    (tell : FingerprintsTell last tree)
    (hasValue : tree.entries path = some value)
    (same : ¬ Records snapshot tree path) :
    last.entries path = some value ∧
      ¬ WalkDeletes (some snapshot) tree path := by
  have outside : ".git" ∉ path := by
    intro inside
    rw [tree.entries_of_inside inside] at hasValue
    cases hasValue
  obtain ⟨object, present, isValue, captured, walked⟩ :=
    walkEntry_of_value hasValue
  have before :=
    snapshot_of_not_records captured present (by simp [isValue]) same
  constructor
  · rw [isLast.entries] at before
    have wasSome :=
      value_of_walkEntry object outside before rfl (by simp [isValue])
    obtain ⟨old, hadValue⟩ := Option.isSome_iff_exists.mp wasSome
    obtain ⟨oldObject, wasPresent, wasValue, _, wasWalked⟩ :=
      walkEntry_of_value hadValue
    rw [before] at wasWalked
    have alike := Option.some.inj wasWalked
    rw [hadValue, ← wasValue, ← isValue]
    cases object with
    | file new =>
        cases oldObject with
        | file old =>
            exact tell path outside old new wasPresent present
              (Option.some.inj
                (congrArg CheckpointSnapshotEntry.sizeMtime alike)).symm
        | symlink target => cases alike
        | dir => cases wasValue
        | special => cases wasValue
    | symlink target =>
        cases oldObject with
        | file old => cases alike
        | symlink oldTarget =>
            cases congrArg CheckpointSnapshotEntry.entryType alike
            rfl
        | dir => cases wasValue
        | special => cases wasValue
    | dir => cases isValue
    | special => cases isValue
  · rintro ⟨_, _, old, ⟨⟩, wasOld, differs⟩
    rw [before] at wasOld
    cases wasOld
    exact differs _ walked rfl

/-- What has no value now had none, or is deleted. -/
theorem entries_of_not_deleted
    (isLast : SnapshotOf last snapshot) (outside : ".git" ∉ path)
    (noValue : tree.entries path = none)
    (stays : ¬ WalkDeletes (some snapshot) tree path) :
    last.entries path = none := by
  by_contra hadValue
  obtain ⟨value, hadValue⟩ := Option.ne_none_iff_exists'.mp hadValue
  obtain ⟨object, _, isValue, _, walked⟩ := walkEntry_of_value hadValue
  apply stays
  refine ⟨outside, snapshot, _, rfl, (isLast.entries path).trans walked, ?_⟩
  intro new isNew sameType
  have present :=
    value_of_walkEntry object outside isNew sameType (by simp [isValue])
  rw [noValue] at present
  cases present

/-- The manifest of a walk leads from the entries of the last one on. -/
theorem applyManifest_walk
    (isLast : SnapshotOf last snapshot)
    (made : WalkManifest (some snapshot) false tree manifest)
    (tell : FingerprintsTell last tree) :
    applyManifest manifest last.entries = tree.entries := by
  funext path
  rw [applyManifest]
  by_cases inside : ".git" ∈ path
  · rw [made.entries.others path fun both => both.2 inside,
      tree.entries_of_inside inside, last.entries_of_inside inside, ite_self]
    rfl
  have deleted := made.deletedPaths path
  cases value : tree.entries path with
  | some value =>
      by_cases records : Records snapshot tree path
      · rw [made.entries.recorded path ⟨records, inside⟩,
          actualEntryAt_value inside, value]
        rfl
      · obtain ⟨hadValue, stays⟩ :=
          entries_of_not_records isLast tell value records
        rw [made.entries.others path fun both => records both.1,
          if_neg (mt deleted.mp stays), hadValue]
        rfl
  | none =>
      have noEntry :
          (manifest.entries.get path).bind entryValue = none := by
        by_cases records : Records snapshot tree path
        · rw [made.entries.recorded path ⟨records, inside⟩,
            actualEntryAt_value inside, value]
        · rw [made.entries.others path fun both => records both.1]
          rfl
      rw [noEntry, Option.none_or]
      split
      · rfl
      · next stays =>
          exact entries_of_not_deleted isLast inside value
            (mt deleted.mpr stays)

/-- A walk relative to nothing has every file and link. -/
theorem entries_of_full_walk
    (made :
      ManifestOf
        (fun path => Records Dict.empty tree path ∧ ".git" ∉ path)
        (actualEntryAt tree) manifest)
    (path : RelPath) :
    (manifest.entries.get path).bind entryValue = tree.entries path := by
  by_cases inside : ".git" ∈ path
  · rw [made.others path fun both => both.2 inside,
      tree.entries_of_inside inside]
    rfl
  by_cases recorded : Records Dict.empty tree path
  · rw [made.recorded path ⟨recorded, inside⟩, actualEntryAt_value inside]
  · rw [made.others path fun both => recorded both.1]
    symm
    by_contra hasValue
    obtain ⟨value, hasValue⟩ := Option.ne_none_iff_exists'.mp hasValue
    obtain ⟨object, present, isValue, captured, _⟩ :=
      walkEntry_of_value hasValue
    have before :=
      snapshot_of_not_records captured present (by simp [isValue]) recorded
    cases before

/-- The whole tree is in the upper layer, and so in its manifest. -/
theorem entries_of_whole_upper
    {upper : UpperLayer} {lower : Tree} {linkToDir : RelPath → Bool}
    {blobs : BlobStore} (made : OverlayManifest upper none blobs manifest)
    (whole :
      ∀ path, ((upper.mergedTree lower linkToDir).entries path).isSome →
        (upper.entries path).isSome)
    (path : RelPath) :
    (manifest.entries.get path).bind entryValue =
      (upper.mergedTree lower linkToDir).entries path := by
  by_cases hasEntry : (upper.entries path).isSome
  · obtain ⟨entry, present, isValue⟩ := made.recorded path ⟨hasEntry, rfl⟩
    rw [present, Option.bind_some, isValue,
      UpperLayer.merged_entries hasEntry]
  · rw [made.notRecorded path fun recorded => hasEntry recorded.1]
    symm
    exact Option.not_isSome_iff_eq_none.mp (mt (whole path) hasEntry)

end Walk

/-! ## Verified captures -/

section Verified

variable
  {backend : DockerBackend} {call : SandboxCall}
  {previous : Option CasManifestEntries}

theorem captureUpper_entries
    (backend : DockerBackend) (call : SandboxCall)
    (since : Option DiskSnapshot) :
    (backend.captureUpper call since).2.checkpointSnapshotEntries =
      backend.checkpointSnapshotEntries := rfl

/-- A verified capture returns what its walk has captured, or fails. -/
theorem captureVerified_of_both
    (call : SandboxCall) {incrementalSince : Option DiskSnapshot} {since : DiskSnapshot}
    (isSince : backend.effectiveSince incrementalSince = some since) :
    (backend.captureVerified call incrementalSince).2 =
        (backend.captureBoth call since).2 ∧
      ∀ snapshot,
        (backend.captureVerified call incrementalSince).1 = .ok snapshot →
          (∃ manifest, snapshot.manifest = some manifest) ∧
            ∃ overlay,
              (backend.captureBoth call since).1 =
                .ok (snapshot, overlay) := by
  rw [DockerBackend.captureVerified, isSince]
  dsimp only
  rcases backend.captureBoth call since with
    ⟨failure | ⟨walk, overlay⟩, after⟩
  · exact ⟨rfl, by rintro _ ⟨⟩⟩
  · refine ⟨rfl, ?_⟩
    intro snapshot verified
    dsimp only at verified
    rw [checkpointManifestDifferences.eq_def] at verified
    cases hasWalk : walk.manifest with
    | none =>
        rw [hasWalk] at verified
        cases verified
    | some manifest =>
        cases hasOverlay : overlay.manifest with
        | none =>
            rw [hasWalk, hasOverlay] at verified
            cases verified
        | some other =>
            rw [hasWalk, hasOverlay] at verified
            dsimp only [bind, Except.bind] at verified
            by_cases differs : manifestDifferences manifest other ≠ .none
            · rw [if_pos differs] at verified
              cases verified
            · rw [if_neg differs] at verified
              cases verified
              exact ⟨⟨manifest, hasWalk⟩, overlay, rfl⟩

/-- Both captures go ahead, and the walk is kept in either case. -/
theorem captureBoth_of_walk
    (backend : DockerBackend) (call : SandboxCall) (since : DiskSnapshot) :
    (backend.captureBoth call since).2.checkpointSnapshotEntries =
        (backend.captureWalk call (some since)).2.checkpointSnapshotEntries ∧
      ∀ walk overlay,
        (backend.captureBoth call since).1 = .ok (walk, overlay) →
          (backend.captureWalk call (some since)).1 = .ok walk := by
  rw [DockerBackend.captureBoth]
  rcases backend.captureWalk call (some since) with ⟨outcome, between⟩
  have kept := captureUpper_entries between call (some since)
  rcases captured : between.captureUpper call (some since) with
    ⟨other, after⟩
  dsimp only
  rw [captured]
  rw [captured] at kept
  refine ⟨kept, ?_⟩
  intro walk overlay both
  cases outcome with
  | error failure => cases both
  | ok found =>
      cases other with
      | error failure => cases both
      | ok otherFound =>
          cases both
          rfl

/-- A verified capture that walks returns the walk, or nothing. -/
theorem captureReplay_verify
    (backend : DockerBackend) (call : SandboxCall)
    (previous : Option CasManifestEntries) :
    (backend.walks .verify call = false ∧
      (captureReplaySnapshot .verify backend call previous).1 = none ∧
      (captureReplaySnapshot .verify backend call
          previous).2.checkpointSnapshotEntries =
        backend.checkpointSnapshotEntries) ∨
    (backend.walks .verify call = true ∧
      ∃ manifest current,
        WalkManifest backend.checkpointSnapshotEntries false
          call.layers.merged manifest ∧
        SnapshotOf call.layers.merged current ∧
        (captureReplaySnapshot .verify backend call
          previous).2.checkpointSnapshotEntries = some current ∧
        ∀ entries,
          (captureReplaySnapshot .verify backend call previous).1 =
              some entries →
            mergedReplayEntries
                ⟨some manifest, backend.checkpointSnapshotEntries.isSome,
                  call.nowNs⟩ previous = some entries) := by
  rw [captureReplaySnapshot, DockerBackend.captureSnapshot,
    DockerBackend.walks]
  cases started : backend.checkpointStartMarkerNs with
  | none =>
      rw [DockerBackend.captureVerified, DockerBackend.effectiveSince,
        started]
      exact Or.inl ⟨rfl, rfl, rfl⟩
  | some markerNs =>
      have isSince :
          backend.effectiveSince none = some ⟨none, false, markerNs⟩ := by
        rw [DockerBackend.effectiveSince, started]
        rfl
      obtain ⟨after, verified⟩ :=
        captureVerified_of_both call isSince
      obtain ⟨kept, walked⟩ :=
        captureBoth_of_walk backend call ⟨none, false, markerNs⟩
      rw [← after] at kept
      rcases captured : backend.captureVerified call none with
        ⟨outcome, next⟩
      rw [captured] at kept verified
      dsimp only at kept verified ⊢
      have result :=
        runContainerCheckpoint_result call.walk
          backend.checkpointSnapshotEntries false backend.blobs
      rw [DockerBackend.captureWalk, Option.isNone_some] at kept walked
      rw [Option.isSome_some, Bool.true_and]
      generalize
        runContainerCheckpoint call.walk backend.checkpointSnapshotEntries
          false backend.blobs = ran at result kept walked
      cases result with
      | error message =>
          cases outcome with
          | error failure => exact Or.inl ⟨rfl, rfl, kept⟩
          | ok snapshot =>
              obtain ⟨_, overlay, both⟩ := verified snapshot rfl
              cases walked snapshot overlay both
      | skipped notForced skips =>
          cases outcome with
          | error failure => exact Or.inl ⟨rfl, rfl, kept⟩
          | ok snapshot =>
              -- What was skipped has the manifest of a start marker.
              obtain ⟨⟨manifest, hasManifest⟩, overlay, both⟩ :=
                verified snapshot rfl
              cases walked snapshot overlay both
              cases hasManifest
      | written changes made isCurrent intact =>
          refine Or.inr ⟨rfl, _, _, made, isCurrent, ?_⟩
          cases outcome with
          | error failure =>
              exact ⟨kept, by rintro _ ⟨⟩⟩
          | ok snapshot =>
              refine ⟨kept, ?_⟩
              intro entries merged
              obtain ⟨_, overlay, both⟩ := verified snapshot rfl
              cases walked snapshot overlay both
              rw [Bool.or_false, Option.not_isNone] at merged
              exact merged

end Verified

/-! ## Runs -/

namespace SyncStatus

variable (status : SyncStatus) (walks kept : Bool)

theorem captured_fresh :
    status.captured walks kept = .fresh ↔
      walks = false ∧ status = .fresh := by
  cases status <;> cases walks <;> cases kept <;> decide

theorem captured_inStep :
    status.captured walks kept = .inStep ↔
      (walks = false ∧ status = .inStep) ∨
        (walks = true ∧ kept = true ∧ status ≠ .behind) := by
  cases status <;> cases walks <;> cases kept <;> decide

theorem reset_fresh : status.reset = .fresh ↔ status = .fresh := by
  cases status <;> decide

theorem reset_ne_inStep : status.reset ≠ .inStep := by
  cases status <;> decide

end SyncStatus

namespace ReplayCaptures

/-- What the state knows of the tree that was walked last. -/
structure Tracks (state : ReplayCaptures) : Prop where
  walked :
    ∀ snapshot, state.backend.checkpointSnapshotEntries = some snapshot →
      ∃ last, state.walked = some last ∧ SnapshotOf last snapshot
  fresh :
    state.status = .fresh →
      state.backend.checkpointSnapshotEntries = none
  inStep :
    state.status = .inStep →
      ∃ last previous, state.walked = some last ∧
        state.prevCasManifest = some previous ∧ WholeTree last previous

section Run

variable
  (kind : CheckpointBackend) {state : ReplayCaptures} {call : SandboxCall}

theorem tracks_start (markerNs : Option Int) (blobs : BlobStore) :
    (start markerNs blobs).Tracks where
  walked _ impossible := nomatch impossible
  fresh _ := rfl
  inStep impossible := nomatch impossible

/-- A verified capture in step with the last walk has the whole tree. -/
theorem Tracks.whole
    {manifest : Manifest} {entries : CasManifestEntries} {nowNs : Int}
    (tracks : state.Tracks) (notBehind : state.status ≠ .behind)
    (tell :
      state.status = .inStep → ∀ last, state.walked = some last →
        FingerprintsTell last call.layers.merged)
    (made :
      WalkManifest state.backend.checkpointSnapshotEntries false
        call.layers.merged manifest)
    (merged :
      mergedReplayEntries
        ⟨some manifest, state.backend.checkpointSnapshotEntries.isSome,
          nowNs⟩ state.prevCasManifest = some entries) :
    WholeTree call.layers.merged entries := by
  intro path
  cases isBase : state.backend.checkpointSnapshotEntries with
  | none =>
      rw [isBase] at made merged
      rw [mergedReplayEntries_full rfl rfl merged path]
      exact entries_of_full_walk made.entries path
  | some snapshot =>
      have inStep : state.status = .inStep := by
        cases isStatus : state.status with
        | fresh =>
            rw [tracks.fresh isStatus] at isBase
            cases isBase
        | inStep => rfl
        | behind => exact (notBehind isStatus).elim
      obtain ⟨last, previous, isLast, isPrevious, whole⟩ :=
        tracks.inStep inStep
      obtain ⟨other, isOther, snapshotOf⟩ := tracks.walked snapshot isBase
      rw [isLast] at isOther
      cases isOther
      rw [isBase] at made merged
      rw [isPrevious] at merged
      rw [mergedReplayEntries_incremental rfl rfl merged path,
        funext whole,
        applyManifest_walk snapshotOf made (tell inStep last isLast)]

/-- A comparison keeps track of the last walk. -/
theorem Tracks.boundary
    (tracks : state.Tracks)
    (tell :
      state.status = .inStep → ∀ last, state.walked = some last →
        FingerprintsTell last call.layers.merged) :
    (state.step .verify (.boundary call)).Tracks := by
  rw [step, capture]
  dsimp only
  rcases captureReplay_verify state.backend call state.prevCasManifest with
    ⟨notWalks, noEntries, same⟩ |
    ⟨walks, manifest, current, made, isCurrent, isAfter, entriesOf⟩
  · rw [notWalks, noEntries]
    constructor
    · intro snapshot isBase
      rw [same] at isBase
      exact tracks.walked snapshot isBase
    · intro fresh
      rw [same]
      exact tracks.fresh fresh
    · exact tracks.inStep
  · rw [walks]
    constructor
    · intro snapshot isBase
      rw [isAfter] at isBase
      cases isBase
      exact ⟨_, rfl, isCurrent⟩
    · intro fresh
      dsimp only at fresh
      rw [SyncStatus.captured_fresh] at fresh
      cases fresh.1
    · intro inStep
      dsimp only at inStep
      rw [SyncStatus.captured_inStep] at inStep
      rcases inStep with
        ⟨impossible, _⟩ | ⟨_, kept, notBehind⟩
      · cases impossible
      · obtain ⟨entries, isEntries⟩ := Option.isSome_iff_exists.mp kept
        refine ⟨_, entries, rfl, by rw [isEntries]; rfl, ?_⟩
        exact tracks.whole notBehind tell made (entriesOf entries isEntries)

/-- After a reset the walk may be ahead of the previous entries. -/
theorem Tracks.reset (tracks : state.Tracks) :
    (state.step kind .reset).Tracks where
  walked := tracks.walked
  fresh fresh := tracks.fresh ((SyncStatus.reset_fresh _).mp fresh)
  inStep inStep := (SyncStatus.reset_ne_inStep _ inStep).elim

/-- The capture that verifies a restore is a comparison after a reset. -/
theorem step_verification (state : ReplayCaptures) (call : SandboxCall) :
    state.step kind (.verification call) =
      (state.step kind .reset).step kind (.boundary call) := by
  simp only [step, Option.or_none]
  rfl

theorem Tracks.preReapply (tracks : state.Tracks) :
    (state.step .verify (.preReapply call)).Tracks := by
  rw [step, capture]
  dsimp only
  rcases captureReplay_verify state.backend call none with
    ⟨notWalks, _, same⟩ | ⟨walks, _, current, _, isCurrent, isAfter, _⟩
  · rw [notWalks]
    constructor
    · intro snapshot isBase
      rw [same] at isBase
      exact tracks.walked snapshot isBase
    · intro fresh
      rw [same]
      exact tracks.fresh fresh
    · exact tracks.inStep
  · rw [walks]
    constructor
    · intro snapshot isBase
      rw [isAfter] at isBase
      cases isBase
      exact ⟨_, rfl, isCurrent⟩
    · intro fresh
      dsimp only at fresh
      rw [SyncStatus.captured_fresh] at fresh
      cases fresh.1
    · intro inStep
      dsimp only at inStep
      rw [SyncStatus.captured_inStep] at inStep
      rcases inStep with
        ⟨impossible, _⟩ | ⟨_, impossible, _⟩
      · cases impossible
      · cases impossible

theorem Tracks.step
    (tracks : state.Tracks) (event : ReplayEvent)
    (sees : ∀ call, event = .boundary call → state.SeesWhole .verify call) :
    (state.step .verify event).Tracks := by
  cases event with
  | boundary call =>
      exact tracks.boundary fun _ => (sees call rfl).2
  | reset => exact tracks.reset .verify
  | verification call =>
      rw [step_verification]
      apply (tracks.reset .verify).boundary
      intro inStep
      exact (SyncStatus.reset_ne_inStep _ inStep).elim
  | preReapply call => exact tracks.preReapply

theorem Tracks.run
    (tracks : state.Tracks) (events : List ReplayEvent)
    (sees :
      ∀ (before after : List ReplayEvent) (call : SandboxCall),
        events = before ++ .boundary call :: after →
          (state.run .verify before).SeesWhole .verify call) :
    (state.run .verify events).Tracks := by
  induction events generalizing state with
  | nil => exact tracks
  | cons event rest induction =>
      apply induction (tracks.step event ?_)
      · intro before after call split
        exact sees (event :: before) after call (by rw [split]; rfl)
      · rintro call rfl
        exact sees [] rest call rfl

end Run

/-- A walk is full, whatever was captured before. -/
theorem walk_whole
    {state : ReplayCaptures} {call : SandboxCall}
    {previous : Option CasManifestEntries} {entries : CasManifestEntries}
    (captured : (state.capture .walk call previous).1 = some entries) :
    WholeTree call.layers.merged entries := by
  rw [capture, captureReplaySnapshot, DockerBackend.captureSnapshot]
    at captured
  rcases state.backend.captureWalk_cases call none with
    ⟨_, failed⟩ | ⟨_, impossible, _⟩ |
    ⟨manifest, current, blobs, _, made, _, written⟩
  · rw [failed] at captured
    cases captured
  · cases impossible
  · rw [written] at captured
    dsimp only at captured
    intro path
    rw [mergedReplayEntries_full rfl
      (by rw [Option.isNone_none, Bool.or_true, Bool.not_true]) captured path]
    exact entries_of_full_walk made.entries path

/-- The overlay capture has the whole tree when the upper layer has it. -/
theorem overlay_whole
    {state : ReplayCaptures} {call : SandboxCall}
    {previous : Option CasManifestEntries} {entries : CasManifestEntries}
    (whole : state.SeesWhole .overlay call)
    (captured : (state.capture .overlay call previous).1 = some entries) :
    WholeTree call.layers.merged entries := by
  rw [capture, captureReplaySnapshot, DockerBackend.captureSnapshot,
    DockerBackend.captureUpper] at captured
  rcases upperCaptured :
      captureOverlay call.overlay none state.backend.blobs with
    ⟨failure | snapshot, blobs⟩
  · rw [upperCaptured] at captured
    cases captured
  · rw [upperCaptured] at captured
    obtain ⟨upper, manifest, hasUpper, rfl, made⟩ :=
      captureOverlay_recorded upperCaptured
    intro path
    have wholeUpper := whole upper hasUpper
    dsimp only [Except.mapError] at captured
    rw [mergedReplayEntries_full rfl rfl captured path]
    change call.layers.upper = some upper at hasUpper
    rw [Layers.merged, hasUpper] at wholeUpper ⊢
    exact entries_of_whole_upper made wholeUpper path

/-- A verified capture in step with the last walk has the whole tree. -/
theorem verify_whole
    {state : ReplayCaptures} {call : SandboxCall}
    {entries : CasManifestEntries} (tracks : state.Tracks)
    (sees : state.SeesWhole .verify call)
    (captured :
      (state.capture .verify call state.prevCasManifest).1 =
        some entries) :
    WholeTree call.layers.merged entries := by
  rw [capture] at captured
  rcases captureReplay_verify state.backend call state.prevCasManifest with
    ⟨_, noEntries, _⟩ | ⟨_, manifest, current, made, _, _, entriesOf⟩
  · dsimp only at captured
    rw [noEntries] at captured
    cases captured
  · exact tracks.whole sees.1 (fun _ => sees.2) made
      (entriesOf entries captured)

end ReplayCaptures

theorem replay_compares_whole_tree
    (kind : CheckpointBackend) (markerNs : Option Int) (blobs : BlobStore)
    (events : List ReplayEvent)
    (sees : RunSeesWhole kind (ReplayCaptures.start markerNs blobs) events) :
    ComparesWholeTree kind (ReplayCaptures.start markerNs blobs) events := by
  intro before after call split entries captured
  have seesNow := sees before after call split
  cases kind with
  | walk => exact ReplayCaptures.walk_whole captured
  | overlay => exact ReplayCaptures.overlay_whole seesNow captured
  | verify =>
      apply ReplayCaptures.verify_whole _ seesNow captured
      apply (ReplayCaptures.tracks_start markerNs blobs).run
      intro earlier later other isEarlier
      apply sees earlier (later ++ .boundary call :: after)
      rw [split, isEarlier, List.append_assoc, List.cons_append]

/-! ## A file rewritten, and a lower file -/

/-- The file of the first upper layer, written again. -/
def rewrittenUpper : UpperLayer :=
  UpperLayer.ofObjects [fileItem "a" 7] (by decide) (by decide) (by decide)

theorem replay_compares_rewritten :
    ComparesWholeTree .verify (ReplayCaptures.start (some 1) fun _ => none)
      [.boundary (sandboxCall emptyLower firstUpper 5),
        .boundary (sandboxCall emptyLower rewrittenUpper 9)] := by
  apply replay_compares_whole_tree
  have walks :
      (ReplayCaptures.start (some 1) fun _ => none).backend.walks .verify
        (sandboxCall emptyLower firstUpper 5) = true := by
    decide +kernel
  intro before after call split
  rcases before with _ | ⟨first, _ | ⟨second, rest⟩⟩
  · cases split
    exact ⟨nofun, nofun⟩
  · cases split
    constructor
    · decide +kernel
    · intro last isLast path outside old new wasFile isFile sameStat
      have walked :
          last = (sandboxCall emptyLower firstUpper 5).layers.merged := by
        rw [ReplayCaptures.run, List.foldl_cons, List.foldl_nil,
          ReplayCaptures.step, ReplayCaptures.capture] at isLast
        dsimp only at isLast
        rw [if_pos walks] at isLast
        exact (Option.some.inj isLast).symm
      subst walked
      have check :
          ∀ path ∈
              (sandboxCall emptyLower firstUpper 5).layers.merged.paths,
            (sandboxCall emptyLower firstUpper 5).layers.merged.stat path =
                (sandboxCall emptyLower
                  rewrittenUpper 9).layers.merged.stat path →
              isDirectory
                ((sandboxCall emptyLower firstUpper 5).layers.merged.get
                  path) = true := by
        decide +kernel
      have isDir :=
        check path ((Tree.mem_paths _ path).mpr (by simp [wasFile])) sameStat
      rw [wasFile] at isDir
      cases isDir
  · simp at split

/-- The comparison misses the file of the lower layer. -/
theorem replay_misses_lower_file :
    ¬ ComparesWholeTree .overlay (ReplayCaptures.start none fun _ => none)
      [.boundary (sandboxCall imageLower firstUpper 5)] := by
  intro whole
  have missing :
      (((ReplayCaptures.start none fun _ => none).capture .overlay
        (sandboxCall imageLower firstUpper 5) none).1.map fun entries =>
          entries.get ["kept"]) = some none := by
    decide +kernel
  obtain ⟨entries, captured, noEntry⟩ := Option.map_eq_some_iff.mp missing
  have present := whole [] [] _ rfl entries captured ["kept"]
  rw [noEntry] at present
  have hasEntry :
      ((sandboxCall imageLower firstUpper 5).layers.merged.entries
        ["kept"]).isSome = true := by
    decide +kernel
  rw [← present] at hasEntry
  cases hasEntry

end AgentSchedBench.Checkpoint
