import AgentSchedBench.Checkpoint.Difference
import AgentSchedBench.Checkpoint.RestoreSpec

/-!
# The fold and the restore of a chain

`emitChain` is the chain of manifests the collector's difference functions
give for a sequence of trees.  The fold and the restore script interpret it
independently.  The invariant that relates them has two parts: both hold the
same entries, and the restored tree has no object whose type is not the one
the collected tree has at that path.
-/

namespace AgentSchedBench.Checkpoint

open FileSystem

/-! ## Emitting a chain -/

/-- What one checkpoint leaves for the next. -/
structure Emission where
  snapshot : CheckpointSnapshot
  hashCache : HashCache
  blobs : BlobStore

/-- The full manifest of a tree. -/
def emitFull (blobs : BlobStore) (tree : Tree) :
    Except CheckpointError (Manifest × Emission) := do
  let snapshot ← snapshotCheckpointEntries tree
  let (manifest, state) ←
    writeCasManifest tree none [] none (fun _ => none) blobs
  return (manifest, ⟨snapshot, state.hashCache, state.blobs⟩)

/-- The manifest of a tree against the previous snapshot. -/
def emitIncremental (emission : Emission) (tree : Tree) :
    Except CheckpointError (Manifest × Emission) := do
  let snapshot ← snapshotCheckpointEntries tree
  let (manifest, state) ←
    writeCasManifest tree none
      (computeCheckpointDeletedPaths (some emission.snapshot) snapshot)
      (some (computeCheckpointChangedPaths emission.snapshot snapshot))
      emission.hashCache emission.blobs
  return (manifest, ⟨snapshot, state.hashCache, state.blobs⟩)

/-- The incremental manifests of the trees after the first. -/
def emitIncrementals (emission : Emission) :
    List Tree → Except CheckpointError (List Manifest × BlobStore)
  | [] => .ok ([], emission.blobs)
  | tree :: rest => do
      let (manifest, next) ← emitIncremental emission tree
      let (manifests, blobs) ← emitIncrementals next rest
      return (manifest :: manifests, blobs)

/-- The manifests of a sequence of trees and the blob store they fill. -/
def emitChain (blobs : BlobStore) :
    List Tree → Except CheckpointError (List Manifest × BlobStore)
  | [] => .ok ([], blobs)
  | tree :: rest => do
      let (manifest, emission) ← emitFull blobs tree
      let (manifests, blobs) ← emitIncrementals emission rest
      return (manifest :: manifests, blobs)

/-! ## When the two interpreters agree -/

/-- Both interpreters read the chain and find the same entries. -/
def InterpretersAgree
    (blobs : BlobStore) (chain : List Manifest) (fs : Fs FileData) : Prop :=
  ∃ folded restored,
    foldCheckpointChain chain = .ok folded ∧
      restoreCheckpointChain blobs chain fs = .ok restored ∧
      ∀ path, folded.get path = entriesBelow restored restoreRoot path

/-- A link named `.git` that no manifest will list as deleted. -/
def GitLinkLeft (left : RelPath → Prop) (tree : Tree) (path : RelPath) :
    Prop :=
  (∃ target, tree.get path = some (.symlink target)) ∨
    (left path ∧ tree.get path.dropLast = some .dir)

/-- No regular file named `.git` takes the place of a left link. -/
def GitKept (left : RelPath → Prop) (tree : Tree) : Prop :=
  ∀ front, ".git" ∉ front → left (front ++ [".git"]) →
    ∀ data, tree.get (front ++ [".git"]) ≠ some (.file data)

/--
One step of a sequence of trees on which the interpreters agree: no file or
link takes the place of an object of another type, and no regular file named
`.git` takes the place of a left link of that name.
-/
structure StepAgrees
    (left : RelPath → Prop) (previous tree : Tree) : Prop where
  typeKept :
    ∀ path, ".git" ∉ path → ∀ entryType,
      tree.typeAt path = some entryType → entryType ≠ .dir →
        previous.typeAt path = none ∨
          previous.typeAt path = some entryType
  gitKept : GitKept left tree

/-- A sequence of trees all of whose steps agree. -/
def ChainAgrees (left : RelPath → Prop) (previous : Tree) :
    List Tree → Prop
  | [] => True
  | tree :: rest =>
      StepAgrees left previous tree ∧
        ChainAgrees (GitLinkLeft left tree) tree rest

/-! ## Trees that are not in the way -/

/-- Every object below the root has the type the tree has at its path. -/
structure Fits
    (left : RelPath → Prop) (tree : Tree) (fs : Fs FileData) : Prop where
  rootDir : fs.get restoreRoot = some .dir
  typed :
    ∀ path, path ≠ [] → ".git" ∉ path → ∀ object,
      fs.get (restoreRoot ++ path) = some object →
        tree.typeAt path = some (checkpointEntryType object)
  git :
    ∀ front, front ≠ [] → ".git" ∉ front → ∀ object,
      fs.get (restoreRoot ++ (front ++ [".git"])) = some object →
        (∃ data, object = .file data) ∨
          ∃ target, object = .symlink target ∧ left (front ++ [".git"])

/-- Every file and link of the tree exists below the root. -/
def Complete (tree : Tree) (fs : Fs FileData) : Prop :=
  ∀ path, path ≠ [] → ".git" ∉ path → ∀ object,
    tree.get path = some object → (objectValue object).isSome →
      (fs.get (restoreRoot ++ path)).isSome

/-- A captured path is outside `.git`, or its last component is `.git`. -/
theorem captured_cases
    {tree : Tree} {path : RelPath} (captured : tree.Captured path) :
    ".git" ∉ path ∨ ∃ front, ".git" ∉ front ∧ path = front ++ [".git"] := by
  obtain ⟨nonempty, _, outside, _⟩ := captured
  have split := List.dropLast_append_getLast nonempty
  by_cases last : path.getLast nonempty = ".git"
  · right
    exact ⟨path.dropLast, outside, by rw [← last, split]⟩
  · left
    intro inside
    rw [← split, List.mem_append, List.mem_singleton] at inside
    rcases inside with above | equal
    · exact outside above
    · exact last equal.symm

/-! ## Entries recorded for a tree -/

section Recorded

variable {blobs : BlobStore} {object : Object FileData} {entry : ManifestEntry}

theorem RecordedAs.entryObject_eq
    (recorded : RecordedAs blobs object entry) :
    (∃ data old, entryObject entry = some (.file data) ∧
        object = .file old ∧ blobs data.digest = some data.digest) ∨
      ∃ target, entryObject entry = some (.symlink target) ∧
        object = .symlink target := by
  cases object with
  | file old =>
      cases entry with
      | file hash mode size mtimeNs =>
          cases hash with
          | none => cases mode <;> exact recorded.elim
          | some hash =>
              cases mode with
              | none => exact recorded.elim
              | some mode =>
                  exact Or.inl ⟨⟨hash, mode⟩, old, rfl, rfl, recorded⟩
      | symlink target => exact recorded.elim
      | unknownType => exact recorded.elim
      | notDict => exact recorded.elim
  | symlink target =>
      cases entry with
      | symlink recordedTarget =>
          cases recordedTarget with
          | none => exact recorded.elim
          | some recordedTarget =>
              cases (show recordedTarget = target from recorded)
              exact Or.inr ⟨_, rfl, rfl⟩
      | file hash mode size mtimeNs => exact recorded.elim
      | unknownType => exact recorded.elim
      | notDict => exact recorded.elim
  | dir => exact recorded.elim
  | special => exact recorded.elim

/-- Both interpreters read a recorded entry alike. -/
theorem RecordedAs.sourceCasManifestEntry_eq
    (recorded : RecordedAs blobs object entry) :
    sourceCasManifestEntry entry =
      .ok ((entryObject entry).bind objectValue) := by
  cases entry with
  | file hash mode size mtimeNs =>
      cases hash with
      | none => cases object <;> exact recorded.elim
      | some hash =>
          cases mode with
          | none => cases object <;> exact recorded.elim
          | some mode => rfl
  | symlink target =>
      cases target with
      | none => cases object <;> exact recorded.elim
      | some target => rfl
  | unknownType => cases object <;> exact recorded.elim
  | notDict => cases object <;> exact recorded.elim

end Recorded

section Overlay

variable
  {left : RelPath → Prop} {tree : Tree} {blobs : BlobStore}
  {manifest : Manifest} {base after : Fs FileData}

/-- A written path has an object of the written type in the tree. -/
theorem EntriesOf.writes
    (entries : EntriesOf tree blobs manifest)
    {path : RelPath} {written : Object FileData}
    (writes : Writes manifest path written) :
    tree.Captured path ∧
      ((∃ data old, written = .file data ∧
          tree.get path = some (.file old) ∧
          blobs data.digest = some data.digest) ∨
        ∃ target, written = .symlink target ∧
          tree.get path = some (.symlink target)) := by
  obtain ⟨entry, present, objectIs⟩ := Option.bind_eq_some_iff.mp writes.2
  obtain ⟨captured, object, found, recorded⟩ := entries path entry present
  refine ⟨captured, ?_⟩
  rcases recorded.entryObject_eq with
    ⟨data, old, isFile, rfl, stored⟩ | ⟨target, isLink, rfl⟩
  · rw [objectIs] at isFile
    exact Or.inl ⟨data, old, Option.some.inj isFile, found, stored⟩
  · rw [objectIs] at isLink
    exact Or.inr ⟨target, Option.some.inj isLink, found⟩

theorem EntriesOf.writes_type
    (entries : EntriesOf tree blobs manifest)
    {path : RelPath} {written : Object FileData}
    (writes : Writes manifest path written) :
    written ≠ .dir ∧
      tree.typeAt path = some (checkpointEntryType written) := by
  rcases (entries.writes writes).2 with
    ⟨data, old, rfl, found, _⟩ | ⟨target, rfl, found⟩ <;>
    simp [Tree.typeAt, found, checkpointEntryType]

theorem front_nonempty_of_kept
    {front : RelPath}
    (kept : isPreservedRelpath (front ++ [".git"]) = false) :
    front ≠ [] := by
  rintro rfl
  simp [isPreservedRelpath, checkpointSkipDirs] at kept

/-- Everything above a captured path is outside `.git`. -/
theorem outside_above
    {tree : Tree} {front path : RelPath} (captured : tree.Captured path)
    (isPrefix : front <+: path) (apart : front ≠ path) :
    ".git" ∉ front := by
  obtain ⟨nonempty, _, outside, _⟩ := captured
  intro inside
  rcases (isPrefix_iff_dropLast nonempty).mp isPrefix with same | above
  · exact apart same
  · exact outside (above.subset inside)

/-- The objects at a path that is about to be written give way. -/
theorem Fits.target
    (fits : Fits left tree base)
    (gitKept : GitKept left tree)
    (entries : EntriesOf tree blobs manifest)
    {path : RelPath} {written old : Object FileData}
    (writes : Writes manifest path written)
    (found : base.get (restoreRoot ++ path) = some old) :
    old ≠ .dir ∧
      ∀ data, written = .file data → ∃ oldData, old = .file oldData := by
  obtain ⟨captured, objects⟩ := entries.writes writes
  obtain ⟨notDir, typed⟩ := entries.writes_type writes
  rcases captured_cases captured with outside | ⟨front, outside, rfl⟩
  · have sameType :
        checkpointEntryType written = checkpointEntryType old := by
      rw [fits.typed path captured.1 outside old found] at typed
      exact (Option.some.inj typed).symm
    constructor
    · rintro rfl
      cases written <;> simp [checkpointEntryType] at sameType notDir
    · rintro data rfl
      cases old <;> simp [checkpointEntryType] at sameType ⊢
  · rcases fits.git front (front_nonempty_of_kept writes.1) outside old found
      with ⟨oldData, rfl⟩ | ⟨target, rfl, isLeft⟩
    · exact ⟨by simp, fun _ _ => ⟨oldData, rfl⟩⟩
    · refine ⟨by simp, ?_⟩
      rintro data rfl
      rcases objects with ⟨_, now, _, present, _⟩ | ⟨target, equal, _⟩
      · exact (gitKept front outside isLeft now present).elim
      · cases equal

theorem EntriesOf.writableEntries
    (entries : EntriesOf tree blobs manifest) :
    WritableEntries blobs manifest where
  known path entry present _ := by
    obtain ⟨_, object, _, recorded⟩ := entries path entry present
    rcases recorded.entryObject_eq with
      ⟨data, _, isFile, _⟩ | ⟨target, isLink, _⟩
    · simp [isFile]
    · simp [isLink]
  nonempty path written writes := (entries.writes writes).1.1
  valid path written writes :=
    tree.valid_paths path
      ((tree.mem_paths path).mpr (entries.writes writes).1.2.1)
  stored path data writes := by
    rcases (entries.writes writes).2 with
      ⟨_, _, equal, _, stored⟩ | ⟨target, equal, _⟩
    · cases equal
      exact stored
    · cases equal
  links path target writes := by
    rcases (entries.writes writes).2 with
      ⟨_, _, equal, _⟩ | ⟨_, equal, found⟩
    · cases equal
    · cases equal
      exact tree.valid_links path target found
  incomparable path written other otherWritten writes otherWrites isPrefix := by
    by_contra apart
    have isDir :=
      tree.dir_of_isPrefix isPrefix apart (entries.writes otherWrites).1.2.1
    rcases (entries.writes writes).2 with
      ⟨_, _, _, found, _⟩ | ⟨_, _, found⟩ <;>
      simp [isDir] at found

theorem Fits.writable
    (fits : Fits left tree base)
    (gitKept : GitKept left tree)
    (entries : EntriesOf tree blobs manifest) :
    Writable blobs manifest base where
  toWritableEntries := entries.writableEntries
  rootDir := fits.rootDir
  parents path written writes front isPrefix apart nonempty := by
    have captured := (entries.writes writes).1
    have isDir := tree.dir_of_isPrefix isPrefix apart captured.2.1
    cases below : base.get (restoreRoot ++ front) with
    | none => exact Or.inl rfl
    | some object =>
        right
        have typed :=
          fits.typed front nonempty (outside_above captured isPrefix apart)
            object below
        rw [Tree.typeAt, isDir] at typed
        cases object <;> simp [checkpointEntryType] at typed ⊢
  notLink path data writes target below := by
    obtain ⟨oldData, equal⟩ :=
      (fits.target gitKept entries writes below).2 data rfl
    cases equal
  notSpecial path data writes below := by
    obtain ⟨oldData, equal⟩ :=
      (fits.target gitKept entries writes below).2 data rfl
    cases equal

/-- Every path is written, lies above a written path, or is kept. -/
theorem Fits.overlaid_cases
    (fits : Fits left tree base)
    (gitKept : GitKept left tree)
    (entries : EntriesOf tree blobs manifest)
    (overlaid : Overlaid manifest base after) (path : RelPath) :
    (∃ written, Writes manifest path written ∧
        after.get (restoreRoot ++ path) = some written) ∨
      (∃ other written, Writes manifest other written ∧ path <+: other ∧
        path ≠ other ∧ after.get (restoreRoot ++ path) = some .dir) ∨
      ((∀ written, ¬ Writes manifest path written) ∧
        after.get (restoreRoot ++ path) =
          base.get (restoreRoot ++ path)) := by
  rcases overlaid.cases path with
    isWritten | isAbove | ⟨other, written, writes, isPrefix, apart, isNone⟩ |
    isKept
  · exact Or.inl isWritten
  · exact Or.inr (Or.inl isAbove)
  · refine Or.inr (Or.inr ⟨?_, ?_⟩)
    · intro own ownWrites
      have placed := overlaid.placed path own ownWrites
      rw [isNone] at placed
      cases placed
    · rw [isNone]
      symm
      apply base.none_of_ancestor
        ((restoreRoot_append_isPrefix_iff other path).mpr isPrefix)
      · exact fun equal => apart (List.append_cancel_left equal)
      · exact fun isDir => (fits.target gitKept entries writes isDir).1 rfl
  · exact Or.inr (Or.inr isKept)

theorem Fits.overlaid
    (fits : Fits left tree base)
    (gitKept : GitKept left tree)
    (entries : EntriesOf tree blobs manifest)
    (overlaid : Overlaid manifest base after) :
    Fits
      (fun path => (∃ target, tree.get path = some (.symlink target)) ∨
        left path)
      tree after := by
  refine ⟨overlaid.rootDir, ?_, ?_⟩
  · intro path nonempty outside object found
    rcases fits.overlaid_cases gitKept entries overlaid path with
      ⟨written, writes, isWritten⟩ | ⟨other, written, writes, isPrefix, apart,
        isDir⟩ | ⟨_, kept⟩
    · rw [isWritten] at found
      cases found
      exact (entries.writes_type writes).2
    · rw [isDir] at found
      cases found
      rw [Tree.typeAt, tree.dir_of_isPrefix isPrefix apart
        (entries.writes writes).1.2.1]
      rfl
    · rw [kept] at found
      exact fits.typed path nonempty outside object found
  · intro front nonempty outside object found
    rcases fits.overlaid_cases gitKept entries overlaid
        (front ++ [".git"]) with
      ⟨written, writes, isWritten⟩ | ⟨other, written, writes, isPrefix, apart,
        _⟩ | ⟨_, kept⟩
    · rw [isWritten] at found
      cases found
      rcases (entries.writes writes).2 with
        ⟨data, _, isFile, _⟩ | ⟨target, isLink, present⟩
      · exact Or.inl ⟨data, isFile⟩
      · exact Or.inr ⟨target, isLink, Or.inl ⟨target, present⟩⟩
    · exact (outside_above (entries.writes writes).1 isPrefix apart
        (by simp)).elim
    · rw [kept] at found
      rcases fits.git front nonempty outside object found with
        isFile | ⟨target, isLink, isLeft⟩
      · exact Or.inl isFile
      · exact Or.inr ⟨target, isLink, Or.inr isLeft⟩

end Overlay

/-! ## One restored step -/

section Step

variable
  {left : RelPath → Prop} {previous tree : Tree} {hashCache : HashCache}
  {blobs : BlobStore} {manifest : Manifest} {fs base : Fs FileData}

theorem IncrementalOf.safe
    (incremental : IncrementalOf previous tree hashCache manifest)
    (entries : EntriesOf tree blobs manifest) :
    manifest.Safe := by
  constructor
  · intro path present
    obtain ⟨entry, found⟩ := Option.isSome_iff_exists.mp present
    have captured := (entries path entry found).1
    exact ⟨captured.1,
      tree.valid_paths path ((tree.mem_paths path).mpr captured.2.1)⟩
  · intro path member
    obtain ⟨nonempty, _, before, _⟩ :=
      dropped_iff.mp ((incremental.deletedPaths path).mp member)
    exact ⟨nonempty,
      previous.valid_paths path ((previous.mem_paths path).mpr before)⟩

/-- The removals of an incremental restore and what they leave. -/
theorem IncrementalOf.removals
    (incremental : IncrementalOf previous tree hashCache manifest)
    (fits : Fits left previous fs) :
    ∃ base, restoreRemovals false manifest fs = .ok base ∧
      (∀ path, (∃ front, front <+: path ∧ Dropped previous tree front) →
        base.get (restoreRoot ++ path) = none) ∧
      (∀ path, (∀ front, front <+: path → ¬ Dropped previous tree front) →
        base.get (restoreRoot ++ path) = fs.get (restoreRoot ++ path)) := by
  obtain ⟨base, removed, state⟩ :=
    restoreRemovals_incremental manifest fits.rootDir (by
        intro deleted member
        obtain ⟨nonempty, outside, before, _⟩ :=
          dropped_iff.mp ((incremental.deletedPaths deleted).mp member)
        exact ⟨nonempty,
          previous.valid_paths deleted ((previous.mem_paths deleted).mpr before),
          outside⟩) (by
        intro deleted member front isPrefix apart target isLink
        obtain ⟨_, outside, before, _⟩ :=
          dropped_iff.mp ((incremental.deletedPaths deleted).mp member)
        have isDir := previous.dir_of_isPrefix isPrefix apart before
        rcases eq_or_ne front [] with rfl | nonempty
        · rw [List.append_nil, fits.rootDir] at isLink
          cases isLink
        · have typed :=
            fits.typed front nonempty
              (fun inside => outside (isPrefix.subset inside)) _ isLink
          rw [Tree.typeAt, isDir] at typed
          cases typed)
  refine ⟨base, removed, ?_, ?_⟩
  · rintro path ⟨front, isPrefix, dropped⟩
    rw [state, if_pos]
    exact ⟨front, (incremental.deletedPaths front).mpr dropped,
      (restoreRoot_append_isPrefix_iff front path).mpr isPrefix⟩
  · intro path kept
    rw [state, if_neg]
    rintro ⟨deleted, member, below⟩
    exact kept deleted
      ((restoreRoot_append_isPrefix_iff deleted path).mp below)
      ((incremental.deletedPaths deleted).mp member)

/-- What survives the removals has its type in the next tree. -/
theorem Fits.removed
    (fits : Fits left previous fs)
    (gone :
      ∀ path, (∃ front, front <+: path ∧ Dropped previous tree front) →
        base.get (restoreRoot ++ path) = none)
    (kept :
      ∀ path, (∀ front, front <+: path → ¬ Dropped previous tree front) →
        base.get (restoreRoot ++ path) = fs.get (restoreRoot ++ path)) :
    Fits (fun path => left path ∧ tree.get path.dropLast = some .dir)
      tree base := by
  have survived :
      ∀ path object, base.get (restoreRoot ++ path) = some object →
        fs.get (restoreRoot ++ path) = some object ∧
          ∀ front, front <+: path → ¬ Dropped previous tree front := by
    intro path object found
    by_cases removed : ∃ front, front <+: path ∧ Dropped previous tree front
    · rw [gone path removed] at found
      cases found
    · have stays :
          ∀ front, front <+: path → ¬ Dropped previous tree front :=
        fun front isPrefix dropped => removed ⟨front, isPrefix, dropped⟩
      rw [kept path stays] at found
      exact ⟨found, stays⟩
  have typed :
      ∀ path, path ≠ [] → ".git" ∉ path → ∀ object,
        base.get (restoreRoot ++ path) = some object →
          tree.typeAt path = some (checkpointEntryType object) := by
    intro path nonempty outside object found
    obtain ⟨found, stays⟩ := survived path object found
    have before := fits.typed path nonempty outside object found
    by_contra differs
    apply stays path (List.prefix_refl path)
    rw [dropped_iff]
    refine ⟨nonempty, outside, ?_, ?_⟩
    · rw [Tree.typeAt] at before
      obtain ⟨old, present, _⟩ := Option.map_eq_some_iff.mp before
      simp [present]
    · rw [before]
      exact differs
  refine ⟨?_, typed, ?_⟩
  · have rootKept := kept [] (by
      intro front isPrefix dropped
      exact (dropped_iff.mp dropped).1 (List.prefix_nil.mp isPrefix))
    simpa [fits.rootDir] using rootKept
  · intro front nonempty outside object found
    have parentDir : base.get (restoreRoot ++ front) = some .dir := by
      apply base.parent_dir (restoreRoot ++ front) ".git"
      rw [List.append_assoc, found]
      rfl
    have treeDir : tree.get front = some .dir :=
      (typeAt_eq_dir tree front).mp
        (typed front nonempty outside .dir parentDir)
    rcases fits.git front nonempty outside object
      (survived _ object found).1 with isFile | ⟨target, isLink, isLeft⟩
    · exact Or.inl isFile
    · refine Or.inr ⟨target, isLink, isLeft, ?_⟩
      rw [List.dropLast_concat]
      exact treeDir

/-- After a cleared root only the skipped names are left. -/
theorem fits_cleared
    (left : RelPath → Prop) (tree : Tree)
    (rootDir : base.get restoreRoot = some .dir)
    (cleared :
      ∀ path, path ≠ [] → base.get (restoreRoot ++ path) =
        if isPreservedRelpath path then fs.get (restoreRoot ++ path)
        else none) :
    Fits left tree base := by
  refine ⟨rootDir, ?_, ?_⟩
  · intro path nonempty outside object found
    rw [cleared path nonempty, isPreservedRelpath_of_outside outside] at found
    cases found
  · intro front nonempty outside object found
    have kept : isPreservedRelpath (front ++ [".git"]) = false := by
      cases front with
      | nil => exact (nonempty rfl).elim
      | cons part rest =>
          simp only [List.mem_cons, not_or] at outside
          simp [isPreservedRelpath, checkpointSkipDirs, Ne.symm outside.1]
    rw [cleared _ (by simp), kept] at found
    cases found

end Step

/-! ## One folded step -/

section Fold

variable
  {tree previous : Tree} {hashCache : HashCache} {blobs : BlobStore}
  {manifest : Manifest} {folded : CasManifestEntries}

/-- The value a manifest records for a path outside `.git`. -/
def recordedValue (manifest : Manifest) (path : RelPath) :
    Option CasManifestValue :=
  if checkpointRelpathIsSkipped path then none
  else ((manifest.entries.get path).bind entryObject).bind objectValue

theorem EntriesOf.foldEntryOf_eq
    (entries : EntriesOf tree blobs manifest) (path : RelPath) :
    foldEntryOf manifest path = .ok (recordedValue manifest path) := by
  rw [foldEntryOf, recordedValue]
  split
  · rfl
  · cases present : manifest.entries.get path with
    | none => rfl
    | some entry =>
        obtain ⟨_, object, _, recorded⟩ := entries path entry present
        exact recorded.sourceCasManifestEntry_eq

theorem recordedValue_of_not_mem
    {path : RelPath} (missing : path ∉ manifest.entries.keys) :
    recordedValue manifest path = none := by
  rw [manifest.entries.mem_keys, Option.not_isSome_iff_eq_none] at missing
  simp [recordedValue, missing]

theorem EntriesOf.foldedEntries
    (entries : EntriesOf tree blobs manifest) :
    ∃ recorded,
      manifest.entries.keys.foldlM (Dict.collect (foldEntryOf manifest))
        Dict.empty = .ok recorded ∧
      ∀ path, recorded.get path = recordedValue manifest path := by
  obtain ⟨recorded, collected⟩ :=
    Dict.foldlM_collect_total (foldEntryOf manifest) manifest.entries.keys
      (fun path _ => ⟨_, entries.foldEntryOf_eq path⟩)
  refine ⟨recorded, collected, ?_⟩
  intro path
  have visited :=
    Dict.get_foldlM_collect (foldEntryOf manifest) _ collected path
  by_cases member : path ∈ manifest.entries.keys
  · have computed := visited.1 member
    rw [entries.foldEntryOf_eq] at computed
    exact (Except.ok.inj computed).symm
  · rw [visited.2 member, recordedValue_of_not_mem member]

theorem EntriesOf.fold_full
    (entries : EntriesOf tree blobs manifest)
    (folded : CasManifestEntries) :
    ∃ next, foldSourceCheckpointEntries false manifest folded = .ok next ∧
      ∀ path, next.get path = recordedValue manifest path := by
  obtain ⟨recorded, collected, values⟩ := entries.foldedEntries
  refine ⟨recorded, ?_, values⟩
  rw [foldSourceCheckpointEntries, collected]
  rfl

theorem EntriesOf.fold_incremental
    (entries : EntriesOf tree blobs manifest)
    (incremental : IncrementalOf previous tree hashCache manifest)
    (folded : CasManifestEntries) :
    ∃ next, foldSourceCheckpointEntries true manifest folded = .ok next ∧
      (∀ path, Dropped previous tree path → next.get path = none) ∧
      (∀ path, ¬ Dropped previous tree path →
        next.get path =
          (recordedValue manifest path).or (folded.get path)) := by
  obtain ⟨recorded, collected, values⟩ := entries.foldedEntries
  have members :
      ∀ path, path ∈ manifest.deletedPaths.filter
          (!checkpointRelpathIsSkipped ·) ↔ Dropped previous tree path := by
    intro path
    rw [List.mem_filter, incremental.deletedPaths, Bool.not_eq_true',
      ← Bool.not_eq_true, checkpointRelpathIsSkipped_iff]
    exact and_iff_left_of_imp fun dropped => dropped.1
  refine ⟨(manifest.deletedPaths.filter
    (!checkpointRelpathIsSkipped ·)).foldl Dict.pop (folded.update recorded),
    ?_, ?_, ?_⟩
  · rw [foldSourceCheckpointEntries, collected]
    rfl
  · intro path dropped
    rw [Dict.get_foldl_pop, if_pos ((members path).mpr dropped)]
  · intro path kept
    rw [Dict.get_foldl_pop, if_neg (mt (members path).mp kept),
      Dict.get_update, values]

end Fold

/-! ## Both interpreters together -/

/-- The relation kept between the two interpreters and the collected tree. -/
structure Agree
    (left : RelPath → Prop) (tree : Tree)
    (folded : CasManifestEntries) (restored : Fs FileData) : Prop where
  fits : Fits left tree restored
  complete : Complete tree restored
  equal :
    ∀ path, folded.get path = entriesBelow restored restoreRoot path

theorem entriesBelow_of_inside
    {fs : Fs FileData} {root : Path} {path : RelPath}
    (inside : ".git" ∈ path) :
    entriesBelow fs root path = none := by
  rw [entriesBelow, if_pos ((checkpointRelpathIsSkipped_iff path).mpr inside)]

theorem not_skipped_of_outside
    {path : RelPath} (outside : ".git" ∉ path) :
    checkpointRelpathIsSkipped path = false := by
  rw [← Bool.not_eq_true, checkpointRelpathIsSkipped_iff]
  exact outside

theorem entriesBelow_of_outside
    {fs : Fs FileData} {root : Path} {path : RelPath}
    (outside : ".git" ∉ path) :
    entriesBelow fs root path = (fs.get (root ++ path)).bind objectValue := by
  simp [entriesBelow, not_skipped_of_outside outside]

theorem recordedValue_of_writes
    {manifest : Manifest} {path : RelPath} {written : Object FileData}
    (outside : ".git" ∉ path) (writes : Writes manifest path written) :
    recordedValue manifest path = objectValue written := by
  simp [recordedValue, not_skipped_of_outside outside, writes.2]

theorem recordedValue_of_not_writes
    {manifest : Manifest} {path : RelPath}
    (apart : ∀ written, ¬ Writes manifest path written) :
    recordedValue manifest path = none := by
  by_cases inside : ".git" ∈ path
  · simp [recordedValue, inside]
  · rw [recordedValue, not_skipped_of_outside inside]
    cases found : (manifest.entries.get path).bind entryObject with
    | none => simp
    | some written =>
        exact (apart written
          ⟨isPreservedRelpath_of_outside inside, found⟩).elim

section Together

variable
  {left : RelPath → Prop} {previous tree : Tree} {hashCache : HashCache}
  {blobs : BlobStore} {manifest : Manifest}
  {folded : CasManifestEntries} {restored base after : Fs FileData}
  {path : RelPath}

theorem EntriesOf.not_writes_above
    (entries : EntriesOf tree blobs manifest)
    {other : RelPath} {written : Object FileData}
    (writes : Writes manifest other written)
    (isPrefix : path <+: other) (apart : path ≠ other) :
    ∀ own, ¬ Writes manifest path own := by
  intro own ownWrites
  have isDir :=
    tree.dir_of_isPrefix isPrefix apart (entries.writes writes).1.2.1
  obtain ⟨notDir, typed⟩ := entries.writes_type ownWrites
  rw [Tree.typeAt, isDir] at typed
  cases own <;> simp [checkpointEntryType] at typed notDir

theorem EntriesOf.objectValue_isSome
    (entries : EntriesOf tree blobs manifest)
    {written : Object FileData} (writes : Writes manifest path written) :
    (objectValue written).isSome := by
  rcases (entries.writes writes).2 with
    ⟨_, _, rfl, _⟩ | ⟨_, rfl, _⟩ <;> rfl

/-- Recorded files and links are written. -/
theorem writes_of_manifestEntryAt
    (hashCache : HashCache) (outside : ".git" ∉ path) {object : Object FileData}
    (present : tree.get path = some object)
    (hasValue : (objectValue object).isSome)
    (recorded :
      manifest.entries.get path = manifestEntryAt tree hashCache path) :
    ∃ written, Writes manifest path written := by
  cases object with
  | dir => cases hasValue
  | special => cases hasValue
  | file data =>
      exact ⟨_, isPreservedRelpath_of_outside outside, by
        rw [recorded, manifestEntryAt, present]
        rfl⟩
  | symlink target =>
      exact ⟨_, isPreservedRelpath_of_outside outside, by
        rw [recorded, manifestEntryAt, present]
        rfl⟩

theorem Fits.isSome
    (fits : Fits left tree base) (gitKept : GitKept left tree)
    (entries : EntriesOf tree blobs manifest)
    (overlaid : Overlaid manifest base after)
    (present : (∃ written, Writes manifest path written) ∨
      (base.get (restoreRoot ++ path)).isSome) :
    (after.get (restoreRoot ++ path)).isSome := by
  rcases fits.overlaid_cases gitKept entries overlaid path with
    ⟨written, _, isWritten⟩ | ⟨_, _, _, _, _, isDir⟩ | ⟨apart, kept⟩
  · simp [isWritten]
  · simp [isDir]
  · rw [kept]
    rcases present with ⟨written, writes⟩ | inBase
    · exact (apart written writes).elim
    · exact inBase

/-- A full checkpoint brings the interpreters together. -/
theorem agree_full
    (full : FullOf tree hashCache manifest)
    (entries : EntriesOf tree blobs manifest)
    (fs : Fs FileData) :
    ∃ nextFolded nextRestored,
      foldSourceCheckpointEntries false manifest Dict.empty =
          .ok nextFolded ∧
        restoreCasManifest blobs true manifest fs = .ok nextRestored ∧
        Agree (GitLinkLeft (fun _ => False) tree) tree nextFolded
          nextRestored := by
  obtain ⟨nextFolded, isFolded, values⟩ :=
    entries.fold_full Dict.empty
  obtain ⟨base, removed, rootKept, cleared⟩ :=
    restoreRemovals_clear manifest (prepareRoot fs)
  rw [prepareRoot_rootDir] at rootKept
  have fits :
      Fits (fun path => False ∧ tree.get path.dropLast = some .dir)
        tree base :=
    fits_cleared _ tree rootKept cleared
  have safe : manifest.Safe := by
    refine ⟨?_, fun path member => (full.deletedPaths path member).elim⟩
    intro path present
    obtain ⟨entry, found⟩ := Option.isSome_iff_exists.mp present
    have captured := (entries path entry found).1
    exact ⟨captured.1,
      tree.valid_paths path ((tree.mem_paths path).mpr captured.2.1)⟩
  have gitKept :
      GitKept (fun path => False ∧ tree.get path.dropLast = some .dir)
        tree :=
    fun _ _ isLeft => isLeft.1.elim
  obtain ⟨after, isRestored, overlaid⟩ :=
    restoreCasManifest_overlaid safe removed (fits.writable gitKept entries)
  refine ⟨nextFolded, after, isFolded, isRestored,
    fits.overlaid gitKept entries overlaid, ?_, ?_⟩
  · intro path nonempty outside object present hasValue
    apply fits.isSome gitKept entries overlaid
    left
    apply writes_of_manifestEntryAt _ outside present hasValue
    rw [full.entries, if_pos]
    exact (captured_of_outside tree nonempty outside).mpr (by simp [present])
  · intro path
    rw [values]
    by_cases inside : ".git" ∈ path
    · rw [entriesBelow_of_inside inside]
      simp [recordedValue, inside]
    · rw [entriesBelow_of_outside inside]
      rcases fits.overlaid_cases gitKept entries overlaid path with
        ⟨written, writes, isWritten⟩ | ⟨other, written, writes, isPrefix,
          apart, isDir⟩ | ⟨apart, kept⟩
      · rw [isWritten, recordedValue_of_writes inside writes]
        rfl
      · rw [isDir, recordedValue_of_not_writes
          (entries.not_writes_above writes isPrefix apart)]
        rfl
      · rw [kept, recordedValue_of_not_writes apart]
        rcases eq_or_ne path [] with rfl | nonempty
        · rw [List.append_nil, rootKept]
          rfl
        · rw [cleared path nonempty, isPreservedRelpath_of_outside inside]
          rfl

/-- An entry the fold keeps is at a path whose type is unchanged. -/
theorem Agree.folded_of_not_dropped
    (agree : Agree left previous folded restored)
    (outside : ".git" ∉ path) (stays : ¬ Dropped previous tree path)
    (isDir : tree.get path = some .dir) :
    folded.get path = none := by
  rw [agree.equal, entriesBelow_of_outside outside]
  rcases eq_or_ne path [] with rfl | nonempty
  · rw [List.append_nil, agree.fits.rootDir]
    rfl
  · cases found : restored.get (restoreRoot ++ path) with
    | none => rfl
    | some object =>
        have typed := agree.fits.typed path nonempty outside object found
        have before : (previous.get path).isSome := by
          rw [Tree.typeAt] at typed
          obtain ⟨old, present, _⟩ := Option.map_eq_some_iff.mp typed
          simp [present]
        have sameType : tree.typeAt path = previous.typeAt path := by
          by_contra differs
          exact stays (dropped_iff.mpr ⟨nonempty, outside, before, differs⟩)
        rw [typed, (typeAt_eq_dir tree path).mpr isDir] at sameType
        cases object <;> simp [checkpointEntryType] at sameType
        rfl

/-- An incremental checkpoint on which they agree keeps them together. -/
theorem agree_incremental
    (agree : Agree left previous folded restored)
    (step : StepAgrees left previous tree)
    (incremental : IncrementalOf previous tree hashCache manifest)
    (entries : EntriesOf tree blobs manifest) :
    ∃ nextFolded nextRestored,
      foldSourceCheckpointEntries true manifest folded = .ok nextFolded ∧
        restoreCasManifest blobs false manifest restored =
          .ok nextRestored ∧
        Agree (GitLinkLeft left tree) tree nextFolded nextRestored := by
  obtain ⟨nextFolded, isFolded, popped, updated⟩ :=
    entries.fold_incremental incremental folded
  obtain ⟨base, removed, gone, kept⟩ := incremental.removals agree.fits
  have fits := agree.fits.removed gone kept
  rw [← prepareRoot_of_dir agree.fits.rootDir] at removed
  have gitKept :
      GitKept
        (fun path => left path ∧ tree.get path.dropLast = some .dir) tree :=
    fun front outside isLeft => step.gitKept front outside isLeft.1
  obtain ⟨after, isRestored, overlaid⟩ :=
    restoreCasManifest_overlaid (incremental.safe entries) removed
      (fits.writable gitKept entries)
  have writtenStays :
      ∀ path, ".git" ∉ path → ∀ written, Writes manifest path written →
        ¬ Dropped previous tree path := by
    intro path outside written writes dropped
    obtain ⟨_, _, before, differs⟩ := dropped_iff.mp dropped
    obtain ⟨notDir, typed⟩ := entries.writes_type writes
    have typeNotDir : checkpointEntryType written ≠ .dir := by
      cases written <;> simp [checkpointEntryType] at notDir ⊢
    rcases step.typeKept path outside _ typed typeNotDir with missing | same
    · rw [Tree.typeAt_eq_none] at missing
      simp [missing] at before
    · exact differs (typed.trans same.symm)
  refine ⟨nextFolded, after, isFolded, isRestored,
    fits.overlaid gitKept entries overlaid, ?_, ?_⟩
  · intro path nonempty outside object present hasValue
    apply fits.isSome gitKept entries overlaid
    have captured :=
      (captured_of_outside tree nonempty outside).mpr (by simp [present])
    have notDir : object ≠ .dir := by
      rintro rfl
      cases hasValue
    by_cases changed : Changed previous tree path
    · exact Or.inl (writes_of_manifestEntryAt _ outside present hasValue
        (incremental.changed path changed))
    · right
      obtain ⟨_, oldType, _⟩ :=
        (not_changed_iff captured present notDir).mp changed
      obtain ⟨old, oldPresent, sameType⟩ := Option.map_eq_some_iff.mp oldType
      have oldHasValue : (objectValue old).isSome := by
        cases object <;> cases old <;>
          simp [checkpointEntryType, objectValue] at sameType hasValue ⊢
      rw [kept]
      · exact agree.complete path nonempty outside old oldPresent oldHasValue
      · intro front isPrefix
        rcases eq_or_ne front path with rfl | apart
        · rw [dropped_iff]
          rintro ⟨_, _, _, differs⟩
          apply differs
          rw [oldType, Tree.typeAt, present]
          rfl
        · exact not_dropped_above isPrefix apart (by simp [oldPresent])
            (by simp [present])
  · intro path
    by_cases inside : ".git" ∈ path
    · rw [entriesBelow_of_inside inside, updated path (fun dropped =>
        dropped.1 inside), agree.equal, entriesBelow_of_inside inside]
      simp [recordedValue, inside]
    · rw [entriesBelow_of_outside inside]
      rcases fits.overlaid_cases gitKept entries overlaid path with
        ⟨written, writes, isWritten⟩ | ⟨other, written, writes, isPrefix,
          apart, isDir⟩ | ⟨apart, isKept⟩
      · rw [isWritten, updated path (writtenStays path inside written writes),
          recordedValue_of_writes inside writes]
        obtain ⟨value, isValue⟩ := Option.isSome_iff_exists.mp
          (entries.objectValue_isSome writes)
        simp [isValue]
      · rw [isDir]
        by_cases dropped : Dropped previous tree path
        · exact popped path dropped
        · rw [updated path dropped, recordedValue_of_not_writes
              (entries.not_writes_above writes isPrefix apart),
            agree.folded_of_not_dropped inside dropped
              (tree.dir_of_isPrefix isPrefix apart
                (entries.writes writes).1.2.1)]
          rfl
      · rw [isKept]
        by_cases below :
            ∃ front, front <+: path ∧ Dropped previous tree front
        · rw [gone path below]
          by_cases dropped : Dropped previous tree path
          · exact popped path dropped
          · rw [updated path dropped, recordedValue_of_not_writes apart,
              Option.none_or, agree.equal, entriesBelow_of_outside inside]
            cases found : restored.get (restoreRoot ++ path) with
            | none => rfl
            | some object =>
                exfalso
                obtain ⟨front, isPrefix, frontDropped⟩ := below
                rcases eq_or_ne path [] with rfl | nonempty
                · exact dropped
                    (List.prefix_nil.mp isPrefix ▸ frontDropped)
                · have typed :=
                    agree.fits.typed path nonempty inside object found
                  rw [Tree.typeAt] at typed
                  obtain ⟨old, present, _⟩ :=
                    Option.map_eq_some_iff.mp typed
                  exact dropped (dropped_below isPrefix inside
                    (by simp [present]) frontDropped)
        · have stays :
              ∀ front, front <+: path → ¬ Dropped previous tree front :=
            fun front isPrefix dropped => below ⟨front, isPrefix, dropped⟩
          rw [kept path stays, updated path (stays path (List.prefix_refl _)),
            recordedValue_of_not_writes apart, Option.none_or, agree.equal,
            entriesBelow_of_outside inside]

end Together

/-! ## Chains -/

section Chain

variable
  {previous tree : Tree} {emission next : Emission} {blobs final : BlobStore}
  {manifest : Manifest} {manifests : List Manifest}

theorem emitFull_eq_ok
    (emitted : emitFull blobs tree = .ok (manifest, next)) :
    ∃ state,
      snapshotCheckpointEntries tree = .ok next.snapshot ∧
        writeCasManifest tree none [] none (fun _ => none) blobs =
          .ok (manifest, state) ∧
        next.hashCache = state.hashCache ∧ next.blobs = state.blobs := by
  obtain ⟨snapshot, taken, emitted⟩ := Loops.bind_eq_ok.mp emitted
  obtain ⟨⟨written, state⟩, isWritten, result⟩ := Loops.bind_eq_ok.mp emitted
  cases result
  exact ⟨state, taken, isWritten, rfl, rfl⟩

theorem emitIncremental_eq_ok
    (emitted : emitIncremental emission tree = .ok (manifest, next)) :
    ∃ state,
      snapshotCheckpointEntries tree = .ok next.snapshot ∧
        writeCasManifest tree none
            (computeCheckpointDeletedPaths (some emission.snapshot)
              next.snapshot)
            (some (computeCheckpointChangedPaths emission.snapshot
              next.snapshot))
            emission.hashCache emission.blobs = .ok (manifest, state) ∧
        next.hashCache = state.hashCache ∧ next.blobs = state.blobs := by
  obtain ⟨snapshot, taken, emitted⟩ := Loops.bind_eq_ok.mp emitted
  obtain ⟨⟨written, state⟩, isWritten, result⟩ := Loops.bind_eq_ok.mp emitted
  cases result
  exact ⟨state, taken, isWritten, rfl, rfl⟩

/-- What a chain needs of the snapshot and of the stores it continues. -/
structure Emission.Sound (emission : Emission) (tree : Tree) : Prop where
  taken : snapshotCheckpointEntries tree = .ok emission.snapshot
  intact : emission.blobs.Intact
  cacheStored : CacheStored emission.hashCache emission.blobs

theorem Emission.Sound.incremental
    (sound : emission.Sound previous)
    (emitted : emitIncremental emission tree = .ok (manifest, next)) :
    next.Sound tree ∧
      (∀ digest, (emission.blobs digest).isSome →
        (next.blobs digest).isSome) := by
  obtain ⟨state, taken, written, cacheIs, blobsAre⟩ :=
    emitIncremental_eq_ok emitted
  have kept :=
    writeCasManifest_storeInvariant written sound.intact sound.cacheStored
  constructor
  · exact ⟨taken, blobsAre ▸ kept.1.intact,
      cacheIs ▸ blobsAre ▸ kept.2⟩
  · exact blobsAre ▸ kept.1.grows

theorem emitIncrementals_store
    (sound : emission.Sound previous) (rest : List Tree)
    (emitted : emitIncrementals emission rest = .ok (manifests, final)) :
    final.Intact ∧
      ∀ digest, (emission.blobs digest).isSome → (final digest).isSome := by
  induction rest generalizing emission previous manifests with
  | nil =>
      cases emitted
      exact ⟨sound.intact, fun _ old => old⟩
  | cons tree rest induction =>
      obtain ⟨⟨manifest, next⟩, first, emitted⟩ := Loops.bind_eq_ok.mp emitted
      obtain ⟨⟨later, store⟩, others, result⟩ := Loops.bind_eq_ok.mp emitted
      cases result
      obtain ⟨nextSound, grows⟩ := sound.incremental first
      obtain ⟨intact, laterGrows⟩ := induction nextSound others
      exact ⟨intact, fun digest old => laterGrows digest (grows digest old)⟩

/-- The interpreters stay together along the incremental manifests. -/
theorem agree_incrementals
    {left : RelPath → Prop} {folded : CasManifestEntries}
    {restored : Fs FileData}
    (sound : emission.Sound previous) (rest : List Tree)
    (emitted : emitIncrementals emission rest = .ok (manifests, final))
    (agrees : ChainAgrees left previous rest)
    (agree : Agree left previous folded restored) :
    ∃ nextFolded nextRestored,
      manifests.foldlM
          (fun folded manifest =>
            foldSourceCheckpointEntries true manifest folded) folded =
          .ok nextFolded ∧
        manifests.foldlM
            (fun fs manifest => restoreCasManifest final false manifest fs)
            restored = .ok nextRestored ∧
        ∀ path, nextFolded.get path =
          entriesBelow nextRestored restoreRoot path := by
  induction rest generalizing emission previous manifests left folded
    restored with
  | nil =>
      cases emitted
      exact ⟨folded, restored, rfl, rfl, agree.equal⟩
  | cons tree rest induction =>
      obtain ⟨⟨manifest, next⟩, first, emitted⟩ := Loops.bind_eq_ok.mp emitted
      obtain ⟨⟨later, store⟩, others, result⟩ := Loops.bind_eq_ok.mp emitted
      cases result
      obtain ⟨nextSound, _⟩ := sound.incremental first
      obtain ⟨finalIntact, grows⟩ :=
        emitIncrementals_store nextSound rest others
      obtain ⟨state, taken, written, _, blobsAre⟩ :=
        emitIncremental_eq_ok first
      rw [blobsAre] at grows
      have entries :=
        (writeCasManifest_storeInvariant written sound.intact
          sound.cacheStored).1.entriesOf written grows finalIntact
      have incremental :=
        writeCasManifest_incremental sound.taken taken written
      obtain ⟨nextFolded, nextRestored, isFolded, isRestored, nextAgree⟩ :=
        agree_incremental agree agrees.1 incremental entries
      obtain ⟨lastFolded, lastRestored, allFolded, allRestored, equal⟩ :=
        induction nextSound others agrees.2 nextAgree
      refine ⟨lastFolded, lastRestored, ?_, ?_, equal⟩
      · rw [List.foldlM_cons]
        exact Loops.bind_eq_ok.mpr ⟨nextFolded, isFolded, allFolded⟩
      · rw [List.foldlM_cons]
        exact Loops.bind_eq_ok.mpr ⟨nextRestored, isRestored, allRestored⟩

end Chain

/-! ## Two sequences of trees -/

/-- Do the interpreters agree at one path? -/
def agreeAt
    (emitted : Except CheckpointError (List Manifest × BlobStore))
    (fs : Fs FileData) (path : RelPath) : Bool :=
  match emitted with
  | .error _ => true
  | .ok (chain, blobs) =>
      match foldCheckpointChain chain,
          restoreCheckpointChain blobs chain fs with
      | .ok folded, .ok restored =>
          folded.get path = entriesBelow restored restoreRoot path
      | _, _ => false

theorem InterpretersAgree.agreeAt_eq
    {blobs : BlobStore} {chain : List Manifest} {fs : Fs FileData}
    (agree : InterpretersAgree blobs chain fs) (path : RelPath) :
    agreeAt (.ok (chain, blobs)) fs path = true := by
  obtain ⟨folded, restored, isFolded, isRestored, equal⟩ := agree
  simp [agreeAt, isFolded, isRestored, equal]

/-- A directory, a file in it and a link to the directory. -/
def linkedTree : Tree :=
  Tree.ofObjects
    [(["lib"], .dir, ⟨0, 1⟩),
      (["lib", "a.py"], .file ⟨"d1", 0o100644⟩, ⟨1, 1⟩),
      (["current"], .symlink ["lib"], ⟨3, 1⟩)]
    (fun path => path = ["current"]) (by decide)

/-- The file is edited and made executable. -/
def editedTree : Tree :=
  Tree.ofObjects
    [(["lib"], .dir, ⟨0, 1⟩),
      (["lib", "a.py"], .file ⟨"d2", 0o100755⟩, ⟨2, 2⟩),
      (["current"], .symlink ["lib"], ⟨3, 1⟩)]
    (fun path => path = ["current"]) (by decide)

/-- The link is pointed at the file. -/
def retargetedTree : Tree :=
  Tree.ofObjects
    [(["lib"], .dir, ⟨0, 1⟩),
      (["lib", "a.py"], .file ⟨"d1", 0o100644⟩, ⟨1, 1⟩),
      (["current"], .symlink ["lib", "a.py"], ⟨8, 2⟩)]
    (fun _ => false) (by decide)

/-- A check of one step that looks at the paths of the tree only. -/
theorem stepAgrees_of_paths
    {left : RelPath → Prop} {previous tree : Tree}
    (outside : ∀ path ∈ tree.paths, ".git" ∉ path)
    (kept :
      ∀ path ∈ tree.paths,
        tree.typeAt path = some .dir ∨ previous.typeAt path = none ∨
          previous.typeAt path = tree.typeAt path) :
    StepAgrees left previous tree where
  typeKept path _ entryType typed notDir := by
    have present : (tree.get path).isSome := by
      rw [Tree.typeAt] at typed
      obtain ⟨object, found, _⟩ := Option.map_eq_some_iff.mp typed
      simp [found]
    rcases kept path ((tree.mem_paths path).mpr present) with
      isDir | missing | same
    · rw [typed] at isDir
      exact (notDir (Option.some.inj isDir)).elim
    · exact Or.inl missing
    · exact Or.inr (same.trans typed)
  gitKept front _ _ data found :=
    outside (front ++ [".git"])
      ((tree.mem_paths _).mpr (by simp [found])) (by simp)

end AgentSchedBench.Checkpoint
