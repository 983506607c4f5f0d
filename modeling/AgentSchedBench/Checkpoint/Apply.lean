import AgentSchedBench.Checkpoint.Difference

/-!
# Applying manifests to a map of entries

The purpose of a manifest is to turn the entries of the previously recorded
tree into those of the tree it was written for: the deleted paths go first,
then the entries are written.  A full manifest starts from nothing.

An incremental manifest does so if the fingerprints of the unchanged files
tell all that is recorded of them.
-/

namespace AgentSchedBench.Checkpoint

open FileSystem

/-- The entries of a tree by path. -/
abbrev EntryMap := RelPath → Option CasManifestValue

/-- What an entry of a manifest says a path is. -/
def entryValue : ManifestEntry → Option CasManifestValue
  | .file (some hash) mode _ _ => some (.file hash (mode.map sIMode))
  | .symlink (some target) => some (.symlink target)
  | _ => none

/-- Remove the deleted paths, then write the entries. -/
def applyManifest (manifest : Manifest) (entries : EntryMap) : EntryMap :=
  fun path =>
    ((manifest.entries.get path).bind entryValue).or
      (if path ∈ manifest.deletedPaths then none else entries path)

/-- Nothing named `.git` is captured as a file or as a link. -/
def NoGitEntry (tree : Tree) : Prop :=
  ∀ path, ".git" ∈ path → tree.Captured path → ∀ object,
    tree.get path = some object → objectValue object = none

/-- A file's content at a path is determined by its fingerprint. -/
def ContentsSeen (previous tree : Tree) : Prop :=
  ∀ path old new, previous.get path = some (.file old) →
    tree.get path = some (.file new) →
      previous.stat path = tree.stat path → old.digest = new.digest

/-- A file's mode changed outside `.git` only where its fingerprint did. -/
def ModesSeen (previous tree : Tree) : Prop :=
  ∀ path, ".git" ∉ path → ∀ old new,
    previous.get path = some (.file old) →
      tree.get path = some (.file new) →
        previous.stat path = tree.stat path →
          sIMode old.mode = sIMode new.mode

section Applied

variable
  {previous tree : Tree} {hashCache : HashCache} {manifest : Manifest}

/-- The recorded entry of a path, read back, is the entry of the tree. -/
theorem manifestEntryAt_value
    (current : CacheCurrent hashCache tree) (path : RelPath) :
    (manifestEntryAt tree hashCache path).bind entryValue =
      (tree.get path).bind objectValue := by
  rw [manifestEntryAt]
  cases found : tree.get path with
  | none => rfl
  | some object =>
      cases object with
      | dir => rfl
      | special => rfl
      | symlink target => rfl
      | file data =>
          simp [entryValue, objectValue, current path data found]

theorem Tree.entries_of_inside
    (tree : Tree) {path : RelPath} (inside : ".git" ∈ path) :
    tree.entries path = none := by
  simp [Tree.entries, entriesBelow, inside]

/-- Captured or not, a path without a value has nothing to record. -/
theorem entries_eq_none_of_not_captured
    {path : RelPath} (notCaptured : ¬ tree.Captured path) :
    tree.entries path = none := by
  by_cases inside : ".git" ∈ path
  · exact tree.entries_of_inside inside
  · rw [tree.entries_of_not_skipped inside]
    rcases eq_or_ne path [] with rfl | nonempty
    · rw [tree.root_dir]
      rfl
    · rw [captured_of_outside tree nonempty inside,
        Option.not_isSome_iff_eq_none] at notCaptured
      rw [notCaptured]
      rfl

theorem applyManifest_full
    (full : FullOf tree hashCache manifest)
    (current : CacheCurrent hashCache tree) (noGit : NoGitEntry tree) :
    applyManifest manifest (fun _ => none) = tree.entries := by
  funext path
  simp only [applyManifest, ite_self, Option.or_none]
  rw [full.entries]
  split
  · next captured =>
      rw [manifestEntryAt_value current]
      by_cases inside : ".git" ∈ path
      · rw [tree.entries_of_inside inside]
        obtain ⟨object, found⟩ := Option.isSome_iff_exists.mp captured.2.1
        rw [found]
        exact noGit path inside captured object found
      · rw [tree.entries_of_not_skipped inside]
  · next notCaptured =>
      rw [entries_eq_none_of_not_captured notCaptured]
      rfl

/-- A file or link that is not repeated was recorded alike. -/
theorem entries_eq_of_not_changed
    {path : RelPath} {object : Object FileData}
    (outside : ".git" ∉ path)
    (contents : ContentsSeen previous tree) (modes : ModesSeen previous tree)
    (captured : tree.Captured path) (present : tree.get path = some object)
    (notDir : object ≠ .dir) (unchanged : ¬ Changed previous tree path) :
    previous.entries path = tree.entries path ∧
      ¬ Dropped previous tree path := by
  obtain ⟨_, oldType, sameStat⟩ :=
    (not_changed_iff captured present notDir).mp unchanged
  constructor
  · obtain ⟨old, oldPresent, sameType⟩ := Option.map_eq_some_iff.mp oldType
    rw [previous.entries_of_not_skipped outside,
      tree.entries_of_not_skipped outside, oldPresent, present]
    cases object with
    | dir => exact (notDir rfl).elim
    | special => cases old <;> simp_all [checkpointEntryType, objectValue]
    | symlink target =>
        cases old <;> simp_all [checkpointEntryType, objectValue]
    | file new =>
        cases old with
        | file old =>
            simp [objectValue,
              contents path old new oldPresent present sameStat,
              modes path outside old new oldPresent present sameStat]
        | dir => cases sameType
        | special => cases sameType
        | symlink target => cases sameType
  · rw [dropped_iff]
    rintro ⟨_, _, _, differs⟩
    apply differs
    rw [oldType, Tree.typeAt, present]
    rfl

/-- A path without a value now had none before, or is listed as deleted. -/
theorem entries_eq_none_of_not_dropped
    {path : RelPath} (outside : ".git" ∉ path)
    (noValue : (tree.get path).bind objectValue = none)
    (stays : ¬ Dropped previous tree path) :
    previous.entries path = none := by
  rw [previous.entries_of_not_skipped outside]
  rcases eq_or_ne path [] with rfl | nonempty
  · rw [previous.root_dir]
    rfl
  · cases before : previous.get path with
    | none => rfl
    | some old =>
        have sameType : tree.typeAt path = previous.typeAt path := by
          by_contra differs
          exact stays
            (dropped_iff.mpr ⟨nonempty, outside, by simp [before], differs⟩)
        rw [Tree.typeAt, Tree.typeAt, before] at sameType
        obtain ⟨object, present, sameType⟩ :=
          Option.map_eq_some_iff.mp sameType
        rw [present] at noValue
        cases object <;> cases old <;>
          simp [checkpointEntryType, objectValue] at sameType noValue ⊢

/-- What an incremental manifest writes at a path. -/
theorem IncrementalOf.value
    (incremental : IncrementalOf previous tree hashCache manifest)
    (current : CacheCurrent hashCache tree) (path : RelPath) :
    (Changed previous tree path →
        (manifest.entries.get path).bind entryValue =
          (tree.get path).bind objectValue) ∧
      (¬ Changed previous tree path →
        (manifest.entries.get path).bind entryValue = none) := by
  constructor
  · intro changed
    rw [incremental.changed path changed, manifestEntryAt_value current]
  · intro unchanged
    rw [incremental.unchanged path unchanged]
    rfl

/-- An incremental manifest leads from one tree's entries to the next's. -/
theorem applyManifest_incremental
    (incremental : IncrementalOf previous tree hashCache manifest)
    (current : CacheCurrent hashCache tree) (noGit : NoGitEntry tree)
    (contents : ContentsSeen previous tree)
    (modes : ModesSeen previous tree) :
    applyManifest manifest previous.entries = tree.entries := by
  funext path
  obtain ⟨written, notWritten⟩ := incremental.value current path
  rw [applyManifest]
  by_cases inside : ".git" ∈ path
  · rw [tree.entries_of_inside inside, previous.entries_of_inside inside,
      ite_self, Option.or_none]
    by_cases changed : Changed previous tree path
    · obtain ⟨entry, found, _⟩ := id changed
      have captured := (snapshotAt_isSome found).1
      obtain ⟨object, present⟩ := Option.isSome_iff_exists.mp captured.2.1
      rw [written changed, present]
      exact noGit path inside captured object present
    · exact notWritten changed
  · rw [tree.entries_of_not_skipped inside]
    cases value : (tree.get path).bind objectValue with
    | none =>
        have noEntry :
            (manifest.entries.get path).bind entryValue = none := by
          by_cases changed : Changed previous tree path
          · rw [written changed, value]
          · exact notWritten changed
        rw [noEntry, Option.none_or]
        split
        · rfl
        · next stays =>
            exact entries_eq_none_of_not_dropped inside value
              (mt (incremental.deletedPaths path).mpr stays)
    | some recorded =>
        by_cases changed : Changed previous tree path
        · rw [written changed, value, Option.some_or]
        · obtain ⟨object, present, isValue⟩ := Option.bind_eq_some_iff.mp value
          have notDir : object ≠ .dir := by
            rintro rfl
            cases isValue
          have nonempty : path ≠ [] := by
            rintro rfl
            rw [tree.root_dir] at present
            exact notDir (Option.some.inj present).symm
          have captured : tree.Captured path := by
            rw [captured_of_outside tree nonempty inside, present]
            rfl
          obtain ⟨same, stays⟩ :=
            entries_eq_of_not_changed inside contents modes captured present
              notDir changed
          rw [notWritten changed, Option.none_or,
            if_neg (mt (incremental.deletedPaths path).mp stays), same,
            tree.entries_of_not_skipped inside, value]

end Applied

/-! ## Checks on listed paths -/

/-- The regular file at a path. -/
def Tree.fileAt (tree : Tree) (path : RelPath) : Option FileData :=
  match tree.get path with
  | some (.file data) => some data
  | _ => none

theorem fileAt_eq_some
    {tree : Tree} {path : RelPath} {data : FileData}
    (isFile : tree.get path = some (.file data)) :
    path ∈ tree.paths ∧ tree.fileAt path = some data :=
  ⟨(tree.mem_paths path).mpr (by simp [isFile]), by
    simp [Tree.fileAt, isFile]⟩

theorem contentsSeen_of_paths
    {previous tree : Tree}
    (check :
      ∀ path ∈ tree.paths, previous.stat path = tree.stat path →
        (previous.fileAt path).isSome → (tree.fileAt path).isSome →
          (previous.fileAt path).map FileData.digest =
            (tree.fileAt path).map FileData.digest) :
    ContentsSeen previous tree := by
  intro path old new oldFile newFile sameStat
  obtain ⟨listed, newIs⟩ := fileAt_eq_some newFile
  have oldIs := (fileAt_eq_some oldFile).2
  simpa [oldIs, newIs] using check path listed sameStat

theorem modesSeen_of_paths
    {previous tree : Tree}
    (check :
      ∀ path ∈ tree.paths, previous.stat path = tree.stat path →
        (previous.fileAt path).isSome → (tree.fileAt path).isSome →
          (previous.fileAt path).map (sIMode ·.mode) =
            (tree.fileAt path).map (sIMode ·.mode)) :
    ModesSeen previous tree := by
  intro path _ old new oldFile newFile sameStat
  obtain ⟨listed, newIs⟩ := fileAt_eq_some newFile
  have oldIs := (fileAt_eq_some oldFile).2
  simpa [oldIs, newIs] using check path listed sameStat

theorem noGitEntry_of_paths
    {tree : Tree} (check : ∀ path ∈ tree.paths, ".git" ∉ path) :
    NoGitEntry tree := by
  intro path inside captured
  exact (check path ((tree.mem_paths path).mpr captured.2.1) inside).elim

end AgentSchedBench.Checkpoint
