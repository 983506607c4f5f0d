import AgentSchedBench.Checkpoint.Apply
import AgentSchedBench.Checkpoint.FoldRestore

/-!
# Restoring a manifest over another tree than its baseline

An incremental manifest is the difference from its baseline, but it is
restored over whatever the manifests before it left.  `Covers` says when the
difference from the baseline also leads from that restored tree to the tree of
the manifest; when the two are the same tree, it asks that the fingerprints
tell what changed.
-/

namespace AgentSchedBench.Checkpoint

open FileSystem

/-- The restored root holds the entries of the tree, and no oddities. -/
structure RestoredAs
    (left : RelPath → Prop) (tree : Tree) (fs : Fs FileData) : Prop where
  rootDir : fs.get restoreRoot = some .dir
  entries : ∀ path, entriesBelow fs restoreRoot path = tree.entries path
  plain :
    ∀ path, ".git" ∉ path → fs.get (restoreRoot ++ path) ≠ some .special
  git :
    ∀ front, front ≠ [] → ".git" ∉ front → ∀ object,
      fs.get (restoreRoot ++ (front ++ [".git"])) = some object →
        (∃ data, object = .file data) ∨
          ∃ target, object = .symlink target ∧ left (front ++ [".git"])

/-- The difference from the baseline leads from the restored tree too. -/
structure Covers (baseline restored tree : Tree) : Prop where
  kept :
    ∀ path, ".git" ∉ path → (tree.entries path).isSome →
      ¬ Changed baseline tree path →
        restored.entries path = tree.entries path
  gone :
    ∀ path, ".git" ∉ path → (restored.entries path).isSome →
      tree.entries path = none →
        (∃ front, front <+: path ∧ Dropped baseline tree front) ∨
          ∃ front, front <+: path ∧ front ≠ path ∧
            (tree.entries front).isSome ∧ Changed baseline tree front
  links :
    ∀ path, ".git" ∉ path → Changed baseline tree path →
      ∀ data target, tree.get path = some (.file data) →
        restored.get path = some (.symlink target) →
          ∃ front, front <+: path ∧ Dropped baseline tree front
  deletions :
    ∀ path, Dropped baseline tree path →
      ∀ front, front <+: path → front ≠ path →
        ∀ target, restored.get front ≠ some (.symlink target)

/-- Over its own baseline a difference covers what its fingerprints see. -/
theorem covers_self
    {baseline tree : Tree}
    (contents : ContentsSeen baseline tree)
    (modes : ModesSeen baseline tree) :
    Covers baseline baseline tree where
  kept path outside hasEntry unchanged := by
    rw [tree.entries_of_not_skipped outside] at hasEntry
    obtain ⟨value, isValue⟩ := Option.isSome_iff_exists.mp hasEntry
    obtain ⟨object, present, valueIs⟩ := Option.bind_eq_some_iff.mp isValue
    have notDir : object ≠ .dir := by
      rintro rfl
      cases valueIs
    have nonempty : path ≠ [] := by
      rintro rfl
      rw [tree.root_dir] at present
      exact notDir (Option.some.inj present).symm
    have captured : tree.Captured path := by
      rw [captured_of_outside tree nonempty outside, present]
      rfl
    exact (entries_eq_of_not_changed outside contents modes captured present
      notDir unchanged).1
  gone path outside hadEntry noEntry := by
    refine Or.inl ⟨path, List.prefix_refl path, ?_⟩
    by_contra stays
    rw [tree.entries_of_not_skipped outside] at noEntry
    rw [entries_eq_none_of_not_dropped outside noEntry stays] at hadEntry
    cases hadEntry
  links path outside _ data target isFile wasLink := by
    refine ⟨path, List.prefix_refl path, dropped_iff.mpr ⟨?_, outside, ?_, ?_⟩⟩
    · rintro rfl
      rw [tree.root_dir] at isFile
      cases isFile
    · simp [wasLink]
    · simp [Tree.typeAt, isFile, wasLink, checkpointEntryType]
  deletions path dropped front isPrefix apart target wasLink := by
    obtain ⟨_, _, before, _⟩ := dropped_iff.mp dropped
    rw [baseline.dir_of_isPrefix isPrefix apart before] at wasLink
    cases wasLink

section Value

variable {blobs : BlobStore} {object : Object FileData} {entry : ManifestEntry}

/-- A recorded entry is written as the value it records. -/
theorem RecordedAs.entryValue_eq
    (recorded : RecordedAs blobs object entry) :
    entryValue entry = (entryObject entry).bind objectValue := by
  cases entry with
  | file hash mode size mtimeNs =>
      cases hash with
      | none => rfl
      | some hash =>
          cases mode with
          | none => cases object <;> exact recorded.elim
          | some mode => rfl
  | symlink target => cases target <;> rfl
  | unknownType => rfl
  | notDict => rfl

end Value

section Step

variable
  {left : RelPath → Prop} {baseline restored tree : Tree}
  {hashCache : HashCache} {blobs : BlobStore} {manifest : Manifest}
  {fs base after : Fs FileData}

theorem EntriesOf.safe
    (entries : EntriesOf tree blobs manifest)
    (deleted :
      ∀ path ∈ manifest.deletedPaths, path ≠ [] ∧ ValidPath path) :
    manifest.Safe := by
  refine ⟨?_, deleted⟩
  intro path present
  obtain ⟨entry, found⟩ := Option.isSome_iff_exists.mp present
  have captured := (entries path entry found).1
  exact ⟨captured.1,
    tree.valid_paths path ((tree.mem_paths path).mpr captured.2.1)⟩

/-- The value of a written object is the entry of the tree. -/
theorem EntriesOf.written_value
    (entries : EntriesOf tree blobs manifest)
    {path : RelPath} {written : Object FileData}
    (recorded :
      (manifest.entries.get path).bind entryValue =
        (tree.get path).bind objectValue)
    (outside : ".git" ∉ path)
    (writes : Writes manifest path written) :
    objectValue written = tree.entries path := by
  obtain ⟨entry, present, objectIs⟩ := Option.bind_eq_some_iff.mp writes.2
  obtain ⟨_, object, _, isRecorded⟩ := entries path entry present
  rw [tree.entries_of_not_skipped outside, ← recorded, present,
    Option.bind_some, isRecorded.entryValue_eq, objectIs, Option.bind_some]

theorem entriesBelow_isSome
    {path : RelPath} (outside : ".git" ∉ path) {object : Object FileData}
    (found : fs.get (restoreRoot ++ path) = some object)
    (hasValue : (objectValue object).isSome) :
    (entriesBelow fs restoreRoot path).isSome := by
  rw [entriesBelow_of_outside outside, found]
  exact hasValue

theorem RestoredAs.link
    (restoredAs : RestoredAs left restored fs)
    {path : RelPath} (outside : ".git" ∉ path) {target : Path}
    (isLink : fs.get (restoreRoot ++ path) = some (.symlink target)) :
    restored.get path = some (.symlink target) := by
  have equal := restoredAs.entries path
  rw [entriesBelow_of_outside outside, isLink,
    restored.entries_of_not_skipped outside] at equal
  cases found : restored.get path with
  | none => simp [found, objectValue] at equal
  | some object =>
      cases object <;> simp [found, objectValue] at equal
      rw [equal]

/-- What a restored path holds is a directory, or has a value. -/
theorem RestoredAs.dir_or_value
    (restoredAs : RestoredAs left restored fs)
    {path : RelPath} (outside : ".git" ∉ path) {object : Object FileData}
    (found : fs.get (restoreRoot ++ path) = some object) :
    object = .dir ∨ (restored.entries path).isSome := by
  cases object with
  | dir => exact Or.inl rfl
  | special => exact (restoredAs.plain path outside found).elim
  | file data =>
      rw [← restoredAs.entries path]
      exact Or.inr (entriesBelow_isSome outside found rfl)
  | symlink target =>
      rw [← restoredAs.entries path]
      exact Or.inr (entriesBelow_isSome outside found rfl)

/-- The base of the writes: what is left of a restored tree. -/
structure Trimmed
    (baseline tree : Tree) (fs base : Fs FileData) : Prop where
  rootDir : base.get restoreRoot = some .dir
  gone :
    ∀ path, (∃ front, front <+: path ∧ Dropped baseline tree front) →
      base.get (restoreRoot ++ path) = none
  kept :
    ∀ path, (∀ front, front <+: path → ¬ Dropped baseline tree front) →
      base.get (restoreRoot ++ path) = fs.get (restoreRoot ++ path)

theorem Trimmed.survived
    (trimmed : Trimmed baseline tree fs base)
    {path : RelPath} {object : Object FileData}
    (found : base.get (restoreRoot ++ path) = some object) :
    fs.get (restoreRoot ++ path) = some object ∧
      ∀ front, front <+: path → ¬ Dropped baseline tree front := by
  by_cases removed : ∃ front, front <+: path ∧ Dropped baseline tree front
  · rw [trimmed.gone path removed] at found
    cases found
  · have stays :
        ∀ front, front <+: path → ¬ Dropped baseline tree front :=
      fun front isPrefix dropped => removed ⟨front, isPrefix, dropped⟩
    rw [trimmed.kept path stays] at found
    exact ⟨found, stays⟩

theorem IncrementalOf.trimmed
    (incremental : IncrementalOf baseline tree hashCache manifest)
    (restoredAs : RestoredAs left restored fs)
    (covers : Covers baseline restored tree) :
    ∃ base, restoreRemovals false manifest fs = .ok base ∧
      Trimmed baseline tree fs base := by
  have proper :
      ∀ deleted ∈ manifest.deletedPaths,
        deleted ≠ [] ∧ ValidPath deleted ∧ ".git" ∉ deleted := by
    intro deleted member
    obtain ⟨nonempty, outside, before, _⟩ :=
      dropped_iff.mp ((incremental.deletedPaths deleted).mp member)
    exact ⟨nonempty,
      baseline.valid_paths deleted ((baseline.mem_paths deleted).mpr before),
      outside⟩
  obtain ⟨base, removed, state⟩ :=
    restoreRemovals_incremental _ restoredAs.rootDir proper (by
      intro deleted member front isPrefix apart target isLink
      have outside : ".git" ∉ front := fun inside =>
        (proper deleted member).2.2 (isPrefix.subset inside)
      exact covers.deletions deleted
        ((incremental.deletedPaths deleted).mp member) front isPrefix apart
        target (restoredAs.link outside isLink))
  have gone :
      ∀ path, (∃ front, front <+: path ∧ Dropped baseline tree front) →
        base.get (restoreRoot ++ path) = none := by
    rintro path ⟨front, isPrefix, dropped⟩
    rw [state, if_pos]
    exact ⟨front, (incremental.deletedPaths front).mpr dropped,
      (restoreRoot_append_isPrefix_iff front path).mpr isPrefix⟩
  have kept :
      ∀ path, (∀ front, front <+: path → ¬ Dropped baseline tree front) →
        base.get (restoreRoot ++ path) =
          fs.get (restoreRoot ++ path) := by
    intro path stays
    rw [state, if_neg]
    rintro ⟨deleted, member, below⟩
    exact stays deleted
      ((restoreRoot_append_isPrefix_iff deleted path).mp below)
      ((incremental.deletedPaths deleted).mp member)
  refine ⟨base, removed, ?_, gone, kept⟩
  have rootKept := kept [] (by
    intro front isPrefix dropped
    exact (dropped_iff.mp dropped).1 (List.prefix_nil.mp isPrefix))
  simpa [restoredAs.rootDir] using rootKept

theorem Covers.writable
    (covers : Covers baseline restored tree)
    (restoredAs : RestoredAs left restored fs)
    (trimmed : Trimmed baseline tree fs base)
    (gitKept : GitKept left tree)
    (incremental : IncrementalOf baseline tree hashCache manifest)
    (entries : EntriesOf tree blobs manifest) :
    Writable blobs manifest base := by
  have isChanged :
      ∀ path written, Writes manifest path written →
        Changed baseline tree path := by
    intro path written writes
    by_contra unchanged
    have missing := writes.2
    rw [incremental.unchanged path unchanged] at missing
    cases missing
  exact
    { toWritableEntries := entries.writableEntries
      rootDir := trimmed.rootDir
      parents := by
        intro path written writes front isPrefix apart nonempty
        have captured := (entries.writes writes).1
        have outside := outside_above captured isPrefix apart
        cases found : base.get (restoreRoot ++ front) with
        | none => exact Or.inl rfl
        | some object =>
            right
            obtain ⟨inFs, stays⟩ := trimmed.survived found
            rcases restoredAs.dir_or_value outside inFs with rfl | hasValue
            · rfl
            · exfalso
              have dirAbove :
                  ∀ other, other <+: front → tree.get other = some .dir :=
                fun other above =>
                  tree.dir_of_isPrefix (above.trans isPrefix)
                    (by
                      rintro rfl
                      exact apart
                        (isPrefix.eq_of_length_le above.length_le))
                    captured.2.1
              have noEntry :
                  ∀ other, other <+: front → tree.entries other = none := by
                intro other above
                rw [tree.entries_of_not_skipped
                  (fun inside => outside (above.subset inside)),
                  dirAbove other above]
                rfl
              rcases covers.gone front outside hasValue
                (noEntry front (List.prefix_refl front)) with
                ⟨other, above, dropped⟩ | ⟨other, above, _, isSome, _⟩
              · exact stays other above dropped
              · rw [noEntry other above] at isSome
                cases isSome
      notLink := by
        intro path data writes target isLink
        obtain ⟨captured, objects⟩ := entries.writes writes
        obtain ⟨inFs, stays⟩ := trimmed.survived isLink
        obtain ⟨old, present⟩ :
            ∃ old, tree.get path = some (.file old) := by
          rcases objects with ⟨_, old, _, present, _⟩ | ⟨_, equal, _⟩
          · exact ⟨old, present⟩
          · cases equal
        rcases captured_cases captured with outside | ⟨front, outside, rfl⟩
        · obtain ⟨other, isPrefix, dropped⟩ :=
            covers.links path outside (isChanged path _ writes) old target
              present (restoredAs.link outside inFs)
          exact stays other isPrefix dropped
        · rcases restoredAs.git front (front_nonempty_of_kept writes.1)
            outside _ inFs with ⟨_, equal⟩ | ⟨_, _, isLeft⟩
          · cases equal
          · exact gitKept front outside isLeft old present
      notSpecial := by
        intro path data writes isSpecial
        have captured := (entries.writes writes).1
        have inFs := (trimmed.survived isSpecial).1
        rcases captured_cases captured with outside | ⟨front, outside, rfl⟩
        · exact restoredAs.plain path outside inFs
        · rcases restoredAs.git front (front_nonempty_of_kept writes.1)
            outside _ inFs with ⟨_, equal⟩ | ⟨_, equal, _⟩ <;> cases equal }

theorem EntriesOf.none_below
    (entries : EntriesOf tree blobs manifest) {other path : RelPath}
    {written : Object FileData} (writes : Writes manifest other written)
    (isPrefix : other <+: path) (apart : other ≠ path) :
    tree.get path = none := by
  apply tree.none_of_ancestor isPrefix apart
  intro isDir
  have typed := (entries.writes_type writes).2
  rw [(typeAt_eq_dir tree other).mpr isDir] at typed
  have notDir := writes.ne_dir
  cases written <;> simp [checkpointEntryType] at typed notDir

/-- The changed entries of the tree are written. -/
theorem IncrementalOf.writes
    (incremental : IncrementalOf baseline tree hashCache manifest)
    {path : RelPath} (outside : ".git" ∉ path)
    (hasEntry : (tree.entries path).isSome)
    (changed : Changed baseline tree path) :
    ∃ written, Writes manifest path written := by
  rw [tree.entries_of_not_skipped outside] at hasEntry
  obtain ⟨value, isValue⟩ := Option.isSome_iff_exists.mp hasEntry
  obtain ⟨object, present, valueIs⟩ := Option.bind_eq_some_iff.mp isValue
  exact writes_of_manifestEntryAt _ outside present (by simp [valueIs])
    (incremental.changed path changed)

/-- An entry that is not repeated lies below no deleted path. -/
theorem not_dropped_of_not_changed
    {path : RelPath} (outside : ".git" ∉ path)
    (hasEntry : (tree.entries path).isSome)
    (unchanged : ¬ Changed baseline tree path) :
    ∀ front, front <+: path → ¬ Dropped baseline tree front := by
  rw [tree.entries_of_not_skipped outside] at hasEntry
  obtain ⟨value, isValue⟩ := Option.isSome_iff_exists.mp hasEntry
  obtain ⟨object, present, valueIs⟩ := Option.bind_eq_some_iff.mp isValue
  have notDir : object ≠ .dir := by
    rintro rfl
    cases valueIs
  have nonempty : path ≠ [] := by
    rintro rfl
    rw [tree.root_dir] at present
    exact notDir (Option.some.inj present).symm
  have captured : tree.Captured path := by
    rw [captured_of_outside tree nonempty outside, present]
    rfl
  obtain ⟨oldCaptured, oldType, _⟩ :=
    (not_changed_iff captured present notDir).mp unchanged
  intro front isPrefix
  rcases eq_or_ne front path with rfl | apart
  · rw [dropped_iff]
    rintro ⟨_, _, _, differs⟩
    apply differs
    rw [oldType, Tree.typeAt, present]
    rfl
  · exact not_dropped_above isPrefix apart oldCaptured.2.1
      (by simp [present])

/-- An unwritten path that keeps its object keeps the right entry. -/
theorem Covers.kept_entry
    (covers : Covers baseline restored tree)
    (restoredAs : RestoredAs left restored fs)
    (trimmed : Trimmed baseline tree fs base)
    (incremental : IncrementalOf baseline tree hashCache manifest)
    (overlaid : Overlaid manifest base after)
    {path : RelPath} (outside : ".git" ∉ path)
    (notWritten : ∀ written, ¬ Writes manifest path written)
    (isKept :
      after.get (restoreRoot ++ path) = base.get (restoreRoot ++ path)) :
    (after.get (restoreRoot ++ path)).bind objectValue =
      tree.entries path := by
  cases hasEntry : tree.entries path with
  | some value =>
      have isSome : (tree.entries path).isSome := by simp [hasEntry]
      have unchanged : ¬ Changed baseline tree path := by
        intro changed
        obtain ⟨written, writes⟩ :=
          incremental.writes outside isSome changed
        exact notWritten written writes
      rw [isKept,
        trimmed.kept path
          (not_dropped_of_not_changed outside isSome unchanged),
        ← entriesBelow_of_outside outside, restoredAs.entries path,
        covers.kept path outside isSome unchanged, hasEntry]
  | none =>
      rw [isKept]
      cases found : base.get (restoreRoot ++ path) with
      | none => rfl
      | some object =>
          obtain ⟨inFs, stays⟩ := trimmed.survived found
          rcases restoredAs.dir_or_value outside inFs with rfl | hasValue
          · rfl
          · exfalso
            rcases covers.gone path outside hasValue hasEntry with
              ⟨other, above, dropped⟩ |
              ⟨other, above, apart, isSome, changed⟩
            · exact stays other above dropped
            · obtain ⟨written, writes⟩ :=
                incremental.writes
                  (fun within => outside (above.subset within))
                  isSome changed
              have missing := overlaid.none_below writes above apart
              rw [isKept, found] at missing
              cases missing

/-- Written and unwritten paths together have the entries of the tree. -/
theorem Covers.entries
    (covers : Covers baseline restored tree)
    (restoredAs : RestoredAs left restored fs)
    (trimmed : Trimmed baseline tree fs base)
    (incremental : IncrementalOf baseline tree hashCache manifest)
    (current : CacheCurrent hashCache tree)
    (entries : EntriesOf tree blobs manifest)
    (overlaid : Overlaid manifest base after) (path : RelPath) :
    entriesBelow after restoreRoot path = tree.entries path := by
  by_cases inside : ".git" ∈ path
  · rw [entriesBelow_of_inside inside, tree.entries_of_inside inside]
  · rw [entriesBelow_of_outside inside]
    rcases overlaid.cases path with
      ⟨written, writes, isWritten⟩ | ⟨other, written, writes, isPrefix,
        apart, isDir⟩ | ⟨other, written, writes, isPrefix, apart, isNone⟩ |
      ⟨notWritten, isKept⟩
    · rw [isWritten]
      have changed : Changed baseline tree path := by
        by_contra unchanged
        have missing := writes.2
        rw [incremental.unchanged path unchanged] at missing
        cases missing
      exact entries.written_value
        ((incremental.value current path).1 changed) inside writes
    · rw [isDir, tree.entries_of_not_skipped inside,
        tree.dir_of_isPrefix isPrefix apart (entries.writes writes).1.2.1,
        Option.bind_some]
    · rw [isNone, tree.entries_of_not_skipped inside,
        entries.none_below writes isPrefix apart, Option.bind_none]
    · exact covers.kept_entry restoredAs trimmed incremental overlaid inside
        notWritten isKept

/-- What a restored tree has besides its entries stays in order. -/
theorem Overlaid.plain
    (overlaid : Overlaid manifest base after) {path : RelPath}
    (plain : base.get (restoreRoot ++ path) ≠ some .special) :
    after.get (restoreRoot ++ path) ≠ some .special := by
  intro isSpecial
  rcases overlaid.cases path with
    ⟨written, writes, isWritten⟩ | ⟨_, _, _, _, _, isDir⟩ |
    ⟨_, _, _, _, _, isNone⟩ | ⟨_, isKept⟩
  · rw [isWritten] at isSpecial
    cases isSpecial
    obtain ⟨entry, _, objectIs⟩ := Option.bind_eq_some_iff.mp writes.2
    cases entry with
    | file hash mode size mtimeNs =>
        cases hash <;> simp [entryObject] at objectIs
    | symlink target => cases target <;> simp [entryObject] at objectIs
    | unknownType => simp [entryObject] at objectIs
    | notDict => simp [entryObject] at objectIs
  · simp [isDir] at isSpecial
  · simp [isNone] at isSpecial
  · exact plain (isKept ▸ isSpecial)

theorem Overlaid.git
    (overlaid : Overlaid manifest base after)
    (entries : EntriesOf tree blobs manifest)
    (linksLeft :
      ∀ path target, tree.get path = some (.symlink target) → left path)
    {front : RelPath} {object : Object FileData}
    (old :
      base.get (restoreRoot ++ (front ++ [".git"])) = some object →
        (∃ data, object = .file data) ∨
          ∃ target, object = .symlink target ∧ left (front ++ [".git"]))
    (found :
      after.get (restoreRoot ++ (front ++ [".git"])) = some object) :
    (∃ data, object = .file data) ∨
      ∃ target, object = .symlink target ∧ left (front ++ [".git"]) := by
  rcases overlaid.cases (front ++ [".git"]) with
    ⟨written, writes, isWritten⟩ | ⟨other, written, writes, isPrefix, apart,
      _⟩ | ⟨_, _, _, _, _, isNone⟩ | ⟨_, isKept⟩
  · rw [isWritten] at found
    cases found
    rcases (entries.writes writes).2 with
      ⟨data, _, isFile, _⟩ | ⟨target, isLink, present⟩
    · exact Or.inl ⟨data, isFile⟩
    · exact Or.inr ⟨target, isLink, linksLeft _ target present⟩
  · exact (outside_above (entries.writes writes).1 isPrefix apart
      (by simp)).elim
  · simp [isNone] at found
  · exact old (isKept ▸ found)

/-- An incremental manifest restored over a tree that it covers. -/
theorem restore_incremental
    (restoredAs : RestoredAs left restored fs)
    (covers : Covers baseline restored tree)
    (gitKept : GitKept left tree)
    (linksLeft :
      ∀ path target, tree.get path = some (.symlink target) → left path)
    (incremental : IncrementalOf baseline tree hashCache manifest)
    (current : CacheCurrent hashCache tree)
    (entries : EntriesOf tree blobs manifest) :
    ∃ after, restoreCasManifest blobs false manifest fs = .ok after ∧
      RestoredAs left tree after := by
  obtain ⟨base, removed, trimmed⟩ := incremental.trimmed restoredAs covers
  rw [← prepareRoot_of_dir restoredAs.rootDir] at removed
  have safe : manifest.Safe := by
    apply entries.safe
    intro path member
    obtain ⟨nonempty, _, before, _⟩ :=
      dropped_iff.mp ((incremental.deletedPaths path).mp member)
    exact ⟨nonempty,
      baseline.valid_paths path ((baseline.mem_paths path).mpr before)⟩
  obtain ⟨after, isRestored, overlaid⟩ :=
    restoreCasManifest_overlaid safe removed
      (covers.writable restoredAs trimmed gitKept incremental entries)
  refine ⟨after, isRestored, overlaid.rootDir, ?_, ?_, ?_⟩
  · exact covers.entries restoredAs trimmed incremental current entries
      overlaid
  · intro path outside
    exact overlaid.plain fun isSpecial =>
      restoredAs.plain path outside (trimmed.survived isSpecial).1
  · intro front nonempty outside object
    exact overlaid.git entries linksLeft fun found =>
      restoredAs.git front nonempty outside object
        (trimmed.survived found).1

/-- The file system after the root was made and cleared. -/
def clearedRoot (fs : Fs FileData) : Fs FileData :=
  (prepareRoot fs).clear restoreRoot checkpointSkipDirs

theorem clearedRoot_rootDir (fs : Fs FileData) :
    (clearedRoot fs).get restoreRoot = some .dir := by
  obtain ⟨_, removed, rootKept, _⟩ :=
    restoreRemovals_clear ⟨Dict.empty, []⟩ (prepareRoot fs)
  cases removed
  rw [clearedRoot, rootKept, prepareRoot_rootDir]

theorem clearedRoot_get
    (fs : Fs FileData) (path : RelPath) (nonempty : path ≠ [])
    (kept : isPreservedRelpath path = false) :
    (clearedRoot fs).get (restoreRoot ++ path) = none := by
  obtain ⟨_, removed, _, cleared⟩ :=
    restoreRemovals_clear ⟨Dict.empty, []⟩ (prepareRoot fs)
  cases removed
  rw [clearedRoot, cleared path nonempty, kept]
  rfl

theorem clearedRoot_fits (tree : Tree) (fs : Fs FileData) :
    Fits (fun _ => False) tree (clearedRoot fs) := by
  obtain ⟨_, removed, _, cleared⟩ :=
    restoreRemovals_clear ⟨Dict.empty, []⟩ (prepareRoot fs)
  cases removed
  exact fits_cleared _ tree (clearedRoot_rootDir fs) cleared

/-- Entries of a tree can be restored over whatever was cleared. -/
theorem restore_cleared
    (safe : manifest.Safe) (entries : EntriesOf tree blobs manifest)
    (fs : Fs FileData) :
    ∃ after, restoreCasManifest blobs true manifest fs = .ok after ∧
      Overlaid manifest (clearedRoot fs) after :=
  restoreCasManifest_overlaid safe rfl
    ((clearedRoot_fits tree fs).writable (fun _ _ isLeft => isLeft.elim)
      entries)

/-- A full manifest restored over anything. -/
theorem restore_full
    (linksLeft :
      ∀ path target, tree.get path = some (.symlink target) → left path)
    (full : FullOf tree hashCache manifest)
    (current : CacheCurrent hashCache tree)
    (entries : EntriesOf tree blobs manifest) (fs : Fs FileData) :
    ∃ after, restoreCasManifest blobs true manifest fs = .ok after ∧
      RestoredAs left tree after := by
  obtain ⟨after, isRestored, overlaid⟩ :=
    restore_cleared
      (entries.safe fun path member => (full.deletedPaths path member).elim)
      entries fs
  have fits := clearedRoot_fits tree fs
  have gitKept : GitKept (fun _ => False) tree :=
    fun _ _ isLeft => isLeft.elim
  have rootKept := clearedRoot_rootDir fs
  have missing := clearedRoot_get fs
  refine ⟨after, isRestored, overlaid.rootDir, ?_, ?_, ?_⟩
  · intro path
    by_cases inside : ".git" ∈ path
    · rw [entriesBelow_of_inside inside, tree.entries_of_inside inside]
    · rw [entriesBelow_of_outside inside]
      have recorded :
          tree.Captured path →
            (manifest.entries.get path).bind entryValue =
              (tree.get path).bind objectValue := by
        intro captured
        rw [full.entries, if_pos captured, manifestEntryAt_value current]
      rcases fits.overlaid_cases gitKept entries overlaid path with
        ⟨written, writes, isWritten⟩ | ⟨other, written, writes, isPrefix,
          apart, isDir⟩ | ⟨notWritten, isKept⟩
      · rw [isWritten]
        exact entries.written_value (recorded (entries.writes writes).1)
          inside writes
      · rw [isDir, tree.entries_of_not_skipped inside,
          tree.dir_of_isPrefix isPrefix apart (entries.writes writes).1.2.1,
          Option.bind_some]
      · rw [isKept]
        rcases eq_or_ne path [] with rfl | nonempty
        · rw [List.append_nil, rootKept, tree.entries_of_not_skipped inside,
            tree.root_dir]
        · rw [missing path nonempty (isPreservedRelpath_of_outside inside),
            Option.bind_none]
          by_contra hasEntry
          have isSome : (tree.entries path).isSome :=
            Option.isSome_iff_ne_none.mpr (Ne.symm hasEntry)
          rw [tree.entries_of_not_skipped inside] at isSome
          obtain ⟨value, isValue⟩ := Option.isSome_iff_exists.mp isSome
          obtain ⟨object, present, valueIs⟩ :=
            Option.bind_eq_some_iff.mp isValue
          have captured :=
            (captured_of_outside tree nonempty inside).mpr
              (by simp [present])
          obtain ⟨written, writes⟩ :=
            writes_of_manifestEntryAt hashCache inside present
              (by simp [valueIs])
              (by rw [full.entries, if_pos captured])
          exact notWritten written writes
  · intro path outside
    apply overlaid.plain
    rcases eq_or_ne path [] with rfl | nonempty
    · simp [rootKept]
    · simp [missing path nonempty (isPreservedRelpath_of_outside outside)]
  · intro front nonempty outside object
    refine overlaid.git entries linksLeft fun found => ?_
    rcases fits.git front nonempty outside object found with
      isFile | ⟨_, _, isLeft⟩
    · exact Or.inl isFile
    · exact isLeft.elim

end Step

end AgentSchedBench.Checkpoint
