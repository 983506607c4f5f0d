import AgentSchedBench.Checkpoint.RestoreStep

/-!
# Restoring any manifest over a restored tree

The manifest of a walk is the difference of two snapshots.  A manifest from
elsewhere restores a tree as well, if what it lists leads from the restored
tree to the new one.  `Leads` says what that takes, whoever wrote the manifest.
-/

namespace AgentSchedBench.Checkpoint

open FileSystem

/-- The manifest has all entries of the tree, and they are right. -/
structure Lists (tree : Tree) (manifest : Manifest) : Prop where
  outside : ∀ path, (manifest.entries.get path).isSome → ".git" ∉ path
  value :
    ∀ path entry, manifest.entries.get path = some entry →
      entryValue entry = tree.entries path

/-- The manifest leads from one tree, as restored, to another. -/
structure Leads
    (restored tree : Tree) (manifest : Manifest) : Prop
    extends Lists tree manifest where
  deletable :
    ∀ path ∈ manifest.deletedPaths,
      path ≠ [] ∧ ValidPath path ∧ ".git" ∉ path
  kept :
    ∀ path, ".git" ∉ path → (tree.entries path).isSome →
      manifest.entries.get path = none →
        restored.entries path = tree.entries path ∧
          ∀ front, front <+: path → front ∉ manifest.deletedPaths
  gone :
    ∀ path, ".git" ∉ path → (restored.entries path).isSome →
      tree.entries path = none →
        (∃ front, front <+: path ∧ front ∈ manifest.deletedPaths) ∨
          ∃ front, front <+: path ∧ front ≠ path ∧
            (manifest.entries.get front).isSome
  links :
    ∀ path, (manifest.entries.get path).isSome →
      ∀ data target, tree.get path = some (.file data) →
        restored.get path = some (.symlink target) →
          ∃ front, front <+: path ∧ front ∈ manifest.deletedPaths
  deletions :
    ∀ path ∈ manifest.deletedPaths,
      ∀ front, front <+: path → front ≠ path →
        ∀ target, restored.get front ≠ some (.symlink target)

section Leads

variable
  {restored tree : Tree} {blobs : BlobStore} {manifest : Manifest}
  {fs base after : Fs FileData}

/-- What a manifest writes is outside `.git`. -/
theorem Lists.writes_outside
    (lists : Lists tree manifest) {path : RelPath}
    {written : Object FileData} (writes : Writes manifest path written) :
    ".git" ∉ path := by
  apply lists.outside path
  obtain ⟨entry, present, _⟩ := Option.bind_eq_some_iff.mp writes.2
  simp [present]

theorem Lists.written_value
    (lists : Lists tree manifest) (entries : EntriesOf tree blobs manifest)
    {path : RelPath} {written : Object FileData}
    (writes : Writes manifest path written) :
    objectValue written = tree.entries path := by
  obtain ⟨entry, present, _⟩ := Option.bind_eq_some_iff.mp writes.2
  apply entries.written_value _ (lists.writes_outside writes) writes
  rw [present, Option.bind_some, lists.value path entry present,
    tree.entries_of_not_skipped (lists.writes_outside writes)]

/-- An entry of the manifest is written. -/
theorem Lists.writes
    (lists : Lists tree manifest) (entries : EntriesOf tree blobs manifest)
    {path : RelPath} (listed : (manifest.entries.get path).isSome) :
    ∃ written, Writes manifest path written := by
  obtain ⟨entry, present⟩ := Option.isSome_iff_exists.mp listed
  obtain ⟨_, object, _, recorded⟩ := entries path entry present
  have kept := isPreservedRelpath_of_outside (lists.outside path listed)
  rcases recorded.entryObject_eq with
    ⟨data, _, isFile, _⟩ | ⟨target, isLink, _⟩
  · exact ⟨_, kept, by rw [present, Option.bind_some, isFile]⟩
  · exact ⟨_, kept, by rw [present, Option.bind_some, isLink]⟩

/-- The base of the writes: a restored tree without the deleted paths. -/
structure WithoutDeleted
    (manifest : Manifest) (fs base : Fs FileData) : Prop where
  rootDir : base.get restoreRoot = some .dir
  gone :
    ∀ path,
      (∃ front, front <+: path ∧ front ∈ manifest.deletedPaths) →
        base.get (restoreRoot ++ path) = none
  kept :
    ∀ path, (∀ front, front <+: path → front ∉ manifest.deletedPaths) →
      base.get (restoreRoot ++ path) = fs.get (restoreRoot ++ path)

theorem WithoutDeleted.survived
    (without : WithoutDeleted manifest fs base)
    {path : RelPath} {object : Object FileData}
    (found : base.get (restoreRoot ++ path) = some object) :
    fs.get (restoreRoot ++ path) = some object ∧
      ∀ front, front <+: path → front ∉ manifest.deletedPaths := by
  have stays :
      ∀ front, front <+: path → front ∉ manifest.deletedPaths := by
    intro front isPrefix deleted
    rw [without.gone path ⟨front, isPrefix, deleted⟩] at found
    cases found
  rw [without.kept path stays] at found
  exact ⟨found, stays⟩

theorem Leads.removed
    (leads : Leads restored tree manifest)
    (restoredAs : RestoredAs (fun _ => True) restored fs) :
    ∃ base, restoreRemovals false manifest fs = .ok base ∧
      WithoutDeleted manifest fs base := by
  obtain ⟨base, removed, state⟩ :=
    restoreRemovals_incremental _ restoredAs.rootDir leads.deletable (by
      intro deleted member front isPrefix apart target isLink
      have outside : ".git" ∉ front := fun inside =>
        (leads.deletable deleted member).2.2 (isPrefix.subset inside)
      exact leads.deletions deleted member front isPrefix apart target
        (restoredAs.link outside isLink))
  have kept :
      ∀ path,
        (∀ front, front <+: path → front ∉ manifest.deletedPaths) →
          base.get (restoreRoot ++ path) =
            fs.get (restoreRoot ++ path) := by
    intro path stays
    rw [state, if_neg]
    rintro ⟨deleted, member, below⟩
    exact stays deleted
      ((restoreRoot_append_isPrefix_iff deleted path).mp below) member
  refine ⟨base, removed, ?_, ?_, kept⟩
  · have rootKept := kept [] (by
      intro front isPrefix deleted
      exact (leads.deletable front deleted).1
        (List.prefix_nil.mp isPrefix))
    simpa [restoredAs.rootDir] using rootKept
  · rintro path ⟨front, isPrefix, deleted⟩
    rw [state, if_pos]
    exact ⟨front, deleted,
      (restoreRoot_append_isPrefix_iff front path).mpr isPrefix⟩

/-- Above an entry of the tree there are directories only. -/
theorem EntriesOf.dir_above
    (entries : EntriesOf tree blobs manifest)
    {path front : RelPath} {written : Object FileData}
    (writes : Writes manifest path written)
    (isPrefix : front <+: path) (apart : front ≠ path) :
    tree.get front = some .dir :=
  tree.dir_of_isPrefix isPrefix apart (entries.writes writes).1.2.1

theorem Leads.writable
    (leads : Leads restored tree manifest)
    (entries : EntriesOf tree blobs manifest)
    (restoredAs : RestoredAs (fun _ => True) restored fs)
    (without : WithoutDeleted manifest fs base) :
    Writable blobs manifest base :=
  { toWritableEntries := entries.writableEntries
    rootDir := without.rootDir
    parents := by
      intro path written writes front isPrefix apart _
      have outside : ".git" ∉ front := fun inside =>
        leads.writes_outside writes (isPrefix.subset inside)
      cases found : base.get (restoreRoot ++ front) with
      | none => exact Or.inl rfl
      | some object =>
          right
          obtain ⟨inFs, stays⟩ := without.survived found
          rcases restoredAs.dir_or_value outside inFs with rfl | hasValue
          · rfl
          · exfalso
            have isDir := entries.dir_above writes isPrefix apart
            have noEntry : tree.entries front = none := by
              rw [tree.entries_of_not_skipped outside, isDir]
              rfl
            rcases leads.gone front outside hasValue noEntry with
              ⟨other, above, deleted⟩ | ⟨other, above, proper, listed⟩
            · exact stays other above deleted
            · obtain ⟨otherWritten, otherWrites⟩ :=
                leads.writes entries listed
              have missing :=
                entries.none_below otherWrites above proper
              rw [isDir] at missing
              cases missing
    notLink := by
      intro path data writes target isLink
      have outside := leads.writes_outside writes
      obtain ⟨inFs, stays⟩ := without.survived isLink
      obtain ⟨entry, present, _⟩ := Option.bind_eq_some_iff.mp writes.2
      rcases (entries.writes writes).2 with
        ⟨_, old, _, isFile, _⟩ | ⟨_, equal, _⟩
      · obtain ⟨front, isPrefix, deleted⟩ :=
          leads.links path (by simp [present]) old target isFile
            (restoredAs.link outside inFs)
        exact stays front isPrefix deleted
      · cases equal
    notSpecial := by
      intro path data writes isSpecial
      exact restoredAs.plain path (leads.writes_outside writes)
        (without.survived isSpecial).1 }

/-- A path that is not written has the entry of the tree. -/
theorem Leads.kept_entry
    (leads : Leads restored tree manifest)
    (entries : EntriesOf tree blobs manifest)
    (restoredAs : RestoredAs (fun _ => True) restored fs)
    (without : WithoutDeleted manifest fs base)
    (overlaid : Overlaid manifest base after)
    {path : RelPath} (outside : ".git" ∉ path)
    (notWritten : ∀ written, ¬ Writes manifest path written)
    (isKept :
      after.get (restoreRoot ++ path) = base.get (restoreRoot ++ path)) :
    (after.get (restoreRoot ++ path)).bind objectValue =
      tree.entries path := by
  have notListed : manifest.entries.get path = none := by
    by_contra listed
    obtain ⟨written, writes⟩ :=
      leads.writes entries (Option.isSome_iff_ne_none.mpr listed)
    exact notWritten written writes
  cases hasEntry : tree.entries path with
  | some value =>
      obtain ⟨same, stays⟩ :=
        leads.kept path outside (by simp [hasEntry]) notListed
      rw [isKept, without.kept path stays, ← entriesBelow_of_outside outside,
        restoredAs.entries path, same, hasEntry]
  | none =>
      rw [isKept]
      cases found : base.get (restoreRoot ++ path) with
      | none => rfl
      | some object =>
          obtain ⟨inFs, stays⟩ := without.survived found
          rcases restoredAs.dir_or_value outside inFs with rfl | hasValue
          · rfl
          · exfalso
            rcases leads.gone path outside hasValue hasEntry with
              ⟨front, above, deleted⟩ | ⟨front, above, proper, listed⟩
            · exact stays front above deleted
            · obtain ⟨written, writes⟩ := leads.writes entries listed
              have missing := overlaid.none_below writes above proper
              rw [isKept, found] at missing
              cases missing

/-- Written and unwritten paths have the entries of the tree. -/
theorem Lists.overlaid_entries
    (lists : Lists tree manifest) (entries : EntriesOf tree blobs manifest)
    (overlaid : Overlaid manifest base after)
    (kept :
      ∀ path, ".git" ∉ path → (∀ written, ¬ Writes manifest path written) →
        after.get (restoreRoot ++ path) = base.get (restoreRoot ++ path) →
          (after.get (restoreRoot ++ path)).bind objectValue =
            tree.entries path)
    (path : RelPath) :
    entriesBelow after restoreRoot path = tree.entries path := by
  by_cases inside : ".git" ∈ path
  · rw [entriesBelow_of_inside inside, tree.entries_of_inside inside]
  · rw [entriesBelow_of_outside inside]
    rcases overlaid.cases path with
      ⟨written, writes, isWritten⟩ | ⟨other, written, writes, isPrefix,
        apart, isDir⟩ | ⟨other, written, writes, isPrefix, apart, isNone⟩ |
      ⟨notWritten, isKept⟩
    · rw [isWritten]
      exact lists.written_value entries writes
    · rw [isDir, tree.entries_of_not_skipped inside,
        entries.dir_above writes isPrefix apart, Option.bind_some]
    · rw [isNone, tree.entries_of_not_skipped inside,
        entries.none_below writes isPrefix apart, Option.bind_none]
    · exact kept path inside notWritten isKept

/-- A manifest restored over a tree from which it leads on. -/
theorem Leads.restore
    (leads : Leads restored tree manifest)
    (entries : EntriesOf tree blobs manifest)
    (restoredAs : RestoredAs (fun _ => True) restored fs) :
    ∃ after, restoreCasManifest blobs false manifest fs = .ok after ∧
      RestoredAs (fun _ => True) tree after := by
  obtain ⟨base, removed, without⟩ := leads.removed restoredAs
  rw [← prepareRoot_of_dir restoredAs.rootDir] at removed
  have safe : manifest.Safe :=
    entries.safe fun path member =>
      ⟨(leads.deletable path member).1, (leads.deletable path member).2.1⟩
  obtain ⟨after, isRestored, overlaid⟩ :=
    restoreCasManifest_overlaid safe removed
      (leads.writable entries restoredAs without)
  refine ⟨after, isRestored, overlaid.rootDir, ?_, ?_, ?_⟩
  · exact leads.overlaid_entries entries overlaid
      fun path outside notWritten isKept =>
        leads.kept_entry entries restoredAs without overlaid outside
          notWritten isKept
  · intro path outside
    exact overlaid.plain fun isSpecial =>
      restoredAs.plain path outside (without.survived isSpecial).1
  · intro front nonempty outside object
    exact overlaid.git entries (fun _ _ _ => trivial) fun found =>
      restoredAs.git front nonempty outside object
        (without.survived found).1

/-- A manifest with all entries of a tree, restored over anything. -/
theorem Lists.restore_cleared
    (lists : Lists tree manifest) (entries : EntriesOf tree blobs manifest)
    (deletable :
      ∀ path ∈ manifest.deletedPaths, path ≠ [] ∧ ValidPath path)
    (complete :
      ∀ path, (tree.entries path).isSome →
        (manifest.entries.get path).isSome)
    (fs : Fs FileData) :
    ∃ after, restoreCasManifest blobs true manifest fs = .ok after ∧
      RestoredAs (fun _ => True) tree after := by
  obtain ⟨after, isRestored, overlaid⟩ :=
    AgentSchedBench.Checkpoint.restore_cleared (entries.safe deletable)
      entries fs
  have rootKept := clearedRoot_rootDir fs
  have missing := clearedRoot_get fs
  have fits := clearedRoot_fits tree fs
  refine ⟨after, isRestored, overlaid.rootDir, ?_, ?_, ?_⟩
  · apply lists.overlaid_entries entries overlaid
    intro path outside notWritten isKept
    have noEntry : tree.entries path = none := by
      by_contra hasEntry
      obtain ⟨written, writes⟩ :=
        lists.writes entries
          (complete path (Option.isSome_iff_ne_none.mpr hasEntry))
      exact notWritten written writes
    rw [isKept, noEntry]
    rcases eq_or_ne path [] with rfl | nonempty
    · rw [List.append_nil, rootKept]
      rfl
    · rw [missing path nonempty (isPreservedRelpath_of_outside outside)]
      rfl
  · intro path outside
    apply overlaid.plain
    rcases eq_or_ne path [] with rfl | nonempty
    · simp [rootKept]
    · simp [missing path nonempty (isPreservedRelpath_of_outside outside)]
  · intro front nonempty outside object
    refine overlaid.git entries (fun _ _ _ => trivial) fun found => ?_
    rcases fits.git front nonempty outside object found with
      isFile | ⟨_, _, isLeft⟩
    · exact Or.inl isFile
    · exact isLeft.elim

end Leads

end AgentSchedBench.Checkpoint
