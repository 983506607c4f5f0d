import AgentSchedBench.Checkpoint.Restore

/-!
# What a successful restore leaves

The restore script is described by two facts about the file system it leaves:
every written path holds the object the manifest has for it, and every path
that is neither above nor below a written one holds what the removals left.
The facts are proved for the loops in turn, from what one iteration does.
-/

namespace AgentSchedBench.Checkpoint

open FileSystem

/-! ## Paths below the root -/

theorem restoreRoot_valid : ValidPath restoreRoot := by
  decide

theorem restoreRoot_append_isPrefix_iff (front rest : RelPath) :
    restoreRoot ++ front <+: restoreRoot ++ rest ↔ front <+: rest :=
  List.prefix_append_right_inj restoreRoot

theorem noLinkAbove_below
    {fs : Fs FileData} {relpath : RelPath}
    (rootDir : fs.get restoreRoot = some .dir)
    (noLink :
      ∀ front, front <+: relpath → front ≠ relpath →
        ∀ target, fs.get (restoreRoot ++ front) ≠ some (.symlink target)) :
    fs.NoLinkAbove (restoreRoot ++ relpath) := by
  intro ancestor isPrefix proper target isLink
  rcases isPrefix_append_cases isPrefix with above | ⟨front, rfl, below⟩
  · have present : (fs.get restoreRoot).isSome := by simp [rootDir]
    rcases eq_or_ne ancestor restoreRoot with rfl | apart
    · rw [rootDir] at isLink
      cases isLink
    · rw [fs.dir_of_isPrefix above apart present] at isLink
      cases isLink
  · refine noLink front below ?_ target isLink
    rintro rfl
    exact proper rfl

theorem not_isPrefix_restoreRoot
    {relpath : RelPath} (nonempty : relpath ≠ []) :
    ¬ restoreRoot ++ relpath <+: restoreRoot := by
  intro below
  have isNil := (restoreRoot_append_isPrefix_iff relpath []).mp
    (by simpa using below)
  exact nonempty (List.prefix_nil.mp isNil)

theorem safeTarget_of_valid
    {relpath : RelPath} (nonempty : relpath ≠ []) (valid : ValidPath relpath) :
    safeTarget relpath = .ok relpath := by
  have notEmptyString : relpath ≠ [""] := by
    rintro rfl
    exact (valid "" (by simp)).1 rfl
  have relative : Fs.isAbsolute relpath = false := by
    cases relpath with
    | nil => rfl
    | cons name rest =>
        have nameValid := valid name List.mem_cons_self
        cases rest with
        | nil => simp [Fs.isAbsolute]
        | cons other rest => simp [Fs.isAbsolute, nameValid.1]
  have noParent : ".." ∉ relpath := by
    intro member
    exact (valid ".." member).2.2 rfl
  have kept :
      relpath.filter (fun name => name ≠ "" ∧ name ≠ ".") = relpath := by
    rw [List.filter_eq_self]
    intro name member
    have nameValid := valid name member
    simp [nameValid.1, nameValid.2.1]
  rw [safeTarget, if_neg notEmptyString,
    if_neg (by simp [relative, noParent])]
  simp only [kept]
  rw [if_neg nonempty]

/-! ## Removals -/

theorem isPreservedRelpath_of_outside
    {relpath : RelPath} (outside : ".git" ∉ relpath) :
    isPreservedRelpath relpath = false := by
  cases relpath with
  | nil => rfl
  | cons part rest =>
      rw [isPreservedRelpath, not_skipped_iff]
      rintro rfl
      exact outside List.mem_cons_self

/-- The incremental removals take away what is at or below a deleted path. -/
theorem restoreRemovals_incremental
    (manifest : Manifest) {fs : Fs FileData}
    (rootDir : fs.get restoreRoot = some .dir)
    (proper :
      ∀ deleted ∈ manifest.deletedPaths,
        deleted ≠ [] ∧ ValidPath deleted ∧ ".git" ∉ deleted)
    (noLink :
      ∀ deleted ∈ manifest.deletedPaths,
        ∀ front, front <+: deleted → front ≠ deleted →
          ∀ target, fs.get (restoreRoot ++ front) ≠ some (.symlink target)) :
    ∃ after, restoreRemovals false manifest fs = .ok after ∧
      ∀ path, after.get path =
        if ∃ deleted ∈ manifest.deletedPaths, restoreRoot ++ deleted <+: path
        then none else fs.get path := by
  have members : ∀ path,
      path ∈ deepestFirst manifest.deletedPaths ↔
        path ∈ manifest.deletedPaths :=
    fun path => (List.perm_insertionSort _ _).mem_iff
  obtain ⟨after, removed, state⟩ :=
    Loops.foldlM_total restoreDeletedPath
      (fun visited state =>
        state.get restoreRoot = some .dir ∧
          ∀ path, state.get path =
            if ∃ deleted ∈ visited, restoreRoot ++ deleted <+: path
            then none else fs.get path)
      (deepestFirst manifest.deletedPaths) fs (by simp [rootDir]) (by
        intro visited item member state ⟨rootStays, holds⟩
        have itemMember := (members item).mp member
        obtain ⟨nonempty, valid, outside⟩ := proper item itemMember
        have targetNonempty : restoreRoot ++ item ≠ [] := by
          simp [restoreRoot]
        have noLinkNow : state.NoLinkAbove (restoreRoot ++ item) := by
          apply noLinkAbove_below rootStays
          intro front isPrefix apart target isLink
          rw [holds] at isLink
          split at isLink
          · cases isLink
          · exact noLink item itemMember front isPrefix apart target isLink
        refine ⟨state.remove (restoreRoot ++ item), ?_, ?_, ?_⟩
        · rw [restoreDeletedPath, isPreservedRelpath_of_outside outside,
            safeTarget_of_valid nonempty valid, if_neg Bool.false_ne_true,
            ← state.removeAt_of_noLinkAbove targetNonempty
              (validPath_append restoreRoot_valid valid) noLinkNow]
        · rw [state.get_remove_of_not_isPrefix, rootStays]
          exact not_isPrefix_restoreRoot nonempty
        · intro path
          rw [state.get_remove targetNonempty, holds path]
          by_cases below : restoreRoot ++ item <+: path
          · rw [if_pos below, if_pos ⟨item, by simp, below⟩]
          · rw [if_neg below]
            congr 1
            apply propext
            constructor
            · rintro ⟨deleted, old, isPrefix⟩
              exact ⟨deleted, List.mem_append_left _ old, isPrefix⟩
            · rintro ⟨deleted, known, isPrefix⟩
              rcases List.mem_append.mp known with old | new
              · exact ⟨deleted, old, isPrefix⟩
              · rw [List.mem_singleton.mp new] at isPrefix
                exact (below isPrefix).elim)
  refine ⟨after, by simpa [restoreRemovals] using removed, ?_⟩
  intro path
  rw [state.2 path]
  simp only [members]

/-- Clearing keeps the root, what is outside it and the kept names. -/
theorem restoreRemovals_clear
    (manifest : Manifest) (fs : Fs FileData) :
    ∃ after, restoreRemovals true manifest fs = .ok after ∧
      after.get restoreRoot = fs.get restoreRoot ∧
      ∀ relpath, relpath ≠ [] →
        after.get (restoreRoot ++ relpath) =
          if isPreservedRelpath relpath then
            fs.get (restoreRoot ++ relpath)
          else none := by
  refine ⟨_, rfl, ?_, ?_⟩
  · rw [Fs.get_clear]
    have kept := Fs.clearedBelow_append restoreRoot checkpointSkipDirs []
    simp only [List.append_nil] at kept
    simp [kept]
  · intro relpath nonempty
    rw [Fs.get_clear, Fs.clearedBelow_append]
    cases relpath with
    | nil => exact (nonempty rfl).elim
    | cons part rest =>
        simp [isPreservedRelpath]

/-! ## Creating the parents -/

theorem path_between_cons
    {current path : Path} {part : String} {parts : Path} :
    current <+: path ∧ path <+: current ++ part :: parts ↔
      path = current ∨
        (current ++ [part] <+: path ∧
          path <+: (current ++ [part]) ++ parts) := by
  constructor
  · rintro ⟨⟨rest, rfl⟩, below⟩
    have restPrefix := (List.prefix_append_right_inj current).mp below
    cases rest with
    | nil => exact Or.inl (List.append_nil current)
    | cons first rest =>
        obtain ⟨rfl, tailPrefix⟩ := List.cons_prefix_cons.mp restPrefix
        refine Or.inr ⟨⟨rest, by simp⟩, ?_⟩
        have split : current ++ first :: rest = (current ++ [first]) ++ rest :=
          by simp
        rw [split]
        exact (List.prefix_append_right_inj _).mpr tailPrefix
  · rintro (rfl | ⟨above, below⟩)
    · exact ⟨List.prefix_refl path, List.prefix_append path _⟩
    · exact ⟨(List.prefix_append current [part]).trans above,
        by simpa using below⟩

/-- Parents that are directories or missing are directories afterwards. -/
theorem ensureDirs_of_clear
    {fs : Fs FileData} {current parts : Path}
    (currentDir : fs.get current = some .dir)
    (currentValid : ValidPath current) (partsValid : ValidPath parts)
    (clear :
      ∀ front, front <+: parts → front ≠ [] →
        fs.get (current ++ front) = none ∨
          fs.get (current ++ front) = some .dir) :
    ∃ after, ensureDirs fs current parts = .ok after ∧
      ∀ path, after.get path =
        if current <+: path ∧ path <+: current ++ parts then some .dir
        else fs.get path := by
  induction parts generalizing fs current with
  | nil =>
      refine ⟨fs, rfl, ?_⟩
      intro path
      split
      · next between =>
          have below : path <+: current := by simpa using between.2
          have equal : path = current :=
            below.eq_of_length_le between.1.length_le
          rw [equal, currentDir]
      · rfl
  | cons part parts induction =>
      have childValid : ValidPath (current ++ [part]) :=
        validPath_append currentValid
          (fun name member => partsValid name (by
            rw [List.mem_singleton.mp member]
            exact List.mem_cons_self))
      have restValid : ValidPath parts :=
        fun name member => partsValid name (List.mem_cons_of_mem part member)
      have childNonempty : current ++ [part] ≠ [] := by simp
      have parentDir : fs.get (current ++ [part]).dropLast = some .dir := by
        rw [List.dropLast_concat]
        exact currentDir
      have seen : fs.lstat (current ++ [part]) = fs.get (current ++ [part]) :=
        fs.lstat_of_noLinkAbove childNonempty childValid
          (fs.noLinkAbove_of_parent parentDir)
      have clearBelow :
          ∀ front, front <+: parts →
            fs.get ((current ++ [part]) ++ front) = none ∨
              fs.get ((current ++ [part]) ++ front) = some .dir := by
        intro front isPrefix
        have whole := clear (part :: front)
          (List.cons_prefix_cons.mpr ⟨rfl, isPrefix⟩) (by simp)
        simpa using whole
      rcases clearBelow [] List.nil_prefix with missing | present
      · rw [List.append_nil] at missing
        have assigned :
            (fs.assign (current ++ [part]) .dir).get (current ++ [part]) =
              some .dir :=
          fs.get_assign_self .dir childNonempty parentDir (by simp [missing])
        obtain ⟨after, created, state⟩ :=
          induction assigned
            childValid restValid (by
              intro front isPrefix nonempty
              rw [fs.get_assign_of_ne _ (by simpa using nonempty)]
              exact clearBelow front isPrefix)
        refine ⟨after, ?_, ?_⟩
        · rw [ensureDirs, seen, missing]
          dsimp only
          rw [fs.assignAt_of_parent .dir childNonempty childValid parentDir]
          exact created
        · intro path
          rw [state path]
          simp only [path_between_cons]
          by_cases isCurrent : path = current
          · subst isCurrent
            rw [fs.get_assign_of_ne _ (by simp), currentDir]
            simp
          · by_cases between :
                current ++ [part] <+: path ∧
                  path <+: (current ++ [part]) ++ parts
            · rw [if_pos between, if_pos (Or.inr between)]
            · rw [if_neg between,
                if_neg (not_or.mpr ⟨isCurrent, between⟩)]
              apply fs.get_assign_of_ne
              rintro rfl
              exact between ⟨List.prefix_refl _, List.prefix_append _ _⟩
      · rw [List.append_nil] at present
        obtain ⟨after, created, state⟩ :=
          induction present childValid restValid
            (fun front isPrefix _ => clearBelow front isPrefix)
        refine ⟨after, ?_, ?_⟩
        · rw [ensureDirs, seen, present]
          exact created
        · intro path
          rw [state path]
          simp only [path_between_cons]
          by_cases isCurrent : path = current
          · subst isCurrent
            rw [currentDir]
            simp
          · simp [isCurrent]

/-! ## Writing one entry -/

/-- The object the script writes for an entry. -/
def entryObject : ManifestEntry → Option (Object FileData)
  | .file (some hash) mode _ _ => some (.file ⟨hash, mode.getD 0o644⟩)
  | .symlink (some target) => some (.symlink target)
  | _ => none

/-- What changes when an object is put at a path below the root. -/
def Installs
    (before : Fs FileData) (relpath : RelPath) (object : Object FileData)
    (after : Fs FileData) : Prop :=
  ∀ path, after.get path =
    if path = restoreRoot ++ relpath then some object
    else if restoreRoot ++ relpath <+: path then none
    else if restoreRoot <+: path ∧ path <+: restoreRoot ++ relpath then
      some .dir
    else before.get path

/-- Above `relpath`, and below the root, there are only directories. -/
def ParentsClear (fs : Fs FileData) (relpath : RelPath) : Prop :=
  ∀ front, front <+: relpath → front ≠ relpath → front ≠ [] →
    fs.get (restoreRoot ++ front) = none ∨
      fs.get (restoreRoot ++ front) = some .dir

theorem isPrefix_iff_dropLast
    {path target : Path} (nonempty : target ≠ []) :
    path <+: target ↔ path = target ∨ path <+: target.dropLast := by
  have split := List.dropLast_append_getLast nonempty
  calc
    path <+: target ↔
        path <+: target.dropLast ++ [target.getLast nonempty] := by rw [split]
    _ ↔ path = target.dropLast ++ [target.getLast nonempty] ∨
        path <+: target.dropLast := List.prefix_concat_iff
    _ ↔ path = target ∨ path <+: target.dropLast := by rw [split]

theorem not_isPrefix_dropLast
    {target : Path} (nonempty : target ≠ []) :
    ¬ target <+: target.dropLast := by
  intro below
  have shorter := below.length_le
  have positive := List.length_pos_iff.mpr nonempty
  rw [List.length_dropLast] at shorter
  omega

section Entry

variable {blobs : BlobStore} {fs : Fs FileData} {relpath : RelPath}

theorem ensureParentDir_of_clear
    (rootDir : fs.get restoreRoot = some .dir)
    (nonempty : relpath ≠ []) (valid : ValidPath relpath)
    (parents : ParentsClear fs relpath) :
    ∃ after, ensureParentDir fs relpath = .ok after ∧
      ∀ path, after.get path =
        if restoreRoot <+: path ∧ path <+: (restoreRoot ++ relpath).dropLast
        then some .dir else fs.get path := by
  rw [List.dropLast_append_of_ne_nil nonempty]
  apply ensureDirs_of_clear rootDir restoreRoot_valid
  · exact fun name member => valid name (List.mem_of_mem_dropLast member)
  · intro front isPrefix frontNonempty
    refine parents front (isPrefix.trans (List.dropLast_prefix relpath)) ?_
      frontNonempty
    rintro rfl
    exact not_isPrefix_dropLast nonempty isPrefix

/-- Replacing what is at a path whose parents were created installs it. -/
theorem installs_of_replaced
    {parented after : Fs FileData} (object : Object FileData)
    (created :
      ∀ path, parented.get path =
        if restoreRoot <+: path ∧ path <+: (restoreRoot ++ relpath).dropLast
        then some .dir else fs.get path)
    (replaced :
      ∀ path, after.get path =
        if path = restoreRoot ++ relpath then some object
        else if restoreRoot ++ relpath <+: path then none
        else parented.get path) :
    Installs fs relpath object after := by
  have nonempty : restoreRoot ++ relpath ≠ [] := by simp [restoreRoot]
  intro path
  rw [replaced path, created path]
  by_cases same : path = restoreRoot ++ relpath
  · rw [if_pos same, if_pos same]
  · rw [if_neg same, if_neg same]
    congr 2
    rw [isPrefix_iff_dropLast nonempty]
    simp [same]

/-- Assigning where there is no directory leaves nothing below. -/
theorem get_assign_of_notDir
    {parented : Fs FileData} {target : Path} (object : Object FileData)
    (nonempty : target ≠ [])
    (parentDir : parented.get target.dropLast = some .dir)
    (notDir : parented.get target ≠ some .dir) (path : Path) :
    (parented.assign target object).get path =
      if path = target then some object
      else if target <+: path then none
      else parented.get path := by
  by_cases same : path = target
  · rw [if_pos same, same]
    exact parented.get_assign_self _ nonempty parentDir notDir
  · rw [if_neg same, parented.get_assign_of_ne _ same]
    split
    · next below => exact parented.none_of_ancestor below (Ne.symm same) notDir
    · rfl

theorem restoreFileEntry_installs
    {hash : Digest} (mode size : Option Nat) (mtimeNs : Option Int)
    (rootDir : fs.get restoreRoot = some .dir)
    (nonempty : relpath ≠ []) (valid : ValidPath relpath)
    (stored : blobs hash = some hash)
    (parents : ParentsClear fs relpath)
    (notLink : ∀ linkTarget,
      fs.get (restoreRoot ++ relpath) ≠ some (.symlink linkTarget))
    (notSpecial : fs.get (restoreRoot ++ relpath) ≠ some .special) :
    ∃ after,
      restoreFileEntry blobs fs
          (relpath, .file (some hash) mode size mtimeNs) = .ok after ∧
        Installs fs relpath (.file ⟨hash, mode.getD 0o644⟩) after := by
  have wholeNonempty : restoreRoot ++ relpath ≠ [] := by simp [restoreRoot]
  have wholeValid := validPath_append restoreRoot_valid valid
  obtain ⟨parented, ensured, created⟩ :=
    ensureParentDir_of_clear rootDir nonempty valid parents
  have parentDir :
      parented.get (restoreRoot ++ relpath).dropLast = some .dir := by
    rw [created, if_pos]
    refine ⟨?_, List.prefix_refl _⟩
    rw [List.dropLast_append_of_ne_nil nonempty]
    exact List.prefix_append _ _
  have targetKept :
      parented.get (restoreRoot ++ relpath) =
        fs.get (restoreRoot ++ relpath) := by
    rw [created, if_neg]
    exact fun between => not_isPrefix_dropLast wholeNonempty between.2
  have seen :=
    parented.lstat_of_noLinkAbove wholeNonempty wholeValid
      (parented.noLinkAbove_of_parent parentDir)
  set data : FileData := ⟨hash, mode.getD 0o644⟩ with dataIs
  obtain ⟨after, written, replaced⟩ :
      ∃ after, restoreFileAt parented relpath relpath data = .ok after ∧
        ∀ path, after.get path =
          if path = restoreRoot ++ relpath then some (.file data)
          else if restoreRoot ++ relpath <+: path then none
          else parented.get path := by
    have assigned :
        parented.get (restoreRoot ++ relpath) ≠ some .dir →
          ∀ path, (parented.assignAt (restoreRoot ++ relpath)
              (.file data)).get path =
            if path = restoreRoot ++ relpath then some (.file data)
            else if restoreRoot ++ relpath <+: path then none
            else parented.get path := by
      intro notDir
      rw [parented.assignAt_of_parent _ wholeNonempty wholeValid parentDir]
      exact get_assign_of_notDir _ wholeNonempty parentDir notDir
    rw [restoreFileAt, seen]
    cases found : parented.get (restoreRoot ++ relpath) with
    | none => exact ⟨_, rfl, assigned (by simp [found])⟩
    | some object =>
        cases object with
        | file old => exact ⟨_, rfl, assigned (by simp [found])⟩
        | symlink linkTarget =>
            exact (notLink linkTarget (targetKept ▸ found)).elim
        | special => exact (notSpecial (targetKept ▸ found)).elim
        | dir =>
            refine ⟨_, rfl, ?_⟩
            have parentStays :
                (parented.remove (restoreRoot ++ relpath)).get
                  (restoreRoot ++ relpath).dropLast = some .dir := by
              rw [parented.get_remove_of_not_isPrefix
                (not_isPrefix_dropLast wholeNonempty), parentDir]
            rw [parented.removeAt_of_noLinkAbove wholeNonempty wholeValid
                (parented.noLinkAbove_of_parent parentDir),
              Fs.assignAt_of_parent _ _ wholeNonempty wholeValid parentStays]
            exact parented.get_replace _ wholeNonempty parentDir
  refine ⟨after, ?_, installs_of_replaced _ created replaced⟩
  rw [restoreFileEntry]
  simp only [stored, ne_eq, not_true_eq_false, if_false,
    safeTarget_of_valid nonempty valid, ensured]
  exact written

theorem restoreSymlinkEntry_installs
    {linkTarget : Path}
    (rootDir : fs.get restoreRoot = some .dir)
    (nonempty : relpath ≠ []) (valid : ValidPath relpath)
    (linkNonempty : linkTarget ≠ [""])
    (parents : ParentsClear fs relpath) :
    ∃ after,
      restoreSymlinkEntry fs (relpath, .symlink (some linkTarget)) =
          .ok after ∧
        Installs fs relpath (.symlink linkTarget) after := by
  have wholeNonempty : restoreRoot ++ relpath ≠ [] := by simp [restoreRoot]
  have wholeValid := validPath_append restoreRoot_valid valid
  obtain ⟨parented, ensured, created⟩ :=
    ensureParentDir_of_clear rootDir nonempty valid parents
  have parentDir :
      parented.get (restoreRoot ++ relpath).dropLast = some .dir := by
    rw [created, if_pos]
    refine ⟨?_, List.prefix_refl _⟩
    rw [List.dropLast_append_of_ne_nil nonempty]
    exact List.prefix_append _ _
  have parentStays :
      (parented.remove (restoreRoot ++ relpath)).get
        (restoreRoot ++ relpath).dropLast = some .dir := by
    rw [parented.get_remove_of_not_isPrefix
      (not_isPrefix_dropLast wholeNonempty), parentDir]
  refine ⟨(parented.remove (restoreRoot ++ relpath)).assign
    (restoreRoot ++ relpath) (.symlink linkTarget), ?_, ?_⟩
  · rw [restoreSymlinkEntry]
    simp only [linkNonempty, if_false, safeTarget_of_valid nonempty valid,
      ensured]
    change Except.ok ((parented.removeAt (restoreRoot ++ relpath)).assignAt
      (restoreRoot ++ relpath) (.symlink linkTarget)) = _
    rw [parented.removeAt_of_noLinkAbove wholeNonempty wholeValid
        (parented.noLinkAbove_of_parent parentDir),
      Fs.assignAt_of_parent _ _ wholeNonempty wholeValid parentStays]
  · exact installs_of_replaced _ created
      (parented.get_replace _ wholeNonempty parentDir)

end Entry

/-! ## Writing all entries -/

/-- The path is one the write loops reach: listed, and not preserved. -/
def Writes
    (manifest : Manifest) (relpath : RelPath) (object : Object FileData) :
    Prop :=
  isPreservedRelpath relpath = false ∧
    (manifest.entries.get relpath).bind entryObject = some object

/-- What the write loops need of the manifest. -/
structure WritableEntries
    (blobs : BlobStore) (manifest : Manifest) : Prop where
  known :
    ∀ relpath entry, manifest.entries.get relpath = some entry →
      isPreservedRelpath relpath = false → (entryObject entry).isSome
  nonempty :
    ∀ relpath object, Writes manifest relpath object → relpath ≠ []
  valid :
    ∀ relpath object, Writes manifest relpath object → ValidPath relpath
  stored :
    ∀ relpath data, Writes manifest relpath (.file data) →
      blobs data.digest = some data.digest
  links :
    ∀ relpath target, Writes manifest relpath (.symlink target) →
      target ≠ [""]
  incomparable :
    ∀ relpath object other otherObject, Writes manifest relpath object →
      Writes manifest other otherObject → relpath <+: other →
      relpath = other

/-- What they need of the tree before them. -/
structure Writable
    (blobs : BlobStore) (manifest : Manifest) (base : Fs FileData) :
    Prop extends WritableEntries blobs manifest where
  rootDir : base.get restoreRoot = some .dir
  parents :
    ∀ relpath object, Writes manifest relpath object →
      ParentsClear base relpath
  notLink :
    ∀ relpath data, Writes manifest relpath (.file data) →
      ∀ target, base.get (restoreRoot ++ relpath) ≠ some (.symlink target)
  notSpecial :
    ∀ relpath data, Writes manifest relpath (.file data) →
      base.get (restoreRoot ++ relpath) ≠ some .special

/-- How far the write loops have come after some of the written paths. -/
structure WriteProgress
    (manifest : Manifest) (base : Fs FileData)
    (visited : List RelPath) (state : Fs FileData) : Prop where
  rootDir : state.get restoreRoot = some .dir
  placed :
    ∀ relpath ∈ visited, ∀ object, Writes manifest relpath object →
      state.get (restoreRoot ++ relpath) = some object
  above :
    ∀ relpath ∈ visited, ∀ front, front <+: relpath → front ≠ relpath →
      state.get (restoreRoot ++ front) = some .dir
  rest :
    ∀ path,
      (∀ relpath ∈ visited,
        ¬ (restoreRoot <+: path ∧ path <+: restoreRoot ++ relpath) ∧
          ¬ restoreRoot ++ relpath <+: path) →
      state.get path = base.get path

section Writes

variable
  {blobs : BlobStore} {manifest : Manifest} {base state after : Fs FileData}
  {visited : List RelPath} {relpath : RelPath} {object : Object FileData}

theorem Writes.unique
    {other : Object FileData}
    (left : Writes manifest relpath object)
    (right : Writes manifest relpath other) :
    object = other :=
  Option.some.inj (left.2.symm.trans right.2)

theorem WriteProgress.start
    (rootDir : base.get restoreRoot = some .dir) :
    WriteProgress manifest base [] base :=
  ⟨rootDir, by simp, by simp, fun _ _ => rfl⟩

theorem WriteProgress.parentsClear
    (ready : Writable blobs manifest base)
    (progress : WriteProgress manifest base visited state)
    (reached : ∀ other ∈ visited, ∃ object, Writes manifest other object)
    (writes : Writes manifest relpath object) :
    ParentsClear state relpath := by
  intro front isPrefix apart nonempty
  by_cases seen : ∃ other ∈ visited, front <+: other
  · obtain ⟨other, member, below⟩ := seen
    obtain ⟨otherObject, otherWrites⟩ := reached other member
    refine Or.inr (progress.above other member front below ?_)
    rintro rfl
    exact apart
      (ready.incomparable _ _ _ _ otherWrites writes isPrefix)
  · rw [progress.rest]
    · exact ready.parents relpath object writes front isPrefix apart nonempty
    · intro other member
      obtain ⟨otherObject, otherWrites⟩ := reached other member
      constructor
      · rintro ⟨_, below⟩
        exact seen ⟨other, member,
          (restoreRoot_append_isPrefix_iff front other).mp below⟩
      · intro below
        have above := (restoreRoot_append_isPrefix_iff other front).mp below
        obtain rfl := ready.incomparable _ _ _ _ otherWrites writes
          (above.trans isPrefix)
        exact apart (isPrefix.eq_of_length_le above.length_le)

/-- A written path holds what it held before, or its new object. -/
theorem WriteProgress.target
    (ready : Writable blobs manifest base)
    (progress : WriteProgress manifest base visited state)
    (reached : ∀ other ∈ visited, ∃ object, Writes manifest other object)
    (writes : Writes manifest relpath object) :
    state.get (restoreRoot ++ relpath) = base.get (restoreRoot ++ relpath) ∨
      state.get (restoreRoot ++ relpath) = some object := by
  by_cases seen : ∃ other ∈ visited, relpath <+: other
  · obtain ⟨other, member, below⟩ := seen
    obtain ⟨otherObject, otherWrites⟩ := reached other member
    obtain rfl := ready.incomparable _ _ _ _ writes otherWrites below
    exact Or.inr (progress.placed relpath member object writes)
  · left
    apply progress.rest
    intro other member
    obtain ⟨otherObject, otherWrites⟩ := reached other member
    constructor
    · rintro ⟨_, below⟩
      exact seen ⟨other, member,
        (restoreRoot_append_isPrefix_iff relpath other).mp below⟩
    · intro below
      have above := (restoreRoot_append_isPrefix_iff other relpath).mp below
      obtain rfl := ready.incomparable _ _ _ _ otherWrites writes above
      exact seen ⟨other, member, List.prefix_refl other⟩

/-- Installing one more written path. -/
theorem WriteProgress.step
    (ready : Writable blobs manifest base)
    (progress : WriteProgress manifest base visited state)
    (reached : ∀ other ∈ visited, ∃ object, Writes manifest other object)
    (writes : Writes manifest relpath object)
    (installs : Installs state relpath object after) :
    WriteProgress manifest base (visited ++ [relpath]) after := by
  have nonempty := ready.nonempty relpath object writes
  have kept :
      ∀ front, ¬ front <+: relpath → ¬ relpath <+: front →
        after.get (restoreRoot ++ front) =
          state.get (restoreRoot ++ front) := by
    intro front apart notBelow
    rw [installs, if_neg, if_neg, if_neg]
    · rintro ⟨_, below⟩
      exact apart ((restoreRoot_append_isPrefix_iff front relpath).mp below)
    · intro below
      exact notBelow
        ((restoreRoot_append_isPrefix_iff relpath front).mp below)
    · intro equal
      rw [List.append_cancel_left equal] at apart
      exact apart (List.prefix_refl relpath)
  have dirAbove :
      ∀ front, front <+: relpath → front ≠ relpath →
        after.get (restoreRoot ++ front) = some .dir := by
    intro front isPrefix apart
    rw [installs, if_neg, if_neg, if_pos]
    · exact ⟨List.prefix_append _ _,
        (restoreRoot_append_isPrefix_iff front relpath).mpr isPrefix⟩
    · intro below
      have above := (restoreRoot_append_isPrefix_iff relpath front).mp below
      exact apart (isPrefix.eq_of_length_le above.length_le)
    · exact fun equal => apart (List.append_cancel_left equal)
  refine ⟨?_, ?_, ?_, ?_⟩
  · simpa using dirAbove [] List.nil_prefix nonempty.symm
  · intro other member otherObject otherWrites
    by_cases same : other = relpath
    · subst same
      rw [installs, if_pos rfl, writes.unique otherWrites]
    · have old : other ∈ visited := by
        rcases List.mem_append.mp member with old | new
        · exact old
        · exact (same (List.mem_singleton.mp new)).elim
      rw [kept other]
      · exact progress.placed other old otherObject otherWrites
      · intro below
        exact same
          (ready.incomparable _ _ _ _ otherWrites writes below)
      · intro above
        exact same
          (ready.incomparable _ _ _ _ writes otherWrites above).symm
  · intro other member front isPrefix apart
    rcases List.mem_append.mp member with old | new
    · by_cases below : front <+: relpath
      · apply dirAbove front below
        rintro rfl
        obtain ⟨otherObject, otherWrites⟩ := reached other old
        exact apart
          (ready.incomparable _ _ _ _ writes otherWrites isPrefix)
      · rw [kept front below]
        · exact progress.above other old front isPrefix apart
        · intro above
          obtain ⟨otherObject, otherWrites⟩ := reached other old
          obtain rfl := ready.incomparable _ _ _ _ writes otherWrites
            (above.trans isPrefix)
          exact below isPrefix
    · rw [List.mem_singleton.mp new] at isPrefix apart
      exact dirAbove front isPrefix apart
  · intro path outside
    have apart := outside relpath (by simp)
    rw [installs, if_neg, if_neg apart.2, if_neg apart.1]
    · exact progress.rest path fun other member =>
        outside other (List.mem_append_left _ member)
    · rintro rfl
      exact apart.2 (List.prefix_refl _)

theorem Writes.of_mem
    {item : RelPath × ManifestEntry}
    (member : item ∈ manifest.entries.items)
    (kept : isPreservedRelpath item.1 = false)
    (objectIs : entryObject item.2 = some object) :
    Writes manifest item.1 object := by
  refine ⟨kept, ?_⟩
  rw [(Dict.mem_items _ _ _).mp member]
  exact objectIs

theorem restoreFileEntry_step
    (ready : Writable blobs manifest base)
    (progress : WriteProgress manifest base visited state)
    (reached : ∀ other ∈ visited, ∃ object, Writes manifest other object)
    {item : RelPath × ManifestEntry}
    (member : item ∈ manifest.entries.items.filter isFileEntry) :
    ∃ next, restoreFileEntry blobs state item = .ok next ∧
      WriteProgress manifest base (visited ++ [item.1]) next ∧
      ∃ object, Writes manifest item.1 object := by
  obtain ⟨listed, isFile⟩ := List.mem_filter.mp member
  obtain ⟨relpath, entry⟩ := item
  simp only [isFileEntry, Bool.and_eq_true, Bool.not_eq_true'] at isFile
  have known := ready.known relpath entry
    ((Dict.mem_items _ _ _).mp listed) isFile.1
  cases entry with
  | symlink target => simp at isFile
  | unknownType => simp at isFile
  | notDict => simp at isFile
  | file hash mode size mtimeNs =>
      cases hash with
      | none => simp [entryObject] at known
      | some hash =>
          have writes :
              Writes manifest relpath (.file ⟨hash, mode.getD 0o644⟩) :=
            Writes.of_mem listed isFile.1 rfl
          obtain ⟨next, written, installs⟩ :=
            restoreFileEntry_installs mode size mtimeNs progress.rootDir
              (ready.nonempty _ _ writes) (ready.valid _ _ writes)
              (ready.stored _ _ writes)
              (progress.parentsClear ready reached writes) (by
                intro target
                rcases progress.target ready reached writes with old | new
                · rw [old]
                  exact ready.notLink _ _ writes target
                · simp [new]) (by
                rcases progress.target ready reached writes with old | new
                · rw [old]
                  exact ready.notSpecial _ _ writes
                · simp [new])
          exact ⟨next, written,
            progress.step ready reached writes installs, _, writes⟩

theorem restoreSymlinkEntry_step
    (ready : Writable blobs manifest base)
    (progress : WriteProgress manifest base visited state)
    (reached : ∀ other ∈ visited, ∃ object, Writes manifest other object)
    {item : RelPath × ManifestEntry}
    (member : item ∈ manifest.entries.items.filter isSymlinkEntry) :
    ∃ next, restoreSymlinkEntry state item = .ok next ∧
      WriteProgress manifest base (visited ++ [item.1]) next ∧
      ∃ object, Writes manifest item.1 object := by
  obtain ⟨listed, isLink⟩ := List.mem_filter.mp member
  obtain ⟨relpath, entry⟩ := item
  simp only [isSymlinkEntry, Bool.and_eq_true, Bool.not_eq_true'] at isLink
  have known := ready.known relpath entry
    ((Dict.mem_items _ _ _).mp listed) isLink.1
  cases entry with
  | file hash mode size mtimeNs => simp at isLink
  | unknownType => simp at isLink
  | notDict => simp at isLink
  | symlink target =>
      cases target with
      | none => simp [entryObject] at known
      | some target =>
          have writes : Writes manifest relpath (.symlink target) :=
            Writes.of_mem listed isLink.1 rfl
          obtain ⟨next, written, installs⟩ :=
            restoreSymlinkEntry_installs progress.rootDir
              (ready.nonempty _ _ writes) (ready.valid _ _ writes)
              (ready.links _ _ writes)
              (progress.parentsClear ready reached writes)
          exact ⟨next, written,
            progress.step ready reached writes installs, _, writes⟩

/-- The tree with every entry written over it. -/
structure Overlaid
    (manifest : Manifest) (base after : Fs FileData) : Prop where
  rootDir : after.get restoreRoot = some .dir
  placed :
    ∀ relpath object, Writes manifest relpath object →
      after.get (restoreRoot ++ relpath) = some object
  above :
    ∀ relpath object, Writes manifest relpath object →
      ∀ front, front <+: relpath → front ≠ relpath →
        after.get (restoreRoot ++ front) = some .dir
  rest :
    ∀ relpath,
      (∀ other object, Writes manifest other object →
        ¬ relpath <+: other ∧ ¬ other <+: relpath) →
      after.get (restoreRoot ++ relpath) = base.get (restoreRoot ++ relpath)

theorem restoreWrites_overlaid
    (ready : Writable blobs manifest base) :
    ∃ after, restoreWrites blobs manifest base = .ok after ∧
      Overlaid manifest base after := by
  obtain ⟨middle, files, middleProgress, middleReached⟩ :=
    Loops.foldlM_total (restoreFileEntry blobs)
      (fun visited state =>
        WriteProgress manifest base (visited.map Prod.fst) state ∧
          ∀ other ∈ visited.map Prod.fst,
            ∃ object, Writes manifest other object)
      (manifest.entries.items.filter isFileEntry) base
      ⟨WriteProgress.start ready.rootDir, by simp⟩ (by
        intro visited item member state ⟨progress, reached⟩
        obtain ⟨next, written, nextProgress, writes⟩ :=
          restoreFileEntry_step ready progress reached member
        refine ⟨next, written, by simpa using nextProgress, ?_⟩
        intro other known
        rw [List.map_append, List.mem_append] at known
        rcases known with old | new
        · exact reached other old
        · rw [List.mem_singleton.mp new]
          exact writes)
  obtain ⟨after, links, progress, reached⟩ :=
    Loops.foldlM_total restoreSymlinkEntry
      (fun visited state =>
        WriteProgress manifest base
            ((manifest.entries.items.filter isFileEntry).map Prod.fst ++
              visited.map Prod.fst) state ∧
          ∀ other ∈
              (manifest.entries.items.filter isFileEntry).map Prod.fst ++
                visited.map Prod.fst,
            ∃ object, Writes manifest other object)
      (manifest.entries.items.filter isSymlinkEntry) middle
      ⟨by simpa using middleProgress, by simpa using middleReached⟩ (by
        intro visited item member state ⟨progress, reached⟩
        obtain ⟨next, written, nextProgress, writes⟩ :=
          restoreSymlinkEntry_step ready progress reached member
        refine ⟨next, written, by simpa using nextProgress, ?_⟩
        intro other known
        rw [List.map_append, ← List.append_assoc, List.mem_append] at known
        rcases known with old | new
        · exact reached other old
        · rw [List.mem_singleton.mp new]
          exact writes)
  have listed :
      ∀ relpath object, Writes manifest relpath object →
        relpath ∈ (manifest.entries.items.filter isFileEntry).map Prod.fst ++
          (manifest.entries.items.filter isSymlinkEntry).map Prod.fst := by
    rintro relpath object ⟨kept, found⟩
    obtain ⟨entry, present, objectIs⟩ := Option.bind_eq_some_iff.mp found
    have member := (Dict.mem_items _ _ _).mpr present
    rw [List.mem_append, List.mem_map, List.mem_map]
    cases entry with
    | file hash mode size mtimeNs =>
        exact Or.inl ⟨_, List.mem_filter.mpr
          ⟨member, by simp [isFileEntry, kept]⟩, rfl⟩
    | symlink target =>
        exact Or.inr ⟨_, List.mem_filter.mpr
          ⟨member, by simp [isSymlinkEntry, kept]⟩, rfl⟩
    | unknownType => cases objectIs
    | notDict => cases objectIs
  refine ⟨after, ?_, progress.rootDir, ?_, ?_, ?_⟩
  · rw [restoreWrites, files]
    exact links
  · intro relpath object writes
    exact progress.placed relpath (listed relpath object writes) object writes
  · intro relpath object writes
    exact progress.above relpath (listed relpath object writes)
  · intro relpath apart
    apply progress.rest
    intro other member
    obtain ⟨object, writes⟩ := reached other member
    have parted := apart other object writes
    rw [restoreRoot_append_isPrefix_iff, restoreRoot_append_isPrefix_iff]
    exact ⟨fun between => parted.1 between.2, parted.2⟩

theorem entryObject_ne_dir (entry : ManifestEntry) :
    entryObject entry ≠ some .dir := by
  cases entry with
  | file hash mode size mtimeNs => cases hash <;> simp [entryObject]
  | symlink target => cases target <;> simp [entryObject]
  | unknownType => simp [entryObject]
  | notDict => simp [entryObject]

theorem Writes.ne_dir (writes : Writes manifest relpath object) :
    object ≠ .dir := by
  obtain ⟨entry, _, objectIs⟩ := Option.bind_eq_some_iff.mp writes.2
  rintro rfl
  exact entryObject_ne_dir entry objectIs

theorem Overlaid.none_below
    (overlaid : Overlaid manifest base after) {other : RelPath}
    (writes : Writes manifest other object)
    (isPrefix : other <+: relpath) (apart : other ≠ relpath) :
    after.get (restoreRoot ++ relpath) = none := by
  apply after.none_of_ancestor
    ((restoreRoot_append_isPrefix_iff other relpath).mpr isPrefix)
  · exact fun equal => apart (List.append_cancel_left equal)
  · rw [overlaid.placed other object writes]
    exact fun isDir => writes.ne_dir (Option.some.inj isDir)

/-- A path is written, lies above or below a written path, or is kept. -/
theorem Overlaid.cases
    (overlaid : Overlaid manifest base after) (relpath : RelPath) :
    (∃ written, Writes manifest relpath written ∧
        after.get (restoreRoot ++ relpath) = some written) ∨
      (∃ other written, Writes manifest other written ∧ relpath <+: other ∧
        relpath ≠ other ∧ after.get (restoreRoot ++ relpath) = some .dir) ∨
      (∃ other written, Writes manifest other written ∧ other <+: relpath ∧
        other ≠ relpath ∧ after.get (restoreRoot ++ relpath) = none) ∨
      ((∀ written, ¬ Writes manifest relpath written) ∧
        after.get (restoreRoot ++ relpath) =
          base.get (restoreRoot ++ relpath)) := by
  by_cases listed : ∃ written, Writes manifest relpath written
  · obtain ⟨written, writes⟩ := listed
    exact Or.inl ⟨written, writes, overlaid.placed relpath written writes⟩
  right
  by_cases above : ∃ other written, Writes manifest other written ∧
      relpath <+: other
  · obtain ⟨other, written, writes, isPrefix⟩ := above
    have apart : relpath ≠ other := by
      rintro rfl
      exact listed ⟨written, writes⟩
    exact Or.inl ⟨other, written, writes, isPrefix, apart,
      overlaid.above other written writes relpath isPrefix apart⟩
  right
  by_cases below : ∃ other written, Writes manifest other written ∧
      other <+: relpath
  · obtain ⟨other, written, writes, isPrefix⟩ := below
    have apart : other ≠ relpath := by
      rintro rfl
      exact listed ⟨written, writes⟩
    exact Or.inl ⟨other, written, writes, isPrefix, apart,
      overlaid.none_below writes isPrefix apart⟩
  · refine Or.inr ⟨fun written writes => listed ⟨written, writes⟩, ?_⟩
    exact overlaid.rest relpath fun other written writes =>
      ⟨fun isPrefix => above ⟨other, written, writes, isPrefix⟩,
        fun isPrefix => below ⟨other, written, writes, isPrefix⟩⟩

/-- Manifests that write the same leave the same below the root. -/
theorem Overlaid.agree
    {other : Manifest} {otherAfter : Fs FileData}
    (overlaid : Overlaid manifest base after)
    (otherOverlaid : Overlaid other base otherAfter)
    (same :
      ∀ relpath object,
        Writes manifest relpath object ↔ Writes other relpath object)
    (relpath : RelPath) :
    after.get (restoreRoot ++ relpath) =
      otherAfter.get (restoreRoot ++ relpath) := by
  by_cases above : ∃ written object, Writes manifest written object ∧
      relpath <+: written
  · obtain ⟨written, object, writes, isPrefix⟩ := above
    have otherWrites := (same written object).mp writes
    rcases eq_or_ne relpath written with rfl | apart
    · rw [overlaid.placed relpath object writes,
        otherOverlaid.placed relpath object otherWrites]
    · rw [overlaid.above written object writes relpath isPrefix apart,
        otherOverlaid.above written object otherWrites relpath isPrefix
          apart]
  by_cases below : ∃ written object, Writes manifest written object ∧
      written <+: relpath
  · obtain ⟨written, object, writes, isPrefix⟩ := below
    have apart : written ≠ relpath := by
      rintro rfl
      exact above ⟨written, object, writes, List.prefix_refl _⟩
    rw [overlaid.none_below writes isPrefix apart,
      otherOverlaid.none_below ((same written object).mp writes) isPrefix
        apart]
  · have unrelated :
        ∀ written object, Writes manifest written object →
          ¬ relpath <+: written ∧ ¬ written <+: relpath :=
      fun written object writes =>
        ⟨fun isPrefix => above ⟨written, object, writes, isPrefix⟩,
          fun isPrefix => below ⟨written, object, writes, isPrefix⟩⟩
    rw [overlaid.rest relpath unrelated,
      otherOverlaid.rest relpath fun written object writes =>
        unrelated written object ((same written object).mpr writes)]

end Writes

/-! ## Whole restores -/

section Whole

variable {blobs : BlobStore} {manifest : Manifest} {fs base : Fs FileData}

theorem noLinkAbove_restoreRoot (fs : Fs FileData) :
    fs.NoLinkAbove restoreRoot :=
  fs.noLinkAbove_of_parent fs.root_dir

theorem lstat_restoreRoot (fs : Fs FileData) :
    fs.lstat restoreRoot = fs.get restoreRoot :=
  fs.lstat_of_noLinkAbove (by decide) restoreRoot_valid
    (noLinkAbove_restoreRoot fs)

theorem prepareRoot_of_dir
    (rootDir : fs.get restoreRoot = some .dir) :
    prepareRoot fs = fs := by
  rw [prepareRoot, lstat_restoreRoot, rootDir]

theorem prepareRoot_rootDir (fs : Fs FileData) :
    (prepareRoot fs).get restoreRoot = some .dir := by
  have nonempty : restoreRoot ≠ [] := by decide
  have assigned :
      ∀ cleared : Fs FileData, cleared.get restoreRoot = none →
        (cleared.assignAt restoreRoot .dir).get restoreRoot = some .dir := by
    intro cleared missing
    rw [cleared.assignAt_of_parent .dir nonempty restoreRoot_valid
      cleared.root_dir]
    exact cleared.get_assign_self .dir nonempty cleared.root_dir
      (by simp [missing])
  have removed :
      (fs.removeAt restoreRoot).get restoreRoot = none := by
    rw [fs.removeAt_of_noLinkAbove nonempty restoreRoot_valid
      (noLinkAbove_restoreRoot fs)]
    exact fs.get_remove_of_isPrefix nonempty (List.prefix_refl _)
  rw [prepareRoot, lstat_restoreRoot]
  cases found : fs.get restoreRoot with
  | none => exact assigned fs found
  | some object =>
      cases object with
      | dir => exact found
      | file data => exact assigned _ removed
      | symlink target => exact assigned _ removed
      | special => exact assigned _ removed

theorem resolveDir_restoreRoot
    (rootDir : fs.get restoreRoot = some .dir) :
    fs.resolveDir restoreRoot = some restoreRoot := by
  rw [fs.resolveDir_of_noLink restoreRoot_valid, rootDir]
  · rfl
  · intro front isPrefix target isLink
    rcases eq_or_ne front restoreRoot with rfl | apart
    · rw [rootDir] at isLink
      cases isLink
    · rw [fs.dir_of_isPrefix isPrefix apart (by simp [rootDir])] at isLink
      cases isLink

/-- All paths a manifest names are relative and well formed. -/
def Manifest.Safe (manifest : Manifest) : Prop :=
  (∀ relpath, (manifest.entries.get relpath).isSome →
      relpath ≠ [] ∧ ValidPath relpath) ∧
    ∀ relpath ∈ manifest.deletedPaths, relpath ≠ [] ∧ ValidPath relpath

theorem Manifest.Safe.checkPaths
    (safe : manifest.Safe) (fs : Fs FileData) :
    (manifest.entries.keys ++ manifest.deletedPaths).foldlM
      restoreCheckPath fs = .ok fs := by
  obtain ⟨_, checked, rfl⟩ :=
    Loops.foldlM_total restoreCheckPath (fun _ state => state = fs)
      (manifest.entries.keys ++ manifest.deletedPaths) fs rfl (by
        rintro _ relpath member _ rfl
        refine ⟨_, ?_, rfl⟩
        have proper : relpath ≠ [] ∧ ValidPath relpath := by
          rcases List.mem_append.mp member with key | deleted
          · exact safe.1 relpath ((manifest.entries.mem_keys relpath).mp key)
          · exact safe.2 relpath deleted
        rw [restoreCheckPath, safeTarget_of_valid proper.1 proper.2])
  exact checked

theorem Writable.checkEntries
    (ready : Writable blobs manifest base) :
    manifest.entries.items.foldlM restoreCheckEntry base = .ok base := by
  obtain ⟨_, checked, rfl⟩ :=
    Loops.foldlM_total restoreCheckEntry (fun _ state => state = base)
      manifest.entries.items base rfl (by
        rintro _ ⟨relpath, entry⟩ member _ rfl
        refine ⟨_, ?_, rfl⟩
        rw [restoreCheckEntry]
        cases kept : isPreservedRelpath relpath with
        | true => rfl
        | false =>
            have known := ready.known relpath entry
              ((Dict.mem_items _ _ _).mp member) kept
            cases entry with
            | file hash mode size mtimeNs => rfl
            | symlink target => rfl
            | unknownType => cases known
            | notDict => cases known)
  exact checked

/-- A restore succeeds once its removals leave a writable tree. -/
theorem restoreCasManifest_overlaid
    {clearRoot : Bool}
    (safe : manifest.Safe)
    (removed :
      restoreRemovals clearRoot manifest (prepareRoot fs) = .ok base)
    (ready : Writable blobs manifest base) :
    ∃ after, restoreCasManifest blobs clearRoot manifest fs = .ok after ∧
      Overlaid manifest base after := by
  obtain ⟨after, written, overlaid⟩ := restoreWrites_overlaid ready
  refine ⟨after, ?_, overlaid⟩
  have prepared :=
    resolveDir_restoreRoot (prepareRoot_rootDir fs)
  simp only [restoreCasManifest, prepared, ne_eq, not_true_eq_false, if_false,
    safe.checkPaths, removed, ready.checkEntries, written, overlaid.rootDir,
    isDirectory, if_true, bind, Except.bind, pure, Except.pure]

end Whole

end AgentSchedBench.Checkpoint
