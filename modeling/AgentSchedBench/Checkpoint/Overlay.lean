import AgentSchedBench.Checkpoint.Container
import AgentSchedBench.Checkpoint.Apply
import Mathlib.Data.List.Infix

/-!
# The overlay checkpoint

`OverlayBackend` does not walk the tree of the container: it reads the upper
layer of its overlay file system and records the files and links there, and
what the whiteouts there delete.  The tree of the container is the lower layer
seen through the upper one.
-/

namespace AgentSchedBench.Checkpoint

open FileSystem

/-! ## The two layers -/

/-- The name of the whiteout that deletes a name. -/
def whiteoutName (name : String) : String := ".wh." ++ name

/-- `name.startswith(".wh.")`. -/
def isWhiteoutName (name : String) : Bool :=
  ".wh.".toList.isPrefixOf name.toList

/-- `name.removeprefix(".wh.")` on the name of a whiteout. -/
def deletedName (name : String) : String :=
  String.ofList (name.toList.drop 4)

/-- The whiteout in a directory that hides the directory of that path below. -/
def wholeDirName : String := ".wh..wh..opq"

/-- `_is_overlay_whiteout`, given which device files are 0:0. -/
def isOverlayWhiteout
    (tree : Tree) (charZero : RelPath → Bool) (path : RelPath) : Bool :=
  match tree.get path, path.getLast? with
  | some .special, some name => isWhiteoutName name && charZero path
  | _, _ => false

/-- The upper layer: a whiteout deletes a name that is not there. -/
structure UpperLayer extends Tree where
  charZero : RelPath → Bool
  paths_nodup : paths.Nodup
  whiteouts :
    ∀ dirpath name,
      isOverlayWhiteout toTree charZero (dirpath ++ [whiteoutName name]) =
          true →
        ValidName name ∧ get (dirpath ++ [name]) = none

namespace UpperLayer

variable (upper : UpperLayer)

def isWhiteout (path : RelPath) : Bool :=
  isOverlayWhiteout upper.toTree upper.charZero path

/-- The place of the whiteout that deletes a path. -/
def whiteoutPath (path : RelPath) : RelPath :=
  path.dropLast ++ [whiteoutName (path.getLast?.getD "")]

/-- There is a whiteout that deletes the path. -/
def deletes (path : RelPath) : Bool :=
  !path.isEmpty && upper.isWhiteout (whiteoutPath path)

/-- The lower directory of the path is hidden as a whole. -/
def hidesDir (dirpath : RelPath) : Bool :=
  upper.isWhiteout (dirpath ++ [wholeDirName])

/-- The upper layer leaves the lower object at a path visible. -/
def passes (path : RelPath) : Bool :=
  path.inits.all fun front =>
    front.isEmpty ||
      (!upper.deletes front && !upper.hidesDir front.dropLast &&
        (isDirectory (upper.get front) || (upper.get front).isNone))

/-- The object that the two layers have at a path. -/
def mergedGet (lower : Tree) (path : RelPath) : Option (Object FileData) :=
  if upper.isWhiteout path then none
  else
    (upper.get path).or (if upper.passes path then lower.get path else none)

end UpperLayer

section Merge

variable {upper : UpperLayer} {lower : Tree}

theorem isOverlayWhiteout_special
    {tree : Tree} {charZero : RelPath → Bool} {path : RelPath}
    (whiteout : isOverlayWhiteout tree charZero path = true) :
    tree.get path = some .special := by
  rw [isOverlayWhiteout] at whiteout
  split at whiteout
  · assumption
  · cases whiteout

/-- What is shown through the upper layer is shown at each path above. -/
theorem UpperLayer.passes_iff (path : RelPath) :
    upper.passes path = true ↔
      ∀ front, front <+: path → front ≠ [] →
        upper.deletes front = false ∧ upper.hidesDir front.dropLast = false ∧
          (upper.get front = some .dir ∨ upper.get front = none) := by
  rw [UpperLayer.passes, List.all_eq_true]
  apply forall_congr'
  intro front
  rw [List.mem_inits]
  apply imp_congr_right
  intro _
  cases front with
  | nil => simp
  | cons name rest => simp [and_assoc]

theorem UpperLayer.passes_of_isPrefix
    {front path : RelPath} (above : front <+: path)
    (shown : upper.passes path = true) : upper.passes front = true := by
  rw [passes_iff] at shown ⊢
  intro other isPrefix
  exact shown other (isPrefix.trans above)

theorem UpperLayer.mergedGet_upper
    {path : RelPath} {object : Object FileData}
    (present : upper.get path = some object)
    (plain : upper.isWhiteout path = false) :
    upper.mergedGet lower path = some object := by
  rw [mergedGet, plain, present]
  rfl

/-- A merged object is the upper one, or a lower one that is shown. -/
theorem UpperLayer.mergedGet_cases
    {path : RelPath} {object : Object FileData}
    (merged : upper.mergedGet lower path = some object) :
    upper.isWhiteout path = false ∧
      (upper.get path = some object ∨
        (upper.get path = none ∧ upper.passes path = true ∧
          lower.get path = some object)) := by
  rw [mergedGet] at merged
  split at merged
  · cases merged
  · next plain =>
      refine ⟨by simpa using plain, ?_⟩
      cases present : upper.get path with
      | some other =>
          rw [present] at merged
          exact Or.inl merged
      | none =>
          rw [present, Option.none_or] at merged
          split at merged
          · next shown => exact Or.inr ⟨rfl, shown, merged⟩
          · cases merged

theorem UpperLayer.mergedGet_of_dir
    {path : RelPath} (isDir : upper.get path = some .dir) :
    upper.mergedGet lower path = some .dir := by
  apply mergedGet_upper isDir
  by_contra whiteout
  have special :=
    isOverlayWhiteout_special (Bool.not_eq_false _ ▸ whiteout)
  rw [isDir] at special
  cases special

theorem UpperLayer.mergedGet_parent
    {path : RelPath} {name : String}
    (present : (upper.mergedGet lower (path ++ [name])).isSome) :
    upper.mergedGet lower path = some .dir := by
  obtain ⟨object, merged⟩ := Option.isSome_iff_exists.mp present
  rcases (mergedGet_cases merged).2 with inUpper | ⟨_, shown, inLower⟩
  · exact mergedGet_of_dir (upper.parent_dir path name (by simp [inUpper]))
  · have lowerDir := lower.parent_dir path name (by simp [inLower])
    rcases eq_or_ne path [] with rfl | nonempty
    · exact mergedGet_of_dir upper.root_dir
    · have above := passes_of_isPrefix (List.prefix_append path [name]) shown
      rcases ((passes_iff path).mp above path (List.prefix_refl path)
        nonempty).2.2 with isDir | missing
      · exact mergedGet_of_dir isDir
      · rw [mergedGet, above, missing, lowerDir]
        split
        · next whiteout =>
            have special := isOverlayWhiteout_special whiteout
            rw [missing] at special
            cases special
        · rfl

end Merge

/-- The layers of a container; there may be no upper one yet. -/
structure Layers where
  lower : Tree
  upper : Option UpperLayer
  linkToDir : RelPath → Bool

/-- The tree of the container. -/
def UpperLayer.mergedTree
    (upper : UpperLayer) (lower : Tree) (linkToDir : RelPath → Bool) :
    Tree where
  get := upper.mergedGet lower
  root_dir := UpperLayer.mergedGet_of_dir upper.root_dir
  parent_dir _ _ present := UpperLayer.mergedGet_parent present
  stat path :=
    if (upper.get path).isSome then upper.stat path else lower.stat path
  linkToDir := linkToDir
  paths :=
    (upper.paths ++ lower.paths).filter fun path =>
      (upper.mergedGet lower path).isSome
  mem_paths path := by
    rw [List.mem_filter, List.mem_append, upper.mem_paths, lower.mem_paths]
    constructor
    · exact fun both => both.2
    · intro present
      refine ⟨?_, present⟩
      obtain ⟨object, merged⟩ := Option.isSome_iff_exists.mp present
      rcases (UpperLayer.mergedGet_cases merged).2 with
        inUpper | ⟨_, _, inLower⟩
      · exact Or.inl (by simp [inUpper])
      · exact Or.inr (by simp [inLower])
  valid_paths path member := by
    rw [List.mem_filter, List.mem_append] at member
    rcases member.1 with inUpper | inLower
    · exact upper.valid_paths path inUpper
    · exact lower.valid_paths path inLower
  valid_links path target merged := by
    rcases (UpperLayer.mergedGet_cases merged).2 with
      inUpper | ⟨_, _, inLower⟩
    · exact upper.valid_links path target inUpper
    · exact lower.valid_links path target inLower

def Layers.merged (layers : Layers) : Tree :=
  match layers.upper with
  | none => { layers.lower with linkToDir := layers.linkToDir }
  | some upper => upper.mergedTree layers.lower layers.linkToDir

/-! ## The scan of the upper layer -/

/-- The exceptions of the overlay checkpoint. -/
inductive OverlayError where
  | wholeDirWhiteout (path : RelPath)
  | invalidWhiteout (path : RelPath)
  | unsupportedEntryType (path : RelPath)
  | upperdirMissing
  | changedDuringCheckpoint
  | notWritten (failure : ContainerError)
deriving DecidableEq, Repr

/-- `_whiteout_deleted_path`. -/
def whiteoutDeletedPath (relpath : RelPath) : Except OverlayError RelPath :=
  let name := relpath.getLast?.getD ""
  if name = wholeDirName then .error (.wholeDirWhiteout relpath)
  else if isWhiteoutName name = false ∨ name.length ≤ ".wh.".length then
    .error (.invalidWhiteout relpath)
  else .ok (relpath.dropLast ++ [deletedName name])

/-- Is the entry left out of an incremental capture? -/
def notNewer (sinceNs : Option Int) (stat : Stat) : Bool :=
  match sinceNs with
  | none => false
  | some sinceNs => stat.mtimeNs ≤ sinceNs

/-- The variables that `_scan_upperdir` returns. -/
structure ScanState where
  changed : Dict RelPath ChangedEntry
  deletedPaths : List RelPath
  verifiedBlobs : Dict RelPath Digest

namespace UpperLayer

variable (upper : UpperLayer) (sinceNs : Option Int)

/-- The body of the loop over `dirnames`: only links are recorded. -/
def scanDirname (state : ScanState) (path : RelPath) :
    Except OverlayError ScanState :=
  match upper.get path with
  | some (.symlink target) =>
      if notNewer sinceNs (upper.stat path) then .ok state
      else if checkpointRelpathIsSkipped path then .ok state
      else
        .ok { state with
          changed := state.changed.set path (.symlink target) }
  | _ => .ok state

/-- The body of the loop over `filenames`. -/
def scanFilename (state : ScanState) (path : RelPath) :
    Except OverlayError ScanState :=
  if notNewer sinceNs (upper.stat path) then .ok state
  else if checkpointRelpathIsSkipped path then .ok state
  else if upper.isWhiteout path then
    (whiteoutDeletedPath path).map fun deleted =>
      { state with deletedPaths := state.deletedPaths ++ [deleted] }
  else
    match upper.get path with
    | some (.symlink target) =>
        .ok { state with
          changed := state.changed.set path (.symlink target) }
    | some (.file data) =>
        .ok { state with
          changed :=
            state.changed.set path
              (.file data.digest (sIMode data.mode) (upper.stat path).size
                (upper.stat path).mtimeNs)
          verifiedBlobs := state.verifiedBlobs.set path data.digest }
    | _ => .error (.unsupportedEntryType path)

/-- The body of the walk. -/
def scanItem (state : ScanState) (item : WalkItem) :
    Except OverlayError ScanState := do
  let links ←
    (item.dirnames.map (item.dirpath ++ [·])).foldlM
      (upper.scanDirname sinceNs) state
  (item.filenames.map (item.dirpath ++ [·])).foldlM
    (upper.scanFilename sinceNs) links

/-- `_any_overlay_entry_newer_than`. -/
def anyOverlayEntryNewerThan (markerNs : Int) : Bool :=
  markerNs < (upper.stat []).mtimeNs ||
    (upper.osWalk checkpointSkipDirs.contains).any fun item =>
      (item.dirnames ++ item.filenames).any fun name =>
        markerNs < (upper.stat (item.dirpath ++ [name])).mtimeNs

end UpperLayer

/-- `_scan_upperdir`. -/
def scanUpperdir (upper : Option UpperLayer) (sinceNs : Option Int) :
    Except OverlayError ScanState :=
  match upper with
  | none => .ok ⟨Dict.empty, [], Dict.empty⟩
  | some upper => do
      let state ←
        (upper.osWalk checkpointSkipDirs.contains).foldlM
          (upper.scanItem sinceNs) ⟨Dict.empty, [], Dict.empty⟩
      return { state with deletedPaths := sortPaths state.deletedPaths }

/--
A `SandboxSnapshot` by its disk state: the manifest, which the snapshot of a
start marker does not have, whether it is incremental, and its time.
-/
structure DiskSnapshot where
  manifest : Option Manifest
  incremental : Bool
  timestampNs : Int

/-- A capture of the layers as they are at a time. -/
structure OverlayCall where
  layers : Layers
  markerBeforeNs : Int

/-- `OverlayBackend.capture_snapshot`, with the blobs that it leaves. -/
def captureOverlay
    (call : OverlayCall) (incrementalSince : Option DiskSnapshot)
    (blobs : BlobStore) : Except OverlayError DiskSnapshot × BlobStore :=
  match
      scanUpperdir call.layers.upper
        (incrementalSince.map DiskSnapshot.timestampNs) with
  | .error failure => (.error failure, blobs)
  | .ok scan =>
      match
          writeContainerManifest scan.changed scan.deletedPaths
            scan.verifiedBlobs blobs with
      | .error failure => (.error (.notWritten failure), blobs)
      | .ok (manifest, state) =>
          match call.layers.upper with
          | none => (.error .upperdirMissing, state.blobs)
          | some upper =>
              if upper.anyOverlayEntryNewerThan call.markerBeforeNs then
                (.error .changedDuringCheckpoint, state.blobs)
              else
                (.ok
                  { manifest := some manifest
                    incremental := incrementalSince.isSome
                    timestampNs := call.markerBeforeNs },
                  state.blobs)

/-! ## What the scan finds -/

namespace UpperLayer

variable (upper : UpperLayer) (sinceNs : Option Int)

/-- The value the scan has for a path. -/
def scannedEntry (path : RelPath) : Option ChangedEntry :=
  if notNewer sinceNs (upper.stat path) ∨ ".git" ∈ path then none
  else
    match upper.get path with
    | some (.symlink target) => some (.symlink target)
    | some (.file data) =>
        some
          (.file data.digest (sIMode data.mode) (upper.stat path).size
            (upper.stat path).mtimeNs)
    | _ => none

/-- The path that the scan takes for deleted at a whiteout. -/
def scannedDeletion (path : RelPath) : Option RelPath :=
  if notNewer sinceNs (upper.stat path) ∨ ".git" ∈ path then none
  else if upper.isWhiteout path then
    some (path.dropLast ++ [deletedName (path.getLast?.getD "")])
  else none

/-- The paths that the two loops of the scan go over. -/
def scannedPaths : List RelPath :=
  (iterCheckpointEntries upper.toTree).filter fun path =>
    !isDirectory (upper.get path)

/-- After some paths the variables have exactly what was found there. -/
structure ScanInvariant
    (visited : List RelPath) (state : ScanState) : Prop where
  changed :
    ∀ path, state.changed.get path =
      if path ∈ visited then upper.scannedEntry sinceNs path else none
  verified :
    ∀ path hash mode size mtimeNs,
      state.changed.get path = some (.file hash mode size mtimeNs) →
        state.verifiedBlobs.get path = some hash
  deletedPaths :
    state.deletedPaths = visited.filterMap (upper.scannedDeletion sinceNs)

end UpperLayer

section Scan

variable {upper : UpperLayer} {sinceNs : Option Int}

/-- A link is recorded alike by both loops. -/
theorem UpperLayer.scanDirname_eq (state : ScanState) (path : RelPath) :
    upper.scanDirname sinceNs state path =
      if upper.isLink path then upper.scanFilename sinceNs state path
      else .ok state := by
  rw [scanDirname]
  rcases found : upper.get path with _ | data | target | _ | _
  · simp [Tree.isLink, found]
  · simp [Tree.isLink, found]
  · have plain : upper.isWhiteout path = false := by
      by_contra whiteout
      have special :=
        isOverlayWhiteout_special (Bool.not_eq_false _ ▸ whiteout)
      rw [found] at special
      cases special
    simp [Tree.isLink, found, scanFilename, plain]
  · simp [Tree.isLink, found]
  · simp [Tree.isLink, found]

/-- The two loops over a directory are one loop over what is not one. -/
theorem UpperLayer.scanItem_eq
    (state : ScanState) (dirpath : RelPath)
    (isDir : upper.get dirpath = some .dir) :
    upper.scanItem sinceNs state
        (upper.walkItem checkpointSkipDirs.contains dirpath) =
      (((((upper.walkItem checkpointSkipDirs.contains
            dirpath).dirnames.filter fun name =>
          upper.isLink (dirpath ++ [name])).map (dirpath ++ [·])) ++
        (if dirpath.isEmpty then [] else [dirpath]) ++
        (upper.walkItem checkpointSkipDirs.contains
          dirpath).filenames.map (dirpath ++ [·])).filter fun path =>
          !isDirectory (upper.get path)).foldlM
            (upper.scanFilename sinceNs) state := by
  have links :
      ∀ (names : List String) (state : ScanState),
        (names.map (dirpath ++ [·])).foldlM (upper.scanDirname sinceNs)
            state =
          (((names.filter fun name => upper.isLink (dirpath ++ [name])).map
            (dirpath ++ [·])).filter fun path =>
              !isDirectory (upper.get path)).foldlM
                (upper.scanFilename sinceNs) state := by
    intro names
    induction names with
    | nil => exact fun _ => rfl
    | cons name rest induction =>
        intro state
        rw [List.map_cons, List.foldlM_cons, scanDirname_eq,
          List.filter_cons]
        cases isLink : upper.isLink (dirpath ++ [name]) with
        | false =>
            simp only [Bool.false_eq_true, if_false]
            exact induction state
        | true =>
            have notDir :
                (!isDirectory (upper.get (dirpath ++ [name]))) = true := by
              rw [Tree.isLink] at isLink
              split at isLink
              · next found => simp [found, isDirectory]
              · cases isLink
            simp only [if_true, List.map_cons, List.filter_cons, notDir,
              List.foldlM_cons]
            apply congrArg
            funext next
            exact induction next
  have directory :
      (if dirpath.isEmpty then [] else [dirpath]).filter (fun path =>
        !isDirectory (upper.get path)) = [] := by
    split
    · rfl
    · simp [isDir]
  have files :
      ((upper.walkItem checkpointSkipDirs.contains dirpath).filenames.map
        (dirpath ++ [·])).filter (fun path =>
          !isDirectory (upper.get path)) =
        (upper.walkItem checkpointSkipDirs.contains dirpath).filenames.map
          (dirpath ++ [·]) := by
    rw [List.filter_eq_self]
    intro path member
    obtain ⟨name, listed, rfl⟩ := List.mem_map.mp member
    rw [Tree.walkItem, List.mem_filter] at listed
    have notDir := listed.2
    rw [Tree.isDirEntry] at notDir
    cases found : upper.get (dirpath ++ [name]) with
    | none => rfl
    | some object =>
        cases object with
        | dir => simp [found] at notDir
        | file data => rfl
        | symlink target => rfl
        | special => rfl
  rw [scanItem, List.filter_append, List.filter_append, directory, files,
    List.append_nil, List.foldlM_append, ← links]
  rfl

/-- The scan is one loop over its paths. -/
theorem scanUpperdir_eq :
    scanUpperdir (some upper) sinceNs =
      (upper.scannedPaths.foldlM (upper.scanFilename sinceNs)
        ⟨Dict.empty, [], Dict.empty⟩).map fun state =>
          { state with deletedPaths := sortPaths state.deletedPaths } := by
  have items :
      ∀ (items : List WalkItem) (state : ScanState),
        (∀ item ∈ items,
          item ∈ upper.osWalk checkpointSkipDirs.contains) →
          items.foldlM (upper.scanItem sinceNs) state =
            ((items.flatMap fun item =>
              ((item.dirnames.filter fun name =>
                upper.isLink (item.dirpath ++ [name])).map
                  (item.dirpath ++ [·])) ++
                (if item.dirpath.isEmpty then [] else [item.dirpath]) ++
                item.filenames.map (item.dirpath ++ [·])).filter fun path =>
                  !isDirectory (upper.get path)).foldlM
                    (upper.scanFilename sinceNs) state := by
    intro items
    induction items with
    | nil => exact fun _ _ => rfl
    | cons item rest induction =>
        intro state walked
        obtain ⟨dirpath, isDir, _, rfl⟩ :=
          (upper.mem_osWalk _ _).mp (walked item List.mem_cons_self)
        rw [List.foldlM_cons, List.flatMap_cons, List.filter_append,
          List.foldlM_append, UpperLayer.scanItem_eq state dirpath isDir]
        apply congrArg
        funext next
        exact induction next fun other member =>
          walked other (List.mem_cons_of_mem _ member)
  rw [scanUpperdir, UpperLayer.scannedPaths, iterCheckpointEntries,
    items _ _ fun item member => member]
  cases (List.filter _ _).foldlM (upper.scanFilename sinceNs)
    ⟨Dict.empty, [], Dict.empty⟩ with
  | error failure => rfl
  | ok state => rfl

theorem UpperLayer.mem_scannedPaths (path : RelPath) :
    path ∈ upper.scannedPaths ↔
      upper.Captured path ∧ upper.get path ≠ some .dir := by
  rw [scannedPaths, List.mem_filter, mem_iterCheckpointEntries,
    Bool.not_eq_true', ← Bool.not_eq_true, isDirectory_iff]

theorem UpperLayer.children_nodup (dirpath : RelPath) :
    (upper.children dirpath).Nodup := by
  rw [Tree.children]
  apply List.Nodup.filterMap _ upper.paths_nodup
  intro path other name
  simp only [Option.mem_def]
  intro found otherFound
  split at found
  · next parent =>
      split at otherFound
      · next otherParent =>
          obtain ⟨front, rfl⟩ := List.getLast?_eq_some_iff.mp found
          obtain ⟨otherFront, rfl⟩ :=
            List.getLast?_eq_some_iff.mp otherFound
          rw [List.dropLast_concat] at parent otherParent
          rw [parent, otherParent]
      · cases otherFound
  · cases found

/-- The scan comes to each path once. -/
theorem UpperLayer.scannedPaths_nodup : upper.scannedPaths.Nodup := by
  have below :
      ∀ (dirpath : RelPath) (names : List String), names.Nodup →
        (names.map (dirpath ++ [·])).Nodup := by
    intro dirpath names distinct
    apply distinct.map
    intro name other same
    simpa using same
  rw [scannedPaths, iterCheckpointEntries, List.filter_flatMap,
    List.nodup_flatMap]
  have pieces :
      ∀ item ∈ upper.osWalk checkpointSkipDirs.contains, ∀ path,
        path ∈
          (((item.dirnames.filter fun name =>
              upper.isLink (item.dirpath ++ [name])).map
                (item.dirpath ++ [·])) ++
            (if item.dirpath.isEmpty then [] else [item.dirpath]) ++
            item.filenames.map (item.dirpath ++ [·])).filter (fun path =>
              !isDirectory (upper.get path)) →
          path.dropLast = item.dirpath := by
    intro item walked path member
    obtain ⟨dirpath, isDir, _, rfl⟩ := (upper.mem_osWalk _ _).mp walked
    rw [List.mem_filter, List.mem_append, List.mem_append] at member
    rcases member with ⟨(link | self) | file, notDir⟩
    · obtain ⟨name, _, rfl⟩ := List.mem_map.mp link
      rw [List.dropLast_concat]
    · split at self
      · cases self
      · rw [List.mem_singleton.mp self, Tree.walkItem, isDir] at notDir
        cases notDir
    · obtain ⟨name, _, rfl⟩ := List.mem_map.mp file
      rw [List.dropLast_concat]
  constructor
  · intro item walked
    obtain ⟨dirpath, isDir, _, rfl⟩ := (upper.mem_osWalk _ _).mp walked
    have directory :
        (if (upper.walkItem checkpointSkipDirs.contains
            dirpath).dirpath.isEmpty then []
          else [(upper.walkItem checkpointSkipDirs.contains
            dirpath).dirpath]).filter (fun path =>
              !isDirectory (upper.get path)) = [] := by
      split
      · rfl
      · simp [Tree.walkItem, isDir]
    rw [List.filter_append, List.filter_append, directory, List.append_nil,
      ← List.filter_append]
    apply List.Nodup.filter
    rw [List.nodup_append]
    refine ⟨?_, ?_, ?_⟩
    · exact below dirpath _ (((children_nodup dirpath).filter _).filter _)
    · exact below dirpath _ ((children_nodup dirpath).filter _)
    · intro path link other file same
      obtain ⟨name, isLink, rfl⟩ := List.mem_map.mp link
      obtain ⟨otherName, isFile, rfl⟩ := List.mem_map.mp file
      have sameName : name = otherName := by simpa using same
      subst sameName
      simp only [Tree.walkItem, List.mem_filter, Bool.and_eq_true,
        Bool.not_eq_true'] at isLink isFile
      rw [isFile.2] at isLink
      cases isLink.1.2.1
  · rw [Tree.osWalk, List.pairwise_map]
    apply List.Pairwise.imp_of_mem _ (upper.paths_nodup.filter _)
    intro dirpath other member otherMember apart
    have walks :
        ∀ place ∈ upper.paths.filter (fun dirpath =>
            isDirectory (upper.get dirpath) &&
              dirpath.all (!checkpointSkipDirs.contains ·)),
          upper.walkItem checkpointSkipDirs.contains place ∈
            upper.osWalk checkpointSkipDirs.contains := by
      intro place listed
      rw [Tree.osWalk]
      exact List.mem_map_of_mem listed
    intro path here there
    exact apart
      ((pieces _ (walks dirpath member) path here).symm.trans
        (pieces _ (walks other otherMember) path there))

/-- What one path adds to the variables of the scan. -/
theorem UpperLayer.scanFilename_invariant
    {visited : List RelPath} {state next : ScanState} {path : RelPath}
    (holds : upper.ScanInvariant sinceNs visited state)
    (scanned : upper.scanFilename sinceNs state path = .ok next) :
    upper.ScanInvariant sinceNs (visited ++ [path]) next := by
  have adds :
      ∀ (changed : Dict RelPath ChangedEntry) (other : RelPath),
        changed.get path = upper.scannedEntry sinceNs path →
          (other ≠ path → changed.get other = state.changed.get other) →
            changed.get other =
              if other ∈ visited ++ [path] then
                upper.scannedEntry sinceNs other
              else none := by
    intro changed other here elsewhere
    by_cases same : other = path
    · subst same
      simp [here]
    · simp [elsewhere same, holds.changed other, same]
  have keeps :
      upper.scannedEntry sinceNs path = none →
        ∀ other, state.changed.get other =
          if other ∈ visited ++ [path] then upper.scannedEntry sinceNs other
          else none := by
    intro nothing other
    apply adds
    · rw [holds.changed, nothing, ite_self]
    · exact fun _ => rfl
  rw [scanFilename] at scanned
  by_cases old : notNewer sinceNs (upper.stat path) = true
  · rw [if_pos old] at scanned
    cases scanned
    refine ⟨keeps (by simp [scannedEntry, old]), holds.verified, ?_⟩
    simp [holds.deletedPaths, scannedDeletion, old]
  rw [if_neg old] at scanned
  by_cases inside : ".git" ∈ path
  · rw [if_pos ((checkpointRelpathIsSkipped_iff path).mpr inside)] at scanned
    cases scanned
    refine ⟨keeps (by simp [scannedEntry, inside]), holds.verified, ?_⟩
    simp [holds.deletedPaths, scannedDeletion, inside]
  rw [if_neg (mt (checkpointRelpathIsSkipped_iff path).mp inside)] at scanned
  have counts : ¬ (notNewer sinceNs (upper.stat path) = true ∨
      ".git" ∈ path) := by
    rintro (isOld | isInside)
    · exact old isOld
    · exact inside isInside
  cases whiteout : upper.isWhiteout path with
  | true =>
      have special := isOverlayWhiteout_special whiteout
      rw [whiteout, if_pos rfl, whiteoutDeletedPath] at scanned
      split at scanned
      · cases scanned
      · split at scanned
        · cases scanned
        · cases scanned
          refine ⟨keeps ?_, holds.verified, ?_⟩
          · rw [scannedEntry, if_neg counts, special]
          · simp [holds.deletedPaths, scannedDeletion, old, inside,
              whiteout]
  | false =>
      rw [whiteout, if_neg (by simp)] at scanned
      have noDeletion : upper.scannedDeletion sinceNs path = none := by
        simp [scannedDeletion, whiteout]
      rcases found : upper.get path with _ | data | target | _ | _
      · rw [found] at scanned
        cases scanned
      · rw [found] at scanned
        cases scanned
        have isEntry :
            upper.scannedEntry sinceNs path =
              some (.file data.digest (sIMode data.mode)
                (upper.stat path).size (upper.stat path).mtimeNs) := by
          rw [scannedEntry, if_neg counts, found]
        refine ⟨?_, ?_, ?_⟩
        · intro other
          apply adds
          · simp [isEntry]
          · intro apart
            simp [Dict.get_set, apart]
        · intro other hash mode size mtimeNs present
          rw [Dict.get_set] at present ⊢
          split at present
          · next same =>
              cases present
              rw [if_pos same]
          · next apart =>
              rw [if_neg apart]
              exact holds.verified other hash mode size mtimeNs present
        · simp [holds.deletedPaths, noDeletion]
      · rw [found] at scanned
        cases scanned
        have isEntry :
            upper.scannedEntry sinceNs path = some (.symlink target) := by
          rw [scannedEntry, if_neg counts, found]
        refine ⟨?_, ?_, ?_⟩
        · intro other
          apply adds
          · simp [isEntry]
          · intro apart
            simp [Dict.get_set, apart]
        · intro other hash mode size mtimeNs present
          rw [Dict.get_set] at present
          split at present
          · cases present
          · exact holds.verified other hash mode size mtimeNs present
        · simp [holds.deletedPaths, noDeletion]
      · rw [found] at scanned
        cases scanned
      · rw [found] at scanned
        cases scanned

/-- What a scan that succeeds has found. -/
theorem scanUpperdir_found
    {scan : ScanState}
    (scanned : scanUpperdir (some upper) sinceNs = .ok scan) :
    (∀ path, scan.changed.get path =
      if path ∈ upper.scannedPaths then upper.scannedEntry sinceNs path
      else none) ∧
      (∀ path hash mode size mtimeNs,
        scan.changed.get path = some (.file hash mode size mtimeNs) →
          scan.verifiedBlobs.get path = some hash) ∧
      scan.deletedPaths =
        sortPaths
          (upper.scannedPaths.filterMap (upper.scannedDeletion sinceNs)) := by
  rw [scanUpperdir_eq] at scanned
  cases folded :
      upper.scannedPaths.foldlM (upper.scanFilename sinceNs)
        ⟨Dict.empty, [], Dict.empty⟩ with
  | error failure =>
      rw [folded] at scanned
      cases scanned
  | ok state =>
      rw [folded] at scanned
      cases scanned
      have holds :=
        Loops.foldlM_invariant (upper.scanFilename sinceNs)
          (upper.ScanInvariant sinceNs)
          ⟨by simp, by simp, rfl⟩
          (fun _ _ _ _ _ before stepped =>
            UpperLayer.scanFilename_invariant before stepped)
          folded
      exact ⟨holds.changed, holds.verified,
        congrArg sortPaths holds.deletedPaths⟩

end Scan

/-! ## What a capture records -/

/-- The upper layer has a file or link here that is not left out. -/
def UpperLayer.Recorded
    (upper : UpperLayer) (sinceNs : Option Int) (path : RelPath) : Prop :=
  (upper.entries path).isSome ∧ notNewer sinceNs (upper.stat path) = false

/-- The upper layer has a whiteout for this path that is not left out. -/
def UpperLayer.Deleted
    (upper : UpperLayer) (sinceNs : Option Int) (path : RelPath) : Prop :=
  ".git" ∉ path ∧ upper.deletes path = true ∧
    notNewer sinceNs (upper.stat (UpperLayer.whiteoutPath path)) = false

/-- The manifest of a capture of the upper layer. -/
structure OverlayManifest
    (upper : UpperLayer) (sinceNs : Option Int) (blobs : BlobStore)
    (manifest : Manifest) : Prop where
  recorded :
    ∀ path, upper.Recorded sinceNs path →
      ∃ entry, manifest.entries.get path = some entry ∧
        entryValue entry = upper.entries path
  notRecorded :
    ∀ path, ¬ upper.Recorded sinceNs path →
      manifest.entries.get path = none
  deletedPaths :
    ∀ path, path ∈ manifest.deletedPaths ↔ upper.Deleted sinceNs path
  distinct : manifest.deletedPaths.Nodup
  entriesOf : blobs.Intact → EntriesOf upper.toTree blobs manifest

section Capture

variable {upper : UpperLayer} {sinceNs : Option Int}

theorem isWhiteoutName_iff (name : String) :
    isWhiteoutName name = true ↔ name = whiteoutName (deletedName name) := by
  rw [isWhiteoutName, List.isPrefixOf_iff_prefix, whiteoutName, deletedName]
  constructor
  · rintro ⟨rest, split⟩
    apply String.toList_injective
    simp [← split]
  · intro same
    rw [same, String.toList_append]
    exact List.prefix_append _ _

theorem deletedName_whiteoutName (name : String) :
    deletedName (whiteoutName name) = name := by
  apply String.toList_injective
  rw [deletedName, whiteoutName, String.toList_ofList, String.toList_append]
  rfl

theorem whiteoutName_ne_git (name : String) : whiteoutName name ≠ ".git" := by
  intro same
  have chars := congrArg String.toList same
  rw [whiteoutName, String.toList_append] at chars
  have second := congrArg (·[1]?) chars
  simp at second

/-- The whiteouts of the scan are those of the paths they delete. -/
theorem UpperLayer.scannedDeletion_eq_some
    {marker path : RelPath}
    (found : upper.scannedDeletion sinceNs marker = some path) :
    path ≠ [] ∧ whiteoutPath path = marker ∧
      upper.isWhiteout marker = true ∧ ".git" ∉ path.dropLast ∧
      notNewer sinceNs (upper.stat marker) = false := by
  rw [scannedDeletion] at found
  split at found
  · cases found
  · next counts =>
      split at found
      · next whiteout =>
          have named := whiteout
          rw [isWhiteout, isOverlayWhiteout] at named
          split at named
          · next name _ last =>
              rw [Bool.and_eq_true] at named
              obtain ⟨front, rfl⟩ := List.getLast?_eq_some_iff.mp last
              cases found
              refine ⟨by simp, ?_, whiteout, ?_, ?_⟩
              · simp [whiteoutPath, ← (isWhiteoutName_iff name).mp named.1]
              · intro inside
                apply counts
                right
                simp at inside
                simp [inside]
              · by_contra old
                exact counts (Or.inl (by simpa using old))
          · cases named
      · cases found

/-- The scan deletes what the newer whiteouts delete. -/
theorem UpperLayer.mem_scannedDeletions
    {path : RelPath} (outside : ".git" ∉ path) :
    path ∈ upper.scannedPaths.filterMap (upper.scannedDeletion sinceNs) ↔
      upper.Deleted sinceNs path := by
  rw [List.mem_filterMap]
  constructor
  · rintro ⟨marker, _, found⟩
    obtain ⟨nonempty, place, whiteout, _, newer⟩ :=
      scannedDeletion_eq_some found
    refine ⟨outside, ?_, by rw [place]; exact newer⟩
    rw [deletes, place, whiteout]
    simpa using nonempty
  · rintro ⟨_, deleted, newer⟩
    rw [deletes, Bool.and_eq_true] at deleted
    have special := isOverlayWhiteout_special deleted.2
    have nonempty : path ≠ [] := by simpa using deleted.1
    obtain ⟨front, name, rfl⟩ :
        ∃ front name, path = front ++ [name] :=
      ⟨path.dropLast, path.getLast nonempty,
        (List.dropLast_append_getLast nonempty).symm⟩
    have place :
        whiteoutPath (front ++ [name]) = front ++ [whiteoutName name] := by
      simp [whiteoutPath]
    rw [place] at deleted newer special
    have markerOutside : ".git" ∉ front ++ [whiteoutName name] := by
      have frontOutside : ".git" ∉ front := fun inside =>
        outside (List.mem_append_left _ inside)
      simpa [frontOutside] using (whiteoutName_ne_git name).symm
    refine ⟨front ++ [whiteoutName name], ?_, ?_⟩
    · rw [mem_scannedPaths]
      refine ⟨?_, by simp [special]⟩
      rw [captured_of_outside _ (by simp) markerOutside, special]
      rfl
    · rw [scannedDeletion, if_neg, if_pos deleted.2]
      · simp [deletedName_whiteoutName]
      · rintro (old | inside)
        · rw [newer] at old
          cases old
        · exact markerOutside inside

/-- The scan has the files and links that are not left out. -/
theorem UpperLayer.scannedEntry_isSome (path : RelPath) :
    (path ∈ upper.scannedPaths ∧
        (upper.scannedEntry sinceNs path).isSome) ↔
      upper.Recorded sinceNs path := by
  rw [Recorded, mem_scannedPaths, scannedEntry]
  by_cases inside : ".git" ∈ path
  · simp [inside, upper.entries_of_inside inside]
  · rw [upper.entries_of_not_skipped inside]
    cases old : notNewer sinceNs (upper.stat path) with
    | true => simp
    | false =>
        rcases eq_or_ne path [] with rfl | nonempty
        · simp [upper.root_dir, objectValue]
        · rw [captured_of_outside upper.toTree nonempty inside]
          rcases found : upper.get path with _ | data | target | _ | _ <;>
            simp [inside, objectValue]

/-- Two whiteouts of the scan delete two paths. -/
theorem UpperLayer.scannedDeletions_nodup :
    (upper.scannedPaths.filterMap (upper.scannedDeletion sinceNs)).Nodup := by
  apply List.Nodup.filterMap _ scannedPaths_nodup
  intro marker other path
  simp only [Option.mem_def]
  intro found otherFound
  rw [← (scannedDeletion_eq_some found).2.1,
    (scannedDeletion_eq_some otherFound).2.1]

theorem nodup_sortPaths {paths : List RelPath} (distinct : paths.Nodup) :
    (sortPaths paths).Nodup :=
  (List.perm_insertionSort _ paths).nodup_iff.mpr distinct

/-- What the manifest records of a scan. -/
theorem overlayManifest_of_scan
    {scan : ScanState} (blobs : BlobStore)
    (scanned : scanUpperdir (some upper) sinceNs = .ok scan) :
    ∃ manifest state,
      writeContainerManifest scan.changed scan.deletedPaths
          scan.verifiedBlobs blobs = .ok (manifest, state) ∧
        OverlayManifest upper sinceNs state.blobs manifest ∧
        (∀ digest, (blobs digest).isSome → (state.blobs digest).isSome) ∧
        (blobs.Intact → state.blobs.Intact) := by
  obtain ⟨changed, verified, deleted⟩ := scanUpperdir_found scanned
  obtain ⟨manifest, state, written, entries, deletedPaths, facts⟩ :=
    writeContainerManifest_total scan.changed scan.verifiedBlobs blobs
      scan.deletedPaths
      (fun path hash mode size mtimeNs value =>
        Or.inr (verified path hash mode size mtimeNs value))
  have value :
      ∀ path entry, manifest.entries.get path = some entry →
        path ∈ upper.scannedPaths ∧
          ∃ found, upper.scannedEntry sinceNs path = some found ∧
            entry = manifestEntryOf found := by
    intro path entry present
    rw [entries, facts.entries] at present
    split at present
    · obtain ⟨found, isChanged, rfl⟩ := Option.map_eq_some_iff.mp present
      rw [changed] at isChanged
      split at isChanged
      · next visited => exact ⟨visited, found, isChanged, rfl⟩
      · cases isChanged
    · cases present
  refine ⟨manifest, state, written, ⟨?_, ?_, ?_, ?_, ?_⟩, facts.grows,
    facts.intact⟩
  · intro path recorded
    obtain ⟨visited, isSome⟩ :=
      (UpperLayer.scannedEntry_isSome path).mpr recorded
    obtain ⟨found, isFound⟩ := Option.isSome_iff_exists.mp isSome
    have outside : ".git" ∉ path := by
      intro inside
      have missing := recorded.1
      rw [upper.entries_of_inside inside] at missing
      cases missing
    have isChanged : scan.changed.get path = some found := by
      rw [changed, if_pos visited, isFound]
    have listed : path ∈ sortPaths scan.changed.keys := by
      rw [mem_sortPaths, Dict.mem_keys, isChanged]
      rfl
    refine ⟨manifestEntryOf found, ?_, ?_⟩
    · rw [entries, facts.entries, if_pos ⟨listed, outside⟩, isChanged]
      rfl
    · rw [upper.entries_of_not_skipped outside]
      rw [UpperLayer.scannedEntry] at isFound
      split at isFound
      · cases isFound
      · rcases object : upper.get path with _ | data | target | _ | _ <;>
          rw [object] at isFound <;> cases isFound
        · simp [manifestEntryOf, entryValue, objectValue]
        · rfl
  · intro path notRecorded
    by_contra present
    obtain ⟨entry, found⟩ := Option.ne_none_iff_exists'.mp present
    obtain ⟨visited, value, isValue, _⟩ := value path entry found
    exact notRecorded ((UpperLayer.scannedEntry_isSome path).mp
      ⟨visited, by simp [isValue]⟩)
  · intro path
    rw [deletedPaths, mem_sortPaths, List.mem_filter, deleted,
      mem_sortPaths, Bool.not_eq_true', ← Bool.not_eq_true,
      checkpointRelpathIsSkipped_iff]
    constructor
    · rintro ⟨found, outside⟩
      exact (UpperLayer.mem_scannedDeletions outside).mp found
    · intro isDeleted
      exact ⟨(UpperLayer.mem_scannedDeletions isDeleted.1).mpr isDeleted,
        isDeleted.1⟩
  · rw [deletedPaths, deleted]
    exact nodup_sortPaths
      ((nodup_sortPaths UpperLayer.scannedDeletions_nodup).filter _)
  · intro stateIntact path entry present
    obtain ⟨visited, found, isFound, rfl⟩ := value path entry present
    rw [UpperLayer.mem_scannedPaths] at visited
    refine ⟨visited.1, ?_⟩
    rw [UpperLayer.scannedEntry] at isFound
    split at isFound
    · cases isFound
    · rcases object : upper.get path with _ | data | target | _ | _ <;>
        rw [object] at isFound <;> cases isFound
      · refine ⟨_, rfl, ?_⟩
        have stored :=
          facts.stored path data.digest _ _ _ (by rw [← entries]; exact present)
        obtain ⟨content, filed⟩ := Option.isSome_iff_exists.mp stored
        change state.blobs data.digest = some data.digest
        rw [filed, stateIntact _ _ filed]
      · exact ⟨_, rfl, rfl⟩

/-- What a capture that succeeds has recorded. -/
theorem captureOverlay_recorded
    {call : OverlayCall} {incrementalSince : Option DiskSnapshot}
    {blobs after : BlobStore} {snapshot : DiskSnapshot}
    (captured :
      captureOverlay call incrementalSince blobs = (.ok snapshot, after)) :
    ∃ upper manifest,
      call.layers.upper = some upper ∧
        snapshot =
          { manifest := some manifest
            incremental := incrementalSince.isSome
            timestampNs := call.markerBeforeNs } ∧
        OverlayManifest upper
          (incrementalSince.map DiskSnapshot.timestampNs) after
          manifest := by
  rw [captureOverlay] at captured
  cases scanned :
      scanUpperdir call.layers.upper
        (incrementalSince.map DiskSnapshot.timestampNs) with
  | error failure =>
      rw [scanned] at captured
      cases captured
  | ok scan =>
      rw [scanned] at captured
      cases hasUpper : call.layers.upper with
      | none =>
          rw [hasUpper] at captured
          dsimp only at captured
          split at captured <;> cases captured
      | some upper =>
          rw [hasUpper] at captured scanned
          obtain ⟨manifest, state, written, made, _, _⟩ :=
            overlayManifest_of_scan blobs scanned
          dsimp only at captured
          rw [written] at captured
          dsimp only at captured
          split at captured
          · cases captured
          · cases captured
            exact ⟨upper, manifest, rfl, rfl, made⟩

/-- However a capture ends, the store has grown and stays intact. -/
theorem captureOverlay_blobs
    (call : OverlayCall) (incrementalSince : Option DiskSnapshot)
    (blobs : BlobStore) :
    (∀ digest, (blobs digest).isSome →
        ((captureOverlay call incrementalSince blobs).2 digest).isSome) ∧
      (blobs.Intact →
        (captureOverlay call incrementalSince blobs).2.Intact) := by
  rw [captureOverlay]
  cases scanned :
      scanUpperdir call.layers.upper
        (incrementalSince.map DiskSnapshot.timestampNs) with
  | error failure => exact ⟨fun _ old => old, fun intact => intact⟩
  | ok scan =>
      cases hasUpper : call.layers.upper with
      | none =>
          rw [hasUpper] at scanned
          cases scanned
          exact ⟨fun _ old => old, fun intact => intact⟩
      | some upper =>
          rw [hasUpper] at scanned
          obtain ⟨manifest, state, written, _, grows, stateIntact⟩ :=
            overlayManifest_of_scan blobs scanned
          dsimp only
          rw [written]
          dsimp only
          split <;> exact ⟨grows, stateIntact⟩

end Capture

/-! ## The upper layer in the merged tree -/

section Merged

variable
  {upper : UpperLayer} {lower : Tree} {linkToDir : RelPath → Bool}
  {sinceNs : Option Int}

theorem UpperLayer.merged_of_value
    {path : RelPath} {object : Object FileData}
    (present : upper.get path = some object)
    (hasValue : (objectValue object).isSome) :
    (upper.mergedTree lower linkToDir).get path = some object := by
  apply mergedGet_upper present
  by_contra whiteout
  have special :=
    isOverlayWhiteout_special (Bool.not_eq_false _ ▸ whiteout)
  rw [present] at special
  cases special
  cases hasValue

theorem UpperLayer.entries_isSome
    {path : RelPath} (hasEntry : (upper.entries path).isSome) :
    ".git" ∉ path ∧
      ∃ object, upper.get path = some object ∧
        (objectValue object).isSome := by
  by_cases inside : ".git" ∈ path
  · rw [upper.entries_of_inside inside] at hasEntry
    cases hasEntry
  · refine ⟨inside, ?_⟩
    rw [upper.entries_of_not_skipped inside] at hasEntry
    obtain ⟨value, isValue⟩ := Option.isSome_iff_exists.mp hasEntry
    obtain ⟨object, present, valueIs⟩ := Option.bind_eq_some_iff.mp isValue
    exact ⟨object, present, by simp [valueIs]⟩

/-- The files and links of the upper layer are those of the container. -/
theorem UpperLayer.merged_entries
    {path : RelPath} (hasEntry : (upper.entries path).isSome) :
    (upper.mergedTree lower linkToDir).entries path = upper.entries path := by
  obtain ⟨outside, object, present, hasValue⟩ := entries_isSome hasEntry
  rw [Tree.entries_of_not_skipped _ outside,
    upper.entries_of_not_skipped outside, merged_of_value present hasValue,
    present]

theorem UpperLayer.deletes_iff
    {path : RelPath} (deleted : upper.deletes path = true) :
    ∃ front name, path = front ++ [name] ∧
      upper.get (front ++ [whiteoutName name]) = some .special ∧
        ValidName name ∧ upper.get path = none := by
  rw [deletes, Bool.and_eq_true] at deleted
  have nonempty : path ≠ [] := by simpa using deleted.1
  obtain ⟨front, name, rfl⟩ :
      ∃ front name, path = front ++ [name] :=
    ⟨path.dropLast, path.getLast nonempty,
      (List.dropLast_append_getLast nonempty).symm⟩
  have place :
      whiteoutPath (front ++ [name]) = front ++ [whiteoutName name] := by
    simp [whiteoutPath]
  rw [place] at deleted
  have apart := upper.whiteouts front name deleted.2
  exact ⟨front, name, rfl, isOverlayWhiteout_special deleted.2, apart.1,
    apart.2⟩

/-- At and below a deleted path the container has nothing. -/
theorem UpperLayer.merged_deleted
    {path front : RelPath} (deleted : upper.deletes front = true)
    (isPrefix : front <+: path) :
    (upper.mergedTree lower linkToDir).get path = none := by
  obtain ⟨_, _, isConcat, _, _, missing⟩ := deletes_iff deleted
  have nonempty : front ≠ [] := by simp [isConcat]
  have below : upper.get path = none := by
    rcases eq_or_ne front path with rfl | apart
    · exact missing
    · exact upper.none_of_ancestor isPrefix apart (by simp [missing])
  by_contra present
  obtain ⟨object, merged⟩ := Option.ne_none_iff_exists'.mp present
  rcases (mergedGet_cases merged).2 with inUpper | ⟨_, shown, _⟩
  · rw [below] at inUpper
    cases inUpper
  · have notDeleted := ((passes_iff path).mp shown front isPrefix nonempty).1
    rw [deleted] at notDeleted
    cases notDeleted

theorem UpperLayer.merged_entries_deleted
    {path front : RelPath} (deleted : upper.deletes front = true)
    (isPrefix : front <+: path) :
    (upper.mergedTree lower linkToDir).entries path = none := by
  by_cases inside : ".git" ∈ path
  · exact Tree.entries_of_inside _ inside
  · rw [Tree.entries_of_not_skipped _ inside,
      merged_deleted deleted isPrefix, Option.bind_none]

/-- A whiteout lies in a directory of the upper layer. -/
theorem UpperLayer.dir_above_deleted
    {path front : RelPath} (deleted : upper.deletes path = true)
    (isPrefix : front <+: path) (apart : front ≠ path) :
    upper.get front = some .dir := by
  obtain ⟨parent, name, rfl, special, _⟩ := deletes_iff deleted
  have above : front <+: parent := by
    rcases List.prefix_concat_iff.mp isPrefix with same | above
    · exact (apart same).elim
    · exact above
  have below : front <+: parent ++ [whiteoutName name] :=
    above.trans (List.prefix_append _ _)
  apply upper.dir_of_isPrefix below _ (by simp [special])
  rintro rfl
  have shorter := above.length_le
  rw [List.length_append, List.length_singleton] at shorter
  omega

end Merged

end AgentSchedBench.Checkpoint
