import AgentSchedBench.Checkpoint.Manifest

/-!
# Restoring and folding manifests

`restoreCasManifest` is the script that `_restore_cas_manifest_in_container`
runs in the container, on the whole file system of the container, with every
path resolved as the kernel resolves it.  A failing run keeps the file system
as it was when the exception was raised.

`foldSourceCheckpointEntries` is the second interpreter of manifests, which
keeps only the path-to-entry map.
-/

namespace AgentSchedBench.Checkpoint

open FileSystem

/-! ## The restore script -/

/-- The exceptions of the restore script. -/
inductive RestoreError where
  | symlinkRoot
  | unsafePath (relpath : RelPath)
  | unsafeSymlinkTarget (relpath : RelPath)
  | unsafeParentPath (path : Path)
  | invalidEntry (relpath : RelPath)
  | unsupportedEntryType (relpath : RelPath)
  | missingHash (relpath : RelPath)
  | blobMissing (relpath : RelPath)
  | digestMismatch (relpath : RelPath)
  | targetSymlink (relpath : RelPath)
  | specialTarget (relpath : RelPath)
  | rootMissing
  | manifestMissing
deriving DecidableEq, Repr

/-- A run ends in a file system, or fails and leaves one. -/
abbrev RestoreResult :=
  Except (RestoreError × Fs FileData) (Fs FileData)

/-- The only restore root `_checkpoint_after_spec` lets through. -/
def restoreRoot : Path := ["testbed"]

/-- The first statements: the root becomes a directory. -/
def prepareRoot (fs : Fs FileData) : Fs FileData :=
  match fs.lstat restoreRoot with
  | some .dir => fs
  | some _ => (fs.removeAt restoreRoot).assignAt restoreRoot .dir
  | none => fs.assignAt restoreRoot .dir

/-- `safe_target`, as a path below the root. -/
def safeTarget (relpath : RelPath) : Except RestoreError RelPath :=
  if relpath = [""] then .error (.unsafePath relpath)
  else if Fs.isAbsolute relpath ∨ ".." ∈ relpath then
    .error (.unsafePath relpath)
  else
    let target := relpath.filter fun name => name ≠ "" ∧ name ≠ "."
    if target = [] then .error (.unsafePath relpath) else .ok target

/-- `is_preserved_relpath`. -/
def isPreservedRelpath (relpath : RelPath) : Bool :=
  match relpath with
  | [] => false
  | part :: _ => checkpointSkipDirs.contains part

/-- The loop of `ensure_parent_dir` over the parts below `current`. -/
def ensureDirs (fs : Fs FileData) (current : Path) : Path → RestoreResult
  | [] => .ok fs
  | part :: parts =>
      match fs.lstat (current ++ [part]) with
      | some .dir => ensureDirs fs (current ++ [part]) parts
      | some _ => .error (.unsafeParentPath (current ++ [part]), fs)
      | none =>
          ensureDirs (fs.assignAt (current ++ [part]) .dir)
            (current ++ [part]) parts

/-- `ensure_parent_dir`. -/
def ensureParentDir (fs : Fs FileData) (target : RelPath) : RestoreResult :=
  ensureDirs fs restoreRoot target.dropLast

/-- The body of the loop over `deleted_paths`. -/
def restoreDeletedPath (fs : Fs FileData) (relpath : RelPath) :
    RestoreResult :=
  if isPreservedRelpath relpath then .ok fs
  else
    match safeTarget relpath with
    | .error failure => .error (failure, fs)
    | .ok target => .ok (fs.removeAt (restoreRoot ++ target))

/-- `sorted(deleted, key=lambda p: p.count(os.sep), reverse=True)`. -/
def deepestFirst (deleted : List RelPath) : List RelPath :=
  deleted.insertionSort fun left right => right.length ≤ left.length

/-- The loop that sorts the entries into files and links. -/
def restoreCheckEntry (fs : Fs FileData) (item : RelPath × ManifestEntry) :
    RestoreResult :=
  if isPreservedRelpath item.1 then .ok fs
  else
    match item.2 with
    | .notDict => .error (.invalidEntry item.1, fs)
    | .unknownType => .error (.unsupportedEntryType item.1, fs)
    | _ => .ok fs

/-- Is the item one of `file_entries`? -/
def isFileEntry (item : RelPath × ManifestEntry) : Bool :=
  !isPreservedRelpath item.1 &&
    match item.2 with
    | .file .. => true
    | _ => false

/-- Is the item one of `symlink_entries`? -/
def isSymlinkEntry (item : RelPath × ManifestEntry) : Bool :=
  !isPreservedRelpath item.1 &&
    match item.2 with
    | .symlink _ => true
    | _ => false

/-- The checks on an existing target of a file, and the write. -/
def restoreFileAt
    (fs : Fs FileData) (relpath target : RelPath) (data : FileData) :
    RestoreResult :=
  match fs.lstat (restoreRoot ++ target) with
  | some (.symlink _) => .error (.targetSymlink relpath, fs)
  | some .special => .error (.specialTarget relpath, fs)
  | some .dir =>
      .ok ((fs.removeAt (restoreRoot ++ target)).assignAt
        (restoreRoot ++ target) (.file data))
  | _ => .ok (fs.assignAt (restoreRoot ++ target) (.file data))

/-- The body of the loop over `file_entries`. -/
def restoreFileEntry
    (blobs : BlobStore) (fs : Fs FileData)
    (item : RelPath × ManifestEntry) : RestoreResult :=
  match item.2 with
  | .file (some hash) mode _ _ =>
      match blobs hash with
      | none => .error (.blobMissing item.1, fs)
      | some actual =>
          if actual ≠ hash then .error (.digestMismatch item.1, fs)
          else
            match safeTarget item.1 with
            | .error failure => .error (failure, fs)
            | .ok target => do
                let parented ← ensureParentDir fs target
                restoreFileAt parented item.1 target
                  ⟨actual, mode.getD 0o644⟩
  | _ => .error (.missingHash item.1, fs)

/-- The body of the loop over `symlink_entries`. -/
def restoreSymlinkEntry
    (fs : Fs FileData) (item : RelPath × ManifestEntry) : RestoreResult :=
  match item.2 with
  | .symlink (some linkTarget) =>
      if linkTarget = [""] then .error (.unsafeSymlinkTarget item.1, fs)
      else
        match safeTarget item.1 with
        | .error failure => .error (failure, fs)
        | .ok target => do
            let parented ← ensureParentDir fs target
            return (parented.removeAt (restoreRoot ++ target)).assignAt
              (restoreRoot ++ target) (.symlink linkTarget)
  | _ => .error (.unsafeSymlinkTarget item.1, fs)

/-- The loop that rejects a manifest with an unsafe path. -/
def restoreCheckPath (fs : Fs FileData) (relpath : RelPath) :
    RestoreResult :=
  match safeTarget relpath with
  | .error failure => .error (failure, fs)
  | .ok _ => .ok fs

/-- Clearing the root, or deleting the deleted paths deepest first. -/
def restoreRemovals
    (clearRoot : Bool) (manifest : Manifest) (fs : Fs FileData) :
    RestoreResult :=
  if clearRoot then .ok (fs.clear restoreRoot checkpointSkipDirs)
  else (deepestFirst manifest.deletedPaths).foldlM restoreDeletedPath fs

/-- Writing the files, then the links. -/
def restoreWrites
    (blobs : BlobStore) (manifest : Manifest) (fs : Fs FileData) :
    RestoreResult := do
  let fs ←
    (manifest.entries.items.filter isFileEntry).foldlM
      (restoreFileEntry blobs) fs
  (manifest.entries.items.filter isSymlinkEntry).foldlM
    restoreSymlinkEntry fs

/-- The script of `_restore_cas_manifest_in_container`. -/
def restoreCasManifest
    (blobs : BlobStore) (clearRoot : Bool) (manifest : Manifest)
    (fs : Fs FileData) : RestoreResult := do
  let fs := prepareRoot fs
  if fs.resolveDir restoreRoot ≠ some restoreRoot then
    throw (.symlinkRoot, fs)
  let fs ←
    (manifest.entries.keys ++ manifest.deletedPaths).foldlM
      restoreCheckPath fs
  let fs ← restoreRemovals clearRoot manifest fs
  let fs ← manifest.entries.items.foldlM restoreCheckEntry fs
  let fs ← restoreWrites blobs manifest fs
  if isDirectory (fs.get restoreRoot) then return fs
  else throw (.rootMissing, fs)

/-- `_restore_checkpoint_chain_to_container`: only the first clears. -/
def restoreCheckpointChain
    (blobs : BlobStore) (chain : List Manifest) (fs : Fs FileData) :
    RestoreResult :=
  match chain with
  | [] => .error (.rootMissing, fs)
  | full :: incrementals => do
      let restored ← restoreCasManifest blobs true full fs
      incrementals.foldlM
        (fun fs manifest => restoreCasManifest blobs false manifest fs)
        restored

/-! ## The fold -/

abbrev CasManifestEntries := Dict RelPath CasManifestValue

/-- The `ValueError`s of `_source_cas_manifest_entry`. -/
inductive FoldError where
  | symlinkTargetMissing
  | unsupportedEntryType
deriving DecidableEq, Repr

/-- `_source_cas_manifest_entry`. -/
def sourceCasManifestEntry :
    ManifestEntry → Except FoldError (Option CasManifestValue)
  | .notDict => .ok none
  | .symlink (some target) => .ok (some (.symlink target))
  | .symlink none => .error .symlinkTargetMissing
  | .unknownType => .error .unsupportedEntryType
  | .file none _ _ _ => .ok none
  | .file (some hash) mode _ _ => .ok (some (.file hash (mode.map sIMode)))

/-- The loop over the manifest's entries. -/
def foldEntryOf (manifest : Manifest) (relpath : RelPath) :
    Except FoldError (Option CasManifestValue) :=
  if checkpointRelpathIsSkipped relpath then .ok none
  else
    match manifest.entries.get relpath with
    | none => .ok none
    | some entry => sourceCasManifestEntry entry

/-- `_fold_source_checkpoint_entries` on a readable manifest. -/
def foldSourceCheckpointEntries
    (isIncremental : Bool) (manifest : Manifest)
    (prevFolded : CasManifestEntries) :
    Except FoldError CasManifestEntries := do
  let entries ←
    manifest.entries.keys.foldlM
      (Dict.collect (foldEntryOf manifest)) Dict.empty
  if isIncremental then
    let deleted :=
      manifest.deletedPaths.filter (!checkpointRelpathIsSkipped ·)
    return deleted.foldl Dict.pop (prevFolded.update entries)
  else return entries

/-- The fold over a chain: a full manifest, then incremental ones. -/
def foldCheckpointChain (chain : List Manifest) :
    Except FoldError CasManifestEntries :=
  match chain with
  | [] => .ok Dict.empty
  | full :: incrementals => do
      let folded ← foldSourceCheckpointEntries false full Dict.empty
      incrementals.foldlM
        (fun folded manifest =>
          foldSourceCheckpointEntries true manifest folded)
        folded

end AgentSchedBench.Checkpoint
