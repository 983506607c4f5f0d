import AgentSchedBench.Library.FileSystem
import AgentSchedBench.Library.Loops
import AgentSchedBench.Library.StableSort
import AgentSchedBench.Trace.Files
import Mathlib.Data.List.Lex
import Mathlib.Data.String.Basic

/-!
# Pruning the blobs

The blobs that no manifest refers to are removed from the store.  All manifests
are read before the first blob is removed, and one that is not understood ends
the script.
-/

namespace AgentSchedBench.Checkpoint

open FileSystem (Path)
open JsonText StableSort
open Trace (Text Record)

/-! ## The host -/

/-- What the script finds on the host. -/
structure PruneHost where
  resolve : Path → Path
  isDir : Path → Bool
  -- the files and the directories below a directory, relative to it
  filesBelow : Path → List Path
  dirsBelow : Path → List Path
  -- `none` when the file cannot be read as a text
  readText : Path → Option Text

/-- The blobs of the store, with their paths below `blobs` and their sizes. -/
inductive BlobsRoot where
  | missing
  | notDirectory
  | directory (files : List (Path × ℕ))

def BlobsRoot.files : BlobsRoot → List (Path × ℕ)
  | .directory files => files
  | _ => []

inductive PruneAbort where
  | notADirectory (path : Path)
  | noCheckpointDirectories
  | noManifests
  | unreadable (manifest : Path)
  | notJson (manifest : Path)
  | notAnObject (manifest : Path)
  | entriesNotDict (manifest : Path)
  | invalidDigest (relpath : String) (manifest : Path)
  | invalidEntry (relpath : String) (manifest : Path)
  | blobsNotADirectory

/-- The directories that are scanned. -/
inductive PruneSource where
  | checkpointDirs (dirs : List Path)
  | simulateOutputDir (dir : Path)

/-! ## Manifests -/

section Manifests

variable (host : PruneHost)

/-- `_discover_checkpoint_dirs` -/
def discoverCheckpointDirs (dir : Path) : Except PruneAbort (List Path) :=
  if ¬ host.isDir dir then .error (.notADirectory dir)
  else
    .ok
      (sortBy id
        (((host.dirsBelow dir).filter fun rel => rel.getLast? == some "checkpoints").map
          fun rel => dir ++ rel))

/-- The name matches `*manifest*.json`. -/
def isManifestName (name : String) : Bool :=
  let chars := name.toList
  ".json".toList.isSuffixOf chars &&
    decide ("manifest".toList <:+: chars.take (chars.length - 5))

/-- The manifests below a directory. -/
def manifestsBelow (dir : Path) : Except PruneAbort (List Path) :=
  if ¬ host.isDir dir then .error (.notADirectory dir)
  else
    .ok
      (((host.filesBelow dir).filter fun rel => rel.getLast?.any isManifestName).map
        fun rel => dir ++ rel)

/-- `_manifest_paths` -/
def manifestPaths (dirs : List Path) : Except PruneAbort (List Path) :=
  (dirs.mapM (manifestsBelow host)).map fun paths => sortBy id paths.flatten.dedup

/-- `_entry_digest` -/
def entryDigest (manifest : Path) (relpath : String) :
    Json → Except PruneAbort (Option String)
  | .str digest => .ok (some digest)
  | .obj entry =>
      match Record.get entry "hash" with
      | .null => .ok none
      | .str digest => .ok (some digest)
      | _ => .error (.invalidDigest relpath manifest)
  | _ => .error (.invalidEntry relpath manifest)

/-- The digests of a manifest. -/
def manifestDigests (manifest : Path) : Except PruneAbort (List String) :=
  match host.readText manifest with
  | none => .error (.unreadable manifest)
  | some text =>
      match loads text with
      | none => .error (.notJson manifest)
      | some (.obj fields) =>
          match Record.get fields "entries" with
          | .null => .ok []
          | .obj entries =>
              (entries.mapM fun entry =>
                entryDigest manifest entry.1 entry.2).map fun digests =>
                  digests.filterMap id
          | _ => .error (.entriesNotDict manifest)
      | some _ => .error (.notAnObject manifest)

/-- `_referenced_digests` -/
def referencedDigests (manifests : List Path) :
    Except PruneAbort (List String) :=
  (manifests.mapM (manifestDigests host)).map List.flatten

end Manifests

/-! ## Blobs -/

/-- `_digest_for_blob_path` -/
def digestForBlobPath : Path → String
  | [first, rest] => first ++ rest
  | _ => ""

/-- What the loop over the blobs keeps. -/
structure PruneState where
  files : List (Path × ℕ)
  totalBlobs : ℕ
  deletedBlobs : ℕ
  bytesFreed : ℕ

/-- The body of the loop over the blobs. -/
def pruneBlob (referenced : List String) (dryRun : Bool) (state : PruneState)
    (file : Path × ℕ) : PruneState :=
  let counted := { state with totalBlobs := state.totalBlobs + 1 }
  if digestForBlobPath file.1 ∈ referenced then counted
  else
    { counted with
      deletedBlobs := state.deletedBlobs + 1
      bytesFreed := state.bytesFreed + file.2
      files :=
        if dryRun then state.files
        else state.files.filter fun other => other.1 ≠ file.1 }

/-- `_prune_blobs`, and the store that it leaves -/
def pruneBlobs (root : BlobsRoot) (referenced : List String) (dryRun : Bool) :
    Except PruneAbort PruneState × BlobsRoot :=
  match root with
  | .missing => (.ok ⟨[], 0, 0, 0⟩, root)
  | .notDirectory => (.error .blobsNotADirectory, root)
  | .directory files =>
      let pruned :=
        (sortBy Prod.fst files).foldl (pruneBlob referenced dryRun) ⟨files, 0, 0, 0⟩
      (.ok pruned, .directory pruned.files)

/-! ## The script -/

/-- The summary that is printed. -/
structure PruneReport where
  dryRun : Bool
  checkpointDirs : ℕ
  manifests : ℕ
  totalBlobs : ℕ
  referenced : ℕ
  deleted : ℕ
  bytesFreed : ℕ

/-- The directories, resolved. -/
def checkpointDirs (host : PruneHost) : PruneSource → Except PruneAbort (List Path)
  | .checkpointDirs dirs => .ok (dirs.map host.resolve)
  | .simulateOutputDir dir => discoverCheckpointDirs host dir

/-- The script ends where nothing is found. -/
def someOrAbort (abort : PruneAbort) (found : List Path) :
    Except PruneAbort (List Path) :=
  if found.isEmpty then .error abort else .ok found

/-- What is read before blobs are removed: the directories, the manifests and
the digests. -/
def readReferences (host : PruneHost) (source : PruneSource) :
    Except PruneAbort (List Path × List Path × List String) := do
  let dirs ← checkpointDirs host source
  let dirs ← someOrAbort .noCheckpointDirectories dirs
  let manifests ← manifestPaths host dirs
  let manifests ← someOrAbort .noManifests manifests
  let referenced ← referencedDigests host manifests
  return (dirs, manifests, referenced)

/-- `main`, and the store that it leaves -/
def prune (host : PruneHost) (source : PruneSource) (dryRun : Bool)
    (root : BlobsRoot) : Except PruneAbort PruneReport × BlobsRoot :=
  match readReferences host source with
  | .error abort => (.error abort, root)
  | .ok (dirs, manifests, referenced) =>
      match pruneBlobs root referenced dryRun with
      | (.error abort, after) => (.error abort, after)
      | (.ok pruned, after) =>
          (.ok
            { dryRun
              checkpointDirs := dirs.length
              manifests := manifests.length
              totalBlobs := pruned.totalBlobs
              referenced := referenced.dedup.length
              deleted := pruned.deletedBlobs
              bytesFreed := pruned.bytesFreed }, after)

/-! ## What is asked of the script -/

section Spec

variable (host : PruneHost)

/-- The manifest is found below one of the directories. -/
def FoundBelow (dirs : List Path) (manifest : Path) : Prop :=
  ∃ dir ∈ dirs, ∃ rel ∈ host.filesBelow dir,
    rel.getLast?.any isManifestName = true ∧ dir ++ rel = manifest

/-- A digest, or an entry with a digest or without one. -/
def IsEntry : Json → Prop
  | .str _ => True
  | .obj entry =>
      Record.get entry "hash" = .null ∨ ∃ digest, Record.get entry "hash" = .str digest
  | _ => False

/-- The digest of an entry. -/
def HasDigest (digest : String) : Json → Prop
  | .str value => value = digest
  | .obj entry => Record.get entry "hash" = .str digest
  | _ => False

/-- The manifest is read, and has a map of entries or none at all. -/
def SoundManifest (manifest : Path) : Prop :=
  ∃ text fields, host.readText manifest = some text ∧
    loads text = some (.obj fields) ∧
      (Record.get fields "entries" = .null ∨
        ∃ entries, Record.get fields "entries" = .obj entries ∧
          ∀ entry ∈ entries, IsEntry entry.2)

/-- The digest occurs in the manifest. -/
def OccursIn (digest : String) (manifest : Path) : Prop :=
  ∃ text fields entries, host.readText manifest = some text ∧
    loads text = some (.obj fields) ∧
      Record.get fields "entries" = .obj entries ∧
        ∃ entry ∈ entries, HasDigest digest entry.2

/-- The directories exist, a manifest is found, and all manifests are sound. -/
structure ReadyToPrune (dirs : List Path) (root : BlobsRoot) : Prop where
  directories : ∀ dir ∈ dirs, host.isDir dir = true
  someManifest : ∃ manifest, FoundBelow host dirs manifest
  sound : ∀ manifest, FoundBelow host dirs manifest → SoundManifest host manifest
  store : root ≠ .notDirectory

/-- The script removes the blobs that no manifest refers to, or it ends with the
store as it was. -/
structure PrunesUnreferenced (dirs : List Path) (root : BlobsRoot) : Prop where
  finishes :
    (∃ report after,
        prune host (.checkpointDirs dirs) false root = (.ok report, after)) ↔
      ReadyToPrune host (dirs.map host.resolve) root
  keeps : ∀ report after,
    prune host (.checkpointDirs dirs) false root = (.ok report, after) →
      ∀ file, file ∈ after.files ↔
        file ∈ root.files ∧
          ∃ manifest, FoundBelow host (dirs.map host.resolve) manifest ∧
            OccursIn host (digestForBlobPath file.1) manifest
  aborts : ∀ abort after,
    prune host (.checkpointDirs dirs) false root = (.error abort, after) →
      after = root

end Spec

/-! ## Reading -/

section Reading

variable {host : PruneHost} {dirs manifests : List Path} {manifest : Path}

theorem manifestsBelow_eq_ok {dir : Path} {found : List Path} :
    manifestsBelow host dir = .ok found ↔
      host.isDir dir = true ∧
        found = ((host.filesBelow dir).filter fun rel =>
          rel.getLast?.any isManifestName).map fun rel => dir ++ rel := by
  rw [manifestsBelow]
  split
  · next notDir => exact iff_of_false nofun fun isDir => notDir isDir.1
  · next isDir =>
      rw [not_not] at isDir
      rw [Except.ok.injEq]
      exact ⟨fun same => ⟨isDir, same.symm⟩, fun same => same.2.symm⟩

/-- The manifests are those found below the directories. -/
theorem mem_manifestPaths (isPaths : manifestPaths host dirs = .ok manifests) :
    manifest ∈ manifests ↔ FoundBelow host dirs manifest := by
  obtain ⟨found, isFound, rfl⟩ := Loops.map_eq_ok.mp isPaths
  rw [(sortBy_perm id _).mem_iff, List.mem_dedup, List.mem_flatten]
  constructor
  · rintro ⟨below, member, inBelow⟩
    obtain ⟨dir, isDir, isBelow⟩ := (Loops.mem_mapM isFound below).mp member
    obtain ⟨_, rfl⟩ := manifestsBelow_eq_ok.mp isBelow
    obtain ⟨rel, isRel, same⟩ := List.mem_map.mp inBelow
    obtain ⟨inFiles, isName⟩ := List.mem_filter.mp isRel
    exact ⟨dir, isDir, rel, inFiles, isName, same⟩
  · rintro ⟨dir, isDir, rel, inFiles, isName, same⟩
    obtain ⟨below, isBelow⟩ :=
      (Loops.exists_mapM_eq_ok _ _).mp ⟨found, isFound⟩ dir isDir
    refine ⟨below, (Loops.mem_mapM isFound below).mpr ⟨dir, isDir, isBelow⟩, ?_⟩
    obtain ⟨_, rfl⟩ := manifestsBelow_eq_ok.mp isBelow
    exact List.mem_map.mpr ⟨rel, List.mem_filter.mpr ⟨inFiles, isName⟩, same⟩

theorem exists_manifestPaths :
    (∃ manifests, manifestPaths host dirs = .ok manifests) ↔
      ∀ dir ∈ dirs, host.isDir dir = true := by
  have each (dir : Path) :
      (∃ found, manifestsBelow host dir = .ok found) ↔ host.isDir dir = true := by
    simp only [manifestsBelow_eq_ok, exists_and_left, exists_eq, and_true]
  simp only [manifestPaths, Loops.map_eq_ok, ← each, ← Loops.exists_mapM_eq_ok]
  exact ⟨fun ⟨_, found, isFound, _⟩ => ⟨found, isFound⟩,
    fun ⟨found, isFound⟩ => ⟨_, found, isFound, rfl⟩⟩

/-- An entry that is read has the digest that it has, or none. -/
theorem entryDigest_spec {relpath : String} {entry : Json}
    {digest : Option String}
    (isDigest : entryDigest manifest relpath entry = .ok digest) :
    IsEntry entry ∧ ∀ value, digest = some value ↔ HasDigest value entry := by
  cases entry with
  | str text =>
      rw [entryDigest, Except.ok.injEq] at isDigest
      rw [← isDigest]
      exact ⟨trivial, fun value => Option.some_inj⟩
  | obj entry =>
      rw [entryDigest] at isDigest
      split at isDigest
      · next isNull =>
          cases isDigest
          refine ⟨Or.inl isNull, fun value => ?_⟩
          rw [HasDigest, isNull]
          exact ⟨nofun, nofun⟩
      · next text isText =>
          cases isDigest
          refine ⟨Or.inr ⟨text, isText⟩, fun value => ?_⟩
          rw [HasDigest, isText, Option.some_inj, Json.str.injEq]
      · cases isDigest
  | null | bool _ | int _ | float _ | arr _ => cases isDigest

theorem exists_entryDigest {relpath : String} {entry : Json} :
    (∃ digest, entryDigest manifest relpath entry = .ok digest) ↔ IsEntry entry := by
  constructor
  · rintro ⟨digest, isDigest⟩
    exact (entryDigest_spec isDigest).1
  · intro isEntry
    cases entry with
    | str text => exact ⟨_, rfl⟩
    | obj entry =>
        rw [entryDigest]
        rcases isEntry with isNull | ⟨text, isText⟩
        · rw [isNull]
          exact ⟨_, rfl⟩
        · rw [isText]
          exact ⟨_, rfl⟩
    | null | bool _ | int _ | float _ | arr _ => cases isEntry

/-- What is read of a manifest are the digests that occur in it. -/
theorem manifestDigests_spec {digests : List String}
    (isDigests : manifestDigests host manifest = .ok digests) :
    SoundManifest host manifest ∧
      ∀ digest, digest ∈ digests ↔ OccursIn host digest manifest := by
  rw [manifestDigests] at isDigests
  split at isDigests
  · cases isDigests
  · next text isText =>
      split at isDigests
      · cases isDigests
      · next fields isFields =>
          have unique {other : Text} {otherFields : Record}
              (isOther : host.readText manifest = some other)
              (isObj : loads other = some (.obj otherFields)) :
              otherFields = fields := by
            rw [isText, Option.some_inj] at isOther
            rw [← isOther, isFields, Option.some_inj, Json.obj.injEq] at isObj
            exact isObj.symm
          split at isDigests
          · next isNull =>
              cases isDigests
              refine ⟨⟨text, fields, isText, isFields, Or.inl isNull⟩, fun digest => ?_⟩
              refine iff_of_false nofun ?_
              rintro ⟨other, otherFields, entries, isOther, isObj, isEntries, _⟩
              rw [unique isOther isObj, isNull] at isEntries
              cases isEntries
          · next entries isEntries =>
              obtain ⟨found, isFound, rfl⟩ := Loops.map_eq_ok.mp isDigests
              have each := (Loops.exists_mapM_eq_ok _ _).mp ⟨found, isFound⟩
              refine ⟨⟨text, fields, isText, isFields, Or.inr ⟨entries, isEntries,
                fun entry member => exists_entryDigest.mp (each entry member)⟩⟩,
                fun digest => ?_⟩
              rw [List.mem_filterMap]
              constructor
              · rintro ⟨_, member, rfl⟩
                obtain ⟨entry, isEntry, isDigest⟩ := (Loops.mem_mapM isFound _).mp member
                exact ⟨text, fields, entries, isText, isFields, isEntries, entry,
                  isEntry, ((entryDigest_spec isDigest).2 digest).mp rfl⟩
              · rintro ⟨other, otherFields, otherEntries, isOther, isObj, areEntries,
                  entry, isEntry, hasDigest⟩
                rw [unique isOther isObj, isEntries, Json.obj.injEq] at areEntries
                rw [← areEntries] at isEntry
                obtain ⟨result, isResult⟩ := each entry isEntry
                exact ⟨result, (Loops.mem_mapM isFound _).mpr ⟨entry, isEntry, isResult⟩,
                  ((entryDigest_spec isResult).2 digest).mpr hasDigest⟩
          · cases isDigests
      · cases isDigests

theorem exists_manifestDigests :
    (∃ digests, manifestDigests host manifest = .ok digests) ↔
      SoundManifest host manifest := by
  constructor
  · rintro ⟨digests, isDigests⟩
    exact (manifestDigests_spec isDigests).1
  · rintro ⟨text, fields, isText, isFields, isNull | ⟨entries, isEntries, sound⟩⟩
    · rw [manifestDigests, isText]
      dsimp only
      rw [isFields]
      dsimp only
      rw [isNull]
      exact ⟨_, rfl⟩
    · rw [manifestDigests, isText]
      dsimp only
      rw [isFields]
      dsimp only
      rw [isEntries]
      obtain ⟨digests, isDigests⟩ := (Loops.exists_mapM_eq_ok
        (fun entry : String × Json => entryDigest manifest entry.1 entry.2)
          entries).mpr fun entry member => exists_entryDigest.mpr (sound entry member)
      exact ⟨_, Loops.map_eq_ok.mpr ⟨digests, isDigests, rfl⟩⟩

end Reading

/-! ## Removing -/

/-- A step removes the files of the path, unless the digest is referenced. -/
theorem mem_pruneBlob {referenced : List String} {state : PruneState}
    {visited file : Path × ℕ} :
    file ∈ (pruneBlob referenced false state visited).files ↔
      file ∈ state.files ∧
        (visited.1 = file.1 → digestForBlobPath file.1 ∈ referenced) := by
  rw [pruneBlob]
  dsimp only
  split
  · next isReferenced =>
      exact (and_iff_left fun same => same ▸ isReferenced).symm
  · next notReferenced =>
      dsimp only
      rw [if_neg Bool.false_ne_true, List.mem_filter, decide_eq_true_eq]
      refine and_congr_right fun _ => ⟨fun differs same => absurd same.symm differs, ?_⟩
      exact fun referencedIf same => notReferenced (same ▸ referencedIf same.symm)

/-- A run removes what it visits, unless its digest is referenced. -/
theorem mem_foldl_pruneBlob {referenced : List String} {visited : List (Path × ℕ)}
    {state : PruneState} {file : Path × ℕ} :
    file ∈ (visited.foldl (pruneBlob referenced false) state).files ↔
      file ∈ state.files ∧
        ∀ other ∈ visited, other.1 = file.1 →
          digestForBlobPath file.1 ∈ referenced := by
  induction visited generalizing state with
  | nil => exact (and_iff_left (List.forall_mem_nil _)).symm
  | cons first rest induction =>
      rw [List.foldl_cons, induction, mem_pruneBlob, List.forall_mem_cons, and_assoc]

/-- What is left are the blobs that are referenced. -/
theorem mem_pruneBlobs {root after : BlobsRoot} {referenced : List String}
    {pruned : PruneState}
    (isPruned : pruneBlobs root referenced false = (.ok pruned, after))
    (file : Path × ℕ) :
    file ∈ after.files ↔
      file ∈ root.files ∧ digestForBlobPath file.1 ∈ referenced := by
  cases root with
  | missing =>
      cases isPruned
      exact iff_of_false nofun fun kept => nomatch kept.1
  | notDirectory => cases isPruned
  | directory files =>
      cases isPruned
      rw [BlobsRoot.files, BlobsRoot.files, mem_foldl_pruneBlob]
      refine and_congr_right fun isFile => ⟨fun each => ?_, fun kept _ _ _ => kept⟩
      exact each file ((sortBy_perm Prod.fst files).mem_iff.mpr isFile) rfl

/-- Nothing is removed where the store is no directory. -/
theorem pruneBlobs_error {root after : BlobsRoot} {referenced : List String}
    {dryRun : Bool} {abort : PruneAbort}
    (isPruned : pruneBlobs root referenced dryRun = (.error abort, after)) :
    root = .notDirectory ∧ after = root := by
  cases root with
  | notDirectory =>
      cases isPruned
      exact ⟨rfl, rfl⟩
  | missing | directory files => cases isPruned

theorem pruneBlobs_ok {root after : BlobsRoot} {referenced : List String}
    {dryRun : Bool} {pruned : PruneState}
    (isPruned : pruneBlobs root referenced dryRun = (.ok pruned, after)) :
    root ≠ .notDirectory := by
  rintro rfl
  cases isPruned

/-! ## The script -/

section Script

variable {host : PruneHost} {dirs manifests : List Path}

theorem someOrAbort_eq_ok {abort : PruneAbort} {found result : List Path} :
    someOrAbort abort found = .ok result ↔ found ≠ [] ∧ found = result := by
  rw [someOrAbort]
  split
  · next empty =>
      exact iff_of_false nofun fun some => some.1 (List.isEmpty_iff.mp empty)
  · next some =>
      rw [Except.ok.injEq, and_iff_right fun empty => some (List.isEmpty_iff.mpr empty)]

/-- What is read before blobs are removed. -/
theorem readReferences_spec {found : List Path} {referenced : List String}
    (isRead : readReferences host (.checkpointDirs dirs) =
      .ok (found, manifests, referenced)) :
    (∀ dir ∈ dirs.map host.resolve, host.isDir dir = true) ∧
      (∃ manifest, FoundBelow host (dirs.map host.resolve) manifest) ∧
      (∀ manifest, FoundBelow host (dirs.map host.resolve) manifest →
        SoundManifest host manifest) ∧
      ∀ digest, digest ∈ referenced ↔
        ∃ manifest, FoundBelow host (dirs.map host.resolve) manifest ∧
          OccursIn host digest manifest := by
  obtain ⟨_, isDirs, isRead⟩ := Loops.bind_eq_ok.mp isRead
  obtain ⟨paths, isPaths, isRead⟩ := Loops.bind_eq_ok.mp isRead
  obtain ⟨_, isManifests, isRead⟩ := Loops.bind_eq_ok.mp isRead
  obtain ⟨digests, isDigests, isRead⟩ := Loops.bind_eq_ok.mp isRead
  obtain ⟨_, rfl⟩ := someOrAbort_eq_ok.mp isDirs
  obtain ⟨somePath, rfl⟩ := someOrAbort_eq_ok.mp isManifests
  cases isRead
  have isFound (manifest : Path) : manifest ∈ _ ↔ _ := mem_manifestPaths isPaths
  obtain ⟨each, isEach, rfl⟩ := Loops.map_eq_ok.mp isDigests
  have sound := (Loops.exists_mapM_eq_ok _ _).mp ⟨each, isEach⟩
  refine ⟨exists_manifestPaths.mp ⟨_, isPaths⟩, ?_, fun manifest found => ?_,
    fun digest => ?_⟩
  · obtain ⟨manifest, member⟩ := List.exists_mem_of_ne_nil _ somePath
    exact ⟨manifest, (isFound manifest).mp member⟩
  · exact exists_manifestDigests.mp (sound manifest ((isFound manifest).mpr found))
  · rw [List.mem_flatten]
    constructor
    · rintro ⟨digests, member, isDigest⟩
      obtain ⟨manifest, inPaths, isRead⟩ := (Loops.mem_mapM isEach _).mp member
      exact ⟨manifest, (isFound manifest).mp inPaths,
        ((manifestDigests_spec isRead).2 digest).mp isDigest⟩
    · rintro ⟨manifest, found, occurs⟩
      have inPaths := (isFound manifest).mpr found
      obtain ⟨digests, isRead⟩ := sound manifest inPaths
      exact ⟨digests, (Loops.mem_mapM isEach _).mpr ⟨manifest, inPaths, isRead⟩,
        ((manifestDigests_spec isRead).2 digest).mpr occurs⟩

theorem readReferences_eq_ok {referenced : List String}
    (someDir : dirs.map host.resolve ≠ [])
    (isPaths : manifestPaths host (dirs.map host.resolve) = .ok manifests)
    (somePath : manifests ≠ [])
    (isReferenced : referencedDigests host manifests = .ok referenced) :
    readReferences host (.checkpointDirs dirs) =
      .ok (dirs.map host.resolve, manifests, referenced) := by
  refine Loops.bind_eq_ok.mpr
    ⟨dirs.map host.resolve, someOrAbort_eq_ok.mpr ⟨someDir, rfl⟩, ?_⟩
  refine Loops.bind_eq_ok.mpr ⟨manifests, isPaths, ?_⟩
  refine Loops.bind_eq_ok.mpr
    ⟨manifests, someOrAbort_eq_ok.mpr ⟨somePath, rfl⟩, ?_⟩
  exact Loops.bind_eq_ok.mpr ⟨referenced, isReferenced, rfl⟩

/-- All is read where the directories exist and the manifests are sound. -/
theorem exists_readReferences
    (directories : ∀ dir ∈ dirs.map host.resolve, host.isDir dir = true)
    (someManifest : ∃ manifest, FoundBelow host (dirs.map host.resolve) manifest)
    (sound : ∀ manifest, FoundBelow host (dirs.map host.resolve) manifest →
      SoundManifest host manifest) :
    ∃ read, readReferences host (.checkpointDirs dirs) = .ok read := by
  obtain ⟨paths, isPaths⟩ := exists_manifestPaths.mpr directories
  obtain ⟨manifest, found⟩ := someManifest
  have member := (mem_manifestPaths isPaths).mpr found
  have someDir : dirs.map host.resolve ≠ [] := by
    obtain ⟨dir, isDir, _⟩ := found
    exact List.ne_nil_of_mem isDir
  obtain ⟨digests, isDigests⟩ := (Loops.exists_mapM_eq_ok
    (manifestDigests host) paths).mpr fun manifest inPaths =>
      exists_manifestDigests.mpr
        (sound manifest ((mem_manifestPaths isPaths).mp inPaths))
  have isReferenced : referencedDigests host paths = .ok digests.flatten :=
    Loops.map_eq_ok.mpr ⟨digests, isDigests, rfl⟩
  exact ⟨(dirs.map host.resolve, paths, digests.flatten), readReferences_eq_ok someDir
    isPaths (List.ne_nil_of_mem member) isReferenced⟩

/-- A host with one manifest, and this manifest has no map of entries. -/
def hostOfNullEntries : PruneHost where
  resolve := id
  isDir := fun _ => true
  filesBelow := fun _ => [["manifest.json"]]
  dirsBelow := fun _ => []
  readText := fun _ => some (dumps (.obj [("entries", .null)]))

end Script

end AgentSchedBench.Checkpoint
