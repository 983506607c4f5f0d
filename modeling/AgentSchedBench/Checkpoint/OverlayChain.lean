import AgentSchedBench.Checkpoint.Overlay
import AgentSchedBench.Checkpoint.RestoreLeads

/-!
# Restoring chains of overlay captures

A chain of overlay captures is restored like a chain of walks: the first
manifest after clearing the root, the others over what is there.  The captures
see the upper layer only, so a chain restores the tree of the container where
the upper layer tells what changed in it.
-/

namespace AgentSchedBench.Checkpoint

open FileSystem

/-! ## Runs of captures -/

/-- The captures so far, with the tree that was captured last. -/
structure OverlayRun where
  since : Option DiskSnapshot
  chain : List Manifest
  blobs : BlobStore
  captured : Option Tree

def OverlayRun.start (blobs : BlobStore) : OverlayRun where
  since := none
  chain := []
  blobs := blobs
  captured := none

/-- A capture that fails is not recorded. -/
def OverlayRun.step (run : OverlayRun) (call : OverlayCall) : OverlayRun :=
  match captureOverlay call run.since run.blobs with
  | (.error _, blobs) => { run with blobs := blobs }
  | (.ok snapshot, blobs) =>
      { since := some snapshot
        chain := run.chain ++ snapshot.manifest.toList
        blobs := blobs
        captured := some call.layers.merged }

def overlayRun (blobs : BlobStore) (calls : List OverlayCall) : OverlayRun :=
  calls.foldl OverlayRun.step (OverlayRun.start blobs)

/-- Does the capture succeed? -/
def OverlayRun.captures (run : OverlayRun) (call : OverlayCall) : Bool :=
  (captureOverlay call run.since run.blobs).1.isOk

/-- The part of a file system below the root is the lower tree. -/
def Provides (lower : Tree) (fs : Fs FileData) : Prop :=
  ∀ path, fs.get (restoreRoot ++ path) = lower.get path

/-- The chain recorded up to each capture restores the tree captured. -/
def OverlayChainsRestore
    (blobs : BlobStore) (calls : List OverlayCall) : Prop :=
  ∀ (before after : List OverlayCall) (call : OverlayCall),
    calls = before ++ call :: after →
      (overlayRun blobs before).captures call = true →
        ∀ fs, Provides call.layers.lower fs →
          ∃ restored,
            restoreCheckpointChain (overlayRun blobs calls).blobs
                (overlayRun blobs (before ++ [call])).chain fs =
                  .ok restored ∧
              ∀ path, entriesBelow restored restoreRoot path =
                call.layers.merged.entries path

/-! ## What the upper layer tells -/

/-- What changed since the last capture is told by newer upper entries. -/
structure ChangesTold
    (upper : UpperLayer) (sinceNs : Option Int) (previous tree : Tree) :
    Prop where
  kept :
    ∀ path, (tree.entries path).isSome → ¬ upper.Recorded sinceNs path →
      previous.entries path = tree.entries path
  gone :
    ∀ path, (previous.entries path).isSome → tree.entries path = none →
      (∃ front, front <+: path ∧ upper.Deleted sinceNs front) ∨
        ∃ front, front <+: path ∧ front ≠ path ∧
          upper.Recorded sinceNs front
  links :
    ∀ path, upper.Recorded sinceNs path → ∀ data target,
      tree.get path = some (.file data) →
        previous.get path ≠ some (.symlink target)

/--
At the first capture all files and links of the container are in the upper
layer; later ones are told what changed.
-/
def OverlayRun.Told (run : OverlayRun) (call : OverlayCall) : Prop :=
  ∀ upper, call.layers.upper = some upper →
    match run.captured with
    | none =>
        ∀ path, (call.layers.merged.entries path).isSome →
          (upper.entries path).isSome
    | some previous =>
        ChangesTold upper (run.since.map DiskSnapshot.timestampNs)
          previous call.layers.merged

/-- Each capture of the run is told what changed. -/
def ChainTold (blobs : BlobStore) (calls : List OverlayCall) : Prop :=
  ∀ (before after : List OverlayCall) (call : OverlayCall),
    calls = before ++ call :: after →
      (overlayRun blobs before).captures call = true →
        (overlayRun blobs before).Told call

section Leads

variable
  {upper : UpperLayer} {lower previous : Tree}
  {linkToDir : RelPath → Bool} {sinceNs : Option Int} {blobs : BlobStore}
  {manifest : Manifest}

theorem OverlayManifest.listed
    (made : OverlayManifest upper sinceNs blobs manifest) (path : RelPath) :
    (manifest.entries.get path).isSome ↔ upper.Recorded sinceNs path := by
  constructor
  · intro present
    by_contra notRecorded
    rw [made.notRecorded path notRecorded] at present
    cases present
  · intro recorded
    obtain ⟨entry, found, _⟩ := made.recorded path recorded
    simp [found]

theorem OverlayManifest.lists
    (made : OverlayManifest upper sinceNs blobs manifest)
    (lower : Tree) (linkToDir : RelPath → Bool) :
    Lists (upper.mergedTree lower linkToDir) manifest where
  outside path present :=
    (UpperLayer.entries_isSome ((made.listed path).mp present).1).1
  value path entry present := by
    have recorded := (made.listed path).mp (by simp [present])
    obtain ⟨other, found, value⟩ := made.recorded path recorded
    rw [present] at found
    cases found
    rw [value, UpperLayer.merged_entries recorded.1]

/-- The entries of the upper layer are entries of the container. -/
theorem OverlayManifest.entriesOf_merged
    (made : OverlayManifest upper sinceNs blobs manifest)
    (intact : blobs.Intact)
    (lower : Tree) (linkToDir : RelPath → Bool) :
    EntriesOf (upper.mergedTree lower linkToDir) blobs manifest := by
  intro path entry present
  obtain ⟨captured, object, found, isRecorded⟩ :=
    made.entriesOf intact path entry present
  have outside :=
    (made.lists lower linkToDir).outside path (by simp [present])
  have hasValue : (objectValue object).isSome := by
    cases object with
    | file data => rfl
    | symlink target => rfl
    | dir => exact isRecorded.elim
    | special => exact isRecorded.elim
  have merged :
      (upper.mergedTree lower linkToDir).get path = some object :=
    UpperLayer.merged_of_value found hasValue
  refine ⟨?_, object, merged, isRecorded⟩
  rw [captured_of_outside _ captured.1 outside, merged]
  rfl

theorem UpperLayer.Deleted.proper
    {path : RelPath} (deleted : upper.Deleted sinceNs path) :
    path ≠ [] ∧ ValidPath path ∧ ".git" ∉ path := by
  obtain ⟨front, name, rfl, special, valid, _⟩ :=
    UpperLayer.deletes_iff deleted.2.1
  refine ⟨by simp, ?_, deleted.1⟩
  have markerValid :=
    upper.valid_paths _ ((upper.mem_paths _).mpr
      (by rw [special]; rfl :
        (upper.get (front ++ [whiteoutName name])).isSome))
  intro part member
  rcases List.mem_append.mp member with inFront | isName
  · exact markerValid part (List.mem_append_left _ inFront)
  · rw [List.mem_singleton.mp isName]
    exact valid

/-- A later capture leads from the tree captured before. -/
theorem ChangesTold.leads
    (told :
      ChangesTold upper sinceNs previous (upper.mergedTree lower linkToDir))
    (made : OverlayManifest upper sinceNs blobs manifest) :
    Leads previous (upper.mergedTree lower linkToDir) manifest where
  toLists := made.lists lower linkToDir
  deletable path member := ((made.deletedPaths path).mp member).proper
  kept path _ hasEntry notListed := by
    refine ⟨told.kept path hasEntry fun recorded => ?_, ?_⟩
    · have listed := (made.listed path).mpr recorded
      rw [notListed] at listed
      cases listed
    · intro front isPrefix deleted
      rw [UpperLayer.merged_entries_deleted
        ((made.deletedPaths front).mp deleted).2.1 isPrefix] at hasEntry
      cases hasEntry
  gone path _ hadEntry noEntry := by
    rcases told.gone path hadEntry noEntry with
      ⟨front, isPrefix, deleted⟩ | ⟨front, isPrefix, apart, recorded⟩
    · exact Or.inl ⟨front, isPrefix, (made.deletedPaths front).mpr deleted⟩
    · exact Or.inr ⟨front, isPrefix, apart, (made.listed front).mpr recorded⟩
  links path listed data target isFile wasLink :=
    (told.links path ((made.listed path).mp listed) data target isFile
      wasLink).elim
  deletions path member front isPrefix apart target wasLink := by
    have deleted := (made.deletedPaths path).mp member
    have outside : ".git" ∉ front := fun inside =>
      deleted.1 (isPrefix.subset inside)
    have isDir := UpperLayer.dir_above_deleted deleted.2.1 isPrefix apart
    have hadEntry : (previous.entries front).isSome := by
      rw [previous.entries_of_not_skipped outside, wasLink]
      rfl
    have noEntry :
        (upper.mergedTree lower linkToDir).entries front = none := by
      rw [Tree.entries_of_not_skipped _ outside,
        show (upper.mergedTree lower linkToDir).get front = some .dir from
          UpperLayer.mergedGet_of_dir isDir]
      rfl
    rcases told.gone front hadEntry noEntry with
      ⟨other, above, otherDeleted⟩ | ⟨other, above, proper, recorded⟩
    · obtain ⟨_, _, _, _, _, missing⟩ :=
        UpperLayer.deletes_iff otherDeleted.2.1
      have otherApart : other ≠ path := by
        rintro rfl
        exact apart (isPrefix.eq_of_length_le above.length_le)
      rw [UpperLayer.dir_above_deleted deleted.2.1 (above.trans isPrefix)
        otherApart] at missing
      cases missing
    · obtain ⟨_, object, present, hasValue⟩ :=
        UpperLayer.entries_isSome recorded.1
      rw [upper.dir_of_isPrefix above proper (by simp [isDir])] at present
      cases present
      cases hasValue

end Leads

section Runs

variable {run : OverlayRun} {call : OverlayCall}

/-- The stores of a run only grow. -/
def OverlayRun.Within (run : OverlayRun) (final : BlobStore) : Prop :=
  (∀ digest, (run.blobs digest).isSome → (final digest).isSome) ∧
    final.Intact

/-- The chain restores the tree captured last, from any later store. -/
structure OverlayRun.Sound (run : OverlayRun) : Prop where
  intact : run.blobs.Intact
  empty : run.captured = none → run.chain = [] ∧ run.since = none
  restores :
    ∀ tree, run.captured = some tree →
      run.chain ≠ [] ∧ run.since.isSome ∧
        ∀ final, run.Within final → ∀ fs,
          ∃ after, restoreCheckpointChain final run.chain fs = .ok after ∧
            RestoredAs (fun _ => True) tree after

theorem OverlayRun.start_sound
    {blobs : BlobStore} (intact : blobs.Intact) :
    (OverlayRun.start blobs).Sound where
  intact := intact
  empty _ := ⟨rfl, rfl⟩
  restores _ impossible := by cases impossible

theorem restoreCheckpointChain_append
    (blobs : BlobStore) {chain : List Manifest} (nonempty : chain ≠ [])
    (manifest : Manifest) (fs : Fs FileData) :
    restoreCheckpointChain blobs (chain ++ [manifest]) fs =
      (restoreCheckpointChain blobs chain fs).bind
        (restoreCasManifest blobs false manifest) := by
  obtain ⟨full, rest, rfl⟩ := List.exists_cons_of_ne_nil nonempty
  rw [List.cons_append, restoreCheckpointChain, restoreCheckpointChain]
  cases restoreCasManifest blobs true full fs with
  | error failure => rfl
  | ok restored =>
      change
        (rest ++ [manifest]).foldlM
            (fun fs manifest => restoreCasManifest blobs false manifest fs)
            restored =
          (rest.foldlM
            (fun fs manifest => restoreCasManifest blobs false manifest fs)
            restored).bind (restoreCasManifest blobs false manifest)
      rw [List.foldlM_append]
      apply congrArg
      funext state
      rw [List.foldlM_cons]
      cases restoreCasManifest blobs false manifest state with
      | error failure => rfl
      | ok next => rfl

theorem OverlayRun.step_failed
    (failed : run.captures call = false) :
    ∃ blobs, run.step call = { run with blobs := blobs } ∧
      blobs = (captureOverlay call run.since run.blobs).2 := by
  rw [captures] at failed
  rw [step]
  rcases captured : captureOverlay call run.since run.blobs with
    ⟨failure | snapshot, blobs⟩
  · exact ⟨blobs, rfl, rfl⟩
  · rw [captured] at failed
    cases failed

/-- A capture that succeeds adds its manifest to the chain. -/
theorem OverlayRun.step_captured
    (succeeds : run.captures call = true) :
    ∃ upper manifest blobs,
      call.layers.upper = some upper ∧
        call.layers.merged =
          upper.mergedTree call.layers.lower call.layers.linkToDir ∧
        blobs = (captureOverlay call run.since run.blobs).2 ∧
        OverlayManifest upper (run.since.map DiskSnapshot.timestampNs)
          blobs manifest ∧
        run.step call =
          { since :=
              some
                { manifest := some manifest
                  incremental := run.since.isSome
                  timestampNs := call.markerBeforeNs }
            chain := run.chain ++ [manifest]
            blobs := blobs
            captured := some call.layers.merged } := by
  rw [captures] at succeeds
  rcases captured : captureOverlay call run.since run.blobs with
    ⟨failure | snapshot, blobs⟩
  · rw [captured] at succeeds
    cases succeeds
  · obtain ⟨upper, manifest, hasUpper, rfl, made⟩ :=
      captureOverlay_recorded captured
    refine ⟨upper, manifest, blobs, hasUpper, ?_, rfl, made, ?_⟩
    · rw [Layers.merged, hasUpper]
    · rw [step, captured]
      rfl

theorem OverlayRun.step_blobs (run : OverlayRun) (call : OverlayCall) :
    (∀ digest, (run.blobs digest).isSome →
        ((run.step call).blobs digest).isSome) ∧
      (run.blobs.Intact → (run.step call).blobs.Intact) := by
  have facts := captureOverlay_blobs call run.since run.blobs
  cases succeeds : run.captures call with
  | false =>
      obtain ⟨blobs, stepped, rfl⟩ := step_failed succeeds
      rw [stepped]
      exact facts
  | true =>
      obtain ⟨_, _, blobs, _, _, rfl, _, stepped⟩ :=
        step_captured succeeds
      rw [stepped]
      exact facts

/-- One capture keeps the chain sound if it is told what changed. -/
theorem OverlayRun.Sound.step
    (sound : run.Sound)
    (told : run.captures call = true → run.Told call) :
    (run.step call).Sound := by
  have blobsIntact := (run.step_blobs call).2 sound.intact
  cases succeeds : run.captures call with
  | false =>
      obtain ⟨blobs, stepped, isBlobs⟩ := step_failed succeeds
      have grows := (captureOverlay_blobs call run.since run.blobs).1
      rw [← isBlobs] at grows
      rw [stepped] at blobsIntact ⊢
      refine ⟨blobsIntact, sound.empty, ?_⟩
      intro tree isTree
      obtain ⟨nonempty, hasSince, restores⟩ := sound.restores tree isTree
      exact ⟨nonempty, hasSince, fun final within =>
        restores final ⟨fun digest old =>
          within.1 digest (grows digest old), within.2⟩⟩
  | true =>
      obtain ⟨upper, manifest, blobs, hasUpper, isMerged, isBlobs, made,
        stepped⟩ := step_captured succeeds
      have grows := (captureOverlay_blobs call run.since run.blobs).1
      rw [← isBlobs] at grows
      rw [stepped] at blobsIntact ⊢
      refine ⟨blobsIntact, by simp, ?_⟩
      rintro tree ⟨⟩
      refine ⟨by simp, rfl, ?_⟩
      intro final within fs
      have entries :
          EntriesOf call.layers.merged final manifest := by
        rw [isMerged]
        exact (made.entriesOf_merged blobsIntact _ _).grow within.1 within.2
      have isTold := told succeeds upper hasUpper
      rw [isMerged] at isTold entries ⊢
      cases before : run.captured with
      | none =>
          rw [before] at isTold
          rw [(sound.empty before).1, List.nil_append]
          obtain ⟨after, isRestored, restoredAs⟩ :=
            (made.lists call.layers.lower
              call.layers.linkToDir).restore_cleared entries
              (fun path member =>
                ⟨((made.deletedPaths path).mp member).proper.1,
                  ((made.deletedPaths path).mp member).proper.2.1⟩)
              (fun path hasEntry => by
                rw [made.listed path]
                refine ⟨isTold path hasEntry, ?_⟩
                rw [(sound.empty before).2]
                rfl)
              fs
          refine ⟨after, ?_, restoredAs⟩
          rw [restoreCheckpointChain, isRestored]
          rfl
      | some previous =>
          rw [before] at isTold
          obtain ⟨nonempty, _, restores⟩ := sound.restores previous before
          obtain ⟨middle, first, middleAs⟩ :=
            restores final ⟨fun digest old =>
              within.1 digest (grows digest old), within.2⟩ fs
          obtain ⟨after, isRestored, restoredAs⟩ :=
            (isTold.leads made).restore entries middleAs
          refine ⟨after, ?_, restoredAs⟩
          rw [restoreCheckpointChain_append final nonempty, first]
          exact isRestored

theorem overlayRun_append
    (blobs : BlobStore) (calls : List OverlayCall) (call : OverlayCall) :
    overlayRun blobs (calls ++ [call]) = (overlayRun blobs calls).step call := by
  rw [overlayRun, List.foldl_append]
  rfl

/-- The run after each of its calls is sound. -/
theorem overlayRun_sound
    {blobs : BlobStore} (intact : blobs.Intact)
    (calls : List OverlayCall) :
    ChainTold blobs calls → (overlayRun blobs calls).Sound := by
  induction calls using List.reverseRecOn with
  | nil =>
      intro _
      exact OverlayRun.start_sound intact
  | append_singleton front call induction =>
      intro told
      rw [overlayRun_append]
      apply (induction _).step
      · exact told front [] call rfl
      · intro before after other split succeeds
        exact told before (after ++ [call]) other (by rw [split]; simp)
          succeeds

/-- What lies in the store at a point of a run is there at its end. -/
theorem overlayRun_within
    {blobs : BlobStore} (intact : blobs.Intact)
    (before after : List OverlayCall) :
    (overlayRun blobs before).Within
      (overlayRun blobs (before ++ after)).blobs := by
  have storeIntact :
      ∀ calls, (overlayRun blobs calls).blobs.Intact := by
    intro calls
    induction calls using List.reverseRecOn with
    | nil => exact intact
    | append_singleton front call induction =>
        rw [overlayRun_append]
        exact (OverlayRun.step_blobs _ call).2 induction
  induction after using List.reverseRecOn with
  | nil =>
      rw [List.append_nil]
      exact ⟨fun _ old => old, storeIntact before⟩
  | append_singleton front call induction =>
      rw [← List.append_assoc, overlayRun_append]
      have grown := (overlayRun blobs (before ++ front)).step_blobs call
      exact ⟨fun digest old => grown.1 digest (induction.1 digest old),
        grown.2 (storeIntact (before ++ front))⟩

theorem overlay_chains_restore
    (blobs : BlobStore) (calls : List OverlayCall) (intact : blobs.Intact)
    (told : ChainTold blobs calls) :
    OverlayChainsRestore blobs calls := by
  rintro before after call rfl succeeds fs _
  have reassociated :
      before ++ call :: after = (before ++ [call]) ++ after := by
    simp
  have sound := overlayRun_sound intact (before ++ [call]) (by
    intro front rest other split isCaptured
    apply told front (rest ++ after) other _ isCaptured
    rw [reassociated, split, List.append_assoc, List.cons_append])
  have within := overlayRun_within intact (before ++ [call]) after
  rw [reassociated]
  have captured :
      (overlayRun blobs (before ++ [call])).captured =
        some call.layers.merged := by
    obtain ⟨_, _, _, _, _, _, _, stepped⟩ :=
      OverlayRun.step_captured succeeds
    rw [overlayRun_append, stepped]
  obtain ⟨_, _, restores⟩ := sound.restores _ captured
  obtain ⟨restored, isRestored, restoredAs⟩ := restores _ within fs
  exact ⟨restored, isRestored, restoredAs.entries⟩

end Runs

/-! ## A lower file that is not touched -/

/-- An upper layer of files and directories. -/
def UpperLayer.ofObjects
    (objects : List (RelPath × Object FileData × Stat))
    (closed : ObjectsClosed objects) (nodup : (objects.map (·.1)).Nodup)
    (plain : ∀ item ∈ objects, item.2.1 ≠ .special) : UpperLayer where
  toTree := Tree.ofObjects objects (fun _ => false) closed
  charZero _ := false
  paths_nodup := by
    refine List.nodup_cons.mpr ⟨?_, nodup⟩
    intro member
    obtain ⟨item, listed, isRoot⟩ := List.mem_map.mp member
    exact (closed item listed).1 isRoot
  whiteouts dirpath name whiteout := by
    have special := isOverlayWhiteout_special whiteout
    obtain ⟨item, member, _, isSpecial⟩ :=
      mem_of_objectAt (by simp) special
    exact (plain item member isSpecial).elim

/-- One file below the root. -/
def fileItem (name : String) (mtimeNs : Int) :
    RelPath × Object FileData × Stat :=
  ([name], .file ⟨name, 0o644⟩, ⟨1, mtimeNs⟩)

def emptyLower : Tree :=
  Tree.ofObjects [] (fun _ => false) (by decide)

def imageLower : Tree :=
  Tree.ofObjects [fileItem "kept" 1] (fun _ => false) (by decide)

def firstUpper : UpperLayer :=
  UpperLayer.ofObjects [fileItem "a" 2] (by decide) (by decide) (by decide)

def secondUpper : UpperLayer :=
  UpperLayer.ofObjects [fileItem "a" 2, fileItem "b" 7] (by decide)
    (by decide) (by decide)

/-- The upper layer over a lower tree, captured at a time. -/
def overlayCall (lower : Tree) (upper : UpperLayer) (nowNs : Int) :
    OverlayCall where
  layers := ⟨lower, some upper, fun _ => false⟩
  markerBeforeNs := nowNs

/-- Two captures over an empty lower layer. -/
def freshCalls : List OverlayCall :=
  [overlayCall emptyLower firstUpper 5, overlayCall emptyLower secondUpper 9]

theorem Tree.mem_paths_of_entry
    {tree : Tree} {path : RelPath} (hasEntry : (tree.entries path).isSome) :
    path ∈ tree.paths := by
  rw [tree.mem_paths]
  by_contra missing
  rw [Option.not_isSome_iff_eq_none] at missing
  rw [Tree.entries, entriesBelow] at hasEntry
  simp [missing] at hasEntry

instance (upper : UpperLayer) (sinceNs : Option Int) (path : RelPath) :
    Decidable (upper.Recorded sinceNs path) :=
  inferInstanceAs (Decidable (_ ∧ _))

/-- The second capture is told of its new file. -/
theorem secondChanges_told :
    ChangesTold secondUpper (some 5)
      (overlayCall emptyLower firstUpper 5).layers.merged
      (overlayCall emptyLower secondUpper 9).layers.merged where
  kept path hasEntry notRecorded := by
    have check :
        ∀ path ∈ (overlayCall emptyLower secondUpper 9).layers.merged.paths,
          ¬ secondUpper.Recorded (some 5) path →
            (overlayCall emptyLower firstUpper 5).layers.merged.entries
                path =
              (overlayCall emptyLower secondUpper 9).layers.merged.entries
                path := by
      decide +kernel
    exact check path (Tree.mem_paths_of_entry hasEntry) notRecorded
  gone path hadEntry noEntry := by
    have check :
        ∀ path ∈ (overlayCall emptyLower firstUpper 5).layers.merged.paths,
          ((overlayCall emptyLower firstUpper 5).layers.merged.entries
            path).isSome →
            ((overlayCall emptyLower secondUpper 9).layers.merged.entries
              path).isSome := by
      decide +kernel
    have stays := check path (Tree.mem_paths_of_entry hadEntry) hadEntry
    rw [noEntry] at stays
    cases stays
  links path _ data target _ wasLink := by
    have check :
        ∀ path ∈ (overlayCall emptyLower firstUpper 5).layers.merged.paths,
          (overlayCall emptyLower firstUpper 5).layers.merged.isLink
            path = false := by
      decide +kernel
    have notLink := check path ((Tree.mem_paths _ path).mpr
      (by rw [wasLink]; rfl))
    rw [Tree.isLink, wasLink] at notLink
    cases notLink

theorem overlay_chains_restore_fresh :
    OverlayChainsRestore (fun _ => none) freshCalls := by
  apply overlay_chains_restore
  · intro digest content found
    cases found
  · intro before after call split _ upper hasUpper
    rcases before with _ | ⟨first, _ | ⟨second, rest⟩⟩
    · cases split
      cases hasUpper
      intro path hasEntry
      have check :
          ∀ path ∈ (overlayCall emptyLower firstUpper 5).layers.merged.paths,
            ((overlayCall emptyLower firstUpper 5).layers.merged.entries
              path).isSome → (firstUpper.entries path).isSome := by
        decide +kernel
      exact check path (Tree.mem_paths_of_entry hasEntry) hasEntry
    · cases split
      cases hasUpper
      exact secondChanges_told
    · simp [freshCalls] at split

/-- A file system whose part below the root is the tree. -/
def Tree.mounted (tree : Tree) : Fs FileData where
  get path :=
    match path with
    | [] => some .dir
    | first :: rest => if first = "testbed" then tree.get rest else none
  root_dir := rfl
  parent_dir path name present := by
    cases path with
    | nil => rfl
    | cons first rest =>
        rw [List.cons_append] at present
        dsimp only at present ⊢
        split at present
        · next isRoot =>
            rw [if_pos isRoot]
            exact tree.parent_dir rest name present
        · cases present

theorem provides_mounted (tree : Tree) : Provides tree tree.mounted :=
  fun _ => rfl

/-- The full manifest of the upper layer clears the file of the lower one. -/
theorem overlay_chain_loses_lower :
    ¬ OverlayChainsRestore (fun _ => none)
      [overlayCall imageLower firstUpper 5] := by
  intro restores
  rcases restores [] [] (overlayCall imageLower firstUpper 5) rfl
      (by decide +kernel) imageLower.mounted (provides_mounted imageLower)
    with ⟨restored, isRestored, entries⟩
  have lost :
      (restoreCheckpointChain
        (overlayRun (fun _ => none)
          [overlayCall imageLower firstUpper 5]).blobs
        (overlayRun (fun _ => none)
          ([] ++ [overlayCall imageLower firstUpper 5])).chain
        imageLower.mounted).toOption.map
          (fun restored => entriesBelow restored restoreRoot ["kept"]) =
        some none := by
    decide +kernel
  have present :
      ((overlayCall imageLower firstUpper 5).layers.merged.entries
        ["kept"]).isSome := by
    decide +kernel
  rw [isRestored] at lost
  rw [← entries ["kept"]] at present
  have missing : entriesBelow restored restoreRoot ["kept"] = none :=
    Option.some.inj lost
  rw [missing] at present
  cases present

end AgentSchedBench.Checkpoint
