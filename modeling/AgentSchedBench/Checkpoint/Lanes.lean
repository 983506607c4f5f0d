import AgentSchedBench.Checkpoint.Collector
import AgentSchedBench.Checkpoint.RestoreStep

/-!
# Chains over several agent lanes

A parent and its subagents checkpoint one tree, each lane against the last
tree that the same lane recorded.  The replay later sorts the actions of all
lanes by their start and walks back from an action to the nearest full
checkpoint, whatever lane it belongs to.

A chain is right where every incremental manifest of it covers the tree that
its predecessor in the sorted list restored.
-/

namespace AgentSchedBench.Checkpoint

open FileSystem

/-! ## Choosing a chain -/

/-- What the actions of a trace are sorted by. -/
structure ActionKey where
  tsStart : Int
  tsEnd : Int
  iteration : Int
  actionId : String
deriving DecidableEq, Repr

/-- The order of the key tuples. -/
def ActionKey.le (left right : ActionKey) : Bool :=
  if left.tsStart ≠ right.tsStart then left.tsStart < right.tsStart
  else if left.tsEnd ≠ right.tsEnd then left.tsEnd < right.tsEnd
  else if left.iteration ≠ right.iteration then
    left.iteration < right.iteration
  else left.actionId ≤ right.actionId

/-- The fields of an action record that the chain is built from. -/
structure Action where
  lane : String
  key : ActionKey
  checkpointAfter : CheckpointAfter

/-- A checkpoint spec; a manifest is found by its lane and file name. -/
structure CheckpointSpec where
  path : String × String
  kind : CheckpointKind
deriving DecidableEq, Repr

/-- `_checkpoint_after_spec`: only a written manifest has a path. -/
def checkpointAfterSpec (action : Action) : Option CheckpointSpec :=
  match action.checkpointAfter with
  | .recorded record => some ⟨(action.lane, record.path), record.kind⟩
  | _ => none

/-- `_checkpoint_spec_is_incremental`. -/
def checkpointSpecIsIncremental (spec : CheckpointSpec) : Bool :=
  spec.kind = .casManifestIncremental

/-- The loop that walks back; `reversedChain` is its accumulator. -/
def walkBack (reversedChain : List CheckpointSpec) :
    List Action → Option (List CheckpointSpec)
  | [] => none
  | action :: earlier =>
      match checkpointAfterSpec action with
      | none => walkBack reversedChain earlier
      | some spec =>
          let reversedChain := reversedChain ++ [spec]
          if checkpointSpecIsIncremental spec then
            walkBack reversedChain earlier
          else some reversedChain.reverse

/-- `_checkpoint_chain_specs_for_action`. -/
def checkpointChainSpecsForAction
    (actions : List Action) (targetIndex : Int) :
    Option (List CheckpointSpec) :=
  if targetIndex < 0 ∨ (actions.length : Int) ≤ targetIndex then none
  else
    match actions[targetIndex.toNat]?.bind checkpointAfterSpec with
    | none => none
    | some targetSpec =>
        if checkpointSpecIsIncremental targetSpec then
          walkBack [] (actions.take (targetIndex.toNat + 1)).reverse
        else some [targetSpec]

/-- The manifest files of all lanes. -/
abbrev ManifestFiles := String × String → Option Manifest

/-- `_restore_checkpoint_to_container`. -/
def restoreCheckpoint
    (files : ManifestFiles) (blobs : BlobStore) (clearRoot : Bool)
    (fs : Fs FileData) (spec : CheckpointSpec) : RestoreResult :=
  match files spec.path with
  | none => .error (.manifestMissing, fs)
  | some manifest => restoreCasManifest blobs clearRoot manifest fs

/-- `_restore_checkpoint_chain_to_container`: only the first clears. -/
def restoreCheckpointSpecs
    (files : ManifestFiles) (blobs : BlobStore)
    (specs : List CheckpointSpec) (fs : Fs FileData) : RestoreResult :=
  match specs with
  | [] => .error (.rootMissing, fs)
  | first :: rest => do
      let restored ← restoreCheckpoint files blobs true fs first
      rest.foldlM (restoreCheckpoint files blobs false) restored

/-! ## Running the lanes -/

/-- An action with the tree it captured and the baseline of its lane. -/
structure CapturedAction extends Action where
  tree : Tree
  baseline : Option Tree

/-- A tool call of a lane. -/
structure LaneCall where
  lane : String
  key : ActionKey
  call : CheckpointCall

/-- One session a lane, one blob store, and the actions so far. -/
structure LaneRun where
  sessions : String → Session
  blobs : BlobStore
  captured : List CapturedAction

def LaneRun.start (blobs : BlobStore) : LaneRun where
  sessions _ := Session.start blobs
  blobs := blobs
  captured := []

/-- The session of a lane, over the shared blob store. -/
def LaneRun.session (run : LaneRun) (lane : String) : Session :=
  { run.sessions lane with
    hook := { (run.sessions lane).hook with blobs := run.blobs } }

/-- The hook of a lane takes one tool call. -/
def LaneRun.step
    (config : HookConfig) (run : LaneRun) (laneCall : LaneCall) : LaneRun :=
  let session := run.session laneCall.lane
  let next := session.step config laneCall.call
  { sessions := Function.update run.sessions laneCall.lane next
    blobs := next.hook.blobs
    captured := run.captured ++
      [{ lane := laneCall.lane
         key := laneCall.key
         checkpointAfter :=
           (checkpointAfterTool config session.hook laneCall.call).1
         tree := laneCall.call.tree
         baseline := session.recordedTree }] }

/-- The lanes take the tool calls in the order they happen. -/
def LaneRun.run
    (config : HookConfig) (start : LaneRun) (calls : List LaneCall) :
    LaneRun :=
  calls.foldl (LaneRun.step config) start

/-- The manifest files that the lanes have written. -/
def LaneRun.files (run : LaneRun) : ManifestFiles :=
  fun path => (run.sessions path.1).hook.manifestFiles path.2

/-- The actions as the replay loads them. -/
def LaneRun.sorted (run : LaneRun) : List CapturedAction :=
  run.captured.insertionSort fun left right => left.key.le right.key

/-! ## When chains are right -/

/-- No lane writes over a manifest that it has recorded. -/
def ManifestsKept (config : HookConfig) (run : LaneRun) :
    List LaneCall → Prop
  | [] => True
  | laneCall :: rest =>
      (Attempts (run.session laneCall.lane) laneCall.call →
        ∀ old ∈ run.captured, old.lane = laneCall.lane →
          ∀ record, old.checkpointAfter = .recorded record →
            record.path ≠ manifestName config laneCall.call.toolCallId) ∧
        ManifestsKept config (run.step config laneCall) rest

/--
In the sorted list, every incremental checkpoint covers the tree of the
nearest checkpoint before it.
-/
def ChainCovers : Option Tree → List CapturedAction → Prop
  | _, [] => True
  | last, action :: rest =>
      match action.checkpointAfter with
      | .recorded record =>
          (record.kind = .casManifestIncremental →
            ∃ restored baseline, last = some restored ∧
              action.baseline = some baseline ∧
              Covers baseline restored action.tree) ∧
            ChainCovers (some action.tree) rest
      | _ => ChainCovers last rest

/-- No path named `.git` is a link in one of the trees and a file in another. -/
def GitLinksApart (trees : List Tree) : Prop :=
  ∀ previous ∈ trees, ∀ tree ∈ trees, ∀ front, ".git" ∉ front →
    ∀ target data,
      previous.get (front ++ [".git"]) = some (.symlink target) →
        tree.get (front ++ [".git"]) ≠ some (.file data)

/-- A path that is a link in one of the trees. -/
def LinkIn (trees : List Tree) (path : RelPath) : Prop :=
  ∃ tree ∈ trees, ∃ target, tree.get path = some (.symlink target)

theorem GitLinksApart.gitKept
    {trees : List Tree} (apart : GitLinksApart trees)
    {tree : Tree} (known : tree ∈ trees) :
    GitKept (LinkIn trees) tree := by
  rintro front outside ⟨previous, previousKnown, target, isLink⟩ data
  exact apart previous previousKnown tree known front outside target data
    isLink

/-- What the manifest of a recorded action is, for the stores given. -/
structure RecordedFacts
    (files : ManifestFiles) (blobs : BlobStore)
    (action : CapturedAction) (record : CheckpointRecord)
    (manifest : Manifest) (hashCache : HashCache) : Prop where
  present : files (action.lane, record.path) = some manifest
  current : CacheCurrent hashCache action.tree
  entries : EntriesOf action.tree blobs manifest
  manifest_cases :
    (record.kind = .casManifestFull ∧
        FullOf action.tree hashCache manifest) ∨
      (record.kind = .casManifestIncremental ∧
        ∃ baseline, action.baseline = some baseline ∧
          IncrementalOf baseline action.tree hashCache manifest)

/-- Every recorded action has its manifest. -/
def AllRecorded
    (files : ManifestFiles) (blobs : BlobStore)
    (captured : List CapturedAction) : Prop :=
  ∀ action ∈ captured, ∀ record,
    action.checkpointAfter = .recorded record →
      ∃ manifest hashCache,
        RecordedFacts files blobs action record manifest hashCache

/-! ## The chain of a sorted list -/

/-- The chain that a list of actions ends in, found from the front. -/
def chainThrough (chain : Option (List CheckpointSpec)) (action : Action) :
    Option (List CheckpointSpec) :=
  match checkpointAfterSpec action with
  | none => chain
  | some spec =>
      if checkpointSpecIsIncremental spec then chain.map (· ++ [spec])
      else some [spec]

theorem walkBack_reverse
    (actions : List Action) (reversedChain : List CheckpointSpec) :
    walkBack reversedChain actions.reverse =
      (actions.foldl chainThrough none).map (· ++ reversedChain.reverse) := by
  induction actions using List.reverseRecOn generalizing reversedChain with
  | nil => rfl
  | append_singleton actions action induction =>
      rw [List.reverse_append, List.reverse_singleton, List.singleton_append,
        walkBack, List.foldl_append, List.foldl_cons, List.foldl_nil,
        chainThrough]
      cases checkpointAfterSpec action with
      | none => exact induction reversedChain
      | some spec =>
          dsimp only
          split
          · rw [induction]
            cases actions.foldl chainThrough none <;> simp
          · simp

/-- Walking back from an action finds the chain through that action. -/
theorem checkpointChainSpecsForAction_eq
    {actions : List Action} {index : Nat} (action : Action)
    (found : actions[index]? = some action)
    (hasSpec : (checkpointAfterSpec action).isSome) :
    checkpointChainSpecsForAction actions index =
      (actions.take (index + 1)).foldl chainThrough none := by
  obtain ⟨spec, isSpec⟩ := Option.isSome_iff_exists.mp hasSpec
  have inRange : index < actions.length :=
    (List.getElem?_eq_some_iff.mp found).1
  have taken : actions.take (index + 1) = actions.take index ++ [action] := by
    rw [List.take_add_one, found]
    rfl
  rw [checkpointChainSpecsForAction, if_neg (by omega), Int.toNat_natCast,
    found, Option.bind_some, isSpec]
  dsimp only
  split
  · rw [walkBack_reverse]
    simp
  · next notIncremental =>
      rw [taken, List.foldl_append, List.foldl_cons, List.foldl_nil,
        chainThrough, isSpec]
      simp [notIncremental]

/-! ## Restoring a chain -/

section Restoring

variable
  {trees : List Tree} {files : ManifestFiles} {blobs : BlobStore}

theorem restoreCheckpointSpecs_append
    {specs : List CheckpointSpec} {spec : CheckpointSpec}
    {fs middle after : Fs FileData}
    (first : restoreCheckpointSpecs files blobs specs fs = .ok middle)
    (last : restoreCheckpoint files blobs false middle spec = .ok after) :
    restoreCheckpointSpecs files blobs (specs ++ [spec]) fs = .ok after := by
  cases specs with
  | nil => cases first
  | cons head rest =>
      obtain ⟨restored, isRestored, folded⟩ := Loops.bind_eq_ok.mp first
      rw [List.cons_append, restoreCheckpointSpecs]
      refine Loops.bind_eq_ok.mpr ⟨restored, isRestored, ?_⟩
      rw [List.foldlM_append]
      refine Loops.bind_eq_ok.mpr ⟨middle, folded, ?_⟩
      rw [List.foldlM_cons]
      exact Loops.bind_eq_ok.mpr ⟨after, last, rfl⟩

/-- A chain restores a tree, whatever is in the container. -/
def Restores
    (trees : List Tree) (files : ManifestFiles) (blobs : BlobStore)
    (chain : Option (List CheckpointSpec)) (tree : Tree) : Prop :=
  ∃ specs, chain = some specs ∧
    ∀ fs, ∃ after, restoreCheckpointSpecs files blobs specs fs = .ok after ∧
      RestoredAs (LinkIn trees) tree after

theorem linksLeft_of_mem {tree : Tree} (known : tree ∈ trees) :
    ∀ path target, tree.get path = some (.symlink target) →
      LinkIn trees path :=
  fun _ target isLink => ⟨tree, known, target, isLink⟩

/-- The chain through a recorded action restores its tree. -/
theorem RecordedFacts.restores
    {chain : Option (List CheckpointSpec)} {last : Option Tree}
    {action : CapturedAction} {record : CheckpointRecord}
    {manifest : Manifest} {hashCache : HashCache}
    (facts : RecordedFacts files blobs action record manifest hashCache)
    (recorded : action.checkpointAfter = .recorded record)
    (known : action.tree ∈ trees) (apart : GitLinksApart trees)
    (restores :
      ∀ tree, last = some tree → Restores trees files blobs chain tree)
    (covers :
      record.kind = .casManifestIncremental →
        ∃ restored baseline, last = some restored ∧
          action.baseline = some baseline ∧
          Covers baseline restored action.tree) :
    Restores trees files blobs (chainThrough chain action.toAction)
      action.tree := by
  have isSpec :
      checkpointAfterSpec action.toAction =
        some ⟨(action.lane, record.path), record.kind⟩ := by
    rw [checkpointAfterSpec, recorded]
  have restoreIt :
      ∀ clearRoot fs,
        restoreCheckpoint files blobs clearRoot fs
            ⟨(action.lane, record.path), record.kind⟩ =
          restoreCasManifest blobs clearRoot manifest fs := by
    intro clearRoot fs
    rw [restoreCheckpoint, facts.present]
  rcases facts.manifest_cases with
    ⟨isFull, full⟩ | ⟨isIncremental, baseline, isBaseline, incremental⟩
  · refine ⟨[⟨(action.lane, record.path), record.kind⟩], ?_, ?_⟩
    · rw [chainThrough, isSpec]
      simp [checkpointSpecIsIncremental, isFull]
    · intro fs
      obtain ⟨after, isRestored, restoredAs⟩ :=
        restore_full (linksLeft_of_mem known) full facts.current
          facts.entries fs
      refine ⟨after, ?_, restoredAs⟩
      rw [restoreCheckpointSpecs, restoreIt, isRestored]
      rfl
  · obtain ⟨restored, other, isLast, isOther, covered⟩ :=
      covers isIncremental
    rw [isBaseline] at isOther
    cases isOther
    obtain ⟨specs, rfl, restoresSpecs⟩ := restores restored isLast
    refine ⟨specs ++ [⟨(action.lane, record.path), record.kind⟩], ?_, ?_⟩
    · rw [chainThrough, isSpec]
      simp [checkpointSpecIsIncremental, isIncremental]
    · intro fs
      obtain ⟨middle, isMiddle, restoredAs⟩ := restoresSpecs fs
      obtain ⟨after, isRestored, afterAs⟩ :=
        restore_incremental restoredAs covered (apart.gitKept known)
          (linksLeft_of_mem known) incremental facts.current facts.entries
      exact ⟨after,
        restoreCheckpointSpecs_append isMiddle
          ((restoreIt false middle).trans isRestored),
        afterAs⟩

/-- An action without a manifest. -/
def Unrecorded (action : CapturedAction) : Prop :=
  ∀ record, action.checkpointAfter ≠ .recorded record

theorem Unrecorded.chain
    {action : CapturedAction} (unrecorded : Unrecorded action)
    (chain : Option (List CheckpointSpec)) :
    chainThrough chain action.toAction = chain := by
  rw [chainThrough, checkpointAfterSpec]
  cases after : action.checkpointAfter with
  | recorded record => exact (unrecorded record after).elim
  | notTaken => rfl
  | error message => rfl
  | skipped => rfl

theorem Unrecorded.covers
    {action : CapturedAction} (unrecorded : Unrecorded action)
    {last : Option Tree} {rest : List CapturedAction}
    (covers : ChainCovers last (action :: rest)) :
    ChainCovers last rest := by
  rw [ChainCovers] at covers
  cases after : action.checkpointAfter with
  | recorded record => exact (unrecorded record after).elim
  | notTaken => simpa [after] using covers
  | error message => simpa [after] using covers
  | skipped => simpa [after] using covers

/-- Every recorded action of a list that covers has a right chain. -/
theorem chain_restores
    (captured : List CapturedAction)
    (chain : Option (List CheckpointSpec)) (last : Option Tree)
    (restores :
      ∀ tree, last = some tree → Restores trees files blobs chain tree)
    (covers : ChainCovers last captured)
    (all : AllRecorded files blobs captured)
    (known :
      ∀ action ∈ captured, ∀ record,
        action.checkpointAfter = .recorded record → action.tree ∈ trees)
    (apart : GitLinksApart trees)
    {index : Nat} {action : CapturedAction} {record : CheckpointRecord}
    (found : captured[index]? = some action)
    (recorded : action.checkpointAfter = .recorded record) :
    Restores trees files blobs
      (((captured.take (index + 1)).map CapturedAction.toAction).foldl
        chainThrough chain)
      action.tree := by
  induction captured generalizing chain last index with
  | nil => cases found
  | cons first rest induction =>
      have restKnown :
          ∀ action ∈ rest, ∀ record,
            action.checkpointAfter = .recorded record →
              action.tree ∈ trees :=
        fun other member => known other (List.mem_cons_of_mem first member)
      have restAll : AllRecorded files blobs rest :=
        fun other member => all other (List.mem_cons_of_mem first member)
      rw [List.take_succ_cons, List.map_cons, List.foldl_cons]
      by_cases isRecorded :
          ∃ firstRecord, first.checkpointAfter = .recorded firstRecord
      · obtain ⟨firstRecord, after⟩ := isRecorded
        obtain ⟨manifest, hashCache, facts⟩ :=
          all first List.mem_cons_self firstRecord after
        rw [ChainCovers, after] at covers
        have firstRestores :=
          facts.restores after (known first List.mem_cons_self _ after)
            apart restores covers.1
        cases index with
        | zero =>
            cases found
            exact firstRestores
        | succ index =>
            exact induction _ (some first.tree)
              (fun tree isFirst => by
                cases isFirst
                exact firstRestores)
              covers.2 restAll restKnown found
      · have unrecorded : Unrecorded first :=
          fun other after => isRecorded ⟨other, after⟩
        cases index with
        | zero =>
            cases found
            exact (unrecorded record recorded).elim
        | succ index =>
            rw [unrecorded.chain]
            exact induction chain last restores (unrecorded.covers covers)
              restAll restKnown found

end Restoring

/-! ## What a run of the lanes keeps -/

/-- The invariant of the lanes over some trees. -/
structure LaneRun.Tracked (trees : List Tree) (run : LaneRun) : Prop where
  sessions : ∀ lane, (run.sessions lane).Tracked trees
  intact : run.blobs.Intact
  recorded : AllRecorded run.files run.blobs run.captured

section Running

variable
  {trees : List Tree} {config : HookConfig} {run : LaneRun}
  {laneCall : LaneCall}

theorem LaneRun.start_tracked
    (trees : List Tree) {blobs : BlobStore} (intact : blobs.Intact) :
    (LaneRun.start blobs).Tracked trees where
  sessions _ := Session.start_tracked trees blobs
  intact := intact
  recorded _ member := by cases member

theorem LaneRun.Tracked.session
    (tracked : run.Tracked trees) (lane : String) :
    (run.session lane).Tracked trees where
  cache := (tracked.sessions lane).cache
  fresh := (tracked.sessions lane).fresh
  baseline := (tracked.sessions lane).baseline
  known := (tracked.sessions lane).known

theorem RecordedFacts.persist
    {files next : ManifestFiles} {blobs final : BlobStore}
    {action : CapturedAction} {record : CheckpointRecord}
    {manifest : Manifest} {hashCache : HashCache}
    (facts : RecordedFacts files blobs action record manifest hashCache)
    (same :
      next (action.lane, record.path) = files (action.lane, record.path))
    (grows : ∀ digest, (blobs digest).isSome → (final digest).isSome)
    (finalIntact : final.Intact) :
    RecordedFacts next final action record manifest hashCache :=
  { facts with
    present := same.trans facts.present
    entries := facts.entries.grow grows finalIntact }

theorem LaneRun.files_step
    (config : HookConfig) (run : LaneRun) (laneCall : LaneCall)
    (lane name : String) :
    (run.step config laneCall).files (lane, name) =
      if lane = laneCall.lane then
        ((run.session laneCall.lane).step config
          laneCall.call).hook.manifestFiles name
      else run.files (lane, name) := by
  simp only [LaneRun.files, LaneRun.step]
  by_cases same : lane = laneCall.lane
  · subst same
    simp
  · simp [same]

theorem LaneRun.Tracked.step
    (tracked : run.Tracked trees)
    (known : laneCall.call.tree ∈ trees)
    (fingerprinted : Fingerprinted trees)
    (kept :
      Attempts (run.session laneCall.lane) laneCall.call →
        ∀ old ∈ run.captured, old.lane = laneCall.lane →
          ∀ record, old.checkpointAfter = .recorded record →
            record.path ≠ manifestName config laneCall.call.toolCallId) :
    (run.step config laneCall).Tracked trees := by
  have sessionTracked := tracked.session laneCall.lane
  have current :
      CacheCurrent (run.session laneCall.lane).hook.checkpointHashCache
        laneCall.call.tree :=
    sessionTracked.cache.current known fingerprinted
  have sessionsOf :
      ((run.session laneCall.lane).step config laneCall.call).Tracked
          trees →
        ∀ lane,
          ((run.step config laneCall).sessions lane).Tracked trees := by
    intro next lane
    by_cases same : lane = laneCall.lane
    · subst same
      simpa [LaneRun.step] using next
    · simpa [LaneRun.step, same] using tracked.sessions lane
  have oldOf :
      ∀ final : BlobStore, final.Intact →
        (∀ digest, (run.blobs digest).isSome → (final digest).isSome) →
        (∀ old ∈ run.captured, old.lane = laneCall.lane →
          ∀ record, old.checkpointAfter = .recorded record →
            ((run.session laneCall.lane).step config
              laneCall.call).hook.manifestFiles record.path =
              (run.session laneCall.lane).hook.manifestFiles
                record.path) →
        AllRecorded (run.step config laneCall).files final
          run.captured := by
    intro final intact grows same action member record recorded
    obtain ⟨manifest, hashCache, facts⟩ :=
      tracked.recorded action member record recorded
    refine ⟨manifest, hashCache, facts.persist ?_ grows intact⟩
    rw [LaneRun.files_step]
    split
    · next isLane =>
        rw [same action member isLane record recorded, isLane]
        rfl
    · rfl
  rcases Session.step_cases config (run.session laneCall.lane)
      laneCall.call with
    ⟨after, hook, result, stepped, isQuiet⟩ |
    ⟨record, hook, snapshot, manifest, state, result, stepped, recording⟩
  · obtain ⟨intact, grows⟩ := isQuiet.blobs tracked.intact current
    have blobsAre : (run.step config laneCall).blobs = hook.blobs := by
      simp only [LaneRun.step, stepped]
    refine ⟨sessionsOf ?_, blobsAre ▸ intact, ?_⟩
    · rw [stepped]
      exact sessionTracked.quiet known fingerprinted isQuiet
    · rw [blobsAre]
      intro action member other recorded
      rcases List.mem_append.mp member with old | new
      · refine oldOf hook.blobs intact grows ?_ action old other recorded
        intro oldAction oldMember isLane oldRecord oldRecorded
        rw [stepped]
        rcases isQuiet.files with same | ⟨writes, removed⟩
        · exact congrFun same oldRecord.path
        · dsimp only at removed ⊢
          rw [removed, Function.update_of_ne
            (kept (sessionTracked.attempts writes) oldAction oldMember
              isLane oldRecord oldRecorded)]
      · rw [List.mem_singleton.mp new] at recorded
        dsimp only at recorded
        rw [result] at recorded
        exact (isQuiet.notRecorded other recorded).elim
  · obtain ⟨intact, grows⟩ :=
      blobsGrow_of_written (writeCasManifest_eq_ok recording.written).1
        tracked.intact current
    rw [← recording.blobs] at intact grows
    have blobsAre : (run.step config laneCall).blobs = hook.blobs := by
      simp only [LaneRun.step, stepped]
    refine ⟨sessionsOf ?_, blobsAre ▸ intact, ?_⟩
    · rw [stepped]
      exact sessionTracked.recorded known fingerprinted recording
    · rw [blobsAre]
      intro action member other recorded
      rcases List.mem_append.mp member with old | new
      · refine oldOf hook.blobs intact grows ?_ action old other recorded
        intro oldAction oldMember isLane oldRecord oldRecorded
        rw [stepped]
        dsimp only
        rw [recording.files, Function.update_of_ne
          (kept (sessionTracked.attempts recording.writes) oldAction
            oldMember isLane oldRecord oldRecorded)]
      · rw [List.mem_singleton.mp new] at recorded ⊢
        dsimp only at recorded
        rw [result] at recorded
        cases recorded
        refine ⟨manifest,
          (run.session laneCall.lane).hook.checkpointHashCache, ?_, current,
          ?_, ?_⟩
        · rw [LaneRun.files_step, if_pos rfl, stepped]
          dsimp only
          rw [recording.files, recording.path, Function.update_self]
        · have stored :=
            writeCasEntries_storeInvariant
              (writeCasManifest_eq_ok recording.written).1 tracked.intact
              current
          exact stored.entriesOf recording.written
            (fun _ old => recording.blobs ▸ old) intact
        · rcases sessionTracked.manifest_cases recording with
            full | ⟨notFull, _, previous, isPrevious, incremental⟩
          · exact Or.inl full
          · refine Or.inr ⟨?_, previous, isPrevious, incremental⟩
            cases kind : record.kind with
            | casManifestFull => exact (notFull kind).elim
            | casManifestIncremental => rfl

theorem LaneRun.run_tracked
    (tracked : run.Tracked trees) (calls : List LaneCall)
    (known : ∀ laneCall ∈ calls, laneCall.call.tree ∈ trees)
    (fingerprinted : Fingerprinted trees)
    (kept : ManifestsKept config run calls) :
    (run.run config calls).Tracked trees := by
  induction calls generalizing run with
  | nil => exact tracked
  | cons laneCall rest induction =>
      exact induction
        (tracked.step (known laneCall List.mem_cons_self) fingerprinted
          kept.1)
        (fun other member =>
          known other (List.mem_cons_of_mem laneCall member))
        kept.2

end Running

/-- The trees that a run has recorded. -/
def LaneRun.recordedTrees (run : LaneRun) : List Tree :=
  run.captured.filterMap fun action =>
    match action.checkpointAfter with
    | .recorded _ => some action.tree
    | _ => none

theorem LaneRun.mem_recordedTrees
    {run : LaneRun} {action : CapturedAction} {record : CheckpointRecord}
    (member : action ∈ run.captured)
    (recorded : action.checkpointAfter = .recorded record) :
    action.tree ∈ run.recordedTrees :=
  List.mem_filterMap.mpr ⟨action, member, by rw [recorded]⟩

/-- The chain of an action restores the entries of the action's tree. -/
def LaneRun.RestoresAction
    (run : LaneRun) (index : Nat) (action : CapturedAction)
    (fs : Fs FileData) : Prop :=
  ∃ specs after,
    checkpointChainSpecsForAction (run.sorted.map CapturedAction.toAction)
        index = some specs ∧
      restoreCheckpointSpecs run.files run.blobs specs fs = .ok after ∧
      ∀ path,
        entriesBelow after restoreRoot path = action.tree.entries path

/-- An entry that the chain of an action restores. -/
def LaneRun.restoredAt
    (run : LaneRun) (index : Nat) (fs : Fs FileData) (path : RelPath) :
    Option (Option CasManifestValue) :=
  match checkpointChainSpecsForAction
      (run.sorted.map CapturedAction.toAction) index with
  | none => none
  | some specs =>
      match restoreCheckpointSpecs run.files run.blobs specs fs with
      | .error _ => none
      | .ok after => some (entriesBelow after restoreRoot path)

theorem LaneRun.RestoresAction.restoredAt
    {run : LaneRun} {index : Nat} {action : CapturedAction}
    {fs : Fs FileData} (restores : run.RestoresAction index action fs)
    (path : RelPath) :
    run.restoredAt index fs path = some (action.tree.entries path) := by
  obtain ⟨specs, after, isChain, isRestored, equal⟩ := restores
  rw [LaneRun.restoredAt, isChain]
  dsimp only
  rw [isRestored]
  dsimp only
  rw [equal]

/-- An `exec` call of a lane at a time. -/
def laneExec
    (lane toolCallId : String) (time : Int) (tree : Tree) : LaneCall where
  lane := lane
  key := ⟨time, time, 0, toolCallId⟩
  call := execCall toolCallId 10 tree

/-- The script and the output, with a temporary file beside them. -/
def scratchTree : Tree :=
  Tree.ofObjects
    [(["run.sh"], .file ⟨"d1", 0o100644⟩, ⟨5, 1⟩),
      (["out.txt"], .file ⟨"e1", 0o100644⟩, ⟨5, 1⟩),
      (["tmp.txt"], .file ⟨"f1", 0o100644⟩, ⟨5, 1⟩)]
    (fun _ => false) (by decide)

/-- The parent and a subagent see one tree; then the parent changes it. -/
def sharedCalls : List LaneCall :=
  [laneExec "task" "call_1" 1 scriptTree,
    laneExec "task/sub" "call_1" 2 scriptTree,
    laneExec "task" "call_2" 3 outputTree]

/-- The subagent records a temporary file that is gone at the next call. -/
def scratchCalls : List LaneCall :=
  [laneExec "task" "call_1" 1 scriptTree,
    laneExec "task/sub" "call_1" 2 scratchTree,
    laneExec "task" "call_2" 3 outputTree]

theorem gitLinksApart_of_paths
    {trees : List Tree}
    (outside : ∀ tree ∈ trees, ∀ path ∈ tree.paths, ".git" ∉ path) :
    GitLinksApart trees := by
  intro previous _ tree known front _ target data _ isFile
  exact outside tree known (front ++ [".git"])
    ((tree.mem_paths _).mpr (by simp [isFile])) (by simp)

theorem sharedTrees_fingerprinted :
    Fingerprinted (sharedCalls.map (·.call.tree)) := by
  intro previous previousKnown tree known
  simp only [sharedCalls, laneExec, execCall, List.map_cons, List.map_nil,
    List.mem_cons, List.not_mem_nil, or_false] at previousKnown known
  rcases previousKnown with rfl | rfl | rfl <;>
    rcases known with rfl | rfl | rfl <;>
    exact contentsSeen_of_paths (by decide)

/-- Has no recorded action of the lane this file name? -/
def nameUnused
    (captured : List CapturedAction) (lane name : String) : Bool :=
  captured.all fun old =>
    old.lane ≠ lane ||
      match old.checkpointAfter with
      | .recorded record => record.path ≠ name
      | _ => true

theorem ne_of_nameUnused
    {captured : List CapturedAction} {lane name : String}
    (unused : nameUnused captured lane name = true) :
    ∀ old ∈ captured, old.lane = lane →
      ∀ record, old.checkpointAfter = .recorded record →
        record.path ≠ name := by
  intro old member isLane record recorded
  simpa [isLane, recorded] using List.all_eq_true.mp unused old member

end AgentSchedBench.Checkpoint
