import AgentSchedBench.Checkpoint.Containment
import Mathlib.Data.List.ReduceOption

/-!
# Rejected manifests

The script checks the paths of a manifest before it changes anything, but the
types of the entries after the removals, and hashes, blobs and link targets
only as it comes to them.  A manifest rejected for one of those leaves the
root cleared and partly written, and in a chain the earlier manifests stay
restored.

`content_failure_keeps` says when a failure for the content of a manifest or
of the store leaves the tree as it was: the first manifest is turned down at
its head, or each one the chain comes to is sound throughout, and then such a
failure does not happen at all.
-/

namespace AgentSchedBench.Checkpoint

open FileSystem Outcomes

/-! ## Restoring a chain -/

/--
A checkpoint as the host finds it: of an unknown kind, missing or without an
`entries` object, or a manifest it gives to the script.
-/
inductive CheckpointFile where
  | refused
  | manifest (document : ScriptDocument)
deriving DecidableEq, Repr

inductive ChainError where
  | refused
  | script (failure : ScriptError)
deriving DecidableEq, Repr

abbrev ChainResult :=
  Except (ChainError × Fs FileData) (Fs FileData)

/-- `_restore_checkpoint_to_container`. -/
def restoreCheckpointFile
    (host : ScriptHost) (fs : Fs FileData) (step : Bool × CheckpointFile) :
    ChainResult :=
  match step.2 with
  | .refused => .error (.refused, fs)
  | .manifest document =>
      (scriptBody host restoreRoot step.1 document fs).mapError
        fun failure => (.script failure.1, failure.2)

/-- The restores of a chain: only the first one clears. -/
def chainSteps : List CheckpointFile → List (Bool × CheckpointFile)
  | [] => []
  | first :: rest => (true, first) :: rest.map fun file => (false, file)

/-- `_restore_checkpoint_chain_to_container`. -/
def restoreChain
    (host : ScriptHost) (chain : List CheckpointFile) (fs : Fs FileData) :
    ChainResult :=
  if chain = [] then .error (.refused, fs)
  else (chainSteps chain).foldlM (restoreCheckpointFile host) fs

/-- Is the failure about a manifest or the store, not about the tree? -/
def ScriptError.ofContent : ScriptError → Bool
  | .restore (.unsafePath _) => true
  | .restore (.unsafeSymlinkTarget _) => true
  | .restore (.invalidEntry _) => true
  | .restore (.unsupportedEntryType _) => true
  | .restore (.missingHash _) => true
  | .restore (.blobMissing _) => true
  | .restore (.digestMismatch _) => true
  | .restore _ => false
  | .osError _ => false
  | _ => true

def ChainError.ofContent : ChainError → Bool
  | .refused => true
  | .script failure => failure.ofContent

/-- A failure for the content leaves the tree as it was. -/
def KeptOnContentFailure
    (host : ScriptHost) (chain : List CheckpointFile) (fs : Fs FileData) :
    Prop :=
  ∀ failure after, restoreChain host chain fs = .error (failure, after) →
    failure.ofContent = true → after = fs

/-! ## Sound manifests -/

/-- An entry whose type, fields and blob are as the script wants them. -/
def SoundEntry (host : ScriptHost) : ScriptEntry → Prop
  | .file (some hash) mode mtimeTaken =>
      host.blobs hash = some hash ∧ mode ≠ some none ∧ mtimeTaken = true
  | .symlink (some target) => target ≠ [""]
  | _ => False

/-- The script gets past the head of the manifest. -/
def PassesHead (file : CheckpointFile) : Prop :=
  ∃ entries deleted,
    file = .manifest (.object (some entries) (some deleted)) ∧
      SafePaths restoreRoot entries deleted

/-- The whole manifest is accepted. -/
def SoundFile (host : ScriptHost) (file : CheckpointFile) : Prop :=
  ∃ entries deleted,
    file = .manifest (.object (some entries) (some deleted)) ∧
      SafePaths restoreRoot entries deleted ∧
        ∀ item ∈ entries, isPreservedRelpath item.1 = false →
          SoundEntry host item.2

section Sound

variable (host : ScriptHost) {fs : Fs FileData}

/-- The kind of failure a sound manifest can meet. -/
def OfTree (failure : ScriptError) : Prop :=
  failure.ofContent = false

theorem createAt_fails (path : Path) (object : Object FileData) :
    Fails OfTree (createAt host fs path object) := by
  rw [createAt]
  split
  · exact rfl
  · split
    · trivial
    · exact rfl

theorem removeTree_fails (path : Path) :
    Fails OfTree (removeTree fs path) := by
  rw [removeTree]
  split
  · trivial
  · split
    · trivial
    · split
      · trivial
      · exact rfl
    · trivial

theorem scriptParentDirs_fails (parts : Path) {current : Path} :
    Fails OfTree (scriptParentDirs host fs current parts) := by
  induction parts generalizing fs current with
  | nil => trivial
  | cons part parts induction =>
      rw [scriptParentDirs]
      split
      · exact induction
      · exact rfl
      · apply (createAt_fails host _ _).bind
        intro state
        exact induction

theorem makeDirs_fails (parts : Path) {current : Path} :
    Fails OfTree (makeDirs host fs current parts) := by
  induction parts generalizing fs current with
  | nil => trivial
  | cons part parts induction =>
      rw [makeDirs]
      split
      · exact induction
      · split
        · apply (createAt_fails host _ _).bind
          intro state
          exact induction
        · exact rfl

theorem scriptRoot_fails (root : Path) :
    Fails OfTree (scriptRoot host root fs) := by
  rw [scriptRoot]
  split
  · trivial
  · exact makeDirs_fails host root
  · exact makeDirs_fails host root

theorem scriptFileTarget_fails (relpath : RelPath) (path : Path) :
    Fails OfTree (scriptFileTarget fs relpath path) := by
  rw [scriptFileTarget]
  split
  · exact rfl
  · exact rfl
  · exact removeTree_fails path
  · trivial

variable {root : Path} {item : RelPath × ScriptEntry}
  (rootNonempty : root ≠ []) (safe : ¬ UnsafePath item.1)
  (sound : SoundEntry host item.2)

include rootNonempty safe sound

theorem scriptFileEntry_fails (isFile : isScriptFile item = true) :
    Fails OfTree (scriptFileEntry host root fs item) := by
  rcases item with ⟨relpath, entry⟩
  rcases entry with ⟨_ | hash, mode, mtimeTaken⟩ | target | _ | _
  · cases sound
  · rcases sound with ⟨stored, modeTaken, timeTaken⟩
    rcases scriptTarget_of_safe rootNonempty safe with ⟨target, found⟩
    rw [scriptFileEntry]
    dsimp only
    rw [stored]
    dsimp only
    rw [if_neg (by simp), found]
    dsimp only
    apply (scriptParentDirs_fails host _).bind
    intro parented
    apply (scriptFileTarget_fails _ _).bind
    intro cleared
    rw [scriptWriteFile]
    apply (createAt_fails host _ _).bind
    intro created
    rcases mode with _ | _ | bits
    · rw [timeTaken]
      trivial
    · exact (modeTaken rfl).elim
    · rw [timeTaken]
      trivial
  · simp [isScriptFile] at isFile
  · simp [isScriptFile] at isFile
  · simp [isScriptFile] at isFile

theorem scriptSymlinkEntry_fails (isLink : isScriptSymlink item = true) :
    Fails OfTree (scriptSymlinkEntry host root fs item) := by
  rcases item with ⟨relpath, entry⟩
  rcases entry with ⟨hash, mode, mtimeTaken⟩ | ⟨_ | linkTarget⟩ | _ | _
  · simp [isScriptSymlink] at isLink
  · cases sound
  · rcases scriptTarget_of_safe rootNonempty safe with ⟨target, found⟩
    rw [scriptSymlinkEntry]
    dsimp only
    rw [if_neg sound, found]
    dsimp only
    apply (scriptParentDirs_fails host _).bind
    intro parented
    apply (removeTree_fails _).bind
    intro removed
    exact createAt_fails host _ _
  · simp [isScriptSymlink] at isLink
  · simp [isScriptSymlink] at isLink

omit rootNonempty safe in
theorem scriptCheckEntry_fails :
    Fails OfTree (scriptCheckEntry fs item) := by
  rcases item with ⟨relpath, entry⟩
  rw [scriptCheckEntry]
  split
  · trivial
  · cases entry with
    | file hash mode mtimeTaken => trivial
    | symlink target => trivial
    | unknownType => cases sound
    | notDict => cases sound

end Sound

/-! ## Restores of sound manifests -/

section Restores

variable (host : ScriptHost) {fs : Fs FileData} {root : Path}
  {entries : List (RelPath × ScriptEntry)} {deleted : List (Option RelPath)}
  (safe : SafePaths root entries deleted)

include safe

theorem SafePaths.entry {item : RelPath × ScriptEntry}
    (member : item ∈ entries) : root ≠ [] ∧ ¬ UnsafePath item.1 := by
  rcases safe (some item.1)
    (List.mem_append_left _ (List.mem_map_of_mem member)) with
    ⟨_, same, facts⟩
  cases same
  exact facts

theorem SafePaths.deletedPath {relpath : RelPath}
    (member : relpath ∈ deleted.reduceOption) :
    root ≠ [] ∧ ¬ UnsafePath relpath := by
  rw [List.reduceOption_mem_iff] at member
  rcases safe (some relpath) (List.mem_append_right _ member) with
    ⟨_, same, facts⟩
  cases same
  exact facts

theorem scriptRemovals_fails (clearRoot : Bool) :
    Fails OfTree
      (scriptRemovals root clearRoot deleted.reduceOption fs) := by
  rw [scriptRemovals]
  split
  · trivial
  · apply fails_foldlM
    intro relpath member state
    have listed : relpath ∈ deleted.reduceOption :=
      (List.perm_insertionSort _ _).mem_iff.mp member
    have facts := safe.deletedPath listed
    rcases scriptTarget_of_safe facts.1 facts.2 with ⟨target, found⟩
    rw [scriptDeletedPath]
    split
    · trivial
    · rw [found]
      exact removeTree_fails _

theorem scriptApply_fails
    (sound :
      ∀ item ∈ entries, isPreservedRelpath item.1 = false →
        SoundEntry host item.2)
    (clearRoot : Bool) :
    Fails OfTree
      (scriptApply host root clearRoot entries deleted.reduceOption fs) := by
  rw [scriptApply]
  apply (scriptRemovals_fails safe clearRoot).bind
  intro removed
  have checks :
      Fails OfTree (entries.foldlM scriptCheckEntry removed) := by
    apply fails_foldlM
    intro item member state
    cases preserved : isPreservedRelpath item.1 with
    | true =>
        rw [scriptCheckEntry, if_pos preserved]
        trivial
    | false =>
        exact scriptCheckEntry_fails host (sound item member preserved)
  apply checks.bind
  intro checked
  have writes : Fails OfTree (scriptWrites host root entries checked) := by
    rw [scriptWrites]
    apply Fails.bind
    · apply fails_foldlM
      intro item member state
      rw [List.mem_filter] at member
      have parts := member.2
      rw [isScriptFile, Bool.and_eq_true, Bool.not_eq_true'] at parts
      have facts := safe.entry member.1
      exact scriptFileEntry_fails host facts.1 facts.2
        (sound item member.1 parts.1) member.2
    · intro filed
      apply fails_foldlM
      intro item member state
      rw [List.mem_filter] at member
      have parts := member.2
      rw [isScriptSymlink, Bool.and_eq_true, Bool.not_eq_true'] at parts
      have facts := safe.entry member.1
      exact scriptSymlinkEntry_fails host facts.1 facts.2
        (sound item member.1 parts.1) member.2
  apply writes.bind
  intro written
  split
  · trivial
  · exact rfl

end Restores

/-- A sound manifest is never rejected for its content. -/
theorem restoreCheckpointFile_fails
    (host : ScriptHost) {fs : Fs FileData} {step : Bool × CheckpointFile}
    (sound : SoundFile host step.2) :
    Fails (fun failure => failure.ofContent = false)
      (restoreCheckpointFile host fs step) := by
  rcases step with ⟨clearRoot, file⟩
  rcases sound with ⟨entries, deleted, same, safe, entriesSound⟩
  dsimp only at same
  rw [restoreCheckpointFile, same]
  have body :
      Fails OfTree
        (scriptBody host restoreRoot clearRoot
          (.object (some entries) (some deleted)) fs) := by
    rw [scriptBody]
    apply (scriptRoot_fails host restoreRoot).bind
    intro prepared
    split
    · exact rfl
    · rw [scriptManifest_of_safe safe]
      exact scriptApply_fails host safe entriesSound clearRoot
  dsimp only
  rcases finished :
    scriptBody host restoreRoot clearRoot
      (.object (some entries) (some deleted)) fs with ⟨failure, state⟩ | state
  · rw [finished] at body
    exact body
  · trivial

/-- A file turned down at its head leaves a tree with a root as it was. -/
theorem restoreCheckpointFile_head
    (host : ScriptHost) {fs : Fs FileData} (step : Bool × CheckpointFile)
    (directory : fs.lstat restoreRoot = some .dir)
    (rejected : ¬ PassesHead step.2) :
    ∃ failure, restoreCheckpointFile host fs step = .error (failure, fs) := by
  rcases step with ⟨clearRoot, file⟩
  rw [restoreCheckpointFile]
  cases file with
  | refused => exact ⟨_, rfl⟩
  | manifest document =>
      dsimp only
      rw [scriptBody_eq host clearRoot document directory]
      split
      · exact ⟨_, rfl⟩
      · cases read : scriptManifest restoreRoot document with
        | error failure => exact ⟨_, rfl⟩
        | ok found =>
            rcases found with ⟨entries, paths⟩
            rcases scriptManifest_eq_ok read with ⟨deleted, same, _, safe⟩
            exact (rejected ⟨entries, deleted, by rw [same], safe⟩).elim

/--
The first manifest is turned down at its head and the root is a directory, or
each manifest that the chain comes to is sound.
-/
def ChainSound
    (host : ScriptHost) (chain : List CheckpointFile) (fs : Fs FileData) :
    Prop :=
  (fs.lstat restoreRoot = some .dir ∧
    ∀ first ∈ chain.head?, ¬ PassesHead first) ∨
  AllSteps (restoreCheckpointFile host)
    (fun _ step => SoundFile host step.2) (chainSteps chain) fs

theorem content_failure_keeps
    (host : ScriptHost) (chain : List CheckpointFile) (fs : Fs FileData)
    (sound : ChainSound host chain fs) :
    KeptOnContentFailure host chain fs := by
  intro failure after failed ofContent
  rw [restoreChain] at failed
  split at failed
  · cases failed
    rfl
  · next nonempty =>
      rcases sound with ⟨directory, rejected⟩ | reached
      · rcases List.exists_cons_of_ne_nil nonempty with ⟨first, rest, rfl⟩
        rcases restoreCheckpointFile_head host (true, first) directory
          (rejected first rfl) with ⟨cause, refused⟩
        rw [chainSteps, List.foldlM_cons, refused] at failed
        cases failed
        rfl
      · have kinds := reached.fails fun step state stepSound =>
          restoreCheckpointFile_fails host stepSound
        rw [failed] at kinds
        change failure.ofContent = false at kinds
        rw [ofContent] at kinds
        cases kinds

/-! ## A missing blob -/

/-- A file below the root. -/
def rootWithFile : Fs FileData :=
  (Fs.empty.assign ["testbed"] .dir).assign ["testbed", "kept"]
    (.file ⟨"kept", 0o644⟩)

/-- A manifest of one deleted path. -/
def climbingManifest : CheckpointFile :=
  .manifest (.object (some []) (some [some ["..", "etc"]]))

/-- A manifest of one file. -/
def bloblessManifest : CheckpointFile :=
  .manifest (.object
    (some [(["a"], .file (some "aa") (some (some 0o644)) true)]) (some []))

/-- An unsafe path is rejected before the root is cleared. -/
theorem content_failure_keeps_unsafe :
    KeptOnContentFailure emptyHost [climbingManifest, bloblessManifest]
      rootWithFile := by
  apply content_failure_keeps
  apply Or.inl
  constructor
  · decide +kernel
  · rintro first isFirst ⟨entries, deleted, same, safe⟩
    cases isFirst
    cases same
    rcases safe (some ["..", "etc"]) (by simp) with ⟨_, found, _, good⟩
    cases found
    exact good (by decide)

/-- A missing blob is noticed after the root has been cleared. -/
theorem not_kept_without_blob :
    ¬ KeptOnContentFailure emptyHost [bloblessManifest]
      rootWithFile := by
  intro kept
  have same := kept (.script (.restore (.blobMissing ["a"])))
    (rootWithFile.clear restoreRoot checkpointSkipDirs) rfl rfl
  have lost :
      (rootWithFile.clear restoreRoot checkpointSkipDirs).get
        ["testbed", "kept"] = none := by decide +kernel
  rw [same] at lost
  revert lost
  decide +kernel

end AgentSchedBench.Checkpoint
