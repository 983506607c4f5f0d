import AgentSchedBench.Checkpoint.Restore
import AgentSchedBench.Library.Outcomes
import AgentSchedBench.Library.Frames
import Mathlib

/-!
# The restore script on any manifest

`restoreScript` is the script of `_restore_cas_manifest_in_container` for any
restore root and any JSON document, with the calls that the kernel or Python
refuse.  The manifests the collector writes are the special case that
`restoreCasManifest` treats.
-/

namespace AgentSchedBench.Checkpoint

open FileSystem Outcomes

/-! ## Documents and results -/

/--
A value of the `entries` object.  A missing or non-string `hash` or `target`
is `none`; a `mode` may be absent, refused by `os.chmod`, or a number; a
`mtime_ns` is one that `os.utime` takes as an argument, or not.
-/
inductive ScriptEntry where
  | file (hash : Option String) (mode : Option (Option Nat))
      (mtimeTaken : Bool)
  | symlink (target : Option Path)
  | unknownType
  | notDict
deriving DecidableEq, Repr

/--
What `json.load` makes of the manifest.  The fields have their defaults
filled in; `none` is a value of another type, and in the list a value that is
not a string.
-/
inductive ScriptDocument where
  | unreadable
  | object (entries : Option (List (RelPath × ScriptEntry)))
      (deleted : Option (List (Option RelPath)))
deriving DecidableEq, Repr

inductive ScriptError where
  | restore (failure : RestoreError)
  | unreadableManifest
  | entriesMissing
  | invalidDeletedPaths
  | unsafeValue
  | invalidValue (relpath : RelPath)
  | osError (path : Path)
deriving DecidableEq, Repr

abbrev ScriptResult :=
  Except (ScriptError × Fs FileData) (Fs FileData)

/--
The container around the script: the digest of what a blob path holds, the
objects it refuses to create (a name too long, a NUL byte, a full disk), and
the mode of a new file.
-/
structure ScriptHost where
  blobs : String → Option Digest
  refuses : Path → Object FileData → Bool
  newFileMode : Nat

/-! ## System calls -/

/-- `os.mkdir`, `os.symlink` or the opening of a file for writing. -/
def createAt
    (host : ScriptHost) (fs : Fs FileData) (path : Path)
    (object : Object FileData) : ScriptResult :=
  match fs.locate path with
  | none => .error (.osError path, fs)
  | some place =>
      if host.refuses path object = false ∧ fs.assignable place = true then
        .ok (fs.assign place object)
      else .error (.osError path, fs)

/--
`shutil.rmtree` or `os.unlink` of an existing path.  A tree is emptied first;
its own directory is removed by the path, which may have led through it.
-/
def removeTree (fs : Fs FileData) (path : Path) : ScriptResult :=
  match fs.locate path with
  | none => .ok fs
  | some place =>
      match fs.get place with
      | none => .ok fs
      | some .dir =>
          if (fs.clear place []).locate path = some place then
            .ok ((fs.clear place []).remove place)
          else .error (.osError path, fs.clear place [])
      | some _ => .ok (fs.remove place)

/-- `os.makedirs(..., exist_ok=True)`, for the parts below `current`. -/
def makeDirs
    (host : ScriptHost) (fs : Fs FileData) (current : Path) :
    Path → ScriptResult
  | [] => .ok fs
  | part :: parts =>
      if (fs.resolveDir (current ++ [part])).isSome then
        makeDirs host fs (current ++ [part]) parts
      else if fs.lstat (current ++ [part]) = none then do
        let fs ← createAt host fs (current ++ [part]) .dir
        makeDirs host fs (current ++ [part]) parts
      else .error (.osError (current ++ [part]), fs)

/-- The first statements: the root becomes a directory. -/
def scriptRoot
    (host : ScriptHost) (root : Path) (fs : Fs FileData) : ScriptResult :=
  match fs.lstat root with
  | some .dir => .ok fs
  | some _ => makeDirs host (fs.removeAt root) [] root
  | none => makeDirs host fs [] root

/-! ## Reading the manifest -/

/-- `safe_target`; below `/` itself no path is accepted. -/
def scriptTarget (root : Path) (relpath : RelPath) :
    Except ScriptError RelPath :=
  if root = [] then .error (.restore (.unsafePath relpath))
  else
    match safeTarget relpath with
    | .ok target => .ok target
    | .error failure => .error (.restore failure)

/-- The check of one path of the manifest. -/
def scriptCheckPath (root : Path) : Option RelPath → Except ScriptError Unit
  | none => .error .unsafeValue
  | some relpath => do
      let _ ← scriptTarget root relpath
      return ()

/-- Loading the manifest, the checks of its fields and of all its paths. -/
def scriptManifest (root : Path) :
    ScriptDocument →
      Except ScriptError (List (RelPath × ScriptEntry) × List RelPath)
  | .unreadable => .error .unreadableManifest
  | .object none _ => .error .entriesMissing
  | .object (some _) none => .error .invalidDeletedPaths
  | .object (some entries) (some deleted) => do
      forM (entries.map (some ·.1) ++ deleted) (scriptCheckPath root)
      return (entries, deleted.reduceOption)

/-! ## Removals -/

/-- The body of the loop over `deleted_paths`. -/
def scriptDeletedPath (root : Path) (fs : Fs FileData) (relpath : RelPath) :
    ScriptResult :=
  if isPreservedRelpath relpath then .ok fs
  else
    match scriptTarget root relpath with
    | .error failure => .error (failure, fs)
    | .ok target => removeTree fs (root ++ target)

/-- Clearing the root, or deleting the deleted paths deepest first. -/
def scriptRemovals
    (root : Path) (clearRoot : Bool) (deleted : List RelPath)
    (fs : Fs FileData) : ScriptResult :=
  if clearRoot then .ok (fs.clear root checkpointSkipDirs)
  else (deepestFirst deleted).foldlM (scriptDeletedPath root) fs

/-! ## Writes -/

/-- The loop of `ensure_parent_dir` over the parts below `current`. -/
def scriptParentDirs
    (host : ScriptHost) (fs : Fs FileData) (current : Path) :
    Path → ScriptResult
  | [] => .ok fs
  | part :: parts =>
      match fs.lstat (current ++ [part]) with
      | some .dir => scriptParentDirs host fs (current ++ [part]) parts
      | some _ =>
          .error (.restore (.unsafeParentPath (current ++ [part])), fs)
      | none => do
          let fs ← createAt host fs (current ++ [part]) .dir
          scriptParentDirs host fs (current ++ [part]) parts

/-- The loop that sorts the entries into files and links. -/
def scriptCheckEntry (fs : Fs FileData) (item : RelPath × ScriptEntry) :
    ScriptResult :=
  if isPreservedRelpath item.1 then .ok fs
  else
    match item.2 with
    | .notDict => .error (.restore (.invalidEntry item.1), fs)
    | .unknownType => .error (.restore (.unsupportedEntryType item.1), fs)
    | _ => .ok fs

/-- Is the item one of `file_entries`? -/
def isScriptFile (item : RelPath × ScriptEntry) : Bool :=
  !isPreservedRelpath item.1 &&
    match item.2 with
    | .file .. => true
    | _ => false

/-- Is the item one of `symlink_entries`? -/
def isScriptSymlink (item : RelPath × ScriptEntry) : Bool :=
  !isPreservedRelpath item.1 &&
    match item.2 with
    | .symlink _ => true
    | _ => false

/-- The checks on an existing target of a file. -/
def scriptFileTarget
    (fs : Fs FileData) (relpath : RelPath) (path : Path) : ScriptResult :=
  match fs.lstat path with
  | some (.symlink _) => .error (.restore (.targetSymlink relpath), fs)
  | some .special => .error (.restore (.specialTarget relpath), fs)
  | some .dir => removeTree fs path
  | _ => .ok fs

/-- `os.chmod` of a regular file. -/
def chmodAt (fs : Fs FileData) (path : Path) (mode : Nat) : Fs FileData :=
  match fs.lstat path with
  | some (.file data) => fs.assignAt path (.file { data with mode := mode })
  | _ => fs

/-- Writing the content, the mode and the modification time. -/
def scriptWriteFile
    (host : ScriptHost) (relpath : RelPath) (path : Path) (digest : Digest)
    (mode : Option (Option Nat)) (mtimeTaken : Bool) (fs : Fs FileData) :
    ScriptResult := do
  let oldMode :=
    match fs.lstat path with
    | some (.file data) => data.mode
    | _ => host.newFileMode
  let fs ← createAt host fs path (.file ⟨digest, oldMode⟩)
  match mode.getD (some 0o644) with
  | none => .error (.invalidValue relpath, fs)
  | some mode =>
      let fs := chmodAt fs path mode
      if mtimeTaken then .ok fs else .error (.invalidValue relpath, fs)

/-- The body of the loop over `file_entries`. -/
def scriptFileEntry
    (host : ScriptHost) (root : Path) (fs : Fs FileData)
    (item : RelPath × ScriptEntry) : ScriptResult :=
  match item.2 with
  | .file (some hash) mode mtimeTaken =>
      match host.blobs hash with
      | none => .error (.restore (.blobMissing item.1), fs)
      | some actual =>
          if actual ≠ hash then
            .error (.restore (.digestMismatch item.1), fs)
          else
            match scriptTarget root item.1 with
            | .error failure => .error (failure, fs)
            | .ok target => do
                let fs ← scriptParentDirs host fs root target.dropLast
                let fs ← scriptFileTarget fs item.1 (root ++ target)
                scriptWriteFile host item.1 (root ++ target) actual mode
                  mtimeTaken fs
  | _ => .error (.restore (.missingHash item.1), fs)

/-- The body of the loop over `symlink_entries`. -/
def scriptSymlinkEntry
    (host : ScriptHost) (root : Path) (fs : Fs FileData)
    (item : RelPath × ScriptEntry) : ScriptResult :=
  match item.2 with
  | .symlink (some linkTarget) =>
      if linkTarget = [""] then
        .error (.restore (.unsafeSymlinkTarget item.1), fs)
      else
        match scriptTarget root item.1 with
        | .error failure => .error (failure, fs)
        | .ok target => do
            let fs ← scriptParentDirs host fs root target.dropLast
            let fs ← removeTree fs (root ++ target)
            createAt host fs (root ++ target) (.symlink linkTarget)
  | _ => .error (.restore (.unsafeSymlinkTarget item.1), fs)

/-- Writing the files, then the links. -/
def scriptWrites
    (host : ScriptHost) (root : Path)
    (entries : List (RelPath × ScriptEntry)) (fs : Fs FileData) :
    ScriptResult := do
  let fs ← (entries.filter isScriptFile).foldlM (scriptFileEntry host root) fs
  (entries.filter isScriptSymlink).foldlM (scriptSymlinkEntry host root) fs

/-! ## The script -/

/-- The statements that change the tree. -/
def scriptApply
    (host : ScriptHost) (root : Path) (clearRoot : Bool)
    (entries : List (RelPath × ScriptEntry)) (deleted : List RelPath)
    (fs : Fs FileData) : ScriptResult := do
  let fs ← scriptRemovals root clearRoot deleted fs
  let fs ← entries.foldlM scriptCheckEntry fs
  let fs ← scriptWrites host root entries fs
  if (fs.resolveDir root).isSome then .ok fs
  else .error (.restore .rootMissing, fs)

/-- The script up to the removal of its own manifest file. -/
def scriptBody
    (host : ScriptHost) (root : Path) (clearRoot : Bool)
    (document : ScriptDocument) (fs : Fs FileData) : ScriptResult := do
  let fs ← scriptRoot host root fs
  if fs.resolveDir root ≠ some root then
    .error (.restore .symlinkRoot, fs)
  else
    match scriptManifest root document with
    | .error failure => .error (failure, fs)
    | .ok (entries, deleted) =>
        scriptApply host root clearRoot entries deleted fs

/-- The last statement: the manifest file is removed. -/
def unlinkManifest (manifestPath : Path) (fs : Fs FileData) : ScriptResult :=
  match fs.lstat manifestPath with
  | none => .ok fs
  | some .dir => .error (.osError manifestPath, fs)
  | some _ => .ok (fs.removeAt manifestPath)

/-- The script of `_restore_cas_manifest_in_container`. -/
def restoreScript
    (host : ScriptHost) (root : Path) (clearRoot : Bool)
    (document : ScriptDocument) (manifestPath : Path) (fs : Fs FileData) :
    ScriptResult := do
  let fs ← scriptBody host root clearRoot document fs
  unlinkManifest manifestPath fs

/-! ## Safe paths -/

/-- Absolute, empty, with a `..`, or equal to the root. -/
def UnsafePath (relpath : RelPath) : Prop :=
  Fs.isAbsolute relpath = true ∨ relpath = [""] ∨ ".." ∈ relpath ∨
    ∀ name ∈ relpath, name = "" ∨ name = "."

instance (relpath : RelPath) : Decidable (UnsafePath relpath) :=
  inferInstanceAs (Decidable
    (Fs.isAbsolute relpath = true ∨ relpath = [""] ∨ ".." ∈ relpath ∨
      ∀ name ∈ relpath, name = "" ∨ name = "."))

theorem safeTarget_eq_ok
    {relpath target : RelPath} (safe : safeTarget relpath = .ok target) :
    ¬ UnsafePath relpath ∧ target ≠ [] ∧ ValidPath target := by
  rw [safeTarget] at safe
  split at safe
  · cases safe
  · next notEmpty =>
      split at safe
      · cases safe
      · next relative =>
          rw [not_or] at relative
          dsimp only at safe
          split at safe
          · cases safe
          · next nonempty =>
              cases safe
              have kept :
                  ∃ name ∈ relpath, name ≠ "" ∧ name ≠ "." := by
                rcases List.exists_mem_of_ne_nil _ nonempty with
                  ⟨name, member⟩
                rw [List.mem_filter, decide_eq_true_eq] at member
                exact ⟨name, member⟩
              constructor
              · rintro (absolute | empty | parent | trivial)
                · exact relative.1 absolute
                · exact notEmpty empty
                · exact relative.2 parent
                · rcases kept with ⟨name, member, named, plain⟩
                  rcases trivial name member with empty | dot
                  · exact named empty
                  · exact plain dot
              · constructor
                · exact nonempty
                · intro name member
                  rw [List.mem_filter, decide_eq_true_eq] at member
                  refine ⟨member.2.1, member.2.2, ?_⟩
                  rintro rfl
                  exact relative.2 member.1

theorem safeTarget_of_not_unsafe
    {relpath : RelPath} (safe : ¬ UnsafePath relpath) :
    ∃ target, safeTarget relpath = .ok target := by
  rw [UnsafePath, not_or, not_or, not_or] at safe
  rcases safe with ⟨relative, notEmpty, noParent, proper⟩
  rw [safeTarget, if_neg notEmpty, if_neg (not_or.mpr ⟨relative, noParent⟩)]
  push Not at proper
  rcases proper with ⟨name, member, named, plain⟩
  have kept :
      name ∈ relpath.filter fun name => name ≠ "" ∧ name ≠ "." := by
    rw [List.mem_filter, decide_eq_true_eq]
    exact ⟨member, named, plain⟩
  refine ⟨_, if_neg ?_⟩
  intro empty
  rw [empty] at kept
  cases kept

theorem scriptTarget_eq_ok
    {root : Path} {relpath target : RelPath}
    (safe : scriptTarget root relpath = .ok target) :
    root ≠ [] ∧ ¬ UnsafePath relpath ∧ target ≠ [] ∧ ValidPath target := by
  rw [scriptTarget] at safe
  split at safe
  · cases safe
  · next nonempty =>
      refine ⟨nonempty, ?_⟩
      cases computed : safeTarget relpath with
      | error failure =>
          rw [computed] at safe
          cases safe
      | ok found =>
          rw [computed] at safe
          cases safe
          exact safeTarget_eq_ok computed

theorem scriptTarget_of_safe
    {root : Path} {relpath : RelPath} (nonempty : root ≠ [])
    (safe : ¬ UnsafePath relpath) :
    ∃ target, scriptTarget root relpath = .ok target := by
  rcases safeTarget_of_not_unsafe safe with ⟨target, found⟩
  refine ⟨target, ?_⟩
  rw [scriptTarget, if_neg nonempty, found]

theorem scriptCheckPath_ok_iff (root : Path) (path : Option RelPath) :
    scriptCheckPath root path = .ok () ↔
      ∃ relpath, path = some relpath ∧ root ≠ [] ∧ ¬ UnsafePath relpath := by
  rcases path with _ | relpath
  · simp [scriptCheckPath]
  · rw [scriptCheckPath]
    constructor
    · intro passed
      rcases Loops.bind_eq_ok.mp passed with ⟨target, safe, _⟩
      have facts := scriptTarget_eq_ok safe
      exact ⟨relpath, rfl, facts.1, facts.2.1⟩
    · rintro ⟨relpath, same, nonempty, safe⟩
      cases same
      rcases scriptTarget_of_safe nonempty safe with ⟨target, found⟩
      rw [found]
      rfl

/-- Every path of the manifest is a string and safe below the root. -/
def SafePaths
    (root : Path) (entries : List (RelPath × ScriptEntry))
    (deleted : List (Option RelPath)) : Prop :=
  ∀ path ∈ entries.map (some ·.1) ++ deleted,
    ∃ relpath, path = some relpath ∧ root ≠ [] ∧ ¬ UnsafePath relpath

/-- The manifest is read when both fields fit and every path is safe. -/
theorem scriptManifest_of_safe
    {root : Path} {entries : List (RelPath × ScriptEntry)}
    {deleted : List (Option RelPath)} (safe : SafePaths root entries deleted) :
    scriptManifest root (.object (some entries) (some deleted)) =
      .ok (entries, deleted.reduceOption) := by
  have checked :
      forM (entries.map (some ·.1) ++ deleted) (scriptCheckPath root) =
        .ok () := by
    apply (Loops.forM_eq_ok _ _).mpr
    intro path member
    exact (scriptCheckPath_ok_iff root path).mpr (safe path member)
  rw [scriptManifest, checked]
  rfl

theorem scriptManifest_eq_ok
    {root : Path} {document : ScriptDocument}
    {entries : List (RelPath × ScriptEntry)} {paths : List RelPath}
    (read : scriptManifest root document = .ok (entries, paths)) :
    ∃ deleted, document = .object (some entries) (some deleted) ∧
      paths = deleted.reduceOption ∧ SafePaths root entries deleted := by
  rcases document with _ | ⟨_ | found, _ | deleted⟩
  · cases read
  · cases read
  · cases read
  · cases read
  · rw [scriptManifest] at read
    rcases Loops.bind_eq_ok.mp read with ⟨passed, checked, read⟩
    cases read
    refine ⟨deleted, rfl, rfl, ?_⟩
    intro path member
    apply (scriptCheckPath_ok_iff root path).mp
    exact (Loops.forM_eq_ok _ _).mp checked path member

end AgentSchedBench.Checkpoint
