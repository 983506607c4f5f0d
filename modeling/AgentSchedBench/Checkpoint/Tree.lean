import AgentSchedBench.Library.FileSystem
import AgentSchedBench.Library.Dict
import Mathlib.Data.List.Sort

/-!
# Checkpointed trees and their snapshots

The tree below the checkpoint root is a file system together with what the
collector reads of it besides the objects: sizes and modification times, and
for a symbolic link whether it leads to a directory, which decides where
`os.walk` lists it.

A snapshot maps the paths the collector visits to their type, size and
modification time.  Two snapshots are compared by the changed-path and the
deleted-path functions; the sets they give are what an incremental manifest
records.  Contents appear through their SHA-256 digests only.
-/

namespace AgentSchedBench.Checkpoint

open FileSystem

/-- The hexadecimal SHA-256 digest of a file's content. -/
abbrev Digest := String

/-- A path relative to the checkpoint root, split at `/`. -/
abbrev RelPath := Path

/-- What a regular file holds: its content, by digest, and `st_mode`. -/
structure FileData where
  digest : Digest
  mode : Nat
deriving DecidableEq, Repr

/-- The fields of `os.stat_result` that form a fingerprint. -/
structure Stat where
  size : Nat
  mtimeNs : Int
deriving DecidableEq, Repr

/-- The tree below the checkpoint root; the kernel refuses empty links. -/
structure Tree extends Fs FileData where
  stat : RelPath → Stat
  linkToDir : RelPath → Bool
  paths : List RelPath
  mem_paths : ∀ path, path ∈ paths ↔ (get path).isSome
  valid_paths : ∀ path, path ∈ paths → ValidPath path
  valid_links :
    ∀ path target, get path = some (.symlink target) → target ≠ [""]

/-! ## Trees given by their objects -/

/-- What a list of objects below the root gives for a path. -/
def objectAt
    (objects : List (RelPath × Object FileData × Stat)) (path : RelPath) :
    Option (Object FileData) :=
  if path = [] then some .dir
  else (objects.find? (·.1 = path)).map (·.2.1)

/-- The listed objects lie in listed directories and can exist. -/
def ObjectsClosed (objects : List (RelPath × Object FileData × Stat)) :
    Prop :=
  ∀ item ∈ objects, item.1 ≠ [] ∧ ValidPath item.1 ∧
    objectAt objects item.1.dropLast = some .dir ∧
    item.2.1 ≠ .symlink [""]

instance (objects : List (RelPath × Object FileData × Stat)) :
    Decidable (ObjectsClosed objects) :=
  inferInstanceAs (Decidable (∀ item ∈ objects, _))

theorem mem_of_objectAt
    {objects : List (RelPath × Object FileData × Stat)} {path : RelPath}
    {object : Object FileData}
    (nonempty : path ≠ []) (found : objectAt objects path = some object) :
    ∃ item ∈ objects, item.1 = path ∧ item.2.1 = object := by
  rw [objectAt, if_neg nonempty] at found
  obtain ⟨item, isItem, rfl⟩ := Option.map_eq_some_iff.mp found
  exact ⟨item, List.mem_of_find?_eq_some isItem,
    by simpa using List.find?_some isItem, rfl⟩

/-- The tree of the listed objects. -/
def Tree.ofObjects
    (objects : List (RelPath × Object FileData × Stat))
    (linkToDir : RelPath → Bool) (closed : ObjectsClosed objects) :
    Tree where
  get := objectAt objects
  root_dir := rfl
  parent_dir path name present := by
    obtain ⟨object, found⟩ := Option.isSome_iff_exists.mp present
    obtain ⟨item, member, equal, _⟩ := mem_of_objectAt (by simp) found
    have parent := (closed item member).2.2.1
    rw [equal, List.dropLast_concat] at parent
    exact parent
  stat path := ((objects.find? (·.1 = path)).map (·.2.2)).getD ⟨0, 0⟩
  linkToDir := linkToDir
  paths := [] :: objects.map (·.1)
  mem_paths path := by
    rcases eq_or_ne path [] with rfl | nonempty
    · simp [objectAt]
    · rw [objectAt, if_neg nonempty, Option.isSome_map,
        List.find?_isSome]
      simp [nonempty]
  valid_paths path member := by
    rcases List.mem_cons.mp member with rfl | listed
    · intro name inside
      cases inside
    · obtain ⟨item, inside, rfl⟩ := List.mem_map.mp listed
      exact (closed item inside).2.1
  valid_links path target found := by
    rcases eq_or_ne path [] with rfl | nonempty
    · cases found
    · obtain ⟨item, member, _, isLink⟩ := mem_of_objectAt nonempty found
      rintro rfl
      exact (closed item member).2.2.2 isLink

/-! ## Values recorded for a path -/

/-- `stat.S_IMODE`: the permission bits of `st_mode`. -/
def sIMode (mode : Nat) : Nat := mode % 0o10000

@[simp]
theorem sIMode_sIMode (mode : Nat) :
    sIMode (sIMode mode) = sIMode mode :=
  Nat.mod_mod mode 0o10000

/-- A `CasManifestValue`: a file's hash with its mode if known, or a link. -/
inductive CasManifestValue where
  | file (hash : Digest) (mode : Option Nat)
  | symlink (target : Path)
deriving DecidableEq, Repr

/-- The value of a regular file or of a link; directories have none. -/
def objectValue : Object FileData → Option CasManifestValue
  | .file data => some (.file data.digest (some (sIMode data.mode)))
  | .symlink target => some (.symlink target)
  | .dir => none
  | .special => none

/-- The directory names that checkpoints leave out. -/
def checkpointSkipDirs : List String := [".git"]

/-- `_checkpoint_relpath_is_skipped`: some component is a skipped name. -/
def checkpointRelpathIsSkipped (relpath : RelPath) : Bool :=
  relpath.any checkpointSkipDirs.contains

@[simp]
theorem checkpointRelpathIsSkipped_iff (relpath : RelPath) :
    checkpointRelpathIsSkipped relpath = true ↔ ".git" ∈ relpath := by
  simp [checkpointRelpathIsSkipped, checkpointSkipDirs]

/-- The path-to-entry map of a file system's part below `root`. -/
def entriesBelow
    (fs : Fs FileData) (root : Path) (relpath : RelPath) :
    Option CasManifestValue :=
  if checkpointRelpathIsSkipped relpath then none
  else (fs.get (root ++ relpath)).bind objectValue

/-- The regular files and links of a tree outside `.git`. -/
def Tree.entries (tree : Tree) (relpath : RelPath) :
    Option CasManifestValue :=
  entriesBelow tree.toFs [] relpath

theorem Tree.entries_of_not_skipped
    (tree : Tree) {relpath : RelPath} (outside : ".git" ∉ relpath) :
    tree.entries relpath = (tree.get relpath).bind objectValue := by
  have guard : checkpointRelpathIsSkipped relpath = false := by
    rw [← Bool.not_eq_true, checkpointRelpathIsSkipped_iff]
    exact outside
  simp [Tree.entries, entriesBelow, guard]

/-! ## Walking the tree -/

/-- One triple that `os.walk` yields. -/
structure WalkItem where
  dirpath : RelPath
  dirnames : List String
  filenames : List String

/-- The names in a directory. -/
def Tree.children (tree : Tree) (dirpath : RelPath) : List String :=
  tree.paths.filterMap fun path =>
    if path.dropLast = dirpath then path.getLast? else none

/-- `DirEntry.is_dir()`, which follows a symbolic link. -/
def Tree.isDirEntry (tree : Tree) (path : RelPath) : Bool :=
  match tree.get path with
  | some .dir => true
  | some (.symlink _) => tree.linkToDir path
  | _ => false

/-- What `os.walk` lists for one directory, with the skipped names removed. -/
def Tree.walkItem
    (tree : Tree) (skip : String → Bool) (dirpath : RelPath) : WalkItem where
  dirpath := dirpath
  dirnames :=
    (tree.children dirpath).filter fun name =>
      tree.isDirEntry (dirpath ++ [name]) && !skip name
  filenames :=
    (tree.children dirpath).filter fun name =>
      !tree.isDirEntry (dirpath ++ [name])

/--
`os.walk(root, topdown=True, followlinks=False)` whose caller removes the
names satisfying `skip` from `dirnames` in place, so that directories of such
a name are neither listed nor descended into.
-/
def Tree.osWalk (tree : Tree) (skip : String → Bool) : List WalkItem :=
  (tree.paths.filter fun dirpath =>
      isDirectory (tree.get dirpath) && dirpath.all (!skip ·)).map
    (tree.walkItem skip)

/-- `os.path.islink`. -/
def Tree.isLink (tree : Tree) (path : RelPath) : Bool :=
  match tree.get path with
  | some (.symlink _) => true
  | _ => false

/-- `_iter_checkpoint_entries`: links to directories, directories, the rest. -/
def iterCheckpointEntries (tree : Tree) : List RelPath :=
  (tree.osWalk checkpointSkipDirs.contains).flatMap fun item =>
    ((item.dirnames.filter fun name =>
        tree.isLink (item.dirpath ++ [name])).map (item.dirpath ++ [·])) ++
      (if item.dirpath.isEmpty then [] else [item.dirpath]) ++
      item.filenames.map (item.dirpath ++ [·])

/--
The paths a checkpoint visits: what exists in a directory that is not below
`.git`, except the directories and links to directories named `.git`.
-/
def Tree.Captured (tree : Tree) (path : RelPath) : Prop :=
  path ≠ [] ∧ (tree.get path).isSome ∧ ".git" ∉ path.dropLast ∧
    (tree.isDirEntry path = true → path.getLast? ≠ some ".git")

instance (tree : Tree) (path : RelPath) : Decidable (tree.Captured path) :=
  inferInstanceAs (Decidable (_ ∧ _ ∧ _ ∧ _))

theorem Tree.mem_children
    (tree : Tree) (dirpath : RelPath) (name : String) :
    name ∈ tree.children dirpath ↔
      (tree.get (dirpath ++ [name])).isSome := by
  rw [Tree.children, List.mem_filterMap]
  constructor
  · rintro ⟨path, member, found⟩
    split at found
    · next parent =>
        obtain ⟨front, rfl⟩ := List.getLast?_eq_some_iff.mp found
        rw [List.dropLast_concat] at parent
        subst front
        exact (tree.mem_paths _).mp member
    · cases found
  · intro present
    exact ⟨dirpath ++ [name], (tree.mem_paths _).mpr present, by simp⟩

theorem Tree.mem_osWalk
    (tree : Tree) (skip : String → Bool) (item : WalkItem) :
    item ∈ tree.osWalk skip ↔
      ∃ dirpath, tree.get dirpath = some .dir ∧
        (∀ name ∈ dirpath, skip name = false) ∧
        tree.walkItem skip dirpath = item := by
  rw [Tree.osWalk, List.mem_map]
  simp only [List.mem_filter, Bool.and_eq_true, isDirectory_iff,
    List.all_eq_true, Bool.not_eq_eq_eq_not, Bool.not_true]
  constructor
  · rintro ⟨dirpath, ⟨_, isDir, outside⟩, rfl⟩
    exact ⟨dirpath, isDir, outside, rfl⟩
  · rintro ⟨dirpath, isDir, outside, rfl⟩
    exact ⟨dirpath,
      ⟨(tree.mem_paths dirpath).mpr (by simp [isDir]), isDir, outside⟩, rfl⟩

theorem not_skipped_iff (name : String) :
    checkpointSkipDirs.contains name = false ↔ name ≠ ".git" := by
  simp [checkpointSkipDirs]

theorem mem_iterCheckpointEntries_iff (tree : Tree) (path : RelPath) :
    path ∈ iterCheckpointEntries tree ↔
      ∃ dirpath, tree.get dirpath = some .dir ∧ ".git" ∉ dirpath ∧
        ((∃ name, (tree.get (dirpath ++ [name])).isSome ∧
            tree.isDirEntry (dirpath ++ [name]) = true ∧ name ≠ ".git" ∧
            tree.isLink (dirpath ++ [name]) = true ∧
            dirpath ++ [name] = path) ∨
          (dirpath ≠ [] ∧ dirpath = path) ∨
          (∃ name, (tree.get (dirpath ++ [name])).isSome ∧
            tree.isDirEntry (dirpath ++ [name]) = false ∧
            dirpath ++ [name] = path)) := by
  rw [iterCheckpointEntries, List.mem_flatMap]
  constructor
  · rintro ⟨item, member, visited⟩
    obtain ⟨dirpath, isDir, outside, rfl⟩ := (tree.mem_osWalk _ _).mp member
    refine ⟨dirpath, isDir,
      fun inside => (not_skipped_iff ".git").mp (outside _ inside) rfl, ?_⟩
    simp only [Tree.walkItem, List.mem_append, List.mem_map, List.mem_filter,
      Bool.and_eq_true, Bool.not_eq_eq_eq_not, Bool.not_true,
      tree.mem_children, not_skipped_iff] at visited
    rcases visited with (⟨name, ⟨⟨present, isDirEntry, kept⟩, isLink⟩, equal⟩
      | self) | ⟨name, ⟨present, notDir⟩, equal⟩
    · exact Or.inl ⟨name, present, isDirEntry, kept, isLink, equal⟩
    · cases dirpath with
      | nil => simp at self
      | cons first rest =>
          exact Or.inr (Or.inl ⟨by simp, by simpa [eq_comm] using self⟩)
    · exact Or.inr (Or.inr ⟨name, present, notDir, equal⟩)
  · rintro ⟨dirpath, isDir, outside, visited⟩
    refine ⟨tree.walkItem checkpointSkipDirs.contains dirpath,
      (tree.mem_osWalk _ _).mpr ⟨dirpath, isDir, fun name member => ?_, rfl⟩,
      ?_⟩
    · rw [not_skipped_iff]
      rintro rfl
      exact outside member
    · simp only [Tree.walkItem, List.mem_append, List.mem_map,
        List.mem_filter, Bool.and_eq_true, Bool.not_eq_eq_eq_not,
        Bool.not_true, tree.mem_children, not_skipped_iff]
      rcases visited with ⟨name, present, isDirEntry, kept, isLink, equal⟩
        | ⟨nonempty, equal⟩ | ⟨name, present, notDir, equal⟩
      · exact Or.inl
          (Or.inl ⟨name, ⟨⟨present, isDirEntry, kept⟩, isLink⟩, equal⟩)
      · subst equal
        exact Or.inl (Or.inr (by simp [nonempty]))
      · exact Or.inr ⟨name, ⟨present, notDir⟩, equal⟩

/-- The three loops over each directory visit exactly the captured paths. -/
theorem mem_iterCheckpointEntries (tree : Tree) (path : RelPath) :
    path ∈ iterCheckpointEntries tree ↔ tree.Captured path := by
  rw [mem_iterCheckpointEntries_iff]
  constructor
  · rintro ⟨dirpath, isDir, outside,
      ⟨name, present, _, kept, _, rfl⟩ | ⟨nonempty, rfl⟩ |
      ⟨name, present, notDir, rfl⟩⟩
    · exact ⟨by simp, present, by simpa using outside, fun _ => by simpa⟩
    · refine ⟨nonempty, by simp [isDir],
        fun inside => outside (List.mem_of_mem_dropLast inside),
        fun _ last => outside (List.mem_of_getLast? last)⟩
    · refine ⟨by simp, present, by simpa using outside, fun isDirEntry => ?_⟩
      rw [isDirEntry] at notDir
      cases notDir
  · rintro ⟨nonempty, present, outside, notGitDir⟩
    obtain ⟨dirpath, name, rfl⟩ :
        ∃ dirpath name, path = dirpath ++ [name] :=
      ⟨path.dropLast, path.getLast nonempty,
        (List.dropLast_append_getLast nonempty).symm⟩
    rw [List.dropLast_concat] at outside
    have parentDir := tree.parent_dir dirpath name present
    cases isDirEntry : tree.isDirEntry (dirpath ++ [name]) with
    | false =>
        exact ⟨dirpath, parentDir, outside,
          Or.inr (Or.inr ⟨name, present, isDirEntry, rfl⟩)⟩
    | true =>
        have kept : name ≠ ".git" := by
          simpa using notGitDir isDirEntry
        cases isLink : tree.isLink (dirpath ++ [name]) with
        | true =>
            exact ⟨dirpath, parentDir, outside,
              Or.inl ⟨name, present, isDirEntry, kept, isLink, rfl⟩⟩
        | false =>
            refine ⟨dirpath ++ [name], ?_, by simpa [outside] using kept.symm,
              Or.inr (Or.inl ⟨by simp, rfl⟩)⟩
            rw [Tree.isDirEntry] at isDirEntry
            rw [Tree.isLink] at isLink
            split at isDirEntry
            · assumption
            · next target found => simp [found] at isLink
            · cases isDirEntry

end AgentSchedBench.Checkpoint
