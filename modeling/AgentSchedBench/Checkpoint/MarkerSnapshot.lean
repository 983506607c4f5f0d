import AgentSchedBench.Checkpoint.Restore
import AgentSchedBench.Trace.Files
import Mathlib

/-!
# Snapshots relative to a marker

A snapshot of the container is a walk of the whole tree. If the entries of the
last snapshot are known, only those files are read again that `find` lists as
newer than a marker, which the last snapshot has touched when it began; the
others keep their entries.

So nothing is missed just if each file that has become another one is newer
than the marker, and its path is what is read from its line.
-/

namespace AgentSchedBench.Checkpoint

open FileSystem TextLines
open Trace (strip)

/-! ## The listing of newer files -/

/-- A path of the tree as text. -/
def rootedPath (root relpath : RelPath) : List Char :=
  (root ++ relpath).flatMap fun name => '/' :: name.toList

/-- The files of the tree that are newer than the marker. -/
def newerFiles (tree : Tree) (markerNs : Int) : List RelPath :=
  tree.paths.filter fun path =>
    match tree.get path with
    | some (.file _) => decide (markerNs < (tree.stat path).mtimeNs)
    | _ => false

/-- `find root -newer marker -type f` -/
def findNewer (root : RelPath) (tree : Tree) (markerNs : Int) : List Char :=
  ((newerFiles tree markerNs).map (rootedPath root)).flatMap (· ++ ['\n'])

/-- The names of `os.path.abspath(path)`. -/
def absoluteNames (cwd : RelPath) (path : List Char) : RelPath :=
  let parts := (path.splitOn '/').map String.ofList
  let names := if path.head? = some '/' then parts else cwd ++ parts
  names.foldl (fun front name =>
    if name = "" ∨ name = "." then front
    else if name = ".." then front.dropLast
    else front ++ [name]) []

/-- `os.path.commonprefix`, its length -/
def commonLength : RelPath → RelPath → Nat
  | name :: names, other :: others =>
      if name = other then commonLength names others + 1 else 0
  | _, _ => 0

/-- `os.path.relpath(path, root)`, by its names -/
def relativeNames (cwd root : RelPath) (path : List Char) : RelPath :=
  let names := absoluteNames cwd path
  let common := commonLength root names
  let relative :=
    List.replicate (root.length - common) ".." ++ names.drop common
  if relative = [] then ["."] else relative

/-- The changed paths that are read from a listing. -/
def changedPaths (cwd root : RelPath) (listing : List Char) : List RelPath :=
  (splitLines (strip (translateNewlines listing))).filterMap fun line =>
    if line = [] then none
    else if (line.splitOn '/').any fun part =>
        checkpointSkipDirs.contains (String.ofList part) then none
    else some (relativeNames cwd root line)

/-! ## Capturing -/

/-- The tree at a snapshot, which files can be opened, and when it begins; is
`find` made and does it succeed, and are the previous entries forgotten? -/
structure SnapshotCall where
  tree : Tree
  readable : RelPath → Bool
  startNs : Int
  findFails : Bool
  fresh : Bool

/-- Where the container keeps its tree, and where its commands are run. -/
structure SnapshotPlace where
  root : RelPath
  cwd : RelPath

/-- What the walk comes upon. -/
def snapshotPaths (tree : Tree) : List RelPath :=
  (tree.osWalk checkpointSkipDirs.contains).flatMap fun item =>
    ((item.dirnames.filter fun name =>
        tree.isLink (item.dirpath ++ [name])).map (item.dirpath ++ [·])) ++
      item.filenames.map (item.dirpath ++ [·])

/-- `all_paths` -/
def allPaths (tree : Tree) : List RelPath :=
  (snapshotPaths tree).filter fun path =>
    ((tree.get path).bind objectValue).isSome

local instance lawfulRelPath : LawfulBEq RelPath := inferInstance

/-- Is the path in `changed`, or is there no such set? -/
def isListed (changed : Option (List RelPath)) (path : RelPath) : Bool :=
  changed.all fun paths => decide (path ∈ paths)

namespace SnapshotCall

variable (call : SnapshotCall)

/-- The entry of a path, if it is made. -/
def entryOf (changed : Option (List RelPath)) (path : RelPath) :
    Option CasManifestValue :=
  match call.tree.get path with
  | some (.symlink target) => some (.symlink target)
  | some (.file data) =>
      if isListed changed path ∧ call.readable path then
        some (.file data.digest (some (sIMode data.mode)))
      else none
  | _ => none

/-- The entries of the walk. -/
def deltaEntries (changed : Option (List RelPath)) : CasManifestEntries :=
  Dict.gather ((snapshotPaths call.tree).map fun path =>
    (path, call.entryOf changed path))

/-- The manifest of a full capture. -/
def fullManifest : CasManifestEntries := call.deltaEntries none

/-- The set `changed`, given the marker if there is one. -/
def changed (place : SnapshotPlace) (marker : Option Int) :
    Option (List RelPath) :=
  match marker with
  | none => none
  | some markerNs =>
      if call.findFails then none
      else
        some (changedPaths place.cwd place.root
          (findNewer place.root call.tree markerNs))

end SnapshotCall

/-- The previous entries with the new ones, without those of paths that are
no more. -/
def mergedManifest (previous delta : CasManifestEntries)
    (paths : List RelPath) : CasManifestEntries :=
  let merged := previous.update delta
  (merged.keys.filter (· ∉ paths)).foldl Dict.pop merged

/-- The last entries, and the time of the marker. -/
structure MarkerState where
  manifest : Option CasManifestEntries
  marker : Option Int

namespace MarkerState

variable (place : SnapshotPlace) (state : MarkerState) (call : SnapshotCall)

/-- `_capture_snapshot_manifest` -/
def capture : CasManifestEntries :=
  match if call.fresh then none else state.manifest with
  | none => call.fullManifest
  | some previous =>
      mergedManifest previous
        (call.deltaEntries (call.changed place state.marker))
        (allPaths call.tree)

/-- A capture is followed by the next one, its marker in place. -/
def afterCapture : MarkerState :=
  ⟨some (state.capture place call), some call.startNs⟩

end MarkerState

/-! ## One capture -/

/-- A file that has become another one is listed, and can be opened. -/
def Noticed (place : SnapshotPlace) (marker : Option Int)
    (previous : CasManifestEntries) (call : SnapshotCall) : Prop :=
  ∀ path ∈ snapshotPaths call.tree, ∀ data,
    call.tree.get path = some (.file data) →
    previous.get path ≠ call.fullManifest.get path →
    isListed (call.changed place marker) path = true ∧
      call.readable path = true

section Entries

variable {call : SnapshotCall}

theorem get_deltaEntries {changed : Option (List RelPath)} {path : RelPath}
    (member : path ∈ snapshotPaths call.tree) :
    (call.deltaEntries changed).get path = call.entryOf changed path :=
  Dict.get_gather_of_mem member

theorem get_mergedManifest {previous delta : CasManifestEntries}
    {paths : List RelPath} {path : RelPath} (member : path ∈ paths) :
    (mergedManifest previous delta paths).get path =
      (delta.get path).or (previous.get path) := by
  rw [mergedManifest, Dict.get_foldl_pop, if_neg, Dict.get_update]
  intro isPopped
  exact of_decide_eq_true (List.mem_filter.mp isPopped).2 member

theorem get_mergedManifest_of_not_mem {previous delta : CasManifestEntries}
    {paths : List RelPath} {path : RelPath} (notMember : path ∉ paths) :
    (mergedManifest previous delta paths).get path = none := by
  rw [mergedManifest, Dict.get_foldl_pop]
  split
  · rfl
  · next kept =>
      rw [← Option.not_isSome_iff_eq_none, ← Dict.mem_keys]
      exact fun isKey =>
        kept (List.mem_filter.mpr ⟨isKey, decide_eq_true notMember⟩)

/-- What is there of a path is in its entry, if the path is not left out. -/
theorem mem_allPaths {tree : Tree} {path : RelPath} :
    path ∈ allPaths tree ↔
      path ∈ snapshotPaths tree ∧
        ((tree.get path).bind objectValue).isSome = true :=
  List.mem_filter

/-- The entry of a file, if it is read. -/
theorem entryOf_file {changed : Option (List RelPath)} {path : RelPath}
    {data : FileData} (isFile : call.tree.get path = some (.file data)) :
    call.entryOf changed path =
      if isListed changed path ∧ call.readable path then
        some (.file data.digest (some (sIMode data.mode)))
      else none := by
  rw [SnapshotCall.entryOf, isFile]

theorem get_fullManifest_of_not_mem {path : RelPath}
    (notMember : path ∉ snapshotPaths call.tree) :
    call.fullManifest.get path = none :=
  Dict.get_gather_of_not_mem notMember

/-- What is no file has its entry in both, or in none. -/
theorem get_merged_of_no_file {changed : Option (List RelPath)}
    (previous : CasManifestEntries) {path : RelPath}
    (noFile : ∀ data, call.tree.get path ≠ some (.file data)) :
    (mergedManifest previous (call.deltaEntries changed)
      (allPaths call.tree)).get path = call.fullManifest.get path := by
  by_cases member : path ∈ snapshotPaths call.tree
  · rw [SnapshotCall.fullManifest, get_deltaEntries member]
    have inPaths : path ∈ allPaths call.tree ↔
        ((call.tree.get path).bind objectValue).isSome = true :=
      mem_allPaths.trans (and_iff_right member)
    cases isObject : call.tree.get path with
    | none =>
        rw [isObject] at inPaths
        rw [get_mergedManifest_of_not_mem (inPaths.not.mpr (nofun)),
          SnapshotCall.entryOf, isObject]
    | some object =>
        rw [isObject] at inPaths
        cases object with
        | file data => exact absurd isObject (noFile data)
        | symlink target =>
            rw [get_mergedManifest (inPaths.mpr rfl), get_deltaEntries member,
              SnapshotCall.entryOf, SnapshotCall.entryOf, isObject]
            rfl
        | dir =>
            rw [get_mergedManifest_of_not_mem (inPaths.not.mpr (nofun)),
              SnapshotCall.entryOf, isObject]
        | special =>
            rw [get_mergedManifest_of_not_mem (inPaths.not.mpr (nofun)),
              SnapshotCall.entryOf, isObject]
  · rw [get_fullManifest_of_not_mem member,
      get_mergedManifest_of_not_mem fun inPaths =>
        member (mem_allPaths.mp inPaths).1]

/-- The merged entry of a file that is listed is the full one; otherwise it
is the previous one. -/
theorem get_merged_of_file {changed : Option (List RelPath)}
    (previous : CasManifestEntries) {path : RelPath} {data : FileData}
    (member : path ∈ snapshotPaths call.tree)
    (isFile : call.tree.get path = some (.file data)) :
    (mergedManifest previous (call.deltaEntries changed)
        (allPaths call.tree)).get path =
      if isListed changed path ∧ call.readable path then
        call.fullManifest.get path
      else previous.get path := by
  have inPaths : path ∈ allPaths call.tree :=
    mem_allPaths.mpr ⟨member, by rw [isFile]; rfl⟩
  rw [get_mergedManifest inPaths, get_deltaEntries member,
    SnapshotCall.fullManifest, get_deltaEntries member, entryOf_file isFile,
    entryOf_file isFile]
  split
  · next isRead => rw [if_pos ⟨rfl, isRead.2⟩, Option.some_or]
  · rw [Option.none_or]

/-- The merged entry of a path is the full one if it is noticed. -/
theorem get_merged_eq_iff (place : SnapshotPlace) (marker : Option Int)
    (previous : CasManifestEntries) (path : RelPath) :
    (mergedManifest previous (call.deltaEntries (call.changed place marker))
        (allPaths call.tree)).get path = call.fullManifest.get path ↔
      (path ∈ snapshotPaths call.tree → ∀ data,
        call.tree.get path = some (.file data) →
        previous.get path ≠ call.fullManifest.get path →
        isListed (call.changed place marker) path = true ∧
          call.readable path = true) := by
  by_cases noFile : ∀ data, call.tree.get path ≠ some (.file data)
  · exact iff_of_true (get_merged_of_no_file previous noFile)
      fun _ data isFile => absurd isFile (noFile data)
  · obtain ⟨data, isFile⟩ := not_forall_not.mp noFile
    by_cases member : path ∈ snapshotPaths call.tree
    · rw [get_merged_of_file previous member isFile]
      constructor
      · intro same _ _ _ isOther
        by_contra unread
        rw [if_neg unread] at same
        exact isOther same
      · intro noticed
        by_cases isSame : previous.get path = call.fullManifest.get path
        · rw [isSame, ite_self]
        · rw [if_pos (noticed member data isFile isSame)]
    · refine iff_of_true ?_ fun isMember => absurd isMember member
      rw [get_fullManifest_of_not_mem member,
        get_mergedManifest_of_not_mem fun inPaths =>
          member (mem_allPaths.mp inPaths).1]

/-- A merged manifest is that of a full capture just if all is noticed. -/
theorem merged_eq_full_iff (place : SnapshotPlace) (marker : Option Int)
    (previous : CasManifestEntries) :
    (∀ path,
      (mergedManifest previous (call.deltaEntries (call.changed place marker))
        (allPaths call.tree)).get path = call.fullManifest.get path) ↔
      Noticed place marker previous call :=
  forall_congr' (get_merged_eq_iff place marker previous)

end Entries

/-! ## Runs of captures -/

/-- Each capture gives what a full one of the same tree gives. -/
def CapturesWhole (place : SnapshotPlace) :
    MarkerState → List SnapshotCall → Prop
  | _, [] => True
  | state, call :: calls =>
      (∀ path,
        (state.capture place call).get path = call.fullManifest.get path) ∧
      CapturesWhole place (state.afterCapture place call) calls

/-- What has changed since the last snapshot is noticed by the next one, if it
builds on the last one. -/
def NoticedSince (place : SnapshotPlace) (before call : SnapshotCall) : Prop :=
  call.fresh = false →
    Noticed place (some before.startNs) before.fullManifest call

section Runs

variable {place : SnapshotPlace}

theorem noticed_congr {marker : Option Int}
    {previous other : CasManifestEntries} {call : SnapshotCall}
    (same : ∀ path, previous.get path = other.get path) :
    Noticed place marker previous call ↔ Noticed place marker other call := by
  rw [Noticed, Noticed]
  simp only [same]

/-- One capture after another. -/
theorem capture_eq_full_iff {state : MarkerState}
    {previous : CasManifestEntries} {before call : SnapshotCall}
    (isPrevious : state.manifest = some previous)
    (isMarker : state.marker = some before.startNs)
    (whole : ∀ path, previous.get path = before.fullManifest.get path) :
    (∀ path,
      (state.capture place call).get path = call.fullManifest.get path) ↔
      NoticedSince place before call := by
  rw [NoticedSince, MarkerState.capture, isPrevious, isMarker]
  cases call.fresh with
  | true => exact iff_of_true (fun _ => rfl) (nofun)
  | false =>
      rw [imp_iff_right rfl, ← noticed_congr whole]
      exact merged_eq_full_iff place (some before.startNs) previous

/-- From a snapshot of the whole tree on. -/
theorem capturesWhole_from {state : MarkerState}
    {previous : CasManifestEntries} {before : SnapshotCall}
    {calls : List SnapshotCall}
    (isPrevious : state.manifest = some previous)
    (isMarker : state.marker = some before.startNs)
    (whole : ∀ path, previous.get path = before.fullManifest.get path) :
    CapturesWhole place state calls ↔
      (before :: calls).IsChain (NoticedSince place) := by
  induction calls generalizing state previous before with
  | nil => exact iff_of_true trivial (List.isChain_singleton before)
  | cons call calls induction =>
      rw [CapturesWhole, List.isChain_cons_cons,
        capture_eq_full_iff isPrevious isMarker whole]
      refine and_congr_right fun noticed => induction rfl rfl ?_
      exact (capture_eq_full_iff isPrevious isMarker whole).mpr noticed

end Runs

/-- In a run of snapshots each one is that of a full capture just if each
notices what has changed since the one before. -/
theorem capturesWhole_iff (place : SnapshotPlace)
    (calls : List SnapshotCall) :
    CapturesWhole place ⟨none, none⟩ calls ↔
      calls.IsChain (NoticedSince place) := by
  cases calls with
  | nil => exact iff_of_true trivial List.isChain_nil
  | cons call calls =>
      have isFull : (MarkerState.mk none none).capture place call =
          call.fullManifest := by
        rw [MarkerState.capture]
        cases call.fresh <;> rfl
      rw [CapturesWhole, and_iff_right fun path => by rw [isFull]]
      exact capturesWhole_from rfl rfl fun path => by rw [isFull]

/-! ## Plain names -/

/-- A name that is on a line of its own. -/
def PlainName (name : String) : Prop :=
  ValidName name ∧
    ∀ char ∈ name.toList, char ≠ '/' ∧ isLineBoundary char = false

/-- A path whose line is read back. -/
structure PlainPath (path : RelPath) : Prop where
  names : ∀ name ∈ path, PlainName name
  noBlank : ∀ name ∈ path.getLast?, ∀ char ∈ name.toList.getLast?,
    Agent.isSpace char = false
  nonempty : path ≠ []

section Plain

variable {root cwd path : RelPath}

/-- The text of a path is split into its names. -/
theorem splitOn_names {front : List Char} {names : List String}
    (noSlash : '/' ∉ front) (plain : ∀ name ∈ names, PlainName name) :
    (front ++ names.flatMap fun name => '/' :: name.toList).splitOn '/' =
      front :: names.map String.toList := by
  induction names generalizing front with
  | nil =>
      rw [List.flatMap_nil, List.append_nil, List.splitOn_eq_singleton noSlash]
      rfl
  | cons name names induction =>
      rw [List.forall_mem_cons] at plain
      rw [List.flatMap_cons, List.cons_append,
        List.splitOn_append_cons_self_of_not_mem noSlash, List.map_cons]
      exact congrArg _
        (induction (fun member => (plain.1.2 '/' member).1 rfl) plain.2)

theorem head_rootedPath (nonempty : path ≠ []) :
    (rootedPath root path).head? = some '/' := by
  obtain ⟨name, names, same⟩ := List.exists_cons_of_ne_nil
    (List.append_ne_nil_of_right_ne_nil root nonempty)
  rw [rootedPath, same]
  rfl

/-- The names of a path are those of its text. -/
theorem absoluteNames_rootedPath
    (plain : ∀ name ∈ root ++ path, PlainName name) (nonempty : path ≠ []) :
    absoluteNames cwd (rootedPath root path) = root ++ path := by
  have isFold (names front : RelPath) (plain : ∀ name ∈ names, PlainName name) :
      names.foldl (fun front name =>
        if name = "" ∨ name = "." then front
        else if name = ".." then front.dropLast
        else front ++ [name]) front = front ++ names := by
    induction names generalizing front with
    | nil => exact (List.append_nil front).symm
    | cons name names induction =>
        rw [List.forall_mem_cons] at plain
        obtain ⟨notEmpty, notDot, notUp⟩ := plain.1.1
        rw [List.foldl_cons, if_neg (not_or.mpr ⟨notEmpty, notDot⟩),
          if_neg notUp, induction _ plain.2, List.append_assoc]
        rfl
  have noSlash : '/' ∉ ([] : List Char) := List.not_mem_nil
  have isSplit : ((rootedPath root path).splitOn '/').map String.ofList =
      "" :: (root ++ path) := by
    rw [rootedPath, ← List.nil_append (List.flatMap _ _),
      splitOn_names noSlash plain, List.map_cons, List.map_map]
    refine congrArg _ (List.map_id'' (fun name => ?_) _)
    exact String.ofList_toList
  rw [absoluteNames, isSplit, head_rootedPath nonempty, if_pos rfl,
    List.foldl_cons, if_pos (.inl rfl), isFold _ [] plain, List.nil_append]

theorem commonLength_append (root path : RelPath) :
    commonLength root (root ++ path) = root.length := by
  induction root with
  | nil => cases path <;> rfl
  | cons name root induction =>
      rw [List.cons_append, commonLength, if_pos rfl, induction]
      rfl

/-- A path is found again in its text. -/
theorem relativeNames_rootedPath
    (plain : ∀ name ∈ root ++ path, PlainName name) (nonempty : path ≠ []) :
    relativeNames cwd root (rootedPath root path) = path := by
  rw [relativeNames, absoluteNames_rootedPath plain nonempty, commonLength_append,
    Nat.sub_self, List.drop_left]
  exact if_neg nonempty

/-- A directory that is left out is seen in the text of a path. -/
theorem any_skipped_rootedPath (plain : ∀ name ∈ root ++ path, PlainName name) :
    (((rootedPath root path).splitOn '/').any fun part =>
      checkpointSkipDirs.contains (String.ofList part)) = true ↔
      ".git" ∈ root ++ path := by
  have noSlash : '/' ∉ ([] : List Char) := List.not_mem_nil
  rw [rootedPath, ← List.nil_append (List.flatMap _ _),
    splitOn_names noSlash plain, List.any_cons, List.any_map]
  simp [checkpointSkipDirs]

/-- The line of a plain path. -/
theorem rootedPath_line (rootPlain : ∀ name ∈ root, PlainName name)
    (plain : PlainPath path) :
    rootedPath root path ≠ [] ∧
      (∀ char ∈ rootedPath root path, isLineBoundary char = false) ∧
      (∀ char ∈ (rootedPath root path).head?, Agent.isSpace char = false) ∧
      ∀ char ∈ (rootedPath root path).getLast?,
        Agent.isSpace char = false := by
  have isHead : (rootedPath root path).head? = some '/' :=
    head_rootedPath plain.nonempty
  refine ⟨fun isEmpty => ?_, ?_, ?_, ?_⟩
  · rw [isEmpty] at isHead
    cases isHead
  · intro char member
    obtain ⟨name, isName, inName⟩ := List.mem_flatMap.mp member
    have isPlain : PlainName name :=
      (List.mem_append.mp isName).elim (rootPlain name) (plain.names name)
    rcases List.mem_cons.mp inName with rfl | inside
    · decide
    · exact (isPlain.2 char inside).2
  · rw [isHead]
    rintro _ ⟨rfl⟩
    decide
  · obtain ⟨front, name, rfl⟩ : ∃ front name, path = front ++ [name] :=
      ⟨path.dropLast, path.getLast plain.nonempty,
        (List.dropLast_append_getLast plain.nonempty).symm⟩
    have notEmpty : name.toList ≠ [] := fun isEmpty =>
      (plain.names name (List.mem_append_right _ List.mem_cons_self)).1.1
        (String.toList_eq_nil_iff.mp isEmpty)
    rw [rootedPath, ← List.append_assoc, List.flatMap_append,
      List.flatMap_singleton, ← List.singleton_append, ← List.append_assoc,
      List.getLast?_append_of_ne_nil _ notEmpty]
    exact plain.noBlank name List.getLast?_concat

/-- Of plain paths those are read from the listing that are not left out. -/
theorem changedPaths_findNewer {tree : Tree} {markerNs : Int}
    (rootPlain : ∀ name ∈ root, PlainName name)
    (plain : ∀ path ∈ newerFiles tree markerNs, PlainPath path) :
    changedPaths cwd root (findNewer root tree markerNs) =
      (newerFiles tree markerNs).filter (".git" ∉ root ++ ·) := by
  have lines : ∀ line ∈ (newerFiles tree markerNs).map (rootedPath root),
      line ≠ [] ∧ (∀ char ∈ line, isLineBoundary char = false) ∧
        (∀ char ∈ line.head?, Agent.isSpace char = false) ∧
        ∀ char ∈ line.getLast?, Agent.isSpace char = false := by
    intro line member
    obtain ⟨path, isNewer, rfl⟩ := List.mem_map.mp member
    exact rootedPath_line rootPlain (plain path isNewer)
  have noReturn : ∀ line ∈ (newerFiles tree markerNs).map (rootedPath root),
      '\r' ∉ line := by
    intro line member isReturn
    exact absurd ((lines line member).2.1 '\r' isReturn) (by decide)
  rw [changedPaths, findNewer, translateNewlines_lines noReturn,
    Trace.strip_lines (fun line member => (lines line member).1)
      (fun line member => (lines line member).2.2.1)
      (fun line member => (lines line member).2.2.2),
    splitLines_intercalate (fun line member => (lines line member).1)
      (fun line member => (lines line member).2.1),
    List.filterMap_map, ← List.filterMap_eq_filter]
  refine List.filterMap_congr fun path isNewer => ?_
  have isPlain : ∀ name ∈ root ++ path, PlainName name :=
    List.forall_mem_append.mpr ⟨rootPlain, (plain path isNewer).names⟩
  dsimp only [Function.comp_apply]
  rw [if_neg (rootedPath_line rootPlain (plain path isNewer)).1,
    relativeNames_rootedPath isPlain (plain path isNewer).nonempty]
  have isSkipped := any_skipped_rootedPath isPlain
  by_cases inGit : ".git" ∈ root ++ path
  · rw [if_pos (isSkipped.mpr inGit), Option.guard,
      if_neg (by simp only [inGit]; decide)]
  · rw [if_neg (isSkipped.not.mpr inGit), Option.guard,
      if_pos (by simp only [inGit]; decide)]

end Plain

theorem mem_newerFiles {tree : Tree} {markerNs : Int} {path : RelPath}
    {data : FileData} (isFile : tree.get path = some (.file data)) :
    path ∈ newerFiles tree markerNs ↔ markerNs < (tree.stat path).mtimeNs := by
  rw [newerFiles, List.mem_filter, isFile, tree.mem_paths, isFile]
  simp

/-- Among plain paths a file is noticed that has become another one if it is
newer than the marker, is not left out and can be opened. -/
theorem noticed_iff_of_plain {place : SnapshotPlace} {markerNs : Int}
    {previous : CasManifestEntries} {call : SnapshotCall}
    (rootPlain : ∀ name ∈ place.root, PlainName name)
    (rootKept : ".git" ∉ place.root) (finds : call.findFails = false)
    (plain : ∀ path ∈ newerFiles call.tree markerNs, PlainPath path) :
    Noticed place (some markerNs) previous call ↔
      ∀ path ∈ snapshotPaths call.tree, ∀ data,
        call.tree.get path = some (.file data) →
        previous.get path ≠ call.fullManifest.get path →
        (markerNs < (call.tree.stat path).mtimeNs ∧ ".git" ∉ path) ∧
          call.readable path = true := by
  refine forall₄_congr fun path _ data isFile =>
    imp_congr_right fun _ => and_congr_left fun _ => ?_
  rw [SnapshotCall.changed, finds, if_neg Bool.false_ne_true,
    changedPaths_findNewer rootPlain plain, isListed, Option.all_some,
    decide_eq_true_iff, List.mem_filter, mem_newerFiles isFile,
    decide_eq_true_iff, List.mem_append, not_or, and_iff_right rootKept]

/-- A tree of one file. -/
def oneFileTree (digest : Digest) (mtimeNs : Int) : Tree :=
  Tree.ofObjects [(["a"], .file ⟨digest, 0o100644⟩, ⟨1, mtimeNs⟩)]
    (fun _ => false) (by
      intro item member
      cases List.mem_singleton.mp member
      exact ⟨List.cons_ne_nil _ _, show ValidPath ["a"] by decide, rfl, nofun⟩)

/-- The content changes, and the time of the file is set back. -/
theorem setBack_not_capturesWhole :
    ¬CapturesWhole ⟨["testbed"], []⟩ ⟨none, none⟩
      [⟨oneFileTree "1" 5, fun _ => true, 10, false, false⟩,
        ⟨oneFileTree "2" 5, fun _ => true, 20, false, false⟩] := by
  rintro ⟨_, whole, _⟩
  exact absurd (whole ["a"]) (by decide)

end AgentSchedBench.Checkpoint
