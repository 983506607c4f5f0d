import AgentSchedBench.Checkpoint.Containment
import AgentSchedBench.Checkpoint.RestoreSpec

/-!
# The restore script on the collector's manifests

A manifest of the collector is a document the script can read.  Where the
script succeeds on it at `/testbed`, `restoreCasManifest` succeeds and ends in
the same file system, up to the manifest file the script removes.
-/

namespace AgentSchedBench.Checkpoint

open FileSystem Outcomes

/-! ## Manifests of the collector -/

/-- A recorded entry as the script meets it. -/
def ManifestEntry.toScript : ManifestEntry → ScriptEntry
  | .file hash mode _ _ => .file hash (mode.map some) true
  | .symlink target => .symlink target
  | .unknownType => .unknownType
  | .notDict => .notDict

/-- A recorded manifest as the script meets it. -/
def Manifest.toScript (manifest : Manifest) : ScriptDocument :=
  .object
    (some (manifest.entries.items.map fun item => (item.1, item.2.toScript)))
    (some (manifest.deletedPaths.map some))

section Collector

variable {fs next : Fs FileData} {path : Path}

theorem removeTree_ok
    (nonempty : path ≠ []) (removed : removeTree fs path = .ok next) :
    fs.removeAt path = next := by
  rw [removeTree] at removed
  rw [Fs.removeAt]
  cases located : fs.locate path with
  | none =>
      rw [located] at removed
      cases removed
      rfl
  | some place =>
      rw [located] at removed
      dsimp only at removed ⊢
      have placeNonempty := fs.locate_ne_nil nonempty located
      cases found : fs.get place with
      | none =>
          rw [found] at removed
          cases removed
          apply Fs.ext
          intro other
          have agrees : Fs.AgreesOn (fun _ => True) fs (fs.remove place) := by
            apply fs.remove_agreesOn
            intro below _ isPrefix
            rcases eq_or_ne place below with rfl | apart
            · exact found
            · apply fs.none_of_ancestor isPrefix apart
              simp [found]
          exact agrees other trivial
      | some object =>
          rw [found] at removed
          cases object with
          | file data => exact Except.ok.inj removed
          | symlink target => exact Except.ok.inj removed
          | special => exact Except.ok.inj removed
          | dir =>
              dsimp only at removed
              split at removed
              · cases removed
                apply Fs.ext
                intro other
                rw [fs.get_remove placeNonempty,
                  Fs.get_remove _ placeNonempty]
                split
                · rfl
                · next apart =>
                    rw [fs.get_clear, Fs.clearedBelow_of_not_isPrefix _ apart]
                    rfl
              · cases removed

theorem createAt_ok
    {host : ScriptHost} {object : Object FileData}
    (created : createAt host fs path object = .ok next) :
    fs.assignAt path object = next := by
  rw [createAt] at created
  rw [Fs.assignAt]
  cases located : fs.locate path with
  | none =>
      rw [located] at created
      cases created
  | some place =>
      rw [located] at created
      dsimp only at created ⊢
      split at created
      · exact Except.ok.inj created
      · cases created

theorem scriptParentDirs_ok
    {host : ScriptHost} {current : Path} (parts : Path)
    (made : scriptParentDirs host fs current parts = .ok next) :
    ensureDirs fs current parts = .ok next := by
  induction parts generalizing fs current with
  | nil =>
      cases made
      rfl
  | cons part parts induction =>
      rw [scriptParentDirs] at made
      rw [ensureDirs]
      cases found : fs.lstat (current ++ [part]) with
      | none =>
          rw [found] at made
          rcases Loops.bind_eq_ok.mp made with ⟨state, created, made⟩
          dsimp only
          rw [createAt_ok created]
          exact induction made
      | some object =>
          rw [found] at made
          cases object with
          | dir => exact induction made
          | file data => cases made
          | symlink target => cases made
          | special => cases made

theorem scriptTarget_restoreRoot (relpath : RelPath) {target : RelPath}
    (safe : scriptTarget restoreRoot relpath = .ok target) :
    safeTarget relpath = .ok target := by
  rw [scriptTarget, if_neg (by decide)] at safe
  cases computed : safeTarget relpath with
  | error failure =>
      rw [computed] at safe
      cases safe
  | ok found =>
      rw [computed] at safe
      cases safe
      rfl

theorem scriptDeletedPath_ok
    {relpath : RelPath}
    (deleted : scriptDeletedPath restoreRoot fs relpath = .ok next) :
    restoreDeletedPath fs relpath = .ok next := by
  rw [scriptDeletedPath] at deleted
  rw [restoreDeletedPath]
  split at deleted
  · next preserved =>
      rw [if_pos preserved]
      cases deleted
      rfl
  · next other =>
      rw [if_neg other]
      cases safe : scriptTarget restoreRoot relpath with
      | error failure =>
          rw [safe] at deleted
          cases deleted
      | ok target =>
          rw [safe] at deleted
          rw [scriptTarget_restoreRoot relpath safe]
          dsimp only at deleted ⊢
          rw [removeTree_ok (by simp [restoreRoot]) deleted]

/-- Loops whose successful steps agree agree where the first succeeds. -/
theorem foldlM_ok_of_steps
    {α β : Type} {first : Fs FileData → α → ScriptResult}
    (second : Fs FileData → β → RestoreResult) (convert : β → α)
    (steps :
      ∀ fs next item, fs.get restoreRoot = some .dir →
        first fs (convert item) = .ok next →
          second fs item = .ok next ∧ next.get restoreRoot = some .dir)
    (items : List β) {fs final : Fs FileData}
    (rootDir : fs.get restoreRoot = some .dir)
    (finished : (items.map convert).foldlM first fs = .ok final) :
    items.foldlM second fs = .ok final ∧
      final.get restoreRoot = some .dir := by
  induction items generalizing fs with
  | nil =>
      cases finished
      exact ⟨rfl, rootDir⟩
  | cons item rest induction =>
      rw [List.map_cons, List.foldlM_cons] at finished
      rcases Loops.bind_eq_ok.mp finished with ⟨next, stepped, finished⟩
      rcases steps fs next item rootDir stepped with ⟨follows, nextDir⟩
      rcases induction nextDir finished with ⟨rest, finalDir⟩
      rw [List.foldlM_cons]
      exact ⟨Loops.bind_eq_ok.mpr ⟨next, follows, rest⟩, finalDir⟩

/-- A file just written changes its mode where it lies. -/
theorem chmodAt_created
    {parent : Path} {name : String} (valid : ValidPath parent)
    (parentDir : fs.get parent = some .dir)
    (notDir : fs.get (parent ++ [name]) ≠ some .dir)
    (data : FileData) (mode : Nat) :
    chmodAt (fs.assignAt (parent ++ [name]) (.file data)) (parent ++ [name])
        mode =
      fs.assignAt (parent ++ [name]) (.file { data with mode := mode }) := by
  have written := fs.locate_child name valid parentDir
  have placed :
      (fs.assign (parent ++ [name]) (.file data)).get (parent ++ [name]) =
        some (.file data) := by
    apply fs.get_assign_self _ (by simp) _ notDir
    rw [List.dropLast_concat]
    exact parentDir
  have newDir :
      (fs.assign (parent ++ [name]) (.file data)).get parent = some .dir := by
    rw [fs.get_assign_of_ne _ (by simp)]
    exact parentDir
  simp only [Fs.assignAt, written]
  rw [chmodAt, Fs.lstat_child _ name valid newDir, placed]
  simp only [Fs.assignAt, Fs.locate_child _ name valid newDir]
  apply Fs.ext
  intro other
  by_cases same : other = parent ++ [name]
  · rw [same, Fs.get_assign_self _ _ (by simp) _ (by simp [placed]),
      fs.get_assign_self _ (by simp) _ notDir]
    · rw [List.dropLast_concat]
      exact parentDir
    · rw [List.dropLast_concat]
      exact newDir
  · rw [Fs.get_assign_of_ne _ _ same, fs.get_assign_of_ne _ same,
      fs.get_assign_of_ne _ same]

/-- A file written after its checks is the file the collector recorded. -/
theorem scriptWriteFile_ok
    {host : ScriptHost} {parent : Path} {name : String}
    {relpath : RelPath} {digest : Digest} {mode : Option Nat}
    (valid : ValidPath parent) (parentDir : fs.get parent = some .dir)
    (notDir : fs.get (parent ++ [name]) ≠ some .dir)
    (written :
      scriptWriteFile host relpath (parent ++ [name]) digest
        (mode.map some) true fs = .ok next) :
    fs.assignAt (parent ++ [name]) (.file ⟨digest, mode.getD 0o644⟩) =
      next := by
  rw [scriptWriteFile] at written
  rcases Loops.bind_eq_ok.mp written with ⟨state, created, written⟩
  have bits : (mode.map some).getD (some 0o644) = some (mode.getD 0o644) := by
    cases mode with
    | none => rfl
    | some bits => rfl
  rw [bits] at written
  rw [← createAt_ok created] at written
  cases written
  rw [chmodAt_created valid parentDir notDir]

theorem target_split {target : RelPath} (nonempty : target ≠ []) :
    restoreRoot ++ target =
      (restoreRoot ++ target.dropLast) ++ [target.getLast nonempty] := by
  rw [List.append_assoc, List.dropLast_append_getLast nonempty]

/-- The directory of a target after `ensure_parent_dir`. -/
theorem parent_of_made
    {host : ScriptHost} {target : RelPath} (valid : ValidPath target)
    (rootDir : fs.get restoreRoot = some .dir)
    (made :
      scriptParentDirs host fs restoreRoot target.dropLast = .ok next) :
    ValidPath (restoreRoot ++ target.dropLast) ∧
      next.get (restoreRoot ++ target.dropLast) = some .dir := by
  have parentValid : ValidPath (restoreRoot ++ target.dropLast) := by
    apply validPath_append (by decide)
    intro name member
    exact valid name (List.mem_of_mem_dropLast member)
  have inside :
      Ends (Fs.AgreesOn (Outside restoreRoot) fs)
        (fun next => Fs.AgreesOn (Outside restoreRoot) fs next ∧
          next.get (restoreRoot ++ target.dropLast) = some .dir)
        (scriptParentDirs host fs restoreRoot target.dropLast) :=
    scriptParentDirs_keeps host target.dropLast parentValid
      (fun _ nonempty _ outside => outside (strictlyBelow_append nonempty))
      rootDir
  rw [made] at inside
  exact ⟨parentValid, inside.2⟩

theorem root_of_ends
    {result : ScriptResult} (rootDir : fs.get restoreRoot = some .dir)
    (inside :
      Ends (Fs.AgreesOn (Outside restoreRoot) fs)
        (Fs.AgreesOn (Outside restoreRoot) fs) result)
    (finished : result = .ok next) :
    next.get restoreRoot = some .dir := by
  rw [finished] at inside
  rw [inside restoreRoot (root_outside restoreRoot)]
  exact rootDir

/-- What follows `ensure_parent_dir` for one file. -/
theorem scriptFile_ok
    {host : ScriptHost} {relpath target : RelPath} {digest : Digest}
    {mode : Option Nat} {parented cleared : Fs FileData}
    (nonempty : target ≠ []) (valid : ValidPath target)
    (rootDir : fs.get restoreRoot = some .dir)
    (made :
      scriptParentDirs host fs restoreRoot target.dropLast = .ok parented)
    (checked :
      scriptFileTarget parented relpath (restoreRoot ++ target) =
        .ok cleared)
    (written :
      scriptWriteFile host relpath (restoreRoot ++ target) digest
        (mode.map some) true cleared = .ok next) :
    restoreFileAt parented relpath target ⟨digest, mode.getD 0o644⟩ =
      .ok next := by
  rcases parent_of_made valid rootDir made with ⟨parentValid, parentDir⟩
  rw [scriptFileTarget] at checked
  rw [restoreFileAt]
  have whole := target_split nonempty
  have placed :=
    parented.lstat_child (target.getLast nonempty) parentValid parentDir
  rw [← whole] at placed
  rw [whole] at written
  cases found : parented.lstat (restoreRoot ++ target) with
  | none =>
      rw [found] at checked
      cases checked
      dsimp only
      rw [whole, scriptWriteFile_ok parentValid parentDir _ written]
      rw [← whole, ← placed, found]
      simp
  | some object =>
      rw [found] at checked
      cases object with
      | symlink link => cases checked
      | special => cases checked
      | file data =>
          cases checked
          dsimp only
          rw [whole, scriptWriteFile_ok parentValid parentDir _ written]
          rw [← whole, ← placed, found]
          simp
      | dir =>
          dsimp only at checked ⊢
          have kept :=
            removeTree_child (target.getLast nonempty) parentValid
              parentDir (by
                rw [← whole]
                exact (sparesTarget_outside restoreRoot parented
                  nonempty).replaced)
          rw [← whole, checked] at kept
          have clearedDir :
              cleared.get (restoreRoot ++ target.dropLast) = some .dir := by
            rw [kept _ (Or.inr rfl)]
            exact parentDir
          have gone :
              cleared.get (restoreRoot ++ target) = none := by
            rw [← removeTree_ok (by simp [restoreRoot]) checked,
              Fs.removeAt, whole,
              parented.locate_child _ parentValid parentDir]
            exact parented.get_remove_of_isPrefix (by simp)
              (List.prefix_refl _)
          rw [removeTree_ok (by simp [restoreRoot]) checked, whole,
            scriptWriteFile_ok parentValid clearedDir _ written]
          rw [← whole, gone]
          simp

theorem scriptFileEntry_ok
    {host : ScriptHost} {item : RelPath × ManifestEntry}
    (rootDir : fs.get restoreRoot = some .dir)
    (written :
      scriptFileEntry host restoreRoot fs (item.1, item.2.toScript) =
        .ok next) :
    restoreFileEntry host.blobs fs item = .ok next := by
  rcases item with ⟨relpath, entry⟩
  rcases entry with ⟨_ | hash, mode, size, mtimeNs⟩ | target | _ | _
  · cases written
  · rw [ManifestEntry.toScript, scriptFileEntry] at written
    rw [restoreFileEntry]
    dsimp only at written ⊢
    cases stored : host.blobs hash with
    | none =>
        rw [stored] at written
        cases written
    | some actual =>
        rw [stored] at written
        dsimp only at written ⊢
        split at written
        · cases written
        · next genuine =>
            rw [if_neg genuine]
            cases safe : scriptTarget restoreRoot relpath with
            | error failure =>
                rw [safe] at written
                cases written
            | ok target =>
                rw [safe] at written
                rw [scriptTarget_restoreRoot relpath safe]
                dsimp only at written ⊢
                have facts := scriptTarget_eq_ok safe
                rcases Loops.bind_eq_ok.mp written with
                  ⟨parented, made, written⟩
                rcases Loops.bind_eq_ok.mp written with
                  ⟨checked, cleared, written⟩
                apply Loops.bind_eq_ok.mpr
                refine ⟨parented, scriptParentDirs_ok _ made, ?_⟩
                exact scriptFile_ok facts.2.2.1 facts.2.2.2 rootDir made
                  cleared written
  · cases written
  · cases written
  · cases written

theorem scriptSymlinkEntry_ok
    {host : ScriptHost} {item : RelPath × ManifestEntry}
    (written :
      scriptSymlinkEntry host restoreRoot fs (item.1, item.2.toScript) =
        .ok next) :
    restoreSymlinkEntry fs item = .ok next := by
  rcases item with ⟨relpath, entry⟩
  rcases entry with ⟨hash, mode, size, mtimeNs⟩ | ⟨_ | linkTarget⟩ | _ | _
  · cases written
  · cases written
  · rw [ManifestEntry.toScript, scriptSymlinkEntry] at written
    rw [restoreSymlinkEntry]
    dsimp only at written ⊢
    split at written
    · cases written
    · next named =>
        rw [if_neg named]
        cases safe : scriptTarget restoreRoot relpath with
        | error failure =>
            rw [safe] at written
            cases written
        | ok target =>
            rw [safe] at written
            rw [scriptTarget_restoreRoot relpath safe]
            dsimp only at written ⊢
            rcases Loops.bind_eq_ok.mp written with ⟨parented, made, written⟩
            rcases Loops.bind_eq_ok.mp written with
              ⟨removed, gone, created⟩
            apply Loops.bind_eq_ok.mpr
            refine ⟨parented, scriptParentDirs_ok _ made, ?_⟩
            rw [removeTree_ok (by simp [restoreRoot]) gone,
              createAt_ok created]
            rfl
  · cases written
  · cases written

theorem scriptCheckEntry_ok
    {item : RelPath × ManifestEntry}
    (checked : scriptCheckEntry fs (item.1, item.2.toScript) = .ok next) :
    restoreCheckEntry fs item = .ok next := by
  rcases item with ⟨relpath, entry⟩
  rw [scriptCheckEntry] at checked
  rw [restoreCheckEntry]
  split at checked
  · next preserved =>
      rw [if_pos preserved]
      cases checked
      rfl
  · next other =>
      rw [if_neg other]
      cases entry with
      | file hash mode size mtimeNs =>
          cases checked
          rfl
      | symlink target =>
          cases checked
          rfl
      | unknownType => cases checked
      | notDict => cases checked

theorem isScriptFile_toScript (item : RelPath × ManifestEntry) :
    isScriptFile (item.1, item.2.toScript) = isFileEntry item := by
  rcases item with ⟨relpath, entry⟩
  cases entry <;> rfl

theorem isScriptSymlink_toScript (item : RelPath × ManifestEntry) :
    isScriptSymlink (item.1, item.2.toScript) = isSymlinkEntry item := by
  rcases item with ⟨relpath, entry⟩
  cases entry <;> rfl

theorem scriptWrites_ok
    {host : ScriptHost} {manifest : Manifest}
    (rootDir : fs.get restoreRoot = some .dir)
    (written :
      scriptWrites host restoreRoot
        (manifest.entries.items.map fun item => (item.1, item.2.toScript))
        fs = .ok next) :
    restoreWrites host.blobs manifest fs = .ok next ∧
      next.get restoreRoot = some .dir := by
  rw [scriptWrites, List.filter_map, List.filter_map] at written
  have files :
      (isScriptFile ∘ fun item : RelPath × ManifestEntry =>
        (item.1, item.2.toScript)) = isFileEntry :=
    funext isScriptFile_toScript
  have links :
      (isScriptSymlink ∘ fun item : RelPath × ManifestEntry =>
        (item.1, item.2.toScript)) = isSymlinkEntry :=
    funext isScriptSymlink_toScript
  rw [files, links] at written
  rcases Loops.bind_eq_ok.mp written with ⟨filed, first, second⟩
  have filesDone :=
    foldlM_ok_of_steps (restoreFileEntry host.blobs) _
      (fun state after item stateDir stepped =>
        ⟨scriptFileEntry_ok stateDir stepped,
          root_of_ends stateDir
            (scriptFileEntry_keeps host (by decide) stateDir
              fun target safe =>
                sparesTarget_outside restoreRoot state
                  (scriptTarget_eq_ok safe).2.2.1) stepped⟩)
      _ rootDir first
  have linksDone :=
    foldlM_ok_of_steps restoreSymlinkEntry _
      (fun state after item stateDir stepped =>
        ⟨scriptSymlinkEntry_ok stepped,
          root_of_ends stateDir
            (scriptSymlinkEntry_keeps host (by decide) stateDir
              fun target safe =>
                sparesTarget_outside restoreRoot state
                  (scriptTarget_eq_ok safe).2.2.1) stepped⟩)
      _ filesDone.2 second
  constructor
  · rw [restoreWrites]
    exact Loops.bind_eq_ok.mpr ⟨filed, filesDone.1, linksDone.1⟩
  · exact linksDone.2

theorem scriptRemovals_ok
    {clearRoot : Bool} {manifest : Manifest}
    (rootDir : fs.get restoreRoot = some .dir)
    (removed :
      scriptRemovals restoreRoot clearRoot manifest.deletedPaths fs =
        .ok next) :
    restoreRemovals clearRoot manifest fs = .ok next := by
  rw [scriptRemovals] at removed
  rw [restoreRemovals]
  cases clearRoot with
  | true =>
      cases removed
      rfl
  | false =>
      rw [if_neg (by decide)] at removed ⊢
      apply And.left
      apply foldlM_ok_of_steps _ id _ _ rootDir
      · rw [List.map_id]
        exact removed
      · intro state after relpath stateDir stepped
        have survives :=
          scriptDeletedPath_root relpath (by decide) stateDir
        rw [id_eq] at stepped
        rw [stepped] at survives
        exact ⟨scriptDeletedPath_ok stepped, survives⟩

end Collector

/-! ## The whole script -/

section Whole

variable {host : ScriptHost} {clearRoot : Bool} {manifest : Manifest}
  {fs after : Fs FileData}

theorem SafePaths.checkPaths
    (safe :
      SafePaths restoreRoot
        (manifest.entries.items.map fun item => (item.1, item.2.toScript))
        (manifest.deletedPaths.map some)) :
    (manifest.entries.keys ++ manifest.deletedPaths).foldlM
      restoreCheckPath fs = .ok fs := by
  rcases
    Loops.foldlM_total restoreCheckPath (fun _ state => state = fs)
      (manifest.entries.keys ++ manifest.deletedPaths) fs rfl (by
        rintro _ relpath member _ rfl
        refine ⟨_, ?_, rfl⟩
        have listed :
            some relpath ∈
              (manifest.entries.items.map fun item =>
                  (item.1, item.2.toScript)).map (some ·.1) ++
                manifest.deletedPaths.map some := by
          rcases List.mem_append.mp member with key | deleted
          · apply List.mem_append_left
            rcases Option.isSome_iff_exists.mp
              ((manifest.entries.mem_keys relpath).mp key) with ⟨entry, got⟩
            have item := (Dict.mem_items _ relpath entry).mpr got
            rw [List.map_map]
            exact List.mem_map_of_mem item
          · exact List.mem_append_right _ (List.mem_map_of_mem deleted)
        rcases safe (some relpath) listed with ⟨_, same, _, good⟩
        cases same
        rcases safeTarget_of_not_unsafe good with ⟨target, found⟩
        rw [restoreCheckPath, found]) with ⟨_, checked, rfl⟩
  exact checked

/-- Where the script succeeds, so does the restore of the manifest. -/
theorem scriptBody_ok
    (directory : fs.lstat restoreRoot = some .dir)
    (finished :
      scriptBody host restoreRoot clearRoot manifest.toScript fs =
        .ok after) :
    restoreCasManifest host.blobs clearRoot manifest fs = .ok after := by
  rw [scriptBody_eq host clearRoot _ directory] at finished
  split at finished
  · cases finished
  · next own =>
      rw [not_not] at own
      have rootDir := fs.resolveDir_dir own
      cases read : scriptManifest restoreRoot manifest.toScript with
      | error failure =>
          rw [read] at finished
          cases finished
      | ok found =>
          rcases found with ⟨entries, paths⟩
          rw [read] at finished
          rcases scriptManifest_eq_ok read with ⟨deleted, same, rfl, safe⟩
          cases same
          have listed :
              (manifest.deletedPaths.map some).reduceOption =
                manifest.deletedPaths := by
            simp [List.reduceOption, List.filterMap_map]
          dsimp only at finished
          rw [listed, scriptApply] at finished
          rcases Loops.bind_eq_ok.mp finished with
            ⟨cleared, removed, finished⟩
          rcases Loops.bind_eq_ok.mp finished with
            ⟨checked, passed, finished⟩
          rcases Loops.bind_eq_ok.mp finished with
            ⟨restored, written, finished⟩
          have clearedDir : cleared.get restoreRoot = some .dir := by
            have survives :=
              scriptRemovals_root (by decide) manifest.deletedPaths rootDir
                clearRoot
            rw [removed] at survives
            exact survives
          have entriesChecked :=
            foldlM_ok_of_steps restoreCheckEntry _
              (fun state next item stateDir stepped =>
                ⟨scriptCheckEntry_ok stepped, by
                  have same := scriptCheckEntry_finalState state
                    (item.1, item.2.toScript)
                  rw [stepped] at same
                  rw [← stateDir, ← same]
                  rfl⟩)
              _ clearedDir passed
          have writesDone := scriptWrites_ok entriesChecked.2 written
          split at finished
          · cases finished
            rw [restoreCasManifest]
            simp only [prepareRoot_of_dir rootDir, own, ne_eq,
              not_true_eq_false, if_false, safe.checkPaths,
              scriptRemovals_ok rootDir removed, entriesChecked.1,
              writesDone.1, writesDone.2, bind, Except.bind, pure,
              Except.pure, isDirectory, if_true]
          · cases finished

/-- The script of the manifest, and then the removal of its file. -/
theorem restoreScript_ok
    (manifestPath : Path) (directory : fs.lstat restoreRoot = some .dir)
    (finished :
      restoreScript host restoreRoot clearRoot manifest.toScript manifestPath
        fs = .ok after) :
    ∃ restored,
      restoreCasManifest host.blobs clearRoot manifest fs = .ok restored ∧
        unlinkManifest manifestPath restored = .ok after := by
  rw [restoreScript] at finished
  rcases Loops.bind_eq_ok.mp finished with ⟨restored, body, unlinked⟩
  exact ⟨restored, scriptBody_ok directory body, unlinked⟩

end Whole

end AgentSchedBench.Checkpoint
