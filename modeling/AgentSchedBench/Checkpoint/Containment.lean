import AgentSchedBench.Checkpoint.ScriptFrames

/-!
# The restore script and its root

The writes of the script check every directory above their target, so they
stay below the root.  The loop over `deleted_paths` does not: a path that
leads through a symbolic link is deleted where the link points.
`restore_contained_iff` says exactly when the script stays inside its root,
for every root, tree and document.
-/

namespace AgentSchedBench.Checkpoint

open FileSystem Outcomes

/-! ## Removals of trees -/

/-- A removal makes nothing appear. -/
theorem removeTree_shrinks
    (fs : Fs FileData) (path : Path) (kept : Path → Prop) :
    Ends (Fs.Shrinks kept fs) (Fs.Shrinks kept fs) (removeTree fs path) := by
  rw [removeTree]
  cases located : fs.locate path with
  | none => exact Fs.Shrinks.refl kept fs
  | some place =>
      dsimp only
      cases found : fs.get place with
      | none => exact Fs.Shrinks.refl kept fs
      | some object =>
          cases object with
          | dir =>
              dsimp only
              split
              · exact (fs.clear_shrinks kept place []).trans
                  (Fs.remove_shrinks _ kept place)
              · exact fs.clear_shrinks kept place []
          | file data => exact fs.remove_shrinks kept place
          | symlink target => exact fs.remove_shrinks kept place
          | special => exact fs.remove_shrinks kept place

theorem clear_eq_self
    (fs : Fs FileData) {place : Path}
    (empty : ∀ other, StrictlyBelow place other → fs.get other = none) :
    fs.clear place [] = fs := by
  apply Fs.ext
  intro other
  rw [fs.get_clear]
  split
  · next cleared =>
      exact (empty other ((Fs.clearedBelow_all_iff place other).mp cleared)).symm
  · rfl

/-- A removal that finds something takes something away. -/
theorem removeTree_removes
    (fs : Fs FileData) {path place : Path} (nonempty : path ≠ [])
    (located : fs.locate path = some place)
    (present : (fs.get place).isSome) :
    ∃ other, place <+: other ∧ (fs.get other).isSome ∧
      (finalState (removeTree fs path)).get other = none := by
  have placeNonempty := fs.locate_ne_nil nonempty located
  rw [removeTree, located]
  dsimp only
  cases found : fs.get place with
  | none => simp [found] at present
  | some object =>
      have removed :
          ∃ other, place <+: other ∧ (fs.get other).isSome ∧
            (fs.remove place).get other = none := by
        refine ⟨place, List.prefix_refl place, present, ?_⟩
        exact fs.get_remove_of_isPrefix placeNonempty (List.prefix_refl _)
      cases object with
      | file data => exact removed
      | symlink target => exact removed
      | special => exact removed
      | dir =>
          dsimp only
          split
          · refine ⟨place, List.prefix_refl place, present, ?_⟩
            exact Fs.get_remove_of_isPrefix _ placeNonempty
              (List.prefix_refl _)
          · next lost =>
              -- an empty directory would still be where its path leads
              by_contra untouched
              push Not at untouched
              apply lost
              rw [clear_eq_self fs, located]
              intro other below
              by_contra there
              apply untouched other below.1
                (Option.isSome_iff_ne_none.mpr there)
              change (fs.clear place []).get other = none
              rw [fs.get_clear,
                if_pos ((Fs.clearedBelow_all_iff place other).mpr below)]

/-- No path from an empty directory leads back to it. -/
theorem locate_ne_empty_dir
    (fs : Fs FileData) {place rest : Path} (nonempty : rest ≠ [])
    (valid : ValidPath (place ++ rest))
    (placeDir : fs.get place = some .dir)
    (empty : ∀ other, StrictlyBelow place other → fs.get other = none) :
    fs.locate (place ++ rest) ≠ some place := by
  intro located
  have placeValid : ValidPath place := by
    intro name member
    exact valid name (List.mem_append_left rest member)
  induction rest using List.reverseRecOn with
  | nil => exact nonempty rfl
  | append_singleton front name _ =>
      cases front with
      | nil =>
          rw [List.nil_append, fs.locate_child name placeValid placeDir]
            at located
          simp at located
      | cons first middle =>
          have missing : fs.get (place ++ [first]) = none :=
            empty _ (strictlyBelow_append (by simp))
          have frontValid : ValidPath (place ++ first :: middle) := by
            intro other member
            apply valid other
            rw [← List.append_assoc]
            exact List.mem_append_left [name] member
          have lost :=
            fs.resolveDir_missing first middle [] frontValid placeDir missing
          rw [List.append_nil] at lost
          rw [← List.append_assoc, fs.locate_concat, lost] at located
          cases located

/-- Emptying a directory on the way of the path loses the path. -/
theorem removeTree_on_way
    (fs : Fs FileData) {place rest : Path} (nonempty : rest ≠ [])
    (valid : ValidPath (place ++ rest))
    (placeDir : fs.get place = some .dir)
    (located : fs.locate (place ++ rest) = some place) :
    removeTree fs (place ++ rest) =
      .error (.osError (place ++ rest), fs.clear place []) := by
  have emptiedDir : (fs.clear place []).get place = some .dir := by
    rw [fs.get_clear, if_neg, placeDir]
    rw [Fs.clearedBelow_all_iff]
    intro below
    exact below.2 rfl
  have empty :
      ∀ other, StrictlyBelow place other →
        (fs.clear place []).get other = none := by
    intro other below
    rw [fs.get_clear, if_pos ((Fs.clearedBelow_all_iff place other).mpr below)]
  rw [removeTree, located]
  dsimp only
  rw [placeDir]
  dsimp only
  rw [if_neg]
  exact locate_ne_empty_dir _ nonempty valid emptiedDir empty

/-! ## Deleted paths -/

/-- What does not lie strictly below the root. -/
def Outside (root path : Path) : Prop :=
  ¬ StrictlyBelow root path

theorem root_outside (root : Path) : Outside root root :=
  fun below => below.2 rfl

/-- Where a deleted path leads. -/
def deletedPlace (root : Path) (fs : Fs FileData) (relpath : RelPath) :
    Option Path :=
  if isPreservedRelpath relpath then none
  else
    match scriptTarget root relpath with
    | .error _ => none
    | .ok target => fs.locate (root ++ target)

/-- A deleted path leads to nothing or into the root. -/
def LeadsInside (root : Path) (fs : Fs FileData) (relpath : RelPath) : Prop :=
  ∀ place, deletedPlace root fs relpath = some place →
    (fs.get place).isSome → root <+: place

/-- Each path, when its turn comes, leads to nothing or into the root. -/
def DeletesInside
    (root : Path) (paths : List RelPath) (fs : Fs FileData) : Prop :=
  AllSteps (scriptDeletedPath root) (LeadsInside root) paths fs

section Deletions

variable {root : Path} {fs : Fs FileData} {relpath : RelPath}

/-- A deletion does nothing, or is the removal of one path below the root. -/
theorem scriptDeletedPath_cases
    (root : Path) (fs : Fs FileData) (relpath : RelPath) :
    (deletedPlace root fs relpath = none ∧
      finalState (scriptDeletedPath root fs relpath) = fs) ∨
    ∃ target, target ≠ [] ∧ ValidPath target ∧
      deletedPlace root fs relpath = fs.locate (root ++ target) ∧
      scriptDeletedPath root fs relpath = removeTree fs (root ++ target) := by
  rw [deletedPlace, scriptDeletedPath]
  split
  · exact Or.inl ⟨rfl, rfl⟩
  · cases safe : scriptTarget root relpath with
    | error failure => exact Or.inl ⟨rfl, rfl⟩
    | ok target =>
        have facts := scriptTarget_eq_ok safe
        exact Or.inr ⟨target, facts.2.2.1, facts.2.2.2, rfl, rfl⟩

/-- A deletion that succeeds has kept the root. -/
theorem scriptDeletedPath_root
    (relpath : RelPath) (valid : ValidPath root)
    (rootDir : fs.get root = some .dir) :
    Ends (fun _ => True) (fun next => next.get root = some .dir)
      (scriptDeletedPath root fs relpath) := by
  rcases scriptDeletedPath_cases root fs relpath with
    ⟨_, untouched⟩ | ⟨target, nonempty, targetValid, _, removal⟩
  · rcases finished : scriptDeletedPath root fs relpath with
      ⟨failure, state⟩ | state
    · trivial
    · rw [finished] at untouched
      change state.get root = some .dir
      rw [← rootDir, ← untouched]
      rfl
  · rw [removal]
    by_cases above :
        ∃ place, fs.locate (root ++ target) = some place ∧ place <+: root ∧
          (fs.get place).isSome
    · rcases above with ⟨place, located, ⟨rest, rfl⟩, present⟩
      have placeDir : fs.get place = some .dir := by
        rcases eq_or_ne rest [] with rfl | proper
        · simpa using rootDir
        · apply fs.dir_of_ancestor proper
          rw [rootDir]
          rfl
      rw [List.append_assoc] at located ⊢
      rw [removeTree_on_way fs (by simp [nonempty]) _ placeDir located]
      · trivial
      · rw [← List.append_assoc]
        exact validPath_append valid targetValid
    · have kept :
          Ends (Fs.AgreesOn (· = root) fs) (Fs.AgreesOn (· = root) fs)
            (removeTree fs (root ++ target)) :=
        removeTree_agreesOn fs (root ++ target) (by
          rintro place located present other rfl below
          exact (above ⟨place, located, below, present⟩).elim)
      apply kept.mono
      · intro _ _
        trivial
      · intro next agrees
        rw [agrees root rfl]
        exact rootDir

/-- A deletion that leads into the root changes nothing outside it. -/
theorem scriptDeletedPath_inside
    (valid : ValidPath root) (rootDir : fs.get root = some .dir)
    (inside : LeadsInside root fs relpath) :
    Ends (Fs.AgreesOn (Outside root) fs) (Fs.AgreesOn (Outside root) fs)
      (scriptDeletedPath root fs relpath) := by
  rcases scriptDeletedPath_cases root fs relpath with
    ⟨_, untouched⟩ | ⟨target, nonempty, targetValid, led, removal⟩
  · apply ends_of_finalState
    rw [untouched]
    exact Fs.AgreesOn.refl _ fs
  · rw [removal]
    by_cases onRoot : fs.locate (root ++ target) = some root
    · rw [removeTree_on_way fs nonempty (validPath_append valid targetValid)
        rootDir onRoot]
      apply fs.clear_agreesOn
      intro other outside cleared
      exact (outside (Fs.strictlyBelow_of_clearedBelow cleared)).elim
    · apply removeTree_agreesOn
      intro place located present other outside below
      have apart : place ≠ root := by
        rintro rfl
        exact onRoot located
      have placeBelow : StrictlyBelow root place :=
        ⟨inside place (led.trans located) present, apart⟩
      exact (outside (placeBelow.extend below)).elim

/-- A deletion that leads elsewhere takes something away there. -/
theorem scriptDeletedPath_leaves
    {place : Path} (valid : ValidPath root)
    (rootDir : fs.get root = some .dir)
    (led : deletedPlace root fs relpath = some place)
    (present : (fs.get place).isSome) (elsewhere : ¬ root <+: place) :
    ∃ other, Outside root other ∧ (fs.get other).isSome ∧
      (finalState (scriptDeletedPath root fs relpath)).get other = none := by
  rcases scriptDeletedPath_cases root fs relpath with
    ⟨nothing, _⟩ | ⟨target, nonempty, targetValid, leads, removal⟩
  · rw [nothing] at led
    cases led
  · rw [led] at leads
    rw [removal]
    by_cases above : place <+: root
    · -- the root goes with a directory above it
      rcases above with ⟨rest, rfl⟩
      have proper : rest ≠ [] := by
        rintro rfl
        exact elsewhere (by simp)
      have placeDir : fs.get place = some .dir := by
        apply fs.dir_of_ancestor proper
        rw [rootDir]
        rfl
      refine ⟨place ++ rest, root_outside _, by simp [rootDir], ?_⟩
      rw [List.append_assoc] at leads ⊢
      rw [removeTree_on_way fs (by simp [nonempty]) _ placeDir leads.symm]
      · change (fs.clear place []).get (place ++ rest) = none
        rw [fs.get_clear,
          if_pos ((Fs.clearedBelow_all_iff _ _).mpr
            (strictlyBelow_append proper))]
      · rw [← List.append_assoc]
        exact validPath_append valid targetValid
    · rcases removeTree_removes fs
        (List.append_ne_nil_of_right_ne_nil root nonempty)
        leads.symm present with ⟨other, below, there, gone⟩
      refine ⟨other, ?_, there, gone⟩
      intro strictly
      rcases List.prefix_or_prefix_of_prefix below strictly.1 with higher | lower
      · exact above higher
      · exact elsewhere lower

/-- The loop over the deleted paths, when each of them leads into the root. -/
theorem deletions_inside
    (valid : ValidPath root) (paths : List RelPath)
    (rootDir : fs.get root = some .dir)
    (inside : DeletesInside root paths fs) :
    Ends (Fs.AgreesOn (Outside root) fs) (Fs.AgreesOn (Outside root) fs)
      (paths.foldlM (scriptDeletedPath root) fs) := by
  apply AllSteps.ends_foldlM inside
  · exact Fs.AgreesOn.refl _ fs
  · intro relpath _ state agrees here
    have stateDir : state.get root = some .dir := by
      rw [agrees root (root_outside root)]
      exact rootDir
    apply (scriptDeletedPath_inside valid stateDir here).mono
    · intro next later
      exact agrees.trans later
    · intro next later
      exact agrees.trans later

/-- The loop makes nothing appear, and keeps the root when it succeeds. -/
theorem deletions_shrink
    (valid : ValidPath root) (paths : List RelPath)
    (rootDir : fs.get root = some .dir) (kept : Path → Prop) :
    Ends (Fs.Shrinks kept fs)
      (fun next => Fs.Shrinks kept fs next ∧ next.get root = some .dir)
      (paths.foldlM (scriptDeletedPath root) fs) := by
  apply ends_foldlM
  · exact ⟨Fs.Shrinks.refl kept fs, rootDir⟩
  · intro relpath _ state holds
    have survives := scriptDeletedPath_root relpath valid holds.2
    have shrinks :
        Fs.Shrinks kept state
          (finalState (scriptDeletedPath root state relpath)) := by
      rcases scriptDeletedPath_cases root state relpath with
        ⟨_, untouched⟩ | ⟨target, _, _, _, removal⟩
      · rw [untouched]
        exact Fs.Shrinks.refl kept state
      · rw [removal]
        exact (ends_finalState _ _).mp
          (removeTree_shrinks state (root ++ target) kept)
    rcases finished : scriptDeletedPath root state relpath with
      ⟨failure, next⟩ | next
    · rw [finished] at shrinks
      exact holds.1.trans shrinks
    · rw [finished] at shrinks survives
      exact ⟨holds.1.trans shrinks, survives⟩

/-- A deletion that leads elsewhere is seen after the loop. -/
theorem deletions_leave
    (valid : ValidPath root) (paths : List RelPath)
    (rootDir : fs.get root = some .dir)
    (leaves : ¬ DeletesInside root paths fs) :
    ∃ other, Outside root other ∧ (fs.get other).isSome ∧
      (finalState (paths.foldlM (scriptDeletedPath root) fs)).get other =
        none := by
  induction paths generalizing fs with
  | nil => exact (leaves trivial).elim
  | cons relpath rest induction =>
      rw [List.foldlM_cons]
      have survives := scriptDeletedPath_root relpath valid rootDir
      by_cases here : LeadsInside root fs relpath
      · have later :
            ∃ next, scriptDeletedPath root fs relpath = .ok next ∧
              ¬ DeletesInside root rest next := by
          by_contra none
          push Not at none
          exact leaves ⟨here, none⟩
        rcases later with ⟨next, finished, leaves⟩
        rw [finished] at survives ⊢
        rcases induction survives leaves with ⟨other, outside, there, gone⟩
        refine ⟨other, outside, ?_, gone⟩
        have kept := scriptDeletedPath_inside valid rootDir here
        rw [finished] at kept
        rw [← kept other outside]
        exact there
      · rw [LeadsInside] at here
        push Not at here
        rcases here with ⟨place, led, present, elsewhere⟩
        rcases scriptDeletedPath_leaves valid rootDir led present elsewhere
          with ⟨other, outside, there, gone⟩
        refine ⟨other, outside, there, ?_⟩
        rcases finished : scriptDeletedPath root fs relpath with
          ⟨failure, state⟩ | next
        · rw [finished] at gone
          exact gone
        · rw [finished] at gone survives
          have after := deletions_shrink valid rest survives (Outside root)
          have shrunk :=
            (ends_finalState (Fs.Shrinks (Outside root) next) _).mp
              (after.mono (fun _ holds => holds) (fun _ holds => holds.1))
          exact shrunk other outside gone

end Deletions

/-! ## The script stays inside its root -/

/-- Every target below the root spares what lies outside it. -/
theorem sparesTarget_outside
    (root : Path) (fs : Fs FileData) {target : RelPath}
    (nonempty : target ≠ []) : SparesTarget (Outside root) root fs target := by
  constructor
  · intro front proper _ outside
    exact outside (strictlyBelow_append proper)
  · intro other outside below
    exact (outside ((strictlyBelow_append nonempty).extend below)).elim

section Script

variable (host : ScriptHost) {root : Path} (valid : ValidPath root)
  (entries : List (RelPath × ScriptEntry)) (deleted : List RelPath)

include valid

theorem scriptRemovals_root
    {fs : Fs FileData} (rootDir : fs.get root = some .dir)
    (clearRoot : Bool) :
    Ends (fun _ => True) (fun next => next.get root = some .dir)
      (scriptRemovals root clearRoot deleted fs) := by
  rw [scriptRemovals]
  split
  · change (fs.clear root checkpointSkipDirs).get root = some .dir
    rw [fs.get_clear, if_neg, rootDir]
    intro cleared
    exact (Fs.strictlyBelow_of_clearedBelow cleared).2 rfl
  · apply (deletions_shrink valid _ rootDir (fun _ => False)).mono
    · intro _ _
      trivial
    · intro next holds
      exact holds.2

/-- What the removals have taken away outside the root stays away. -/
theorem scriptApply_finalState
    {fs : Fs FileData} (rootDir : fs.get root = some .dir)
    (clearRoot : Bool) :
    Fs.AgreesOn (Outside root)
      (finalState (scriptRemovals root clearRoot deleted fs))
      (finalState
        (scriptApply host root clearRoot entries deleted fs)) := by
  rw [scriptApply]
  have survives := scriptRemovals_root valid deleted rootDir clearRoot
  rcases finished : scriptRemovals root clearRoot deleted fs with
    ⟨failure, state⟩ | next
  · exact Fs.AgreesOn.refl _ state
  · rw [finished] at survives
    exact (ends_finalState _ _).mp
      (scriptApply_after_removals host valid (root_outside root) survives
        entries fun item _ _ target safe =>
          sparesTarget_outside root next (scriptTarget_eq_ok safe).2.2.1)

/-- The changes stay in the root when the deletions do, and only then. -/
theorem scriptApply_inside_iff
    {fs : Fs FileData} (rootDir : fs.get root = some .dir)
    (clearRoot : Bool) :
    Fs.AgreesOn (Outside root) fs
        (finalState (scriptApply host root clearRoot entries deleted fs)) ↔
      (clearRoot = false → DeletesInside root (deepestFirst deleted) fs) := by
  have after := scriptApply_finalState host valid entries deleted rootDir
    clearRoot
  cases clearRoot with
  | true =>
      constructor
      · intro _ impossible
        cases impossible
      · intro _
        apply Fs.AgreesOn.trans _ after
        apply fs.clear_agreesOn
        intro other outside cleared
        exact (outside (Fs.strictlyBelow_of_clearedBelow cleared)).elim
  | false =>
      constructor
      · intro agrees _
        by_contra leaves
        rcases deletions_leave valid _ rootDir leaves with
          ⟨other, outside, there, gone⟩
        have missing := after other outside
        rw [agrees other outside] at missing
        rw [missing] at there
        change
          (finalState
            ((deepestFirst deleted).foldlM (scriptDeletedPath root) fs)).get
              other |>.isSome at there
        rw [gone] at there
        cases there
      · intro inside
        apply Fs.AgreesOn.trans _ after
        exact (ends_finalState _ _).mp
          (deletions_inside valid _ rootDir (inside rfl))

end Script

/-- A string among the paths of the manifest is unsafe. -/
def HasUnsafePath (document : ScriptDocument) : Prop :=
  match document with
  | .unreadable => False
  | .object entries deleted =>
      (∃ items, entries = some items ∧
        ∃ item ∈ items, UnsafePath item.1) ∨
      ∃ paths, deleted = some paths ∧
        ∃ relpath, some relpath ∈ paths ∧ UnsafePath relpath

/--
What containment asks of a run: outside the root nothing but the manifest
file changes, and a manifest with an unsafe path is refused untouched.
-/
structure Contained
    (host : ScriptHost) (root : Path) (clearRoot : Bool)
    (document : ScriptDocument) (manifestPath : Path)
    (fs : Fs FileData) : Prop where
  inside :
    Fs.AgreesOn (Outside root) fs
      (finalState (scriptBody host root clearRoot document fs))
  manifestOnly :
    finalState (restoreScript host root clearRoot document manifestPath fs) =
        finalState (scriptBody host root clearRoot document fs) ∨
      finalState (restoreScript host root clearRoot document manifestPath fs) =
        (finalState (scriptBody host root clearRoot document fs)).removeAt
          manifestPath
  rejected :
    HasUnsafePath document →
      ∃ failure,
        restoreScript host root clearRoot document manifestPath fs =
          .error (failure, fs)

/--
When the script goes on to its deletions (the root is at its own path, the
fields fit and the paths are safe) and does not clear, each deleted path
leads, when its turn comes, to nothing or into the root.
-/
def DeletionsContained
    (root : Path) (clearRoot : Bool) (document : ScriptDocument)
    (fs : Fs FileData) : Prop :=
  ∀ entries deleted, document = .object (some entries) (some deleted) →
    SafePaths root entries deleted → fs.resolveDir root = some root →
      clearRoot = false →
        DeletesInside root (deepestFirst deleted.reduceOption) fs

theorem unlinkManifest_finalState
    (manifestPath : Path) (fs : Fs FileData) :
    finalState (unlinkManifest manifestPath fs) = fs ∨
      finalState (unlinkManifest manifestPath fs) =
        fs.removeAt manifestPath := by
  rw [unlinkManifest]
  split
  · exact Or.inl rfl
  · exact Or.inl rfl
  · exact Or.inr rfl

section Containment

variable (host : ScriptHost) {root : Path} (clearRoot : Bool)
  (document : ScriptDocument) (manifestPath : Path) {fs : Fs FileData}
  (directory : fs.lstat root = some .dir)

include directory

theorem scriptBody_eq :
    scriptBody host root clearRoot document fs =
      if fs.resolveDir root ≠ some root then
        .error (.restore .symlinkRoot, fs)
      else
        match scriptManifest root document with
        | .error failure => .error (failure, fs)
        | .ok (entries, deleted) =>
            scriptApply host root clearRoot entries deleted fs := by
  rw [scriptBody, scriptRoot, directory]
  rfl

/-- A manifest with an unsafe path is refused before any change. -/
theorem scriptBody_rejects (unsafePath : HasUnsafePath document) :
    ∃ failure,
      scriptBody host root clearRoot document fs = .error (failure, fs) := by
  rw [scriptBody_eq host clearRoot document directory]
  split
  · exact ⟨_, rfl⟩
  · cases read : scriptManifest root document with
    | error failure => exact ⟨_, rfl⟩
    | ok found =>
        rcases found with ⟨entries, paths⟩
        rcases scriptManifest_eq_ok read with ⟨deleted, rfl, _, safe⟩
        rcases unsafePath with
          ⟨items, same, item, member, bad⟩ | ⟨listed, same, relpath, member, bad⟩
        · cases same
          rcases safe (some item.1)
            (List.mem_append_left _ (List.mem_map_of_mem member)) with
            ⟨_, equal, _, good⟩
          cases equal
          exact (good bad).elim
        · cases same
          rcases safe (some relpath) (List.mem_append_right _ member) with
            ⟨_, equal, _, good⟩
          cases equal
          exact (good bad).elim

theorem scriptBody_inside_iff (valid : ValidPath root) :
    Fs.AgreesOn (Outside root) fs
        (finalState (scriptBody host root clearRoot document fs)) ↔
      DeletionsContained root clearRoot document fs := by
  rw [scriptBody_eq host clearRoot document directory]
  by_cases own : fs.resolveDir root = some root
  · rw [if_neg (not_not.mpr own)]
    have rootDir := fs.resolveDir_dir own
    cases read : scriptManifest root document with
    | error failure =>
        constructor
        · intro _ entries deleted same safe
          rw [same, scriptManifest_of_safe safe] at read
          cases read
        · intro _
          exact Fs.AgreesOn.refl _ fs
    | ok found =>
        rcases found with ⟨entries, paths⟩
        rcases scriptManifest_eq_ok read with ⟨deleted, rfl, rfl, safe⟩
        change Fs.AgreesOn (Outside root) fs
          (finalState
            (scriptApply host root clearRoot entries deleted.reduceOption
              fs)) ↔ _
        rw [scriptApply_inside_iff host valid entries deleted.reduceOption
          rootDir]
        constructor
        · intro inside entries' deleted' same _ _ cleared
          cases same
          exact inside cleared
        · intro inside cleared
          exact inside entries deleted rfl safe own cleared
  · rw [if_pos own]
    constructor
    · intro _ _ _ _ _ resolved
      exact (own resolved).elim
    · intro _
      exact Fs.AgreesOn.refl _ fs

/-- The script stays inside its root exactly when its deletions do. -/
theorem restore_contained_iff (valid : ValidPath root) :
    Contained host root clearRoot document manifestPath fs ↔
      DeletionsContained root clearRoot document fs := by
  rw [← scriptBody_inside_iff host clearRoot document directory valid]
  constructor
  · intro contained
    exact contained.inside
  · intro inside
    constructor
    · exact inside
    · rw [restoreScript]
      rcases scriptBody host root clearRoot document fs with
        ⟨failure, state⟩ | state
      · exact Or.inl rfl
      · exact unlinkManifest_finalState manifestPath state
    · intro unsafePath
      rcases scriptBody_rejects host clearRoot document directory unsafePath
        with ⟨failure, refused⟩
      refine ⟨failure, ?_⟩
      rw [restoreScript, refused]
      rfl

end Containment
/-! ## A link to a directory outside -/

/-- `/etc/passwd`, and `/testbed/out` linked to `/etc`. -/
def linkedRoot : Fs FileData :=
  ((((Fs.empty.assign ["etc"] .dir).assign ["etc", "passwd"]
    (.file ⟨"root", 0o644⟩)).assign ["tmp"] .dir).assign ["testbed"]
      .dir).assign ["testbed", "out"] (.symlink ["", "etc"])

/-- No blobs; nothing is refused. -/
def emptyHost : ScriptHost where
  blobs _ := none
  refuses _ _ := false
  newFileMode := 0o644

/-- A manifest of `deleted_paths` only. -/
def deletingManifest (paths : List RelPath) : ScriptDocument :=
  .object (some []) (some (paths.map some))

/-- Clearing removes the link and leaves what it points at. -/
theorem restore_contained_cleared :
    Contained emptyHost ["testbed"] true
      (deletingManifest [["out", "passwd"]]) ["tmp", "manifest"]
      linkedRoot := by
  apply (restore_contained_iff emptyHost true _ ["tmp", "manifest"]
    (by decide +kernel) (by decide)).mpr
  intro _ _ _ _ _ cleared
  cases cleared

/-- Deleting `out/passwd` deletes `/etc/passwd`. -/
theorem not_contained_through_link :
    ¬ Contained emptyHost ["testbed"] false
      (deletingManifest [["out", "passwd"]]) ["tmp", "manifest"]
      linkedRoot := by
  intro contained
  have kept := contained.inside ["etc", "passwd"] (by
    intro below
    exact absurd below.1 (by decide))
  revert kept
  decide +kernel

end AgentSchedBench.Checkpoint
