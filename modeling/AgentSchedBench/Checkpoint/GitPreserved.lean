import AgentSchedBench.Checkpoint.ScriptRefinement

/-!
# Restores and repositories

The collector skips `.git` directories at every depth, so a restore can bring
nothing of them back.  The restore script keeps only the `.git` at the top of
its root: clearing takes the nested ones, and so does every directory that is
deleted or replaced.

`restoreRun_keeps_git` is the run theorem: a chain of restores each of which
removes no repository and records no path of one leaves all of them alone,
also when it fails.
-/

namespace AgentSchedBench.Checkpoint

open FileSystem Outcomes

/-! ## Chains of restores -/

/-- A path with a `.git` component. -/
def GitPath (path : Path) : Prop :=
  ".git" ∈ path

/-- One restore of a chain: does it clear, and which manifest is it. -/
def restoreStep
    (host : ScriptHost) (fs : Fs FileData) (step : Bool × ScriptDocument) :
    ScriptResult :=
  scriptBody host restoreRoot step.1 step.2 fs

/-- The restores of a chain one after the other. -/
def restoreRun
    (host : ScriptHost) (steps : List (Bool × ScriptDocument))
    (fs : Fs FileData) : ScriptResult :=
  steps.foldlM (restoreStep host) fs

/-- The deleted path leads to no directory around or in a repository. -/
def LeadsOffGit (fs : Fs FileData) (relpath : RelPath) : Prop :=
  ∀ place, deletedPlace restoreRoot fs relpath = some place →
    (fs.get place).isSome →
      ∀ path, GitPath path → place <+: path → fs.get path = none

/-- What a manifest removes and writes is apart from all repositories. -/
structure SparesGit
    (clearRoot : Bool) (entries : List (RelPath × ScriptEntry))
    (deleted : List RelPath) (fs : Fs FileData) : Prop where
  cleared :
    clearRoot = true →
      ∀ path, GitPath path →
        Fs.clearedBelow restoreRoot checkpointSkipDirs path = true →
          fs.get path = none
  deleted :
    clearRoot = false →
      AllSteps (scriptDeletedPath restoreRoot) LeadsOffGit
        (deepestFirst deleted) fs
  written :
    ∀ item ∈ entries, isPreservedRelpath item.1 = false → ".git" ∉ item.1
  replaced :
    ∀ item ∈ entries, isPreservedRelpath item.1 = false →
      ∀ target, scriptTarget restoreRoot item.1 = .ok target →
        ∀ path, GitPath path → restoreRoot ++ target <+: path →
          fs.get path = none

/-- The restore of an accepted manifest spares the repositories. -/
def StepSparesGit
    (host : ScriptHost) (fs : Fs FileData) (step : Bool × ScriptDocument) :
    Prop :=
  ∀ entries deleted prepared,
    step.2 = .object (some entries) (some deleted) →
      SafePaths restoreRoot entries deleted →
        scriptRoot host restoreRoot fs = .ok prepared →
          SparesGit step.1 entries deleted.reduceOption prepared

/-! ## Making the root -/

section Root

variable (host : ScriptHost) (fs : Fs FileData)

theorem not_gitPath_restoreRoot : ¬ GitPath restoreRoot := by
  rw [GitPath]
  decide

theorem makeDirs_keeps_git :
    Ends (Fs.AgreesOn GitPath fs) (Fs.AgreesOn GitPath fs)
      (makeDirs host fs [] restoreRoot) := by
  rw [restoreRoot, makeDirs]
  split
  · exact Fs.AgreesOn.refl _ fs
  · split
    · have made :=
        createAt_child host "testbed" (by decide) fs.root_dir
          not_gitPath_restoreRoot .dir
      apply (made.mono _ _).bind
      · intro state agrees
        exact agrees
      · intro state agrees
        exact agrees.mono fun _ inside => Or.inl inside
      · intro state agrees
        exact agrees.mono fun _ inside => Or.inl inside
    · exact Fs.AgreesOn.refl _ fs

theorem scriptRoot_eq (located : fs.locate restoreRoot = some restoreRoot) :
    scriptRoot host restoreRoot fs =
      match fs.get restoreRoot with
      | some .dir => .ok fs
      | some _ => makeDirs host (fs.removeAt restoreRoot) [] restoreRoot
      | none => makeDirs host fs [] restoreRoot := by
  rw [scriptRoot, Fs.lstat, located]
  rfl

theorem scriptRoot_keeps_git :
    Ends (Fs.AgreesOn GitPath fs) (Fs.AgreesOn GitPath fs)
      (scriptRoot host restoreRoot fs) := by
  have located : fs.locate restoreRoot = some restoreRoot :=
    fs.locate_child "testbed" (by decide) fs.root_dir
  have removed :
      fs.get restoreRoot ≠ some .dir →
        Fs.AgreesOn GitPath fs (fs.removeAt restoreRoot) := by
    intro notDir
    rw [Fs.removeAt, located]
    apply fs.remove_agreesOn
    intro path inside below
    apply fs.none_of_ancestor below _ notDir
    rintro rfl
    exact not_gitPath_restoreRoot inside
  have remade :
      fs.get restoreRoot ≠ some .dir →
        Ends (Fs.AgreesOn GitPath fs) (Fs.AgreesOn GitPath fs)
          (makeDirs host (fs.removeAt restoreRoot) [] restoreRoot) := by
    intro notDir
    apply (makeDirs_keeps_git host (fs.removeAt restoreRoot)).mono
    · intro state agrees
      exact (removed notDir).trans agrees
    · intro state agrees
      exact (removed notDir).trans agrees
  rw [scriptRoot_eq host fs located]
  cases found : fs.get restoreRoot with
  | none => exact makeDirs_keeps_git host fs
  | some object =>
      cases object with
      | dir => exact Fs.AgreesOn.refl _ fs
      | file data => exact remade (by simp [found])
      | symlink target => exact remade (by simp [found])
      | special => exact remade (by simp [found])

end Root

/-! ## One restore -/

section Step

variable (host : ScriptHost) {clearRoot : Bool}
  {entries : List (RelPath × ScriptEntry)} {deleted : List RelPath}
  {fs : Fs FileData}

theorem scriptDeletedPath_keeps_git
    {relpath : RelPath} (off : LeadsOffGit fs relpath) :
    Ends (Fs.AgreesOn GitPath fs) (Fs.AgreesOn GitPath fs)
      (scriptDeletedPath restoreRoot fs relpath) := by
  rcases scriptDeletedPath_cases restoreRoot fs relpath with
    ⟨_, untouched⟩ | ⟨target, _, _, led, removal⟩
  · apply ends_of_finalState
    rw [untouched]
    exact Fs.AgreesOn.refl _ fs
  · rw [removal]
    apply removeTree_agreesOn
    intro place located present
    exact off place (led.trans located) present

/-- The removals keep the repositories, and the root when they succeed. -/
theorem scriptRemovals_keeps_git
    (rootDir : fs.get restoreRoot = some .dir)
    (spares : SparesGit clearRoot entries deleted fs) :
    Ends (Fs.AgreesOn GitPath fs)
      (fun next =>
        Fs.AgreesOn GitPath fs next ∧ next.get restoreRoot = some .dir)
      (scriptRemovals restoreRoot clearRoot deleted fs) := by
  have survives :=
    scriptRemovals_root (by decide) deleted rootDir clearRoot
  have keeps :
      Ends (Fs.AgreesOn GitPath fs) (Fs.AgreesOn GitPath fs)
        (scriptRemovals restoreRoot clearRoot deleted fs) := by
    rw [scriptRemovals]
    cases clearRoot with
    | true =>
        apply fs.clear_agreesOn
        exact spares.cleared rfl
    | false =>
        apply AllSteps.ends_foldlM (spares.deleted rfl)
        · exact Fs.AgreesOn.refl _ fs
        · intro relpath _ state agrees off
          apply (scriptDeletedPath_keeps_git off).mono
          · intro next later
            exact agrees.trans later
          · intro next later
            exact agrees.trans later
  apply (keeps.and survives).mono
  · intro next holds
    exact holds.1
  · intro next holds
    exact holds

/-- A path of a repository, or the root that is written into. -/
def GitOrRoot (path : Path) : Prop :=
  GitPath path ∨ path = restoreRoot

theorem mem_of_scriptTarget
    {root : Path} {relpath target : RelPath}
    (safe : scriptTarget root relpath = .ok target) :
    ∀ name ∈ target, name ∈ relpath := by
  rw [scriptTarget, safeTarget] at safe
  dsimp only at safe
  split_ifs at safe
  cases safe
  intro name member
  exact (List.mem_filter.mp member).1

/-- A target apart from the repositories spares them and the root. -/
theorem SparesGit.target
    (spares : SparesGit clearRoot entries deleted fs)
    {state : Fs FileData} (agrees : Fs.AgreesOn GitPath fs state)
    {item : RelPath × ScriptEntry} (member : item ∈ entries)
    (written : isPreservedRelpath item.1 = false) {target : RelPath}
    (safe : scriptTarget restoreRoot item.1 = .ok target) :
    SparesTarget GitOrRoot restoreRoot state target := by
  have nonempty := (scriptTarget_eq_ok safe).2.2.1
  constructor
  · rintro front proper isPrefix (inside | same)
    · rcases List.mem_append.mp inside with atRoot | below
      · exact not_gitPath_restoreRoot atRoot
      · apply spares.written item member written
        exact mem_of_scriptTarget safe _ (isPrefix.subset below)
    · exact proper (List.append_right_eq_self.mp same)
  · rintro other (inside | rfl) below
    · rw [agrees other inside]
      exact spares.replaced item member written target safe other inside below
    · have lengths := below.length_le
      rw [List.length_append] at lengths
      have positive := List.length_pos_iff.mpr nonempty
      omega

theorem scriptApply_keeps_git
    (rootDir : fs.get restoreRoot = some .dir)
    (spares : SparesGit clearRoot entries deleted fs) :
    Ends (Fs.AgreesOn GitPath fs) (Fs.AgreesOn GitPath fs)
      (scriptApply host restoreRoot clearRoot entries deleted fs) := by
  rw [scriptApply]
  apply (scriptRemovals_keeps_git rootDir spares).bind
  rintro state ⟨agrees, stateDir⟩
  have writes :=
    scriptApply_after_removals host (by decide)
      (Or.inr rfl) stateDir entries
      (fun item member written target safe =>
        spares.target agrees member written safe)
  apply writes.mono
  · intro next later
    exact agrees.trans (later.mono fun _ inside => Or.inl inside)
  · intro next later
    exact agrees.trans (later.mono fun _ inside => Or.inl inside)

theorem restoreStep_keeps_git
    {step : Bool × ScriptDocument} (spares : StepSparesGit host fs step) :
    Ends (Fs.AgreesOn GitPath fs) (Fs.AgreesOn GitPath fs)
      (restoreStep host fs step) := by
  have made := scriptRoot_keeps_git host fs
  rw [restoreStep, scriptBody]
  rcases prepare : scriptRoot host restoreRoot fs with
    ⟨failure, state⟩ | prepared
  · rw [prepare] at made
    exact made
  · rw [prepare] at made
    rw [bind_ok]
    split
    · exact made
    · next own =>
        rw [not_not] at own
        cases read : scriptManifest restoreRoot step.2 with
        | error failure => exact made
        | ok found =>
            rcases found with ⟨entries, paths⟩
            rcases scriptManifest_eq_ok read with ⟨deleted, same, rfl, safe⟩
            have applied :=
              scriptApply_keeps_git host (prepared.resolveDir_dir own)
                (spares entries deleted prepared same safe prepare)
            apply applied.mono
            · intro next later
              exact Fs.AgreesOn.trans made later
            · intro next later
              exact Fs.AgreesOn.trans made later

end Step

/-! ## Chains -/

/--
A chain of restores each of which spares the repositories in the tree before
it keeps every path with a `.git` component, whether it succeeds or fails.
-/
theorem restoreRun_keeps_git
    (host : ScriptHost) (steps : List (Bool × ScriptDocument))
    (fs : Fs FileData)
    (spares : AllSteps (restoreStep host) (StepSparesGit host) steps fs) :
    Fs.AgreesOn GitPath fs (finalState (restoreRun host steps fs)) := by
  apply (ends_finalState _ _).mp
  apply AllSteps.ends_foldlM spares
  · exact Fs.AgreesOn.refl _ fs
  · intro step _ state agrees stepSpares
    apply (restoreStep_keeps_git host stepSpares).mono
    · intro next later
      exact agrees.trans later
    · intro next later
      exact agrees.trans later

/-! ## A repository at the top, and a nested one -/

/-- `/testbed/.git/HEAD`, and nothing else. -/
def topRepository : Fs FileData :=
  ((Fs.empty.assign ["testbed"] .dir).assign ["testbed", ".git"]
    .dir).assign ["testbed", ".git", "HEAD"] (.file ⟨"ref", 0o644⟩)

theorem mem_topRepository
    {path : Path} (present : (topRepository.get path).isSome) :
    path = ["testbed", ".git", "HEAD"] ∨ path = ["testbed", ".git"] ∨
      path = ["testbed"] ∨ path = [] := by
  rcases Fs.isSome_of_assign _ _ present with head | present
  · exact Or.inl head
  · rcases Fs.isSome_of_assign _ _ present with git | present
    · exact Or.inr (Or.inl git)
    · rcases Fs.isSome_of_assign _ _ present with root | present
      · exact Or.inr (Or.inr (Or.inl root))
      · exact Or.inr (Or.inr (Or.inr (Fs.eq_nil_of_empty present)))

/-- One blob; nothing is refused. -/
def oneBlobHost : ScriptHost where
  blobs hash := if hash = "aa" then some "aa" else none
  refuses _ _ := false
  newFileMode := 0o644

/-- A manifest of the file `a`. -/
def oneFileManifest : ScriptDocument :=
  .object (some [(["a"], .file (some "aa") (some (some 0o644)) true)])
    (some [])

/-- A full restore keeps the repository at the top of the root. -/
theorem restoreRun_keeps_top_git :
    Fs.AgreesOn GitPath topRepository
      (finalState
        (restoreRun oneBlobHost [(true, oneFileManifest)] topRepository)) := by
  apply restoreRun_keeps_git
  constructor
  · intro entries deleted prepared same _ made
    have directory : topRepository.lstat restoreRoot = some .dir := by
      decide +kernel
    rw [scriptRoot, directory] at made
    cases made
    cases same
    constructor
    · intro _ path _ cleared
      by_contra present
      rcases mem_topRepository (Option.isSome_iff_ne_none.mpr present) with
        rfl | rfl | rfl | rfl
      all_goals exact absurd cleared (by decide)
    · intro impossible
      cases impossible
    · intro item member _
      rw [List.mem_singleton] at member
      rw [member]
      decide
    · intro item member _ target safe path _ below
      rw [List.mem_singleton] at member
      rw [member] at safe
      have isA : target = ["a"] := by
        have computed :
            scriptTarget restoreRoot ["a"] = .ok ["a"] := by decide
        exact Except.ok.inj (safe.symm.trans computed)
      rw [isA] at below
      by_contra present
      rcases mem_topRepository (Option.isSome_iff_ne_none.mpr present) with
        rfl | rfl | rfl | rfl
      all_goals exact absurd below (by decide)
  · intro next _
    trivial

/-- The file `a` beside a repository in `vendor`. -/
def vendoredTree : Tree :=
  Tree.ofObjects
    [(["a"], .file ⟨"aa", 0o644⟩, ⟨1, 1⟩), (["vendor"], .dir, ⟨0, 0⟩),
      (["vendor", ".git"], .dir, ⟨0, 0⟩),
      (["vendor", ".git", "HEAD"], .file ⟨"ref", 0o644⟩, ⟨1, 1⟩)]
    (fun _ => false) (by decide +kernel)

/-- The container's file system with that tree at its root. -/
def vendoredRoot : Fs FileData :=
  ((((Fs.empty.assign ["testbed"] .dir).assign ["testbed", "a"]
    (.file ⟨"aa", 0o644⟩)).assign ["testbed", "vendor"] .dir).assign
      ["testbed", "vendor", ".git"] .dir).assign
        ["testbed", "vendor", ".git", "HEAD"] (.file ⟨"ref", 0o644⟩)

theorem vendoredRoot_get (path : RelPath) :
    vendoredRoot.get (restoreRoot ++ path) = vendoredTree.get path := by
  by_cases listed :
      path ∈ [[], ["a"], ["vendor"], ["vendor", ".git"],
        ["vendor", ".git", "HEAD"]]
  · revert path
    decide +kernel
  · simp only [List.mem_cons, List.not_mem_nil, or_false, not_or] at listed
    rcases listed with ⟨notRoot, notA, notVendor, notGit, notHead⟩
    rw [vendoredRoot, restoreRoot]
    rw [Fs.get_assign_of_ne _ _ (by simpa using notHead),
      Fs.get_assign_of_ne _ _ (by simpa using notGit),
      Fs.get_assign_of_ne _ _ (by simpa using notVendor),
      Fs.get_assign_of_ne _ _ (by simpa using notA),
      Fs.get_assign_of_ne _ _ (by simpa using notRoot)]
    simp [Fs.empty, vendoredTree, Tree.ofObjects, objectAt, notRoot,
      Ne.symm notA, Ne.symm notVendor, Ne.symm notGit, Ne.symm notHead]

/-- Restoring what is recorded of a tree on that tree loses a repository. -/
theorem nested_git_lost :
    ∃ manifest state,
      writeCasManifest vendoredTree none [] none (fun _ => none)
          (fun _ => none) = .ok (manifest, state) ∧
        (∀ path, vendoredRoot.get (restoreRoot ++ path) =
          vendoredTree.get path) ∧
        ¬ Fs.AgreesOn GitPath vendoredRoot
          (finalState
            (restoreRun
              { blobs := state.blobs
                refuses := fun _ _ => false
                newFileMode := 0o644 }
              [(true, manifest.toScript)] vendoredRoot)) := by
  refine ⟨_, _, rfl, vendoredRoot_get, ?_⟩
  intro keeps
  have kept := keeps ["testbed", "vendor", ".git", "HEAD"] (by
    rw [GitPath]
    decide)
  revert kept
  decide +kernel

end AgentSchedBench.Checkpoint
