import AgentSchedBench.Checkpoint.RestoreScript

/-!
# Frames of the restore script

What the statements of the restore script leave alone, for any set of paths:
a removal what is not below the place its path leads to, a write everything
but its target and the directories above it.
-/

namespace AgentSchedBench.Checkpoint

open FileSystem Outcomes

theorem ends_of_finalState
    {holds : Fs FileData → Prop} {result : ScriptResult}
    (final : holds (finalState result)) : Ends holds holds result :=
  (ends_finalState holds result).mpr final

/-! ## Removals of trees -/

theorem clear_remove_agreesOn
    (fs : Fs FileData) {kept : Path → Prop} {place : Path}
    (outside :
      ∀ other, kept other → place <+: other → fs.get other = none) :
    Fs.AgreesOn kept fs (fs.clear place []) ∧
      Fs.AgreesOn kept fs ((fs.clear place []).remove place) := by
  have cleared : Fs.AgreesOn kept fs (fs.clear place []) := by
    apply fs.clear_agreesOn
    intro other inside below
    exact outside other inside (Fs.strictlyBelow_of_clearedBelow below).1
  constructor
  · exact cleared
  · apply cleared.trans
    apply Fs.remove_agreesOn
    intro other inside below
    rw [cleared other inside]
    exact outside other inside below

/-- A removal touches only what lies at and below the place it leads to. -/
theorem removeTree_agreesOn
    (fs : Fs FileData) (path : Path) {kept : Path → Prop}
    (outside :
      ∀ place, fs.locate path = some place → (fs.get place).isSome →
        ∀ other, kept other → place <+: other → fs.get other = none) :
    Ends (Fs.AgreesOn kept fs) (Fs.AgreesOn kept fs)
      (removeTree fs path) := by
  rw [removeTree]
  cases located : fs.locate path with
  | none => exact Fs.AgreesOn.refl kept fs
  | some place =>
      have apart := outside place located
      dsimp only
      cases found : fs.get place with
      | none => exact Fs.AgreesOn.refl kept fs
      | some object =>
          have away := apart (by simp [found])
          cases object with
          | dir =>
              have both := clear_remove_agreesOn fs away
              dsimp only
              split
              · exact both.2
              · exact both.1
          | file data => exact fs.remove_agreesOn away
          | symlink target => exact fs.remove_agreesOn away
          | special => exact fs.remove_agreesOn away

/-! ## Writes -/

/-- Writing at the target removes and replaces nothing of the set. -/
structure SparesTarget
    (kept : Path → Prop) (root : Path) (fs : Fs FileData)
    (target : RelPath) : Prop where
  made : ∀ front, front ≠ [] → front <+: target → ¬ kept (root ++ front)
  replaced :
    ∀ other, kept other → root ++ target <+: other → fs.get other = none

/-- The set, and the directory that is written into. -/
def Beside (kept : Path → Prop) (parent path : Path) : Prop :=
  kept path ∨ path = parent

section Writes

variable (host : ScriptHost) {kept : Path → Prop} {parent : Path}
  {fs : Fs FileData}

theorem not_child_isPrefix (parent : Path) (name : String) :
    ¬ parent ++ [name] <+: parent := by
  intro under
  have lengths := under.length_le
  rw [List.length_append, List.length_singleton] at lengths
  omega

/-- The statements about one target follow each other in its directory. -/
theorem beside_bind
    {first : ScriptResult} {next : Fs FileData → ScriptResult}
    (parentDir : fs.get parent = some .dir)
    (firstEnds :
      Ends (Fs.AgreesOn (Beside kept parent) fs)
        (Fs.AgreesOn (Beside kept parent) fs) first)
    (nextEnds :
      ∀ state, state.get parent = some .dir →
        Ends (Fs.AgreesOn (Beside kept parent) state)
          (Fs.AgreesOn (Beside kept parent) state) (next state)) :
    Ends (Fs.AgreesOn (Beside kept parent) fs)
      (Fs.AgreesOn (Beside kept parent) fs) (first >>= next) := by
  apply firstEnds.bind
  intro state agrees
  have stateDir : state.get parent = some .dir := by
    rw [agrees parent (Or.inr rfl)]
    exact parentDir
  apply (nextEnds state stateDir).mono
  · intro final later
    exact agrees.trans later
  · intro final later
    exact agrees.trans later

variable (name : String) (valid : ValidPath parent)
  (parentDir : fs.get parent = some .dir)

include valid parentDir

theorem createAt_child
    (free : ¬ kept (parent ++ [name])) (object : Object FileData) :
    Ends (Fs.AgreesOn (Beside kept parent) fs)
      (Fs.AgreesOn (Beside kept parent) fs)
      (createAt host fs (parent ++ [name]) object) := by
  rw [createAt, fs.locate_child name valid parentDir]
  dsimp only
  split
  · apply fs.assign_agreesOn object
    rintro (inside | same)
    · exact free inside
    · exact not_child_isPrefix parent name (by rw [same])
  · exact Fs.AgreesOn.refl _ fs

theorem removeTree_child
    (replaced :
      ∀ other, kept other → parent ++ [name] <+: other →
        fs.get other = none) :
    Ends (Fs.AgreesOn (Beside kept parent) fs)
      (Fs.AgreesOn (Beside kept parent) fs)
      (removeTree fs (parent ++ [name])) := by
  apply removeTree_agreesOn
  intro place located _ other beside under
  rw [fs.locate_child name valid parentDir] at located
  cases located
  rcases beside with inside | rfl
  · exact replaced other inside under
  · exact (not_child_isPrefix other name under).elim

theorem chmodAt_child
    (free : ¬ kept (parent ++ [name])) (mode : Nat) :
    Fs.AgreesOn (Beside kept parent) fs
      (chmodAt fs (parent ++ [name]) mode) := by
  rw [chmodAt, fs.lstat_child name valid parentDir]
  split
  · rw [Fs.assignAt, fs.locate_child name valid parentDir]
    apply fs.assign_agreesOn
    rintro (inside | same)
    · exact free inside
    · exact not_child_isPrefix parent name (by rw [same])
  · exact Fs.AgreesOn.refl _ fs

theorem scriptFileTarget_child
    (replaced :
      ∀ other, kept other → parent ++ [name] <+: other →
        fs.get other = none)
    (relpath : RelPath) :
    Ends (Fs.AgreesOn (Beside kept parent) fs)
      (Fs.AgreesOn (Beside kept parent) fs)
      (scriptFileTarget fs relpath (parent ++ [name])) := by
  rw [scriptFileTarget]
  split
  · exact Fs.AgreesOn.refl _ fs
  · exact Fs.AgreesOn.refl _ fs
  · exact removeTree_child name valid parentDir replaced
  · exact Fs.AgreesOn.refl _ fs

theorem scriptWriteFile_child
    (free : ¬ kept (parent ++ [name])) (relpath : RelPath)
    (digest : Digest) (mode : Option (Option Nat)) (mtimeTaken : Bool) :
    Ends (Fs.AgreesOn (Beside kept parent) fs)
      (Fs.AgreesOn (Beside kept parent) fs)
      (scriptWriteFile host relpath (parent ++ [name]) digest mode mtimeTaken
        fs) := by
  rw [scriptWriteFile]
  apply beside_bind parentDir
  · exact createAt_child host name valid parentDir free _
  · intro state stateDir
    split
    · exact Fs.AgreesOn.refl _ state
    · next mode _ =>
        have changed := chmodAt_child name valid stateDir free mode
        dsimp only
        split
        · exact changed
        · exact changed

end Writes

section Entries

variable (host : ScriptHost) {kept : Path → Prop} {root : Path}

/-- `ensure_parent_dir` ends in a directory above the target. -/
theorem scriptParentDirs_keeps
    (parts : Path) {current : Path} {fs : Fs FileData}
    (valid : ValidPath (current ++ parts))
    (free :
      ∀ front, front ≠ [] → front <+: parts → ¬ kept (current ++ front))
    (currentDir : fs.get current = some .dir) :
    Ends (Fs.AgreesOn kept fs)
      (fun next => Fs.AgreesOn kept fs next ∧
        next.get (current ++ parts) = some .dir)
      (scriptParentDirs host fs current parts) := by
  induction parts generalizing current fs with
  | nil =>
      constructor
      · exact Fs.AgreesOn.refl _ fs
      · simpa using currentDir
  | cons part parts induction =>
      have split : current ++ part :: parts = (current ++ [part]) ++ parts := by
        simp
      have currentValid : ValidPath current := by
        intro name member
        exact valid name (List.mem_append_left _ member)
      have childFree : ¬ kept (current ++ [part]) :=
        free [part] (by simp) (by simp)
      have restFree :
          ∀ front, front ≠ [] → front <+: parts →
            ¬ kept (current ++ [part] ++ front) := by
        intro front _ isPrefix
        rw [List.append_assoc]
        apply free _ (by simp)
        exact (List.prefix_append_right_inj [part]).mpr isPrefix
      rw [split] at valid ⊢
      rw [scriptParentDirs, fs.lstat_child part currentValid currentDir]
      split
      · next found => exact induction valid restFree found
      · exact Fs.AgreesOn.refl _ fs
      · rcases made : createAt host fs (current ++ [part]) .dir with
          ⟨failure, state⟩ | state
        all_goals
          have beside :=
            createAt_child host part currentValid currentDir childFree .dir
          rw [made] at beside
          have agrees : Fs.AgreesOn kept fs state :=
            Fs.AgreesOn.mono beside fun _ inside => Or.inl inside
        · exact agrees
        · have stateDir : state.get (current ++ [part]) = some .dir := by
            rw [createAt, fs.locate_child part currentValid currentDir] at made
            dsimp only at made
            split at made
            · next possible =>
                cases made
                have facts := (fs.assignable_iff _).mp possible.2
                exact fs.get_assign_self .dir facts.1 facts.2.1 facts.2.2
            · cases made
          apply (induction valid restFree stateDir).mono
          · intro final later
            exact agrees.trans later
          · intro final later
            exact ⟨agrees.trans later.1, later.2⟩

/-- Writing at a target after its directories have been made. -/
theorem target_keeps
    {target : RelPath} {fs : Fs FileData} (nonempty : target ≠ [])
    (rootValid : ValidPath root) (valid : ValidPath target)
    (rootDir : fs.get root = some .dir)
    (spares : SparesTarget kept root fs target)
    {next : Fs FileData → ScriptResult}
    (nextEnds :
      ∀ state name,
        root ++ target = (root ++ target.dropLast) ++ [name] →
        ValidPath (root ++ target.dropLast) →
        state.get (root ++ target.dropLast) = some .dir →
        SparesTarget kept root state target →
        Ends (Fs.AgreesOn (Beside kept (root ++ target.dropLast)) state)
          (Fs.AgreesOn (Beside kept (root ++ target.dropLast)) state)
          (next state)) :
    Ends (Fs.AgreesOn kept fs) (Fs.AgreesOn kept fs)
      (scriptParentDirs host fs root target.dropLast >>= next) := by
  have parentValid : ValidPath (root ++ target.dropLast) := by
    apply validPath_append rootValid
    intro name member
    exact valid name (List.mem_of_mem_dropLast member)
  have whole :
      root ++ target =
        (root ++ target.dropLast) ++ [target.getLast nonempty] := by
    rw [List.append_assoc, List.dropLast_append_getLast nonempty]
  have parents :=
    scriptParentDirs_keeps host target.dropLast parentValid
      (fun front proper isPrefix =>
        spares.made front proper
          (isPrefix.trans (List.dropLast_prefix target)))
      rootDir
  apply parents.bind
  intro state holds
  have stateSpares : SparesTarget kept root state target := by
    constructor
    · exact spares.made
    · intro other inside below
      rw [holds.1 other inside]
      exact spares.replaced other inside below
  apply (nextEnds state _ whole parentValid holds.2 stateSpares).mono
  · intro final later
    exact holds.1.trans (later.mono fun _ inside => Or.inl inside)
  · intro final later
    exact holds.1.trans (later.mono fun _ inside => Or.inl inside)

variable (rootValid : ValidPath root) {fs : Fs FileData}
  (rootDir : fs.get root = some .dir) {item : RelPath × ScriptEntry}
  (spares :
    ∀ target, scriptTarget root item.1 = .ok target →
      SparesTarget kept root fs target)

include rootValid rootDir spares

theorem scriptFileEntry_keeps :
    Ends (Fs.AgreesOn kept fs) (Fs.AgreesOn kept fs)
      (scriptFileEntry host root fs item) := by
  rw [scriptFileEntry]
  split
  · split
    · exact Fs.AgreesOn.refl _ fs
    · split
      · exact Fs.AgreesOn.refl _ fs
      · split
        · exact Fs.AgreesOn.refl _ fs
        · next target safe =>
            have facts := scriptTarget_eq_ok safe
            apply target_keeps host facts.2.2.1 rootValid facts.2.2.2 rootDir
              (spares target safe)
            intro state name whole parentValid parentDir stateSpares
            have free : ¬ kept (root ++ target) :=
              stateSpares.made target facts.2.2.1 (List.prefix_refl target)
            have replaced := stateSpares.replaced
            rw [whole] at free replaced ⊢
            apply beside_bind parentDir
            · exact scriptFileTarget_child name parentValid parentDir replaced _
            · intro cleared clearedDir
              exact scriptWriteFile_child host name parentValid clearedDir free
                _ _ _ _
  · exact Fs.AgreesOn.refl _ fs

theorem scriptSymlinkEntry_keeps :
    Ends (Fs.AgreesOn kept fs) (Fs.AgreesOn kept fs)
      (scriptSymlinkEntry host root fs item) := by
  rw [scriptSymlinkEntry]
  split
  · split
    · exact Fs.AgreesOn.refl _ fs
    · split
      · exact Fs.AgreesOn.refl _ fs
      · next target safe =>
          have facts := scriptTarget_eq_ok safe
          apply target_keeps host facts.2.2.1 rootValid facts.2.2.2 rootDir
            (spares target safe)
          intro state name whole parentValid parentDir stateSpares
          have free : ¬ kept (root ++ target) :=
            stateSpares.made target facts.2.2.1 (List.prefix_refl target)
          have replaced := stateSpares.replaced
          rw [whole] at free replaced ⊢
          apply beside_bind parentDir
          · exact removeTree_child name parentValid parentDir replaced
          · intro removed removedDir
            exact createAt_child host name parentValid removedDir free _
  · exact Fs.AgreesOn.refl _ fs

end Entries

section Loops

variable (host : ScriptHost) {kept : Path → Prop} {root : Path}
  {fs : Fs FileData}

/-- A loop keeps the set when its steps do in every agreeing state. -/
theorem foldlM_keeps
    {α : Type} (step : Fs FileData → α → ScriptResult) (items : List α)
    (keeps :
      ∀ item ∈ items, ∀ state, Fs.AgreesOn kept fs state →
        Ends (Fs.AgreesOn kept state) (Fs.AgreesOn kept state)
          (step state item)) :
    Ends (Fs.AgreesOn kept fs) (Fs.AgreesOn kept fs)
      (items.foldlM step fs) := by
  apply ends_foldlM
  · exact Fs.AgreesOn.refl _ fs
  · intro item member state agrees
    apply (keeps item member state agrees).mono
    · intro next later
      exact agrees.trans later
    · intro next later
      exact agrees.trans later

/-- The writes keep every set that each of their targets spares. -/
theorem scriptWrites_keeps
    (rootValid : ValidPath root) (rootKept : kept root)
    (rootDir : fs.get root = some .dir)
    (entries : List (RelPath × ScriptEntry))
    (spares :
      ∀ item ∈ entries, isPreservedRelpath item.1 = false →
        ∀ target, scriptTarget root item.1 = .ok target →
          SparesTarget kept root fs target) :
    Ends (Fs.AgreesOn kept fs) (Fs.AgreesOn kept fs)
      (scriptWrites host root entries fs) := by
  have later :
      ∀ item ∈ entries, isPreservedRelpath item.1 = false →
        ∀ state, Fs.AgreesOn kept fs state →
          state.get root = some .dir ∧
            ∀ target, scriptTarget root item.1 = .ok target →
              SparesTarget kept root state target := by
    intro item member written state agrees
    constructor
    · rw [agrees root rootKept]
      exact rootDir
    · intro target safe
      have before := spares item member written target safe
      constructor
      · exact before.made
      · intro other inside below
        rw [agrees other inside]
        exact before.replaced other inside below
  rw [scriptWrites]
  have files :
      Ends (Fs.AgreesOn kept fs) (Fs.AgreesOn kept fs)
        ((entries.filter isScriptFile).foldlM (scriptFileEntry host root)
          fs) := by
    apply foldlM_keeps
    intro item member state agrees
    rw [List.mem_filter, isScriptFile, Bool.and_eq_true,
      Bool.not_eq_true'] at member
    have ready := later item member.1 member.2.1 state agrees
    exact scriptFileEntry_keeps host rootValid ready.1 ready.2
  apply files.bind
  intro filed filedAgrees
  have links :
      Ends (Fs.AgreesOn kept filed) (Fs.AgreesOn kept filed)
        ((entries.filter isScriptSymlink).foldlM (scriptSymlinkEntry host root)
          filed) := by
    apply foldlM_keeps
    intro item member state agrees
    rw [List.mem_filter, isScriptSymlink, Bool.and_eq_true,
      Bool.not_eq_true'] at member
    have ready :=
      later item member.1 member.2.1 state (filedAgrees.trans agrees)
    exact scriptSymlinkEntry_keeps host rootValid ready.1 ready.2
  apply links.mono
  · intro next agrees
    exact filedAgrees.trans agrees
  · intro next agrees
    exact filedAgrees.trans agrees

theorem scriptCheckEntry_finalState
    (fs : Fs FileData) (item : RelPath × ScriptEntry) :
    finalState (scriptCheckEntry fs item) = fs := by
  rw [scriptCheckEntry]
  split
  · rfl
  · split
    · rfl
    · rfl
    · rfl

/-- The statements after the removals. -/
theorem scriptApply_after_removals
    (rootValid : ValidPath root) (rootKept : kept root)
    (rootDir : fs.get root = some .dir)
    (entries : List (RelPath × ScriptEntry))
    (spares :
      ∀ item ∈ entries, isPreservedRelpath item.1 = false →
        ∀ target, scriptTarget root item.1 = .ok target →
          SparesTarget kept root fs target) :
    Ends (Fs.AgreesOn kept fs) (Fs.AgreesOn kept fs) (do
      let fs ← entries.foldlM scriptCheckEntry fs
      let fs ← scriptWrites host root entries fs
      if (fs.resolveDir root).isSome then .ok fs
      else .error (.restore .rootMissing, fs)) := by
  have checks :
      Ends (· = fs) (· = fs) (entries.foldlM scriptCheckEntry fs) := by
    apply ends_foldlM
    · rfl
    · rintro item _ state rfl
      apply ends_of_finalState
      exact scriptCheckEntry_finalState state item
  have checked :
      Ends (Fs.AgreesOn kept fs) (· = fs)
        (entries.foldlM scriptCheckEntry fs) := by
    apply checks.mono
    · rintro state rfl
      exact Fs.AgreesOn.refl _ state
    · exact fun _ same => same
  apply checked.bind
  · rintro state rfl
    apply
      (scriptWrites_keeps host rootValid rootKept rootDir entries spares).bind
    intro state agrees
    split
    · exact agrees
    · exact agrees

end Loops

end AgentSchedBench.Checkpoint
