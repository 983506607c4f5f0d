import AgentSchedBench.Harness.Bootstrap

/-!
# What the bootstrap cache serves

A generation that `current.json` has named is complete, and it stays as its
script has left it: scripts that go on after their host work in generations
that are not named, and the holder of the lock writes to a new one.  So each
configuration that is returned has the packages its caller has asked for.
-/

namespace AgentSchedBench.Harness

open AgentSchedBench.Trace (Text)

/-! ## Settings -/

theorem setting_of_pipSettings {first second : Caller} {name : Text}
    (same : first.pipSettings = second.pipSettings)
    (member : name ∈ bootstrapPipResolutionEnvKeys) :
    first.environ name = second.environ name := by
  obtain ⟨-, sameRest⟩ := List.cons.inj same
  exact (Prod.ext_iff.mp (List.map_inj_left.mp sameRest name member)).2

/-- The variables for pip are made of the settings that are hashed. -/
theorem pipEnv_congr {first second : Text → Text}
    (same :
      ∀ name ∈ bootstrapPipResolutionEnvKeys, first name = second name) :
    pipEnv first = pipEnv second := by
  rw [pipEnv, pipEnv]
  refine List.flatMap_congr fun entry member => ?_
  rw [same entry.1 (List.mem_map_of_mem member)]

/-- The container gets the settings that its caller has. -/
theorem script_installation (hexdigest : Hexdigest) (caller : Caller) :
    (caller.script hexdigest).installation = caller.wanted := by
  have sameEnv :
      pipEnv (containerEnviron caller.environ) = pipEnv caller.environ := by
    refine pipEnv_congr fun name member => ?_
    exact if_pos (List.mem_cons_of_mem pipIndexUrlName member)
  rw [InstallScript.installation, Caller.wanted, ← sameEnv]
  rfl

section Runs

variable {ι : Type} {hexdigest : Hexdigest} {host : HostPaths}
variable {callers : ι → Caller}

/-- A payload in a marker leads back to what the caller asks for. -/
theorem wanted_of_payload {reader writer : ι}
    (apart : hexdigest.TellsApart callers)
    (same :
      { (callers writer).cachePayload hexdigest with
          python := (callers writer).sysExecutable } =
        (callers reader).cachePayload hexdigest) :
    ((callers writer).script hexdigest).installation =
      (callers reader).wanted := by
  rw [script_installation]
  simp only [Caller.cachePayload, CachePayload.mk.injEq] at same
  obtain ⟨sameRequirements, -, sameUrl, sameArch, samePlatform,
    sameFingerprint, sameResolution⟩ := same
  have sameSettings :=
    apart writer reader (congrArg PipResolution.digest sameResolution)
  have sameEnv :
      pipEnv (callers writer).environ = pipEnv (callers reader).environ :=
    pipEnv_congr fun name member =>
      setting_of_pipSettings sameSettings member
  rw [Caller.wanted, Caller.wanted, sameRequirements, sameUrl, sameArch,
    samePlatform, sameFingerprint, sameEnv]

/-! ## Sound caches -/

/-- The script is that of a caller, and the marker that of the script. -/
structure Generation.Sound (hexdigest : Hexdigest) (callers : ι → Caller)
    (files : Generation) : Prop where
  script :
    ∀ script progress, files.script = some (script, progress) →
      ∃ id, script = (callers id).script hexdigest
  marker :
    ∀ marker, files.marker = some (.whole marker) →
      ∃ script progress,
        files.script = some (script, progress) ∧
          marker.payload =
            { script.payload with python := script.sysExecutable }

/-- The generation has been installed to the end. -/
def Store.Finished (store : Store) (root : CacheRoot) (generation : Text) :
    Prop :=
  ∃ files script,
    store.generations root generation = some files ∧
      files.script = some (script, .finished)

/-- What `current.json` has named is installed to the end. -/
structure Store.Sound (hexdigest : Hexdigest) (callers : ι → Caller)
    (store : Store) : Prop where
  current :
    ∀ root pointer, store.current root = some (.whole pointer) →
      (root, pointer.generation) ∈ store.published
  published :
    ∀ root generation, (root, generation) ∈ store.published →
      store.Finished root generation
  generations :
    ∀ root generation files, store.generations root generation = some files →
      files.Sound hexdigest callers

namespace Store

variable {store later : Store} {root : CacheRoot} {generation : Text}

theorem empty_sound : empty.Sound hexdigest callers :=
  ⟨nofun, nofun, nofun⟩

@[simp]
theorem generations_setGeneration (files : Option Generation)
    (owner : CacheRoot) (name : Text) :
    (store.setGeneration root generation files).generations owner name =
      if owner = root ∧ name = generation then files
      else store.generations owner name :=
  rfl

@[simp]
theorem published_setGeneration (files : Option Generation) :
    (store.setGeneration root generation files).published =
      store.published :=
  rfl

/-- A generation is replaced; one that has been named stays finished. -/
theorem Sound.setGeneration {files : Option Generation}
    (sound : store.Sound hexdigest callers)
    (isSound : ∀ left, files = some left → left.Sound hexdigest callers)
    (finished :
      (root, generation) ∈ store.published →
        ∃ left script,
          files = some left ∧ left.script = some (script, .finished)) :
    (store.setGeneration root generation files).Sound hexdigest callers where
  current := sound.current
  published := by
    intro owner name isPublished
    by_cases same : owner = root ∧ name = generation
    · obtain ⟨rfl, rfl⟩ := same
      obtain ⟨left, script, isLeft, isFinished⟩ := finished isPublished
      refine ⟨left, script, ?_, isFinished⟩
      rw [generations_setGeneration, if_pos ⟨rfl, rfl⟩, isLeft]
    · obtain ⟨left, script, isLeft, isFinished⟩ :=
        sound.published owner name isPublished
      refine ⟨left, script, ?_, isFinished⟩
      rw [generations_setGeneration, if_neg same, isLeft]
  generations := by
    intro owner name left isLeft
    rw [generations_setGeneration] at isLeft
    split at isLeft
    · exact isSound left isLeft
    · exact sound.generations owner name left isLeft

/-- The scripts of the named generations are where they were. -/
structure Keeps (store later : Store) : Prop where
  published : store.published ⊆ later.published
  scripts :
    ∀ root generation, (root, generation) ∈ store.published →
      (later.generations root generation).map (·.script) =
        (store.generations root generation).map (·.script)

/-- The named generations are as they were. -/
structure Undisturbed (store later : Store) : Prop where
  published : store.published ⊆ later.published
  files :
    ∀ root generation, (root, generation) ∈ store.published →
      later.generations root generation = store.generations root generation

theorem Undisturbed.refl (store : Store) : store.Undisturbed store :=
  ⟨subset_rfl, fun _ _ _ => rfl⟩

theorem Undisturbed.keeps (undisturbed : store.Undisturbed later) :
    store.Keeps later where
  published := undisturbed.published
  scripts := by
    intro root generation isPublished
    rw [undisturbed.files root generation isPublished]

/-- A generation that has not been named is replaced. -/
theorem undisturbed_setGeneration {files : Option Generation}
    (unnamed : (root, generation) ∉ store.published) :
    store.Undisturbed (store.setGeneration root generation files) where
  published := subset_rfl
  files := by
    intro owner name isPublished
    rw [generations_setGeneration, if_neg]
    rintro ⟨rfl, rfl⟩
    exact unnamed isPublished

end Store

/-! ## What processes know -/

/-- The generation has been named, and has what the caller asks for. -/
structure Serves (hexdigest : Hexdigest) (caller : Caller) (store : Store)
    (generation : Text) : Prop where
  published : (caller.cacheRoot hexdigest, generation) ∈ store.published
  completed :
    store.Completed (caller.cacheRoot hexdigest) generation caller.wanted

/-- What is known of a generation while it is looked at. -/
def KnownAt (hexdigest : Hexdigest) (caller : Caller) (store : Store) :
    Stage → Prop
  | .pointer => True
  | .pip generation | .marker generation _ =>
      (caller.cacheRoot hexdigest, generation) ∈ store.published
  | .packages generation _ _ | .userbase generation _ _ =>
      Serves hexdigest caller store generation

/-- The configuration is that of a generation which serves the caller. -/
def Served (hexdigest : Hexdigest) (host : HostPaths) (caller : Caller)
    (store : Store) (config : TaskContainerExecConfig) : Prop :=
  ∃ generation,
    config = execConfigWithBootstrapSiteDir hexdigest host caller generation ∧
      Serves hexdigest caller store generation

/-- What is known to a process that does not hold the lock. -/
def Waits (hexdigest : Hexdigest) (host : HostPaths) (caller : Caller)
    (store : Store) : Phase → Prop
  | .reading stage => KnownAt hexdigest caller store stage
  | .returned config =>
      caller.Bootstraps → Served hexdigest host caller store config
  | _ => True

/-- The generation of the holder, which has not been named. -/
structure Own (hexdigest : Hexdigest) (caller : Caller) (store : Store)
    (generation : Text) (holds : Generation → Prop) : Prop where
  unnamed : (caller.cacheRoot hexdigest, generation) ∉ store.published
  files :
    ∃ files,
      store.generations (caller.cacheRoot hexdigest) generation =
          some files ∧
        holds files

/-- The script of the caller has come to its end. -/
def HasFinished (hexdigest : Hexdigest) (caller : Caller)
    (files : Generation) : Prop :=
  files.script = some (caller.script hexdigest, .finished)

/-- What is known to the holder of the lock. -/
def Works (hexdigest : Hexdigest) (host : HostPaths) (caller : Caller)
    (store : Store) : Phase → Prop
  | .checking stage => KnownAt hexdigest caller store stage
  | .making generation =>
      store.generations (caller.cacheRoot hexdigest) generation = none
  | .fetching generation =>
      Own hexdigest caller store generation fun files =>
        files.script = none ∧ files.marker = none
  | .installing generation =>
      Own hexdigest caller store generation fun files =>
        ∃ progress, files.script = some (caller.script hexdigest, progress)
  | .removing generation =>
      (caller.cacheRoot hexdigest, generation) ∉ store.published
  | .writing generation =>
      Own hexdigest caller store generation (HasFinished hexdigest caller)
  | .replacing generation =>
      Own hexdigest caller store generation (HasFinished hexdigest caller) ∧
        ∃ pointer,
          store.currentTmp (caller.cacheRoot hexdigest) =
              some (.whole pointer) ∧
            pointer.generation = generation
  | .leaving config => Served hexdigest host caller store config
  | .returned _ => False
  | _ => True

/-- The conditions on the cache and on the processes. -/
def cacheConditions (hexdigest : Hexdigest) (host : HostPaths)
    (callers : ι → Caller) : Guarded.Conditions ι Store Phase where
  sound := Store.Sound hexdigest callers
  waits := fun id => Waits hexdigest host (callers id)
  works := fun id => Works hexdigest host (callers id)

/-! ## Reading -/

/-- One reading finds what the next one relies on. -/
theorem currentConfig_known {id : ι} {store : Store} {stage : Stage}
    (apart : hexdigest.TellsApart callers)
    (sound : store.Sound hexdigest callers)
    (known : KnownAt hexdigest (callers id) store stage) :
    (∀ next,
        currentConfig hexdigest (callers id) store stage = .more next →
          KnownAt hexdigest (callers id) store next) ∧
      ∀ generation,
        currentConfig hexdigest (callers id) store stage = .hit generation →
          Serves hexdigest (callers id) store generation := by
  cases stage with
  | pointer =>
      rw [currentConfig]
      split
      · next pointer isCurrent =>
        split
        · exact ⟨nofun, nofun⟩
        · refine ⟨?_, nofun⟩
          rintro _ ⟨⟩
          exact sound.current _ pointer isCurrent
      · exact ⟨nofun, nofun⟩
  | pip generation =>
      rw [currentConfig]
      split
      · split
        · refine ⟨?_, nofun⟩
          rintro _ ⟨⟩
          exact known
        · exact ⟨nofun, nofun⟩
      · exact ⟨nofun, nofun⟩
  | marker generation hasSite =>
      rw [currentConfig]
      split
      · next marker isMarker =>
        split
        · next same =>
          refine ⟨?_, nofun⟩
          rintro _ ⟨⟩
          refine ⟨known, ?_⟩
          obtain ⟨files, finishedScript, isFiles, isFinished⟩ :=
            sound.published _ generation known
          have isSound := sound.generations _ _ files isFiles
          rw [isFiles] at isMarker
          obtain ⟨script, progress, isScript, isPayload⟩ :=
            isSound.marker marker isMarker
          -- the marker is that of the script which has finished
          obtain ⟨rfl, rfl⟩ :=
            Prod.ext_iff.mp
              (Option.some.inj (isFinished.symm.trans isScript))
          obtain ⟨writer, rfl⟩ := isSound.script _ _ isFinished
          refine ⟨files, _, isFiles, isFinished, ?_⟩
          exact wanted_of_payload apart (isPayload.symm.trans same.1)
        · exact ⟨nofun, nofun⟩
      · exact ⟨nofun, nofun⟩
  | packages generation hasSite marker =>
      rw [currentConfig]
      split
      · refine ⟨?_, nofun⟩
        rintro _ ⟨⟩
        exact known
      · exact ⟨nofun, nofun⟩
  | userbase generation hasSite marker =>
      have isHit (result : ReadResult)
          (isResult : result = .hit generation ∨ result = .miss) :
          (∀ next, result = .more next →
              KnownAt hexdigest (callers id) store next) ∧
            ∀ found, result = .hit found →
              Serves hexdigest (callers id) store found := by
        rcases isResult with rfl | rfl
        · refine ⟨nofun, ?_⟩
          rintro _ ⟨⟩
          exact known
        · exact ⟨nofun, nofun⟩
      refine isHit _ ?_
      rw [currentConfig]
      split
      · split
        · exact .inl rfl
        · exact .inr rfl
      · split
        · exact .inl rfl
        · exact .inr rfl

section Kept

variable {caller : Caller} {store later : Store}

theorem Serves.keeps {generation : Text}
    (serves : Serves hexdigest caller store generation)
    (keeps : store.Keeps later) :
    Serves hexdigest caller later generation := by
  refine ⟨keeps.published serves.published, ?_⟩
  obtain ⟨files, script, isFiles, isFinished, isWanted⟩ := serves.completed
  have same := keeps.scripts _ generation serves.published
  rw [isFiles, Option.map_some, isFinished] at same
  obtain ⟨left, isLeft, isScript⟩ := Option.map_eq_some_iff.mp same
  exact ⟨left, script, isLeft, isScript, isWanted⟩

theorem KnownAt.keeps {stage : Stage}
    (known : KnownAt hexdigest caller store stage)
    (keeps : store.Keeps later) : KnownAt hexdigest caller later stage := by
  cases stage with
  | pointer => trivial
  | pip generation => exact keeps.published known
  | marker generation hasSite => exact keeps.published known
  | packages generation hasSite marker => exact Serves.keeps known keeps
  | userbase generation hasSite marker => exact Serves.keeps known keeps

theorem Served.keeps {config : TaskContainerExecConfig}
    (served : Served hexdigest host caller store config)
    (keeps : store.Keeps later) :
    Served hexdigest host caller later config := by
  obtain ⟨generation, isConfig, serves⟩ := served
  exact ⟨generation, isConfig, serves.keeps keeps⟩

theorem Waits.keeps {phase : Phase}
    (waits : Waits hexdigest host caller store phase)
    (keeps : store.Keeps later) :
    Waits hexdigest host caller later phase := by
  cases phase with
  | reading stage => exact KnownAt.keeps waits keeps
  | returned config =>
      exact fun bootstraps => (waits bootstraps).keeps keeps
  | _ => trivial

end Kept

/-! ## Scripts and tasks -/

/-- What a script or a task does to the files of a generation. -/
inductive Altered (files left : Generation) : Prop where
  | packages (sameScript : left.script = files.script)
      (sameMarker : left.marker = files.marker)
  | script {script : InstallScript} {progress next : Progress}
      (isScript : files.script = some (script, progress))
      (runs : progress ≠ .finished)
      (isNext : left.script = some (script, next))
      (isMarker :
        ∀ marker, left.marker = some (.whole marker) →
          files.marker = some (.whole marker) ∨
            marker.payload =
              { script.payload with python := script.sysExecutable })

/-- A change of a generation that is not made by the host. -/
inductive AlteredIn (store later : Store) : Prop where
  | files {root : CacheRoot} {generation : Text} {files left : Generation}
      (isFiles : store.generations root generation = some files)
      (isLater : later = store.setGeneration root generation (some left))
      (altered : Altered files left)

theorem TaskMove.alteredIn {store later : Store}
    (move : TaskMove store later) : AlteredIn store later := by
  cases move with
  | changes isFiles pip packages userbase =>
      exact .files isFiles rfl (.packages rfl rfl)

theorem ScriptStep.runs {script : InstallScript} {files left : Generation}
    {progress next : Progress}
    (step : ScriptStep script files progress left next) :
    progress ≠ .finished := by
  cases step with
  | fails runs => exact runs
  | _ => nofun

theorem ScriptStep.marker {script : InstallScript} {files left : Generation}
    {progress next : Progress}
    (step : ScriptStep script files progress left next) {marker : Marker}
    (isMarker : left.marker = some (.whole marker)) :
    files.marker = some (.whole marker) ∨
      marker.payload =
        { script.payload with python := script.sysExecutable } := by
  cases step with
  | marksPart => cases isMarker
  | marks =>
      cases isMarker
      exact .inr rfl
  | _ => exact .inl isMarker

theorem ScriptMove.alteredIn {store later : Store}
    (move : ScriptMove store later) : AlteredIn store later := by
  cases move with
  | step isFiles isScript step =>
      exact
        .files isFiles rfl
          (.script isScript step.runs rfl fun _ isMarker =>
            step.marker isMarker)

/-- Only a script that runs changes more than packages. -/
theorem ScriptMove.undisturbed {store later : Store}
    (sound : store.Sound hexdigest callers) (move : ScriptMove store later) :
    store.Undisturbed later := by
  cases move with
  | step isFiles isScript step =>
      refine Store.undisturbed_setGeneration fun isPublished => ?_
      obtain ⟨files, script, isFound, isFinished⟩ :=
        sound.published _ _ isPublished
      obtain rfl := Option.some.inj (isFiles.symm.trans isFound)
      have sameProgress :=
        (Prod.ext_iff.mp
          (Option.some.inj (isScript.symm.trans isFinished))).2
      exact step.runs sameProgress

namespace Altered

variable {files left : Generation}

/-- A script that has finished is left as it is. -/
theorem finished (altered : Altered files left) {script : InstallScript}
    (isFinished : files.script = some (script, .finished)) :
    left.script = some (script, .finished) := by
  cases altered with
  | packages sameScript sameMarker => exact sameScript.trans isFinished
  | script isScript runs isNext isMarker =>
      have sameProgress :=
        (Prod.ext_iff.mp
          (Option.some.inj (isScript.symm.trans isFinished))).2
      exact absurd sameProgress runs

theorem sound (altered : Altered files left)
    (isSound : files.Sound hexdigest callers) :
    left.Sound hexdigest callers := by
  cases altered with
  | packages sameScript sameMarker =>
      refine ⟨?_, ?_⟩
      · rw [sameScript]
        exact isSound.script
      · rw [sameScript, sameMarker]
        exact isSound.marker
  | @script script progress next isScript runs isNext isMarker =>
      refine ⟨?_, fun marker isWhole => ?_⟩
      · rw [isNext]
        rintro _ _ ⟨⟩
        exact isSound.script script progress isScript
      · refine ⟨script, next, isNext, ?_⟩
        rcases isMarker marker isWhole with before | isPayload
        · obtain ⟨other, otherProgress, isOther, isPayload⟩ :=
            isSound.marker marker before
          rw [isScript] at isOther
          cases isOther
          exact isPayload
        · exact isPayload

end Altered

namespace AlteredIn

variable {store later : Store} {caller : Caller}

theorem sound (altered : AlteredIn store later)
    (isSound : store.Sound hexdigest callers) :
    later.Sound hexdigest callers := by
  obtain ⟨isFiles, rfl, change⟩ := altered
  refine isSound.setGeneration ?_ fun isPublished => ?_
  · rintro _ ⟨⟩
    exact change.sound (isSound.generations _ _ _ isFiles)
  · obtain ⟨files, script, isFound, isFinished⟩ :=
      isSound.published _ _ isPublished
    obtain rfl := Option.some.inj (isFiles.symm.trans isFound)
    exact ⟨_, script, rfl, change.finished isFinished⟩

theorem keeps (altered : AlteredIn store later)
    (isSound : store.Sound hexdigest callers) : store.Keeps later := by
  obtain @⟨root, generation, files, left, isFiles, rfl, change⟩ := altered
  refine ⟨subset_rfl, fun owner name isPublished => ?_⟩
  rw [Store.generations_setGeneration]
  split
  · next same =>
    obtain ⟨rfl, rfl⟩ := same
    obtain ⟨found, script, isFound, isFinished⟩ :=
      isSound.published _ _ isPublished
    obtain rfl := Option.some.inj (isFiles.symm.trans isFound)
    rw [isFiles, Option.map_some, Option.map_some, isFinished,
      change.finished isFinished]
  · rfl

theorem published (altered : AlteredIn store later) :
    later.published = store.published := by
  obtain ⟨isFiles, rfl, change⟩ := altered
  rfl

/-- The generation of the holder still is one. -/
theorem own {generation : Text} {holds : Generation → Prop}
    (altered : AlteredIn store later)
    (own : Own hexdigest caller store generation holds)
    (kept : ∀ files left, Altered files left → holds files → holds left) :
    Own hexdigest caller later generation holds := by
  obtain @⟨root, name, files, left, isFiles, rfl, change⟩ := altered
  obtain ⟨unnamed, found, isFound, holdsFound⟩ := own
  refine ⟨unnamed, ?_⟩
  by_cases same : caller.cacheRoot hexdigest = root ∧ generation = name
  · obtain ⟨rfl, rfl⟩ := same
    obtain rfl := Option.some.inj (isFiles.symm.trans isFound)
    refine ⟨left, ?_, kept _ left change holdsFound⟩
    rw [Store.generations_setGeneration, if_pos ⟨rfl, rfl⟩]
  · refine ⟨found, ?_, holdsFound⟩
    rw [Store.generations_setGeneration, if_neg same, isFound]

/-- What the holder knows does not depend on scripts and tasks. -/
theorem works {phase : Phase} (altered : AlteredIn store later)
    (isSound : store.Sound hexdigest callers)
    (works : Works hexdigest host caller store phase) :
    Works hexdigest host caller later phase := by
  cases phase with
  | checking stage => exact KnownAt.keeps works (altered.keeps isSound)
  | making generation =>
      obtain @⟨root, name, files, left, isFiles, rfl, change⟩ := altered
      have isNone :
          store.generations (caller.cacheRoot hexdigest) generation = none :=
        works
      rw [Works, Store.generations_setGeneration, if_neg, isNone]
      rintro ⟨rfl, rfl⟩
      exact nomatch isNone.symm.trans isFiles
  | fetching generation =>
      refine altered.own works fun files left change holds => ?_
      cases change with
      | packages sameScript sameMarker =>
          exact ⟨sameScript.trans holds.1, sameMarker.trans holds.2⟩
      | script isScript runs isNext isMarker =>
          exact nomatch holds.1.symm.trans isScript
  | installing generation =>
      refine altered.own works fun files left change holds => ?_
      obtain ⟨progress, isProgress⟩ := holds
      cases change with
      | packages sameScript sameMarker =>
          exact ⟨progress, sameScript.trans isProgress⟩
      | script isScript runs isNext isMarker =>
          rw [isProgress] at isScript
          cases isScript
          exact ⟨_, isNext⟩
  | removing generation =>
      rw [Works, altered.published]
      exact works
  | writing generation =>
      exact altered.own works fun files left change => change.finished
  | replacing generation =>
      refine ⟨altered.own works.1 fun files left change => change.finished, ?_⟩
      obtain ⟨isFiles, rfl, change⟩ := altered
      exact works.2
  | leaving config => exact Served.keeps works (altered.keeps isSound)
  | returned config => exact works
  | _ => trivial

end AlteredIn

/-! ## The holder of the lock -/

/-- A move of the holder keeps the cache, and leads to what it knows then. -/
theorem Inside.kept {id : ι} {store later : Store} {phase next : Phase}
    (apart : hexdigest.TellsApart callers)
    (sound : store.Sound hexdigest callers)
    (works : Works hexdigest host (callers id) store phase)
    (move : Inside hexdigest host (callers id) store phase later next) :
    later.Sound hexdigest callers ∧
      Works hexdigest host (callers id) later next ∧
        store.Undisturbed later := by
  cases move with
  | reads isMore =>
      exact
        ⟨sound, (currentConfig_known apart sound works).1 _ isMore,
          .refl store⟩
  | misses isMiss => exact ⟨sound, trivial, .refl store⟩
  | hits isHit =>
      exact
        ⟨sound,
          ⟨_, rfl, (currentConfig_known apart sound works).2 _ isHit⟩,
          .refl store⟩
  | names time unused => exact ⟨sound, unused, .refl store⟩
  | @makes generation =>
      have isNone :
          store.generations ((callers id).cacheRoot hexdigest) generation =
            none := works
      have unnamed :
          ((callers id).cacheRoot hexdigest, generation) ∉
            store.published := by
        intro isPublished
        obtain ⟨files, script, isFiles, -⟩ :=
          sound.published _ _ isPublished
        exact nomatch isNone.symm.trans isFiles
      rw [Store.makeGeneration, isNone]
      refine
        ⟨sound.setGeneration ?_ fun isPublished =>
            absurd isPublished unnamed,
          ⟨unnamed, .empty, ?_, rfl, rfl⟩,
          Store.undisturbed_setGeneration unnamed⟩
      · rintro _ ⟨⟩
        exact ⟨nofun, nofun⟩
      · rw [Store.generations_setGeneration, if_pos ⟨rfl, rfl⟩]
  | @fetches generation =>
      obtain ⟨unnamed, files, isFiles, -, noMarker⟩ := works
      rw [Store.setScript, isFiles, Option.map_some]
      refine
        ⟨sound.setGeneration ?_ fun isPublished =>
            absurd isPublished unnamed,
          ⟨unnamed, _, if_pos ⟨rfl, rfl⟩, _, rfl⟩,
          Store.undisturbed_setGeneration unnamed⟩
      rintro _ ⟨⟩
      refine ⟨?_, fun marker isMarker => ?_⟩
      · rintro _ _ ⟨⟩
        exact ⟨id, rfl⟩
      · exact nomatch noMarker.symm.trans isMarker
  | @succeeds generation files script isFiles isFinished =>
      obtain ⟨unnamed, found, isFound, progress, isProgress⟩ := works
      obtain rfl := Option.some.inj (isFiles.symm.trans isFound)
      rw [isFinished] at isProgress
      cases isProgress
      exact ⟨sound, ⟨unnamed, files, isFiles, isFinished⟩, .refl store⟩
  | @fails generation =>
      obtain ⟨unnamed, files, isFiles, progress, isProgress⟩ := works
      have isSound := sound.generations _ _ files isFiles
      rw [Store.setScript, isFiles, Option.map_some]
      refine
        ⟨sound.setGeneration ?_ fun isPublished =>
            absurd isPublished unnamed,
          unnamed, Store.undisturbed_setGeneration unnamed⟩
      rintro _ ⟨⟩
      refine ⟨?_, fun marker isMarker => ?_⟩
      · rintro _ _ ⟨⟩
        exact ⟨id, rfl⟩
      · obtain ⟨script, other, isScript, isPayload⟩ :=
          isSound.marker marker isMarker
        rw [isProgress] at isScript
        cases isScript
        exact ⟨_, _, rfl, isPayload⟩
  | @removesPart generation files left isFiles sameScript isMarker =>
      have isSound := sound.generations _ _ files isFiles
      refine
        ⟨sound.setGeneration ?_ fun isPublished => absurd isPublished works,
          works, Store.undisturbed_setGeneration works⟩
      rintro _ ⟨⟩
      refine ⟨?_, fun marker isWhole => ?_⟩
      · rw [sameScript]
        exact isSound.script
      · rw [sameScript]
        rcases isMarker with same | none
        · exact isSound.marker marker (same.symm.trans isWhole)
        · exact nomatch none.symm.trans isWhole
  | @removes generation =>
      exact
        ⟨sound.setGeneration nofun fun isPublished =>
            absurd isPublished works,
          trivial, Store.undisturbed_setGeneration works⟩
  | writesPart =>
      exact
        ⟨⟨sound.current, sound.published, sound.generations⟩,
          ⟨works.unnamed, works.files⟩, ⟨subset_rfl, fun _ _ _ => rfl⟩⟩
  | writes =>
      exact
        ⟨⟨sound.current, sound.published, sound.generations⟩,
          ⟨⟨works.unnamed, works.files⟩, _, if_pos rfl, rfl⟩,
          ⟨subset_rfl, fun _ _ _ => rfl⟩⟩
  | @replaces generation =>
      obtain ⟨⟨-, files, isFiles, isFinished⟩, pointer, isTmp, rfl⟩ := works
      refine ⟨⟨?_, ?_, sound.generations⟩, ?_, ?_⟩
      · intro root named isNamed
        rw [Store.replaceCurrent] at isNamed
        dsimp only at isNamed
        split at isNamed
        · next same =>
          subst same
          exact .inr ⟨rfl, named, isNamed, rfl⟩
        · exact .inl (sound.current root named isNamed)
      · rintro root name (isPublished | ⟨rfl, other, isOther, rfl⟩)
        · exact sound.published root name isPublished
        · rw [isTmp] at isOther
          cases isOther
          exact ⟨files, _, isFiles, isFinished⟩
      · refine ⟨_, rfl, .inr ⟨rfl, pointer, isTmp, rfl⟩, ?_⟩
        exact
          ⟨files, _, isFiles, isFinished, script_installation hexdigest _⟩
      · exact ⟨Set.subset_union_left, fun _ _ _ => rfl⟩

/-- All moves keep the conditions. -/
theorem cacheConditions_kept (apart : hexdigest.TellsApart callers) :
    (cacheConditions hexdigest host callers).Kept
      (cacheMoves hexdigest host callers) := by
  have altered {store later : Store}
      (change : ScriptMove store later ∨ TaskMove store later) :
      AlteredIn store later :=
    change.elim ScriptMove.alteredIn TaskMove.alteredIn
  constructor
  case environment =>
    intro store later sound change
    exact (altered change).sound sound
  case environmentWaits =>
    intro store later id phase sound change waits
    exact Waits.keeps waits ((altered change).keeps sound)
  case environmentWorks =>
    intro store later id phase sound change works
    exact (altered change).works sound works
  case outside =>
    intro store id phase next sound waits move
    cases move with
    | skips noBootstrap =>
        exact fun bootstraps => absurd bootstraps noBootstrap
    | starts bootstraps => trivial
    | reads isMore => exact (currentConfig_known apart sound waits).1 _ isMore
    | misses isMiss => trivial
    | hits isHit =>
        exact fun _ =>
          ⟨_, rfl, (currentConfig_known apart sound waits).2 _ isHit⟩
    | raises running => trivial
    | dies running => trivial
  case acquires =>
    rintro store id _ _ - ⟨⟩
    trivial
  case inside =>
    intro store later id phase next sound works move
    obtain ⟨soundLater, worksLater, -⟩ := move.kept apart sound works
    exact ⟨soundLater, worksLater⟩
  case insideWaits =>
    intro store later id phase next other otherPhase sound works move waits
    obtain ⟨-, -, undisturbed⟩ := move.kept apart sound works
    exact Waits.keeps waits undisturbed.keeps
  case releases =>
    intro store id phase next works move
    cases move with
    | returns => exact fun _ => works
    | raises => trivial
    | dies => trivial

theorem emptyCache_hold :
    (cacheConditions hexdigest host callers).Hold (emptyCache ι) where
  sound := Store.empty_sound
  processes := fun _ => ⟨nofun, fun _ => trivial⟩

section Served

variable [DecidableEq ι] {state after : Guarded.State ι Store Phase}

/-- Whatever happens, the scripts of named generations have finished. -/
theorem step_keeps (apart : hexdigest.TellsApart callers)
    (hold : (cacheConditions hexdigest host callers).Hold state)
    (step : Guarded.Step (cacheMoves hexdigest host callers) state after) :
    state.shared.Keeps after.shared := by
  rcases hold.writes step with
    same | change | ⟨id, phase, next, works, move⟩
  · rw [same]
    exact (Store.Undisturbed.refl state.shared).keeps
  · exact
      (change.elim ScriptMove.alteredIn TaskMove.alteredIn).keeps hold.sound
  · exact (move.kept apart hold.sound works).2.2.keeps

/-- Bootstrapping leaves the named generations as they are. -/
theorem step_undisturbed (apart : hexdigest.TellsApart callers)
    (hold : (cacheConditions hexdigest host callers).Hold state)
    (step : Guarded.Step (bootstrapMoves hexdigest host callers) state after) :
    state.shared.Undisturbed after.shared := by
  rcases hold.writes step with
    same | change | ⟨id, phase, next, works, move⟩
  · rw [same]
    exact .refl state.shared
  · exact change.undisturbed hold.sound
  · exact (move.kept apart hold.sound works).2.2

/-- A generation that serves a caller does so in all later states. -/
theorem serves_later {caller : Caller} {generation : Text}
    (apart : hexdigest.TellsApart callers)
    (hold : (cacheConditions hexdigest host callers).Hold state)
    (serves : Serves hexdigest caller state.shared generation)
    (reachable :
      Guarded.Reachable (cacheMoves hexdigest host callers) state after) :
    Serves hexdigest caller after.shared generation := by
  induction reachable with
  | refl => exact serves
  | tail before step induction =>
      have holdBefore :=
        Guarded.Reachable.hold (cacheConditions_kept apart) hold before
      exact induction.keeps (step_keeps apart holdBefore step)

/--
What a process returns points to a generation that has all its caller has
asked for.  It has so from then on, and no step of a bootstrap changes it.
-/
theorem cache_serves_complete (apart : hexdigest.TellsApart callers)
    (reachable :
      Guarded.Reachable (cacheMoves hexdigest host callers) (emptyCache ι)
        state)
    {id : ι} {config : TaskContainerExecConfig}
    (isReturned : state.processes id = .returned config)
    (bootstraps : (callers id).Bootstraps) :
    ∃ generation,
      config =
          execConfigWithBootstrapSiteDir hexdigest host (callers id)
            generation ∧
        ∀ later,
          Guarded.Reachable (cacheMoves hexdigest host callers) state later →
            later.shared.Completed ((callers id).cacheRoot hexdigest)
                generation (callers id).wanted ∧
              ∀ next,
                Guarded.Step (bootstrapMoves hexdigest host callers) later
                    next →
                  next.shared.generations ((callers id).cacheRoot hexdigest)
                      generation =
                    later.shared.generations
                      ((callers id).cacheRoot hexdigest) generation := by
  have hold :=
    Guarded.Reachable.hold (cacheConditions_kept apart) emptyCache_hold
      reachable
  have served : Served hexdigest host (callers id) state.shared config := by
    obtain ⟨works, waits⟩ := hold.processes id
    rw [isReturned] at works waits
    exact waits (fun holds => works holds) bootstraps
  obtain ⟨generation, isConfig, serves⟩ := served
  refine ⟨generation, isConfig, fun later isLater => ?_⟩
  have servesLater := serves_later apart hold serves isLater
  refine ⟨servesLater.completed, fun next step => ?_⟩
  have holdLater :=
    Guarded.Reachable.hold (cacheConditions_kept apart) hold isLater
  exact
    (step_undisturbed apart holdLater step).files _ _ servesLater.published

end Served

/-! ## An installation -/

section Installs

variable [DecidableEq ι] {id : ι}

/-- The process can be there with these files in the generation. -/
def CanHave (hexdigest : Hexdigest) (host : HostPaths) (callers : ι → Caller)
    (id : ι) (generation : Text) (phase : Phase) (files : Generation) :
    Prop :=
  ∃ store : Store,
    Guarded.CanBe (cacheMoves hexdigest host callers) (emptyCache ι) id store
        (some id) phase ∧
      store.generations ((callers id).cacheRoot hexdigest) generation =
        some files

/-- The script goes on. -/
theorem CanHave.script {generation : Text} {phase : Phase}
    {files left : Generation} {script : InstallScript}
    {progress next : Progress}
    (canHave : CanHave hexdigest host callers id generation phase files)
    (isScript : files.script = some (script, progress))
    (step : ScriptStep script files progress left next) :
    CanHave hexdigest host callers id generation phase
      { left with script := some (script, next) } := by
  obtain ⟨store, canBe, isFiles⟩ := canHave
  exact
    ⟨_, canBe.environment (.inl (.step isFiles isScript step)),
      if_pos ⟨rfl, rfl⟩⟩

/-- The first process can install a generation and return it. -/
theorem first_installs (hexdigest : Hexdigest) (host : HostPaths)
    (callers : ι → Caller) (id : ι) (time : Nat)
    (bootstraps : (callers id).Bootstraps) :
    ∃ state,
      Guarded.Reachable (cacheMoves hexdigest host callers) (emptyCache ι)
          state ∧
        state.processes id =
          .returned
            (execConfigWithBootstrapSiteDir hexdigest host (callers id)
              (generationName time (callers id).pid)) := by
  let generation := generationName time (callers id).pid
  have starts :
      Guarded.CanBe (cacheMoves hexdigest host callers) (emptyCache ι) id
        .empty none .starting :=
    ⟨_, .refl, rfl⟩
  have naming :
      Guarded.CanBe (cacheMoves hexdigest host callers) (emptyCache ι) id
        .empty (some id) .naming :=
    (((starts.outside nofun (.starts bootstraps)).outside nofun
      (.misses rfl)).acquires .locks).inside (.misses rfl)
  have fetching :
      CanHave hexdigest host callers id generation (.fetching generation)
        .empty :=
    ⟨_, (naming.inside (.names time rfl)).inside .makes,
      if_pos ⟨rfl, rfl⟩⟩
  have installing :
      CanHave hexdigest host callers id generation (.installing generation)
        { Generation.empty with
          script := some ((callers id).script hexdigest, .bootstrapping) } := by
    obtain ⟨store, canBe, isFiles⟩ := fetching
    refine ⟨_, canBe.inside .fetches, ?_⟩
    rw [Store.setScript, Store.generations_setGeneration,
      if_pos ⟨rfl, rfl⟩, isFiles]
    rfl
  have finished :=
    ((((installing.script rfl (.runsGetPip true none)).script rfl
      (.hasPip rfl)).script rfl .installed).script rfl .marks)
  obtain ⟨store, canBe, isFiles⟩ := finished
  have replacing := (canBe.inside (.succeeds isFiles rfl)).inside .writes
  obtain ⟨processes, reachable, isReturned⟩ :=
    (replacing.inside .replaces).releases .returns
  exact ⟨_, reachable, isReturned⟩

end Installs

end Runs

/-! ## A plain caller -/

def plainFingerprint : PythonFingerprint :=
  ⟨"3.12.3".toList, "CPython".toList, "cpython-312".toList, ".so".toList,
    "x86_64".toList, "glibc 2.39".toList, "ubuntu".toList, "24.04".toList⟩

def plainCaller : Caller where
  execConfig :=
    { runtime := "/usr/bin/python3".toList
      pythonpath := []
      startExtraArgs := []
      bootstrap := true
      bootstrapSiteDir := some []
      imagePlatform := some "linux/amd64".toList
      path := none
      pythonuserbase := none }
  extraRequirements := []
  environ := fun _ => []
  pid := 1
  onLinux := true
  machine := "x86_64".toList
  fingerprint := plainFingerprint
  sysExecutable := "/usr/bin/python3".toList

def plainHost : HostPaths := ⟨"/cache".toList, "/repo/src:/repo".toList⟩

/-- The digests of the settings and of the payload of the plain caller. -/
def plainHexdigest : Hexdigest where
  ofSettings := fun _ =>
    "01fefb55e77aeb71a5214e9fcf283f01".toList ++
      "34420ac92ed5990117aa0d9c8634b667".toList
  ofPayload := fun _ =>
    "0f10544a7645125f33c6a098fc80e689".toList ++
      "17aae0053ebb0219049a25e2c3dc25da".toList

/-- Of two processes one installs, and returns what it has installed. -/
theorem plainCaller_served :
    ∃ state generation,
      Guarded.Reachable
          (cacheMoves plainHexdigest plainHost fun _ : Bool => plainCaller)
          (emptyCache Bool) state ∧
        state.processes true =
            .returned
              (execConfigWithBootstrapSiteDir plainHexdigest plainHost
                plainCaller generation) ∧
          state.shared.Completed (plainCaller.cacheRoot plainHexdigest)
            generation plainCaller.wanted := by
  have bootstraps : plainCaller.Bootstraps := ⟨rfl, rfl⟩
  obtain ⟨state, reachable, isReturned⟩ :=
    first_installs plainHexdigest plainHost (fun _ : Bool => plainCaller) true
      0 bootstraps
  have apart : plainHexdigest.TellsApart fun _ : Bool => plainCaller :=
    fun _ _ _ => rfl
  obtain ⟨generation, isConfig, serves⟩ :=
    cache_serves_complete apart reachable isReturned bootstraps
  rw [isConfig] at isReturned
  exact ⟨state, generation, reachable, isReturned, (serves state .refl).1⟩

end AgentSchedBench.Harness
