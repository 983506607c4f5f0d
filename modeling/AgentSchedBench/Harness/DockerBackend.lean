import AgentSchedBench.Harness.FixedImages
import Mathlib.Data.List.Basic

/-!
# The sandbox backend

A start builds an image, starts a container from it and starts an agent in the
container; where one of these fails the backend cleans up by its handles.  The
image is removed only together with a container.  A start that has built its
image and has no container yet leaves the image behind, and no later stop
removes it.
-/

namespace AgentSchedBench.Harness

open AgentSchedBench.Trace (Text)

/-! ## The backend -/

/-- The arguments of the backend that its start and its stop read. -/
structure DockerConfig where
  registryPrefix : Text
  sourceImage : Text
  fixedImageName : Option Text
  fixedImagesBySource : Text → Option Text

/-- The name that `ensure_fixed_image` gives to the image. -/
def DockerConfig.builtName (config : DockerConfig) : Text :=
  let given := config.fixedImageName.getD []
  if given.isEmpty then
    fixedImageNameFor
      (normalizeImageReference config.registryPrefix config.sourceImage)
  else given

/-- The handles of a `DockerBackend`. -/
structure DockerBackend where
  containerId : Option Text
  hasAgent : Bool
  fixedImage : Option Text
  cleanupFixedImage : Bool
  checkpointStartMarkerNs : Option ℕ
deriving DecidableEq

/-- A backend that has not been started. -/
def DockerBackend.new : DockerBackend where
  containerId := none
  hasAgent := false
  fixedImage := none
  cleanupFixedImage := true
  checkpointStartMarkerNs := none

/-- What exists of what a backend creates. -/
structure Daemon where
  containers : List Text
  imageBuilt : Bool
deriving DecidableEq

/-- The calls that remove something. -/
inductive DaemonCall where
  | stopTaskContainer (containerId : Text)
  | removeImage (image : Text)
deriving DecidableEq

structure SandboxState where
  backend : DockerBackend
  daemon : Daemon
  calls : List DaemonCall
deriving DecidableEq

/-! ## How the steps end -/

/-- How an awaited call ends. -/
inductive Ending where
  | returned
  | raised
  | cancelled
deriving DecidableEq

inductive BackendCall where
  | ensureFixedImage
  | startTaskContainer
  | configureAptMirror
  | containerAgent
  | agentStart
  | agentStop
  | stopTaskContainer
  | removeImage
deriving DecidableEq

inductive BackendError where
  | recorder
  | noFixedImageName
  | raised (call : BackendCall)
  | cancelled (call : BackendCall)
deriving DecidableEq

def Ending.error (call : BackendCall) : Ending → Option BackendError
  | .returned => none
  | .raised => some (.raised call)
  | .cancelled => some (.cancelled call)

/-- What a failed `ensure_fixed_image` has done to the image. -/
inductive ImageChange where
  | kept
  | removed
  | built
deriving DecidableEq

/-- How `ensure_fixed_image` ends.  The thread of a cancelled call goes on, and
may build the image after the backend has cleaned up. -/
inductive EnsureEnd where
  | returned
  | raised (change : ImageChange)
  | cancelled (change : ImageChange) (builtLater : Bool)
deriving DecidableEq

/-- How `start_task_container` ends, with the container that it leaves. -/
inductive ContainerEnd where
  | returned (containerId : Text)
  | raised (left : Option Text)
  | cancelled (left : Option Text)
deriving DecidableEq

/-- How a removal ends, and whether its object is gone. -/
structure RemovalEnd where
  ending : Ending
  gone : Bool
deriving DecidableEq

/-- Which calls of the startup recorder return. -/
structure PhaseEnd where
  begins : Bool
  finishes : Bool
  reportsFailure : Bool
deriving DecidableEq

structure CleanupSteps where
  agent : Ending
  container : RemovalEnd
  image : RemovalEnd
deriving DecidableEq

structure StartSteps where
  ensurePhase : PhaseEnd
  ensure : EnsureEnd
  containerPhase : PhaseEnd
  container : ContainerEnd
  startedNs : ℕ
  mirrorPhase : PhaseEnd
  mirror : Ending
  agentCreated : Bool
  agentPhase : PhaseEnd
  agent : Ending
  startupWritten : Bool
  cleanup : CleanupSteps
deriving DecidableEq

/-! ## Cleaning up -/

/-- The result of a method, and the state that it leaves. -/
abbrev Attempt := Except BackendError Unit × SandboxState

/-- The first error is raised. -/
def raiseFirst : List (Option BackendError) → Except BackendError Unit
  | [] => .ok ()
  | none :: errors => raiseFirst errors
  | some error :: _ => .error error

namespace SandboxState

def clearAgent (state : SandboxState) : SandboxState :=
  { state with backend := { state.backend with hasAgent := false } }

/-- The recorded container is stopped. `stop_task_container` returns only when
the container is gone. -/
def stopContainer (removal : RemovalEnd) (state : SandboxState) :
    Option Ending × SandboxState :=
  match state.backend.containerId with
  | none => (none, state)
  | some containerId =>
      let containers :=
        if removal.ending = .returned ∨ removal.gone then
          state.daemon.containers.filter (· ≠ containerId)
        else state.daemon.containers
      (some removal.ending,
        { state with
          daemon := { state.daemon with containers }
          calls := state.calls ++ [.stopTaskContainer containerId]
          backend :=
            if removal.ending = .returned then
              { state.backend with
                containerId := none
                checkpointStartMarkerNs := none }
            else state.backend })

/-- The built image is removed, once the container has been stopped. -/
def removeFixedImage (config : DockerConfig) (stopped : Option Ending)
    (removal : RemovalEnd) (state : SandboxState) :
    Option Ending × SandboxState :=
  match state.backend.fixedImage with
  | none => (none, state)
  | some image =>
      if stopped = some .returned ∧ ¬ image.isEmpty ∧
          state.backend.cleanupFixedImage then
        (some removal.ending,
          { state with
            daemon :=
              { state.daemon with
                imageBuilt :=
                  if removal.gone ∧ image = config.builtName then false
                  else state.daemon.imageBuilt }
            calls := state.calls ++ [.removeImage image] })
      else (none, state)

end SandboxState

/-- What `stop` and `_cleanup_failed_start` have in common: the container is
stopped, and then the image is removed. -/
def SandboxState.release (config : DockerConfig) (steps : CleanupSteps)
    (state : SandboxState) : (Option Ending × Option Ending) × SandboxState :=
  let stopped := state.clearAgent.stopContainer steps.container
  let removed := stopped.2.removeFixedImage config stopped.1 steps.image
  ((stopped.1, removed.1), removed.2)

/-- `stop` -/
def stop (config : DockerConfig) (steps : CleanupSteps) (state : SandboxState) :
    Attempt :=
  let agentError :=
    if state.backend.hasAgent then steps.agent.error .agentStop else none
  let released := state.release config steps
  (raiseFirst
    [released.1.1.bind (Ending.error .stopTaskContainer), agentError,
      released.1.2.bind (Ending.error .removeImage)], released.2)

/-- `_cleanup_failed_start`, and the error that is raised after it -/
def cleanupFailedStart (config : DockerConfig) (steps : CleanupSteps)
    (original : BackendError) (state : SandboxState) : Attempt :=
  -- what the agent raises here is dropped
  let released := state.release config steps
  (raiseFirst
    [released.1.1.bind (Ending.error .stopTaskContainer),
      released.1.2.bind (Ending.error .removeImage), some original], released.2)

/-! ## Starting -/

def PhaseEnd.finish (phase : PhaseEnd) (state : SandboxState) : Attempt :=
  -- the handler reports the recorder's error to the recorder once more
  if phase.finishes then (.ok (), state) else (.error .recorder, state)

def PhaseEnd.fail (phase : PhaseEnd) (error : BackendError)
    (state : SandboxState) : Attempt :=
  (.error (if phase.reportsFailure then error else .recorder), state)

def Attempt.andThen (attempt : Attempt) (next : SandboxState → Attempt) :
    Attempt :=
  match attempt with
  | (.ok (), state) => next state
  | (.error error, state) => (.error error, state)

namespace SandboxState

def changeImage (change : ImageChange) (state : SandboxState) : SandboxState :=
  match change with
  | .kept => state
  | .removed => { state with daemon := { state.daemon with imageBuilt := false } }
  | .built => { state with daemon := { state.daemon with imageBuilt := true } }

def addContainer (containerId : Text) (state : SandboxState) : SandboxState :=
  { state with
    daemon :=
      { state.daemon with
        containers := state.daemon.containers.insert containerId } }

def addContainers (left : Option Text) (state : SandboxState) : SandboxState :=
  left.elim state state.addContainer

/-- `_ensure_fixed_image` -/
def ensureFixedImage (config : DockerConfig) (steps : StartSteps)
    (state : SandboxState) : Attempt :=
  let phase := steps.ensurePhase
  if ¬ phase.begins then (.error .recorder, state)
  else
    match config.fixedImagesBySource config.sourceImage with
    | some fixedName =>
        phase.finish
          { state with
            backend :=
              { state.backend with
                cleanupFixedImage := false
                fixedImage := some fixedName } }
    | none =>
        match config.fixedImageName with
        | none => phase.fail .noFixedImageName state
        | some _ =>
            match steps.ensure with
            | .returned =>
                let built := state.changeImage .built
                phase.finish
                  { built with
                    backend :=
                      { built.backend with fixedImage := some config.builtName } }
            | .raised change =>
                phase.fail (.raised .ensureFixedImage) (state.changeImage change)
            | .cancelled change _ =>
                phase.fail (.cancelled .ensureFixedImage) (state.changeImage change)

/-- `_start_container` -/
def startContainer (steps : StartSteps) (state : SandboxState) : Attempt :=
  let phase := steps.containerPhase
  if ¬ phase.begins then (.error .recorder, state)
  else
    match steps.container with
    | .returned containerId =>
        let started := state.addContainer containerId
        phase.finish
          { started with
            backend :=
              { started.backend with
                containerId := some containerId
                checkpointStartMarkerNs := some steps.startedNs } }
    | .raised left =>
        phase.fail (.raised .startTaskContainer) (state.addContainers left)
    | .cancelled left =>
        phase.fail (.cancelled .startTaskContainer) (state.addContainers left)

/-- `_configure_apt_mirror` -/
def configureAptMirror (steps : StartSteps) (state : SandboxState) : Attempt :=
  let phase := steps.mirrorPhase
  if ¬ phase.begins then (.error .recorder, state)
  else
    match steps.mirror.error .configureAptMirror with
    | none => phase.finish state
    | some error => phase.fail error state

/-- The agent of the container is created and started. -/
def startAgent (steps : StartSteps) (state : SandboxState) : Attempt :=
  let phase := steps.agentPhase
  if ¬ steps.agentCreated then (.error (.raised .containerAgent), state)
  else
    let state :=
      { state with backend := { state.backend with hasAgent := true } }
    if ¬ phase.begins then (.error .recorder, state)
    else
      match steps.agent.error .agentStart with
      | none => phase.finish state
      | some error => phase.fail error state

def writeStartup (steps : StartSteps) (state : SandboxState) : Attempt :=
  if steps.startupWritten then (.ok (), state) else (.error .recorder, state)

end SandboxState

/-- What `start` tries. -/
def startBody (config : DockerConfig) (steps : StartSteps)
    (state : SandboxState) : Attempt :=
  (state.ensureFixedImage config steps).andThen fun state =>
    (state.startContainer steps).andThen fun state =>
      (state.configureAptMirror steps).andThen fun state =>
        (state.startAgent steps).andThen fun state => state.writeStartup steps

/-- The call of `ensure_fixed_image` is reached. -/
def StartSteps.callsEnsure (config : DockerConfig) (steps : StartSteps) : Bool :=
  steps.ensurePhase.begins &&
    (config.fixedImagesBySource config.sourceImage).isNone &&
      config.fixedImageName.isSome

/-- The thread of a cancelled call builds the image after the cleanup. -/
def StartSteps.buildsLater (config : DockerConfig) (steps : StartSteps) : Bool :=
  steps.callsEnsure config &&
    match steps.ensure with
    | .cancelled _ builtLater => builtLater
    | _ => false

/-- `start` -/
def start (config : DockerConfig) (steps : StartSteps) (state : SandboxState) :
    Attempt :=
  match startBody config steps state with
  | (.ok (), started) => (.ok (), started)
  | (.error original, failed) =>
      let cleaned := cleanupFailedStart config steps.cleanup original failed
      (cleaned.1,
        if steps.buildsLater config then cleaned.2.changeImage .built
        else cleaned.2)

/-! ## Runs -/

inductive BackendOperation where
  | start (steps : StartSteps)
  | stop (steps : CleanupSteps)

def SandboxState.step (config : DockerConfig) (state : SandboxState) :
    BackendOperation → SandboxState
  | .start steps => (Harness.start config steps state).2
  | .stop steps => (Harness.stop config steps state).2

/-- A new backend after some starts and stops. -/
def SandboxState.run (config : DockerConfig) (daemon : Daemon)
    (operations : List BackendOperation) : SandboxState :=
  operations.foldl (SandboxState.step config) ⟨.new, daemon, []⟩

/-! ## What is asked of the backend -/

/-- The image step of a start goes through. -/
def StartSteps.ensured (config : DockerConfig) (steps : StartSteps) : Bool :=
  steps.ensurePhase.begins && steps.ensurePhase.finishes &&
    ((config.fixedImagesBySource config.sourceImage).isSome ||
      (config.fixedImageName.isSome && decide (steps.ensure = .returned)))

/-- The start builds the image, whether its call returns or not. -/
def StartSteps.Builds (config : DockerConfig) (steps : StartSteps) : Prop :=
  steps.callsEnsure config = true ∧
    (steps.ensure = .returned ∨ steps.ensure = .raised .built ∨
      (∃ builtLater, steps.ensure = .cancelled .built builtLater) ∨
        steps.buildsLater config = true)

/-- The container whose id the start gets. -/
def StartSteps.newContainer (config : DockerConfig) (steps : StartSteps) :
    Option Text :=
  if steps.ensured config && steps.containerPhase.begins then
    match steps.container with
    | .returned containerId => some containerId
    | _ => none
  else none

/-- The container that a failed call leaves, whose id nobody gets. -/
def StartSteps.strayContainer (config : DockerConfig) (steps : StartSteps) :
    Option Text :=
  if steps.ensured config && steps.containerPhase.begins then
    match steps.container with
    | .returned _ => none
    | .raised left | .cancelled left => left
  else none

/-- The start creates the container. -/
def StartSteps.Creates (config : DockerConfig) (steps : StartSteps)
    (containerId : Text) : Prop :=
  steps.newContainer config = some containerId ∨
    steps.strayContainer config = some containerId

/-- A stop whose removals succeed. -/
structure CleanupSteps.Clean (steps : CleanupSteps) : Prop where
  container : steps.container.ending = .returned
  imageReturned : steps.image.ending = .returned
  imageGone : steps.image.gone = true

/-- What a failed start has created is gone after a later stop, at the latest. -/
def LeaksNothing (config : DockerConfig) (steps : StartSteps)
    (state : SandboxState) : Prop :=
  ∀ later : CleanupSteps, later.Clean →
    let left := (stop config later (start config steps state).2).2.daemon
    (∀ containerId, steps.Creates config containerId →
      containerId ∉ left.containers) ∧
      (steps.Builds config → left.imageBuilt = false)

/-- A stop can be repeated, and removes the image after the container. -/
structure StopsInOrder (config : DockerConfig) (state : SandboxState) : Prop where
  -- after a stop that returns, no further stop does anything
  again : ∀ first, (stop config first state).1 = .ok () →
    ∀ second, stop config second (stop config first state).2 =
      (.ok (), (stop config first state).2)
  -- a stop that is repeated with the same outcomes changes nothing more
  repeated : ∀ steps,
    let stopped := (stop config steps state).2
    let repeated := (stop config steps stopped).2
    repeated.backend = stopped.backend ∧ repeated.daemon = stopped.daemon
  imageLast : ∀ steps before image after,
    (stop config steps state).2.calls =
        state.calls ++ before ++ .removeImage image :: after →
      ∃ containerId, state.backend.containerId = some containerId ∧
        .stopTaskContainer containerId ∈ before ∧
          containerId ∉ (stop config steps state).2.daemon.containers

/-- A failed start finds a container that it can stop together with the image
that it has built, and leaves no other container. -/
structure FailsSafely (config : DockerConfig) (recorded : Option Text)
    (steps : StartSteps) : Prop where
  noStray : ∀ containerId, steps.strayContainer config = some containerId →
    recorded = some containerId
  image : steps.Builds config →
    (steps.newContainer config).or recorded ≠ none ∧
      (steps.cleanup.container.ending = .returned →
        steps.cleanup.image.gone = true ∧ steps.buildsLater config = false)

/-! ## Releasing -/

theorem builtName_ne_nil (config : DockerConfig) : config.builtName ≠ [] := by
  unfold DockerConfig.builtName
  by_cases empty : (config.fixedImageName.getD []).isEmpty = true
  · rw [if_pos empty]
    exact List.append_ne_nil_of_left_ne_nil (List.cons_ne_nil _ _) _
  · rw [if_neg empty]
    intro isNil
    exact empty (List.isEmpty_iff.mpr isNil)

/-- The container is stopped and the built image removed with it. -/
structure RemovesImage (config : DockerConfig) (steps : CleanupSteps)
    (backend : DockerBackend) : Prop where
  hasContainer : backend.containerId ≠ none
  stopped : steps.container.ending = .returned
  image : backend.fixedImage = some config.builtName
  cleanup : backend.cleanupFixedImage = true
  gone : steps.image.gone = true

section Releasing

variable {config : DockerConfig} {steps : CleanupSteps} {state : SandboxState}

@[simp]
theorem removeFixedImage_backend {stopped : Option Ending} {removal : RemovalEnd} :
    (state.removeFixedImage config stopped removal).2.backend = state.backend := by
  rw [SandboxState.removeFixedImage]
  split
  · rfl
  · split <;> rfl

@[simp]
theorem removeFixedImage_containers {stopped : Option Ending}
    {removal : RemovalEnd} :
    (state.removeFixedImage config stopped removal).2.daemon.containers =
      state.daemon.containers := by
  rw [SandboxState.removeFixedImage]
  split
  · rfl
  · split <;> rfl

theorem removeFixedImage_imageBuilt {stopped : Option Ending}
    {removal : RemovalEnd} :
    (state.removeFixedImage config stopped removal).2.daemon.imageBuilt = true ↔
      state.daemon.imageBuilt = true ∧
        ¬ (stopped = some .returned ∧
          state.backend.fixedImage = some config.builtName ∧
            state.backend.cleanupFixedImage = true ∧ removal.gone = true) := by
  rw [SandboxState.removeFixedImage]
  split
  · next noImage =>
      rw [noImage]
      exact (and_iff_left fun removed => nomatch removed.2.1).symm
  · next image isImage =>
      rw [isImage, Option.some_inj]
      split
      · next removes =>
          dsimp only
          split
          · next gone =>
              refine iff_of_false Bool.false_ne_true fun kept => kept.2 ?_
              exact ⟨removes.1, gone.2, removes.2.2, gone.1⟩
          · next notGone =>
              refine (and_iff_left fun removed => notGone ?_).symm
              exact ⟨removed.2.2.2, removed.2.1⟩
      · next keeps =>
          refine (and_iff_left fun removed => keeps ?_).symm
          refine ⟨removed.1, ?_, removed.2.2.1⟩
          rw [removed.2.1, List.isEmpty_iff]
          exact builtName_ne_nil config

/-- A call to stop the container is made where one is recorded. -/
theorem stopContainer_fst {removal : RemovalEnd} :
    (state.stopContainer removal).1 =
      state.backend.containerId.map fun _ => removal.ending := by
  rw [SandboxState.stopContainer]
  cases state.backend.containerId <;> rfl

theorem stopContainer_backend {removal : RemovalEnd} :
    (state.stopContainer removal).2.backend =
      if state.backend.containerId ≠ none ∧ removal.ending = .returned then
        { state.backend with containerId := none, checkpointStartMarkerNs := none }
      else state.backend := by
  rw [SandboxState.stopContainer]
  split
  · next noContainer =>
      rw [if_neg fun stopped => stopped.1 noContainer]
  · next containerId isContainer =>
      have recorded : state.backend.containerId ≠ none := by
        rw [isContainer]
        exact nofun
      exact (if_congr (and_iff_right recorded) rfl rfl).symm

@[simp]
theorem stopContainer_imageBuilt {removal : RemovalEnd} :
    (state.stopContainer removal).2.daemon.imageBuilt = state.daemon.imageBuilt := by
  rw [SandboxState.stopContainer]
  split <;> rfl

theorem mem_stopContainer_containers {removal : RemovalEnd} {containerId : Text} :
    containerId ∈ (state.stopContainer removal).2.daemon.containers ↔
      containerId ∈ state.daemon.containers ∧
        ¬ (state.backend.containerId = some containerId ∧
          (removal.ending = .returned ∨ removal.gone = true)) := by
  rw [SandboxState.stopContainer]
  split
  · next noContainer =>
      rw [noContainer]
      exact (and_iff_left fun stopped => nomatch stopped.1).symm
  · next recorded isRecorded =>
      rw [isRecorded, Option.some_inj]
      dsimp only
      split
      · next gone =>
          rw [List.mem_filter, decide_eq_true_eq]
          refine and_congr_right fun _ => not_congr ?_
          exact ⟨fun same => ⟨same.symm, gone⟩, fun stopped => stopped.1.symm⟩
      · next notGone =>
          exact (and_iff_left fun stopped => notGone stopped.2).symm

theorem stopContainer_calls {removal : RemovalEnd} {containerId : Text}
    (isContainer : state.backend.containerId = some containerId) :
    (state.stopContainer removal).2.calls =
      state.calls ++ [.stopTaskContainer containerId] := by
  rw [SandboxState.stopContainer, isContainer]

theorem removeFixedImage_calls {stopped : Option Ending} {removal : RemovalEnd} :
    (state.removeFixedImage config stopped removal).2.calls = state.calls ∨
      stopped = some .returned ∧ ∃ image,
        (state.removeFixedImage config stopped removal).2.calls =
          state.calls ++ [.removeImage image] := by
  rw [SandboxState.removeFixedImage]
  split
  · exact Or.inl rfl
  · next image isImage =>
      split
      · next removes => exact Or.inr ⟨removes.1, image, rfl⟩
      · exact Or.inl rfl

/-! ### The state that is left -/

/-- Without a container nothing is released. -/
theorem release_of_none (noContainer : state.backend.containerId = none) :
    state.release config steps = ((none, none), state.clearAgent) := by
  have unchanged : state.clearAgent.stopContainer steps.container =
      (none, state.clearAgent) := by
    rw [SandboxState.stopContainer, SandboxState.clearAgent, noContainer]
  rw [SandboxState.release, unchanged]
  dsimp only
  rw [SandboxState.removeFixedImage]
  split
  · rfl
  · rw [if_neg fun stopped => nomatch stopped.1]

theorem release_containerId :
    (state.release config steps).2.backend.containerId =
      if steps.container.ending = .returned then none
      else state.backend.containerId := by
  rw [SandboxState.release]
  dsimp only
  rw [removeFixedImage_backend, stopContainer_backend, SandboxState.clearAgent]
  dsimp only
  split
  · next stopped => rw [if_pos stopped.2]
  · next kept =>
      split
      · next returned =>
          by_contra recorded
          exact kept ⟨recorded, returned⟩
      · rfl

/-- Only the container and the agent are forgotten. -/
theorem release_fixedImage :
    (state.release config steps).2.backend.fixedImage = state.backend.fixedImage ∧
      (state.release config steps).2.backend.cleanupFixedImage =
        state.backend.cleanupFixedImage := by
  rw [SandboxState.release]
  dsimp only
  rw [removeFixedImage_backend, stopContainer_backend]
  split <;> exact ⟨rfl, rfl⟩

theorem mem_release_containers {containerId : Text} :
    containerId ∈ (state.release config steps).2.daemon.containers ↔
      containerId ∈ state.daemon.containers ∧
        ¬ (state.backend.containerId = some containerId ∧
          (steps.container.ending = .returned ∨ steps.container.gone = true)) := by
  rw [SandboxState.release]
  dsimp only
  rw [removeFixedImage_containers, mem_stopContainer_containers]
  rfl

theorem release_imageBuilt :
    (state.release config steps).2.daemon.imageBuilt = true ↔
      state.daemon.imageBuilt = true ∧ ¬ RemovesImage config steps state.backend := by
  rw [SandboxState.release]
  dsimp only
  rw [removeFixedImage_imageBuilt, stopContainer_imageBuilt, stopContainer_fst,
    stopContainer_backend]
  refine and_congr_right fun _ => not_congr ⟨fun removed => ?_, fun removes => ?_⟩
  · obtain ⟨stopped, image, cleanup, gone⟩ := removed
    obtain ⟨containerId, isContainer, returned⟩ := Option.map_eq_some_iff.mp stopped
    have recorded : state.backend.containerId ≠ none :=
      Option.ne_none_iff_exists'.mpr ⟨containerId, isContainer⟩
    rw [if_pos ⟨recorded, returned⟩] at image cleanup
    exact ⟨recorded, returned, image, cleanup, gone⟩
  · rw [if_pos ⟨removes.hasContainer, removes.stopped⟩]
    obtain ⟨containerId, isContainer⟩ :=
      Option.ne_none_iff_exists'.mp removes.hasContainer
    refine ⟨Option.map_eq_some_iff.mpr ⟨containerId, isContainer, removes.stopped⟩,
      removes.image, removes.cleanup, removes.gone⟩

@[simp]
theorem release_hasAgent :
    (state.release config steps).2.backend.hasAgent = false := by
  rw [SandboxState.release]
  dsimp only
  rw [removeFixedImage_backend, stopContainer_backend]
  split <;> rfl

theorem clearAgent_of_hasNot (noAgent : state.backend.hasAgent = false) :
    state.clearAgent = state := by
  obtain ⟨⟨_, _, _, _, _⟩, _, _⟩ := state
  rw [SandboxState.clearAgent]
  dsimp only at noAgent ⊢
  rw [noAgent]

/-- The calls come in the order of the containers and their image. -/
theorem release_calls :
    (state.release config steps).2.calls = state.calls ∨
      ∃ containerId, state.backend.containerId = some containerId ∧
        ((state.release config steps).2.calls =
            state.calls ++ [.stopTaskContainer containerId] ∨
          steps.container.ending = .returned ∧ ∃ image,
            (state.release config steps).2.calls =
              state.calls ++ [.stopTaskContainer containerId, .removeImage image]) := by
  cases isContainer : state.backend.containerId with
  | none =>
      rw [release_of_none isContainer]
      exact Or.inl rfl
  | some containerId =>
      have first : (state.clearAgent.stopContainer steps.container).2.calls =
          state.calls ++ [.stopTaskContainer containerId] :=
        stopContainer_calls isContainer
      refine Or.inr ⟨containerId, rfl, ?_⟩
      rw [SandboxState.release]
      dsimp only
      rcases removeFixedImage_calls with kept | ⟨returned, image, removed⟩
      · exact Or.inl (kept.trans first)
      · rw [stopContainer_fst] at returned
        obtain ⟨_, -, isReturned⟩ := Option.map_eq_some_iff.mp returned
        refine Or.inr ⟨isReturned, image, removed.trans ?_⟩
        rw [first, List.append_assoc]
        rfl

/-! ### Stopping again -/

theorem stop_of_none {again : CleanupSteps}
    (noContainer : state.backend.containerId = none)
    (noAgent : state.backend.hasAgent = false) :
    stop config again state = (.ok (), state) := by
  rw [stop, release_of_none noContainer, noAgent, clearAgent_of_hasNot noAgent]
  rfl

/-- A stop that returns has stopped the container, if there was one. -/
theorem containerId_of_stop_ok (isOk : (stop config steps state).1 = .ok ()) :
    (stop config steps state).2.backend.containerId = none := by
  have isContainer : (stop config steps state).2.backend.containerId = _ :=
    release_containerId
  rw [isContainer]
  split
  · rfl
  · next notReturned =>
      cases recorded : state.backend.containerId with
      | none => rfl
      | some containerId =>
          have ended : (state.release config steps).1.1 =
              some steps.container.ending := by
            rw [SandboxState.release]
            dsimp only
            rw [stopContainer_fst, SandboxState.clearAgent, recorded]
            rfl
          rw [stop, ended] at isOk
          cases ending : steps.container.ending with
          | returned => exact absurd ending notReturned
          | raised | cancelled =>
              rw [ending] at isOk
              cases isOk

/-- A stop that fails keeps the handles. -/
theorem release_of_failed {containerId : Text}
    (isContainer : state.backend.containerId = some containerId)
    (failed : steps.container.ending ≠ .returned) :
    (state.release config steps).2 =
      { backend := state.clearAgent.backend
        daemon :=
          { state.daemon with
            containers :=
              if steps.container.gone = true then
                state.daemon.containers.filter (· ≠ containerId)
              else state.daemon.containers }
        calls := state.calls ++ [.stopTaskContainer containerId] } := by
  have stopped : (state.clearAgent.stopContainer steps.container).1 ≠
      some .returned := by
    rw [stopContainer_fst]
    intro returned
    obtain ⟨_, -, isReturned⟩ := Option.map_eq_some_iff.mp returned
    exact failed isReturned
  have kept : (state.clearAgent.stopContainer steps.container).2.removeFixedImage
      config (state.clearAgent.stopContainer steps.container).1 steps.image =
        (none, (state.clearAgent.stopContainer steps.container).2) := by
    rw [SandboxState.removeFixedImage]
    split
    · rfl
    · rw [if_neg fun removes => stopped removes.1]
  rw [SandboxState.release]
  dsimp only
  rw [kept, SandboxState.stopContainer, SandboxState.clearAgent, isContainer]
  dsimp only
  rw [if_neg failed]
  congr 2
  exact if_congr (or_iff_right failed) rfl rfl

/-- A second stop with the same outcomes finds what the first one has left. -/
theorem release_again :
    ((state.release config steps).2.release config steps).2.backend =
        (state.release config steps).2.backend ∧
      ((state.release config steps).2.release config steps).2.daemon =
        (state.release config steps).2.daemon := by
  cases recorded : (state.release config steps).2.backend.containerId with
  | none =>
      rw [release_of_none recorded, clearAgent_of_hasNot release_hasAgent]
      exact ⟨rfl, rfl⟩
  | some containerId =>
      have kept := recorded
      rw [release_containerId] at kept
      split at kept
      · cases kept
      · next failed =>
          rw [release_of_failed recorded failed, release_of_failed kept failed]
          refine ⟨rfl, ?_⟩
          dsimp only
          split
          · rw [List.filter_filter]
            simp only [Bool.and_self]
          · rfl

/-- The removal of an image is not the first call. -/
theorem removeImage_after_stop {containerId image : Text}
    {calls before after : List DaemonCall}
    (isCalls : .stopTaskContainer containerId :: calls =
      before ++ .removeImage image :: after) :
    .stopTaskContainer containerId ∈ before ∧ calls ≠ [] := by
  cases before with
  | nil => cases isCalls
  | cons first rest =>
      rw [List.cons_append, List.cons.injEq] at isCalls
      refine ⟨List.mem_cons.mpr (Or.inl isCalls.1), ?_⟩
      rw [isCalls.2]
      exact List.append_ne_nil_of_right_ne_nil _ (List.cons_ne_nil _ _)

/-- A stop can be repeated, and removes the image after the container. -/
theorem stop_inOrder (config : DockerConfig) (state : SandboxState) :
    StopsInOrder config state where
  again := by
    intro first isOk second
    exact stop_of_none (containerId_of_stop_ok isOk) release_hasAgent
  repeated := fun steps => release_again
  imageLast := by
    intro steps before image after isCalls
    have isCalls : (state.release config steps).2.calls =
        state.calls ++ before ++ .removeImage image :: after := isCalls
    rw [List.append_assoc] at isCalls
    rcases release_calls with kept | ⟨containerId, recorded, one | ⟨returned, _, two⟩⟩
    · rw [kept, List.self_eq_append_right] at isCalls
      cases List.append_eq_nil_iff.mp isCalls |>.2
    · rw [one, List.append_cancel_left_eq] at isCalls
      exact absurd rfl (removeImage_after_stop isCalls).2
    · rw [two, List.append_cancel_left_eq] at isCalls
      obtain ⟨inBefore, -⟩ := removeImage_after_stop isCalls
      refine ⟨containerId, recorded, inBefore, fun left => ?_⟩
      exact (mem_release_containers.mp left).2 ⟨recorded, Or.inl returned⟩

end Releasing

/-! ## Starting and failing -/

/-- A backend that builds its image removes it, and has recorded it before it
records a container. -/
structure OwnsImage (config : DockerConfig) (backend : DockerBackend) : Prop where
  cleanup : config.fixedImagesBySource config.sourceImage = none →
    backend.cleanupFixedImage = true
  image : config.fixedImagesBySource config.sourceImage = none →
    backend.containerId ≠ none → backend.fixedImage = some config.builtName

/-- What the image step leaves. -/
structure ImageStepEnd (config : DockerConfig) (steps : StartSteps)
    (state : SandboxState) (attempt : Attempt) : Prop where
  ended : attempt.1 = .ok () ↔ steps.ensured config = true
  containerId : attempt.2.backend.containerId = state.backend.containerId
  containers : attempt.2.daemon.containers = state.daemon.containers
  built : steps.Builds config →
    attempt.2.daemon.imageBuilt = true ∨ steps.buildsLater config = true
  owns : OwnsImage config attempt.2.backend
  recorded : steps.ensured config = true →
    config.fixedImagesBySource config.sourceImage = none →
      attempt.2.backend.fixedImage = some config.builtName

section Starting

variable {config : DockerConfig} {steps : StartSteps} {state : SandboxState}

theorem finish_fst {phase : PhaseEnd} :
    (phase.finish state).1 = .ok () ↔ phase.finishes = true := by
  rw [PhaseEnd.finish]
  split
  · next finishes => exact iff_of_true rfl finishes
  · next raises => exact iff_of_false nofun raises

@[simp]
theorem finish_snd {phase : PhaseEnd} : (phase.finish state).2 = state := by
  rw [PhaseEnd.finish]
  split <;> rfl

theorem changeImage_backend {change : ImageChange} :
    (state.changeImage change).backend = state.backend := by
  cases change <;> rfl

theorem changeImage_containers {change : ImageChange} :
    (state.changeImage change).daemon.containers = state.daemon.containers := by
  cases change <;> rfl

theorem not_builds_of_not_calls (notCalled : steps.callsEnsure config = false) :
    ¬ steps.Builds config := by
  rintro ⟨called, -⟩
  rw [notCalled] at called
  cases called

/-- A failed call of `ensure_fixed_image` records nothing. -/
theorem imageStepEnd_failed {change : ImageChange} {error : BackendError}
    (owns : OwnsImage config state.backend)
    (notEnsured : steps.ensured config = false)
    (built : steps.Builds config →
      change = .built ∨ steps.buildsLater config = true) :
    ImageStepEnd config steps state
      (steps.ensurePhase.fail error (state.changeImage change)) where
  ended := by
    rw [notEnsured]
    exact iff_of_false nofun Bool.false_ne_true
  containerId := congrArg _ changeImage_backend
  containers := changeImage_containers
  built := by
    intro builds
    rcases built builds with rfl | later
    · exact Or.inl rfl
    · exact Or.inr later
  owns := changeImage_backend.symm ▸ owns
  recorded := by
    rw [notEnsured]
    exact nofun

theorem ensureFixedImage_end (owns : OwnsImage config state.backend) :
    ImageStepEnd config steps state (state.ensureFixedImage config steps) := by
  rw [SandboxState.ensureFixedImage]
  dsimp only
  cases begins : steps.ensurePhase.begins with
  | false =>
      have notEnsured : steps.ensured config = false := by
        rw [StartSteps.ensured, begins]
        rfl
      have notBuilt : ¬ steps.Builds config :=
        not_builds_of_not_calls (by rw [StartSteps.callsEnsure, begins]; rfl)
      rw [if_pos Bool.false_ne_true]
      refine ⟨?_, rfl, rfl, fun builds => absurd builds notBuilt, owns, ?_⟩
      · rw [notEnsured]
        exact iff_of_false nofun Bool.false_ne_true
      · rw [notEnsured]
        exact nofun
  | true =>
      rw [if_neg (not_not.mpr rfl)]
      cases prebuilt : config.fixedImagesBySource config.sourceImage with
      | some fixedName =>
          have notBuilt : ¬ steps.Builds config :=
            not_builds_of_not_calls
              (by rw [StartSteps.callsEnsure, begins, prebuilt]; rfl)
          dsimp only
          refine ⟨?_, by rw [finish_snd], by rw [finish_snd],
            fun builds => absurd builds notBuilt, ?_, ?_⟩
          · rw [finish_fst, StartSteps.ensured, begins, prebuilt]
            exact iff_of_eq (by rw [Bool.true_and, Option.isSome_some, Bool.true_or,
              Bool.and_true])
          · exact ⟨by rw [prebuilt]; exact nofun, by rw [prebuilt]; exact nofun⟩
          · rw [prebuilt]
            exact fun _ => nofun
      | none =>
          cases named : config.fixedImageName with
          | none =>
              have notEnsured : steps.ensured config = false := by
                rw [StartSteps.ensured, prebuilt, named]
                exact Bool.and_false _
              have notBuilt : ¬ steps.Builds config :=
                not_builds_of_not_calls
                  (by rw [StartSteps.callsEnsure, named]; exact Bool.and_false _)
              show ImageStepEnd config steps state
                (steps.ensurePhase.fail _ (state.changeImage .kept))
              exact imageStepEnd_failed owns notEnsured fun builds =>
                absurd builds notBuilt
          | some name =>
              cases ensure : steps.ensure with
              | returned =>
                  dsimp only
                  refine ⟨?_, by rw [finish_snd]; rfl, by rw [finish_snd]; rfl, ?_, ?_, ?_⟩
                  · rw [finish_fst, StartSteps.ensured, begins, prebuilt, named, ensure]
                    exact iff_of_eq (congrArg (· = true) (Bool.and_true _).symm)
                  · rw [finish_snd]
                    exact fun _ => Or.inl rfl
                  · rw [finish_snd]
                    exact ⟨owns.cleanup, fun _ _ => rfl⟩
                  · rw [finish_snd]
                    exact fun _ _ => rfl
              | raised change =>
                  refine imageStepEnd_failed owns ?_ fun builds => ?_
                  · rw [StartSteps.ensured, prebuilt, ensure]
                    exact (congrArg _ (Bool.and_false _)).trans (Bool.and_false _)
                  · rcases builds.2 with returned | raised | ⟨_, cancelled⟩ | later
                    · rw [ensure] at returned
                      cases returned
                    · rw [ensure] at raised
                      exact Or.inl (EnsureEnd.raised.inj raised)
                    · rw [ensure] at cancelled
                      cases cancelled
                    · exact Or.inr later
              | cancelled change builtLater =>
                  refine imageStepEnd_failed owns ?_ fun builds => ?_
                  · rw [StartSteps.ensured, prebuilt, ensure]
                    exact (congrArg _ (Bool.and_false _)).trans (Bool.and_false _)
                  · rcases builds.2 with returned | raised | ⟨_, cancelled⟩ | later
                    · rw [ensure] at returned
                      cases returned
                    · rw [ensure] at raised
                      cases raised
                    · rw [ensure] at cancelled
                      exact Or.inl (EnsureEnd.cancelled.inj cancelled).1
                    · exact Or.inr later

/-- What the container step leaves. -/
structure ContainerStepEnd (config : DockerConfig) (steps : StartSteps)
    (before after : SandboxState) : Prop where
  containerId : after.backend.containerId =
    (steps.newContainer config).or before.backend.containerId
  containers : ∀ containerId, containerId ∈ after.daemon.containers ↔
    containerId ∈ before.daemon.containers ∨ steps.Creates config containerId
  imageBuilt : after.daemon.imageBuilt = before.daemon.imageBuilt
  fixedImage : after.backend.fixedImage = before.backend.fixedImage
  cleanup : after.backend.cleanupFixedImage = before.backend.cleanupFixedImage

theorem not_creates {containerId : Text}
    (noNew : steps.newContainer config = none)
    (noStray : steps.strayContainer config = none) :
    ¬ steps.Creates config containerId := by
  rintro (isNew | isStray)
  · rw [noNew] at isNew
    cases isNew
  · rw [noStray] at isStray
    cases isStray

theorem newContainer_of_stray {containerId : Text}
    (isStray : steps.strayContainer config = some containerId) :
    steps.newContainer config = none := by
  rw [StartSteps.strayContainer] at isStray
  rw [StartSteps.newContainer]
  split
  · next reached =>
      rw [if_pos reached] at isStray
      split
      · next started =>
          rw [started] at isStray
          cases isStray
      · rfl
  · rfl

/-- Nothing is created, and no container is recorded. -/
theorem containerStepEnd_none (noNew : steps.newContainer config = none)
    (noStray : steps.strayContainer config = none) :
    ContainerStepEnd config steps state state where
  containerId := by rw [noNew, Option.none_or]
  containers := by
    intro containerId
    exact (or_iff_left (not_creates noNew noStray)).symm
  imageBuilt := rfl
  fixedImage := rfl
  cleanup := rfl

/-- A failed call may leave a container, whose id is not recorded. -/
theorem containerStepEnd_stray {left : Option Text}
    (noNew : steps.newContainer config = none)
    (stray : steps.strayContainer config = left) :
    ContainerStepEnd config steps state (state.addContainers left) := by
  cases left with
  | none => exact containerStepEnd_none noNew stray
  | some left =>
      refine ⟨by rw [noNew, Option.none_or]; rfl, fun containerId => ?_, rfl, rfl, rfl⟩
      rw [StartSteps.Creates, noNew, stray, Option.some_inj,
        or_iff_right (a := none = some containerId) nofun, or_comm, eq_comm]
      exact List.mem_insert_iff

theorem startContainer_end (ensured : steps.ensured config = true) :
    ContainerStepEnd config steps state (state.startContainer steps).2 := by
  rw [SandboxState.startContainer]
  dsimp only
  cases begins : steps.containerPhase.begins with
  | false =>
      rw [if_pos Bool.false_ne_true]
      refine containerStepEnd_none ?_ ?_
      · rw [StartSteps.newContainer, begins, Bool.and_false, if_neg Bool.false_ne_true]
      · rw [StartSteps.strayContainer, begins, Bool.and_false,
          if_neg Bool.false_ne_true]
  | true =>
      have reached : (steps.ensured config && steps.containerPhase.begins) = true := by
        rw [ensured, begins]
        rfl
      rw [if_neg (not_not.mpr rfl)]
      cases container : steps.container with
      | returned containerId =>
          have isNew : steps.newContainer config = some containerId := by
            rw [StartSteps.newContainer, if_pos reached, container]
          have noStray : steps.strayContainer config = none := by
            rw [StartSteps.strayContainer, if_pos reached, container]
          dsimp only
          rw [finish_snd]
          refine ⟨by rw [isNew]; rfl, fun other => ?_, rfl, rfl, rfl⟩
          rw [StartSteps.Creates, isNew, noStray, Option.some_inj,
            or_iff_left (b := none = some other) nofun, or_comm, eq_comm]
          exact List.mem_insert_iff
      | raised left =>
          refine containerStepEnd_stray ?_ ?_
          · rw [StartSteps.newContainer, if_pos reached, container]
          · rw [StartSteps.strayContainer, if_pos reached, container]
      | cancelled left =>
          refine containerStepEnd_stray ?_ ?_
          · rw [StartSteps.newContainer, if_pos reached, container]
          · rw [StartSteps.strayContainer, if_pos reached, container]

/-! ### The whole start -/

/-- Apart from the agent, nothing is changed. -/
structure SameHandles (before after : SandboxState) : Prop where
  daemon : after.daemon = before.daemon
  containerId : after.backend.containerId = before.backend.containerId
  fixedImage : after.backend.fixedImage = before.backend.fixedImage
  cleanup : after.backend.cleanupFixedImage = before.backend.cleanupFixedImage

theorem SameHandles.refl (state : SandboxState) : SameHandles state state :=
  ⟨rfl, rfl, rfl, rfl⟩

theorem SameHandles.trans {first second third : SandboxState}
    (left : SameHandles first second) (right : SameHandles second third) :
    SameHandles first third where
  daemon := right.daemon.trans left.daemon
  containerId := right.containerId.trans left.containerId
  fixedImage := right.fixedImage.trans left.fixedImage
  cleanup := right.cleanup.trans left.cleanup

theorem SameHandles.andThen {attempt : Attempt} {next : SandboxState → Attempt}
    (first : SameHandles state attempt.2)
    (rest : ∀ other, SameHandles other (next other).2) :
    SameHandles state (attempt.andThen next).2 := by
  obtain ⟨_ | ⟨⟩, after⟩ := attempt
  · exact first
  · exact first.trans (rest after)

theorem configureAptMirror_same :
    SameHandles state (state.configureAptMirror steps).2 := by
  rw [SandboxState.configureAptMirror]
  split
  · exact .refl state
  · split
    · rw [finish_snd]
      exact .refl state
    · exact .refl state

theorem startAgent_same : SameHandles state (state.startAgent steps).2 := by
  rw [SandboxState.startAgent]
  split
  · exact .refl state
  · split
    · exact ⟨rfl, rfl, rfl, rfl⟩
    · split
      · rw [finish_snd]
        exact ⟨rfl, rfl, rfl, rfl⟩
      · exact ⟨rfl, rfl, rfl, rfl⟩

theorem writeStartup_same : SameHandles state (state.writeStartup steps).2 := by
  rw [SandboxState.writeStartup]
  split <;> exact .refl state

/-- What a start has done before it ends or cleans up. -/
structure BodyEnd (config : DockerConfig) (steps : StartSteps)
    (before after : SandboxState) : Prop where
  containerId : after.backend.containerId =
    (steps.newContainer config).or before.backend.containerId
  containers : ∀ containerId, steps.Creates config containerId →
    containerId ∈ after.daemon.containers
  built : steps.Builds config →
    after.daemon.imageBuilt = true ∨ steps.buildsLater config = true
  owns : OwnsImage config after.backend

theorem startBody_end (owns : OwnsImage config state.backend) :
    BodyEnd config steps state (startBody config steps state).2 := by
  have image : ImageStepEnd config steps state _ := ensureFixedImage_end owns
  rw [startBody]
  rcases isEnsured : state.ensureFixedImage config steps with ⟨error | ⟨⟩, ensured⟩
  · rw [isEnsured] at image
    have notEnsured : steps.ensured config = false :=
      Bool.eq_false_iff.mpr fun isTrue => nomatch image.ended.mpr isTrue
    have noNew : steps.newContainer config = none := by
      rw [StartSteps.newContainer, notEnsured, Bool.false_and,
        if_neg Bool.false_ne_true]
    have noStray : steps.strayContainer config = none := by
      rw [StartSteps.strayContainer, notEnsured, Bool.false_and,
        if_neg Bool.false_ne_true]
    refine ⟨?_, fun containerId creates => ?_, image.built, image.owns⟩
    · rw [noNew, Option.none_or]
      exact image.containerId
    · exact absurd creates (not_creates noNew noStray)
  · rw [isEnsured] at image
    have isTrue := image.ended.mp rfl
    have container : ContainerStepEnd config steps ensured _ :=
      startContainer_end isTrue
    have rest : SameHandles (ensured.startContainer steps).2
        ((ensured.startContainer steps).andThen fun state =>
          (state.configureAptMirror steps).andThen fun state =>
            (state.startAgent steps).andThen fun state => state.writeStartup steps).2 :=
      (SameHandles.refl _).andThen fun _ =>
        configureAptMirror_same.andThen fun _ =>
          startAgent_same.andThen fun _ => writeStartup_same
    refine ⟨?_, fun containerId creates => ?_, fun builds => ?_, ?_, fun prebuilt _ => ?_⟩
    · exact rest.containerId.trans (container.containerId.trans
        (congrArg _ image.containerId))
    · have created := (container.containers containerId).mpr (Or.inr creates)
      exact (congrArg Daemon.containers rest.daemon).symm ▸ created
    · refine (image.built builds).imp_left fun isBuilt => ?_
      exact (congrArg Daemon.imageBuilt rest.daemon).trans
        (container.imageBuilt.trans isBuilt)
    · intro prebuilt
      exact rest.cleanup.trans (container.cleanup.trans (image.owns.cleanup prebuilt))
    · exact rest.fixedImage.trans
        (container.fixedImage.trans (image.recorded isTrue prebuilt))

/-- A failed start ends as its body has ended, released. -/
theorem start_of_error {error : BackendError} {after : SandboxState}
    (isBody : startBody config steps state = (.error error, after)) :
    (start config steps state).2 =
      if steps.buildsLater config then
        (after.release config steps.cleanup).2.changeImage .built
      else (after.release config steps.cleanup).2 := by
  rw [start, isBody]
  rfl

theorem start_of_ok {after : SandboxState}
    (isBody : startBody config steps state = (.ok (), after)) :
    start config steps state = (.ok (), after) := by
  rw [start, isBody]

theorem OwnsImage.release {cleanup : CleanupSteps}
    (owns : OwnsImage config state.backend) :
    OwnsImage config (state.release config cleanup).2.backend where
  cleanup := fun prebuilt => release_fixedImage.2.trans (owns.cleanup prebuilt)
  image := by
    intro prebuilt recorded
    rw [release_containerId] at recorded
    split at recorded
    · exact absurd rfl recorded
    · exact release_fixedImage.1.trans (owns.image prebuilt recorded)

theorem OwnsImage.start (owns : OwnsImage config state.backend) :
    OwnsImage config (start config steps state).2.backend := by
  have body : OwnsImage config (startBody config steps state).2.backend :=
    (startBody_end owns).owns
  cases isBody : startBody config steps state with
  | mk result after =>
      rw [isBody] at body
      cases result with
      | ok =>
          rw [start_of_ok isBody]
          exact body
      | error error =>
          rw [start_of_error isBody]
          split
          · rw [changeImage_backend]
            exact body.release
          · exact body.release

/-- In all runs the backend owns what it has built. -/
theorem OwnsImage.run (config : DockerConfig) (daemon : Daemon)
    (operations : List BackendOperation) :
    OwnsImage config (SandboxState.run config daemon operations).backend := by
  have step (operations : List BackendOperation) (state : SandboxState)
      (owns : OwnsImage config state.backend) :
      OwnsImage config (operations.foldl (SandboxState.step config) state).backend := by
    induction operations generalizing state with
    | nil => exact owns
    | cons operation rest induction =>
        rw [List.foldl_cons]
        apply induction
        cases operation with
        | start steps => exact owns.start
        | stop steps => exact owns.release
  exact step operations ⟨.new, daemon, []⟩ ⟨fun _ => rfl, fun _ => absurd rfl⟩

/-! ### What is left of a failed start -/

/-- What a clean stop leaves are the containers that are not recorded. -/
theorem mem_stop_containers {later : CleanupSteps} (clean : later.Clean)
    {containerId : Text} :
    containerId ∈ (stop config later state).2.daemon.containers ↔
      containerId ∈ state.daemon.containers ∧
        state.backend.containerId ≠ some containerId := by
  have inRelease : containerId ∈ (state.release config later).2.daemon.containers ↔
      _ := mem_release_containers
  refine inRelease.trans (and_congr_right fun _ => ?_)
  rw [clean.container, and_iff_left (Or.inl rfl)]

/-- A clean stop removes the image that is owned with a container. -/
theorem stop_imageBuilt {later : CleanupSteps} (clean : later.Clean)
    (owns : OwnsImage config state.backend)
    (notPrebuilt : config.fixedImagesBySource config.sourceImage = none) :
    (stop config later state).2.daemon.imageBuilt = true ↔
      state.daemon.imageBuilt = true ∧ state.backend.containerId = none := by
  have isReleased : (state.release config later).2.daemon.imageBuilt = true ↔ _ :=
    release_imageBuilt
  refine isReleased.trans (and_congr_right fun _ => ?_)
  constructor
  · intro keeps
    by_contra recorded
    exact keeps ⟨recorded, clean.container, owns.image notPrebuilt recorded,
      owns.cleanup notPrebuilt, clean.imageGone⟩
  · exact fun noContainer removes => removes.hasContainer noContainer

theorem StartSteps.Builds.notPrebuilt (builds : steps.Builds config) :
    config.fixedImagesBySource config.sourceImage = none := by
  have called := builds.1
  rw [StartSteps.callsEnsure, Bool.and_eq_true, Bool.and_eq_true] at called
  exact Option.isNone_iff_eq_none.mp called.1.2

/-- What a failed start has left. -/
structure FailedStart (config : DockerConfig) (steps : StartSteps)
    (before after : SandboxState) : Prop where
  containerId : after.backend.containerId =
    if steps.cleanup.container.ending = .returned then none
    else (steps.newContainer config).or before.backend.containerId
  kept : ∀ containerId, steps.Creates config containerId →
    (steps.newContainer config).or before.backend.containerId ≠ some containerId →
      containerId ∈ after.daemon.containers
  stopped : ∀ containerId, steps.cleanup.container.ending = .returned →
    (steps.newContainer config).or before.backend.containerId = some containerId →
      containerId ∉ after.daemon.containers
  image : steps.Builds config →
    (after.daemon.imageBuilt = true ↔
      steps.buildsLater config = true ∨
        ¬ ((steps.newContainer config).or before.backend.containerId ≠ none ∧
          steps.cleanup.container.ending = .returned ∧
            steps.cleanup.image.gone = true))
  owns : OwnsImage config after.backend

theorem failedStart (owns : OwnsImage config state.backend)
    (fails : (start config steps state).1 ≠ .ok ()) :
    FailedStart config steps state (start config steps state).2 := by
  have owned : OwnsImage config (start config steps state).2.backend := owns.start
  have body : BodyEnd config steps state _ := startBody_end owns
  cases isBody : startBody config steps state with
  | mk result after =>
      rw [isBody] at body
      cases result with
      | ok =>
          rw [start_of_ok isBody] at fails
          exact absurd rfl fails
      | error error =>
          have backend : (start config steps state).2.backend =
              (after.release config steps.cleanup).2.backend := by
            rw [start_of_error isBody]
            split
            · exact changeImage_backend
            · rfl
          have containers : (start config steps state).2.daemon.containers =
              (after.release config steps.cleanup).2.daemon.containers := by
            rw [start_of_error isBody]
            split
            · exact changeImage_containers
            · rfl
          have image : (start config steps state).2.daemon.imageBuilt = true ↔
              steps.buildsLater config = true ∨
                (after.release config steps.cleanup).2.daemon.imageBuilt = true := by
            rw [start_of_error isBody]
            split
            · next later => exact iff_of_true rfl (Or.inl later)
            · next notLater => exact (or_iff_right notLater).symm
          refine ⟨?_, fun containerId creates differs => ?_,
            fun containerId returned isHeld => ?_, fun builds => ?_, owned⟩
          · rw [backend, release_containerId, body.containerId]
          · rw [containers, mem_release_containers, body.containerId]
            exact ⟨body.containers containerId creates, fun stopped => differs stopped.1⟩
          · rw [containers, mem_release_containers, body.containerId]
            exact fun left => left.2 ⟨isHeld, Or.inl returned⟩
          · have removes : RemovesImage config steps.cleanup after.backend ↔
                (steps.newContainer config).or state.backend.containerId ≠ none ∧
                  steps.cleanup.container.ending = .returned ∧
                    steps.cleanup.image.gone = true := by
              rw [← body.containerId]
              constructor
              · exact fun removes => ⟨removes.hasContainer, removes.stopped, removes.gone⟩
              · rintro ⟨recorded, stopped, gone⟩
                exact ⟨recorded, stopped, body.owns.image builds.notPrebuilt recorded,
                  body.owns.cleanup builds.notPrebuilt, gone⟩
            rw [image, release_imageBuilt, removes]
            rcases body.built builds with isBuilt | later
            · rw [and_iff_right isBuilt]
            · exact iff_of_true (Or.inl later) (Or.inl later)

/-- A failed start leaks nothing exactly when it fails safely. -/
theorem leaksNothing_iff (owns : OwnsImage config state.backend)
    (fails : (start config steps state).1 ≠ .ok ()) :
    LeaksNothing config steps state ↔
      FailsSafely config state.backend.containerId steps := by
  have failed := failedStart owns fails
  have isImage {later : CleanupSteps} (clean : later.Clean)
      (builds : steps.Builds config) :=
    stop_imageBuilt clean failed.owns builds.notPrebuilt
  constructor
  · intro leaksNothing
    have clean : CleanupSteps.Clean
        ⟨.returned, ⟨.returned, true⟩, ⟨.returned, true⟩⟩ := ⟨rfl, rfl, rfl⟩
    obtain ⟨containers, image⟩ := leaksNothing _ clean
    refine ⟨fun containerId isStray => ?_, fun builds => ?_⟩
    · by_contra differs
      have held : (steps.newContainer config).or state.backend.containerId ≠
          some containerId := by
        rw [newContainer_of_stray isStray, Option.none_or]
        exact differs
      refine containers containerId (Or.inr isStray)
        ((mem_stop_containers clean).mpr ⟨failed.kept _ (Or.inr isStray) held, ?_⟩)
      rw [failed.containerId]
      split
      · exact nofun
      · exact held
    · have lost : ¬ ((start config steps state).2.daemon.imageBuilt = true ∧
          (start config steps state).2.backend.containerId = none) := by
        rw [← isImage clean builds, image builds]
        exact Bool.false_ne_true
      rw [failed.image builds, failed.containerId] at lost
      refine ⟨fun noContainer => lost ⟨Or.inr fun removes => removes.1 noContainer, ?_⟩,
        fun returned => ?_⟩
      · rw [noContainer, ite_self]
      · rw [if_pos returned, and_iff_left rfl, not_or, not_not] at lost
        exact ⟨lost.2.2.2, Bool.eq_false_iff.mpr lost.1⟩
  · intro safely later clean
    refine ⟨fun containerId creates left => ?_, fun builds => ?_⟩
    · obtain ⟨left, notRecorded⟩ := (mem_stop_containers clean).mp left
      have held : (steps.newContainer config).or state.backend.containerId =
          some containerId := by
        rcases creates with isNew | isStray
        · rw [isNew, Option.some_or]
        · rw [newContainer_of_stray isStray, Option.none_or]
          exact safely.noStray containerId isStray
      rw [failed.containerId] at notRecorded
      split at notRecorded
      · next returned => exact failed.stopped containerId returned held left
      · exact notRecorded held
    · obtain ⟨held, removed⟩ := safely.image builds
      refine Bool.eq_false_iff.mpr fun isBuilt => ?_
      obtain ⟨left, noContainer⟩ := (isImage clean builds).mp isBuilt
      rw [failed.containerId] at noContainer
      split at noContainer
      · next returned =>
          obtain ⟨gone, notLater⟩ := removed returned
          rcases (failed.image builds).mp left with later | keeps
          · rw [notLater] at later
            cases later
          · exact keeps ⟨held, returned, gone⟩
      · exact held noContainer

/-- In any run, a failed start leaks nothing exactly when it fails safely; that
stops can be repeated and remove the image last holds of each state. -/
theorem failedStart_leaksNothing_iff (config : DockerConfig) (daemon : Daemon)
    (operations : List BackendOperation) (steps : StartSteps)
    (fails : (start config steps (SandboxState.run config daemon operations)).1 ≠
      .ok ()) :
    LeaksNothing config steps (SandboxState.run config daemon operations) ∧
        StopsInOrder config (SandboxState.run config daemon operations) ↔
      FailsSafely config
        (SandboxState.run config daemon operations).backend.containerId steps := by
  rw [and_iff_left (stop_inOrder config _)]
  exact leaksNothing_iff (OwnsImage.run config daemon operations) fails

end Starting

/-! ### Two starts -/

/-- A backend that builds its own image. -/
def ownImageConfig : DockerConfig where
  registryPrefix := []
  sourceImage := "task".toList
  fixedImageName := some "task-run-1".toList
  fixedImagesBySource := fun _ => none

/-- A start that fails where the mirror or the container fails. -/
def failingStart (container : ContainerEnd) (mirror : Ending) : StartSteps where
  ensurePhase := ⟨true, true, true⟩
  ensure := .returned
  containerPhase := ⟨true, true, true⟩
  container := container
  startedNs := 1
  mirrorPhase := ⟨true, true, true⟩
  mirror := mirror
  agentCreated := true
  agentPhase := ⟨true, true, true⟩
  agent := .returned
  startupWritten := true
  cleanup := ⟨.returned, ⟨.returned, true⟩, ⟨.returned, true⟩⟩

/-- Where the mirror fails, the container is stopped with its image. -/
theorem mirrorFailure_leaksNothing :
    LeaksNothing ownImageConfig (failingStart (.returned "c1".toList) .raised)
        (SandboxState.run ownImageConfig ⟨[], false⟩ []) ∧
      StopsInOrder ownImageConfig (SandboxState.run ownImageConfig ⟨[], false⟩ []) :=
  (failedStart_leaksNothing_iff ownImageConfig ⟨[], false⟩ []
    (failingStart (.returned "c1".toList) .raised) (by decide)).mpr
      ⟨fun _ isStray => (nomatch isStray),
        fun _ => ⟨by decide, fun _ => ⟨rfl, rfl⟩⟩⟩

/-- Where the container fails to start, the image that is built stays. -/
theorem containerFailure_leaks :
    (start ownImageConfig (failingStart (.raised none) .returned)
        (SandboxState.run ownImageConfig ⟨[], false⟩ [])).1 =
          .error (.raised .startTaskContainer) ∧
      ¬ LeaksNothing ownImageConfig (failingStart (.raised none) .returned)
        (SandboxState.run ownImageConfig ⟨[], false⟩ []) := by
  refine ⟨rfl, fun leaksNothing => ?_⟩
  obtain ⟨-, image⟩ :=
    leaksNothing ⟨.returned, ⟨.returned, true⟩, ⟨.returned, true⟩⟩ ⟨rfl, rfl, rfl⟩
  cases image ⟨rfl, Or.inl rfl⟩

end AgentSchedBench.Harness
