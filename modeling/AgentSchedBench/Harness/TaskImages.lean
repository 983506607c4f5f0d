import AgentSchedBench.Harness.FixedImages
import Mathlib.Data.Finset.Basic
import Mathlib.Logic.Relation

/-!
# Images of the tasks

The collector runs the tasks one after the other.  While an attempt runs, a
worker pulls the source image of the next task; when it is over, the images of
the attempt are removed, except one that the next task needs.  The two threads
meet in the image store only, and may take their steps in any order.
-/

namespace AgentSchedBench.Harness

open AgentSchedBench.Trace (Text)

/-! ## Tasks -/

/-- A task with the name of its image, which is empty if it has none. -/
structure CollectedTask where
  instanceId : String
  imageName : Text
deriving DecidableEq, Repr

/-- What the run is given, and how its commands end. -/
structure CollectionSetup where
  registryPrefix : Text
  -- has a container executable been given?
  hasExecutable : Bool
  -- `TASK_CONTAINER_CLEANUP_IMAGES`, which may be no boolean
  cleanupEnabled : Option Bool
  -- is `KEEP_IMAGES_ABOVE_GB` set?
  keepsAboveGb : Bool
  completed : List String
  -- does each removal of an image succeed?
  removalsWork : Bool
  -- does a build that fails leave no image?
  buildsClean : Bool
deriving DecidableEq, Repr

section Tasks

variable (setup : CollectionSetup)

/-- `_task_source_image` -/
def taskSourceImage (task : CollectedTask) : Option Text :=
  if task.imageName = [] then none
  else some (normalizeImageReference setup.registryPrefix task.imageName)

def isPending (task : CollectedTask) : Bool :=
  !setup.completed.contains task.instanceId

/-- `_next_pending_source_image`, for the tasks behind the current one. -/
def nextPendingSourceImage (tasks : List CollectedTask) : Option Text :=
  (tasks.filter (isPending setup)).findSome? (taskSourceImage setup)

end Tasks

/-! ## States -/

/-- Where the loop over the tasks is. -/
inductive Position where
  | head (tasks : List CollectedTask)
  -- in `_ensure_task_source_ready`: before it, looking for the image, pulling it
  | ensure (task : CollectedTask) (rest : List CollectedTask)
  | foreground (task : CollectedTask) (rest : List CollectedTask)
  | pulling (task : CollectedTask) (rest : List CollectedTask)
  | ready (task : CollectedTask) (rest : List CollectedTask)
  -- in `run_attempt`: before the derived image, and with it
  | attempt (task : CollectedTask) (rest : List CollectedTask)
  | running (task : CollectedTask) (rest : List CollectedTask)
      (fixedImage : Option Text)
  -- in `_cleanup_task_images`: before it, and before the source image
  | cleanup (task : CollectedTask) (rest : List CollectedTask)
      (fixedImage : Option Text)
  | removeSource (task : CollectedTask) (rest : List CollectedTask)
  | finished
  | raised (rest : List CollectedTask)
deriving DecidableEq, Repr

/-- The image and the future that the loop keeps. -/
structure Prefetch where
  image : Text
  outcome : Option Bool
deriving DecidableEq, Repr

/--
The jobs of the worker are done in order; the future that is kept is that of
the last job.
-/
structure CollectionState where
  position : Position
  queue : List Text
  -- has the image of the first job been looked for in vain?
  isMissing : Bool
  prefetch : Option Prefetch
  images : Finset Text
  results : List String
deriving DecidableEq

namespace CollectionState

/-- The state when nothing has been done. -/
def start (tasks : List CollectedTask) (images : Finset Text) : CollectionState where
  position := .head tasks
  queue := []
  isMissing := false
  prefetch := none
  images := images
  results := []

def moveTo (state : CollectionState) (position : Position) : CollectionState :=
  { state with position }

/-- The first job has ended, and its future is known if it was the last. -/
def endJob (state : CollectionState) (later : List Text) (outcome : Bool)
    (images : Finset Text) : CollectionState :=
  { state with
    queue := later
    isMissing := false
    images
    prefetch :=
      if later = [] then
        state.prefetch.map fun kept => { kept with outcome := kept.outcome.or outcome }
      else state.prefetch }

/-- A result has been appended, and the images are cleaned up. -/
def conclude (state : CollectionState) (task : CollectedTask)
    (rest : List CollectedTask) (fixedImage : Option Text) : CollectionState :=
  { state with
    position := .cleanup task rest fixedImage
    results := state.results ++ [task.instanceId] }

/-- The image of the next task is asked for, unless it is the current one. -/
def submit (setup : CollectionSetup) (state : CollectionState) (task : CollectedTask)
    (rest : List CollectedTask) : CollectionState :=
  match nextPendingSourceImage setup rest with
  | none => { state with prefetch := none, position := .attempt task rest }
  | some image =>
      if some image ≠ taskSourceImage setup task ∧ setup.hasExecutable then
        { state with
          queue := state.queue ++ [image]
          prefetch := some ⟨image, none⟩
          position := .attempt task rest }
      else { state with prefetch := none, position := .attempt task rest }

end CollectionState

/-! ## Steps -/

variable (setup : CollectionSetup)

/-- `ensure_source_image` in the worker. -/
inductive WorkerStep : CollectionState → CollectionState → Prop
  | found {state : CollectionState} {image : Text} {later : List Text}
      (isQueue : state.queue = image :: later) (notLooked : state.isMissing = false)
      (isThere : normalizeImageReference setup.registryPrefix image ∈ state.images) :
      WorkerStep state (state.endJob later true state.images)
  | missing {state : CollectionState} {image : Text} {later : List Text}
      (isQueue : state.queue = image :: later) (notLooked : state.isMissing = false)
      (notThere :
        normalizeImageReference setup.registryPrefix image ∉ state.images) :
      WorkerStep state { state with isMissing := true }
  | pulled {state : CollectionState} {image : Text} {later : List Text}
      (isQueue : state.queue = image :: later) (looked : state.isMissing = true) :
      WorkerStep state
        (state.endJob later true
          (insert (normalizeImageReference setup.registryPrefix image) state.images))
  | failed {state : CollectionState} {image : Text} {later : List Text}
      (isQueue : state.queue = image :: later) (looked : state.isMissing = true) :
      WorkerStep state (state.endJob later false state.images)

/-- The future that is kept is one for this image. -/
def Awaits (state : CollectionState) (image : Text) (outcome : Option Bool) : Prop :=
  state.prefetch = some ⟨image, outcome⟩

/-- The loop gets its image: `_ensure_task_source_ready`. -/
inductive EnsureStep : CollectionState → CollectionState → Prop
  | noImage {state : CollectionState} {task : CollectedTask} {rest : List CollectedTask}
      (isHere : state.position = .ensure task rest)
      (noSource : taskSourceImage setup task = none) :
      EnsureStep state (state.moveTo (.ready task rest))
  | noExecutable {state : CollectionState} {task : CollectedTask}
      {rest : List CollectedTask} {image : Text}
      (isHere : state.position = .ensure task rest)
      (isSource : taskSourceImage setup task = some image)
      (noExecutable : setup.hasExecutable = false) :
      EnsureStep state (state.conclude task rest none)
  | prefetched {state : CollectionState} {task : CollectedTask}
      {rest : List CollectedTask} {image : Text}
      (isHere : state.position = .ensure task rest)
      (isSource : taskSourceImage setup task = some image)
      (hasExecutable : setup.hasExecutable = true)
      (awaits : Awaits state image (some true)) :
      EnsureStep state (state.moveTo (.ready task rest))
  | prefetchFailed {state : CollectionState} {task : CollectedTask}
      {rest : List CollectedTask} {image : Text}
      (isHere : state.position = .ensure task rest)
      (isSource : taskSourceImage setup task = some image)
      (hasExecutable : setup.hasExecutable = true)
      (awaits : Awaits state image (some false)) :
      EnsureStep state (state.moveTo (.foreground task rest))
  | notPrefetched {state : CollectionState} {task : CollectedTask}
      {rest : List CollectedTask} {image : Text}
      (isHere : state.position = .ensure task rest)
      (isSource : taskSourceImage setup task = some image)
      (hasExecutable : setup.hasExecutable = true)
      (awaitsOther : ∀ outcome, ¬ Awaits state image outcome) :
      EnsureStep state (state.moveTo (.foreground task rest))
  | found {state : CollectionState} {task : CollectedTask} {rest : List CollectedTask}
      {image : Text} (isHere : state.position = .foreground task rest)
      (isSource : taskSourceImage setup task = some image)
      (isThere : normalizeImageReference setup.registryPrefix image ∈ state.images) :
      EnsureStep state (state.moveTo (.ready task rest))
  | missing {state : CollectionState} {task : CollectedTask} {rest : List CollectedTask}
      {image : Text} (isHere : state.position = .foreground task rest)
      (isSource : taskSourceImage setup task = some image)
      (notThere :
        normalizeImageReference setup.registryPrefix image ∉ state.images) :
      EnsureStep state (state.moveTo (.pulling task rest))
  | pulled {state : CollectionState} {task : CollectedTask} {rest : List CollectedTask}
      {image : Text} (isHere : state.position = .pulling task rest)
      (isSource : taskSourceImage setup task = some image) :
      EnsureStep state
        { state with
          position := .ready task rest
          images :=
            insert (normalizeImageReference setup.registryPrefix image) state.images }
  | failed {state : CollectionState} {task : CollectedTask} {rest : List CollectedTask}
      (isHere : state.position = .pulling task rest) :
      EnsureStep state (state.conclude task rest none)

/-- The attempt runs: `run_attempt`. -/
inductive AttemptStep : CollectionState → CollectionState → Prop
  -- the disk is full, or the derived image cannot be built
  | unprepared {state : CollectionState} {task : CollectedTask}
      {rest : List CollectedTask} (isHere : state.position = .attempt task rest) :
      AttemptStep state (state.conclude task rest none)
  -- a build fails when its image has been committed
  | brokenBuild {state : CollectionState} {task : CollectedTask}
      {rest : List CollectedTask} {image : Text}
      (isHere : state.position = .attempt task rest)
      (isSource : taskSourceImage setup task = some image)
      (unclean : setup.buildsClean = false) :
      AttemptStep state
        { state.conclude task rest none with
          images := insert (fixedImageNameFor image) state.images }
  | noImage {state : CollectionState} {task : CollectedTask} {rest : List CollectedTask}
      (isHere : state.position = .attempt task rest)
      (noSource : taskSourceImage setup task = none) :
      AttemptStep state (state.moveTo (.running task rest none))
  -- the source image is pulled for the build
  | pulled {state : CollectionState} {task : CollectedTask} {rest : List CollectedTask}
      {image : Text} (isHere : state.position = .attempt task rest)
      (isSource : taskSourceImage setup task = some image)
      (notThere :
        normalizeImageReference setup.registryPrefix image ∉ state.images) :
      AttemptStep state
        { state with
          images :=
            insert (normalizeImageReference setup.registryPrefix image) state.images }
  -- the derived image is remembered, is there or has been built
  | prepared {state : CollectionState} {task : CollectedTask}
      {rest : List CollectedTask} {image : Text} {images : Finset Text}
      (isHere : state.position = .attempt task rest)
      (isSource : taskSourceImage setup task = some image)
      (areImages : images = state.images ∨
        images = insert (fixedImageNameFor image) state.images) :
      AttemptStep state
        { state with
          position := .running task rest (some (fixedImageNameFor image))
          images }
  -- it returns or raises
  | ended {state : CollectionState} {task : CollectedTask} {rest : List CollectedTask}
      {fixedImage : Option Text}
      (isHere : state.position = .running task rest fixedImage) :
      AttemptStep state (state.conclude task rest fixedImage)

/-- The images after an image is to be removed. -/
def Removed (image : Text) (before after : Finset Text) : Prop :=
  after = before.erase image ∨ setup.removalsWork = false ∧ after = before

/-- The images of the attempt are removed: `_cleanup_task_images`. -/
inductive CleanupStep : CollectionState → CollectionState → Prop
  | noImages {state : CollectionState} {task : CollectedTask} {rest : List CollectedTask}
      (isHere : state.position = .cleanup task rest none)
      (noSource : taskSourceImage setup task = none) :
      CleanupStep state (state.moveTo (.head rest))
  | disabled {state : CollectionState} {task : CollectedTask} {rest : List CollectedTask}
      {fixedImage : Option Text} (isHere : state.position = .cleanup task rest fixedImage)
      (isDisabled : setup.cleanupEnabled = some false) :
      CleanupStep state (state.moveTo (.head rest))
  | raises {state : CollectionState} {task : CollectedTask} {rest : List CollectedTask}
      {fixedImage : Option Text} (isHere : state.position = .cleanup task rest fixedImage)
      (hasImages : taskSourceImage setup task ≠ none ∨ fixedImage ≠ none)
      (wrong : setup.cleanupEnabled = none ∨
        setup.cleanupEnabled = some true ∧ setup.hasExecutable = false) :
      CleanupStep state (state.moveTo (.raised rest))
  | keeps {state : CollectionState} {task : CollectedTask} {rest : List CollectedTask}
      {fixedImage : Option Text} (isHere : state.position = .cleanup task rest fixedImage)
      (enabled : setup.cleanupEnabled = some true)
      (hasExecutable : setup.hasExecutable = true)
      (keepsAbove : setup.keepsAboveGb = true) :
      CleanupStep state (state.moveTo (.head rest))
  | noFixed {state : CollectionState} {task : CollectedTask} {rest : List CollectedTask}
      (isHere : state.position = .cleanup task rest none)
      (isSome : (taskSourceImage setup task).isSome)
      (enabled : setup.cleanupEnabled = some true)
      (hasExecutable : setup.hasExecutable = true) :
      CleanupStep state (state.moveTo (.removeSource task rest))
  | fixed {state : CollectionState} {task : CollectedTask} {rest : List CollectedTask}
      {fixedImage : Text} {images : Finset Text}
      (isHere : state.position = .cleanup task rest (some fixedImage))
      (differs : some fixedImage ≠ taskSourceImage setup task)
      (enabled : setup.cleanupEnabled = some true)
      (hasExecutable : setup.hasExecutable = true)
      (removed : Removed setup fixedImage state.images images) :
      CleanupStep state { state with position := .removeSource task rest, images }
  | sourceKept {state : CollectionState} {task : CollectedTask}
      {rest : List CollectedTask} (isHere : state.position = .removeSource task rest)
      (isKept : taskSourceImage setup task = none ∨
        taskSourceImage setup task = nextPendingSourceImage setup rest) :
      CleanupStep state (state.moveTo (.head rest))
  | source {state : CollectionState} {task : CollectedTask} {rest : List CollectedTask}
      {image : Text} {images : Finset Text}
      (isHere : state.position = .removeSource task rest)
      (isSource : taskSourceImage setup task = some image)
      (notKept : some image ≠ nextPendingSourceImage setup rest)
      (removed : Removed setup image state.images images) :
      CleanupStep state { state with position := .head rest, images }

/-- A step of the loop in `_run_scaffold_tasks` or of its worker. -/
inductive CollectionStep : CollectionState → CollectionState → Prop
  | finish {state : CollectionState} (isHere : state.position = .head []) :
      CollectionStep state (state.moveTo .finished)
  | skip {state : CollectionState} {task : CollectedTask} {rest : List CollectedTask}
      (isHere : state.position = .head (task :: rest))
      (notPending : isPending setup task = false) :
      CollectionStep state (state.moveTo (.head rest))
  | begin {state : CollectionState} {task : CollectedTask} {rest : List CollectedTask}
      (isHere : state.position = .head (task :: rest))
      (pending : isPending setup task = true) :
      CollectionStep state (state.moveTo (.ensure task rest))
  | ensure {state next : CollectionState} (step : EnsureStep setup state next) :
      CollectionStep state next
  | submit {state : CollectionState} {task : CollectedTask} {rest : List CollectedTask}
      (isHere : state.position = .ready task rest) :
      CollectionStep state (state.submit setup task rest)
  | attempt {state next : CollectionState} (step : AttemptStep setup state next) :
      CollectionStep state next
  | cleanup {state next : CollectionState} (step : CleanupStep setup state next) :
      CollectionStep state next
  | worker {state next : CollectionState} (step : WorkerStep setup state next) :
      CollectionStep state next

/-- The states that some order of steps leads to. -/
def CollectionState.Reached (tasks : List CollectedTask) (images : Finset Text)
    (state : CollectionState) : Prop :=
  Relation.ReflTransGen (CollectionStep setup) (.start tasks images) state

end AgentSchedBench.Harness
