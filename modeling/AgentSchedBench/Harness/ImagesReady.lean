import AgentSchedBench.Harness.TaskImages

/-!
# The image of a running attempt

Whatever the order in which the loop and its worker take their steps, the source
image of an attempt is in the store as long as the attempt runs, and the loop
never waits for a job that is not done.
-/

namespace AgentSchedBench.Harness

open AgentSchedBench.Trace (Text)

/-! ## References -/

/-- The registry is a host, so that a reference with it in front is complete. -/
def IsHost (registry : Text) : Prop :=
  let head := registry.takeWhile (· ≠ '/')
  '.' ∈ head ∨ ':' ∈ head ∨ head = "localhost".toList

theorem takeWhile_slash (front rest : Text) :
    (front ++ '/' :: rest).takeWhile (· ≠ '/') = front.takeWhile (· ≠ '/') := by
  induction front with
  | nil => rfl
  | cons char front induction =>
      rw [List.cons_append, List.takeWhile_cons, List.takeWhile_cons, induction]

/-- A reference that begins with a host is complete. -/
theorem normalize_of_host {registryPrefix registry : Text} (isHost : IsHost registry)
    (rest : Text) :
    normalizeImageReference registryPrefix (registry ++ '/' :: rest) =
      registry ++ '/' :: rest := by
  have nonempty : (registry ++ '/' :: rest).isEmpty = false := by
    cases registry <;> rfl
  have hasSlash : '/' ∈ registry ++ '/' :: rest :=
    List.mem_append_right _ List.mem_cons_self
  rw [normalizeImageReference, nonempty]
  dsimp only
  rw [takeWhile_slash, if_neg (by simp), if_neg (not_not.mpr hasSlash)]
  exact if_pos isHost

/-- A normalized reference stays as it is. -/
theorem normalize_idempotent {registryPrefix : Text}
    (isHost : IsHost (registryOf registryPrefix)) (image : Text) :
    normalizeImageReference registryPrefix
        (normalizeImageReference registryPrefix image) =
      normalizeImageReference registryPrefix image := by
  by_cases isEmpty : image.isEmpty
  · rw [List.isEmpty_iff.mp isEmpty]
    rfl
  · by_cases noSlash : '/' ∉ image
    · have isNormal : normalizeImageReference registryPrefix image =
          registryOf registryPrefix ++ '/' :: ("library/".toList ++ image) := by
        rw [normalizeImageReference, if_neg isEmpty, if_pos noSlash, List.append_assoc]
        rfl
      rw [isNormal]
      exact normalize_of_host isHost _
    · by_cases complete : IsHost image
      · have isNormal : normalizeImageReference registryPrefix image = image := by
          rw [normalizeImageReference, if_neg isEmpty, if_neg noSlash]
          exact if_pos complete
        rw [isNormal, isNormal]
      · have isNormal : normalizeImageReference registryPrefix image =
            registryOf registryPrefix ++ '/' :: image := by
          rw [normalizeImageReference, if_neg isEmpty, if_neg noSlash]
          exact (if_neg complete).trans (List.append_assoc _ _ _)
        rw [isNormal]
        exact normalize_of_host isHost _

/-! ## Positions -/

variable {setup : CollectionSetup}

/-- The next source image that a task needs, from this position on. -/
def Position.upcoming (setup : CollectionSetup) : Position → Option Text
  | head tasks => nextPendingSourceImage setup tasks
  | ensure task rest | foreground task rest | pulling task rest | ready task rest =>
      (taskSourceImage setup task).or (nextPendingSourceImage setup rest)
  | attempt _ rest | running _ rest _ | cleanup _ rest _ | removeSource _ rest
  | raised rest => nextPendingSourceImage setup rest
  | finished => none

/-- The source image that must be there. -/
def Position.required (setup : CollectionSetup) : Position → Option Text
  | ready task _ | attempt task _ | running task _ _ => taskSourceImage setup task
  | _ => none

/-- The loop gets its image without the worker. -/
def Position.IsForeground : Position → Prop
  | foreground _ _ | pulling _ _ => True
  | _ => False

/-- No job is left. -/
def Position.IsQuiet (setup : CollectionSetup) : Position → Prop
  | foreground _ _ | pulling _ _ => True
  | ready task _ => (taskSourceImage setup task).isSome
  | _ => False

theorem nextPending_cons {task : CollectedTask} (pending : isPending setup task = true)
    (rest : List CollectedTask) :
    nextPendingSourceImage setup (task :: rest) =
      (taskSourceImage setup task).or (nextPendingSourceImage setup rest) := by
  rw [nextPendingSourceImage, List.filter_cons_of_pos pending, List.findSome?_cons,
    nextPendingSourceImage]
  cases taskSourceImage setup task <;> rfl

theorem nextPending_skip {task : CollectedTask} (notPending : isPending setup task = false)
    (rest : List CollectedTask) :
    nextPendingSourceImage setup (task :: rest) = nextPendingSourceImage setup rest := by
  rw [nextPendingSourceImage, List.filter_cons_of_neg (by simp [notPending]),
    nextPendingSourceImage]

/-! ## Order -/

/-- What holds between the loop, its worker and the store. -/
structure Orderly (setup : CollectionSetup) (state : CollectionState) : Prop where
  /-- The worker gets nothing but the next image. -/
  queued : ∀ image ∈ state.queue, state.position.upcoming setup = some image
  /-- The loop knows of the jobs that are not done. -/
  followed : state.queue ≠ [] → ∃ image, state.prefetch = some ⟨image, none⟩
  awaited : ∀ image, state.prefetch = some ⟨image, none⟩ →
    state.queue ≠ [] ∧ state.position.upcoming setup = some image
  succeeded : ∀ image, state.prefetch = some ⟨image, some true⟩ →
    state.position.upcoming setup = some image ∧ image ∈ state.images
  foreground : state.position.IsForeground →
    ∀ image, state.prefetch ≠ some ⟨image, some true⟩
  quiet : state.position.IsQuiet setup → state.queue = []
  executable : state.prefetch ≠ none → setup.hasExecutable = true
  looking : state.isMissing = true → state.queue ≠ []
  present : ∀ image, state.position.required setup = some image → image ∈ state.images

/-- The source images that tasks have are complete references. -/
structure Complete (setup : CollectionSetup) : Prop where
  isHost : IsHost (registryOf setup.registryPrefix)

theorem normalize_source (complete : Complete setup) {task : CollectedTask} {image : Text}
    (isSource : taskSourceImage setup task = some image) :
    normalizeImageReference setup.registryPrefix image = image := by
  rw [taskSourceImage] at isSource
  split at isSource
  · cases isSource
  · cases isSource
    exact normalize_idempotent complete.isHost _

theorem normalize_next (complete : Complete setup) {tasks : List CollectedTask}
    {image : Text} (isNext : nextPendingSourceImage setup tasks = some image) :
    normalizeImageReference setup.registryPrefix image = image := by
  obtain ⟨task, -, isSource⟩ := List.exists_of_findSome?_eq_some isNext
  exact normalize_source complete isSource

theorem normalize_upcoming (complete : Complete setup) {position : Position} {image : Text}
    (isUpcoming : position.upcoming setup = some image) :
    normalizeImageReference setup.registryPrefix image = image := by
  have ofTask {task : CollectedTask} {rest : List CollectedTask}
      (isFirst : (taskSourceImage setup task).or (nextPendingSourceImage setup rest) =
        some image) :
      normalizeImageReference setup.registryPrefix image = image := by
    rcases Option.or_eq_some_iff.mp isFirst with isSource | ⟨-, isNext⟩
    · exact normalize_source complete isSource
    · exact normalize_next complete isNext
  cases position with
  | ensure task rest | foreground task rest | pulling task rest | ready task rest =>
      exact ofTask isUpcoming
  | finished => cases isUpcoming
  | _ => exact normalize_next complete isUpcoming

section Moves

variable {state : CollectionState}

theorem orderly_start (tasks : List CollectedTask) (images : Finset Text) :
    Orderly setup (.start tasks images) := by
  constructor <;> simp [CollectionState.start, Position.IsForeground, Position.required]

/-- A move within the loop. -/
theorem Orderly.move (orderly : Orderly setup state) {next : CollectionState}
    (sameQueue : next.queue = state.queue) (sameMissing : next.isMissing = state.isMissing)
    (samePrefetch : next.prefetch = state.prefetch)
    (sameUpcoming : state.queue ≠ [] ∨ (∃ image, state.prefetch = some ⟨image, some true⟩) →
      next.position.upcoming setup = state.position.upcoming setup)
    (keeps : ∀ image, state.position.upcoming setup = some image →
      image ∈ state.images → image ∈ next.images)
    (foreground : next.position.IsForeground →
      ∀ image, state.prefetch ≠ some ⟨image, some true⟩)
    (quiet : next.position.IsQuiet setup → state.queue = [])
    (present : ∀ image, next.position.required setup = some image →
      image ∈ next.images) :
    Orderly setup next where
  queued image member := by
    rw [sameQueue] at member
    rw [sameUpcoming (Or.inl (List.ne_nil_of_mem member))]
    exact orderly.queued image member
  followed nonempty := by
    rw [sameQueue] at nonempty
    rw [samePrefetch]
    exact orderly.followed nonempty
  awaited image isKept := by
    rw [samePrefetch] at isKept
    obtain ⟨nonempty, isUpcoming⟩ := orderly.awaited image isKept
    rw [sameQueue, sameUpcoming (Or.inl nonempty)]
    exact ⟨nonempty, isUpcoming⟩
  succeeded image isKept := by
    rw [samePrefetch] at isKept
    obtain ⟨isUpcoming, isThere⟩ := orderly.succeeded image isKept
    rw [sameUpcoming (Or.inr ⟨image, isKept⟩)]
    exact ⟨isUpcoming, keeps image isUpcoming isThere⟩
  foreground isForeground image := by
    rw [samePrefetch]
    exact foreground isForeground image
  quiet isQuiet := by
    rw [sameQueue]
    exact quiet isQuiet
  executable isKept := by
    rw [samePrefetch] at isKept
    exact orderly.executable isKept
  looking isMissing := by
    rw [sameMissing] at isMissing
    rw [sameQueue]
    exact orderly.looking isMissing
  present := present

/-- The loop goes on, and the images stay. -/
theorem Orderly.moveTo (orderly : Orderly setup state) {here position : Position}
    (isHere : state.position = here)
    (sameUpcoming : position.upcoming setup = here.upcoming setup)
    (foreground : position.IsForeground →
      ∀ image, state.prefetch ≠ some ⟨image, some true⟩)
    (quiet : position.IsQuiet setup → state.queue = [])
    (present : ∀ image, position.required setup = some image → image ∈ state.images) :
    Orderly setup (state.moveTo position) := by
  subst isHere
  exact orderly.move rfl rfl rfl (fun _ => sameUpcoming) (fun _ _ isThere => isThere)
    foreground quiet present

/-- A future that is known is that of the last job. -/
theorem Orderly.queue_of_outcome (orderly : Orderly setup state) {image : Text}
    {outcome : Bool} (isKept : state.prefetch = some ⟨image, some outcome⟩) :
    state.queue = [] := by
  by_contra nonempty
  obtain ⟨other, isOther⟩ := orderly.followed nonempty
  rw [isKept] at isOther
  cases isOther

/-- Where no image is to come, nothing has been asked for. -/
theorem Orderly.queue_of_upcoming (orderly : Orderly setup state)
    (noImage : state.position.upcoming setup = none) : state.queue = [] := by
  rw [List.eq_nil_iff_forall_not_mem]
  intro image member
  rw [orderly.queued image member] at noImage
  cases noImage

/-- A move to a position for which no image is required. -/
theorem required_of_isNone {position : Position} {images : Finset Text}
    (isNone : position.required setup = none) :
    ∀ image, position.required setup = some image → image ∈ images := by
  intro image isRequired
  rw [isNone] at isRequired
  cases isRequired

/-- A result is appended when no job is left, or when the next image stays. -/
theorem Orderly.conclude (orderly : Orderly setup state) {task : CollectedTask}
    {rest : List CollectedTask} (fixedImage : Option Text)
    (sameUpcoming :
      state.queue ≠ [] ∨ (∃ image, state.prefetch = some ⟨image, some true⟩) →
        nextPendingSourceImage setup rest = state.position.upcoming setup) :
    Orderly setup (state.conclude task rest fixedImage) :=
  orderly.move rfl rfl rfl sameUpcoming (fun _ _ isThere => isThere)
    (fun isForeground => isForeground.elim) (fun isQuiet => isQuiet.elim)
    (required_of_isNone rfl)

theorem orderly_ensure (complete : Complete setup) (orderly : Orderly setup state)
    {next : CollectionState} (step : EnsureStep setup state next) :
    Orderly setup next := by
  cases step with
  | @noImage task rest isHere noSource =>
      refine orderly.moveTo isHere rfl (fun isForeground => isForeground.elim)
        (fun isQuiet => ?_) (required_of_isNone noSource)
      rw [Position.IsQuiet, noSource] at isQuiet
      cases isQuiet
  | @noExecutable task rest image isHere isSource noExecutable =>
      have notKept : state.prefetch = none := by
        by_contra isKept
        rw [orderly.executable isKept] at noExecutable
        cases noExecutable
      refine orderly.conclude none fun busy => ?_
      rcases busy with nonempty | ⟨_, isKept⟩
      · obtain ⟨_, isKept⟩ := orderly.followed nonempty
        rw [notKept] at isKept
        cases isKept
      · rw [notKept] at isKept
        cases isKept
  | @prefetched task rest image isHere isSource hasExecutable awaits =>
      refine orderly.moveTo isHere rfl (fun isForeground => isForeground.elim)
        (fun _ => orderly.queue_of_outcome awaits) (fun other isRequired => ?_)
      rw [Position.required, isSource] at isRequired
      cases isRequired
      exact (orderly.succeeded image awaits).2
  | @prefetchFailed task rest image isHere isSource hasExecutable awaits =>
      refine orderly.moveTo isHere rfl (fun _ other isKept => ?_)
        (fun _ => orderly.queue_of_outcome awaits) (required_of_isNone rfl)
      rw [awaits] at isKept
      cases isKept
  | @notPrefetched task rest image isHere isSource hasExecutable awaitsOther =>
      have isUpcoming : state.position.upcoming setup = some image := by
        rw [isHere, Position.upcoming, isSource]
        rfl
      refine orderly.moveTo isHere rfl (fun _ other isKept => ?_) (fun _ => ?_)
        (required_of_isNone rfl)
      · have isOther := (orderly.succeeded other isKept).1
        rw [isUpcoming] at isOther
        cases isOther
        exact awaitsOther _ isKept
      · by_contra nonempty
        obtain ⟨other, isKept⟩ := orderly.followed nonempty
        have isOther := (orderly.awaited other isKept).2
        rw [isUpcoming] at isOther
        cases isOther
        exact awaitsOther _ isKept
  | @found task rest image isHere isSource isThere =>
      have isQuiet : state.position.IsQuiet setup := by
        rw [isHere]
        trivial
      refine orderly.moveTo isHere rfl (fun isForeground => isForeground.elim)
        (fun _ => orderly.quiet isQuiet) (fun other isRequired => ?_)
      rw [Position.required, isSource] at isRequired
      cases isRequired
      rwa [normalize_source complete isSource] at isThere
  | @missing task rest image isHere isSource notThere =>
      have isQuiet : state.position.IsQuiet setup := by
        rw [isHere]
        trivial
      have isForeground : state.position.IsForeground := by
        rw [isHere]
        trivial
      exact orderly.moveTo isHere rfl (fun _ => orderly.foreground isForeground)
        (fun _ => orderly.quiet isQuiet) (required_of_isNone rfl)
  | @pulled task rest image isHere isSource =>
      have isQuiet : state.position.IsQuiet setup := by
        rw [isHere]
        trivial
      refine orderly.move rfl rfl rfl (fun _ => isHere ▸ rfl)
        (fun _ _ isThere => Finset.mem_insert_of_mem isThere)
        (fun isForeground => isForeground.elim)
        (fun _ => orderly.quiet isQuiet) (fun other isRequired => ?_)
      rw [Position.required, isSource] at isRequired
      cases isRequired
      rw [normalize_source complete isSource]
      exact Finset.mem_insert_self _ _
  | @failed task rest isHere =>
      have isQuiet : state.position.IsQuiet setup := by
        rw [isHere]
        trivial
      have isForeground : state.position.IsForeground := by
        rw [isHere]
        trivial
      refine orderly.conclude none fun busy => ?_
      rcases busy with nonempty | ⟨image, isKept⟩
      · exact absurd (orderly.quiet isQuiet) nonempty
      · exact absurd isKept (orderly.foreground isForeground image)

/-- Where nothing has been asked for, an attempt begins in order. -/
theorem Orderly.begin (orderly : Orderly setup state) {task : CollectedTask}
    {rest : List CollectedTask} (isHere : state.position = .ready task rest)
    (isEmpty : state.queue = []) :
    Orderly setup { state with prefetch := none, position := .attempt task rest } where
  queued image member := by
    rw [isEmpty] at member
    cases member
  followed nonempty := absurd isEmpty nonempty
  awaited image := by rintro ⟨⟩
  succeeded image := by rintro ⟨⟩
  foreground isForeground := isForeground.elim
  quiet isQuiet := isQuiet.elim
  executable isKept := absurd rfl isKept
  looking isMissing := absurd isEmpty (orderly.looking isMissing)
  present image isRequired := orderly.present image (by rw [isHere]; exact isRequired)

theorem orderly_submit (orderly : Orderly setup state) {task : CollectedTask}
    {rest : List CollectedTask} (isHere : state.position = .ready task rest) :
    Orderly setup (state.submit setup task rest) := by
  have isUpcoming : state.position.upcoming setup =
      (taskSourceImage setup task).or (nextPendingSourceImage setup rest) := by
    rw [isHere]
    rfl
  -- a task that has an image has it without a job being left
  have quiet (isSome : (taskSourceImage setup task).isSome) : state.queue = [] :=
    orderly.quiet (by rw [isHere]; exact isSome)
  rw [CollectionState.submit]
  cases isNext : nextPendingSourceImage setup rest with
  | none =>
      refine orderly.begin isHere ?_
      cases isSource : taskSourceImage setup task with
      | none =>
          refine orderly.queue_of_upcoming ?_
          rw [isUpcoming, isSource, isNext]
          rfl
      | some image => exact quiet (by rw [isSource]; rfl)
  | some image =>
      dsimp only
      split
      · next isAsked =>
          have areNext : ∀ other ∈ state.queue, other = image := by
            intro other member
            cases isSource : taskSourceImage setup task with
            | none =>
                have isOther := orderly.queued other member
                rw [isUpcoming, isSource, isNext] at isOther
                cases isOther
                rfl
            | some source =>
                rw [quiet (by rw [isSource]; rfl)] at member
                cases member
          constructor
          · intro other member
            rw [List.mem_append, List.mem_singleton] at member
            rw [Position.upcoming, isNext,
              member.elim (areNext other) id]
          · exact fun _ => ⟨image, rfl⟩
          · rintro other ⟨⟩
            exact ⟨List.append_ne_nil_of_right_ne_nil _ (List.cons_ne_nil _ _), isNext⟩
          · rintro other ⟨⟩
          · exact fun isForeground => isForeground.elim
          · exact fun isQuiet => isQuiet.elim
          · exact fun _ => isAsked.2
          · exact fun _ => List.append_ne_nil_of_right_ne_nil _ (List.cons_ne_nil _ _)
          · exact fun other isRequired =>
              orderly.present other (by rw [isHere]; exact isRequired)
      · next notAsked =>
          refine orderly.begin isHere ?_
          by_contra nonempty
          obtain ⟨kept, isKept⟩ := orderly.followed nonempty
          have hasExecutable := orderly.executable (by rw [isKept]; simp)
          refine notAsked ⟨fun same => nonempty (quiet ?_), hasExecutable⟩
          rw [← same]
          rfl

theorem orderly_attempt (complete : Complete setup) (orderly : Orderly setup state)
    {next : CollectionState} (step : AttemptStep setup state next) :
    Orderly setup next := by
  cases step with
  | @unprepared task rest isHere =>
      exact orderly.conclude none fun _ => isHere ▸ rfl
  | @brokenBuild task rest image isHere isSource unclean =>
      exact orderly.move rfl rfl rfl (fun _ => isHere ▸ rfl)
        (fun _ _ isThere => Finset.mem_insert_of_mem isThere)
        (fun isForeground => isForeground.elim) (fun isQuiet => isQuiet.elim)
        (required_of_isNone rfl)
  | @noImage task rest isHere noSource =>
      exact orderly.moveTo isHere rfl (fun isForeground => isForeground.elim)
        (fun isQuiet => isQuiet.elim) (required_of_isNone noSource)
  | @pulled task rest image isHere isSource notThere =>
      refine absurd (orderly.present image ?_) ?_
      · rw [isHere]
        exact isSource
      · rwa [normalize_source complete isSource] at notThere
  | @prepared task rest image images isHere isSource areImages =>
      have grows : state.images ⊆ images := by
        rcases areImages with rfl | rfl
        · exact Finset.Subset.refl _
        · exact Finset.subset_insert _ _
      refine orderly.move rfl rfl rfl (fun _ => isHere ▸ rfl)
        (fun _ _ isThere => grows isThere) (fun isForeground => isForeground.elim)
        (fun isQuiet => isQuiet.elim) (fun other isRequired => grows ?_)
      exact orderly.present other (by rw [isHere]; exact isRequired)
  | @ended task rest fixedImage isHere =>
      exact orderly.conclude fixedImage fun _ => isHere ▸ rfl

/-! ## Removals -/

/-- The derived image that the loop knows of. -/
def Position.fixedImage : Position → Option Text
  | running _ _ fixedImage | cleanup _ _ fixedImage => fixedImage
  | _ => none

/-- What the loop takes for a derived image is none of a task. -/
def Derived (state : CollectionState) : Prop :=
  ∀ image, state.position.fixedImage = some image → '/' ∉ image

theorem position_submit (task : CollectedTask) (rest : List CollectedTask) :
    (state.submit setup task rest).position = .attempt task rest := by
  rw [CollectionState.submit]
  split
  · rfl
  · split <;> rfl

theorem derived_step (derived : Derived state) {next : CollectionState}
    (step : CollectionStep setup state next) : Derived next := by
  cases step with
  | finish isHere => rintro _ ⟨⟩
  | skip isHere notPending => rintro _ ⟨⟩
  | begin isHere pending => rintro _ ⟨⟩
  | ensure step => cases step <;> rintro _ ⟨⟩
  | submit isHere =>
      intro image isFixed
      rw [position_submit] at isFixed
      cases isFixed
  | attempt step =>
      cases step with
      | @prepared task rest image images isHere isSource areImages =>
          rintro _ ⟨⟩
          exact slash_notMem_fixedImageNameFor image
      | @ended task rest fixedImage isHere =>
          intro image isFixed
          refine derived image ?_
          rw [isHere]
          exact isFixed
      | pulled isHere isSource notThere =>
          intro image isFixed
          rw [isHere] at isFixed
          cases isFixed
      | _ => rintro _ ⟨⟩
  | cleanup step => cases step <;> rintro _ ⟨⟩
  | worker step => cases step <;> exact derived

/-- Only a task with an image asks for it. -/
def Sourced (setup : CollectionSetup) (state : CollectionState) : Prop :=
  ∀ task rest, state.position = .foreground task rest →
    (taskSourceImage setup task).isSome

theorem sourced_step (sourced : Sourced setup state) {next : CollectionState}
    (step : CollectionStep setup state next) : Sourced setup next := by
  cases step with
  | finish isHere => rintro _ _ ⟨⟩
  | skip isHere notPending => rintro _ _ ⟨⟩
  | begin isHere pending => rintro _ _ ⟨⟩
  | ensure step =>
      cases step with
      | prefetchFailed isHere isSource hasExecutable awaits =>
          rintro _ _ ⟨⟩
          rw [isSource]
          rfl
      | notPrefetched isHere isSource hasExecutable awaitsOther =>
          rintro _ _ ⟨⟩
          rw [isSource]
          rfl
      | _ => rintro _ _ ⟨⟩
  | submit isHere =>
      intro task rest isForeground
      rw [position_submit] at isForeground
      cases isForeground
  | attempt step =>
      cases step with
      | pulled isHere isSource notThere =>
          intro task rest isForeground
          rw [isHere] at isForeground
          cases isForeground
      | _ => rintro _ _ ⟨⟩
  | cleanup step => cases step <;> rintro _ _ ⟨⟩
  | worker step => cases step <;> exact sourced

theorem normalize_ne_nil {registryPrefix image : Text} (hasName : image ≠ []) :
    normalizeImageReference registryPrefix image ≠ [] := by
  have notEmpty : ¬ image.isEmpty := fun isEmpty => hasName (List.isEmpty_iff.mp isEmpty)
  rw [normalizeImageReference, if_neg notEmpty]
  split
  · exact List.append_ne_nil_of_right_ne_nil _ hasName
  · dsimp only
    split
    · exact hasName
    · exact List.append_ne_nil_of_right_ne_nil _ hasName

theorem slash_of_source {task : CollectedTask} {image : Text}
    (isSource : taskSourceImage setup task = some image) : '/' ∈ image := by
  rw [taskSourceImage] at isSource
  split at isSource
  · cases isSource
  · next hasName =>
      cases isSource
      exact slash_mem_normalizeImageReference (normalize_ne_nil hasName)

theorem slash_of_next {tasks : List CollectedTask} {image : Text}
    (isNext : nextPendingSourceImage setup tasks = some image) : '/' ∈ image := by
  obtain ⟨task, -, isSource⟩ := List.exists_of_findSome?_eq_some isNext
  exact slash_of_source isSource

/-- In a cleanup the next image stays the same, and it is not removed. -/
theorem Orderly.clean (orderly : Orderly setup state) (rest : List CollectedTask)
    (isHere : state.position.upcoming setup = nextPendingSourceImage setup rest)
    {position : Position} (isNext : position.upcoming setup = nextPendingSourceImage setup rest)
    (notQuiet : ¬ position.IsQuiet setup) (notForeground : ¬ position.IsForeground)
    (notRequired : position.required setup = none) {images : Finset Text}
    (keeps : ∀ image, nextPendingSourceImage setup rest = some image →
      image ∈ state.images → image ∈ images) :
    Orderly setup { state with position, images } :=
  orderly.move rfl rfl rfl (fun _ => isNext.trans isHere.symm)
    (fun image isUpcoming isThere => keeps image (isHere ▸ isUpcoming) isThere)
    (fun isForeground => absurd isForeground notForeground)
    (fun isQuiet => absurd isQuiet notQuiet) (required_of_isNone notRequired)

/-- Whether it succeeds or not, a removal is about its own image only. -/
theorem mem_of_removed {image other : Text} {before after : Finset Text}
    (removed : Removed setup image before after) (differs : other ≠ image)
    (isThere : other ∈ before) : other ∈ after := by
  rcases removed with rfl | ⟨-, rfl⟩
  · exact Finset.mem_erase.mpr ⟨differs, isThere⟩
  · exact isThere

theorem orderly_cleanup (orderly : Orderly setup state) (derived : Derived state)
    {next : CollectionState} (step : CleanupStep setup state next) :
    Orderly setup next := by
  have back {task : CollectedTask} {rest : List CollectedTask} {fixedImage : Option Text}
      (isHere : state.position = .cleanup task rest fixedImage) :
      Orderly setup (state.moveTo (.head rest)) :=
    orderly.clean rest (isHere ▸ rfl) rfl id id rfl fun _ _ isThere => isThere
  cases step with
  | noImages isHere noSource => exact back isHere
  | disabled isHere isDisabled => exact back isHere
  | keeps isHere enabled hasExecutable keepsAbove => exact back isHere
  | @raises task rest fixedImage isHere hasImages wrong =>
      exact orderly.clean rest (isHere ▸ rfl) rfl id id rfl
        fun _ _ isThere => isThere
  | @noFixed task rest isHere isSome enabled hasExecutable =>
      exact orderly.clean rest (isHere ▸ rfl) rfl id id rfl
        fun _ _ isThere => isThere
  | @fixed task rest fixedImage images isHere differs enabled hasExecutable removed =>
      refine orderly.clean rest (isHere ▸ rfl) rfl id id rfl
        fun image isNext isThere => mem_of_removed removed ?_ isThere
      rintro rfl
      exact derived image (by rw [isHere]; rfl) (slash_of_next isNext)
  | @sourceKept task rest isHere isKept =>
      exact orderly.clean rest (isHere ▸ rfl) rfl id id rfl
        fun _ _ isThere => isThere
  | @source task rest image images isHere isSource notKept removed =>
      refine orderly.clean rest (isHere ▸ rfl) rfl id id rfl
        fun other isNext isThere => mem_of_removed removed ?_ isThere
      rintro rfl
      exact notKept isNext.symm

/-! ## The worker -/

/-- A job that ends is for the next image. -/
theorem Orderly.end (orderly : Orderly setup state) {image : Text} {later : List Text}
    (isQueue : state.queue = image :: later) {outcome : Bool} {images : Finset Text}
    (grows : state.images ⊆ images) (isThere : outcome = true → image ∈ images) :
    Orderly setup (state.endJob later outcome images) := by
  have nonempty : state.queue ≠ [] := by
    rw [isQueue]
    exact List.cons_ne_nil _ _
  obtain ⟨kept, isKept⟩ := orderly.followed nonempty
  have isUpcoming := orderly.queued image (by rw [isQueue]; exact List.mem_cons_self)
  have keptUpcoming := (orderly.awaited kept isKept).2
  rw [isUpcoming] at keptUpcoming
  cases keptUpcoming
  have notQuiet : ¬ state.position.IsQuiet setup := fun isQuiet =>
    nonempty (orderly.quiet isQuiet)
  have notForeground : ¬ state.position.IsForeground := by
    intro isForeground
    cases isHere : state.position <;> rw [isHere] at isForeground notQuiet <;>
      first
        | exact isForeground.elim
        | exact notQuiet trivial
  have isPrefetch : (state.endJob later outcome images).prefetch =
      if later = [] then some ⟨image, some outcome⟩ else some ⟨image, none⟩ := by
    rw [CollectionState.endJob, isKept]
    rfl
  constructor
  · intro other member
    refine orderly.queued other ?_
    rw [isQueue]
    exact List.mem_cons_of_mem _ member
  · intro more
    exact ⟨image, isPrefetch.trans (if_neg more)⟩
  · intro other isOther
    rw [isPrefetch] at isOther
    split at isOther
    · cases isOther
    · next more =>
        cases isOther
        exact ⟨more, isUpcoming⟩
  · intro other isOther
    rw [isPrefetch] at isOther
    split at isOther
    · cases isOther
      exact ⟨isUpcoming, isThere rfl⟩
    · cases isOther
  · exact fun isForeground => absurd isForeground notForeground
  · exact fun isQuiet => absurd isQuiet notQuiet
  · exact fun _ => orderly.executable (by rw [isKept]; simp)
  · rintro ⟨⟩
  · exact fun other isRequired => grows (orderly.present other isRequired)

theorem orderly_worker (complete : Complete setup) (orderly : Orderly setup state)
    {next : CollectionState} (step : WorkerStep setup state next) :
    Orderly setup next := by
  have isNormal {image : Text} {later : List Text} (isQueue : state.queue = image :: later) :
      normalizeImageReference setup.registryPrefix image = image :=
    normalize_upcoming complete
      (orderly.queued image (by rw [isQueue]; exact List.mem_cons_self))
  cases step with
  | @found image later isQueue notLooked isThere =>
      rw [isNormal isQueue] at isThere
      exact orderly.end isQueue (Finset.Subset.refl _) fun _ => isThere
  | @missing image later isQueue notLooked notThere =>
      refine { orderly with looking := fun _ => ?_ }
      rw [isQueue]
      exact List.cons_ne_nil _ _
  | @pulled image later isQueue looked =>
      rw [isNormal isQueue]
      exact orderly.end isQueue (Finset.subset_insert _ _) fun _ =>
        Finset.mem_insert_self _ _
  | @failed image later isQueue looked =>
      exact orderly.end isQueue (Finset.Subset.refl _) (by rintro ⟨⟩)

/-- Each step keeps the order. -/
theorem orderly_step (complete : Complete setup) (orderly : Orderly setup state)
    (derived : Derived state) {next : CollectionState}
    (step : CollectionStep setup state next) : Orderly setup next := by
  cases step with
  | finish isHere =>
      exact orderly.moveTo isHere rfl (fun isForeground => isForeground.elim)
        (fun isQuiet => isQuiet.elim) (required_of_isNone rfl)
  | @skip task rest isHere notPending =>
      exact orderly.moveTo isHere (nextPending_skip notPending rest).symm
        (fun isForeground => isForeground.elim) (fun isQuiet => isQuiet.elim)
        (required_of_isNone rfl)
  | @begin task rest isHere pending =>
      exact orderly.moveTo isHere (nextPending_cons pending rest).symm
        (fun isForeground => isForeground.elim) (fun isQuiet => isQuiet.elim)
        (required_of_isNone rfl)
  | ensure step => exact orderly_ensure complete orderly step
  | submit isHere => exact orderly_submit orderly isHere
  | attempt step => exact orderly_attempt complete orderly step
  | cleanup step => exact orderly_cleanup orderly derived step
  | worker step => exact orderly_worker complete orderly step

end Moves

/-! ## Progress -/

section Progress

variable {state : CollectionState}

/-- A worker with a job can go on with it. -/
theorem worker_progress (hasJob : state.queue ≠ []) :
    ∃ next, CollectionStep setup state next := by
  obtain ⟨image, later, isQueue⟩ := List.exists_cons_of_ne_nil hasJob
  cases looked : state.isMissing with
  | true => exact ⟨_, .worker (.failed isQueue looked)⟩
  | false =>
      by_cases isThere :
          normalizeImageReference setup.registryPrefix image ∈ state.images
      · exact ⟨_, .worker (.found isQueue looked isThere)⟩
      · exact ⟨_, .worker (.missing isQueue looked isThere)⟩

theorem Orderly.ensure_progress (orderly : Orderly setup state) {task : CollectedTask}
    {rest : List CollectedTask} (isHere : state.position = .ensure task rest) :
    ∃ next, CollectionStep setup state next := by
  cases isSource : taskSourceImage setup task with
  | none => exact ⟨_, .ensure (.noImage isHere isSource)⟩
  | some image =>
      cases hasExecutable : setup.hasExecutable with
      | false => exact ⟨_, .ensure (.noExecutable isHere isSource hasExecutable)⟩
      | true =>
          by_cases awaits : ∃ outcome, Awaits state image outcome
          · obtain ⟨_ | _ | _, awaits⟩ := awaits
            · exact worker_progress (orderly.awaited image awaits).1
            · exact ⟨_, .ensure (.prefetchFailed isHere isSource hasExecutable awaits)⟩
            · exact ⟨_, .ensure (.prefetched isHere isSource hasExecutable awaits)⟩
          · exact ⟨_, .ensure (.notPrefetched isHere isSource hasExecutable
              (not_exists.mp awaits))⟩

theorem cleanup_progress (derived : Derived state) {task : CollectedTask}
    {rest : List CollectedTask} {fixedImage : Option Text}
    (isHere : state.position = .cleanup task rest fixedImage) :
    ∃ next, CollectionStep setup state next := by
  by_cases hasImages : taskSourceImage setup task ≠ none ∨ fixedImage ≠ none
  · cases enabled : setup.cleanupEnabled with
    | none => exact ⟨_, .cleanup (.raises isHere hasImages (Or.inl enabled))⟩
    | some enabled' =>
        cases enabled' with
        | false => exact ⟨_, .cleanup (.disabled isHere enabled)⟩
        | true =>
            cases hasExecutable : setup.hasExecutable with
            | false =>
                exact ⟨_, .cleanup
                  (.raises isHere hasImages (Or.inr ⟨enabled, hasExecutable⟩))⟩
            | true =>
                cases fixedImage with
                | none =>
                    have isSome := Option.isSome_iff_ne_none.mpr
                      (hasImages.resolve_right (not_not.mpr rfl))
                    exact ⟨_, .cleanup (.noFixed isHere isSome enabled hasExecutable)⟩
                | some fixedImage =>
                    refine ⟨_, .cleanup
                      (.fixed isHere ?_ enabled hasExecutable (Or.inl rfl))⟩
                    intro same
                    exact derived fixedImage (by rw [isHere]; rfl)
                      (slash_of_source same.symm)
  · rw [not_or, not_not, not_not] at hasImages
    obtain ⟨noSource, rfl⟩ := hasImages
    exact ⟨_, .cleanup (.noImages isHere noSource)⟩

/-- The loop and its worker can go on until the loop has finished or raised. -/
theorem Orderly.progress (orderly : Orderly setup state) (derived : Derived state)
    (sourced : Sourced setup state)
    (goesOn : state.position ≠ .finished ∧ ∀ rest, state.position ≠ .raised rest) :
    ∃ next, CollectionStep setup state next := by
  cases isHere : state.position with
  | head tasks =>
      cases tasks with
      | nil => exact ⟨_, .finish isHere⟩
      | cons task rest =>
          cases pending : isPending setup task with
          | false => exact ⟨_, .skip isHere pending⟩
          | true => exact ⟨_, .begin isHere pending⟩
  | ensure task rest => exact orderly.ensure_progress isHere
  | foreground task rest =>
      obtain ⟨image, isSource⟩ := Option.isSome_iff_exists.mp (sourced task rest isHere)
      by_cases isThere :
          normalizeImageReference setup.registryPrefix image ∈ state.images
      · exact ⟨_, .ensure (.found isHere isSource isThere)⟩
      · exact ⟨_, .ensure (.missing isHere isSource isThere)⟩
  | pulling task rest => exact ⟨_, .ensure (.failed isHere)⟩
  | ready task rest => exact ⟨_, .submit isHere⟩
  | attempt task rest => exact ⟨_, .attempt (.unprepared isHere)⟩
  | running task rest fixedImage => exact ⟨_, .attempt (.ended isHere)⟩
  | cleanup task rest fixedImage => exact cleanup_progress derived isHere
  | removeSource task rest =>
      cases isSource : taskSourceImage setup task with
      | none => exact ⟨_, .cleanup (.sourceKept isHere (Or.inl isSource))⟩
      | some image =>
          by_cases isKept : some image = nextPendingSourceImage setup rest
          · exact ⟨_, .cleanup (.sourceKept isHere (Or.inr (isSource.trans isKept)))⟩
          · exact ⟨_, .cleanup (.source isHere isSource isKept (Or.inl rfl))⟩
  | finished => exact absurd isHere goesOn.1
  | raised rest => exact absurd isHere (goesOn.2 rest)

end Progress

/-! ## Runs -/

section Runs

variable {tasks : List CollectedTask} {images : Finset Text} {state : CollectionState}

theorem CollectionState.Reached.orderly (complete : Complete setup)
    (reached : state.Reached setup tasks images) :
    Orderly setup state ∧ Derived state ∧ Sourced setup state := by
  induction reached with
  | refl => exact ⟨orderly_start tasks images, by rintro _ ⟨⟩, by rintro _ _ ⟨⟩⟩
  | tail earlier step induction =>
      obtain ⟨orderly, derived, sourced⟩ := induction
      exact ⟨orderly_step complete orderly derived step, derived_step derived step,
        sourced_step sourced step⟩

/-- In whatever order the loop and its worker take their steps, an attempt runs
with its source image in the store, the worker is given nothing but the next
image, and a step is left until the loop has finished or raised. -/
theorem source_image_ready (complete : Complete setup)
    (reached : state.Reached setup tasks images) :
    (∀ task rest fixedImage image,
      state.position = .attempt task rest ∨
          state.position = .running task rest fixedImage →
        taskSourceImage setup task = some image → image ∈ state.images) ∧
      (∀ image ∈ state.queue, state.position.upcoming setup = some image) ∧
      (state.position ≠ .finished ∧ (∀ rest, state.position ≠ .raised rest) →
        ∃ next, CollectionStep setup state next) := by
  obtain ⟨orderly, derived, sourced⟩ := reached.orderly complete
  refine ⟨fun task rest fixedImage image isHere isSource => orderly.present image ?_,
    orderly.queued, orderly.progress derived sourced⟩
  rcases isHere with isHere | isHere <;>
    · rw [isHere]
      exact isSource

def oneTask : CollectedTask := ⟨"task", "image".toList⟩

def pullingSetup : CollectionSetup where
  registryPrefix := []
  hasExecutable := true
  cleanupEnabled := some true
  keepsAboveGb := false
  completed := []
  removalsWork := true
  buildsClean := true

theorem complete_pullingSetup : Complete pullingSetup := ⟨Or.inl (by decide)⟩

def oneImage : Text := "docker.io/library/image".toList

/-- The state in which the attempt of the task runs. -/
def oneRunning : CollectionState where
  position := .running oneTask [] (some (fixedImageNameFor oneImage))
  queue := []
  isMissing := false
  prefetch := none
  images := insert (fixedImageNameFor oneImage)
    (insert (normalizeImageReference [] oneImage) ∅)
  results := []

theorem reached_oneRunning : oneRunning.Reached pullingSetup [oneTask] ∅ := by
  have isSource : taskSourceImage pullingSetup oneTask = some oneImage := rfl
  refine .tail (.tail (.tail (.tail (.tail (.tail .refl (.begin rfl rfl))
    (.ensure (.notPrefetched rfl isSource rfl ?_)))
    (.ensure (.missing rfl isSource ?_)))
    (.ensure (.pulled rfl isSource)))
    (.submit rfl)) (.attempt (.prepared rfl isSource (Or.inr rfl)))
  · rintro outcome ⟨⟩
  · exact Finset.notMem_empty _

theorem source_image_ready_one : oneImage ∈ oneRunning.images :=
  (source_image_ready complete_pullingSetup reached_oneRunning).1 oneTask []
    (some (fixedImageNameFor oneImage)) oneImage (Or.inr rfl) rfl

end Runs

end AgentSchedBench.Harness
