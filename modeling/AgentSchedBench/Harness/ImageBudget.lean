import AgentSchedBench.Harness.ImagesReady

/-!
# Images that are kept

If images are removed, the store holds no more than it did at first but the
image of the current task, what is derived from it, and the next image.  When
all tasks are done, nothing of them is left, and each has one result.
-/

namespace AgentSchedBench.Harness

open AgentSchedBench.Trace (Text)

variable {setup : CollectionSetup} {state : CollectionState}

/-! ## Positions -/

/-- The tasks that are not behind the loop. -/
def Position.remaining : Position → List CollectedTask
  | head tasks => tasks
  | ensure task rest | foreground task rest | pulling task rest | ready task rest
  | attempt task rest | running task rest _ | cleanup task rest _
  | removeSource task rest => task :: rest
  | finished => []
  | raised rest => rest

/-- The task whose images are to be removed. -/
def Position.current : Position → Option CollectedTask
  | attempt task _ | running task _ _ | cleanup task _ _ | removeSource task _ =>
      some task
  | _ => none

/-- The tasks for which no result has been appended. -/
def Position.open : Position → List CollectedTask
  | head tasks => tasks
  | ensure task rest | foreground task rest | pulling task rest | ready task rest
  | attempt task rest | running task rest _ => task :: rest
  | cleanup _ rest _ | removeSource _ rest | raised rest => rest
  | finished => []

/-- Images are removed, and the commands for it work. -/
structure Cleans (setup : CollectionSetup) : Prop where
  enabled : setup.cleanupEnabled = some true
  hasExecutable : setup.hasExecutable = true
  noThreshold : setup.keepsAboveGb = false
  removalsWork : setup.removalsWork = true
  buildsClean : setup.buildsClean = true

/-- The image is the next one, of the current task or derived from it. -/
def Position.Allows (setup : CollectionSetup) (position : Position) (image : Text) : Prop :=
  position.upcoming setup = some image ∨
    position.current.bind (taskSourceImage setup) = some image ∨
      position.fixedImage = some image

/-- The image is one of a pending task. -/
def IsOf (setup : CollectionSetup) (tasks : List CollectedTask) (image : Text) : Prop :=
  ∃ task ∈ tasks, isPending setup task = true ∧ taskSourceImage setup task = some image

/-- The task that the loop is at. -/
def Position.task : Position → Option CollectedTask
  | ensure task _ | foreground task _ | pulling task _ | ready task _ | attempt task _
  | running task _ _ | cleanup task _ _ | removeSource task _ => some task
  | _ => none

/-- The ids of the tasks that get a result. -/
def resultIds (setup : CollectionSetup) (tasks : List CollectedTask) : List String :=
  (tasks.filter (isPending setup)).map CollectedTask.instanceId

/-- What is in the store while the tasks are done. -/
structure Budgeted (setup : CollectionSetup) (tasks : List CollectedTask)
    (images : Finset Text) (state : CollectionState) : Prop where
  allowed : ∀ image ∈ state.images, image ∈ images ∨ state.position.Allows setup image
  gone : ∀ image ∈ state.images, IsOf setup tasks image →
    IsOf setup state.position.remaining image
  pending : ∀ task, state.position.task = some task → isPending setup task = true
  results : state.results ++ resultIds setup state.position.open = resultIds setup tasks

section Moves

variable {tasks : List CollectedTask} {images : Finset Text}

theorem resultIds_cons {task : CollectedTask} (pending : isPending setup task = true)
    (rest : List CollectedTask) :
    resultIds setup (task :: rest) = task.instanceId :: resultIds setup rest := by
  rw [resultIds, List.filter_cons_of_pos pending, List.map_cons, ← resultIds]

theorem resultIds_skip {task : CollectedTask} (notPending : isPending setup task = false)
    (rest : List CollectedTask) :
    resultIds setup (task :: rest) = resultIds setup rest := by
  rw [resultIds, List.filter_cons_of_neg (by simp [notPending]), ← resultIds]

theorem isOf_next {rest : List CollectedTask} {image : Text}
    (isNext : nextPendingSourceImage setup rest = some image) : IsOf setup rest image := by
  obtain ⟨task, member, isSource⟩ := List.exists_of_findSome?_eq_some isNext
  obtain ⟨member, pending⟩ := List.mem_filter.mp member
  exact ⟨task, member, pending, isSource⟩

theorem IsOf.cons {rest : List CollectedTask} {image : Text}
    (isOf : IsOf setup rest image) (task : CollectedTask) :
    IsOf setup (task :: rest) image := by
  obtain ⟨other, member, isOther⟩ := isOf
  exact ⟨other, List.mem_cons_of_mem _ member, isOther⟩

theorem IsOf.of_cons {task : CollectedTask} {rest : List CollectedTask} {image : Text}
    (isOf : IsOf setup (task :: rest) image) :
    isPending setup task = true ∧ taskSourceImage setup task = some image ∨
      IsOf setup rest image := by
  obtain ⟨other, member, isOther⟩ := isOf
  rcases List.mem_cons.mp member with rfl | member
  · exact Or.inl isOther
  · exact Or.inr ⟨other, member, isOther⟩

theorem IsOf.slash {image : Text} (isOf : IsOf setup tasks image) : '/' ∈ image := by
  obtain ⟨task, -, -, isSource⟩ := isOf
  exact slash_of_source isSource

theorem isOf_upcoming {position : Position}
    (pending : ∀ task, position.task = some task → isPending setup task = true)
    {image : Text} (isUpcoming : position.upcoming setup = some image) :
    IsOf setup position.remaining image := by
  have ofTask {task : CollectedTask} {rest : List CollectedTask}
      (pending : isPending setup task = true)
      (isFirst : (taskSourceImage setup task).or (nextPendingSourceImage setup rest) =
        some image) : IsOf setup (task :: rest) image := by
    rcases Option.or_eq_some_iff.mp isFirst with isSource | ⟨-, isNext⟩
    · exact ⟨task, List.mem_cons_self, pending, isSource⟩
    · exact (isOf_next isNext).cons task
  cases position with
  | ensure task rest | foreground task rest | pulling task rest | ready task rest =>
      exact ofTask (pending task rfl) isUpcoming
  | finished => cases isUpcoming
  | head tasks | raised tasks => exact isOf_next isUpcoming
  | attempt task rest | removeSource task rest => exact (isOf_next isUpcoming).cons task
  | running task rest fixedImage | cleanup task rest fixedImage =>
      exact (isOf_next isUpcoming).cons task

theorem budgeted_start (tasks : List CollectedTask) (images : Finset Text) :
    Budgeted setup tasks images (.start tasks images) where
  allowed _ isThere := Or.inl isThere
  gone _ _ isOf := isOf
  pending _ := by rintro ⟨⟩
  results := rfl

/-- A step about images that are allowed, or of tasks that are not behind it. -/
theorem Budgeted.move (budgeted : Budgeted setup tasks images state)
    {next : CollectionState}
    (allowed : ∀ image ∈ next.images, next.position.Allows setup image ∨
      image ∈ state.images ∧
        (state.position.Allows setup image → next.position.Allows setup image))
    (gone : ∀ image ∈ next.images, IsOf setup tasks image →
      IsOf setup next.position.remaining image ∨ image ∈ state.images ∧
        (IsOf setup state.position.remaining image →
          IsOf setup next.position.remaining image))
    (pending : ∀ task, next.position.task = some task → isPending setup task = true)
    (results : next.results ++ resultIds setup next.position.open =
      state.results ++ resultIds setup state.position.open) :
    Budgeted setup tasks images next where
  allowed image isThere := by
    rcases allowed image isThere with isAllowed | ⟨wasThere, allows⟩
    · exact Or.inr isAllowed
    · exact (budgeted.allowed image wasThere).imp_right allows
  gone image isThere isOf := by
    rcases gone image isThere isOf with isLeft | ⟨wasThere, stays⟩
    · exact isLeft
    · exact stays (budgeted.gone image wasThere isOf)
  pending := pending
  results := results.trans budgeted.results

/-- The loop goes on, and the images stay. -/
theorem Budgeted.moveTo (budgeted : Budgeted setup tasks images state)
    {position : Position}
    (allows : ∀ image, state.position.Allows setup image → position.Allows setup image)
    (stays : ∀ image, IsOf setup state.position.remaining image →
      IsOf setup position.remaining image)
    (pending : ∀ task, position.task = some task → isPending setup task = true)
    (sameOpen : resultIds setup position.open = resultIds setup state.position.open) :
    Budgeted setup tasks images (state.moveTo position) :=
  budgeted.move (fun image isThere => Or.inr ⟨isThere, allows image⟩)
    (fun image isThere _ => Or.inr ⟨isThere, stays image⟩) pending
    (congrArg (state.results ++ ·) sameOpen)

/-- A task gets its result. -/
theorem Budgeted.conclude (budgeted : Budgeted setup tasks images state)
    {here : Position} (isHere : state.position = here) {task : CollectedTask}
    {rest : List CollectedTask} (fixedImage : Option Text)
    (allows : ∀ image, here.Allows setup image →
      Position.Allows setup (.cleanup task rest fixedImage) image)
    (isTask : here.task = some task) (isOpen : here.open = task :: rest)
    (isRemaining : here.remaining = task :: rest) :
    Budgeted setup tasks images (state.conclude task rest fixedImage) := by
  subst isHere
  have pending := budgeted.pending task isTask
  refine budgeted.move (fun image isThere => Or.inr ⟨isThere, allows image⟩)
    (fun image isThere _ => Or.inr ⟨isThere, fun isOf => ?_⟩) ?_ ?_
  · rw [isRemaining] at isOf
    exact isOf
  · rintro _ ⟨⟩
    exact pending
  · rw [isOpen, resultIds_cons pending]
    exact List.append_assoc _ _ _

theorem Position.Allows.ofSource {task : CollectedTask} {rest : List CollectedTask}
    {image : Text} {position : Position}
    (isFirst : position.upcoming setup =
      (taskSourceImage setup task).or (nextPendingSourceImage setup rest))
    (noCurrent : position.current = none) (noFixed : position.fixedImage = none)
    (allows : position.Allows setup image) :
    taskSourceImage setup task = some image ∨
      nextPendingSourceImage setup rest = some image := by
  rcases allows with isUpcoming | isCurrent | isFixed
  · rw [isFirst] at isUpcoming
    exact (Option.or_eq_some_iff.mp isUpcoming).imp_right And.right
  · rw [noCurrent] at isCurrent
    cases isCurrent
  · rw [noFixed] at isFixed
    cases isFixed

/-- The loop goes on with the same task. -/
theorem Budgeted.between (budgeted : Budgeted setup tasks images state)
    {here position : Position} (isHere : state.position = here)
    (allows : here.Allows setup = position.Allows setup)
    (sameTask : here.task = position.task)
    (sameRemaining : here.remaining = position.remaining)
    (sameOpen : here.open = position.open) :
    Budgeted setup tasks images (state.moveTo position) := by
  subst isHere
  exact budgeted.moveTo (fun _ isAllowed => allows ▸ isAllowed)
    (fun _ isOf => sameRemaining ▸ isOf)
    (fun other isOther => budgeted.pending other (sameTask.trans isOther))
    (congrArg (resultIds setup) sameOpen.symm)

theorem budgeted_ensure (complete : Complete setup) (cleans : Cleans setup)
    (budgeted : Budgeted setup tasks images state) {next : CollectionState}
    (step : EnsureStep setup state next) : Budgeted setup tasks images next := by
  cases step with
  | @noImage task rest isHere noSource =>
      exact budgeted.between isHere rfl rfl rfl rfl
  | @noExecutable task rest image isHere isSource noExecutable =>
      rw [cleans.hasExecutable] at noExecutable
      cases noExecutable
  | @prefetched task rest image isHere isSource hasExecutable awaits =>
      exact budgeted.between isHere rfl rfl rfl rfl
  | @prefetchFailed task rest image isHere isSource hasExecutable awaits =>
      exact budgeted.between isHere rfl rfl rfl rfl
  | @notPrefetched task rest image isHere isSource hasExecutable awaitsOther =>
      exact budgeted.between isHere rfl rfl rfl rfl
  | @found task rest image isHere isSource isThere =>
      exact budgeted.between isHere rfl rfl rfl rfl
  | @missing task rest image isHere isSource notThere =>
      exact budgeted.between isHere rfl rfl rfl rfl
  | @pulled task rest image isHere isSource =>
      have pending : isPending setup task = true :=
        budgeted.pending task (by rw [isHere]; rfl)
      have isUpcoming : Position.upcoming setup (.ready task rest) = some image := by
        rw [Position.upcoming, isSource]
        rfl
      rw [normalize_source complete isSource]
      refine budgeted.move (fun other isThere => ?_) (fun other isThere _ => ?_) ?_ ?_
      · rcases Finset.mem_insert.mp isThere with rfl | wasThere
        · exact Or.inl (Or.inl isUpcoming)
        · exact Or.inr ⟨wasThere,
            fun isAllowed => by rw [isHere] at isAllowed; exact isAllowed⟩
      · rcases Finset.mem_insert.mp isThere with rfl | wasThere
        · exact Or.inl ⟨task, List.mem_cons_self, pending, isSource⟩
        · exact Or.inr ⟨wasThere, fun isOf => by rw [isHere] at isOf; exact isOf⟩
      · rintro _ ⟨⟩
        exact pending
      · rw [isHere]
        rfl
  | @failed task rest isHere =>
      refine budgeted.conclude isHere none (fun image isAllowed => ?_) rfl rfl rfl
      rcases Position.Allows.ofSource rfl rfl rfl isAllowed with isSource | isNext
      · exact Or.inr (Or.inl isSource)
      · exact Or.inl isNext

theorem budgeted_submit (budgeted : Budgeted setup tasks images state)
    {task : CollectedTask} {rest : List CollectedTask}
    (isHere : state.position = .ready task rest) :
    Budgeted setup tasks images (state.submit setup task rest) := by
  have sameImages : (state.submit setup task rest).images = state.images := by
    rw [CollectionState.submit]
    split
    · rfl
    · split <;> rfl
  have sameResults : (state.submit setup task rest).results = state.results := by
    rw [CollectionState.submit]
    split
    · rfl
    · split <;> rfl
  have isNext : (state.submit setup task rest).position = .attempt task rest :=
    position_submit task rest
  refine budgeted.move (fun image isThere => Or.inr ⟨sameImages ▸ isThere, ?_⟩)
    (fun image isThere _ => Or.inr ⟨sameImages ▸ isThere, ?_⟩) ?_ ?_
  · rw [isHere, isNext]
    intro isAllowed
    rcases Position.Allows.ofSource rfl rfl rfl isAllowed with isSource | isUpcoming
    · exact Or.inr (Or.inl isSource)
    · exact Or.inl isUpcoming
  · rw [isHere, isNext]
    exact id
  · rw [isNext]
    exact fun other isOther => budgeted.pending other (by rw [isHere]; exact isOther)
  · rw [isNext, sameResults, isHere]
    rfl

theorem budgeted_attempt (complete : Complete setup) (cleans : Cleans setup)
    (orderly : Orderly setup state) (budgeted : Budgeted setup tasks images state)
    {next : CollectionState} (step : AttemptStep setup state next) :
    Budgeted setup tasks images next := by
  cases step with
  | @unprepared task rest isHere =>
      exact budgeted.conclude isHere none (fun _ isAllowed => isAllowed) rfl rfl rfl
  | @brokenBuild task rest image isHere isSource unclean =>
      rw [cleans.buildsClean] at unclean
      cases unclean
  | @noImage task rest isHere noSource =>
      exact budgeted.between isHere rfl rfl rfl rfl
  | @pulled task rest image isHere isSource notThere =>
      refine absurd (orderly.present image ?_) ?_
      · rw [isHere]
        exact isSource
      · rwa [normalize_source complete isSource] at notThere
  | @prepared task rest image after isHere isSource areImages =>
      have pending : isPending setup task = true :=
        budgeted.pending task (by rw [isHere]; rfl)
      have isOld {other : Text} (isThere : other ∈ after) :
          other = fixedImageNameFor image ∨ other ∈ state.images := by
        rcases areImages with rfl | rfl
        · exact Or.inr isThere
        · exact Finset.mem_insert.mp isThere
      refine budgeted.move (fun other isThere => ?_) (fun other isThere isOf => ?_) ?_ ?_
      · rcases isOld isThere with rfl | wasThere
        · exact Or.inl (Or.inr (Or.inr rfl))
        · refine Or.inr ⟨wasThere, fun isAllowed => ?_⟩
          rw [isHere] at isAllowed
          rcases isAllowed with isUpcoming | isCurrent | isFixed
          · exact Or.inl isUpcoming
          · exact Or.inr (Or.inl isCurrent)
          · cases isFixed
      · rcases isOld isThere with rfl | wasThere
        · exact absurd isOf.slash (slash_notMem_fixedImageNameFor image)
        · exact Or.inr ⟨wasThere, fun isOf => by rw [isHere] at isOf; exact isOf⟩
      · rintro _ ⟨⟩
        exact pending
      · rw [isHere]
        rfl
  | @ended task rest fixedImage isHere =>
      exact budgeted.conclude isHere fixedImage (fun _ isAllowed => isAllowed) rfl rfl rfl

/-- The images of a task are removed, but for one that is still to come. -/
theorem budgeted_cleanup (cleans : Cleans setup)
    (budgeted : Budgeted setup tasks images state) {next : CollectionState}
    (step : CleanupStep setup state next) : Budgeted setup tasks images next := by
  have erased {image : Text} {before after : Finset Text}
      (removed : Removed setup image before after) : after = before.erase image := by
    refine removed.resolve_right fun failed => ?_
    rw [cleans.removalsWork] at failed
    cases failed.1
  -- with its source image gone or still to come, a task is behind the loop
  have behind {task : CollectedTask} {rest : List CollectedTask} {after : Finset Text}
      (isHere : state.position = .cleanup task rest none ∨
        state.position = .removeSource task rest)
      (fewer : ∀ image ∈ after, image ∈ state.images ∧
        (taskSourceImage setup task = some image →
          nextPendingSourceImage setup rest = some image)) :
      Budgeted setup tasks images { state with position := .head rest, images := after } := by
    refine budgeted.move (fun image isThere => Or.inr ⟨(fewer image isThere).1, ?_⟩)
      (fun image isThere _ => Or.inr ⟨(fewer image isThere).1, ?_⟩)
      (by rintro _ ⟨⟩) (by rcases isHere with isHere | isHere <;> rw [isHere] <;> rfl)
    · intro isAllowed
      have isLeft : nextPendingSourceImage setup rest = some image ∨
          taskSourceImage setup task = some image ∨ (none : Option Text) = some image := by
        rcases isHere with isHere | isHere <;>
          · rw [isHere] at isAllowed
            exact isAllowed
      rcases isLeft with isNext | isSource | isFixed
      · exact Or.inl isNext
      · exact Or.inl ((fewer image isThere).2 isSource)
      · cases isFixed
    · intro isOf
      have isLeft : IsOf setup (task :: rest) image := by
        rcases isHere with isHere | isHere <;>
          · rw [isHere] at isOf
            exact isOf
      rcases isLeft.of_cons with ⟨-, isSource⟩ | isOf
      · exact isOf_next ((fewer image isThere).2 isSource)
      · exact isOf
  cases step with
  | @noImages task rest isHere noSource =>
      refine behind (Or.inl isHere) fun image isThere => ⟨isThere, fun isSource => ?_⟩
      rw [noSource] at isSource
      cases isSource
  | @disabled task rest fixedImage isHere isDisabled =>
      rw [cleans.enabled] at isDisabled
      cases isDisabled
  | @raises task rest fixedImage isHere hasImages wrong =>
      rw [cleans.enabled, cleans.hasExecutable] at wrong
      rcases wrong with isNone | ⟨-, noExecutable⟩
      · cases isNone
      · cases noExecutable
  | @keeps task rest fixedImage isHere enabled hasExecutable keepsAbove =>
      rw [cleans.noThreshold] at keepsAbove
      cases keepsAbove
  | @noFixed task rest isHere isSome enabled hasExecutable =>
      exact budgeted.between isHere rfl rfl rfl rfl
  | @fixed task rest fixedImage after isHere differs enabled hasExecutable removed =>
      cases erased removed
      have pending : isPending setup task = true :=
        budgeted.pending task (by rw [isHere]; rfl)
      refine budgeted.move (fun image isThere => ?_) (fun image isThere _ => ?_) ?_ ?_
      · obtain ⟨isOther, wasThere⟩ := Finset.mem_erase.mp isThere
        refine Or.inr ⟨wasThere, fun isAllowed => ?_⟩
        rw [isHere] at isAllowed
        rcases isAllowed with isUpcoming | isCurrent | isFixed
        · exact Or.inl isUpcoming
        · exact Or.inr (Or.inl isCurrent)
        · cases isFixed
          exact absurd rfl isOther
      · exact Or.inr ⟨Finset.mem_of_mem_erase isThere,
          fun isOf => by rw [isHere] at isOf; exact isOf⟩
      · rintro _ ⟨⟩
        exact pending
      · rw [isHere]
        rfl
  | @sourceKept task rest isHere isKept =>
      refine behind (Or.inr isHere) fun image isThere => ⟨isThere, fun isSource => ?_⟩
      rcases isKept with noSource | isNext
      · rw [noSource] at isSource
        cases isSource
      · exact isNext.symm.trans isSource
  | @source task rest image after isHere isSource notKept removed =>
      cases erased removed
      refine behind (Or.inr isHere) fun other isThere => ?_
      obtain ⟨isOther, wasThere⟩ := Finset.mem_erase.mp isThere
      refine ⟨wasThere, fun isSame => ?_⟩
      rw [isSource] at isSame
      cases isSame
      exact absurd rfl isOther

theorem budgeted_worker (complete : Complete setup) (orderly : Orderly setup state)
    (budgeted : Budgeted setup tasks images state) {next : CollectionState}
    (step : WorkerStep setup state next) : Budgeted setup tasks images next := by
  cases step with
  | found isQueue notLooked isThere => exact { budgeted with }
  | missing isQueue notLooked notThere => exact { budgeted with }
  | failed isQueue looked => exact { budgeted with }
  | @pulled image later isQueue looked =>
      have isUpcoming : state.position.upcoming setup = some image :=
        orderly.queued image (by rw [isQueue]; exact List.mem_cons_self)
      rw [normalize_upcoming complete isUpcoming]
      refine budgeted.move (fun other isThere => ?_) (fun other isThere _ => ?_)
        budgeted.pending rfl
      · rcases Finset.mem_insert.mp isThere with rfl | wasThere
        · exact Or.inl (Or.inl isUpcoming)
        · exact Or.inr ⟨wasThere, id⟩
      · rcases Finset.mem_insert.mp isThere with rfl | wasThere
        · exact Or.inl (isOf_upcoming budgeted.pending isUpcoming)
        · exact Or.inr ⟨wasThere, id⟩

theorem budgeted_step (complete : Complete setup) (cleans : Cleans setup)
    (orderly : Orderly setup state) (budgeted : Budgeted setup tasks images state)
    {next : CollectionState} (step : CollectionStep setup state next) :
    Budgeted setup tasks images next := by
  cases step with
  | finish isHere =>
      exact budgeted.between isHere rfl rfl rfl rfl
  | @skip task rest isHere notPending =>
      refine budgeted.moveTo (fun image isAllowed => ?_) (fun image isOf => ?_)
        (by rintro _ ⟨⟩) ?_
      · rw [isHere, Position.Allows, Position.upcoming, nextPending_skip notPending]
          at isAllowed
        exact isAllowed
      · rw [isHere] at isOf
        rcases isOf.of_cons with ⟨pending, -⟩ | isOf
        · rw [notPending] at pending
          cases pending
        · exact isOf
      · rw [isHere]
        exact (resultIds_skip notPending rest).symm
  | @begin task rest isHere pending =>
      refine budgeted.moveTo (fun image isAllowed => ?_) (fun image isOf => ?_)
        (by rintro _ ⟨⟩; exact pending) ?_
      · rw [isHere, Position.Allows, Position.upcoming, nextPending_cons pending]
          at isAllowed
        exact isAllowed
      · rw [isHere] at isOf
        exact isOf
      · rw [isHere]
        rfl
  | ensure step => exact budgeted_ensure complete cleans budgeted step
  | submit isHere => exact budgeted_submit budgeted isHere
  | attempt step => exact budgeted_attempt complete cleans orderly budgeted step
  | cleanup step => exact budgeted_cleanup cleans budgeted step
  | worker step => exact budgeted_worker complete orderly budgeted step

/-! ## Runs -/

theorem CollectionState.Reached.budgeted (complete : Complete setup)
    (cleans : Cleans setup) (reached : state.Reached setup tasks images) :
    Budgeted setup tasks images state := by
  induction reached with
  | refl => exact budgeted_start tasks images
  | tail earlier step induction =>
      exact budgeted_step complete cleans
        (CollectionState.Reached.orderly complete earlier).1 induction step

/-- The images that are allowed. -/
def Position.budget (setup : CollectionSetup) (position : Position) : Finset Text :=
  (position.upcoming setup).toFinset ∪
    ((position.current.bind (taskSourceImage setup)).toFinset ∪ position.fixedImage.toFinset)

theorem Position.mem_budget {position : Position} {image : Text} :
    image ∈ position.budget setup ↔ position.Allows setup image := by
  simp only [Position.budget, Position.Allows, Finset.mem_union, Option.mem_toFinset,
    Option.mem_def]

theorem Position.card_budget_le (position : Position) : (position.budget setup).card ≤ 3 := by
  have single (image : Option Text) : image.toFinset.card ≤ 1 := by
    cases image <;> simp
  calc (position.budget setup).card
      ≤ _ + _ := Finset.card_union_le _ _
    _ ≤ 1 + (1 + 1) := Nat.add_le_add (single _)
        ((Finset.card_union_le _ _).trans (Nat.add_le_add (single _) (single _)))
    _ = 3 := rfl

theorem Budgeted.card_le (budgeted : Budgeted setup tasks images state) :
    (state.images \ images).card ≤ 3 := by
  refine le_trans (Finset.card_le_card fun image isThere => ?_)
    (state.position.card_budget_le : (state.position.budget setup).card ≤ 3)
  obtain ⟨isThere, isNew⟩ := Finset.mem_sdiff.mp isThere
  exact Position.mem_budget.mpr ((budgeted.allowed image isThere).resolve_left isNew)

theorem cleans_pullingSetup : Cleans pullingSetup := ⟨rfl, rfl, rfl, rfl, rfl⟩

/-- The state in which the task is done. -/
def oneDone : CollectionState where
  position := .finished
  queue := []
  isMissing := false
  prefetch := none
  images := (oneRunning.images.erase (fixedImageNameFor oneImage)).erase oneImage
  results := ["task"]

theorem reached_oneDone : oneDone.Reached pullingSetup [oneTask] ∅ := by
  have isSource : taskSourceImage pullingSetup oneTask = some oneImage := rfl
  refine .tail (.tail (.tail (.tail reached_oneRunning (.attempt (.ended rfl)))
    (.cleanup (.fixed rfl ?_ rfl rfl (Or.inl rfl))))
    (.cleanup (.source rfl isSource (by rintro ⟨⟩) (Or.inl rfl)))) (.finish rfl)
  intro same
  cases isSource.symm.trans same.symm

end Moves

end AgentSchedBench.Harness
