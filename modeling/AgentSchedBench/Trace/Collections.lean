import AgentSchedBench.Trace.Files

/-!
# Resumed collections

A collection attempts the tasks that no earlier one has brought to an end, and
writes its results when all are done.  It writes its own results only, in place
of those of the collection before: the file keeps the results of all exactly
when the last collection that has written it had no task to skip.
-/

namespace AgentSchedBench.Trace

/-! ## Results and manifests -/

/-- What is in the place of the manifest of an attempt. -/
inductive ManifestFile where
  | missing
  | unreadable
  | status (value : Text)
deriving DecidableEq, Repr

/-- `_RESUME_TERMINAL_STATUSES` -/
def resumeTerminalStatuses : List Text :=
  ["completed".toList, "exhausted".toList]

/-- `_is_resume_terminal_manifest`, for a manifest that can be read. -/
def ManifestFile.isResumeTerminal : ManifestFile → Bool
  | .status value => resumeTerminalStatuses.contains value
  | _ => false

/-- `AttemptResult`, as far as it is collected. -/
structure AttemptResult where
  success : Bool
  modelPatch : Text
  exitStatus : Option Text
  error : Option Text
  nIterations : Option Nat
deriving DecidableEq, Repr

/-- `CollectedTaskResult` -/
structure CollectedTaskResult where
  instanceId : Text
  attempt : Nat
  success : Bool
  modelPatch : Text
  exitStatus : Option Text
  error : Option Text
  nIterations : Option Nat
deriving DecidableEq, Repr

/-- How an attempt ends, as the collector sees it. -/
inductive AttemptOutcome where
  | returned (result : AttemptResult)
  | raised (error : Text)
  | interrupted
deriving DecidableEq, Repr

/-- The manifest is none if the attempt has not come to have a directory. -/
structure AttemptEnd where
  manifest : Option ManifestFile
  outcome : AttemptOutcome
deriving DecidableEq, Repr

/-- The row of an attempt, unless it is interrupted. -/
def AttemptOutcome.row (instanceId : Text) (attempt : Nat) :
    AttemptOutcome → Option CollectedTaskResult
  | .returned result =>
      some
        { instanceId := instanceId
          attempt := attempt
          success := result.success
          modelPatch := result.modelPatch
          exitStatus := result.exitStatus
          error := result.error
          nIterations := result.nIterations }
  | .raised error =>
      some
        { instanceId := instanceId
          attempt := attempt
          success := false
          modelPatch := []
          exitStatus := some "error".toList
          error := some error
          nIterations := none }
  | .interrupted => none

/-! ## A collection -/

/-- The attempts of each instance, and `results.jsonl`. -/
structure RunDir where
  attempts : Text → List ManifestFile
  results : Option (List CollectedTaskResult)

namespace RunDir

def empty : RunDir := ⟨fun _ => [], none⟩

def addAttempt (dir : RunDir) (instanceId : Text)
    (manifest : Option ManifestFile) : RunDir :=
  { dir with
    attempts := fun other =>
      if other = instanceId then dir.attempts other ++ manifest.toList
      else dir.attempts other }

/-- Has an attempt of the instance reached a terminal state? -/
def isTerminal (dir : RunDir) (instanceId : Text) : Bool :=
  (dir.attempts instanceId).any ManifestFile.isResumeTerminal

/--
`instance_id in load_completed_ids(run_dir)`.  Only the directories in the run
directory itself are looked at.
-/
def isCompleted (dir : RunDir) (instanceId : Text) : Bool :=
  !instanceId.contains '/' && dir.isTerminal instanceId

def nextAttemptNumber (dir : RunDir) (instanceId : Text) : Nat :=
  (dir.attempts instanceId).length + 1

/-- The instances of the rows that are written. -/
def resultIds (dir : RunDir) : List Text :=
  (dir.results.getD []).map CollectedTaskResult.instanceId

end RunDir

/-- What happens in one collection; attempts are given by the task's index. -/
structure CollectionRun where
  concurrency : Nat
  attempts : Nat → AttemptEnd
  -- the concurrent attempts that begin before the collection ends
  started : Nat → Bool
  -- how many rows reach the file, unless it is interrupted before
  rowsWritten : Option Nat

/-- The attempts one after the other, with the results so far. -/
def collectTasks (run : CollectionRun) (completed : Text → Bool) :
    Nat → List Text → RunDir → List CollectedTaskResult →
      RunDir × Option (List CollectedTaskResult)
  | _, [], dir, results => (dir, some results)
  | index, instanceId :: rest, dir, results =>
      if completed instanceId then
        collectTasks run completed (index + 1) rest dir results
      else
        let ended := run.attempts index
        let after := dir.addAttempt instanceId ended.manifest
        match
          ended.outcome.row instanceId (dir.nextAttemptNumber instanceId)
        with
        | none => (after, none)
        | some row =>
            collectTasks run completed (index + 1) rest after
              (results ++ [row])

/-- The attempts at once; all of them have to end for there to be results. -/
def collectScheduled (run : CollectionRun) (completed : Text → Bool) :
    Nat → List Text → RunDir → List CollectedTaskResult →
      RunDir × Option (List CollectedTaskResult)
  | _, [], dir, results => (dir, some results)
  | index, instanceId :: rest, dir, results =>
      if completed instanceId then
        collectScheduled run completed (index + 1) rest dir results
      else if run.started index then
        let ended := run.attempts index
        let after := dir.addAttempt instanceId ended.manifest
        match
          ended.outcome.row instanceId (dir.nextAttemptNumber instanceId)
        with
        | none =>
            ((collectScheduled run completed (index + 1) rest after
              results).1, none)
        | some row =>
            collectScheduled run completed (index + 1) rest after
              (results ++ [row])
      else
        ((collectScheduled run completed (index + 1) rest dir results).1, none)

/-- The attempts of a collection. -/
def CollectionRun.collect (run : CollectionRun) (tasks : List Text)
    (dir : RunDir) : RunDir × Option (List CollectedTaskResult) :=
  if 1 < run.concurrency then
    collectScheduled run dir.isCompleted 0 tasks dir []
  else collectTasks run dir.isCompleted 0 tasks dir []

/-- `_run_scaffold_tasks` -/
def runScaffoldTasks (tasks : List Text) (run : CollectionRun)
    (dir : RunDir) : RunDir :=
  if run.concurrency < 1 then dir
  else
    let collected := run.collect tasks dir
    match collected.2, run.rowsWritten with
    | some results, some count =>
        { collected.1 with results := some (results.take count) }
    | _, _ => collected.1

/-! ## Histories -/

/-- How many rows a collection writes, if it comes to write them. -/
def CollectionRun.writes (run : CollectionRun) (tasks : List Text)
    (dir : RunDir) : Option Nat :=
  if run.concurrency < 1 then none
  else if (run.collect tasks dir).2.isSome then run.rowsWritten
  else none

/-- The run directory after collections over the tasks. -/
def collections (tasks : List Text) (runs : List CollectionRun) : RunDir :=
  runs.foldl (fun dir run => runScaffoldTasks tasks run dir) .empty

/-- One row for each task that is terminal, in the order of the tasks. -/
structure ResultsKept (tasks : List Text) (dir : RunDir) : Prop where
  all : ∀ id ∈ tasks, dir.isTerminal id = true → id ∈ dir.resultIds
  once : (dir.resultIds.filter dir.isTerminal).Nodup
  ordered : (dir.resultIds.filter dir.isTerminal).Sublist tasks

/--
The directory as the last collection that has written results found it, and
how many rows it wrote.
-/
def lastWrite (tasks : List Text) (runs : List CollectionRun) :
    Option (RunDir × Nat) :=
  (runs.foldl
    (fun (state : RunDir × Option (RunDir × Nat)) run =>
      (runScaffoldTasks tasks run state.1,
        ((run.writes tasks state.1).map (state.1, ·)).or state.2))
    (.empty, none)).2

/--
If results have been written, then the last time no task was skipped, and each
task that is terminal in the end has its one row among those written.
Otherwise no task is terminal.
-/
def NothingSkipped (tasks : List Text) (runs : List CollectionRun) : Prop :=
  let final := collections tasks runs
  match lastWrite tasks runs with
  | none => ∀ id ∈ tasks, final.isTerminal id = false
  | some (before, count) =>
      (∀ id ∈ tasks, before.isCompleted id = false) ∧
        (∀ id ∈ tasks, final.isTerminal id = true → id ∈ tasks.take count) ∧
        ((tasks.take count).filter final.isTerminal).Nodup

/-! ## One collection -/

section Collecting

variable {run : CollectionRun} {completed : Text → Bool}

theorem row_instanceId {outcome : AttemptOutcome} {instanceId : Text}
    {attempt : Nat} {row : CollectedTaskResult}
    (isRow : outcome.row instanceId attempt = some row) :
    row.instanceId = instanceId := by
  cases outcome with
  | returned result =>
      cases isRow
      rfl
  | raised error =>
      cases isRow
      rfl
  | interrupted => cases isRow

theorem addAttempt_isTerminal {dir : RunDir} {instanceId id : Text}
    {manifest : Option ManifestFile} (isTerminal : dir.isTerminal id = true) :
    (dir.addAttempt instanceId manifest).isTerminal id = true := by
  rw [RunDir.isTerminal] at isTerminal ⊢
  rw [RunDir.addAttempt]
  dsimp only
  split
  · rw [List.any_append, isTerminal, Bool.true_or]
  · exact isTerminal

/-- What a collection of some tasks leaves: the rows of those not completed. -/
structure Collected (completed : Text → Bool) (tasks : List Text)
    (dir : RunDir) (results : List CollectedTaskResult)
    (outcome : RunDir × Option (List CollectedTaskResult)) : Prop where
  terminal :
    ∀ id, dir.isTerminal id = true → outcome.1.isTerminal id = true
  unwritten : outcome.1.results = dir.results
  rows :
    ∀ rows, outcome.2 = some rows →
      rows.map CollectedTaskResult.instanceId =
        results.map CollectedTaskResult.instanceId ++
          tasks.filter (!completed ·)

namespace Collected

variable {tasks : List Text} {dir : RunDir}
  {results : List CollectedTaskResult} {instanceId : Text}
  {outcome : RunDir × Option (List CollectedTaskResult)}

theorem nil : Collected completed [] dir results (dir, some results) where
  terminal _ isTerminal := isTerminal
  unwritten := rfl
  rows rows isRows := by
    cases isRows
    simp

theorem skip (isCompleted : completed instanceId = true)
    (later : Collected completed tasks dir results outcome) :
    Collected completed (instanceId :: tasks) dir results outcome where
  terminal := later.terminal
  unwritten := later.unwritten
  rows rows isRows := by
    rw [later.rows rows isRows, List.filter_cons, isCompleted]
    rfl

/-- A row is added for a task that is not completed. -/
theorem add (isOpen : completed instanceId = false)
    {manifest : Option ManifestFile} {row : CollectedTaskResult}
    (isRow : row.instanceId = instanceId)
    (later :
      Collected completed tasks (dir.addAttempt instanceId manifest)
        (results ++ [row]) outcome) :
    Collected completed (instanceId :: tasks) dir results outcome where
  terminal id isTerminal := later.terminal id (addAttempt_isTerminal isTerminal)
  unwritten := later.unwritten
  rows rows isRows := by
    rw [later.rows rows isRows, List.filter_cons, isOpen, List.map_append,
      List.append_assoc, ← isRow]
    rfl

/-- Without results only the directory counts. -/
theorem interrupted {manifest : Option ManifestFile}
    (later :
      Collected completed tasks (dir.addAttempt instanceId manifest) results
        outcome) :
    Collected completed (instanceId :: tasks) dir results
      (outcome.1, none) where
  terminal id isTerminal := later.terminal id (addAttempt_isTerminal isTerminal)
  unwritten := later.unwritten
  rows _ := nofun

theorem notStarted (later : Collected completed tasks dir results outcome) :
    Collected completed (instanceId :: tasks) dir results
      (outcome.1, none) where
  terminal := later.terminal
  unwritten := later.unwritten
  rows _ := nofun

end Collected

theorem collectTasks_collected (index : Nat) (tasks : List Text)
    (dir : RunDir) (results : List CollectedTaskResult) :
    Collected completed tasks dir results
      (collectTasks run completed index tasks dir results) := by
  induction tasks generalizing index dir results with
  | nil => exact .nil
  | cons instanceId rest induction =>
      rw [collectTasks]
      split
      · next isCompleted => exact (induction _ dir results).skip isCompleted
      · next isOpen =>
        dsimp only
        split
        · exact
            ⟨fun id isTerminal => addAttempt_isTerminal isTerminal, rfl,
              fun _ => nofun⟩
        · next row isRow =>
          exact
            (induction _ _ _).add (by simpa using isOpen)
              (row_instanceId isRow)

theorem collectScheduled_collected (index : Nat) (tasks : List Text)
    (dir : RunDir) (results : List CollectedTaskResult) :
    Collected completed tasks dir results
      (collectScheduled run completed index tasks dir results) := by
  induction tasks generalizing index dir results with
  | nil => exact .nil
  | cons instanceId rest induction =>
      rw [collectScheduled]
      split
      · next isCompleted => exact (induction _ dir results).skip isCompleted
      · next isOpen =>
        split
        · dsimp only
          split
          · exact (induction _ _ results).interrupted
          · next row isRow =>
            exact
              (induction _ _ _).add (by simpa using isOpen)
                (row_instanceId isRow)
        · exact (induction _ dir results).notStarted

theorem collect_collected (tasks : List Text) (dir : RunDir) :
    Collected dir.isCompleted tasks dir [] (run.collect tasks dir) := by
  rw [CollectionRun.collect]
  split
  · exact collectScheduled_collected 0 tasks dir []
  · exact collectTasks_collected 0 tasks dir []

end Collecting

/-! ## All collections -/

variable {tasks : List Text} {run : CollectionRun} {dir : RunDir}

/-- A task that is terminal stays so. -/
theorem runScaffoldTasks_isTerminal {id : Text}
    (isTerminal : dir.isTerminal id = true) :
    (runScaffoldTasks tasks run dir).isTerminal id = true := by
  have kept :=
    (collect_collected tasks dir : Collected _ _ _ _ (run.collect _ _)).terminal
      id isTerminal
  rw [runScaffoldTasks]
  split
  · exact isTerminal
  · dsimp only
    split
    · exact kept
    · exact kept

/-- A collection that writes no results leaves those that are there. -/
theorem runScaffoldTasks_none (noWrite : run.writes tasks dir = none) :
    (runScaffoldTasks tasks run dir).results = dir.results := by
  have kept :=
    (collect_collected tasks dir : Collected _ _ _ _ (run.collect _ _)).unwritten
  rw [CollectionRun.writes] at noWrite
  rw [runScaffoldTasks]
  split
  · rfl
  · next positive =>
    rw [if_neg positive] at noWrite
    dsimp only
    split
    · next rows count isRows isCount =>
      rw [isRows, if_pos Option.isSome_some, isCount] at noWrite
      cases noWrite
    · exact kept

/-- A collection that writes them writes those of the tasks not completed. -/
theorem runScaffoldTasks_some {count : Nat}
    (isWrite : run.writes tasks dir = some count) :
    (runScaffoldTasks tasks run dir).resultIds =
      (tasks.filter (!dir.isCompleted ·)).take count := by
  have collected : Collected _ _ _ _ (run.collect tasks dir) :=
    collect_collected tasks dir
  rw [CollectionRun.writes] at isWrite
  rw [RunDir.resultIds, runScaffoldTasks]
  split
  · next idle =>
    rw [if_pos idle] at isWrite
    cases isWrite
  · next positive =>
    rw [if_neg positive] at isWrite
    dsimp only
    split
    · next rows written isRows isCount =>
      rw [isRows, if_pos Option.isSome_some, isCount] at isWrite
      cases isWrite
      rw [Option.getD_some, List.map_take, collected.rows rows isRows]
      rfl
    · next missing =>
      split at isWrite
      · next isSome =>
        obtain ⟨rows, isRows⟩ := Option.isSome_iff_exists.mp isSome
        exact (missing rows count isRows isWrite).elim
      · cases isWrite

/-- The state of `lastWrite`. -/
def writeState (tasks : List Text) (runs : List CollectionRun) :
    RunDir × Option (RunDir × Nat) :=
  runs.foldl
    (fun state run =>
      (runScaffoldTasks tasks run state.1,
        ((run.writes tasks state.1).map (state.1, ·)).or state.2))
    (.empty, none)

theorem writeState_fst (tasks : List Text) (runs : List CollectionRun) :
    (writeState tasks runs).1 = collections tasks runs := by
  induction runs using List.reverseRecOn with
  | nil => rfl
  | append_singleton runs run induction =>
      rw [writeState, collections, List.foldl_append, List.foldl_append]
      exact congrArg (runScaffoldTasks tasks run) induction

/-- What the results are, given the collection that has written them. -/
structure WrittenBy (tasks : List Text) (dir : RunDir)
    (last : Option (RunDir × Nat)) : Prop where
  unwritten : last = none → dir.resultIds = []
  written :
    ∀ before count, last = some (before, count) →
      dir.resultIds = (tasks.filter (!before.isCompleted ·)).take count
  terminal :
    ∀ before count, last = some (before, count) →
      ∀ id, before.isTerminal id = true → dir.isTerminal id = true

theorem WrittenBy.step {last : Option (RunDir × Nat)}
    (isWritten : WrittenBy tasks dir last) :
    WrittenBy tasks (runScaffoldTasks tasks run dir)
      (((run.writes tasks dir).map (dir, ·)).or last) := by
  cases isWrite : run.writes tasks dir with
  | none =>
      have same : (runScaffoldTasks tasks run dir).resultIds =
          dir.resultIds := by
        rw [RunDir.resultIds, runScaffoldTasks_none isWrite, RunDir.resultIds]
      rw [Option.map_none, Option.none_or]
      constructor
      · exact fun noWrite => same.trans (isWritten.unwritten noWrite)
      · exact fun before count isLast =>
          same.trans (isWritten.written before count isLast)
      · exact fun before count isLast id isTerminal =>
          runScaffoldTasks_isTerminal
            (isWritten.terminal before count isLast id isTerminal)
  | some written =>
      rw [Option.map_some, Option.some_or]
      constructor
      · exact nofun
      · rintro before count ⟨⟩
        exact runScaffoldTasks_some isWrite
      · rintro before count ⟨⟩ id isTerminal
        exact runScaffoldTasks_isTerminal isTerminal

/-- After all collections the results are those of the last that wrote them. -/
theorem collections_writtenBy (tasks : List Text)
    (runs : List CollectionRun) :
    WrittenBy tasks (collections tasks runs) (lastWrite tasks runs) := by
  rw [← writeState_fst]
  change WrittenBy tasks _ (writeState tasks runs).2
  induction runs using List.reverseRecOn with
  | nil => exact ⟨fun _ => rfl, nofun, nofun⟩
  | append_singleton runs run induction =>
      rw [writeState, List.foldl_append]
      exact induction.step

/--
The file keeps one row for each terminal task, in order, exactly when the last
collection that wrote it had nothing to skip.
-/
theorem resultsKept_iff (tasks : List Text) (runs : List CollectionRun) :
    ResultsKept tasks (collections tasks runs) ↔
      NothingSkipped tasks runs := by
  have isWritten := collections_writtenBy tasks runs
  rw [NothingSkipped]
  generalize collections tasks runs = final at isWritten
  cases isLast : lastWrite tasks runs with
  | none =>
      have noIds := isWritten.unwritten isLast
      constructor
      · intro kept id member
        by_contra isTerminal
        have listed := kept.all id member (by simpa using isTerminal)
        rw [noIds] at listed
        cases listed
      · intro noneTerminal
        constructor
        · intro id member isTerminal
          rw [noneTerminal id member] at isTerminal
          cases isTerminal
        · rw [noIds]
          exact List.nodup_nil
        · rw [noIds]
          exact List.nil_sublist _
  | some last =>
      obtain ⟨before, count⟩ := last
      have ids := isWritten.written before count isLast
      have stays := isWritten.terminal before count isLast
      constructor
      · intro kept
        have noneCompleted : ∀ id ∈ tasks, before.isCompleted id = false := by
          intro id member
          by_contra isCompleted
          have completed : before.isCompleted id = true := by
            simpa using isCompleted
          have isTerminal : before.isTerminal id = true :=
            (Bool.and_eq_true_iff.mp completed).2
          have listed := kept.all id member (stays id isTerminal)
          rw [ids] at listed
          have isOpen := (List.mem_filter.mp (List.mem_of_mem_take listed)).2
          rw [completed] at isOpen
          cases isOpen
        have allOpen : tasks.filter (!before.isCompleted ·) = tasks :=
          List.filter_eq_self.mpr fun id member => by
            rw [noneCompleted id member]
            rfl
        rw [allOpen] at ids
        exact ⟨noneCompleted, ids ▸ kept.all, ids ▸ kept.once⟩
      · rintro ⟨noneCompleted, all, once⟩
        have allOpen : tasks.filter (!before.isCompleted ·) = tasks :=
          List.filter_eq_self.mpr fun id member => by
            rw [noneCompleted id member]
            rfl
        rw [allOpen] at ids
        constructor
        · rw [ids]
          exact all
        · rw [ids]
          exact once
        · rw [ids]
          exact List.filter_sublist.trans (List.take_sublist _ _)

/-- A collection of two tasks, one after the other. -/
def plainRun (attempts : Nat → AttemptEnd) : CollectionRun :=
  ⟨1, attempts, fun _ => true, some 2⟩

/-- The row of a task is lost when another one is resumed. -/
theorem resumed_results_lost :
    ¬ ∀ (tasks : List Text) (runs : List CollectionRun),
      tasks.Nodup → ResultsKept tasks (collections tasks runs) := by
  intro always
  let solved : AttemptEnd :=
    ⟨some (.status "completed".toList),
      .returned ⟨true, "patch".toList, some "completed".toList, none, some 3⟩⟩
  let failed : AttemptEnd :=
    ⟨some (.status "error".toList), .raised "RuntimeError: disk".toList⟩
  let tasks : List Text := ["a".toList, "b".toList]
  let runs : List CollectionRun :=
    [plainRun fun index => if index = 0 then solved else failed,
      plainRun fun _ => solved]
  have kept := (resultsKept_iff tasks runs).mp (always tasks runs (by decide))
  exact absurd (kept.1 "a".toList (by decide)) (by decide)

end AgentSchedBench.Trace
