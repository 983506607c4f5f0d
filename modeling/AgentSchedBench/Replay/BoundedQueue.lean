import AgentSchedBench.Library.Tasks

/-!
# The bounded replay queue

`_run_cloud_model_queue` starts as many workers as the bound allows.  Each of
them takes sessions from the queue until it is empty or an error is known, and
prepares, replays and finalizes one session after the other.

A worker can be suspended, fail or be cancelled wherever the source awaits.
The lock on the results is held across no suspension, so that waiting for it
and what is done under it are one suspension and one move.

Each session is in one place only: in the queue, with a worker, in the list of
prepared sessions, or dropped.  A session that was dropped, or is listed
without statistics, comes with an error, after which the queue does not return
normally.
-/

namespace AgentSchedBench.Replay

/-! ## Workers -/

/-- Why a worker leaves its `try` block. -/
inductive Exit where
  | normal
  | cancelled
deriving DecidableEq, Repr

/-- Where a worker of the queue is, with the index of its session. -/
inductive WorkerPhase where
  | idle
  | preparing (session : Nat)
  | recordingFailure (session : Nat)
  | replaying (session : Nat)
  | recordingError (session : Nat) (prepared : Bool)
  | finalizing (session : Nat) (hasStats : Bool) (exit : Exit)
  | appending (session : Nat) (hasStats : Bool) (exit : Exit)
  | ended
deriving DecidableEq, Repr

/--
The variables that the workers share.  `raised` says whether a worker has
ended with an exception, `preparedOk` and `finalized` are the calls that
prepared and finalized a session, `dropped` and `unstated` the sessions that
are listed nowhere and those that are listed without statistics.
-/
structure QueueState where
  queue : List Nat
  preparedSessions : List Nat
  taskStats : List Nat
  firstError : Bool
  raised : Bool
  preparedOk : List Nat
  finalized : List Nat
  dropped : List Nat
  unstated : List Nat
deriving DecidableEq, Repr

/-- The state when the workers are started. -/
def QueueState.start (sessions : Nat) : QueueState where
  queue := List.range sessions
  preparedSessions := []
  taskStats := []
  firstError := false
  raised := false
  preparedOk := []
  finalized := []
  dropped := []
  unstated := []

namespace QueueState

variable (state : QueueState)

/-- `_prepare_replay_session` has returned. -/
def withPrepared (session : Nat) : QueueState :=
  { state with preparedOk := session :: state.preparedOk }

/-- `_finalize_prepared_session` is called. -/
def withFinalized (session : Nat) : QueueState :=
  { state with finalized := session :: state.finalized }

/-- The worker ends with an exception, and its session is listed nowhere. -/
def dropping (session : Nat) : QueueState :=
  { state with raised := true, dropped := session :: state.dropped }

/-- A session is appended to the results. -/
def listing (session : Nat) (hasStats : Bool) : QueueState :=
  { state with
    preparedSessions := state.preparedSessions ++ [session]
    taskStats :=
      if hasStats then state.taskStats ++ [session] else state.taskStats
    unstated :=
      if hasStats then state.unstated else session :: state.unstated }

end QueueState

/-- What a worker may do next; the moves follow the source from the top. -/
inductive WorkerMove :
    QueueState → WorkerPhase → QueueState → WorkerPhase → Prop where
  | cancelledAtStart {state : QueueState} :
      WorkerMove state .idle { state with raised := true } .ended
  | stopOnError {state : QueueState} (failed : state.firstError = true) :
      WorkerMove state .idle state .ended
  | queueEmpty {state : QueueState} (empty : state.queue = []) :
      WorkerMove state .idle state .ended
  | take {state : QueueState} {session : Nat} {rest : List Nat}
      (noError : state.firstError = false)
      (next : state.queue = session :: rest) :
      WorkerMove state .idle { state with queue := rest }
        (.preparing session)
  | prepared {state : QueueState} {session : Nat} :
      WorkerMove state (.preparing session) (state.withPrepared session)
        (.replaying session)
  | prepareFails {state : QueueState} {session : Nat} :
      WorkerMove state (.preparing session) state
        (.recordingFailure session)
  | recordFails {state : QueueState} {session : Nat} :
      WorkerMove state (.preparing session) state
        (.recordingError session false)
  | prepareCancelled {state : QueueState} {session : Nat} :
      WorkerMove state (.preparing session) (state.dropping session) .ended
  | failureRecorded {state : QueueState} {session : Nat} :
      WorkerMove state (.recordingFailure session)
        (state.listing session true) .idle
  | failureCancelled {state : QueueState} {session : Nat} :
      WorkerMove state (.recordingFailure session) (state.dropping session)
        .ended
  | replayed {state : QueueState} {session : Nat} :
      WorkerMove state (.replaying session) (state.withFinalized session)
        (.finalizing session true .normal)
  | replayFails {state : QueueState} {session : Nat} :
      WorkerMove state (.replaying session) state
        (.recordingError session true)
  | replayCancelled {state : QueueState} {session : Nat} :
      WorkerMove state (.replaying session) (state.withFinalized session)
        (.finalizing session false .cancelled)
  | errorRecorded {state : QueueState} {session : Nat} :
      WorkerMove state (.recordingError session true)
        ({ state with firstError := true }.withFinalized session)
        (.finalizing session false .normal)
  | errorRecordedUnprepared {state : QueueState} {session : Nat} :
      WorkerMove state (.recordingError session false)
        { state with
          firstError := true
          dropped := session :: state.dropped }
        .idle
  | errorCancelled {state : QueueState} {session : Nat} :
      WorkerMove state (.recordingError session true)
        (state.withFinalized session)
        (.finalizing session false .cancelled)
  | errorCancelledUnprepared {state : QueueState} {session : Nat} :
      WorkerMove state (.recordingError session false)
        (state.dropping session) .ended
  | finalizes {state : QueueState} {session : Nat} {hasStats : Bool}
      {exit : Exit} :
      WorkerMove state (.finalizing session hasStats exit) state
        (.appending session hasStats exit)
  | finalizeFails {state : QueueState} {session : Nat} {hasStats : Bool}
      {exit : Exit} :
      WorkerMove state (.finalizing session hasStats exit)
        (state.dropping session) .ended
  | appended {state : QueueState} {session : Nat} {hasStats : Bool} :
      WorkerMove state (.appending session hasStats .normal)
        (state.listing session hasStats) .idle
  | appendedCancelled {state : QueueState} {session : Nat}
      {hasStats : Bool} :
      WorkerMove state (.appending session hasStats .cancelled)
        { state.listing session hasStats with raised := true } .ended
  | appendCancelled {state : QueueState} {session : Nat} {hasStats : Bool}
      {exit : Exit} :
      WorkerMove state (.appending session hasStats exit)
        (state.dropping session) .ended

/-! ## The queue -/

abbrev Queue := Tasks.State QueueState WorkerPhase

/-- `_run_cloud_model_queue`, with the workers it starts. -/
def Queue.start (sessions concurrency : Nat) : Queue where
  shared := QueueState.start sessions
  tasks := List.replicate (min concurrency sessions) .idle

/-- The states of the queue; a bound below one is refused. -/
def Queue.Reachable (sessions concurrency : Nat) (queue : Queue) : Prop :=
  1 ≤ concurrency ∧
    Tasks.Reachable WorkerMove (Queue.start sessions concurrency) queue

/-- Is a worker with a session? -/
def WorkerPhase.isActive : WorkerPhase → Bool
  | .idle => false
  | .ended => false
  | _ => true

/-- How many sessions are being worked on. -/
def Queue.active (queue : Queue) : Nat :=
  queue.tasks.countP WorkerPhase.isActive

/-- `gather` has returned, or the function raises what it was cancelled by. -/
def Queue.Ended (queue : Queue) : Prop :=
  ∀ worker ∈ queue.tasks, worker = .ended

/-- No worker has raised and no error was kept. -/
def Queue.ReturnsNormally (queue : Queue) : Prop :=
  queue.Ended ∧ queue.shared.raised = false ∧
    queue.shared.firstError = false

/-! ## Where a session is -/

namespace WorkerPhase

/-- The session that a worker is with. -/
def session? : WorkerPhase → Option Nat
  | .idle => none
  | .preparing session => some session
  | .recordingFailure session => some session
  | .replaying session => some session
  | .recordingError session _ => some session
  | .finalizing session _ _ => some session
  | .appending session _ _ => some session
  | .ended => none

/-- The session that a worker has prepared and not yet finalized. -/
def owed? : WorkerPhase → Option Nat
  | .replaying session => some session
  | .recordingError session true => some session
  | _ => none

/-- The session that a worker may still prepare. -/
def unprepared? : WorkerPhase → Option Nat
  | .preparing session => some session
  | _ => none

end WorkerPhase

/-- Does a worker have this session? -/
def marks (session : Nat) (found : Option Nat) : Nat :=
  found.toList.count session

namespace Queue.Reachable

variable {sessions concurrency : Nat} {queue : Queue}

theorem idle_weight (find : WorkerPhase → Option Nat)
    (idle : find .idle = none) (session : Nat) :
    Tasks.weight (fun worker => marks session (find worker))
      (Queue.start sessions concurrency).tasks = 0 := by
  apply Tasks.weight_eq_zero
  intro worker member
  rw [List.eq_of_mem_replicate member, idle]
  rfl

/-- Every session is in one place. -/
theorem session_conserved
    (reachable : Queue.Reachable sessions concurrency queue)
    (session : Nat) :
    Tasks.weight (fun worker => marks session worker.session?) queue.tasks +
        (queue.shared.queue.count session +
          queue.shared.preparedSessions.count session +
          queue.shared.dropped.count session) =
      (List.range sessions).count session := by
  rw [Tasks.Reachable.conserved
    (fun shared : QueueState =>
      shared.queue.count session + shared.preparedSessions.count session +
        shared.dropped.count session)
    (fun worker : WorkerPhase => marks session worker.session?) reachable.2,
    idle_weight _ rfl]
  · simp [Queue.start, QueueState.start]
  · intro shared worker later next move
    cases move <;>
      simp only [marks, WorkerPhase.session?, QueueState.withPrepared,
        QueueState.withFinalized, QueueState.dropping, QueueState.listing,
        Option.toList_some, Option.toList_none, List.count_nil,
        List.count_append, List.count_cons, *] <;>
      omega

/-- A session is prepared at most once. -/
theorem preparedOk_count_le
    (reachable : Queue.Reachable sessions concurrency queue)
    (session : Nat) :
    queue.shared.preparedOk.count session ≤ 1 := by
  have bound :=
    Tasks.Reachable.bounded
      (fun shared : QueueState =>
        shared.queue.count session + shared.preparedOk.count session)
      (fun worker : WorkerPhase => marks session worker.unprepared?)
      reachable.2 (by
        intro shared worker later next move
        cases move <;>
          simp only [marks, WorkerPhase.unprepared?, QueueState.withPrepared,
            QueueState.withFinalized, QueueState.dropping,
            QueueState.listing, Option.toList_some, Option.toList_none,
            List.count_nil, List.count_cons, *] <;>
          omega)
  rw [idle_weight _ rfl] at bound
  have once : (List.range sessions).count session ≤ 1 :=
    List.nodup_iff_count.mp List.nodup_range session
  simp only [Queue.start, QueueState.start, List.count_nil] at bound
  omega

/-- What was prepared is finalized, or a worker still owes it. -/
theorem finalized_conserved
    (reachable : Queue.Reachable sessions concurrency queue)
    (session : Nat) :
    Tasks.weight (fun worker => (marks session worker.owed? : Int))
        queue.tasks +
        (queue.shared.finalized.count session -
          queue.shared.preparedOk.count session : Int) = 0 := by
  rw [Tasks.Reachable.conserved
    (fun shared : QueueState =>
      (shared.finalized.count session - shared.preparedOk.count session :
        Int))
    (fun worker : WorkerPhase => (marks session worker.owed? : Int))
    reachable.2, Tasks.weight_eq_zero]
  · simp [Queue.start, QueueState.start]
  · intro worker member
    rw [List.eq_of_mem_replicate member]
    rfl
  · intro shared worker later next move
    cases move <;>
      simp only [marks, WorkerPhase.owed?, QueueState.withPrepared,
        QueueState.withFinalized, QueueState.dropping, QueueState.listing,
        Option.toList_some, Option.toList_none, List.count_nil,
        List.count_cons] <;>
      omega

end Queue.Reachable

/-! ## Errors -/

/--
What is known of a worker: that a session without statistics had an error,
and why a worker has ended.
-/
def WorkerPhase.Explained (shared : QueueState) : WorkerPhase → Prop
  | .finalizing _ false .normal => shared.firstError = true
  | .appending _ false .normal => shared.firstError = true
  | .ended =>
      shared.queue = [] ∨ shared.firstError = true ∨ shared.raised = true
  | _ => True

/-- Sessions that are dropped or listed without statistics have an error. -/
structure QueueState.ErrorsKept (shared : QueueState) : Prop where
  dropped :
    shared.dropped ≠ [] → shared.firstError = true ∨ shared.raised = true
  unstated :
    shared.unstated ≠ [] → shared.firstError = true ∨ shared.raised = true
  stats :
    ∀ session,
      shared.taskStats.count session + shared.unstated.count session =
        shared.preparedSessions.count session

/-- An error stays known, and an empty queue stays empty. -/
structure QueueState.Later (shared later : QueueState) : Prop where
  firstError : shared.firstError = true → later.firstError = true
  raised : shared.raised = true → later.raised = true
  queue : shared.queue = [] → later.queue = []

theorem WorkerPhase.Explained.later {shared later : QueueState}
    (after : shared.Later later) {worker : WorkerPhase}
    (explained : worker.Explained shared) : worker.Explained later := by
  unfold WorkerPhase.Explained at explained ⊢
  split at explained
  · exact after.firstError explained
  · exact after.firstError explained
  · exact explained.imp after.queue (.imp after.firstError after.raised)
  · trivial

namespace WorkerMove

variable {shared after : QueueState} {worker next : WorkerPhase}

theorem later (move : WorkerMove shared worker after next) :
    shared.Later after := by
  cases move <;> constructor <;> intro held <;>
    simp_all [QueueState.withPrepared, QueueState.withFinalized,
      QueueState.dropping, QueueState.listing]

theorem explained (move : WorkerMove shared worker after next)
    (known : worker.Explained shared) : next.Explained after := by
  cases move with
  | queueEmpty empty => exact .inl empty
  | stopOnError failed => exact .inr (.inl failed)
  | @finalizes session hasStats exit =>
      cases hasStats <;> cases exit <;> exact known
  | _ =>
      simp [WorkerPhase.Explained, QueueState.withFinalized,
        QueueState.dropping]

theorem listing_stats (kept : shared.ErrorsKept)
    (session other : Nat) (hasStats : Bool) :
    (shared.listing session hasStats).taskStats.count other +
        (shared.listing session hasStats).unstated.count other =
      (shared.listing session hasStats).preparedSessions.count other := by
  have stats := kept.stats other
  cases hasStats <;>
    simp only [QueueState.listing, Bool.false_eq_true, if_false, if_true,
      List.count_append, List.count_cons, List.count_nil] <;>
    omega

/-- A session that is listed without statistics had an error. -/
theorem listing_errorsKept (kept : shared.ErrorsKept) {session : Nat}
    {hasStats : Bool}
    (error :
      hasStats = false → shared.firstError = true ∨ shared.raised = true) :
    (shared.listing session hasStats).ErrorsKept where
  dropped := kept.dropped
  unstated := by
    cases hasStats with
    | true => exact kept.unstated
    | false => exact fun _ => error rfl
  stats := fun other => listing_stats kept session other hasStats

theorem errorsKept (move : WorkerMove shared worker after next)
    (known : worker.Explained shared) (kept : shared.ErrorsKept) :
    after.ErrorsKept := by
  cases move with
  | failureRecorded => exact listing_errorsKept kept nofun
  | @appended session hasStats =>
      apply listing_errorsKept kept
      rintro rfl
      exact .inl known
  | @appendedCancelled session hasStats =>
      exact
        ⟨fun _ => .inr rfl, fun _ => .inr rfl,
          fun other => listing_stats kept session other hasStats⟩
  | errorRecorded => exact ⟨fun _ => .inl rfl, fun _ => .inl rfl, kept.stats⟩
  | errorRecordedUnprepared =>
      exact ⟨fun _ => .inl rfl, fun _ => .inl rfl, kept.stats⟩
  | cancelledAtStart =>
      exact ⟨fun _ => .inr rfl, fun _ => .inr rfl, kept.stats⟩
  | prepareCancelled | failureCancelled | errorCancelledUnprepared
  | finalizeFails | appendCancelled =>
      exact ⟨fun _ => .inr rfl, fun _ => .inr rfl, kept.stats⟩
  | _ => exact ⟨kept.dropped, kept.unstated, kept.stats⟩

end WorkerMove

namespace Queue.Reachable

variable {sessions concurrency : Nat} {queue : Queue}

theorem errorsKept
    (reachable : Queue.Reachable sessions concurrency queue) :
    queue.shared.ErrorsKept ∧
      ∀ worker ∈ queue.tasks, worker.Explained queue.shared := by
  refine Tasks.Reachable.forall_tasks QueueState.ErrorsKept
    WorkerPhase.Explained reachable.2 ?_ ?_ ?_
  · exact ⟨nofun, nofun, fun _ => rfl⟩
  · intro worker member
    rw [List.eq_of_mem_replicate member]
    trivial
  · intro shared worker after next kept known move
    exact
      ⟨move.errorsKept known kept, move.explained known,
        fun _ known => known.later move.later⟩

theorem ended_weight (ended : queue.Ended)
    {find : WorkerPhase → Option Nat} (none : find .ended = none)
    (session : Nat) :
    Tasks.weight (fun worker => marks session (find worker))
      queue.tasks = 0 := by
  apply Tasks.weight_eq_zero
  intro worker member
  rw [ended worker member, none]
  rfl

theorem active_le (reachable : Queue.Reachable sessions concurrency queue) :
    queue.active ≤ concurrency := by
  have length := Tasks.Reachable.tasks_length reachable.2
  simp only [Queue.start, List.length_replicate] at length
  have active : queue.active ≤ queue.tasks.length := List.countP_le_length
  omega

/-- A normal return leaves nothing in the queue. -/
theorem queue_eq_nil
    (reachable : Queue.Reachable sessions concurrency queue)
    (returns : queue.ReturnsNormally) : queue.shared.queue = [] := by
  obtain ⟨ended, noRaise, noError⟩ := returns
  cases tasks : queue.tasks with
  | nil =>
      -- no worker was started, as there was no session
      have length := Tasks.Reachable.tasks_length reachable.2
      have positive := reachable.1
      simp only [Queue.start, List.length_replicate, tasks,
        List.length_nil] at length
      have noSession : sessions = 0 := by omega
      refine
        Tasks.Reachable.invariant (fun queue => queue.shared.queue = [])
          reachable.2 ?_ ?_
      · rw [noSession]
        rfl
      · rintro _ _ empty ⟨move⟩
        exact move.later.queue empty
  | cons worker rest =>
      have member : worker ∈ queue.tasks := by simp [tasks]
      have known := reachable.errorsKept.2 worker member
      rw [ended worker member] at known
      simpa [WorkerPhase.Explained, noRaise, noError] using known

theorem finalized_once
    (reachable : Queue.Reachable sessions concurrency queue)
    (ended : queue.Ended) {session : Nat}
    (prepared : session ∈ queue.shared.preparedOk) :
    queue.shared.finalized.count session = 1 := by
  have conserved := reachable.finalized_conserved session
  have atMost := reachable.preparedOk_count_le session
  have atLeast := List.count_pos_iff.mpr prepared
  rw [Tasks.weight_eq_zero] at conserved
  · omega
  · intro worker member
    rw [ended worker member]
    rfl

/--
What is listed, and what has statistics, is what was loaded: every session
once.
-/
theorem listed_perm
    (reachable : Queue.Reachable sessions concurrency queue)
    (returns : queue.ReturnsNormally) :
    queue.shared.preparedSessions.Perm (List.range sessions) ∧
      queue.shared.taskStats.Perm (List.range sessions) := by
  have empty := reachable.queue_eq_nil returns
  obtain ⟨ended, noRaise, noError⟩ := returns
  have kept := reachable.errorsKept.1
  have dropped : queue.shared.dropped = [] := by
    by_contra some
    simpa [noRaise, noError] using kept.dropped some
  have unstated : queue.shared.unstated = [] := by
    by_contra some
    simpa [noRaise, noError] using kept.unstated some
  have listed : ∀ session,
      queue.shared.preparedSessions.count session =
        (List.range sessions).count session := by
    intro session
    have conserved := reachable.session_conserved session
    rw [ended_weight ended rfl] at conserved
    simpa [empty, dropped] using conserved
  refine ⟨List.perm_iff_count.mpr listed, List.perm_iff_count.mpr ?_⟩
  intro session
  rw [← listed session, ← kept.stats session, unstated]
  rfl

end Queue.Reachable

/--
The bounded queue.  Never more sessions are worked on than the bound allows,
after a normal return every session is listed once and has its statistics
once, and after any return what was prepared was finalized once.
-/
theorem queue_handles_each_once {sessions concurrency : Nat} {queue : Queue}
    (reachable : Queue.Reachable sessions concurrency queue) :
    queue.active ≤ concurrency ∧
      (queue.ReturnsNormally →
        queue.shared.preparedSessions.Perm (List.range sessions) ∧
          queue.shared.taskStats.Perm (List.range sessions)) ∧
      (queue.Ended →
        ∀ session ∈ queue.shared.preparedOk,
          queue.shared.finalized.count session = 1) :=
  ⟨reachable.active_le, reachable.listed_perm,
    fun ended _ => reachable.finalized_once ended⟩

/-- One session that one worker prepares, replays and finalizes. -/
theorem one_session_handled_once :
    ∃ queue : Queue,
      queue.ReturnsNormally ∧ queue.shared.preparedOk = [0] ∧
        queue.active ≤ 1 ∧
          (queue.ReturnsNormally →
            queue.shared.preparedSessions.Perm (List.range 1) ∧
              queue.shared.taskStats.Perm (List.range 1)) ∧
            (queue.Ended →
              ∀ session ∈ queue.shared.preparedOk,
                queue.shared.finalized.count session = 1) := by
  have step : ∀ {worker next : WorkerPhase} {shared after : QueueState},
      WorkerMove shared worker after next →
        Tasks.Reachable WorkerMove ⟨shared, [worker]⟩ ⟨after, [next]⟩ :=
    fun move => Tasks.Reachable.move [] [] move
  refine
    ⟨⟨_, [.ended]⟩, ?_, ?_,
      queue_handles_each_once ⟨Nat.le_refl 1,
        (step (.take rfl rfl)).trans ((step .prepared).trans
          ((step .replayed).trans ((step .finalizes).trans
            ((step .appended).trans (step (.queueEmpty rfl))))))⟩⟩
  · exact ⟨fun worker member => List.mem_singleton.mp member, rfl, rfl⟩
  · rfl

end AgentSchedBench.Replay
