import AgentSchedBench.Library.Outcomes
import Mathlib.Order.Nat

/-!
# A worker wave

`_run_worker_wave_async` prepares its sessions together, waits for the common
start, replays them and finalizes them in its `finally` block.

Whatever it calls may raise, and its task may be cancelled where it awaits.
What each call comes to is given by an environment, and the wave is a function
of it.  A session is identified by its position in `loaded_sessions`.
-/

namespace AgentSchedBench.Replay

open Outcomes

/-- An `Exception`, or a `BaseException` such as a cancellation. -/
inductive Raised where
  | exception
  | cancelled
deriving DecidableEq, Repr

/-! ## Preparation -/

/-- What the calls that prepare one session come to. -/
structure SessionPreparation where
  acquire : Option Raised
  prepare : Option Raised
  release : Option Raised
  recovery : Option Raised
deriving DecidableEq, Repr

/-- What `gather` collects for one session. -/
inductive PrepareResult where
  | prepared
  | failed
  | raised (failure : Raised)
deriving DecidableEq, Repr

namespace SessionPreparation

variable (session : SessionPreparation)

/-- `_prepare_replay_session` returns a prepared session. -/
def Succeeds : Prop :=
  session.acquire = none ∧ session.prepare = none

/-- `_prepare_replay_session_with_shared_limit` -/
def withSharedLimit : Option Raised :=
  match session.acquire with
  | some failure => some failure
  | none =>
      match session.release with
      | some failure => some failure
      | none => session.prepare

/-- `prepare_one` -/
def prepareOne : PrepareResult :=
  match session.withSharedLimit with
  | none => .prepared
  | some .cancelled => .raised .cancelled
  | some .exception =>
      -- `_prepared_session_for_prep_error` is called by the handler
      match session.recovery with
      | none => .failed
      | some failure => .raised failure

theorem prepareOne_eq_prepared {session : SessionPreparation}
    (succeeds : session.Succeeds) :
    session.prepareOne = .prepared ↔ session.release = none := by
  obtain ⟨acquired, prepared⟩ := succeeds
  rw [prepareOne, withSharedLimit, acquired, prepared]
  cases session.release with
  | none => simp
  | some failure => cases failure <;> cases session.recovery <;> simp

end SessionPreparation

/-! ## The wave -/

inductive TraceLogger where
  | missing
  | opened
  | closed
deriving DecidableEq, Repr

structure WaveState where
  preparedSessions : List Nat
  prepFailures : List Nat
  traceLogger : TraceLogger
  replayStarted : Bool
  startAborted : Bool
  finalized : List Nat
deriving DecidableEq, Repr

def WaveState.start : WaveState where
  preparedSessions := []
  prepFailures := []
  traceLogger := .missing
  replayStarted := false
  startAborted := false
  finalized := []

/-- What the calls of a wave come to, in the order of the source. -/
structure WaveEnvironment where
  load : Option Raised
  sessions : List SessionPreparation
  gather : Option Raised
  unlink : Option Raised
  openLogger : Option Raised
  metadata : Option Raised
  recordFailure : Nat → Option Raised
  waitForStart : Option Raised
  replayGather : Option Raised
  replay : Nat → Option Raised
  closeLogger : Option Raised
  finalize : Nat → Option Raised

abbrev WaveRun :=
  Except (Raised × WaveState) WaveState

/-- One of the `prep_results`. -/
def collectResult (state : WaveState) (entry : PrepareResult × Nat) :
    WaveRun :=
  match entry.1 with
  | .raised failure => .error (failure, state)
  | .failed =>
      .ok { state with prepFailures := state.prepFailures ++ [entry.2] }
  | .prepared =>
      .ok
        { state with
          preparedSessions := state.preparedSessions ++ [entry.2] }

namespace WaveEnvironment

variable (env : WaveEnvironment)

/-- `TraceLogger.close` -/
def closeTraceLogger (state : WaveState) : WaveRun :=
  match state.traceLogger with
  | .opened =>
      statement env.closeLogger { state with traceLogger := .closed }
  | _ => .ok state

/-- `_run_prepared_cloud_model_sessions` -/
def runPreparedSessions (state : WaveState) : WaveRun := do
  let state ← statement env.replayGather state
  statement
    ((state.preparedSessions.findSome? env.replay).map fun _ => .exception)
    state

/-- The part of the `try` block behind the collection of the results. -/
def replayWave (state : WaveState) : WaveRun := do
  let state ← statement env.unlink state
  let state ← statement env.openLogger state
  let state := { state with traceLogger := .opened }
  let state ← statement env.metadata state
  let state ←
    state.prepFailures.foldlM
      (fun state session => statement (env.recordFailure session) state)
      state
  let state ← statement env.waitForStart state
  let state := { state with replayStarted := true }
  let state ← env.runPreparedSessions state
  env.closeTraceLogger state

/-- The `try` block. -/
def tryBlock (state : WaveState) : WaveRun := do
  let state ← statement env.gather state
  let results := env.sessions.map SessionPreparation.prepareOne
  let state ← results.zipIdx.foldlM collectResult state
  env.replayWave state

/-- The handler, which raises again what it has caught. -/
def abortStart : WaveRun → WaveRun
  | .ok state => .ok state
  | .error (failure, state) =>
      if state.replayStarted then .error (failure, state)
      else .error (failure, { state with startAborted := true })

def finalizeSession (state : WaveState) (session : Nat) : WaveRun :=
  statement (env.finalize session)
    { state with finalized := state.finalized ++ [session] }

/-- The `finally` block. -/
def cleanup (state : WaveState) : WaveRun := do
  let state ← env.closeTraceLogger state
  state.preparedSessions.foldlM env.finalizeSession state

/-- `_run_worker_wave_async` -/
def runWorkerWave : WaveRun :=
  match env.load with
  | some failure => .error (failure, .start)
  | none => tryFinally env.cleanup (abortStart (env.tryBlock .start))

/-! ## What is lost -/

/-- The preparation of a session has succeeded. -/
def Prepared (session : Nat) : Prop :=
  env.load = none ∧
    ∃ preparation,
      env.sessions[session]? = some preparation ∧ preparation.Succeeds

/-- Every session that was prepared is finalized once. -/
def FinalizesOnce : Prop :=
  ∀ session, env.Prepared session →
    (finalState env.runWorkerWave).finalized.count session = 1

/--
The logger is opened, something raises before it is closed, and closing it
in the cleanup raises too.
-/
structure ClosesBadly : Prop where
  collected :
    ∀ preparation ∈ env.sessions, ∀ failure,
      preparation.prepareOne ≠ .raised failure
  unlink : env.unlink = none
  openLogger : env.openLogger = none
  stopped :
    env.metadata ≠ none ∨
      (∃ session preparation,
        env.sessions[session]? = some preparation ∧
          preparation.prepareOne = .failed ∧
          env.recordFailure session ≠ none) ∨
      env.waitForStart ≠ none ∨
      env.replayGather ≠ none ∨
      ∃ session preparation,
        env.sessions[session]? = some preparation ∧
          preparation.prepareOne = .prepared ∧
          env.replay session ≠ none
  closeLogger : env.closeLogger ≠ none

/-- Nothing makes the wave forget this session. -/
structure Keeps (session : Nat) : Prop where
  gather : env.gather = none
  release :
    ∀ preparation, env.sessions[session]? = some preparation →
      preparation.release = none
  earlier :
    ∀ other preparation, other < session →
      env.sessions[other]? = some preparation →
        (∀ failure, preparation.prepareOne ≠ .raised failure) ∧
          (preparation.prepareOne = .prepared → env.finalize other = none)
  closes : ¬ env.ClosesBadly

end WaveEnvironment

/-! ## The collection of the results -/

def PrepareResult.raised? : PrepareResult → Option Raised
  | .raised failure => some failure
  | _ => none

theorem PrepareResult.raised?_eq_none (result : PrepareResult) :
    result.raised? = none ↔ ∀ failure, result ≠ .raised failure := by
  cases result <;> simp [PrepareResult.raised?]

/-- The positions with a result. -/
def positions (wanted : PrepareResult)
    (entries : List (PrepareResult × Nat)) : List Nat :=
  entries.filterMap fun entry =>
    if entry.1 = wanted then some entry.2 else none

/-- The results that are collected before one raises. -/
def beforeRaise (entries : List (PrepareResult × Nat)) :
    List (PrepareResult × Nat) :=
  entries.takeWhile fun entry => entry.1.raised?.isNone

def WaveState.collecting
    (state : WaveState) (entries : List (PrepareResult × Nat)) :
    WaveState :=
  { state with
    preparedSessions :=
      state.preparedSessions ++ positions .prepared entries
    prepFailures := state.prepFailures ++ positions .failed entries }

theorem foldlM_collectResult
    (entries : List (PrepareResult × Nat)) (state : WaveState) :
    entries.foldlM collectResult state =
      statement (entries.findSome? fun entry => entry.1.raised?)
        (state.collecting (beforeRaise entries)) := by
  induction entries generalizing state with
  | nil => simp [WaveState.collecting, beforeRaise, positions]; rfl
  | cons entry rest induction =>
      obtain ⟨result, session⟩ := entry
      rw [List.foldlM_cons, List.findSome?_cons]
      cases result with
      | raised failure =>
          simp [collectResult, PrepareResult.raised?, beforeRaise,
            WaveState.collecting, positions]
          rfl
      | prepared =>
          show rest.foldlM collectResult _ = _
          rw [induction]
          simp [PrepareResult.raised?, beforeRaise, WaveState.collecting,
            positions]
      | failed =>
          show rest.foldlM collectResult _ = _
          rw [induction]
          simp [PrepareResult.raised?, beforeRaise, WaveState.collecting,
            positions]

theorem positions_cons
    (wanted : PrepareResult) (entry : PrepareResult × Nat)
    (rest : List (PrepareResult × Nat)) :
    positions wanted (entry :: rest) =
      if entry.1 = wanted then entry.2 :: positions wanted rest
      else positions wanted rest := by
  rw [positions, List.filterMap_cons]
  by_cases found : entry.1 = wanted <;> simp [found, positions]

theorem beforeRaise_cons
    (result : PrepareResult) (session : Nat)
    (rest : List (PrepareResult × Nat)) :
    beforeRaise ((result, session) :: rest) =
      if result.raised? = none then (result, session) :: beforeRaise rest
      else [] := by
  cases result <;> rfl

theorem positions_sublist
    (wanted : PrepareResult) (entries : List (PrepareResult × Nat)) :
    (positions wanted entries).Sublist (entries.map Prod.snd) := by
  induction entries with
  | nil => exact .slnil
  | cons entry rest induction =>
      rw [positions_cons, List.map_cons]
      split
      · exact induction.cons_cons entry.2
      · exact induction.cons entry.2

theorem positions_sorted
    (wanted : PrepareResult) (results : List PrepareResult) :
    (positions wanted (beforeRaise results.zipIdx)).Pairwise (· < ·) := by
  have inOrder : (results.zipIdx.map Prod.snd).Pairwise (· < ·) := by
    rw [List.zipIdx_map_snd]
    exact List.pairwise_lt_range'
  refine inOrder.sublist ?_
  refine (positions_sublist wanted _).trans ?_
  exact (List.takeWhile_sublist _).map Prod.snd

theorem mem_positions_from
    (wanted : PrepareResult) (results : List PrepareResult)
    (start session : Nat) :
    session ∈ positions wanted (beforeRaise (results.zipIdx start)) ↔
      ∃ index, session = start + index ∧
        results[index]? = some wanted ∧ wanted.raised? = none ∧
          ∀ other result, other < index →
            results[other]? = some result → result.raised? = none := by
  induction results generalizing start with
  | nil => simp [positions, beforeRaise]
  | cons first rest induction =>
      rw [List.zipIdx_cons, beforeRaise_cons]
      by_cases quiet : first.raised? = none
      · rw [if_pos quiet, positions_cons]
        constructor
        · intro found
          by_cases same : first = wanted ∧ session = start
          · obtain ⟨rfl, rfl⟩ := same
            exact ⟨0, by simp, by simp, quiet, by simp⟩
          · have later : session ∈
                positions wanted (beforeRaise (rest.zipIdx (start + 1))) := by
              grind
            obtain ⟨index, rfl, here, noRaise, before⟩ :=
              (induction (start + 1)).mp later
            refine ⟨index + 1, by omega, here, noRaise, ?_⟩
            intro other result lower found
            cases other with
            | zero => simp_all
            | succ other => exact before other result (by omega) found
        · rintro ⟨index, rfl, here, noRaise, before⟩
          cases index with
          | zero => simp_all
          | succ index =>
              have later : start + (index + 1) ∈
                  positions wanted
                    (beforeRaise (rest.zipIdx (start + 1))) := by
                refine (induction (start + 1)).mpr
                  ⟨index, by omega, here, noRaise, ?_⟩
                intro other result lower found
                exact before (other + 1) result (by omega) found
              split
              · exact List.mem_cons_of_mem start later
              · exact later
      · rw [if_neg quiet]
        constructor
        · nofun
        · rintro ⟨index, rfl, here, noRaise, before⟩
          cases index with
          | zero => simp_all
          | succ index => exact absurd (before 0 first (by simp) rfl) quiet

/-- The sessions that are collected with a result. -/
theorem mem_positions
    (wanted : PrepareResult) (results : List PrepareResult)
    (session : Nat) :
    session ∈ positions wanted (beforeRaise results.zipIdx) ↔
      results[session]? = some wanted ∧ wanted.raised? = none ∧
        ∀ other result, other < session →
          results[other]? = some result → result.raised? = none := by
  simp [mem_positions_from]

/-! ## What the wave leaves behind -/

namespace WaveEnvironment

variable (env : WaveEnvironment)

/-- Something raises between the opening of the logger and its closing. -/
def Stops (state : WaveState) : Prop :=
  env.metadata ≠ none ∨
    state.prepFailures.findSome? env.recordFailure ≠ none ∨
    env.waitForStart ≠ none ∨
    env.replayGather ≠ none ∨
    state.preparedSessions.findSome? env.replay ≠ none

theorem replayWave_lists (state : WaveState) :
    (finalState (env.replayWave state)).preparedSessions =
        state.preparedSessions ∧
      (finalState (env.replayWave state)).finalized = state.finalized := by
  simp only [replayWave, runPreparedSessions, foldlM_statement,
    bind_assoc, finalState_statement_bind, closeTraceLogger,
    finalState_statement]
  split_ifs <;> exact ⟨rfl, rfl⟩

theorem replayWave_logger (state : WaveState)
    (missing : state.traceLogger = .missing) :
    (finalState (env.replayWave state)).traceLogger = .opened ↔
      env.unlink = none ∧ env.openLogger = none ∧ env.Stops state := by
  simp only [replayWave, runPreparedSessions, foldlM_statement,
    bind_assoc, finalState_statement_bind, closeTraceLogger,
    finalState_statement, Stops]
  split_ifs <;> simp_all

theorem cleanup_finalized (state : WaveState) :
    (finalState (env.cleanup state)).finalized =
      if state.traceLogger = .opened ∧ env.closeLogger ≠ none then
        state.finalized
      else
        state.finalized ++
          reached (fun session => (env.finalize session).isSome)
            state.preparedSessions := by
  have loop : ∀ (sessions : List Nat) (state : WaveState),
      (finalState (sessions.foldlM env.finalizeSession state)).finalized =
        state.finalized ++
          reached (fun session => (env.finalize session).isSome)
            sessions := by
    intro sessions
    induction sessions with
    | nil => exact fun state => (List.append_nil _).symm
    | cons session rest induction =>
        intro state
        rw [List.foldlM_cons, finalizeSession, finalState_statement_bind,
          reached]
        cases env.finalize session with
        | none =>
            rw [if_pos rfl, induction]
            simp
        | some failure => rfl
  rw [cleanup, closeTraceLogger]
  cases state.traceLogger with
  | opened =>
      rw [finalState_statement_bind]
      by_cases closed : env.closeLogger = none
      · simp [closed, loop]
      · simp [closed]
  | _ =>
      simp only [Outcomes.bind_ok, loop, reduceCtorEq, false_and, if_false]

/-- The results of the sessions, with their positions. -/
def results : List PrepareResult :=
  env.sessions.map SessionPreparation.prepareOne

/-- The sessions that are known when the loop on the results ends. -/
def collected : List Nat :=
  positions .prepared (beforeRaise env.results.zipIdx)

theorem tryBlock_final (gathered : env.gather = none) :
    finalState (env.tryBlock .start) =
      if (env.results.zipIdx.findSome? fun entry => entry.1.raised?) = none
      then
        finalState
          (env.replayWave
            (WaveState.start.collecting (beforeRaise env.results.zipIdx)))
      else WaveState.start.collecting (beforeRaise env.results.zipIdx) := by
  rw [tryBlock, gathered]
  show finalState (env.results.zipIdx.foldlM collectResult .start >>= _) = _
  rw [foldlM_collectResult, finalState_statement_bind]

theorem tryBlock_cancelled {failure : Raised}
    (cancelled : env.gather = some failure) :
    finalState (env.tryBlock .start) = .start := by
  rw [tryBlock, cancelled]
  rfl

theorem tryBlock_lists (gathered : env.gather = none) :
    (finalState (env.tryBlock .start)).preparedSessions = env.collected ∧
      (finalState (env.tryBlock .start)).finalized = [] := by
  rw [env.tryBlock_final gathered]
  split
  · exact env.replayWave_lists _
  · exact ⟨rfl, rfl⟩

theorem findSome?_raised :
    (env.results.zipIdx.findSome? fun entry => entry.1.raised?) = none ↔
      ∀ preparation ∈ env.sessions, ∀ failure,
        preparation.prepareOne ≠ .raised failure := by
  have onResults :
      (env.results.zipIdx.findSome? fun entry => entry.1.raised?) = none ↔
        ∀ result ∈ env.results, result.raised? = none := by
    rw [List.findSome?_eq_none_iff]
    constructor
    · intro quiet result member
      obtain ⟨position, here⟩ := List.mem_iff_getElem?.mp member
      exact quiet (result, position) (List.mk_mem_zipIdx_iff_getElem?.mpr here)
    · intro quiet entry member
      exact quiet entry.1 (List.fst_mem_of_mem_zipIdx member)
  rw [onResults, results, List.forall_mem_map]
  simp only [PrepareResult.raised?_eq_none]

theorem getElem?_results (session : Nat) (result : PrepareResult) :
    env.results[session]? = some result ↔
      ∃ preparation, env.sessions[session]? = some preparation ∧
        preparation.prepareOne = result := by
  rw [results, List.getElem?_map, Option.map_eq_some_iff]

/-- The results before a session raise nothing. -/
def QuietBefore (session : Nat) : Prop :=
  ∀ other preparation, other < session →
    env.sessions[other]? = some preparation →
      ∀ failure, preparation.prepareOne ≠ .raised failure

theorem mem_positions_iff (wanted : PrepareResult)
    (noRaise : wanted.raised? = none) (session : Nat) :
    session ∈ positions wanted (beforeRaise env.results.zipIdx) ↔
      (∃ preparation, env.sessions[session]? = some preparation ∧
        preparation.prepareOne = wanted) ∧ env.QuietBefore session := by
  rw [mem_positions, env.getElem?_results]
  refine and_congr_right fun _ => ?_
  rw [and_iff_right noRaise]
  constructor
  · intro quiet other preparation lower found
    exact
      (PrepareResult.raised?_eq_none _).mp
        (quiet other _ lower
          ((env.getElem?_results other _).mpr ⟨preparation, found, rfl⟩))
  · intro quiet other result lower found
    obtain ⟨preparation, here, rfl⟩ :=
      (env.getElem?_results other result).mp found
    exact
      (PrepareResult.raised?_eq_none _).mpr
        (quiet other preparation lower here)

theorem mem_collected (session : Nat) :
    session ∈ env.collected ↔
      (∃ preparation, env.sessions[session]? = some preparation ∧
        preparation.prepareOne = .prepared) ∧ env.QuietBefore session :=
  env.mem_positions_iff .prepared rfl session

/-- A loop over positions finds no failure. -/
theorem findSome?_positions (wanted : PrepareResult)
    (noRaise : wanted.raised? = none)
    (quiet :
      ∀ preparation ∈ env.sessions, ∀ failure,
        preparation.prepareOne ≠ .raised failure)
    (outcome : Nat → Option Raised) :
    (positions wanted (beforeRaise env.results.zipIdx)).findSome? outcome ≠
        none ↔
      ∃ session preparation,
        env.sessions[session]? = some preparation ∧
          preparation.prepareOne = wanted ∧ outcome session ≠ none := by
  rw [Ne, List.findSome?_eq_none_iff]
  push Not
  constructor
  · rintro ⟨session, member, fails⟩
    obtain ⟨⟨preparation, found, result⟩, _⟩ :=
      (env.mem_positions_iff wanted noRaise session).mp member
    exact ⟨session, preparation, found, result, fails⟩
  · rintro ⟨session, preparation, found, result, fails⟩
    refine ⟨session, ?_, fails⟩
    refine
      (env.mem_positions_iff wanted noRaise session).mpr
        ⟨⟨preparation, found, result⟩, ?_⟩
    intro other before _ here
    exact quiet before (List.mem_of_getElem? here)

theorem tryBlock_logger (gathered : env.gather = none) :
    (finalState (env.tryBlock .start)).traceLogger = .opened ∧
        env.closeLogger ≠ none ↔
      env.ClosesBadly := by
  rw [env.tryBlock_final gathered]
  by_cases quiet :
      ∀ preparation ∈ env.sessions, ∀ failure,
        preparation.prepareOne ≠ .raised failure
  · rw [if_pos (env.findSome?_raised.mpr quiet),
      env.replayWave_logger _ rfl]
    have stops :
        env.Stops
            (WaveState.start.collecting (beforeRaise env.results.zipIdx)) ↔
          _ :=
      or_congr_right
        (or_congr (env.findSome?_positions .failed rfl quiet env.recordFailure)
          (or_congr_right
            (or_congr_right
              (env.findSome?_positions .prepared rfl quiet env.replay))))
    rw [stops]
    constructor
    · rintro ⟨⟨unlink, opened, stopped⟩, closing⟩
      exact ⟨quiet, unlink, opened, stopped, closing⟩
    · intro bad
      exact
        ⟨⟨bad.unlink, bad.openLogger, bad.stopped⟩, bad.closeLogger⟩
  · rw [if_neg (mt env.findSome?_raised.mp quiet)]
    constructor
    · rintro ⟨opened, _⟩
      cases opened
    · exact fun bad => absurd bad.collected quiet

/-- The handler leaves the sessions and the logger as they are. -/
theorem finalState_abortStart (run : WaveRun) :
    (finalState (abortStart run)).preparedSessions =
        (finalState run).preparedSessions ∧
      (finalState (abortStart run)).finalized = (finalState run).finalized ∧
      (finalState (abortStart run)).traceLogger =
        (finalState run).traceLogger := by
  rcases run with ⟨failure, state⟩ | state
  · rw [abortStart]
    split <;> exact ⟨rfl, rfl, rfl⟩
  · exact ⟨rfl, rfl, rfl⟩

theorem runWorkerWave_finalized (loaded : env.load = none) :
    (finalState env.runWorkerWave).finalized =
      (finalState
        (env.cleanup (finalState (env.tryBlock .start)))).finalized := by
  obtain ⟨prepared, finalized, logger⟩ :=
    finalState_abortStart (env.tryBlock .start)
  rw [runWorkerWave, loaded]
  simp only
  rw [finalState_tryFinally, cleanup_finalized, cleanup_finalized, prepared,
    finalized, logger]

/-- The sessions that are finalized. -/
theorem finalized_cases (loaded : env.load = none) :
    (env.gather = none ∧ ¬ env.ClosesBadly ∧
      (finalState env.runWorkerWave).finalized =
        reached (fun session => (env.finalize session).isSome)
          env.collected) ∨
      ((env.gather ≠ none ∨ env.ClosesBadly) ∧
        (finalState env.runWorkerWave).finalized = []) := by
  rw [env.runWorkerWave_finalized loaded, cleanup_finalized]
  cases gathered : env.gather with
  | some failure =>
      right
      rw [env.tryBlock_cancelled gathered]
      exact ⟨.inl (by simp), by simp [WaveState.start, reached]⟩
  | none =>
      obtain ⟨prepared, finalized⟩ := env.tryBlock_lists gathered
      rw [prepared, finalized]
      by_cases bad : env.ClosesBadly
      · rw [if_pos ((env.tryBlock_logger gathered).mpr bad)]
        exact .inr ⟨.inr bad, rfl⟩
      · rw [if_neg (mt (env.tryBlock_logger gathered).mp bad)]
        exact .inl ⟨rfl, bad, rfl⟩

theorem collected_sorted : env.collected.Pairwise (· < ·) :=
  positions_sorted _ _

/-- Which sessions are finalized. -/
theorem mem_finalized (loaded : env.load = none) (session : Nat) :
    session ∈ (finalState env.runWorkerWave).finalized ↔
      (env.gather = none ∧ ¬ env.ClosesBadly) ∧ session ∈ env.collected ∧
        ∀ other ∈ env.collected, other < session →
          env.finalize other = none := by
  rcases env.finalized_cases loaded with
    ⟨gathered, closes, finalized⟩ | ⟨lost, finalized⟩
  · rw [finalized, mem_reached _ env.collected_sorted]
    simp [gathered, closes]
  · rw [finalized]
    simp
    tauto

theorem finalized_nodup (loaded : env.load = none) :
    (finalState env.runWorkerWave).finalized.Nodup := by
  rcases env.finalized_cases loaded with
    ⟨_, _, finalized⟩ | ⟨_, finalized⟩
  · rw [finalized]
    exact (env.collected_sorted.imp ne_of_lt).sublist (reached_sublist _ _)
  · rw [finalized]
    exact List.nodup_nil

/-- A prepared session is finalized if and only if the wave keeps it. -/
theorem mem_finalized_iff_keeps {session : Nat}
    (prepared : env.Prepared session) :
    session ∈ (finalState env.runWorkerWave).finalized ↔
      env.Keeps session := by
  obtain ⟨loaded, preparation, found, succeeds⟩ := prepared
  rw [env.mem_finalized loaded, env.mem_collected]
  have release := SessionPreparation.prepareOne_eq_prepared succeeds
  constructor
  · rintro ⟨⟨gathered, closes⟩, ⟨⟨same, sameFound, result⟩, quiet⟩, finalizes⟩
    cases found.symm.trans sameFound
    refine ⟨gathered, ?_, ?_, closes⟩
    · intro other otherFound
      cases found.symm.trans otherFound
      exact release.mp result
    · intro other otherPreparation lower otherFound
      refine ⟨quiet other otherPreparation lower otherFound, ?_⟩
      intro otherResult
      apply finalizes other _ lower
      refine
        (env.mem_collected other).mpr
          ⟨⟨otherPreparation, otherFound, otherResult⟩, ?_⟩
      exact fun before next earlier => quiet before next (earlier.trans lower)
  · rintro ⟨gathered, released, earlier, closes⟩
    refine
      ⟨⟨gathered, closes⟩,
        ⟨⟨preparation, found, release.mpr (released preparation found)⟩, ?_⟩,
        ?_⟩
    · intro other otherPreparation lower otherFound
      exact (earlier other otherPreparation lower otherFound).1
    · intro other member lower
      obtain ⟨⟨otherPreparation, otherFound, otherResult⟩, _⟩ :=
        (env.mem_collected other).mp member
      exact (earlier other otherPreparation lower otherFound).2 otherResult

/--
Every session that was prepared is finalized once if and only if nothing
makes the wave forget one of them.
-/
theorem finalizesOnce_iff :
    env.FinalizesOnce ↔
      ∀ session, env.Prepared session → env.Keeps session := by
  refine forall_congr' fun session => forall_congr' fun prepared => ?_
  rw [← env.mem_finalized_iff_keeps prepared,
    (env.finalized_nodup prepared.1).count]
  simp

/--
The output directory of the first session cannot be made, neither when it is
prepared nor by the handler, and the second session is prepared.
-/
def outputBlocked : WaveEnvironment where
  load := none
  sessions :=
    [⟨none, some .exception, none, some .exception⟩,
      ⟨none, none, none, none⟩]
  gather := none
  unlink := none
  openLogger := none
  metadata := none
  recordFailure := fun _ => none
  waitForStart := none
  replayGather := none
  replay := fun _ => none
  closeLogger := none
  finalize := fun _ => none

/-- The second session is not finalized. -/
theorem outputBlocked_not_finalized : ¬ outputBlocked.FinalizesOnce := by
  intro finalizes
  have once := finalizes 1 ⟨rfl, _, rfl, rfl, rfl⟩
  exact absurd once (by decide)

end WaveEnvironment

end AgentSchedBench.Replay
