import AgentSchedBench.Library.Slices
import AgentSchedBench.Library.StableSort
import AgentSchedBench.Replay.WorkerWave
import Mathlib

/-!
# Worker waves

The replay tasks of a manifest are split into waves, and each wave into one
chunk for each worker.  The workers replay their chunks, and the statistics
that they return are put together and sorted.

A worker is the run of a worker wave on its chunk; what its calls come to is
given by its environment.
-/

namespace AgentSchedBench.Replay

open Outcomes Slices StableSort

/-! ## Tasks and statistics -/

structure WorkerTraceInput where
  sourceTrace : String
  taskSource : String
  manifestIndex : Nat
  dockerImageOverride : Option String
  label : Option String
  runInstanceId : String
  sandboxBackend : String
  checkpointBackend : String
deriving DecidableEq, Repr

/-- What the statistics tell of a loaded session. -/
structure LoadedTraceSession where
  input : WorkerTraceInput
  sourceAgentId : String
  actionTypes : List (Option String)
deriving DecidableEq, Repr

structure ReplayTaskStats where
  agentId : String
  runInstanceId : String
  sourceAgentId : String
  manifestIndex : Nat
  label : Option String
  sourceTrace : String
  success : Bool
  actionCount : Nat
  llmCallCount : Nat
  toolExecCount : Nat
  failedActionCount : Nat
  replayEnvParity : String
  prepError : Option String
deriving DecidableEq, Repr

/-- What `_replay_cloud_model_session` tells of a replay. -/
structure ReplayOutcome where
  success : Bool
  failedActionCount : Nat
  replayEnvParity : String
deriving DecidableEq, Repr

/-- `_make_task_stats` -/
def makeTaskStats (loaded : LoadedTraceSession) (outcome : ReplayOutcome)
    (prepError : Option String) : ReplayTaskStats where
  agentId := loaded.input.runInstanceId
  runInstanceId := loaded.input.runInstanceId
  sourceAgentId := loaded.sourceAgentId
  manifestIndex := loaded.input.manifestIndex
  label := loaded.input.label
  sourceTrace := loaded.input.sourceTrace
  success := outcome.success
  actionCount := loaded.actionTypes.length
  llmCallCount := loaded.actionTypes.count (some "llm_call")
  toolExecCount := loaded.actionTypes.count (some "tool_exec")
  failedActionCount := outcome.failedActionCount
  replayEnvParity := outcome.replayEnvParity
  prepError := prepError

/-- What a task and its statistics have in common. -/
structure TaskIdentity where
  manifestIndex : Nat
  runInstanceId : String
  label : Option String
  sourceTrace : String
deriving DecidableEq, Repr

def WorkerTraceInput.identity (input : WorkerTraceInput) : TaskIdentity :=
  ⟨input.manifestIndex, input.runInstanceId, input.label, input.sourceTrace⟩

def ReplayTaskStats.identity (stats : ReplayTaskStats) : TaskIdentity :=
  ⟨stats.manifestIndex, stats.runInstanceId, stats.label, stats.sourceTrace⟩

/-! ## The splits -/

inductive WavesError where
  | value (message : String)
  | worker
deriving DecidableEq, Repr

def defaultPrepConcurrency : Int := 20

/-- `_resolve_prep_concurrency` -/
def resolvePrepConcurrency (requested : Int) (numSessions : Nat) :
    Except WavesError Int :=
  if requested < 0 then .error (.value "prep_concurrency must be >= 0")
  else if numSessions < 1 then .error (.value "num_sessions must be >= 1")
  else
    .ok
      (min (if requested = 0 then defaultPrepConcurrency else requested)
        numSessions)

/-- `_partition_worker_inputs` -/
def partitionWorkerInputs (inputs : List WorkerTraceInput) (workers : Int) :
    Except WavesError (List (List WorkerTraceInput)) :=
  if workers < 1 then .error (.value "workers must be >= 1")
  else if inputs = [] then .error (.value "inputs must not be empty")
  else
    let partitionCount := min workers.toNat inputs.length
    let chunkSize := inputs.length / partitionCount
    let remainder := inputs.length % partitionCount
    .ok
      ((List.range partitionCount).foldl
        (fun (state : List (List WorkerTraceInput) × Nat) workerIndex =>
          let size := chunkSize + if workerIndex < remainder then 1 else 0
          let stop := state.2 + size
          (state.1 ++ [slice inputs state.2 stop], stop))
        ([], 0)).1

/-- `_chunk_worker_inputs_by_concurrency` -/
def chunkWorkerInputsByConcurrency
    (inputs : List WorkerTraceInput) (concurrency : Int) :
    Except WavesError (List (List WorkerTraceInput)) :=
  if concurrency < 1 then .error (.value "concurrency must be >= 1")
  else
    let step := concurrency.toNat
    .ok
      ((List.range ((inputs.length + step - 1) / step)).map fun turn =>
        slice inputs (turn * step) (turn * step + step))

/-- The chunks of each wave. -/
def plannedChunks
    (inputs : List WorkerTraceInput) (concurrency workers : Int) :
    Except WavesError (List (List (List WorkerTraceInput))) := do
  let waves ← chunkWorkerInputsByConcurrency inputs concurrency
  waves.mapM fun wave => partitionWorkerInputs wave workers

/-! ## The workers -/

/-- What the calls of a worker come to that has a chunk. -/
structure WorkerEnvironment (inputs : List WorkerTraceInput) where
  wave : WaveEnvironment
  complete : wave.sessions.length = inputs.length
  sourceAgentId : Nat → String
  actionTypes : Nat → List (Option String)
  prepError : Nat → String
  outcome : Nat → ReplayOutcome

structure WorkerReplayResult where
  waveIndex : Nat
  workerIndex : Nat
  taskStats : List ReplayTaskStats
deriving DecidableEq, Repr

namespace WorkerEnvironment

variable {inputs : List WorkerTraceInput} (env : WorkerEnvironment inputs)

/-- `_load_worker_trace_inputs` -/
def loadedSession (session : Nat) : Option LoadedTraceSession :=
  inputs[session]?.map fun input =>
    ⟨input, env.sourceAgentId session, env.actionTypes session⟩

/-- `_record_prep_failure` -/
def recordPrepFailure (session : Nat) : Option ReplayTaskStats :=
  (env.loadedSession session).map fun loaded =>
    makeTaskStats loaded ⟨false, 0, "default_env"⟩
      (some (env.prepError session))

/-- What `_replay_cloud_model_session` returns. -/
def replaySession (session : Nat) : Option ReplayTaskStats :=
  (env.loadedSession session).map fun loaded =>
    makeTaskStats loaded (env.outcome session) none

/-- The statistics that `_run_worker_wave_async` returns. -/
def taskStats (state : WaveState) : List ReplayTaskStats :=
  sortBy ReplayTaskStats.manifestIndex
    (state.prepFailures.filterMap env.recordPrepFailure ++
      state.preparedSessions.filterMap env.replaySession)

/-- `_run_worker_wave_sync` -/
def runWorkerWaveSync (waveIndex workerIndex : Nat) :
    Except WavesError WorkerReplayResult :=
  match env.wave.runWorkerWave with
  | .ok state => .ok ⟨waveIndex, workerIndex, env.taskStats state⟩
  | .error _ => .error .worker

end WorkerEnvironment

/-- The environments of the workers, by wave and position in it. -/
abbrev WavesEnvironment :=
  Nat → Nat → (chunk : List WorkerTraceInput) → WorkerEnvironment chunk

/-- The body of the loop on the waves. -/
def runWave (env : WavesEnvironment) (workers : Int)
    (state : List WorkerReplayResult × List ReplayTaskStats)
    (entry : List WorkerTraceInput × Nat) :
    Except WavesError (List WorkerReplayResult × List ReplayTaskStats) := do
  let chunks ← partitionWorkerInputs entry.1 workers
  let waveResults ←
    chunks.zipIdx.mapM fun chunk =>
      (env entry.2 chunk.2 chunk.1).runWorkerWaveSync entry.2 chunk.2
  let inOrder := sortBy WorkerReplayResult.workerIndex waveResults
  return (state.1 ++ inOrder,
    state.2 ++ inOrder.flatMap WorkerReplayResult.taskStats)

/-- `_run_cloud_model_worker_waves` -/
def runCloudModelWorkerWaves (env : WavesEnvironment)
    (inputs : List WorkerTraceInput)
    (concurrency workers prepConcurrency : Int) :
    Except WavesError (List WorkerReplayResult × List ReplayTaskStats) := do
  if workers < 1 then throw (.value "workers must be >= 1")
  if concurrency < 1 then throw (.value "concurrency must be >= 1")
  let _ ← resolvePrepConcurrency prepConcurrency inputs.length
  let waves ← chunkWorkerInputsByConcurrency inputs concurrency
  let (results, stats) ← waves.zipIdx.foldlM (runWave env workers) ([], [])
  return (sortBy
      (fun result => toLex (result.waveIndex, result.workerIndex)) results,
    sortBy ReplayTaskStats.manifestIndex stats)

/-! ## The splits are exact -/

/-- What is wanted of the waves and their chunks. -/
structure Partitions (inputs : List WorkerTraceInput) (concurrency : Int)
    (waves : List (List (List WorkerTraceInput))) : Prop where
  complete : waves.flatten.flatten = inputs
  nonempty : ∀ wave ∈ waves, ∀ chunk ∈ wave, chunk ≠ []
  even :
    ∀ wave ∈ waves, ∀ chunk ∈ wave, ∀ other ∈ wave,
      chunk.length ≤ other.length + 1
  bounded : ∀ wave ∈ waves, (wave.flatten.length : Int) ≤ concurrency

/-- The first chunks are longer by one, as many as the remainder says. -/
theorem sum_chunkSizes (chunkSize remainder count : Nat) :
    ((List.range count).map fun workerIndex =>
        chunkSize + if workerIndex < remainder then 1 else 0).sum =
      count * chunkSize + min count remainder := by
  induction count with
  | zero => simp
  | succ count induction =>
      rw [List.range_succ, List.map_append, List.sum_append, induction,
        List.map_singleton, List.sum_singleton, Nat.succ_mul]
      split <;> omega

section Partition

variable {inputs : List WorkerTraceInput} {workers : Int}

theorem partitionWorkerInputs_eq
    (positive : 1 ≤ workers) (nonempty : inputs ≠ []) :
    partitionWorkerInputs inputs workers =
      .ok
        (slices inputs
          (fun index =>
            index * (inputs.length / min workers.toNat inputs.length) +
              min index (inputs.length % min workers.toNat inputs.length))
          (min workers.toNat inputs.length)) := by
  rw [partitionWorkerInputs, if_neg (by omega), if_neg nonempty]
  dsimp only
  rw [foldl_slices]
  simp only [sum_chunkSizes]

/-- A wave in chunks: nothing is lost, and all chunks are of like size. -/
theorem partitionWorkerInputs_chunks {chunks : List (List WorkerTraceInput)}
    (partitioned : partitionWorkerInputs inputs workers = .ok chunks) :
    chunks.flatten = inputs ∧ (∀ chunk ∈ chunks, chunk ≠ []) ∧
      ∀ chunk ∈ chunks, ∀ other ∈ chunks,
        chunk.length ≤ other.length + 1 := by
  have positive : 1 ≤ workers := by
    by_contra few
    rw [partitionWorkerInputs, if_pos (by omega)] at partitioned
    cases partitioned
  have nonempty : inputs ≠ [] := by
    rintro rfl
    rw [partitionWorkerInputs, if_neg (by omega), if_pos rfl] at partitioned
    cases partitioned
  rw [partitionWorkerInputs_eq positive nonempty] at partitioned
  cases partitioned
  have some := List.length_pos_iff.mpr nonempty
  generalize countIs : min workers.toNat inputs.length = count
  have counted : 0 < count := by omega
  have few : count ≤ inputs.length := by omega
  have divided := Nat.div_add_mod inputs.length count
  have remains := Nat.mod_lt inputs.length counted
  have each : 0 < inputs.length / count := Nat.div_pos few counted
  generalize inputs.length / count = chunkSize at divided each
  generalize inputs.length % count = remainder at divided remains
  have cuts (index : Nat) (inside : index < count) :
      index * chunkSize + min index remainder <
          (index + 1) * chunkSize + min (index + 1) remainder ∧
        (index + 1) * chunkSize + min (index + 1) remainder ≤
          inputs.length := by
    have whole : (index + 1) * chunkSize ≤ count * chunkSize :=
      Nat.mul_le_mul_right chunkSize inside
    rw [Nat.succ_mul] at whole ⊢
    omega
  refine ⟨?_, ?_, ?_⟩
  · rw [flatten_slices]
    · apply List.take_of_length_le
      omega
    · simp
    · intro index
      rw [Nat.succ_mul]
      omega
  · intro chunk member
    obtain ⟨index, inside, rfl⟩ := mem_slices.mp member
    have ⟨room, stop⟩ := cuts index inside
    exact slice_ne_nil room (room.trans_le stop)
  · intro chunk member other otherMember
    obtain ⟨index, inside, rfl⟩ := mem_slices.mp member
    obtain ⟨place, otherInside, rfl⟩ := mem_slices.mp otherMember
    rw [length_slice (cuts index inside).2,
      length_slice (cuts place otherInside).2, Nat.succ_mul, Nat.succ_mul]
    omega

theorem partitionWorkerInputs_ok
    (positive : 1 ≤ workers) (nonempty : inputs ≠ []) :
    ∃ chunks, partitionWorkerInputs inputs workers = .ok chunks :=
  ⟨_, partitionWorkerInputs_eq positive nonempty⟩

end Partition

section Chunk

variable {inputs : List WorkerTraceInput} {concurrency : Int}

/-- The waves hold all inputs in order, and no more each than the bound. -/
theorem chunkWorkerInputsByConcurrency_waves
    {waves : List (List WorkerTraceInput)}
    (chunked :
      chunkWorkerInputsByConcurrency inputs concurrency = .ok waves) :
    waves.flatten = inputs ∧ (∀ wave ∈ waves, wave ≠ []) ∧
      ∀ wave ∈ waves, (wave.length : Int) ≤ concurrency := by
  rw [chunkWorkerInputsByConcurrency] at chunked
  split at chunked
  · cases chunked
  · next enough =>
    cases chunked
    generalize stepIs : concurrency.toNat = step
    have positive : 0 < step := by omega
    have wavesAre :
        ((List.range ((inputs.length + step - 1) / step)).map fun turn =>
            slice inputs (turn * step) (turn * step + step)) =
          slices inputs (· * step) ((inputs.length + step - 1) / step) := by
      rw [slices]
      simp only [Nat.succ_mul]
    have turns := Nat.div_add_mod (inputs.length + step - 1) step
    have rest := Nat.mod_lt (inputs.length + step - 1) positive
    rw [wavesAre]
    generalize (inputs.length + step - 1) / step = count at turns
    rw [Nat.mul_comm] at turns
    refine ⟨?_, ?_, ?_⟩
    · rw [flatten_slices inputs (Nat.zero_mul step)]
      · apply List.take_of_length_le
        omega
      · intro turn
        exact Nat.mul_le_mul_right step turn.le_succ
    · intro wave member
      obtain ⟨turn, inside, rfl⟩ := mem_slices.mp member
      have before : (turn + 1) * step ≤ count * step :=
        Nat.mul_le_mul_right step inside
      rw [Nat.succ_mul] at before ⊢
      exact slice_ne_nil (by omega) (by omega)
    · intro wave member
      obtain ⟨turn, inside, rfl⟩ := mem_slices.mp member
      have short :=
        length_slice_le inputs (turn * step) ((turn + 1) * step)
      rw [Nat.succ_mul, Nat.add_sub_cancel_left] at short
      rw [Nat.succ_mul]
      omega

end Chunk

/-- All waves are in chunks. -/
theorem plannedChunks_partitions {inputs : List WorkerTraceInput}
    {concurrency workers : Int}
    {waves : List (List (List WorkerTraceInput))}
    (planned : plannedChunks inputs concurrency workers = .ok waves) :
    Partitions inputs concurrency waves := by
  obtain ⟨whole, chunked, split⟩ := Loops.bind_eq_ok.mp planned
  obtain ⟨complete, -, bounded⟩ :=
    chunkWorkerInputsByConcurrency_waves chunked
  have each := (Loops.mapM_eq_ok _ _ _).mp split
  have flat : waves.map List.flatten = whole := by
    clear planned chunked split complete bounded
    induction each with
    | nil => rfl
    | cons partitioned _ induction =>
        rw [List.map_cons, (partitionWorkerInputs_chunks partitioned).1,
          induction]
  have source {wave : List (List WorkerTraceInput)} (member : wave ∈ waves) :
      ∃ inputs ∈ whole, partitionWorkerInputs inputs workers = .ok wave := by
    clear planned chunked split complete bounded flat
    induction each with
    | nil => cases member
    | cons partitioned _ induction =>
        rcases List.mem_cons.mp member with rfl | later
        · exact ⟨_, List.mem_cons_self, partitioned⟩
        · obtain ⟨inputs, inside, partitioned⟩ := induction later
          exact ⟨inputs, List.mem_cons_of_mem _ inside, partitioned⟩
  refine ⟨?_, ?_, ?_, ?_⟩
  · rw [← complete, ← flat, List.flatten_flatten]
  · intro wave member
    obtain ⟨inputs, -, partitioned⟩ := source member
    exact (partitionWorkerInputs_chunks partitioned).2.1
  · intro wave member
    obtain ⟨inputs, -, partitioned⟩ := source member
    exact (partitionWorkerInputs_chunks partitioned).2.2
  · intro wave member
    obtain ⟨inputs, inputMember, partitioned⟩ := source member
    rw [(partitionWorkerInputs_chunks partitioned).1]
    exact bounded inputs inputMember

/-- Bounds that are positive give a plan. -/
theorem plannedChunks_ok (inputs : List WorkerTraceInput)
    {concurrency workers : Int}
    (room : 1 ≤ concurrency) (positive : 1 ≤ workers) :
    ∃ waves, plannedChunks inputs concurrency workers = .ok waves := by
  have chunked :
      ∃ waves, chunkWorkerInputsByConcurrency inputs concurrency = .ok waves :=
    ⟨_, if_neg (by omega)⟩
  obtain ⟨whole, chunked⟩ := chunked
  have nonempty := (chunkWorkerInputsByConcurrency_waves chunked).2.1
  have split :
      ∃ waves,
        (whole.mapM fun wave => partitionWorkerInputs wave workers) =
          .ok waves := by
    clear chunked
    induction whole with
    | nil => exact ⟨[], rfl⟩
    | cons wave rest induction =>
        rw [List.forall_mem_cons] at nonempty
        obtain ⟨chunks, partitioned⟩ :=
          partitionWorkerInputs_ok positive nonempty.1
        obtain ⟨later, restSplit⟩ := induction nonempty.2
        refine ⟨chunks :: later, ?_⟩
        rw [Loops.mapM_eq_ok] at restSplit ⊢
        exact .cons partitioned restSplit
  obtain ⟨waves, split⟩ := split
  exact ⟨waves, Loops.bind_eq_ok.mpr ⟨whole, chunked, split⟩⟩

/-! ## What a worker returns -/

theorem positions_perm (entries : List (PrepareResult × Nat))
    (quiet : ∀ entry ∈ entries, entry.1.raised? = none) :
    (positions .failed entries ++ positions .prepared entries).Perm
      (entries.map Prod.snd) := by
  induction entries with
  | nil => exact .nil
  | cons entry rest induction =>
      rw [List.forall_mem_cons] at quiet
      obtain ⟨result, session⟩ := entry
      rw [positions_cons, positions_cons, List.map_cons]
      cases result with
      | failed => exact (induction quiet.2).cons session
      | prepared =>
          exact List.perm_middle.trans ((induction quiet.2).cons session)
      | raised failure => cases quiet.1

namespace WaveEnvironment

variable (env : WaveEnvironment)

/-- Each session of the wave is in one of its two lists. -/
def Collects (state : WaveState) : Prop :=
  (state.prepFailures ++ state.preparedSessions).Perm
    (List.range env.sessions.length)

theorem replayWave_prepFailures (state : WaveState) :
    (finalState (env.replayWave state)).prepFailures =
      state.prepFailures := by
  simp only [replayWave, runPreparedSessions, foldlM_statement,
    bind_assoc, finalState_statement_bind, closeTraceLogger,
    finalState_statement]
  split_ifs <;> rfl

theorem replayWave_collects {state : WaveState}
    (collects : env.Collects state) :
    Ends (fun _ => True) env.Collects (env.replayWave state) := by
  have kept : env.Collects (finalState (env.replayWave state)) := by
    rw [Collects, env.replayWave_prepFailures,
      (env.replayWave_lists state).1]
    exact collects
  exact
    ((ends_finalState _ _).mpr kept).mono (fun _ _ => trivial)
      fun _ holds => holds

theorem tryBlock_collects :
    Ends (fun _ => True) env.Collects (env.tryBlock .start) := by
  rw [tryBlock]
  cases env.gather with
  | some failure => trivial
  | none =>
      show Ends _ _
        (env.results.zipIdx.foldlM collectResult .start >>= env.replayWave)
      rw [foldlM_collectResult]
      cases raised :
          env.results.zipIdx.findSome? fun entry => entry.1.raised? with
      | some failure => trivial
      | none =>
          have quiet := List.findSome?_eq_none_iff.mp raised
          have whole : beforeRaise env.results.zipIdx = env.results.zipIdx :=
            List.takeWhile_eq_self_iff.mpr fun entry member => by
              rw [quiet entry member]
              rfl
          apply env.replayWave_collects
          rw [whole, Collects]
          have collected := positions_perm _ quiet
          rw [List.zipIdx_map_snd, ← List.range_eq_range', results,
            List.length_map] at collected
          exact collected

theorem cleanup_collects {state : WaveState}
    (collects : env.Collects state) :
    Ends (fun _ => True) env.Collects (env.cleanup state) := by
  have finalizes (state : WaveState) (collects : env.Collects state) :
      Ends (fun _ => True) env.Collects
        (state.preparedSessions.foldlM env.finalizeSession state) := by
    apply ends_foldlM _ _ collects
    intro session _ state collects
    rw [finalizeSession]
    cases env.finalize session with
    | none => exact collects
    | some failure => trivial
  rw [cleanup, closeTraceLogger]
  cases state.traceLogger with
  | opened =>
      cases env.closeLogger with
      | none => exact finalizes { state with traceLogger := .closed } collects
      | some failure => trivial
  | _ => exact finalizes state collects

/-- A wave that returns has collected all of its sessions. -/
theorem runWorkerWave_collects :
    Ends (fun _ => True) env.Collects env.runWorkerWave := by
  rw [runWorkerWave]
  cases env.load with
  | some failure => trivial
  | none =>
      refine ends_tryFinally ?_ fun state => env.cleanup_collects
      have ends := env.tryBlock_collects
      rcases ran : env.tryBlock .start with ⟨failure, state⟩ | state
      · rw [abortStart]
        split <;> trivial
      · rw [ran] at ends
        exact ends

end WaveEnvironment

theorem filterMap_range_getElem? {α β : Type} (items : List α) (f : α → β) :
    ((List.range items.length).filterMap fun index =>
        items[index]?.map f) = items.map f := by
  induction items with
  | nil => rfl
  | cons item rest induction =>
      rw [List.length_cons, List.range_succ_eq_map, List.filterMap_cons,
        List.filterMap_map, List.map_cons, ← induction]
      rfl

theorem map_identity_filterMap {inputs : List WorkerTraceInput} (sessions : List Nat)
    (record : Nat → Option ReplayTaskStats)
    (records :
      ∀ session,
        (record session).map ReplayTaskStats.identity =
          inputs[session]?.map WorkerTraceInput.identity) :
    (sessions.filterMap record).map ReplayTaskStats.identity =
      sessions.filterMap fun session =>
        inputs[session]?.map WorkerTraceInput.identity := by
  rw [List.map_filterMap]
  exact List.filterMap_congr fun session _ => records session

namespace WorkerEnvironment

variable {inputs : List WorkerTraceInput} (env : WorkerEnvironment inputs)

/-- A worker has one entry for each task of its chunk. -/
theorem runWorkerWaveSync_perm {waveIndex workerIndex : Nat}
    {result : WorkerReplayResult}
    (returned : env.runWorkerWaveSync waveIndex workerIndex = .ok result) :
    (result.taskStats.map ReplayTaskStats.identity).Perm
      (inputs.map WorkerTraceInput.identity) := by
  have collects := env.wave.runWorkerWave_collects
  rw [runWorkerWaveSync] at returned
  rcases ran : env.wave.runWorkerWave with failure | state
  · rw [ran] at returned
    cases returned
  · rw [ran] at returned collects
    cases returned
    have complete : env.wave.Collects state := collects
    rw [WaveEnvironment.Collects, env.complete] at complete
    refine ((sortBy_perm _ _).map _).trans ?_
    rw [List.map_append, map_identity_filterMap _ env.recordPrepFailure,
      map_identity_filterMap _ env.replaySession,
      ← List.filterMap_append, ← filterMap_range_getElem? inputs]
    · exact complete.filterMap _
    · intro session
      rw [replaySession, loadedSession, Option.map_map, Option.map_map]
      rfl
    · intro session
      rw [recordPrepFailure, loadedSession, Option.map_map, Option.map_map]
      rfl

end WorkerEnvironment

/-! ## The merged statistics -/

/-- One entry for each task, in the order of the manifest. -/
structure ListsEachTask (inputs : List WorkerTraceInput)
    (stats : List ReplayTaskStats) : Prop where
  each :
    (stats.map ReplayTaskStats.identity).Perm
      (inputs.map WorkerTraceInput.identity)
  sorted :
    stats.Pairwise fun left right => left.manifestIndex ≤ right.manifestIndex

/-- The tasks of a manifest are numbered, and their statistics follow. -/
theorem ListsEachTask.inOrder {inputs : List WorkerTraceInput}
    {stats : List ReplayTaskStats} (lists : ListsEachTask inputs stats)
    (numbered :
      inputs.Pairwise fun left right =>
        left.manifestIndex < right.manifestIndex) :
    stats.map ReplayTaskStats.identity =
      inputs.map WorkerTraceInput.identity := by
  have increasing :
      (inputs.map WorkerTraceInput.identity).Pairwise fun left right =>
        left.manifestIndex < right.manifestIndex :=
    List.pairwise_map.mpr numbered
  have sorted :
      (stats.map ReplayTaskStats.identity).Pairwise fun left right =>
        left.manifestIndex ≤ right.manifestIndex :=
    List.pairwise_map.mpr lists.sorted
  refine lists.each.eq_of_pairwise ?_ sorted (increasing.imp Nat.le_of_lt)
  have distinct :
      ((inputs.map WorkerTraceInput.identity).map
        TaskIdentity.manifestIndex).Nodup :=
    List.pairwise_map.mpr (increasing.imp Nat.ne_of_lt)
  intro left right member otherMember lower upper
  exact
    List.inj_on_of_nodup_map distinct (lists.each.mem_iff.mp member)
      otherMember (Nat.le_antisymm lower upper)

variable (env : WavesEnvironment)

theorem waveResults_perm {waveIndex : Nat}
    {chunks : List (List WorkerTraceInput)} {start : Nat}
    {waveResults : List WorkerReplayResult}
    (each :
      List.Forall₂
        (fun (chunk : List WorkerTraceInput × Nat) result =>
          (env waveIndex chunk.2 chunk.1).runWorkerWaveSync
            waveIndex chunk.2 = .ok result)
        (chunks.zipIdx start) waveResults) :
    ((waveResults.flatMap WorkerReplayResult.taskStats).map
        ReplayTaskStats.identity).Perm
      (chunks.flatten.map WorkerTraceInput.identity) := by
  induction chunks generalizing start waveResults with
  | nil =>
      cases each
      exact .nil
  | cons chunk rest induction =>
      cases each with
      | cons returned later =>
          rw [List.flatMap_cons, List.map_append, List.flatten_cons,
            List.map_append]
          exact
            (WorkerEnvironment.runWorkerWaveSync_perm _ returned).append
              (induction later)

/-- A wave adds the statistics of its tasks. -/
theorem runWave_perm {workers : Int}
    {state next : List WorkerReplayResult × List ReplayTaskStats}
    {wave : List WorkerTraceInput × Nat}
    (ran : runWave env workers state wave = .ok next) :
    (next.2.map ReplayTaskStats.identity).Perm
      (state.2.map ReplayTaskStats.identity ++
        wave.1.map WorkerTraceInput.identity) := by
  obtain ⟨chunks, partitioned, ran⟩ := Loops.bind_eq_ok.mp ran
  obtain ⟨waveResults, replayed, ran⟩ := Loops.bind_eq_ok.mp ran
  cases ran
  have each := (Loops.mapM_eq_ok _ _ _).mp replayed
  rw [List.map_append, ← (partitionWorkerInputs_chunks partitioned).1]
  refine .append_left _ (.trans ?_ (waveResults_perm env each))
  exact ((sortBy_perm _ waveResults).flatMap_right _).map _

/-- A wave with tasks fails only if one of its workers does. -/
theorem runWave_error {workers : Int} (positive : 1 ≤ workers)
    {state : List WorkerReplayResult × List ReplayTaskStats}
    {wave : List WorkerTraceInput × Nat} (nonempty : wave.1 ≠ [])
    {failure : WavesError}
    (failed : runWave env workers state wave = .error failure) :
    failure = .worker := by
  obtain ⟨chunks, partitioned⟩ :=
    partitionWorkerInputs_ok positive nonempty
  rcases Loops.bind_eq_error.mp failed with raised | ⟨split, _, later⟩
  · rw [partitioned] at raised
    cases raised
  · rcases Loops.bind_eq_error.mp later with raised | ⟨results, _, done⟩
    · obtain ⟨chunk, _, raised⟩ := Loops.mapM_error raised
      rw [WorkerEnvironment.runWorkerWaveSync] at raised
      split at raised <;> cases raised
      rfl
    · cases done

/-- What a run is that goes through its checks. -/
theorem runCloudModelWorkerWaves_eq {inputs : List WorkerTraceInput}
    {concurrency workers prepConcurrency : Int}
    (room : 1 ≤ concurrency) (positive : 1 ≤ workers)
    (prep : 0 ≤ prepConcurrency) (some : inputs ≠ []) :
    ∃ waves,
      chunkWorkerInputsByConcurrency inputs concurrency = .ok waves ∧
        runCloudModelWorkerWaves env inputs concurrency workers
            prepConcurrency =
          (waves.zipIdx.foldlM (runWave env workers) ([], [])).map
            fun merged =>
              (sortBy
                (fun result => toLex (result.waveIndex, result.workerIndex))
                merged.1,
              sortBy ReplayTaskStats.manifestIndex merged.2) := by
  have chunked :
      ∃ waves, chunkWorkerInputsByConcurrency inputs concurrency = .ok waves :=
    ⟨_, if_neg (by omega)⟩
  obtain ⟨waves, chunked⟩ := chunked
  refine ⟨waves, chunked, ?_⟩
  have sessions := List.length_pos_iff.mpr some
  have limit :
      ∃ limit, resolvePrepConcurrency prepConcurrency inputs.length =
        .ok limit := by
    rw [resolvePrepConcurrency, if_neg (by omega), if_neg (by omega)]
    exact ⟨_, rfl⟩
  obtain ⟨limit, resolved⟩ := limit
  rw [runCloudModelWorkerWaves, if_neg (by omega), if_neg (by omega),
    resolved, chunked]
  rfl

/-- Bounds that make no sense, and a manifest without tasks, are refused. -/
theorem runCloudModelWorkerWaves_refuses {inputs : List WorkerTraceInput}
    {concurrency workers prepConcurrency : Int}
    (refused :
      concurrency < 1 ∨ workers < 1 ∨ prepConcurrency < 0 ∨ inputs = []) :
    ∃ failure,
      runCloudModelWorkerWaves env inputs concurrency workers
        prepConcurrency = .error failure := by
  rw [runCloudModelWorkerWaves]
  by_cases few : workers < 1
  · rw [if_pos few]
    exact ⟨_, rfl⟩
  by_cases narrow : concurrency < 1
  · rw [if_neg few, if_pos narrow]
    exact ⟨_, rfl⟩
  rw [if_neg few, if_neg narrow, resolvePrepConcurrency]
  split
  · exact ⟨_, rfl⟩
  · next prep =>
    have empty : inputs = [] := by tauto
    rw [if_pos (by simp [empty])]
    exact ⟨_, rfl⟩

/-- The merged statistics, or the failure of a worker. -/
theorem runCloudModelWorkerWaves_lists {inputs : List WorkerTraceInput}
    {concurrency workers prepConcurrency : Int}
    (room : 1 ≤ concurrency) (positive : 1 ≤ workers)
    (prep : 0 ≤ prepConcurrency) (some : inputs ≠ []) :
    match
      runCloudModelWorkerWaves env inputs concurrency workers prepConcurrency
    with
    | .ok (_, stats) => ListsEachTask inputs stats
    | .error failure => failure = .worker := by
  obtain ⟨waves, chunked, ran⟩ :=
    runCloudModelWorkerWaves_eq env room positive prep some
  obtain ⟨complete, nonempty, -⟩ :=
    chunkWorkerInputsByConcurrency_waves chunked
  rw [ran]
  cases folded : waves.zipIdx.foldlM (runWave env workers) ([], []) with
  | error failure =>
      show failure = .worker
      obtain ⟨wave, member, state, failed⟩ := Loops.foldlM_error folded
      exact
        runWave_error env positive
          (nonempty wave.1 (List.fst_mem_of_mem_zipIdx member)) failed
  | ok merged =>
      have added :
          (merged.2.map ReplayTaskStats.identity).Perm
            ((waves.zipIdx.flatMap Prod.fst).map
              WorkerTraceInput.identity) := by
        refine
          Loops.foldlM_invariant (runWave env workers)
            (fun visited state =>
              (state.2.map ReplayTaskStats.identity).Perm
                ((visited.flatMap Prod.fst).map WorkerTraceInput.identity))
            (.refl _) ?_ folded
        intro visited wave _ state next listed stepped
        rw [List.flatMap_append, List.flatMap_singleton, List.map_append]
        exact (runWave_perm env stepped).trans (listed.append_right _)
      rw [List.flatMap_def, List.zipIdx_map_fst, complete] at added
      exact ⟨((sortBy_perm _ _).map _).trans added, sortBy_sorted _ _⟩

end AgentSchedBench.Replay
