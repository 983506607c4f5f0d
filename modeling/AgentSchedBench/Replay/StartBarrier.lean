import AgentSchedBench.Library.Tasks

/-!
# The start of a worker wave

The workers of a wave load and prepare their sessions, meet at a barrier and
wait for the start time, which the first worker sets.  A worker that fails
before its replay has started aborts the barrier and sets the event.

Loading stands before the `try` block: when it raises, nothing is aborted.
The abort itself is tried once and its errors are only logged.  The moves say
which of these failures is left uncovered.
-/

namespace AgentSchedBench.Replay

/-! ## The wave -/

/-- What the processes of a wave share. -/
structure StartState where
  arrivals : Nat
  broken : Bool
  eventSet : Bool
  wallTime : Int
deriving DecidableEq, Repr

def StartState.start : StartState where
  arrivals := 0
  broken := false
  eventSet := false
  wallTime := 0

/-- Where a worker of the wave is. -/
inductive StartPhase where
  | loading
  | preparing
  | atBarrier
  | released
  | announcing
  | waitingForEvent
  | reading
  | started (zero : Int)
  | failing
  | barrierAborted
  | unwinding
  | ended (zero : Option Int)
deriving DecidableEq, Repr

structure StartWorker where
  coordinator : Bool
  arrived : Bool
  phase : StartPhase
deriving DecidableEq, Repr

namespace StartWorker

/-- The worker goes on to another place. -/
def goTo (worker : StartWorker) (phase : StartPhase) : StartWorker :=
  { worker with phase := phase }

/-- The worker calls `barrier.wait`. -/
def arrive (worker : StartWorker) (phase : StartPhase) : StartWorker :=
  { worker with
    arrived := true
    phase := phase }

end StartWorker

/-- The statements of the `try` block up to the replay may raise there. -/
def StartPhase.CanFail : StartPhase → Prop
  | .preparing | .atBarrier | .released | .announcing => True
  | .waitingForEvent | .reading => True
  | _ => False

/--
What a worker may do next.  A move is covered unless the worker ends without
an abort, or the abort itself fails.
-/
inductive StartMove (workers : Nat) :
    Bool → StartState → StartWorker → StartState → StartWorker → Prop where
  | loads {state : StartState} {worker : StartWorker}
      (here : worker.phase = .loading) :
      StartMove workers true state worker state (worker.goTo .preparing)
  | loadFails {state : StartState} {worker : StartWorker}
      (here : worker.phase = .loading) :
      StartMove workers false state worker state (worker.goTo (.ended none))
  | arrives {state : StartState} {worker : StartWorker}
      (here : worker.phase = .preparing) (whole : state.broken = false)
      (early : state.arrivals + 1 < workers) :
      StartMove workers true state worker
        { state with arrivals := state.arrivals + 1 }
        (worker.arrive .atBarrier)
  | arrivesLast {state : StartState} {worker : StartWorker}
      (here : worker.phase = .preparing) (whole : state.broken = false)
      (last : state.arrivals + 1 = workers) :
      StartMove workers true state worker
        { state with arrivals := state.arrivals + 1 }
        (worker.arrive .released)
  | passesBarrier {state : StartState} {worker : StartWorker}
      (here : worker.phase = .atBarrier) (whole : state.broken = false)
      (complete : state.arrivals = workers) :
      StartMove workers true state worker state (worker.goTo .released)
  | setsTime {state : StartState} {worker : StartWorker}
      (here : worker.phase = .released) (first : worker.coordinator = true)
      (time : Int) :
      StartMove workers true state worker { state with wallTime := time }
        (worker.goTo .announcing)
  | setsEvent {state : StartState} {worker : StartWorker}
      (here : worker.phase = .announcing) :
      StartMove workers true state worker { state with eventSet := true }
        (worker.goTo .reading)
  | waitsForEvent {state : StartState} {worker : StartWorker}
      (here : worker.phase = .released)
      (notFirst : worker.coordinator = false) :
      StartMove workers true state worker state
        (worker.goTo .waitingForEvent)
  | seesEvent {state : StartState} {worker : StartWorker}
      (here : worker.phase = .waitingForEvent)
      (set : state.eventSet = true) :
      StartMove workers true state worker state (worker.goTo .reading)
  | starts {state : StartState} {worker : StartWorker}
      (here : worker.phase = .reading) (valid : 0 < state.wallTime) :
      StartMove workers true state worker state
        (worker.goTo (.started state.wallTime))
  | ends {state : StartState} {worker : StartWorker} {zero : Int}
      (here : worker.phase = .started zero) :
      StartMove workers true state worker state
        (worker.goTo (.ended (some zero)))
  | fails {state : StartState} {worker : StartWorker}
      (here : worker.phase.CanFail) :
      StartMove workers true state worker state (worker.goTo .failing)
  | abortsBarrier {state : StartState} {worker : StartWorker}
      (here : worker.phase = .failing) :
      StartMove workers true state worker { state with broken := true }
        (worker.goTo .barrierAborted)
  | abortFails {state : StartState} {worker : StartWorker}
      (here : worker.phase = .failing) :
      StartMove workers false state worker state
        (worker.goTo .barrierAborted)
  | releasesPeers {state : StartState} {worker : StartWorker}
      (here : worker.phase = .barrierAborted) :
      StartMove workers true state worker { state with eventSet := true }
        (worker.goTo .unwinding)
  | releaseFails {state : StartState} {worker : StartWorker}
      (here : worker.phase = .barrierAborted) :
      StartMove workers false state worker state (worker.goTo .unwinding)
  | cleansUp {state : StartState} {worker : StartWorker}
      (here : worker.phase = .unwinding) :
      StartMove workers true state worker state (worker.goTo (.ended none))

abbrev StartWave := Tasks.State StartState StartWorker

/-- The workers of a wave; the first one is the coordinator. -/
def StartWave.start (workers : Nat) : StartWave where
  shared := StartState.start
  tasks :=
    (List.range workers).map fun index =>
      { coordinator := index == 0, arrived := false, phase := .loading }

/-- The states of a wave, whatever its workers do. -/
def StartWave.Reachable (workers : Nat) (wave : StartWave) : Prop :=
  Tasks.Reachable
    (fun state worker later next =>
      ∃ covered, StartMove workers covered state worker later next)
    (StartWave.start workers) wave

/-- Those in which no failure was left uncovered. -/
def StartWave.Covered (workers : Nat) (wave : StartWave) : Prop :=
  Tasks.Reachable (StartMove workers true) (StartWave.start workers) wave

/-! ## What the start is for -/

namespace StartWorker

/-- The start time of a worker that has passed. -/
def zero? (worker : StartWorker) : Option Int :=
  match worker.phase with
  | .started zero => some zero
  | .ended zero => zero
  | _ => none

def HasEnded (worker : StartWorker) : Prop :=
  ∃ zero, worker.phase = .ended zero

/-- The worker cannot go on unless another one does something. -/
def Waits (worker : StartWorker) (workers : Nat) (state : StartState) :
    Prop :=
  (worker.phase = .atBarrier ∧ state.broken = false ∧
      state.arrivals < workers) ∨
    (worker.phase = .waitingForEvent ∧ state.eventSet = false)

end StartWorker

/--
All that pass have the time that was set, and it is set when all have arrived;
who ends without passing has aborted the start; and nobody waits when all
others have ended.
-/
structure StartWave.StartsTogether (workers : Nat) (wave : StartWave) :
    Prop where
  sameTime :
    ∀ worker ∈ wave.tasks, ∀ zero, worker.zero? = some zero →
      zero = wave.shared.wallTime
  allArrived :
    wave.shared.wallTime ≠ 0 → ∀ worker ∈ wave.tasks, worker.arrived = true
  aborted :
    ∀ worker ∈ wave.tasks, worker.phase = .ended none →
      wave.shared.broken = true ∧ wave.shared.eventSet = true
  nobodyWaits :
    ∀ front worker back, wave.tasks = front ++ worker :: back →
      (∀ other ∈ front ++ back, other.HasEnded) →
        ¬ worker.Waits workers wave.shared

/-! ## Counting -/

namespace StartWorker

/-- One for a worker that has not arrived. -/
def missing (worker : StartWorker) : Nat :=
  if worker.arrived = true ∧ worker.phase ≠ .loading ∧
      worker.phase ≠ .preparing
  then 0 else 1

/-- One for a coordinator that may still set the time. -/
def maySetTime (worker : StartWorker) : Nat :=
  if worker.coordinator = true ∧
      (worker.phase = .loading ∨ worker.phase = .preparing ∨
        worker.phase = .atBarrier ∨ worker.phase = .released)
  then 1 else 0

end StartWorker

namespace StartWave.Covered

variable {workers : Nat} {wave : StartWave}

/-- No more arrivals than there are workers left to arrive. -/
theorem arrivals_le (covered : StartWave.Covered workers wave) :
    Tasks.weight StartWorker.missing wave.tasks + wave.shared.arrivals ≤
      workers := by
  have bound :=
    Tasks.Reachable.bounded (fun shared : StartState => shared.arrivals)
      StartWorker.missing covered (by
        intro shared worker later next move
        cases move <;>
          simp_all only [StartWorker.missing, StartWorker.goTo,
            StartWorker.arrive] <;>
          grind)
  have atStart :
      Tasks.weight StartWorker.missing (StartWave.start workers).tasks ≤
        workers := by
    have atMost : ∀ worker, StartWorker.missing worker ≤ 1 := by
      intro worker
      rw [StartWorker.missing]
      split <;> omega
    have each := Tasks.weight_le_length atMost (StartWave.start workers).tasks
    simpa [StartWave.start] using each
  simp only [StartWave.start, StartState.start] at bound atStart
  omega

/-- The coordinator sets the time once. -/
theorem times_le (covered : StartWave.Covered workers wave) :
    Tasks.weight StartWorker.maySetTime wave.tasks +
        (if wave.shared.wallTime = 0 then 0 else 1) ≤ 1 := by
  have bound :=
    Tasks.Reachable.bounded
      (fun shared : StartState => if shared.wallTime = 0 then 0 else 1)
      StartWorker.maySetTime covered (by
        intro shared worker later next move
        cases move <;>
          simp_all only [StartWorker.maySetTime, StartWorker.goTo,
            StartWorker.arrive] <;>
          grind)
  have atStart :
      Tasks.weight StartWorker.maySetTime (StartWave.start workers).tasks ≤
        1 := by
    cases workers with
    | zero => exact Nat.zero_le 1
    | succ others =>
        have noneLater : Tasks.weight StartWorker.maySetTime
            ((List.range' 1 others).map fun index =>
              (⟨index == 0, false, .loading⟩ : StartWorker)) = 0 := by
          apply Tasks.weight_eq_zero
          intro worker member
          obtain ⟨index, inRange, rfl⟩ := List.mem_map.mp member
          have positive := (List.mem_range'_1.mp inRange).1
          have notFirst : (index == 0) = false := by simp; omega
          simp [StartWorker.maySetTime, notFirst]
        simp only [StartWave.start, List.range_eq_range', List.range'_succ,
          List.map_cons]
        show StartWorker.maySetTime _ +
          Tasks.weight StartWorker.maySetTime _ ≤ 1
        rw [noneLater]
        decide
  simp only [StartWave.start, StartState.start, if_true] at bound atStart
  omega

end StartWave.Covered

/-! ## What is known of a worker -/

/-- What the place of a worker says about the wave. -/
def StartWorker.Placed (workers : Nat) (state : StartState)
    (worker : StartWorker) : Prop :=
  match worker.phase with
  | .loading | .preparing | .failing => True
  | .atBarrier => 1 ≤ state.arrivals
  | .released | .announcing => state.arrivals = workers
  | .waitingForEvent =>
      state.arrivals = workers ∧ worker.coordinator = false
  | .reading => state.arrivals = workers ∧ state.eventSet = true
  | .started zero | .ended (some zero) =>
      zero = state.wallTime ∧ 0 < zero ∧ state.eventSet = true
  | .barrierAborted => state.broken = true
  | .unwinding | .ended none =>
      state.broken = true ∧ state.eventSet = true

/-- A time that is set was set when all had arrived. -/
def StartState.TimeAfterArrival (workers : Nat) (state : StartState) :
    Prop :=
  state.wallTime ≠ 0 → state.arrivals = workers

/-- What stays as it is whoever moves. -/
structure StartState.Later (workers : Nat) (state later : StartState) :
    Prop where
  someArrived : 1 ≤ state.arrivals → 1 ≤ later.arrivals
  allArrived : state.arrivals = workers → later.arrivals = workers
  broken : state.broken = true → later.broken = true
  eventSet : state.eventSet = true → later.eventSet = true
  wallTime : state.wallTime ≠ 0 → later.wallTime = state.wallTime

theorem StartWorker.Placed.later {workers : Nat} {state later : StartState}
    (after : state.Later workers later) {worker : StartWorker}
    (placed : worker.Placed workers state) :
    worker.Placed workers later := by
  obtain ⟨coordinator, arrived, phase⟩ := worker
  cases phase with
  | loading | preparing | failing => trivial
  | atBarrier => exact after.someArrived placed
  | released | announcing => exact after.allArrived placed
  | waitingForEvent => exact ⟨after.allArrived placed.1, placed.2⟩
  | reading => exact ⟨after.allArrived placed.1, after.eventSet placed.2⟩
  | barrierAborted => exact after.broken placed
  | unwinding => exact ⟨after.broken placed.1, after.eventSet placed.2⟩
  | started zero =>
      obtain ⟨rfl, positive, set⟩ := placed
      exact
        ⟨(after.wallTime (Int.ne_of_gt positive)).symm, positive,
          after.eventSet set⟩
  | ended zero =>
      cases zero with
      | none => exact ⟨after.broken placed.1, after.eventSet placed.2⟩
      | some zero =>
          obtain ⟨rfl, positive, set⟩ := placed
          exact
            ⟨(after.wallTime (Int.ne_of_gt positive)).symm, positive,
              after.eventSet set⟩

namespace StartMove

variable {workers : Nat} {state after : StartState}
  {worker next : StartWorker}

/-- The time is not set a second time. -/
theorem later (move : StartMove workers true state worker after next)
    (once : worker.maySetTime = 1 → state.wallTime = 0) :
    state.Later workers after := by
  cases move with
  | arrives | arrivesLast =>
      exact
        ⟨fun _ => Nat.le_add_left 1 _, fun all => by simp only; omega, id, id,
          fun _ => rfl⟩
  | setsTime here first time =>
      have unset : state.wallTime = 0 := by
        apply once
        simp [StartWorker.maySetTime, here, first]
      exact ⟨id, id, id, id, fun set => absurd unset set⟩
  | setsEvent | releasesPeers => exact ⟨id, id, id, fun _ => rfl, fun _ => rfl⟩
  | abortsBarrier => exact ⟨id, id, fun _ => rfl, id, fun _ => rfl⟩
  | _ => exact ⟨id, id, id, id, fun _ => rfl⟩

theorem placed (move : StartMove workers true state worker after next)
    (known : worker.Placed workers state) :
    next.Placed workers after := by
  cases move with
  | loads | fails => trivial
  | arrives => exact Nat.le_add_left 1 _
  | arrivesLast here whole last => exact last
  | passesBarrier here whole complete => exact complete
  | setsTime here =>
      simp only [StartWorker.Placed, here] at known
      exact known
  | waitsForEvent here notFirst =>
      simp only [StartWorker.Placed, here] at known
      exact ⟨known, notFirst⟩
  | setsEvent here =>
      simp only [StartWorker.Placed, here] at known
      exact ⟨known, rfl⟩
  | seesEvent here set =>
      simp only [StartWorker.Placed, here] at known
      exact ⟨known.1, set⟩
  | starts here valid =>
      simp only [StartWorker.Placed, here] at known
      exact ⟨rfl, valid, known.2⟩
  | ends here =>
      simp only [StartWorker.Placed, here] at known
      exact known
  | cleansUp here =>
      simp only [StartWorker.Placed, here] at known
      exact known
  | abortsBarrier => exact rfl
  | releasesPeers here =>
      simp only [StartWorker.Placed, here] at known
      exact ⟨known, rfl⟩

theorem timeAfterArrival
    (move : StartMove workers true state worker after next)
    (known : worker.Placed workers state)
    (timed : state.TimeAfterArrival workers) :
    after.TimeAfterArrival workers := by
  intro set
  cases move with
  | arrives | arrivesLast =>
      have all := timed set
      simp only
      omega
  | setsTime here =>
      simp only [StartWorker.Placed, here] at known
      exact known
  | _ => exact timed set

end StartMove

namespace StartWave.Covered

variable {workers : Nat} {wave : StartWave}

theorem placed (covered : StartWave.Covered workers wave) :
    wave.shared.TimeAfterArrival workers ∧
      ∀ worker ∈ wave.tasks, worker.Placed workers wave.shared := by
  refine Tasks.Reachable.forall_tasks_reached
    (StartState.TimeAfterArrival workers)
    (fun shared worker => worker.Placed workers shared) covered ?_ ?_ ?_
  · exact fun set => absurd rfl set
  · intro worker member
    obtain ⟨index, _, rfl⟩ := List.mem_map.mp member
    trivial
  · intro front back worker shared later next reached timed known move
    refine
      ⟨move.timeAfterArrival known timed, move.placed known,
        fun _ known => known.later (move.later ?_)⟩
    intro may
    have times := times_le reached
    rw [Tasks.weight_split, may] at times
    by_contra set
    simp only [if_neg set] at times
    omega

/-- All have arrived when as many arrivals are counted. -/
theorem all_arrived (covered : StartWave.Covered workers wave)
    (all : wave.shared.arrivals = workers) :
    ∀ worker ∈ wave.tasks, worker.arrived = true := by
  intro worker member
  have counted := covered.arrivals_le
  have none : Tasks.weight StartWorker.missing wave.tasks = 0 := by omega
  have here := Tasks.weigh_eq_zero none member
  by_contra notArrived
  simp [StartWorker.missing, notArrived] at here

/-- One of the workers is the coordinator. -/
theorem coordinator_mem (covered : StartWave.Covered workers wave)
    (someWorker : wave.tasks ≠ []) :
    ∃ worker ∈ wave.tasks, worker.coordinator = true := by
  have same :=
    Tasks.Reachable.tasks_map StartWorker.coordinator covered (by
      intro shared worker later next move
      cases move <;> rfl)
  cases workers with
  | zero => exact absurd (List.map_eq_nil_iff.mp same) someWorker
  | succ others =>
      apply List.mem_map.mp
      rw [same]
      exact List.mem_map.mpr ⟨⟨true, false, .loading⟩, by
        exact List.mem_map.mpr ⟨0, by simp, rfl⟩, rfl⟩

/-- Whoever has ended has released the event, or has passed. -/
theorem ended_placed (covered : StartWave.Covered workers wave)
    {worker : StartWorker} (member : worker ∈ wave.tasks)
    (ended : worker.HasEnded) :
    wave.shared.eventSet = true ∧
      (wave.shared.broken = true ∨ wave.shared.arrivals = workers) := by
  obtain ⟨timed, placed⟩ := covered.placed
  have known := placed worker member
  obtain ⟨zero, phase⟩ := ended
  simp only [StartWorker.Placed, phase] at known
  cases zero with
  | none => exact ⟨known.2, .inl known.1⟩
  | some zero =>
      obtain ⟨rfl, positive, set⟩ := known
      exact ⟨set, .inr (timed (Int.ne_of_gt positive))⟩

theorem nobodyWaits (covered : StartWave.Covered workers wave)
    {front back : List StartWorker} {worker : StartWorker}
    (split : wave.tasks = front ++ worker :: back)
    (ended : ∀ other ∈ front ++ back, other.HasEnded) :
    ¬ worker.Waits workers wave.shared := by
  have others : ∀ other ∈ front ++ back, other ∈ wave.tasks := by
    intro other member
    rw [split]
    simp only [List.mem_append, List.mem_cons] at member ⊢
    tauto
  have known := covered.placed.2 worker (by simp [split])
  rintro (⟨phase, whole, missing⟩ | ⟨phase, unset⟩)
  · -- somebody else has not arrived, and has ended without an abort
    simp only [StartWorker.Placed, phase] at known
    have length := Tasks.Reachable.tasks_length covered
    simp only [split, StartWave.start, List.length_append, List.length_cons,
      List.length_map, List.length_range] at length
    have nonempty : 0 < (front ++ back).length := by
      rw [List.length_append]
      omega
    obtain ⟨other, member⟩ := List.exists_mem_of_length_pos nonempty
    rcases (covered.ended_placed (others other member)
      (ended other member)).2 with broken | all
    · rw [whole] at broken
      cases broken
    · omega
  · -- the coordinator is another worker and has ended
    simp only [StartWorker.Placed, phase] at known
    obtain ⟨first, member, coordinator⟩ :=
      covered.coordinator_mem (by simp [split])
    have another : first ∈ front ++ back := by
      rw [split] at member
      simp only [List.mem_append, List.mem_cons] at member ⊢
      rcases member with inFront | rfl | inBack
      · exact .inl inFront
      · rw [known.2] at coordinator
        cases coordinator
      · exact .inr inBack
    rw [(covered.ended_placed (others first another)
      (ended first another)).1] at unset
    cases unset

/-- A wave all of whose failures are covered starts together or not at all. -/
theorem startsTogether {workers : Nat} {wave : StartWave}
    (covered : StartWave.Covered workers wave) :
    wave.StartsTogether workers where
  sameTime := by
    intro worker member zero passed
    have known := covered.placed.2 worker member
    obtain ⟨coordinator, arrived, phase⟩ := worker
    cases phase with
    | started time =>
        cases passed
        exact known.1
    | ended time =>
        cases time with
        | none => cases passed
        | some time =>
            cases passed
            exact known.1
    | _ => cases passed
  allArrived := by
    intro set
    exact covered.all_arrived (covered.placed.1 set)
  aborted := by
    intro worker member ended
    have known := covered.placed.2 worker member
    simp only [StartWorker.Placed, ended] at known
    exact known
  nobodyWaits := by
    intro front worker back split ended
    exact covered.nobodyWaits split ended

end StartWave.Covered

/-- One worker passes at the time it has set. -/
theorem one_worker_startsTogether :
    StartWave.StartsTogether 1
      ⟨⟨1, false, true, 5⟩, [⟨true, true, .started 5⟩]⟩ := by
  have step : ∀ {worker next : StartWorker} {state later : StartState},
      StartMove 1 true state worker later next →
        Tasks.Reachable (StartMove 1 true) ⟨state, [worker]⟩
          ⟨later, [next]⟩ :=
    fun move => Tasks.Reachable.move [] [] move
  exact
    StartWave.Covered.startsTogether
      ((step (.loads rfl)).trans ((step (.arrivesLast rfl rfl rfl)).trans
        ((step (.setsTime rfl rfl 5)).trans ((step (.setsEvent rfl)).trans
          (step (.starts rfl (by decide)))))))

/--
The second of two workers fails while it loads; the first one is at the
barrier, which nobody aborts.
-/
theorem loading_failure_leaves_peer_waiting :
    ∃ wave, StartWave.Reachable 2 wave ∧ ¬ wave.StartsTogether 2 := by
  have first : ∀ {worker next other : StartWorker} {state later : StartState},
      StartMove 2 true state worker later next →
        Tasks.Reachable
          (fun state worker later next =>
            ∃ covered, StartMove 2 covered state worker later next)
          ⟨state, [worker, other]⟩ ⟨later, [next, other]⟩ :=
    fun move => Tasks.Reachable.move [] [_] ⟨true, move⟩
  refine
    ⟨⟨_, [_, ⟨false, false, .ended none⟩]⟩,
      (first (.loads rfl)).trans
        ((first (.arrives rfl rfl (by decide))).trans
          (Tasks.Reachable.move [_] [] ⟨false, .loadFails rfl⟩)), ?_⟩
  intro together
  apply together.nobodyWaits [] _ [⟨false, false, .ended none⟩] rfl
  · intro other member
    rw [List.nil_append, List.mem_singleton] at member
    exact ⟨none, by rw [member]⟩
  · exact .inl ⟨rfl, rfl, by decide⟩

end AgentSchedBench.Replay
