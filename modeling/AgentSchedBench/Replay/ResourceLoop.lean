import AgentSchedBench.Library.Progress
import AgentSchedBench.Replay.VirtualTime
import Mathlib.Data.Rat.Floor

/-!
# The loop of a resource timeout

A command is killed when virtual time reaches its timeout, or when it has made
no progress for some time while the source was active.  A poll that makes no
progress and does not lead to either passes the end of a sample, or lasts a
while in a sample without demand.
-/

namespace AgentSchedBench.Replay

open Spans

/-! ## The loop -/

/-- `_RESOURCE_PROGRESS_EPS_S` -/
def resourceProgressEps : ℚ := 1 / 10 ^ 6

/-- `stall_timeout_s` -/
def stallTimeout (timeout : ℚ) : ℚ := max 5 (min 60 timeout)

/-- Is one of the rates that of a use that is active? -/
def SourceSample.Active (sample : SourceSample) : Prop :=
  resourceCpuRateEps ≤ sample.cpuRateCore ∨
    resourceNetRateEps ≤ sample.rxRateBps ∨
    resourceNetRateEps ≤ sample.txRateBps

instance (sample : SourceSample) : Decidable sample.Active :=
  inferInstanceAs (Decidable (_ ∨ _))

/-- `_resource_has_active_demand` -/
def resourceHasActiveDemand (samples : List SourceSample) (virtualTime : ℚ) :
    Bool :=
  match resourceSampleAt samples virtualTime with
  | none => false
  | some sample => decide sample.Active

/-- What the loop keeps. -/
structure TimeoutLoop where
  clock : VirtualClock
  lastProgressWall : ℚ

/-- How the loop ends. -/
inductive LoopEnd where
  /-- The process has ended. -/
  | ended (virtualTime : ℚ)
  /-- The process is killed at its timeout. -/
  | resourceTimeout (virtualTime : ℚ)
  /-- The process is killed because it makes no progress. -/
  | resourceStallTimeout (virtualTime stalled : ℚ)

/-- The loop goes on, or it has ended. -/
abbrev LoopState := TimeoutLoop ⊕ LoopEnd

def LoopState.virtualTime : LoopState → ℚ
  | .inl loop => loop.clock.virtualTime
  | .inr (.ended virtualTime) => virtualTime
  | .inr (.resourceTimeout virtualTime) => virtualTime
  | .inr (.resourceStallTimeout virtualTime _) => virtualTime

section Loop

variable (samples : List SourceSample) (timeout : ℚ)

/-- When progress was made last. -/
def TimeoutLoop.progressWall (loop : TimeoutLoop)
    (current : ResourceCounters) : ℚ :=
  if resourceProgressEps < loop.clock.progress samples current then current.time
  else loop.lastProgressWall

/-- One turn of the loop.  If the process does not end within the interval,
its counters are read. -/
def TimeoutLoop.poll (loop : TimeoutLoop) :
    Option ResourceCounters → LoopState
  | none => .inr (.ended loop.clock.virtualTime)
  | some current =>
      let clock := loop.clock.poll samples current
      let lastProgressWall := loop.progressWall samples current
      if timeout ≤ clock.virtualTime then
        .inr (.resourceTimeout clock.virtualTime)
      else
        let stalled := current.time - lastProgressWall
        if stallTimeout timeout ≤ stalled ∧
            resourceHasActiveDemand samples clock.virtualTime then
          .inr (.resourceStallTimeout clock.virtualTime stalled)
        else .inl ⟨clock, lastProgressWall⟩

/-- The loop after a number of turns. -/
def loopAfter (start : ResourceCounters)
    (readings : ℕ → Option ResourceCounters) : ℕ → LoopState
  | 0 => .inl ⟨.begin start, start.time⟩
  | turns + 1 =>
      match loopAfter start readings turns with
      | .inl loop => loop.poll samples timeout (readings turns)
      | .inr finish => .inr finish

end Loop

/-- Each reading is at least some time later than the one before it. -/
def ReadApart (gap : ℚ) (start : ResourceCounters)
    (readings : ℕ → Option ResourceCounters) : Prop :=
  (∀ current, readings 0 = some current → start.time + gap ≤ current.time) ∧
    ∀ n last current, readings n = some last →
      readings (n + 1) = some current → last.time + gap ≤ current.time

/-! ## Steps -/

section Steps

variable {samples : List SourceSample} {timeout : ℚ}

/-- What a turn does after which the loop goes on. -/
theorem poll_inl {loop next : TimeoutLoop} {reading : Option ResourceCounters}
    (goesOn : loop.poll samples timeout reading = .inl next) :
    ∃ current, reading = some current ∧
      next.clock = loop.clock.poll samples current ∧
      (loop.clock.progress samples current ≤ resourceProgressEps →
        next.lastProgressWall = loop.lastProgressWall) ∧
      next.clock.virtualTime < timeout ∧
      (stallTimeout timeout ≤ current.time - next.lastProgressWall →
        resourceHasActiveDemand samples next.clock.virtualTime = false) := by
  match reading with
  | none => cases goesOn
  | some current =>
      rw [TimeoutLoop.poll] at goesOn
      dsimp only at goesOn
      split at goesOn
      · cases goesOn
      · next inTime =>
          split at goesOn
          · cases goesOn
          · next notStalled =>
              cases goesOn
              refine ⟨current, rfl, rfl, fun small => ?_, not_le.mp inTime,
                fun stalls => ?_⟩
              · exact if_neg (not_lt.mpr small)
              · rw [not_and, Bool.not_eq_true] at notStalled
                exact notStalled stalls

/-- The virtual time of a turn. -/
theorem virtualTime_poll_eq (loop : TimeoutLoop)
    (reading : Option ResourceCounters) :
    (loop.poll samples timeout reading).virtualTime =
      loop.clock.virtualTime +
        (reading.map (loop.clock.progress samples)).getD 0 := by
  match reading with
  | none => exact (add_zero _).symm
  | some current =>
      rw [TimeoutLoop.poll]
      dsimp only
      split
      · rfl
      · split
        · rfl
        · rfl

theorem virtualTime_le_poll (loop : TimeoutLoop)
    (reading : Option ResourceCounters) :
    loop.clock.virtualTime ≤
      (loop.poll samples timeout reading).virtualTime := by
  rw [virtualTime_poll_eq]
  apply le_add_of_nonneg_right
  match reading with
  | none => exact le_rfl
  | some current => exact increment_nonneg (wallDt_nonneg _ _)

/-- A turn that begins within a sample does not go beyond its end. -/
theorem poll_le_stop
    (follow : Follow SourceSample.start SourceSample.stop 0 samples)
    {sample : SourceSample} (member : sample ∈ samples) {loop : TimeoutLoop}
    (within : Within SourceSample.start SourceSample.stop
      loop.clock.virtualTime sample) (reading : Option ResourceCounters) :
    (loop.poll samples timeout reading).virtualTime ≤ sample.stop := by
  rw [virtualTime_poll_eq]
  match reading with
  | none => exact (add_zero _).trans_le within.2.le
  | some current =>
      exact add_increment_le_stop follow member within (wallDt_nonneg _ _)

/-- Without demand there is no candidate. -/
theorem progress_of_not_active {sample : SourceSample}
    (idle : ¬ sample.Active) (wallDt : ℚ) (deltas : ResourceDeltas) :
    sample.progress wallDt deltas = wallDt := by
  rw [SourceSample.Active, not_or, not_or] at idle
  have none : sample.candidates deltas = [] := by
    rw [SourceSample.candidates, rateCandidate, rateCandidate, rateCandidate,
      if_neg idle.1, if_neg idle.2.1, if_neg idle.2.2]
    rfl
  rw [SourceSample.progress, none]
  rfl

/-- A poll without demand takes its time, or passes the end of a sample. -/
theorem poll_idle
    (follow : Follow SourceSample.start SourceSample.stop 0 samples)
    {clock : VirtualClock} {current : ResourceCounters} {gap : ℚ}
    (nonneg : 0 ≤ clock.virtualTime) (positive : 0 < gap)
    (later : clock.lastCounters.time + gap ≤ current.time)
    (idle : resourceHasActiveDemand samples clock.virtualTime = false) :
    clock.virtualTime + gap ≤ (clock.poll samples current).virtualTime ∨
      passed SourceSample.stop samples clock.virtualTime <
        passed SourceSample.stop samples
          (clock.poll samples current).virtualTime := by
  have lasts : gap ≤ clock.lastCounters.wallDt current :=
    le_max_of_le_right (by linarith)
  change _ + gap ≤ _ + clock.progress samples current ∨
    _ < passed _ _ (_ + clock.progress samples current)
  rcases within_or_after follow nonneg with ⟨sample, member, within⟩ | after
  · rw [resourceHasActiveDemand, resourceSampleAt,
      follow.spanAt_eq member within] at idle
    rw [VirtualClock.progress, increment_within follow member within
      (positive.trans_le lasts),
      progress_of_not_active (of_decide_eq_false idle)]
    rcases min_choice (clock.lastCounters.wallDt current)
      (sample.stop - clock.virtualTime) with isWall | isStop
    · rw [isWall]
      exact Or.inl (add_le_add_right lasts _)
    · rw [isStop, add_sub_cancel]
      exact Or.inr (passed_lt member within.2 le_rfl)
  · rw [VirtualClock.progress, increment_after after (wallDt_nonneg _ _)]
    exact Or.inl (add_le_add_right lasts _)

end Steps

/-! ## Runs that do not end -/

/-- A run of the loop that goes on after every turn. -/
structure Endless (samples : List SourceSample) (timeout gap : ℚ)
    (loops : ℕ → TimeoutLoop) (readings : ℕ → Option ResourceCounters) :
    Prop where
  follow : Follow SourceSample.start SourceSample.stop 0 samples
  begins : (loops 0).clock.virtualTime = 0
  goes_on : ∀ n,
    (loops n).poll samples timeout (readings n) = .inl (loops (n + 1))
  apart : ∀ n current, readings n = some current →
    (loops n).clock.lastCounters.time + gap ≤ current.time

namespace Endless

variable {samples : List SourceSample} {timeout gap : ℚ}
  {loops : ℕ → TimeoutLoop} {readings : ℕ → Option ResourceCounters}
  (endless : Endless samples timeout gap loops readings)

include endless

theorem mono : Monotone fun n => (loops n).clock.virtualTime := by
  refine monotone_nat_of_le_succ fun n => ?_
  change _ ≤ LoopState.virtualTime (.inl (loops (n + 1)))
  rw [← endless.goes_on n]
  exact virtualTime_le_poll (loops n) (readings n)

theorem nonneg (n : ℕ) : 0 ≤ (loops n).clock.virtualTime :=
  endless.begins.ge.trans (endless.mono n.zero_le)

theorem le_timeout (n : ℕ) : (loops n).clock.virtualTime ≤ timeout := by
  obtain ⟨_, _, _, _, inTime, _⟩ := poll_inl (endless.goes_on n)
  exact (endless.mono n.le_succ).trans inTime.le

/-- From some turn on there is no progress. -/
theorem exists_stalled :
    ∃ n, ∀ m, n ≤ m →
      (loops m).lastProgressWall = (loops n).lastProgressWall := by
  obtain ⟨n, small⟩ := Progress.exists_forall_step_le endless.mono
    endless.le_timeout
    (show (0 : ℚ) < resourceProgressEps by norm_num [resourceProgressEps])
  refine ⟨n, fun m later => ?_⟩
  induction m, later using Nat.le_induction with
  | base => rfl
  | succ m later induction =>
      obtain ⟨current, _, isNext, keeps, _⟩ := poll_inl (endless.goes_on m)
      rw [← induction]
      apply keeps
      have step := small m later
      rw [isNext] at step
      exact le_of_add_le_add_left step

theorem time_add_le (n count : ℕ) :
    (loops n).clock.lastCounters.time + count * gap ≤
      (loops (n + count)).clock.lastCounters.time := by
  induction count with
  | zero => simp
  | succ count induction =>
      obtain ⟨current, isRead, isNext, _⟩ :=
        poll_inl (endless.goes_on (n + count))
      have later := endless.apart (n + count) current isRead
      have isCurrent :
          (loops (n + (count + 1))).clock.lastCounters = current := by
        rw [← add_assoc, isNext]
        rfl
      rw [isCurrent, Nat.cast_add_one]
      linarith

/-- From some turn on there is no demand. -/
theorem exists_idle (positive : 0 < gap) :
    ∃ n, ∀ m, n ≤ m →
      resourceHasActiveDemand samples (loops m).clock.virtualTime = false := by
  obtain ⟨n, stalled⟩ := endless.exists_stalled
  obtain ⟨count, long⟩ := exists_nat_gt
    ((stallTimeout timeout + (loops n).lastProgressWall -
      (loops n).clock.lastCounters.time) / gap)
  rw [div_lt_iff₀ positive] at long
  refine ⟨n + count + 1, fun m later => ?_⟩
  obtain ⟨more, rfl⟩ := Nat.exists_eq_add_of_le later
  have before : n + count + 1 + more = n + (count + more) + 1 := by omega
  rw [before]
  obtain ⟨current, isRead, isNext, _, _, idle⟩ :=
    poll_inl (endless.goes_on (n + (count + more)))
  apply idle
  have time := endless.time_add_le n (count + more)
  have read := endless.apart _ current isRead
  have extra : (0 : ℚ) ≤ more * gap :=
    mul_nonneg more.cast_nonneg positive.le
  rw [stalled _ (by omega)]
  rw [Nat.cast_add, add_mul] at time
  linarith

theorem contradiction (positive : 0 < gap) : False := by
  obtain ⟨n, idle⟩ := endless.exists_idle positive
  let rank := fun m : ℕ => (loops (n + m)).clock.virtualTime +
    gap * passed SourceSample.stop samples (loops (n + m)).clock.virtualTime
  have step (m : ℕ) : rank m + gap ≤ rank (m + 1) := by
    obtain ⟨current, isRead, isNext, _⟩ := poll_inl (endless.goes_on (n + m))
    have grows := endless.mono (n + m).le_succ
    have more := passed_mono SourceSample.stop samples grows
    have passes := poll_idle endless.follow (endless.nonneg (n + m)) positive
      (endless.apart _ current isRead) (idle (n + m) (Nat.le_add_right n m))
    rw [← isNext] at passes
    dsimp only [rank]
    rw [← add_assoc n m 1]
    rcases passes with lasts | passes
    · have := mul_le_mul_of_nonneg_left
        (Nat.cast_le (α := ℚ).mpr more) positive.le
      linarith
    · have := mul_le_mul_of_nonneg_left
        (Nat.cast_le (α := ℚ).mpr (Nat.succ_le_of_lt passes)) positive.le
      rw [Nat.cast_succ, mul_add, mul_one] at this
      dsimp only at grows
      linarith
  have mono : Monotone rank := monotone_nat_of_le_succ fun m => by
    have := step m
    linarith
  have bounded (m : ℕ) : rank m ≤ timeout + gap * samples.length :=
    add_le_add (endless.le_timeout (n + m))
      (mul_le_mul_of_nonneg_left
        (Nat.cast_le.mpr (passed_le _ samples _)) positive.le)
  obtain ⟨last, small⟩ :=
    Progress.exists_forall_step_le mono bounded (half_pos positive)
  have short := small last le_rfl
  have long := step last
  linarith

end Endless

/-! ## The loop ends -/

section Ends

variable {samples : List SourceSample} {timeout gap : ℚ}
  {start : ResourceCounters} {readings : ℕ → Option ResourceCounters}

theorem loopAfter_succ {n : ℕ} {loop : TimeoutLoop}
    (goesOn : loopAfter samples timeout start readings n = .inl loop) :
    loopAfter samples timeout start readings (n + 1) =
      loop.poll samples timeout (readings n) := by
  rw [loopAfter, goesOn]

/-- The counters that are kept are those that have been read last. -/
theorem lastCounters_loopAfter (apart : ReadApart gap start readings) {n : ℕ}
    {loop : TimeoutLoop}
    (goesOn : loopAfter samples timeout start readings n = .inl loop)
    {current : ResourceCounters} (isRead : readings n = some current) :
    loop.clock.lastCounters.time + gap ≤ current.time := by
  cases n with
  | zero =>
      cases goesOn
      exact apart.1 current isRead
  | succ n =>
      rw [loopAfter] at goesOn
      split at goesOn
      · obtain ⟨last, wasRead, isNext, _⟩ := poll_inl goesOn
        rw [isNext]
        exact apart.2 n last current wasRead isRead
      · cases goesOn

theorem exists_end
    (follow : Follow SourceSample.start SourceSample.stop 0 samples)
    (positive : 0 < gap) (apart : ReadApart gap start readings) :
    ∃ n finish, loopAfter samples timeout start readings n = .inr finish := by
  by_contra never
  push Not at never
  have goesOn (n : ℕ) :
      ∃ loop, loopAfter samples timeout start readings n = .inl loop := by
    cases isAfter : loopAfter samples timeout start readings n with
    | inl loop => exact ⟨loop, rfl⟩
    | inr finish => exact absurd isAfter (never n finish)
  choose loops isLoop using goesOn
  have endless : Endless samples timeout gap loops readings :=
    { follow := follow
      begins := by
        have isFirst := Sum.inl.inj (isLoop 0)
        rw [← isFirst]
        rfl
      goes_on := fun n => by rw [← loopAfter_succ (isLoop n), isLoop (n + 1)]
      apart := fun n current =>
        lastCounters_loopAfter apart (isLoop n) }
  exact endless.contradiction positive

end Ends

/-- A command that uses nothing, polled every second. -/
def unusedReadings (n : ℕ) : Option ResourceCounters :=
  some ⟨n + 1, some 0, none, none⟩

end AgentSchedBench.Replay
