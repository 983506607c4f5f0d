import AgentSchedBench.Replay.VirtualTime
import Mathlib.Data.List.Chain

/-!
# Equal rates

A command that uses its resources as the source did should see virtual time go
with the wall.  It does until a poll crosses the end of a sample: what is left
of the poll then is lost.
-/

namespace AgentSchedBench.Replay

open Spans

/-! ## A command at the rates of the source -/

/-- An amount that grows at the given rates, and does not go back later. -/
structure UsedAtRate (samples : List SourceSample) (rate : SourceSample → ℚ)
    (used : ℚ → ℚ) : Prop where
  mono : Monotone used
  exact : ∀ sample ∈ samples, ∀ ⦃t u : ℚ⦄, sample.start ≤ t → t ≤ u →
    u ≤ sample.stop → used u - used t = rate sample * (u - t)

/-- What a command has used since it was started, at the rates of the
source. -/
structure SourceUse (samples : List SourceSample) where
  began : ℚ
  cpu : ℚ → ℚ
  rx : ℚ → ℚ
  tx : ℚ → ℚ
  cpu_used : UsedAtRate samples SourceSample.cpuRateCore cpu
  rx_used : UsedAtRate samples SourceSample.rxRateBps rx
  tx_used : UsedAtRate samples SourceSample.txRateBps tx

/-- A poll: the time since the start, and which counters can be read. -/
structure Poll where
  elapsed : ℚ
  cpuRead : Bool
  rxRead : Bool
  txRead : Bool

/-- What a poll reads. -/
def SourceUse.counters {samples : List SourceSample} (use : SourceUse samples)
    (poll : Poll) : ResourceCounters where
  time := use.began + poll.elapsed
  cpuUsage := if poll.cpuRead then some (use.cpu poll.elapsed) else none
  rxBytes := if poll.rxRead then some (use.rx poll.elapsed) else none
  txBytes := if poll.txRead then some (use.tx poll.elapsed) else none

/-- The polls of a command, in order; the first one is at its start. -/
structure Polling where
  start : Poll
  polls : List Poll
  at_start : start.elapsed = 0
  in_order : List.IsChain (fun poll next => poll.elapsed ≤ next.elapsed)
    (start :: polls)

/-- The clock after some polls. -/
def SourceUse.clockAfter {samples : List SourceSample}
    (use : SourceUse samples) (clock : VirtualClock) (polls : List Poll) :
    VirtualClock :=
  polls.foldl (fun clock poll => clock.poll samples (use.counters poll)) clock

/-- Where the profile ends. -/
def profileEnd (samples : List SourceSample) : ℚ :=
  (samples.getLast?.map SourceSample.stop).getD 0

/-- Virtual time is the time that has elapsed, up to the end of the profile. -/
def VirtualClock.Level (samples : List SourceSample) (clock : VirtualClock)
    (poll : Poll) : Prop :=
  min clock.virtualTime (profileEnd samples) =
    min poll.elapsed (profileEnd samples)

/-- After every poll virtual time is the time that has elapsed. -/
def TracksWall {samples : List SourceSample} (use : SourceUse samples)
    (polling : Polling) : Prop :=
  ∀ done, done <+: polling.polls →
    (use.clockAfter (.begin (use.counters polling.start)) done).Level samples
      (done.getLastD polling.start)

/-- Between two polls no sample ends but the last one. -/
def CrossesNoEnd (samples : List SourceSample) (poll next : Poll) : Prop :=
  ∀ sample ∈ samples, sample.stop < profileEnd samples →
    poll.elapsed < sample.stop → next.elapsed ≤ sample.stop

/-! ## Candidates -/

theorem le_progress {sample : SourceSample} {deltas : ResourceDeltas}
    {wallDt least : ℚ}
    (le : ∀ candidate ∈ sample.candidates deltas, least ≤ candidate)
    (le_wallDt : least ≤ wallDt) : least ≤ sample.progress wallDt deltas := by
  rw [SourceSample.progress]
  split
  · exact le_wallDt
  · next candidate isLeast =>
      exact (le candidate (List.min?_mem isLeast)).trans
        (le_max_right _ _)

theorem progress_eq {sample : SourceSample} {deltas : ResourceDeltas}
    {wallDt : ℚ} (nonneg : 0 ≤ wallDt)
    (same : ∀ candidate ∈ sample.candidates deltas, candidate = wallDt) :
    sample.progress wallDt deltas = wallDt := by
  rw [SourceSample.progress]
  split
  · rfl
  · next candidate isLeast =>
      rw [same candidate (List.min?_mem isLeast)]
      exact max_eq_right nonneg

section Used

variable {samples : List SourceSample} {sample : SourceSample}
  {rate : SourceSample → ℚ} {used : ℚ → ℚ} {eps t u : ℚ}

/-- What is used up to the end of a sample, at least. -/
theorem UsedAtRate.le_candidate (isUsed : UsedAtRate samples rate used)
    (member : sample ∈ samples) (positive : 0 < eps)
    (after : sample.start ≤ t) (before : t ≤ sample.stop)
    (le : t ≤ u) {readFrom readTo : Bool} {candidate : ℚ}
    (isCandidate : candidate ∈ rateCandidate (rate sample) eps
      (counterDelta (if readFrom then some (used t) else none)
        (if readTo then some (used u) else none))) :
    min u sample.stop - t ≤ candidate ∧
      (u ≤ sample.stop → candidate = u - t) := by
  obtain ⟨large, isCandidate⟩ :=
    Option.mem_ite_none_right.mp isCandidate
  cases readFrom with
  | false => cases isCandidate
  | true =>
    cases readTo with
    | false => cases isCandidate
    | true =>
      have ratePos := positive.trans_le large
      cases isCandidate
      have grows := sub_nonneg.mpr (isUsed.mono le)
      have cut := isUsed.exact sample member after
        (le_min le before) (min_le_right u sample.stop)
      have upTo := isUsed.mono (min_le_left u sample.stop)
      rw [max_eq_right grows]
      dsimp only
      constructor
      · rw [le_div_iff₀ ratePos, mul_comm]
        linarith
      · intro inside
        rw [min_eq_left inside] at cut
        rw [cut, mul_div_cancel_left₀ _ ratePos.ne']

/-- Each candidate of a poll is at least what is left of the sample, and the
time of the poll if that is within the sample. -/
theorem SourceUse.candidates (use : SourceUse samples)
    (member : sample ∈ samples) {poll next : Poll}
    (within : Within SourceSample.start SourceSample.stop poll.elapsed sample)
    (le : poll.elapsed ≤ next.elapsed) :
    ∀ candidate ∈ sample.candidates
        ((use.counters poll).deltas (use.counters next)),
      min next.elapsed sample.stop - poll.elapsed ≤ candidate ∧
        (next.elapsed ≤ sample.stop →
          candidate = next.elapsed - poll.elapsed) := by
  intro candidate isCandidate
  rw [SourceSample.candidates, List.mem_append, List.mem_append,
    Option.mem_toList, Option.mem_toList, Option.mem_toList] at isCandidate
  have cpuEps : 0 < resourceCpuRateEps := by norm_num [resourceCpuRateEps]
  have netEps : 0 < resourceNetRateEps := by norm_num [resourceNetRateEps]
  rcases isCandidate with (isCpu | isRx) | isTx
  · exact use.cpu_used.le_candidate member cpuEps within.1 within.2.le le isCpu
  · exact use.rx_used.le_candidate member netEps within.1 within.2.le le isRx
  · exact use.tx_used.le_candidate member netEps within.1 within.2.le le isTx

end Used

/-! ## One poll -/

section Step

variable {samples : List SourceSample} {sample : SourceSample}
  {use : SourceUse samples} {clock : VirtualClock} {poll next : Poll}

theorem wallDt_counters (use : SourceUse samples)
    (le : poll.elapsed ≤ next.elapsed) :
    (use.counters poll).wallDt (use.counters next) =
      next.elapsed - poll.elapsed := by
  rw [ResourceCounters.wallDt]
  change max 0 (use.began + next.elapsed - (use.began + poll.elapsed)) = _
  rw [add_sub_add_left_eq_sub, max_eq_right (sub_nonneg.mpr le)]

/-- From the end of the profile on, a poll leaves virtual time there. -/
theorem level_after_end
    (after : ∀ last, samples.getLast? = some last → last.stop ≤ poll.elapsed)
    (nonneg : 0 ≤ poll.elapsed) (level : clock.Level samples poll)
    (le : poll.elapsed ≤ next.elapsed) :
    (clock.poll samples (use.counters next)).Level samples next := by
  have atEnd : profileEnd samples ≤ poll.elapsed := by
    rw [profileEnd]
    cases isLast : samples.getLast? with
    | none => exact nonneg
    | some last => exact after last isLast
  rw [VirtualClock.Level, min_eq_right atEnd, min_eq_right_iff] at level
  have grows : 0 ≤ clock.progress samples (use.counters next) :=
    increment_nonneg (wallDt_nonneg _ _)
  rw [VirtualClock.Level, min_eq_right (atEnd.trans le), min_eq_right_iff]
  exact level.trans (le_add_of_nonneg_right grows)

/-- A poll within a sample, at the virtual time that has elapsed. -/
theorem virtualTime_poll
    (follow : Follow SourceSample.start SourceSample.stop 0 samples)
    (member : sample ∈ samples)
    (within : Within SourceSample.start SourceSample.stop poll.elapsed sample)
    (same : clock.virtualTime = poll.elapsed)
    (read : clock.lastCounters = use.counters poll)
    (le : poll.elapsed ≤ next.elapsed) :
    (clock.poll samples (use.counters next)).virtualTime =
      min next.elapsed sample.stop := by
  have candidates := use.candidates member within le
  change clock.virtualTime + clock.progress samples (use.counters next) = _
  rw [VirtualClock.progress, same, read, wallDt_counters use le]
  rcases le.eq_or_lt with equal | before
  · rw [resourceProgressIncrement, if_pos (by linarith), add_zero, ← equal,
      min_eq_left within.2.le]
  · have positive := sub_pos.mpr before
    rw [increment_within follow member within positive]
    rcases le_or_gt next.elapsed sample.stop with inside | outside
    · rw [progress_eq positive.le fun candidate isCandidate =>
        (candidates candidate isCandidate).2 inside,
        min_eq_left (sub_le_sub_right inside _), add_sub_cancel,
        min_eq_left inside]
    · have left : sample.stop - poll.elapsed ≤ sample.progress
          (next.elapsed - poll.elapsed)
          ((use.counters poll).deltas (use.counters next)) := by
        refine le_progress (fun candidate isCandidate => ?_)
          (sub_le_sub_right outside.le _)
        have least := (candidates candidate isCandidate).1
        rwa [min_eq_right outside.le] at least
      rw [min_eq_right left, add_sub_cancel, min_eq_right outside.le]

/-- A poll leaves virtual time level just if it crosses no end. -/
theorem level_poll_iff
    (follow : Follow SourceSample.start SourceSample.stop 0 samples)
    (nonneg : 0 ≤ poll.elapsed) (level : clock.Level samples poll)
    (read : clock.lastCounters = use.counters poll)
    (le : poll.elapsed ≤ next.elapsed) :
    (clock.poll samples (use.counters next)).Level samples next ↔
      CrossesNoEnd samples poll next := by
  rcases within_or_after follow nonneg with ⟨sample, member, within⟩ | after
  · obtain ⟨last, isLast⟩ : ∃ last, samples.getLast? = some last :=
      Option.isSome_iff_exists.mp (List.getLast?_isSome.mpr
        (List.ne_nil_of_mem member))
    have isEnd : profileEnd samples = last.stop := by
      rw [profileEnd, isLast]
      rfl
    have stopLe := follow.stop_le_last member isLast
    have inside := within.2.trans_le stopLe
    have same : clock.virtualTime = poll.elapsed := by
      rw [VirtualClock.Level, isEnd, min_eq_left inside.le] at level
      rcases min_choice clock.virtualTime last.stop with isVirtual | isStop
      · exact isVirtual.symm.trans level
      · rw [isStop] at level
        exact absurd level inside.ne'
    rw [VirtualClock.Level, virtualTime_poll follow member within same read le,
      CrossesNoEnd, isEnd]
    constructor
    · intro isLevel other isOther inner crossed
      have first := follow.stop_le member within isOther crossed
      by_contra beyond
      rw [not_le] at beyond
      rw [min_eq_right (first.trans beyond.le), min_eq_left stopLe] at isLevel
      have : other.stop < min next.elapsed last.stop := lt_min beyond inner
      exact absurd first (not_le.mpr (isLevel ▸ this))
    · intro crossesNone
      rcases stopLe.eq_or_lt with isLastStop | inner
      · rw [isLastStop, min_assoc, min_self]
      · rw [min_eq_left (crossesNone sample member inner within.2)]
  · have isLevel : (clock.poll samples (use.counters next)).Level samples next :=
      level_after_end after nonneg level le
    refine iff_of_true isLevel fun other isOther _ crossed => ?_
    obtain ⟨last, isLast⟩ : ∃ last, samples.getLast? = some last :=
      Option.isSome_iff_exists.mp (List.getLast?_isSome.mpr
        (List.ne_nil_of_mem isOther))
    exact absurd crossed (not_lt.mpr
      ((follow.stop_le_last isOther isLast).trans (after last isLast)))

end Step

/-! ## All polls -/

/-- What holds of every beginning of a list that is not empty. -/
theorem forall_prefix_cons {α : Type} {head : α} {rest : List α}
    {property : List α → Prop} :
    (∀ done, done <+: head :: rest → property done) ↔
      property [] ∧ ∀ done, done <+: rest → property (head :: done) := by
  constructor
  · intro all
    exact ⟨all [] List.nil_prefix, fun done isFront =>
      all (head :: done) (List.cons_prefix_cons.mpr ⟨rfl, isFront⟩)⟩
  · rintro ⟨none, some⟩ done isFront
    rcases List.prefix_cons_iff.mp isFront with rfl | ⟨tail, rfl, inRest⟩
    · exact none
    · exact some tail inRest

theorem level_polls_iff {samples : List SourceSample}
    {use : SourceUse samples}
    (follow : Follow SourceSample.start SourceSample.stop 0 samples)
    {clock : VirtualClock} {poll : Poll} {polls : List Poll}
    (nonneg : 0 ≤ poll.elapsed) (level : clock.Level samples poll)
    (read : clock.lastCounters = use.counters poll)
    (inOrder : List.IsChain (fun poll next : Poll =>
      poll.elapsed ≤ next.elapsed) (poll :: polls)) :
    (∀ done, done <+: polls →
        (use.clockAfter clock done).Level samples (done.getLastD poll)) ↔
      List.IsChain (CrossesNoEnd samples) (poll :: polls) := by
  induction polls generalizing clock poll with
  | nil =>
      refine iff_of_true (fun done isFront => ?_) (List.isChain_singleton poll)
      rw [List.prefix_nil.mp isFront]
      exact level
  | cons next rest induction =>
      rw [List.isChain_cons_cons] at inOrder ⊢
      have step := level_poll_iff follow nonneg level read inOrder.1
      have goOn (isLevel : (clock.poll samples (use.counters next)).Level
          samples next) :=
        induction (nonneg.trans inOrder.1) isLevel rfl inOrder.2
      have isFirst :
          (∀ done, done <+: next :: rest →
            (use.clockAfter clock done).Level samples (done.getLastD poll)) ↔
          ∀ done, done <+: rest →
            (use.clockAfter (clock.poll samples (use.counters next))
              done).Level samples (done.getLastD next) := by
        rw [forall_prefix_cons]
        refine and_iff_right_iff_imp.mpr (fun _ => level) |>.trans ?_
        refine forall_congr' fun done => forall_congr' fun _ => ?_
        rw [List.getLastD_cons]
        rfl
      rw [isFirst]
      constructor
      · intro all
        have isLevel := all [] List.nil_prefix
        exact ⟨step.mp isLevel, (goOn isLevel).mp all⟩
      · rintro ⟨crossesNone, later⟩
        exact (goOn (step.mpr crossesNone)).mpr later

/-- Two samples of a second, with one core in use. -/
def twoSeconds : Option SourceTimeline :=
  some ⟨some 1, some [some ⟨some 1, some 1, none, none⟩,
    some ⟨some 1, some 1, none, none⟩]⟩

theorem usedAtRate_of_samples {timeline : Option SourceTimeline}
    {rate : SourceSample → ℚ} {cores : ℚ} (nonneg : 0 ≤ cores)
    (all : ∀ sample ∈ resourceSourceSamples timeline, rate sample = cores) :
    UsedAtRate (resourceSourceSamples timeline) rate (cores * ·) where
  mono _ _ le := mul_le_mul_of_nonneg_left le nonneg
  exact sample member t u _ _ _ := by
    rw [all sample member, mul_sub]

/-- A command that uses one core all the time. -/
def oneCore : SourceUse (resourceSourceSamples twoSeconds) where
  began := 0
  cpu := (1 * ·)
  rx := (0 * ·)
  tx := (0 * ·)
  cpu_used := usedAtRate_of_samples (by norm_num) (by decide +kernel)
  rx_used := usedAtRate_of_samples le_rfl (by decide +kernel)
  tx_used := usedAtRate_of_samples le_rfl (by decide +kernel)

/-- A poll after one and a half seconds. -/
def latePoll : Polling where
  start := ⟨0, true, true, true⟩
  polls := [⟨3 / 2, true, true, true⟩]
  at_start := rfl
  in_order := by
    rw [List.isChain_pair]
    norm_num

end AgentSchedBench.Replay
