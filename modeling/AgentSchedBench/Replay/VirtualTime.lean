import AgentSchedBench.Library.Spans
import Mathlib.Algebra.Order.Field.Basic
import Mathlib.Algebra.Order.Ring.Rat
import Mathlib.Tactic.Linarith

/-!
# Virtual time

A command is replayed beside a timeline of the resources that it used when it
was recorded.  Each poll turns what the command has used since the last one
into time of the source, at the rates of the sample that the virtual time is
in.  A poll does not go beyond the end of that sample: what has been used
beyond it is not carried over to the next one.
-/

namespace AgentSchedBench.Replay

open Spans

/-! ## The profile of the source -/

/-- A sample of a recorded timeline; a field that is no number is missing. -/
structure RawSourceSample where
  dt : Option ℚ
  cpuCore : Option ℚ
  netRxBytes : Option ℚ
  netTxBytes : Option ℚ

/-- A recorded timeline; an item of its list that is no object is missing. -/
structure SourceTimeline where
  version : Option ℚ
  samples : Option (List (Option RawSourceSample))

/-- `_nonnegative_float` -/
def nonnegativeFloat : Option ℚ → ℚ
  | none => 0
  | some number => if number < 0 then 0 else number

/-- A sample with its rates. -/
structure SourceSample where
  start : ℚ
  stop : ℚ
  cpuRateCore : ℚ
  rxRateBps : ℚ
  txRateBps : ℚ
deriving DecidableEq

/-- The loop over the samples of a timeline. -/
def sourceSamplesFrom (offset : ℚ) :
    List (Option RawSourceSample) → List SourceSample
  | [] => []
  | none :: rest => sourceSamplesFrom offset rest
  | some raw :: rest =>
      let dt := nonnegativeFloat raw.dt
      if dt ≤ 0 then sourceSamplesFrom offset rest
      else
        { start := offset
          stop := offset + dt
          cpuRateCore := nonnegativeFloat raw.cpuCore / dt
          rxRateBps := nonnegativeFloat raw.netRxBytes / dt
          txRateBps := nonnegativeFloat raw.netTxBytes / dt } ::
          sourceSamplesFrom (offset + dt) rest

/-- `_resource_source_samples` -/
def resourceSourceSamples : Option SourceTimeline → List SourceSample
  | none => []
  | some timeline =>
      if timeline.version = some 1 then
        sourceSamplesFrom 0 (timeline.samples.getD [])
      else []

/-- `_resource_sample_at` -/
def resourceSampleAt (samples : List SourceSample) (virtualTime : ℚ) :
    Option SourceSample :=
  (spanAt SourceSample.start SourceSample.stop virtualTime samples).or
    samples.getLast?

/-- `_RESOURCE_CPU_RATE_EPS_CORE` -/
def resourceCpuRateEps : ℚ := 5 / 100

/-- `_RESOURCE_NET_RATE_EPS_BPS` -/
def resourceNetRateEps : ℚ := 1024

/-! ## Counters -/

/-- The counters that `_read_resource_counters` reads. -/
structure ResourceCounters where
  time : ℚ
  cpuUsage : Option ℚ
  rxBytes : Option ℚ
  txBytes : Option ℚ

/-- `_counter_delta` -/
def counterDelta : Option ℚ → Option ℚ → Option ℚ
  | some previous, some current => some (max 0 (current - previous))
  | _, _ => none

/-- The deltas of a poll. -/
structure ResourceDeltas where
  cpuCore : Option ℚ
  rxBytes : Option ℚ
  txBytes : Option ℚ

def ResourceCounters.deltas (last current : ResourceCounters) :
    ResourceDeltas where
  cpuCore := counterDelta last.cpuUsage current.cpuUsage
  rxBytes := counterDelta last.rxBytes current.rxBytes
  txBytes := counterDelta last.txBytes current.txBytes

/-- `wall_dt_s` -/
def ResourceCounters.wallDt (last current : ResourceCounters) : ℚ :=
  max 0 (current.time - last.time)

/-! ## A step of the virtual time -/

/-- What a counter adds to the candidates. -/
def rateCandidate (rate eps : ℚ) (used : Option ℚ) : Option ℚ :=
  if eps ≤ rate then used.map (· / rate) else none

/-- The candidates in their order. -/
def SourceSample.candidates (sample : SourceSample)
    (deltas : ResourceDeltas) : List ℚ :=
  (rateCandidate sample.cpuRateCore resourceCpuRateEps deltas.cpuCore).toList ++
    (rateCandidate sample.rxRateBps resourceNetRateEps deltas.rxBytes).toList ++
    (rateCandidate sample.txRateBps resourceNetRateEps deltas.txBytes).toList

/-- `progress_s`, before it is cut at the end of the sample -/
def SourceSample.progress (sample : SourceSample) (wallDt : ℚ)
    (deltas : ResourceDeltas) : ℚ :=
  match (sample.candidates deltas).min? with
  | none => wallDt
  | some least => max 0 least

/-- `_resource_progress_increment` -/
def resourceProgressIncrement (samples : List SourceSample)
    (virtualTime wallDt : ℚ) (deltas : ResourceDeltas) : ℚ :=
  if wallDt ≤ 0 then 0
  else
    match samples.getLast? with
    | none => wallDt
    | some last =>
        if last.stop ≤ virtualTime then wallDt
        else
          match resourceSampleAt samples virtualTime with
          | none => wallDt
          | some sample =>
              min (sample.progress wallDt deltas)
                (max 0 (sample.stop - virtualTime))

/-- What the polls keep. -/
structure VirtualClock where
  virtualTime : ℚ
  lastCounters : ResourceCounters

/-- The clock when the process has been started. -/
def VirtualClock.begin (counters : ResourceCounters) : VirtualClock where
  virtualTime := 0
  lastCounters := counters

/-- The progress at a poll. -/
def VirtualClock.progress (samples : List SourceSample) (clock : VirtualClock)
    (current : ResourceCounters) : ℚ :=
  resourceProgressIncrement samples clock.virtualTime
    (clock.lastCounters.wallDt current) (clock.lastCounters.deltas current)

/-- The clock after a poll. -/
def VirtualClock.poll (samples : List SourceSample) (clock : VirtualClock)
    (current : ResourceCounters) : VirtualClock where
  virtualTime := clock.virtualTime + clock.progress samples current
  lastCounters := current

/-! ## Steps -/

/-- Samples of a timeline follow each other. -/
theorem follow_sourceSamplesFrom (offset : ℚ)
    (raws : List (Option RawSourceSample)) :
    Follow SourceSample.start SourceSample.stop offset
      (sourceSamplesFrom offset raws) := by
  induction raws generalizing offset with
  | nil => exact trivial
  | cons raw rest induction =>
      cases raw with
      | none => exact induction offset
      | some raw =>
          rw [sourceSamplesFrom]
          split
          · exact induction offset
          · next positive =>
              rw [not_le] at positive
              exact ⟨rfl, lt_add_of_pos_right offset positive, induction _⟩

theorem follow_resourceSourceSamples (timeline : Option SourceTimeline) :
    Follow SourceSample.start SourceSample.stop 0
      (resourceSourceSamples timeline) := by
  match timeline with
  | none => exact trivial
  | some timeline =>
      rw [resourceSourceSamples]
      split
      · exact follow_sourceSamplesFrom 0 _
      · exact trivial

theorem wallDt_nonneg (last current : ResourceCounters) :
    0 ≤ last.wallDt current := le_max_left _ _

theorem progress_nonneg (sample : SourceSample) {wallDt : ℚ}
    (nonneg : 0 ≤ wallDt) (deltas : ResourceDeltas) :
    0 ≤ sample.progress wallDt deltas := by
  rw [SourceSample.progress]
  split
  · exact nonneg
  · exact le_max_left _ _

section Increment

variable {samples : List SourceSample} {sample : SourceSample}
  {virtualTime wallDt : ℚ} {deltas : ResourceDeltas}

/-- Before the end of the profile, a step is made in the sample of its
beginning. -/
theorem increment_within
    (follow : Follow SourceSample.start SourceSample.stop 0 samples)
    (member : sample ∈ samples)
    (within : Within SourceSample.start SourceSample.stop virtualTime sample)
    (positive : 0 < wallDt) :
    resourceProgressIncrement samples virtualTime wallDt deltas =
      min (sample.progress wallDt deltas) (sample.stop - virtualTime) := by
  obtain ⟨last, isLast⟩ : ∃ last, samples.getLast? = some last :=
    Option.isSome_iff_exists.mp (List.getLast?_isSome.mpr
      (List.ne_nil_of_mem member))
  have before : virtualTime < last.stop :=
    within.2.trans_le (follow.stop_le_last member isLast)
  rw [resourceProgressIncrement, if_neg (not_le.mpr positive), isLast]
  dsimp only
  rw [if_neg (not_le.mpr before), resourceSampleAt,
    follow.spanAt_eq member within]
  dsimp only [Option.some_or]
  rw [max_eq_right (sub_nonneg.mpr within.2.le)]

/-- From the end of the profile on, virtual time goes with the wall. -/
theorem increment_after
    (after : ∀ last, samples.getLast? = some last → last.stop ≤ virtualTime)
    (nonneg : 0 ≤ wallDt) :
    resourceProgressIncrement samples virtualTime wallDt deltas = wallDt := by
  rw [resourceProgressIncrement]
  split
  · next zero => exact le_antisymm nonneg zero
  · split
    · rfl
    · next last isLast => rw [if_pos (after last isLast)]

/-- A point is within a sample, or no sample stops after it. -/
theorem within_or_after
    (follow : Follow SourceSample.start SourceSample.stop 0 samples)
    (nonneg : 0 ≤ virtualTime) :
    (∃ sample ∈ samples,
      Within SourceSample.start SourceSample.stop virtualTime sample) ∨
      ∀ last, samples.getLast? = some last → last.stop ≤ virtualTime := by
  by_cases after : ∀ last, samples.getLast? = some last → last.stop ≤ virtualTime
  · exact Or.inr after
  · push Not at after
    obtain ⟨last, isLast, before⟩ := after
    obtain ⟨sample, isAt⟩ := follow.exists_spanAt nonneg isLast before
    exact Or.inl ⟨sample, within_of_spanAt isAt⟩

/-- Virtual time does not go back. -/
theorem increment_nonneg (nonneg : 0 ≤ wallDt) :
    0 ≤ resourceProgressIncrement samples virtualTime wallDt deltas := by
  rw [resourceProgressIncrement]
  split
  · exact le_rfl
  · split
    · exact nonneg
    · split
      · exact nonneg
      · split
        · exact nonneg
        · next sample _ =>
            exact le_min (progress_nonneg sample nonneg deltas)
              (le_max_left _ _)

/-- A step that begins within a sample does not go beyond its end. -/
theorem add_increment_le_stop
    (follow : Follow SourceSample.start SourceSample.stop 0 samples)
    (member : sample ∈ samples)
    (within : Within SourceSample.start SourceSample.stop virtualTime sample)
    (nonneg : 0 ≤ wallDt) :
    virtualTime + resourceProgressIncrement samples virtualTime wallDt deltas ≤
      sample.stop := by
  rcases nonneg.eq_or_lt with zero | positive
  · rw [resourceProgressIncrement, if_pos zero.ge, add_zero]
    exact within.2.le
  · rw [increment_within follow member within positive]
    have := min_le_right (sample.progress wallDt deltas)
      (sample.stop - virtualTime)
    linarith

end Increment

end AgentSchedBench.Replay
