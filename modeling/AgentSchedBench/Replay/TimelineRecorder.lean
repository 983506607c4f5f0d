import AgentSchedBench.Library.MissingValues
import AgentSchedBench.Library.Rounding
import AgentSchedBench.Replay.VirtualTime
import Mathlib.Data.Rat.Floor

/-!
# The recorder of resources

While a tool runs, the recorder keeps what each interval between two readings
has used.  An interval without a counter at both of its ends is not kept, and
the next one is measured from its end.  The agent of the replay lays what was
kept end to end.
-/

namespace AgentSchedBench.Replay

open MissingValues Rounding

/-! ## Readings and deltas -/

/-- A reading of the counters.  The CPU usage is read in microseconds. -/
structure ResourceReading where
  monotonic : ℚ
  cpuUsageUsec : Option ℤ
  netRxBytes : Option ℤ
  netTxBytes : Option ℤ
  cpuQuotaCores : Option ℚ

/-- `cpu_usage_s` -/
def ResourceReading.cpuUsage (reading : ResourceReading) : Option ℚ :=
  reading.cpuUsageUsec.map fun usec : ℤ => (usec : ℚ) / 10 ^ 6

/-- What a counter has gone up. -/
def counterIncrease {α : Type} [Zero α] [Sub α] [Max α] :
    Option α → Option α → Option α
  | some previous, some current => some (max 0 (current - previous))
  | _, _ => none

structure ResourceDelta where
  offset : ℚ
  dt : ℚ
  cpuCore : Option ℚ
  netRxBytes : Option ℤ
  netTxBytes : Option ℤ
  cpuQuotaCores : Option ℚ

/-- A sample of a timeline. -/
structure RecordedSample where
  offset : ℚ
  dt : ℚ
  cpuCore : Option ℚ
  netRxBytes : Option ℤ
  netTxBytes : Option ℤ
  cpuQuotaCores : Option ℚ
  cpuOpportunityCore : Option ℚ

/-- `to_dict` -/
def ResourceDelta.toDict (delta : ResourceDelta) : RecordedSample where
  offset := roundTo 6 delta.offset
  dt := roundTo 6 delta.dt
  cpuCore := delta.cpuCore.map (roundTo 6)
  netRxBytes := delta.netRxBytes
  netTxBytes := delta.netTxBytes
  cpuQuotaCores := delta.cpuQuotaCores.map (roundTo 6)
  cpuOpportunityCore :=
    delta.cpuQuotaCores.map fun quota => roundTo 6 (quota * delta.dt)

/-- `resource_delta` -/
def resourceDelta (previous current : ResourceReading) : Option ResourceDelta :=
  let dt := current.monotonic - previous.monotonic
  if dt ≤ 0 then none
  else
    let cpuCore := counterIncrease previous.cpuUsage current.cpuUsage
    let netRxBytes := counterIncrease previous.netRxBytes current.netRxBytes
    let netTxBytes := counterIncrease previous.netTxBytes current.netTxBytes
    if cpuCore.isNone ∧ netRxBytes.isNone ∧ netTxBytes.isNone then none
    else
      some {
        offset := current.monotonic
        dt
        cpuCore
        netRxBytes
        netTxBytes
        cpuQuotaCores := current.cpuQuotaCores }

/-! ## The recorder -/

structure TimelineRecorder where
  sampleInterval : ℚ
  scope : String
  startedAtMonotonic : ℚ
  lastReading : ResourceReading
  samples : List ResourceDelta

/-- `__aenter__` -/
def TimelineRecorder.enter (sampleInterval : ℚ) (scope : String)
    (initial : ResourceReading) : TimelineRecorder where
  sampleInterval
  scope
  startedAtMonotonic := initial.monotonic
  lastReading := initial
  samples := []

/-- `_append_current_delta`, with the reading that it makes -/
def TimelineRecorder.appendCurrentDelta (recorder : TimelineRecorder)
    (current : ResourceReading) : TimelineRecorder :=
  match resourceDelta recorder.lastReading current with
  | none => { recorder with lastReading := current }
  | some delta =>
      { recorder with
        lastReading := current
        samples := recorder.samples ++
          [{ delta with
             offset := current.monotonic - recorder.startedAtMonotonic }] }

structure TimelineSummary where
  sampleCount : ℕ
  wall : ℚ
  cpuCore : ℚ
  netRxBytes : ℤ
  netTxBytes : ℤ

structure ResourceTimeline where
  version : ℕ
  source : String
  scope : String
  sampleInterval : ℚ
  samples : List RecordedSample
  summary : TimelineSummary

/-- `to_trace_dict` -/
def TimelineRecorder.toTraceDict (recorder : TimelineRecorder) :
    Option ResourceTimeline :=
  if recorder.samples.isEmpty then none
  else
    let samples := recorder.samples.map ResourceDelta.toDict
    some {
      version := 1
      source := "cgroup_cpu_proc_net"
      scope := recorder.scope
      sampleInterval := recorder.sampleInterval
      samples
      summary := {
        sampleCount := samples.length
        wall := roundTo 6 (samples.map RecordedSample.dt).sum
        cpuCore :=
          roundTo 6 (samples.map fun sample => sample.cpuCore.getD 0).sum
        netRxBytes := (samples.map fun sample => sample.netRxBytes.getD 0).sum
        netTxBytes :=
          (samples.map fun sample => sample.netTxBytes.getD 0).sum } }

/-- The sample as the agent reads it. -/
def RecordedSample.raw (sample : RecordedSample) : RawSourceSample where
  dt := some sample.dt
  cpuCore := sample.cpuCore
  netRxBytes := sample.netRxBytes.map fun bytes : ℤ => (bytes : ℚ)
  netTxBytes := sample.netTxBytes.map fun bytes : ℤ => (bytes : ℚ)

/-- The timeline as the agent reads it. -/
def ResourceTimeline.asSource (timeline : ResourceTimeline) : SourceTimeline where
  version := some timeline.version
  samples := some (timeline.samples.map fun sample => some sample.raw)

/-- The profile of what was recorded. -/
def TimelineRecorder.profile (recorder : TimelineRecorder) : List SourceSample :=
  resourceSourceSamples (recorder.toTraceDict.map ResourceTimeline.asSource)

/-! ## Counters -/

inductive Counter where
  | cpu
  | netRx
  | netTx

def ResourceReading.counter (reading : ResourceReading) : Counter → Option ℚ
  | .cpu => reading.cpuUsage
  | .netRx => reading.netRxBytes.map fun bytes : ℤ => (bytes : ℚ)
  | .netTx => reading.netTxBytes.map fun bytes : ℤ => (bytes : ℚ)

def RecordedSample.counter (sample : RecordedSample) : Counter → Option ℚ
  | .cpu => sample.cpuCore
  | .netRx => sample.netRxBytes.map fun bytes : ℤ => (bytes : ℚ)
  | .netTx => sample.netTxBytes.map fun bytes : ℤ => (bytes : ℚ)

/-- The sum of what was recorded of a counter. -/
def recordedSum (counter : Counter) (samples : List RecordedSample) : ℚ :=
  (samples.map fun sample => (sample.counter counter).getD 0).sum

/-! ## What is asked of a recording -/

/-- The delta as the agent would read it without rounding. -/
def ResourceDelta.exact (delta : ResourceDelta) : RawSourceSample where
  dt := some delta.dt
  cpuCore := delta.cpuCore
  netRxBytes := delta.netRxBytes.map fun bytes : ℤ => (bytes : ℚ)
  netTxBytes := delta.netTxBytes.map fun bytes : ℤ => (bytes : ℚ)

/-- The sample begins where its interval did. -/
def InPlace (delta : ResourceDelta) (sample : SourceSample) : Prop :=
  sample.start = delta.offset - delta.dt ∧ sample.stop = delta.offset

/-- The sample begins where its interval did, up to the rounding of so many
recorded numbers. -/
def NearPlace (numbers : ℕ) (recorded : RecordedSample) (sample : SourceSample) :
    Prop :=
  |sample.start - (recorded.offset - recorded.dt)| ≤ numbers * (1 / 2 / 10 ^ 6)

/-- Each recorded sample is put where it was measured, and the recorded deltas
of a counter sum up to what it has gone up. -/
structure TimelineRecorder.RebuiltFrom (recorder : TimelineRecorder)
    (initial : ResourceReading) (readings : List ResourceReading) : Prop where
  placed : List.Forall₂ InPlace recorder.samples
    (sourceSamplesFrom 0 (recorder.samples.map fun delta => some delta.exact))
  rounded : List.Forall₂ (NearPlace (recorder.samples.length + 1))
    (recorder.samples.map ResourceDelta.toDict) recorder.profile
  summed : ∀ counter,
    ∀ bottom ∈ ((initial :: readings).map fun reading =>
        reading.counter counter).reduceOption.head?,
      ∀ top ∈ ((initial :: readings).map fun reading =>
          reading.counter counter).reduceOption.getLast?,
        recordedSum counter (recorder.samples.map ResourceDelta.toDict) =
          top - bottom

/-- The intervals between the readings. -/
def intervals (initial : ResourceReading) (readings : List ResourceReading) :
    List (ResourceReading × ResourceReading) :=
  (initial :: readings).zip readings

/-- The interval has a counter at both of its ends. -/
def isMeasured (interval : ResourceReading × ResourceReading) : Bool :=
  (resourceDelta interval.1 interval.2).isSome

/-- No interval without a counter comes before one that has one, none of these
is too short for its length to be recorded, and no counter has gone up while it
was missing. -/
structure Unbroken (initial : ResourceReading)
    (readings : List ResourceReading) : Prop where
  measured : (intervals initial readings).Pairwise fun earlier later =>
    isMeasured later = true → isMeasured earlier = true
  resolved : ∀ interval ∈ intervals initial readings,
    isMeasured interval = true →
      1 / 2 / 10 ^ 6 < interval.2.monotonic - interval.1.monotonic
  still : ∀ counter,
    Still ((initial :: readings).map fun reading => reading.counter counter)

/-! ## The run of the recorder -/

/-- The deltas of the intervals from a reading on. -/
def deltasFrom (started : ℚ) (previous : ResourceReading) :
    List ResourceReading → List ResourceDelta
  | [] => []
  | current :: rest =>
      match resourceDelta previous current with
      | none => deltasFrom started current rest
      | some delta =>
          { delta with offset := current.monotonic - started } ::
            deltasFrom started current rest

theorem samples_appendAll (recorder : TimelineRecorder)
    (readings : List ResourceReading) :
    (readings.foldl TimelineRecorder.appendCurrentDelta recorder).samples =
      recorder.samples ++
        deltasFrom recorder.startedAtMonotonic recorder.lastReading readings := by
  induction readings generalizing recorder with
  | nil => exact (List.append_nil _).symm
  | cons current rest induction =>
      rw [List.foldl_cons, induction, TimelineRecorder.appendCurrentDelta, deltasFrom]
      cases resourceDelta recorder.lastReading current with
      | none => rfl
      | some delta =>
          dsimp only
          rw [List.append_assoc, List.singleton_append]

/-- The profile is that of the samples. -/
theorem profile_eq (recorder : TimelineRecorder) :
    recorder.profile =
      sourceSamplesFrom 0
        (recorder.samples.map fun delta => some delta.toDict.raw) := by
  rw [TimelineRecorder.profile, TimelineRecorder.toTraceDict]
  cases recorder.samples with
  | nil => rfl
  | cons delta deltas =>
      rw [List.isEmpty_cons, if_neg Bool.false_ne_true]
      simp [resourceSourceSamples, ResourceTimeline.asSource, Function.comp_def]

section Counters

variable {previous current : Option ℤ}

theorem missing_of_isNone {α : Type} [Zero α] [Sub α] [Max α]
    {previous current : Option α}
    (away : (counterIncrease previous current).isNone = true) :
    previous = none ∨ current = none := by
  cases previous with
  | none => exact Or.inl rfl
  | some previous =>
      cases current with
      | none => exact Or.inr rfl
      | some current => cases away

theorem change_eq_zero {α : Type} [Zero α] [Sub α] {previous current : Option α}
    (away : previous = none ∨ current = none) : change previous current = 0 := by
  rcases away with rfl | rfl
  · rfl
  · cases previous <;> rfl

theorem increase_bytes
    (up : ∀ bottom ∈ previous, ∀ top ∈ current, bottom ≤ top) :
    ((counterIncrease previous current).map fun bytes : ℤ => (bytes : ℚ)).getD 0 =
      change (previous.map fun bytes : ℤ => (bytes : ℚ))
        (current.map fun bytes : ℤ => (bytes : ℚ)) := by
  cases previous with
  | none => rfl
  | some previous =>
      cases current with
      | none => rfl
      | some current =>
          have nonneg := sub_nonneg.mpr (up previous rfl current rfl)
          simp [counterIncrease, change, max_eq_right nonneg]

/-- Microseconds are kept by the rounding. -/
theorem increase_usec
    (up : ∀ bottom ∈ previous, ∀ top ∈ current, bottom ≤ top) :
    ((counterIncrease (previous.map fun usec : ℤ => (usec : ℚ) / 10 ^ 6)
        (current.map fun usec : ℤ => (usec : ℚ) / 10 ^ 6)).map (roundTo 6)).getD 0 =
      change (previous.map fun usec : ℤ => (usec : ℚ) / 10 ^ 6)
        (current.map fun usec : ℤ => (usec : ℚ) / 10 ^ 6) := by
  cases previous with
  | none => rfl
  | some previous =>
      cases current with
      | none => rfl
      | some current =>
          have le : (previous : ℚ) ≤ current :=
            Int.cast_le.mpr (up previous rfl current rfl)
          have whole : (current : ℚ) / 10 ^ 6 - previous / 10 ^ 6 =
              ((current - previous : ℤ) : ℚ) / 10 ^ 6 := by
            push_cast
            ring
          have nonneg : 0 ≤ ((current - previous : ℤ) : ℚ) / 10 ^ 6 := by
            push_cast
            exact div_nonneg (sub_nonneg.mpr le) (by positivity)
          simp only [Option.map_some, counterIncrease, change, whole,
            max_eq_right nonneg, roundTo_intCast_div, Option.getD_some]

end Counters

section Delta

variable {previous current : ResourceReading} {delta : ResourceDelta}
  {counter : Counter} {started : ℚ}

theorem dt_of_resourceDelta (isDelta : resourceDelta previous current = some delta) :
    delta.dt = current.monotonic - previous.monotonic ∧ 0 < delta.dt := by
  rw [resourceDelta] at isDelta
  dsimp only at isDelta
  split at isDelta
  · cases isDelta
  · next positive =>
      split at isDelta
      · cases isDelta
      · cases isDelta
        exact ⟨rfl, not_le.mp positive⟩

/-- What is recorded of a counter is the change that is seen. -/
theorem counter_toDict
    (up : ∀ bottom ∈ previous.counter counter, ∀ top ∈ current.counter counter,
      bottom ≤ top)
    (isDelta : resourceDelta previous current = some delta) :
    (({ delta with offset := started } : ResourceDelta).toDict.counter
        counter).getD 0 =
      change (previous.counter counter) (current.counter counter) := by
  rw [resourceDelta] at isDelta
  dsimp only at isDelta
  split at isDelta
  · cases isDelta
  · split at isDelta
    · cases isDelta
    · cases isDelta
      cases counter with
      | cpu =>
          refine increase_usec fun bottom isBottom top isTop => ?_
          have le := up _ (Option.mem_map_of_mem _ isBottom) _
            (Option.mem_map_of_mem _ isTop)
          rw [div_le_div_iff_of_pos_right (by positivity)] at le
          exact Int.cast_le.mp le
      | netRx | netTx =>
          exact increase_bytes fun bottom isBottom top isTop =>
            Int.cast_le.mp (up _ (Option.mem_map_of_mem _ isBottom) _
              (Option.mem_map_of_mem _ isTop))

/-- An interval that is not recorded shows no change. -/
theorem change_of_not_measured (later : previous.monotonic < current.monotonic)
    (notMeasured : resourceDelta previous current = none) :
    change (previous.counter counter) (current.counter counter) = 0 := by
  rw [resourceDelta] at notMeasured
  dsimp only at notMeasured
  rw [if_neg (not_le.mpr (sub_pos.mpr later))] at notMeasured
  split at notMeasured
  · next away =>
      obtain ⟨cpu, netRx, netTx⟩ := away
      cases counter with
      | cpu => exact change_eq_zero (missing_of_isNone cpu)
      | netRx =>
          exact change_eq_zero ((missing_of_isNone netRx).imp
            (Option.map_eq_none_iff.mpr) (Option.map_eq_none_iff.mpr))
      | netTx =>
          exact change_eq_zero ((missing_of_isNone netTx).imp
            (Option.map_eq_none_iff.mpr) (Option.map_eq_none_iff.mpr))
  · cases notMeasured

end Delta

/-! ## Intervals -/

section Intervals

variable {started : ℚ} {initial previous current : ResourceReading}
  {readings rest : List ResourceReading}

/-- Each reading is made after the one before. -/
def Increasing (readings : List ResourceReading) : Prop :=
  readings.Pairwise fun earlier later => earlier.monotonic < later.monotonic

instance (readings : List ResourceReading) : Decidable (Increasing readings) :=
  inferInstanceAs (Decidable (List.Pairwise _ _))

/-- A counter does not go down. -/
def NonDecreasing (counter : Counter) (readings : List ResourceReading) : Prop :=
  (readings.map fun reading => reading.counter counter).reduceOption.Pairwise (· ≤ ·)

instance (counter : Counter) (readings : List ResourceReading) :
    Decidable (NonDecreasing counter readings) :=
  inferInstanceAs (Decidable (List.Pairwise _ _))

theorem intervals_nil : intervals previous [] = [] := rfl

theorem intervals_cons :
    intervals previous (current :: rest) =
      (previous, current) :: intervals current rest := rfl

theorem deltasFrom_of_none (isDelta : resourceDelta previous current = none) :
    deltasFrom started previous (current :: rest) =
      deltasFrom started current rest := by
  rw [deltasFrom, isDelta]

theorem deltasFrom_of_some {delta : ResourceDelta}
    (isDelta : resourceDelta previous current = some delta) :
    deltasFrom started previous (current :: rest) =
      { delta with offset := current.monotonic - started } ::
        deltasFrom started current rest := by
  rw [deltasFrom, isDelta]

theorem isMeasured_of_none (isDelta : resourceDelta previous current = none) :
    isMeasured (previous, current) = false := by
  rw [isMeasured, isDelta, Option.isSome_none]

theorem isMeasured_of_some {delta : ResourceDelta}
    (isDelta : resourceDelta previous current = some delta) :
    isMeasured (previous, current) = true := by
  rw [isMeasured, isDelta, Option.isSome_some]

/-- The deltas are those of the measured intervals. -/
theorem deltasFrom_eq_nil_iff :
    deltasFrom started previous readings = [] ↔
      ∀ interval ∈ intervals previous readings, isMeasured interval = false := by
  induction readings generalizing previous with
  | nil =>
      rw [intervals_nil]
      exact iff_of_true rfl (List.forall_mem_nil _)
  | cons current rest induction =>
      rw [intervals_cons, List.forall_mem_cons]
      cases isDelta : resourceDelta previous current with
      | none =>
          rw [deltasFrom_of_none isDelta, isMeasured_of_none isDelta, induction]
          exact (and_iff_right rfl).symm
      | some delta =>
          rw [deltasFrom_of_some isDelta, isMeasured_of_some isDelta]
          exact ⟨nofun, nofun⟩

/-- The interval of a delta is not before the readings. -/
theorem le_of_mem_deltasFrom (increasing : Increasing (previous :: readings))
    {delta : ResourceDelta} (member : delta ∈ deltasFrom started previous readings) :
    previous.monotonic - started ≤ delta.offset - delta.dt := by
  induction readings generalizing previous with
  | nil => cases member
  | cons current rest induction =>
      obtain ⟨first, later⟩ := List.pairwise_cons.mp increasing
      have le := (first current List.mem_cons_self).le
      have inRest (inTail : delta ∈ deltasFrom started current rest) :
          previous.monotonic - started ≤ delta.offset - delta.dt :=
        (sub_le_sub_right le started).trans (induction later inTail)
      cases isDelta : resourceDelta previous current with
      | none =>
          rw [deltasFrom_of_none isDelta] at member
          exact inRest member
      | some head =>
          rw [deltasFrom_of_some isDelta] at member
          rcases List.mem_cons.mp member with rfl | inTail
          · dsimp only
            rw [(dt_of_resourceDelta isDelta).1]
            linarith
          · exact inRest inTail

/-- The lengths of the deltas are those of the measured intervals. -/
theorem forall_dt_iff (started : ℚ) (holds : ℚ → Prop) :
    (∀ delta ∈ deltasFrom started previous readings, holds delta.dt) ↔
      ∀ interval ∈ intervals previous readings, isMeasured interval = true →
        holds (interval.2.monotonic - interval.1.monotonic) := by
  induction readings generalizing previous with
  | nil =>
      rw [intervals_nil]
      exact iff_of_true (List.forall_mem_nil _) (List.forall_mem_nil _)
  | cons current rest induction =>
      rw [intervals_cons, List.forall_mem_cons, ← induction]
      cases isDelta : resourceDelta previous current with
      | none =>
          rw [deltasFrom_of_none isDelta, isMeasured_of_none isDelta]
          exact (and_iff_right nofun).symm
      | some delta =>
          rw [deltasFrom_of_some isDelta, isMeasured_of_some isDelta,
            List.forall_mem_cons, (dt_of_resourceDelta isDelta).1]
          exact and_congr_left fun _ => ⟨fun here _ => here, fun here => here rfl⟩

theorem dt_pos_of_mem {delta : ResourceDelta}
    (member : delta ∈ deltasFrom started previous readings) : 0 < delta.dt := by
  refine (forall_dt_iff started (0 < ·)).mpr ?_ delta member
  intro interval _ measured
  obtain ⟨delta, isDelta⟩ := Option.isSome_iff_exists.mp measured
  obtain ⟨isDt, positive⟩ := dt_of_resourceDelta isDelta
  exact isDt ▸ positive

/-- The profile of a sample that takes some time, and of those after it. -/
theorem sourceSamplesFrom_cons (raw : RawSourceSample) {dt : ℚ}
    (isDt : raw.dt = some dt) (positive : 0 < dt) (offset : ℚ)
    (raws : List (Option RawSourceSample)) :
    ∃ sample, sourceSamplesFrom offset (some raw :: raws) =
        sample :: sourceSamplesFrom (offset + dt) raws ∧
      sample.start = offset ∧ sample.stop = offset + dt := by
  have isNumber : nonnegativeFloat raw.dt = dt := by
    rw [isDt, nonnegativeFloat, if_neg positive.not_gt]
  rw [sourceSamplesFrom, isNumber]
  exact ⟨_, if_neg (not_le.mpr positive), rfl, rfl⟩

/-- Deltas are not laid out in place from a point before their intervals. -/
theorem eq_nil_of_placed_before (increasing : Increasing (current :: rest))
    (before : previous.monotonic < current.monotonic)
    (placed : List.Forall₂ InPlace (deltasFrom started current rest)
      (sourceSamplesFrom (previous.monotonic - started)
        ((deltasFrom started current rest).map fun delta => some delta.exact))) :
    deltasFrom started current rest = [] := by
  cases isDeltas : deltasFrom started current rest with
  | nil => rfl
  | cons delta deltas =>
      have member : delta ∈ deltasFrom started current rest := by
        rw [isDeltas]
        exact List.mem_cons_self
      have le := le_of_mem_deltasFrom increasing member
      have positive := dt_pos_of_mem member
      obtain ⟨sample, isSample, isStart, -⟩ :=
        sourceSamplesFrom_cons delta.exact rfl positive
          (previous.monotonic - started)
          (deltas.map fun delta => some delta.exact)
      rw [isDeltas, List.map_cons, isSample, List.forall₂_cons] at placed
      have start : previous.monotonic - started = delta.offset - delta.dt :=
        isStart.symm.trans placed.1.1
      linarith

/-- The deltas are laid out in place if and only if no interval that was not
kept is before one that was. -/
theorem placed_iff (started : ℚ) (increasing : Increasing (previous :: readings)) :
    List.Forall₂ InPlace (deltasFrom started previous readings)
        (sourceSamplesFrom (previous.monotonic - started)
          ((deltasFrom started previous readings).map fun delta =>
            some delta.exact)) ↔
      (intervals previous readings).Pairwise fun earlier later =>
        isMeasured later = true → isMeasured earlier = true := by
  induction readings generalizing previous with
  | nil => exact ⟨fun _ => List.Pairwise.nil, fun _ => List.Forall₂.nil⟩
  | cons current rest induction =>
      obtain ⟨first, later⟩ := List.pairwise_cons.mp increasing
      rw [intervals_cons, List.pairwise_cons, ← induction later]
      cases isDelta : resourceDelta previous current with
      | some delta =>
          obtain ⟨isDt, positive⟩ := dt_of_resourceDelta isDelta
          have follows :
              previous.monotonic - started + delta.dt =
                current.monotonic - started := by
            rw [isDt]
            ring
          have begins :
              previous.monotonic - started =
                current.monotonic - started - delta.dt := by
            rw [isDt]
            ring
          rw [deltasFrom_of_some isDelta, List.map_cons]
          obtain ⟨sample, isSample, isStart, isStop⟩ :=
            sourceSamplesFrom_cons
              ({ delta with
                offset := current.monotonic - started } : ResourceDelta).exact
              rfl positive (previous.monotonic - started)
              ((deltasFrom started current rest).map fun delta => some delta.exact)
          rw [isSample, List.forall₂_cons, follows]
          refine and_congr_left fun _ =>
            ⟨fun _ _ _ _ => isMeasured_of_some isDelta, fun _ => ?_⟩
          exact ⟨isStart.trans begins, isStop.trans follows⟩
      | none =>
          have nothing :
              deltasFrom started current rest = [] ↔
                ∀ interval ∈ intervals current rest,
                  isMeasured interval = true →
                    isMeasured (previous, current) = true := by
            rw [deltasFrom_eq_nil_iff, isMeasured_of_none isDelta]
            exact forall₂_congr fun _ _ => by rw [Bool.eq_false_iff]; simp
          rw [← nothing, deltasFrom_of_none isDelta]
          constructor
          · intro placed
            have empty : deltasFrom started current rest = [] :=
              eq_nil_of_placed_before later (first current List.mem_cons_self) placed
            rw [empty]
            exact ⟨rfl, List.Forall₂.nil⟩
          · rintro ⟨empty, _⟩
            rw [empty]
            exact List.Forall₂.nil

/-! ## Sums -/

/-- A counter that does not go down does not go down at the first interval, and
not after it. -/
theorem NonDecreasing.first {counter : Counter}
    (nonDecreasing : NonDecreasing counter (previous :: current :: rest)) :
    (∀ bottom ∈ previous.counter counter, ∀ top ∈ current.counter counter,
        bottom ≤ top) ∧
      NonDecreasing counter (current :: rest) := by
  rw [NonDecreasing, List.map_cons] at nonDecreasing
  cases isPrevious : previous.counter counter with
  | none =>
      rw [isPrevious, List.reduceOption_cons_of_none] at nonDecreasing
      exact ⟨nofun, nonDecreasing⟩
  | some bottom =>
      rw [isPrevious, List.reduceOption_cons_of_some, List.pairwise_cons]
        at nonDecreasing
      obtain ⟨le, later⟩ := nonDecreasing
      refine ⟨?_, later⟩
      rintro _ ⟨⟩ top isTop
      refine le top ?_
      rw [List.map_cons, Option.mem_def.mp isTop, List.reduceOption_cons_of_some]
      exact List.mem_cons_self

/-- What is recorded of a counter are the changes that are seen. -/
theorem recordedSum_deltasFrom (started : ℚ) {counter : Counter}
    (increasing : Increasing (previous :: readings))
    (nonDecreasing : NonDecreasing counter (previous :: readings)) :
    recordedSum counter
        ((deltasFrom started previous readings).map ResourceDelta.toDict) =
      seenChange (previous.counter counter)
        (readings.map fun reading => reading.counter counter) := by
  induction readings generalizing previous with
  | nil => rfl
  | cons current rest induction =>
      obtain ⟨first, laterIncreasing⟩ := List.pairwise_cons.mp increasing
      obtain ⟨up, laterNonDecreasing⟩ := nonDecreasing.first
      rw [List.map_cons, seenChange,
        ← induction laterIncreasing laterNonDecreasing]
      cases isDelta : resourceDelta previous current with
      | none =>
          rw [deltasFrom_of_none isDelta,
            change_of_not_measured (first current List.mem_cons_self) isDelta,
            zero_add]
      | some delta =>
          rw [deltasFrom_of_some isDelta, List.map_cons, recordedSum, List.map_cons,
            List.sum_cons, counter_toDict up isDelta, recordedSum]

end Intervals

/-! ## Rounding -/

theorem nonnegativeFloat_pos_iff {number : ℚ} :
    0 < nonnegativeFloat (some number) ↔ 0 < number := by
  rw [nonnegativeFloat]
  split
  · next negative => exact iff_of_false (lt_irrefl 0) negative.not_gt
  · exact Iff.rfl

theorem length_sourceSamplesFrom_le (offset : ℚ)
    (raws : List (Option RawSourceSample)) :
    (sourceSamplesFrom offset raws).length ≤ raws.length := by
  induction raws generalizing offset with
  | nil => exact le_rfl
  | cons raw rest induction =>
      cases raw with
      | none => exact (induction offset).trans (Nat.le_succ _)
      | some raw =>
          rw [sourceSamplesFrom]
          split
          · exact (induction offset).trans (Nat.le_succ _)
          · exact Nat.succ_le_succ (induction _)

/-- A profile that has a sample for each recorded one has skipped none. -/
theorem pos_of_length {offset : ℚ} {raws : List (Option RawSourceSample)}
    (same : (sourceSamplesFrom offset raws).length = raws.length) :
    ∀ raw, some raw ∈ raws → 0 < nonnegativeFloat raw.dt := by
  induction raws generalizing offset with
  | nil => exact nofun
  | cons head rest induction =>
      have atMost := length_sourceSamplesFrom_le offset rest
      intro raw member
      cases head with
      | none =>
          rw [sourceSamplesFrom, List.length_cons] at same
          omega
      | some head =>
          rw [sourceSamplesFrom] at same
          split at same
          · rw [List.length_cons] at same
            omega
          · next positive =>
              rcases List.mem_cons.mp member with here | inRest
              · cases here
                exact not_le.mp positive
              · exact induction (Nat.succ_injective same) raw inRest

/-- Deltas that are in place stay there when they are rounded: each number that
is used is off by half a unit. -/
theorem rounded_of_placed (used : ℕ) {deltas : List ResourceDelta}
    {offset begins : ℚ} {numbers : ℕ}
    (placed : List.Forall₂ InPlace deltas
      (sourceSamplesFrom offset (deltas.map fun delta => some delta.exact)))
    (resolved : ∀ delta ∈ deltas, 1 / 2 / 10 ^ 6 < delta.dt)
    (near : |begins - offset| ≤ used * (1 / 2 / 10 ^ 6))
    (enough : used + deltas.length + 1 ≤ numbers) :
    List.Forall₂ (NearPlace numbers) (deltas.map ResourceDelta.toDict)
      (sourceSamplesFrom begins
        (deltas.map fun delta => some delta.toDict.raw)) := by
  induction deltas generalizing used offset begins with
  | nil => exact List.Forall₂.nil
  | cons delta deltas induction =>
      obtain ⟨long, resolved⟩ := List.forall_mem_cons.mp resolved
      have positive : 0 < delta.dt := lt_trans (by positivity) long
      obtain ⟨exactSample, isExact, exactStart, -⟩ :=
        sourceSamplesFrom_cons delta.exact rfl positive offset
          (deltas.map fun delta => some delta.exact)
      obtain ⟨sample, isSample, isStart, -⟩ :=
        sourceSamplesFrom_cons delta.toDict.raw rfl
          (roundTo_pos_iff.mpr long) begins
          (deltas.map fun delta => some delta.toDict.raw)
      rw [List.map_cons, isExact, List.forall₂_cons, InPlace, exactStart] at placed
      obtain ⟨⟨isOffset, -⟩, placed⟩ := placed
      have dtNear := abs_le.mp (abs_roundTo_sub_le 6 delta.dt)
      have offsetNear := abs_le.mp (abs_roundTo_sub_le 6 delta.offset)
      have beginsNear := abs_le.mp near
      rw [List.length_cons] at enough
      rw [List.map_cons, List.map_cons, isSample, List.forall₂_cons]
      constructor
      · have usedLe : ((used + 2 : ℕ) : ℚ) ≤ numbers := Nat.cast_le.mpr (by omega)
        push_cast at usedLe
        rw [NearPlace, isStart, ResourceDelta.toDict, abs_le]
        constructor <;> linarith
      · refine induction (used + 1) placed resolved ?_ (by omega)
        push_cast
        rw [ResourceDelta.toDict, abs_le]
        constructor <;> linarith

/-! ## What a recording keeps -/

/-- A timeline is rebuilt in place if and only if its readings are unbroken. -/
theorem rebuiltFrom_iff (sampleInterval : ℚ) (scope : String)
    {initial : ResourceReading} {readings : List ResourceReading}
    (increasing : Increasing (initial :: readings))
    (nonDecreasing : ∀ counter, NonDecreasing counter (initial :: readings)) :
    (readings.foldl TimelineRecorder.appendCurrentDelta
        (TimelineRecorder.enter sampleInterval scope initial)).RebuiltFrom
          initial readings ↔
      Unbroken initial readings := by
  generalize isRecorder : readings.foldl TimelineRecorder.appendCurrentDelta
    (TimelineRecorder.enter sampleInterval scope initial) = recorder
  have isSamples :
      recorder.samples = deltasFrom initial.monotonic initial readings := by
    rw [← isRecorder, samples_appendAll]
    rfl
  have placed := placed_iff initial.monotonic increasing
  have resolved :
      (∀ delta ∈ deltasFrom initial.monotonic initial readings,
          1 / 2 / 10 ^ 6 < delta.dt) ↔ _ :=
    forall_dt_iff initial.monotonic (1 / 2 / 10 ^ 6 < ·)
  have summed (counter : Counter) :=
    recordedSum_deltasFrom initial.monotonic increasing
      (nonDecreasing counter)
  rw [sub_self, ← isSamples] at placed
  rw [← isSamples] at resolved summed
  constructor
  · intro rebuilt
    refine ⟨placed.mp rebuilt.placed, resolved.mp ?_, ?_⟩
    · intro delta member
      have same := rebuilt.rounded.length_eq
      rw [profile_eq, List.length_map] at same
      have positive := pos_of_length (same.symm.trans (List.length_map _).symm)
        delta.toDict.raw (List.mem_map_of_mem member)
      exact roundTo_pos_iff.mp (nonnegativeFloat_pos_iff.mp positive)
    · intro counter
      refine (seenChange_eq_iff (nonDecreasing counter)).mp ?_
      rw [← summed counter]
      exact rebuilt.summed counter
  · intro unbroken
    have inPlace := placed.mpr unbroken.measured
    refine ⟨inPlace, ?_, ?_⟩
    · rw [profile_eq]
      refine rounded_of_placed 0 inPlace
        (resolved.mpr unbroken.resolved) ?_ (by omega)
      simp
    · intro counter
      rw [summed counter]
      exact (seenChange_eq_iff (nonDecreasing counter)).mpr (unbroken.still counter)

/-- A reading of the CPU usage only. -/
def usageReading (monotonic : ℚ) (cpuUsageUsec : Option ℤ) : ResourceReading where
  monotonic
  cpuUsageUsec
  netRxBytes := none
  netTxBytes := none
  cpuQuotaCores := none

/-- Readings without a gap are rebuilt. -/
theorem usageReadings_rebuilt :
    ([usageReading 11 (some 500000), usageReading 12 (some 700000)].foldl
        TimelineRecorder.appendCurrentDelta
        (TimelineRecorder.enter 1 "cgroup_interval"
          (usageReading 10 (some 200000)))).RebuiltFrom
      (usageReading 10 (some 200000))
      [usageReading 11 (some 500000), usageReading 12 (some 700000)] := by
  refine (rebuiltFrom_iff 1 "cgroup_interval" ?_ ?_).mpr ⟨?_, ?_, ?_⟩
  · decide +kernel
  · intro counter
    cases counter <;> decide +kernel
  · decide +kernel
  · decide +kernel
  · intro counter
    cases counter <;>
      simp [Still, StillFrom, usageReading, ResourceReading.counter,
        ResourceReading.cpuUsage]

/-- The recorder of a run in which one reading of the usage failed. -/
def brokenRecorder : TimelineRecorder :=
  [usageReading 11 (some 500000), usageReading 12 none,
      usageReading 13 (some 900000), usageReading 14 (some 1000000)].foldl
    TimelineRecorder.appendCurrentDelta
    (TimelineRecorder.enter 1 "cgroup_interval" (usageReading 10 (some 200000)))

/-- After a reading that failed, the profile is two seconds early, and what was
used around it is not recorded. -/
theorem brokenRecorder_not_rebuilt :
    Increasing [usageReading 10 (some 200000), usageReading 11 (some 500000),
        usageReading 12 none, usageReading 13 (some 900000),
        usageReading 14 (some 1000000)] ∧
      (∀ counter, NonDecreasing counter
        [usageReading 10 (some 200000), usageReading 11 (some 500000),
          usageReading 12 none, usageReading 13 (some 900000),
          usageReading 14 (some 1000000)]) ∧
      brokenRecorder.samples.map (fun delta => delta.offset - delta.dt) = [0, 3] ∧
      brokenRecorder.profile.map SourceSample.start = [0, 1] ∧
      recordedSum .cpu (brokenRecorder.samples.map ResourceDelta.toDict) = 4 / 10 ∧
      ¬ brokenRecorder.RebuiltFrom (usageReading 10 (some 200000))
        [usageReading 11 (some 500000), usageReading 12 none,
          usageReading 13 (some 900000), usageReading 14 (some 1000000)] := by
  have isSum :
      recordedSum .cpu (brokenRecorder.samples.map ResourceDelta.toDict) =
        4 / 10 := by
    decide +kernel
  refine ⟨?_, ?_, by decide +kernel, by decide +kernel, isSum, ?_⟩
  · decide +kernel
  · intro counter
    cases counter <;> decide +kernel
  · intro rebuilt
    have sum := rebuilt.summed .cpu (200000 / 10 ^ 6) rfl (1000000 / 10 ^ 6) rfl
    rw [isSum] at sum
    norm_num at sum

end AgentSchedBench.Replay
