import AgentSchedBench.Library.Counters
import AgentSchedBench.Library.Decimals
import AgentSchedBench.Trace.Files
import Mathlib.Algebra.Order.Field.Basic
import Mathlib.Data.Rat.Cast.Order

/-!
# Cumulative counters of samples

One sampler keeps the counts of processes that have ended, or the highest sum
that it has seen.  The other one sums over the processes that are there, so
its counters go back when one of them ends.
-/

namespace AgentSchedBench.Harness

open AgentSchedBench.Trace (Text strip)
open Counters Decimals JsonText

/-! ## Samples and their summary -/

/-- The cumulative fields of a sample. -/
structure Sample where
  diskReadBytes : Option Nat
  diskWriteBytes : Option Nat
  contextSwitches : Option Nat
  netRxBytes : Option ℚ
  netTxBytes : Option ℚ

/-- `_delta` -/
def delta : List ℚ → ℚ
  | [] | [_] => 0
  | first :: second :: rest => (second :: rest).getLastD second - first

/-- The deltas of a summary. -/
structure SummaryDeltas where
  diskReadMb : ℚ
  diskWriteMb : ℚ
  netRxMb : ℚ
  netTxMb : ℚ
  contextSwitches : ℚ

/-- The deltas that `summarize_samples` derives. -/
def summarizeSamples (samples : List Sample) : SummaryDeltas where
  diskReadMb :=
    delta <| (samples.filterMap Sample.diskReadBytes).map fun bytes : Nat =>
      (bytes : ℚ) / (1024 * 1024)
  diskWriteMb :=
    delta <| (samples.filterMap Sample.diskWriteBytes).map fun bytes : Nat =>
      (bytes : ℚ) / (1024 * 1024)
  netRxMb :=
    delta <| (samples.filterMap Sample.netRxBytes).map (· / 1000000)
  netTxMb :=
    delta <| (samples.filterMap Sample.netTxBytes).map (· / 1000000)
  contextSwitches :=
    delta <| (samples.filterMap Sample.contextSwitches).map fun count : Nat =>
      (count : ℚ)

/-! ## Printed totals -/

/-- `_units` -/
def sizeUnits : List (Text × ℚ) :=
  [("TiB".toList, 1024 ^ 4), ("GiB".toList, 1024 ^ 3),
    ("MiB".toList, 1024 ^ 2), ("KiB".toList, 1024), ("TB".toList, 10 ^ 12),
    ("GB".toList, 10 ^ 9), ("MB".toList, 10 ^ 6), ("KB".toList, 10 ^ 3),
    ("kB".toList, 10 ^ 3), ("B".toList, 1)]

/-- `float(text)` for digits, with a point or without one -/
def parseFloat (text : Text) : Option ℚ :=
  let whole := text.takeWhile Char.isDigit
  match text.dropWhile Char.isDigit with
  | [] => if whole = [] then none else some (decimalValue whole)
  | '.' :: fraction =>
      if fraction.all Char.isDigit ∧ (whole ≠ [] ∨ fraction ≠ []) then
        some (decimalValue whole + decimalValue fraction / 10 ^ fraction.length)
      else none
  | _ => none

/-- `_parse_size_bytes` -/
def parseSizeBytes (text : Text) : Option ℚ :=
  let text := strip text
  match sizeUnits.find? fun unit => unit.1.isSuffixOf text with
  | none => none
  | some (unit, multiplier) =>
      (parseFloat (strip (text.take (text.length - unit.length)))).map
        (· * multiplier)

/-- `_parse_net_io_bytes` -/
def parseNetIoBytes (netIo : Text) : Option ℚ × Option ℚ :=
  match netIo.dropWhile (· ≠ '/') with
  | [] => (none, none)
  | _ :: transmitted =>
      (parseSizeBytes (strip (netIo.takeWhile (· ≠ '/'))),
        parseSizeBytes (strip transmitted))

/-- A total as it is printed: digits, some behind a point, and a unit. -/
structure PrintedSize where
  whole : Text
  fraction : Text
  unit : Text × ℚ
  whole_ne_nil : whole ≠ []
  whole_isDigit : ∀ char ∈ whole, char.isDigit = true
  fraction_isDigit : ∀ char ∈ fraction, char.isDigit = true
  isUnit : unit ∈ sizeUnits

namespace PrintedSize

def number (size : PrintedSize) : Text :=
  size.whole ++ if size.fraction = [] then [] else '.' :: size.fraction

def text (size : PrintedSize) : Text := size.number ++ size.unit.1

/-- The bytes that a total stands for. -/
def bytes (size : PrintedSize) : ℚ :=
  (decimalValue size.whole +
    decimalValue size.fraction / 10 ^ size.fraction.length) * size.unit.2

end PrintedSize

/-- The network totals of a container, or none. -/
abbrev NetTotals := Option (PrintedSize × PrintedSize)

def NetTotals.text : NetTotals → Text
  | none => "-- / --".toList
  | some (received, transmitted) =>
      received.text ++ " / ".toList ++ transmitted.text

namespace PrintedSize

variable (size : PrintedSize)

theorem isSpace_of_isDigit {char : Char} (isDigit : char.isDigit = true) :
    Agent.isSpace char = false := by
  have bounds := digit_bounds isDigit
  simp only [Agent.isSpace, List.contains_eq_mem, List.mem_cons, List.not_mem_nil,
    or_false, Bool.or_eq_false_iff, Bool.and_eq_false_iff, decide_eq_false_iff_not]
  omega

/-- The digits of a number up to its last one. -/
theorem number_eq :
    ∃ front last, size.number = front ++ [last] ∧ last.isDigit = true := by
  rw [number]
  split
  · refine ⟨_, _, by rw [List.append_nil,
      List.dropLast_append_getLast size.whole_ne_nil], ?_⟩
    exact size.whole_isDigit _ (List.getLast_mem _)
  · next notEmpty =>
      refine ⟨size.whole ++ '.' :: size.fraction.dropLast,
        size.fraction.getLast notEmpty, ?_,
        size.fraction_isDigit _ (List.getLast_mem _)⟩
      rw [List.append_assoc, List.cons_append, List.dropLast_append_getLast]

theorem parseFloat_number :
    parseFloat size.number =
      some (decimalValue size.whole +
        decimalValue size.fraction / 10 ^ size.fraction.length : ℚ) := by
  rw [number]
  by_cases isEmpty : size.fraction = []
  · rw [if_pos isEmpty, parseFloat,
      List.takeWhile_append_of_pos size.whole_isDigit,
      List.dropWhile_append_of_pos size.whole_isDigit, List.takeWhile_nil,
      List.dropWhile_nil, List.append_nil]
    dsimp only
    rw [if_neg size.whole_ne_nil, isEmpty]
    simp [decimalValue]
  · have noDigit : Char.isDigit '.' = false := rfl
    rw [if_neg isEmpty, parseFloat,
      List.takeWhile_append_of_pos size.whole_isDigit,
      List.dropWhile_append_of_pos size.whole_isDigit, List.takeWhile_cons,
      List.dropWhile_cons, noDigit]
    rw [if_neg Bool.false_ne_true, if_neg Bool.false_ne_true,
      List.append_nil]
    exact if_pos
      ⟨List.all_eq_true.mpr size.fraction_isDigit, Or.inr isEmpty⟩

/-- The unit of a text is the one behind its last digit. -/
theorem find_unit {front : Text} {last : Char} (isDigit : last.isDigit = true)
    {unit : Text × ℚ} (isUnit : unit ∈ sizeUnits) :
    (sizeUnits.find? fun other =>
        other.1.isSuffixOf (front ++ [last] ++ unit.1)) = some unit := by
  have notLetter : ∀ letter ∈ ['i', 'T', 'G', 'M', 'K', 'k'],
      (letter == last) = false := by
    intro letter member
    rw [beq_eq_false_iff_ne]
    rintro rfl
    simp only [List.mem_cons, List.not_mem_nil, or_false] at member
    rcases member with rfl | rfl | rfl | rfl | rfl | rfl <;>
      exact absurd isDigit Bool.false_ne_true
  simp only [List.forall_mem_cons] at notLetter
  simp only [sizeUnits, List.mem_cons, List.not_mem_nil, or_false] at isUnit
  rcases isUnit with rfl | rfl | rfl | rfl | rfl | rfl | rfl | rfl | rfl | rfl <;>
    simp [sizeUnits, List.isSuffixOf, List.isPrefixOf, notLetter]

theorem head_number :
    ∀ char ∈ size.number.head?, Agent.isSpace char = false := by
  intro char isHead
  rw [number, List.head?_append_of_ne_nil _ size.whole_ne_nil] at isHead
  exact isSpace_of_isDigit
    (size.whole_isDigit char (List.mem_of_mem_head? isHead))

theorem strip_number : strip size.number = size.number := by
  refine Trace.strip_eq_self size.head_number ?_
  obtain ⟨front, last, same, isDigit⟩ := size.number_eq
  rw [same, List.getLast?_concat]
  rintro _ ⟨⟩
  exact isSpace_of_isDigit isDigit

/-- A unit ends in `B`, and has no blanks or slashes. -/
theorem unit_plain {unit : Text × ℚ} (isUnit : unit ∈ sizeUnits) :
    unit.1.getLast? = some 'B' ∧ '/' ∉ unit.1 := by
  simp only [sizeUnits, List.mem_cons, List.not_mem_nil, or_false] at isUnit
  rcases isUnit with rfl | rfl | rfl | rfl | rfl | rfl | rfl | rfl | rfl | rfl <;>
    decide

theorem text_ends :
    (∀ char ∈ size.text.head?, Agent.isSpace char = false) ∧
      size.text.getLast? = some 'B' := by
  obtain ⟨front, last, same, -⟩ := size.number_eq
  have notEmpty : size.number ≠ [] := by
    rw [same]
    exact List.append_ne_nil_of_right_ne_nil _ (List.cons_ne_nil _ _)
  constructor
  · rw [text, List.head?_append_of_ne_nil _ notEmpty]
    exact size.head_number
  · rw [text, List.getLast?_append, (unit_plain size.isUnit).1,
      Option.some_or]

theorem strip_text : strip size.text = size.text := by
  refine Trace.strip_eq_self size.text_ends.1 ?_
  rw [size.text_ends.2]
  rintro _ ⟨⟩
  decide

/-- A printed total is read as what it stands for. -/
theorem parseSizeBytes_text : parseSizeBytes size.text = some size.bytes := by
  obtain ⟨front, last, same, isDigit⟩ := size.number_eq
  have isUnit :
      (sizeUnits.find? fun unit => unit.1.isSuffixOf size.text) =
        some size.unit := by
    rw [text, same]
    exact find_unit isDigit size.isUnit
  rw [parseSizeBytes, strip_text, isUnit]
  dsimp only
  rw [text, List.length_append, Nat.add_sub_cancel, List.take_left,
    strip_number, parseFloat_number, Option.map_some, bytes]

theorem slash_notMem_text : '/' ∉ size.text := by
  rw [text, number, List.mem_append, List.mem_append, not_or, not_or]
  refine ⟨⟨fun member => ?_, ?_⟩, (unit_plain size.isUnit).2⟩
  · exact absurd (size.whole_isDigit _ member) (by decide)
  · split
    · exact List.not_mem_nil
    · rw [List.mem_cons, not_or]
      exact ⟨by decide, fun member =>
        absurd (size.fraction_isDigit _ member) (by decide)⟩

end PrintedSize

/-- A blank before a text is stripped. -/
theorem strip_blank (text : Text) : strip (' ' :: text) = strip text := by
  rw [strip, List.dropWhile_cons_of_pos (by decide)]
  rfl

theorem parseNetIoBytes_text (totals : NetTotals) :
    parseNetIoBytes totals.text =
      (totals.map fun printed => printed.1.bytes,
        totals.map fun printed => printed.2.bytes) := by
  match totals with
  | none => decide
  | some (received, transmitted) =>
      have plain (size : PrintedSize) :
          strip (size.text ++ [' ']) = size.text ∧
            strip (' ' :: size.text) = size.text := by
        obtain ⟨front, back⟩ := size.text_ends
        rw [strip_blank, size.strip_text]
        refine ⟨Trace.strip_concat (by decide) front ?_, rfl⟩
        rw [back]
        rintro _ ⟨⟩
        decide
      have noSlash : ∀ char ∈ received.text ++ [' '],
          decide (char ≠ '/') = true := by
        intro char member
        rw [decide_eq_true_eq]
        rintro rfl
        rcases List.mem_append.mp member with inText | inBlank
        · exact received.slash_notMem_text inText
        · exact absurd inBlank (by decide)
      have parts :
          NetTotals.text (some (received, transmitted)) =
            (received.text ++ [' ']) ++ '/' :: ' ' :: transmitted.text := by
        rw [NetTotals.text, List.append_assoc, List.append_assoc]
        rfl
      rw [parseNetIoBytes, parts, List.takeWhile_append_of_pos noSlash,
        List.dropWhile_append_of_pos noSlash]
      change
        (parseSizeBytes (strip (received.text ++ [' '] ++ [])),
          parseSizeBytes (strip (' ' :: transmitted.text))) = _
      rw [List.append_nil, (plain received).1, (plain transmitted).2,
        PrintedSize.parseSizeBytes_text, PrintedSize.parseSizeBytes_text]
      rfl

/-! ## The sampler of a container -/

structure IoTotals where
  readBytes : Nat
  writeBytes : Nat

/-- Where the sampler reads disk counters; it is chosen once. -/
inductive IoMode where
  | cgroup
  | exec

/-- What is read of a process of the cgroup. -/
structure PidReading where
  pid : Nat
  starttime : Option Nat
  contextSwitches : Option Nat

/-- What a sample of a container meets with. -/
structure ContainerTick where
  cgroupIo : Option IoTotals
  pids : List PidReading
  execIo : Option IoTotals
  execContextSwitches : Option Nat
  net : NetTotals

/-- The state of `ContainerStatsSampler`; context switches are kept by the id
and the start of a process. -/
structure ContainerState where
  pidCtxt : List (Reading (Nat × Nat))
  ioHwmRead : Nat
  ioHwmWrite : Nat

def ContainerState.start : ContainerState := ⟨[], 0, 0⟩

/-- `self._pid_ctxt.get(key, 0)` -/
def ContainerState.count (state : ContainerState) (key : Nat × Nat) : Nat :=
  ((state.pidCtxt.find? (·.1 = key)).map Prod.snd).getD 0

def PidReading.reading (process : PidReading) : Option (Reading (Nat × Nat)) :=
  match process.starttime, process.contextSwitches with
  | some starttime, some count => some ((process.pid, starttime), count)
  | _, _ => none

/-- The context switches of a tick that are recorded, and whether they are
shown. -/
def ContainerState.recorded (state : ContainerState) (mode : IoMode)
    (tick : ContainerTick) : List (Reading (Nat × Nat)) × Bool :=
  match mode with
  | .cgroup =>
      let table :=
        recordAll state.pidCtxt (tick.pids.filterMap PidReading.reading)
      (table, !tick.pids.isEmpty && !table.isEmpty)
  | .exec =>
      match tick.execContextSwitches with
      | none => (state.pidCtxt, false)
      | some count =>
          (record state.pidCtxt
            ((0, 0), max (state.count (0, 0)) count), true)

/-- `_sample_io` -/
def ContainerState.sampleIo (mode : IoMode) (state : ContainerState)
    (tick : ContainerTick) : ContainerState × Sample :=
  let (pidCtxt, shows) := state.recorded mode tick
  let ioData :=
    match mode with
    | .cgroup => tick.cgroupIo
    | .exec => tick.execIo
  let (hwmRead, hwmWrite) :=
    match mode, ioData with
    | .exec, some io =>
        (max state.ioHwmRead io.readBytes, max state.ioHwmWrite io.writeBytes)
    | _, _ => (state.ioHwmRead, state.ioHwmWrite)
  let net := parseNetIoBytes tick.net.text
  (⟨pidCtxt, hwmRead, hwmWrite⟩,
    { diskReadBytes :=
        match mode with
        | .cgroup => ioData.map IoTotals.readBytes
        | .exec => ioData.map fun _ => hwmRead
      diskWriteBytes :=
        match mode with
        | .cgroup => ioData.map IoTotals.writeBytes
        | .exec => ioData.map fun _ => hwmWrite
      contextSwitches := if shows then some (total pidCtxt) else none
      netRxBytes := net.1
      netTxBytes := net.2 })

/-- The samples of a run of the sampler. -/
def containerSamples (mode : IoMode) (ticks : List ContainerTick) :
    List Sample :=
  outputs (ContainerState.sampleIo mode) .start ticks

/-! ## The sampler of a process -/

/-- What is read of a process that is there; it is known by its id and its
start. -/
structure ProcessReading where
  process : Nat × Nat
  io : Option IoTotals
  contextSwitches : Option Nat

/-- What a sample of a process meets with: what `psutil` reads of it and of
its descendants, if it can, and what `/proc` gives of the process itself. -/
structure ProcessTick where
  psutil : Option (List ProcessReading)
  process : Nat × Nat
  procIo : Option IoTotals
  procContextSwitches : Option Nat

/-- `_sample_with_psutil` -/
def sampleWithPsutil (processes : List ProcessReading) : Sample :=
  let io := processes.filterMap ProcessReading.io
  let contextSwitches := processes.filterMap ProcessReading.contextSwitches
  { diskReadBytes :=
      if io = [] then none else some (io.map IoTotals.readBytes).sum
    diskWriteBytes :=
      if io = [] then none else some (io.map IoTotals.writeBytes).sum
    contextSwitches :=
      if contextSwitches = [] then none else some contextSwitches.sum
    netRxBytes := none
    netTxBytes := none }

/-- `_collect_sample` -/
def collectSample (tick : ProcessTick) : Sample :=
  let sample :=
    match tick.psutil with
    | some processes => sampleWithPsutil processes
    | none => ⟨none, none, none, none, none⟩
  let noDisk := sample.diskReadBytes.isNone && sample.diskWriteBytes.isNone
  { sample with
    diskReadBytes :=
      if noDisk then tick.procIo.map IoTotals.readBytes
      else sample.diskReadBytes
    diskWriteBytes :=
      if noDisk then tick.procIo.map IoTotals.writeBytes
      else sample.diskWriteBytes
    contextSwitches := sample.contextSwitches.or tick.procContextSwitches }

/-! ## Counters that do not go back -/

/-- No cumulative field of a sample is lower than in one before. -/
structure NonDecreasing (samples : List Sample) : Prop where
  diskRead : (samples.filterMap Sample.diskReadBytes).Pairwise (· ≤ ·)
  diskWrite : (samples.filterMap Sample.diskWriteBytes).Pairwise (· ≤ ·)
  contextSwitches : (samples.filterMap Sample.contextSwitches).Pairwise (· ≤ ·)
  netRx : (samples.filterMap Sample.netRxBytes).Pairwise (· ≤ ·)
  netTx : (samples.filterMap Sample.netTxBytes).Pairwise (· ≤ ·)

structure SummaryDeltas.NonNegative (deltas : SummaryDeltas) : Prop where
  diskRead : 0 ≤ deltas.diskReadMb
  diskWrite : 0 ≤ deltas.diskWriteMb
  netRx : 0 ≤ deltas.netRxMb
  netTx : 0 ≤ deltas.netTxMb
  contextSwitches : 0 ≤ deltas.contextSwitches

/-- The counters of the cgroup and of each process, and the printed totals, do
not decrease themselves. -/
structure ContainerCountersGrow (ticks : List ContainerTick) : Prop where
  cgroup :
    (ticks.filterMap ContainerTick.cgroupIo).Pairwise fun earlier later =>
      earlier.readBytes ≤ later.readBytes ∧
        earlier.writeBytes ≤ later.writeBytes
  processes :
    (ticks.flatMap fun tick =>
      tick.pids.filterMap PidReading.reading).Pairwise NotBack
  network :
    (ticks.filterMap ContainerTick.net).Pairwise fun earlier later =>
      earlier.1.bytes ≤ later.1.bytes ∧ earlier.2.bytes ≤ later.2.bytes

section Delta

variable {values : List ℚ}

theorem delta_nonneg (ordered : values.Pairwise (· ≤ ·)) : 0 ≤ delta values := by
  match values with
  | [] | [_] => exact le_rfl
  | first :: second :: rest =>
      rw [List.pairwise_cons] at ordered
      rw [delta, sub_nonneg]
      apply ordered.1
      rw [List.getLastD_eq_getLast?, List.getLast?_eq_some_getLast
        (List.cons_ne_nil _ _), Option.getD_some]
      exact List.getLast_mem _

/-- The deltas of fields that do not decrease are not negative. -/
theorem summarizeSamples_nonNegative {samples : List Sample}
    (nonDecreasing : NonDecreasing samples) :
    (summarizeSamples samples).NonNegative where
  diskRead := by
    refine delta_nonneg (nonDecreasing.diskRead.map _ fun first second le => ?_)
    exact div_le_div_of_nonneg_right (Nat.cast_le.mpr le) (by norm_num)
  diskWrite := by
    refine delta_nonneg
      (nonDecreasing.diskWrite.map _ fun first second le => ?_)
    exact div_le_div_of_nonneg_right (Nat.cast_le.mpr le) (by norm_num)
  netRx := by
    refine delta_nonneg (nonDecreasing.netRx.map _ fun first second le => ?_)
    exact div_le_div_of_nonneg_right le (by norm_num)
  netTx := by
    refine delta_nonneg (nonDecreasing.netTx.map _ fun first second le => ?_)
    exact div_le_div_of_nonneg_right le (by norm_num)
  contextSwitches := by
    refine delta_nonneg
      (nonDecreasing.contextSwitches.map _ fun first second le => ?_)
    exact Nat.cast_le.mpr le

end Delta

/-! ### Containers -/

section Container

variable {ticks : List ContainerTick}

/-- The sum of what is kept is shown. -/
theorem contextSwitches_shown (mode : IoMode) (state : ContainerState)
    (tick : ContainerTick) (value : Nat)
    (isShown :
      value ∈ (state.sampleIo mode tick).2.contextSwitches) :
    value = total (state.sampleIo mode tick).1.pidCtxt := by
  have shows :
      (if (state.recorded mode tick).2 = true then
        some (total (state.recorded mode tick).1) else none) = some value :=
    isShown
  exact (Option.some.inj (Option.ite_none_right_eq_some.mp shows).2).symm

theorem cgroup_contextSwitches (grow : ContainerCountersGrow ticks) :
    ((containerSamples .cgroup ticks).filterMap
      Sample.contextSwitches).Pairwise (· ≤ ·) := by
  refine (outputs_notBack (fun state : ContainerState => total state.pidCtxt)
    (fun state ticks => InOrder state.pidCtxt
      (ticks.flatMap fun tick => tick.pids.filterMap PidReading.reading))
    ?_ ?_ ⟨fun _ member => absurd member List.not_mem_nil,
      grow.processes⟩).2
  · intro state tick rest inOrder
    exact total_recordAll inOrder
  · intro state tick rest _
    exact contextSwitches_shown .cgroup state tick

/-- At most the sum of all processes is kept. -/
def OneSum (table : List (Reading (Nat × Nat))) : Prop :=
  table = [] ∨ ∃ count, table = [((0, 0), count)]

theorem OneSum.record {state : ContainerState} (oneSum : OneSum state.pidCtxt)
    (count : Nat) :
    total state.pidCtxt ≤
        total (record state.pidCtxt
          ((0, 0), max (state.count (0, 0)) count)) ∧
      OneSum (record state.pidCtxt
        ((0, 0), max (state.count (0, 0)) count)) := by
  rcases oneSum with isEmpty | ⟨kept, isKept⟩
  · rw [isEmpty]
    exact ⟨Nat.zero_le _, Or.inr ⟨_, rfl⟩⟩
  · have isCount : state.count (0, 0) = kept := by
      rw [ContainerState.count, isKept]
      rfl
    rw [isKept, isCount]
    exact ⟨Nat.add_le_add_right (Nat.le_max_left _ _) _, Or.inr ⟨_, rfl⟩⟩

theorem exec_contextSwitches :
    ((containerSamples .exec ticks).filterMap
      Sample.contextSwitches).Pairwise (· ≤ ·) := by
  refine (outputs_notBack (fun state : ContainerState => total state.pidCtxt)
    (fun state _ => OneSum state.pidCtxt) ?_ ?_ (Or.inl rfl)).2
  · intro state tick rest oneSum
    have isRecorded :
        (state.sampleIo .exec tick).1.pidCtxt =
          (state.recorded .exec tick).1 := rfl
    rw [isRecorded, ContainerState.recorded]
    cases tick.execContextSwitches with
    | none => exact ⟨Nat.le_refl _, oneSum⟩
    | some count => exact oneSum.record count
  · intro state tick rest _
    exact contextSwitches_shown .exec state tick

theorem exec_disk :
    ((containerSamples .exec ticks).filterMap
        Sample.diskReadBytes).Pairwise (· ≤ ·) ∧
      ((containerSamples .exec ticks).filterMap
        Sample.diskWriteBytes).Pairwise (· ≤ ·) := by
  constructor
  · refine (outputs_notBack ContainerState.ioHwmRead (fun _ _ => True)
      ?_ ?_ trivial).2
    · intro state tick rest _
      refine ⟨?_, trivial⟩
      rw [ContainerState.sampleIo]
      cases tick.execIo with
      | none => exact Nat.le_refl _
      | some io => exact Nat.le_max_left _ _
    · intro state tick rest _ value isShown
      obtain ⟨_, -, same⟩ := Option.map_eq_some_iff.mp isShown
      exact same.symm
  · refine (outputs_notBack ContainerState.ioHwmWrite (fun _ _ => True)
      ?_ ?_ trivial).2
    · intro state tick rest _
      refine ⟨?_, trivial⟩
      rw [ContainerState.sampleIo]
      cases tick.execIo with
      | none => exact Nat.le_refl _
      | some io => exact Nat.le_max_left _ _
    · intro state tick rest _ value isShown
      obtain ⟨_, -, same⟩ := Option.map_eq_some_iff.mp isShown
      exact same.symm

/-- No counter of the sampler of a container goes back. -/
theorem containerSamples_nonDecreasing (mode : IoMode)
    (grow : ContainerCountersGrow ticks) :
    NonDecreasing (containerSamples mode ticks) where
  diskRead := by
    cases mode with
    | exec => exact exec_disk.1
    | cgroup =>
        rw [containerSamples, filterMap_outputs (fun tick =>
          tick.cgroupIo.map IoTotals.readBytes) fun _ _ => rfl,
          ← List.map_filterMap]
        exact grow.cgroup.map _ fun _ _ both => both.1
  diskWrite := by
    cases mode with
    | exec => exact exec_disk.2
    | cgroup =>
        rw [containerSamples, filterMap_outputs (fun tick =>
          tick.cgroupIo.map IoTotals.writeBytes) fun _ _ => rfl,
          ← List.map_filterMap]
        exact grow.cgroup.map _ fun _ _ both => both.2
  contextSwitches := by
    cases mode with
    | exec => exact exec_contextSwitches
    | cgroup => exact cgroup_contextSwitches grow
  netRx := by
    rw [containerSamples, filterMap_outputs (fun tick =>
      tick.net.map fun printed => printed.1.bytes) fun _ tick =>
        congrArg Prod.fst (parseNetIoBytes_text tick.net),
      ← List.map_filterMap]
    exact grow.network.map _ fun _ _ both => both.1
  netTx := by
    rw [containerSamples, filterMap_outputs (fun tick =>
      tick.net.map fun printed => printed.2.bytes) fun _ tick =>
        congrArg Prod.snd (parseNetIoBytes_text tick.net),
      ← List.map_filterMap]
    exact grow.network.map _ fun _ _ both => both.2

end Container

/-! ### Processes -/

/-- The cumulative fields of the sampler of a process. -/
inductive ProcessField where
  | diskRead
  | diskWrite
  | contextSwitches

namespace ProcessField

def ofSample : ProcessField → Sample → Option Nat
  | diskRead => Sample.diskReadBytes
  | diskWrite => Sample.diskWriteBytes
  | contextSwitches => Sample.contextSwitches

/-- What `psutil` reads of a process. -/
def ofReading : ProcessField → ProcessReading → Option Nat
  | diskRead, reading => reading.io.map IoTotals.readBytes
  | diskWrite, reading => reading.io.map IoTotals.writeBytes
  | contextSwitches, reading => reading.contextSwitches

/-- What `/proc` gives of the process itself. -/
def ofProc : ProcessField → ProcessTick → Option Nat
  | diskRead, tick => tick.procIo.map IoTotals.readBytes
  | diskWrite, tick => tick.procIo.map IoTotals.writeBytes
  | contextSwitches, tick => tick.procContextSwitches

end ProcessField

namespace ProcessTick

variable (tick : ProcessTick) (field : ProcessField)

def psutilReadings : List (Reading (Nat × Nat)) :=
  (tick.psutil.getD []).filterMap fun reading =>
    (field.ofReading reading).map (reading.process, ·)

def procReadings : List (Reading (Nat × Nat)) :=
  (field.ofProc tick).toList.map (tick.process, ·)

/-- The readings that a sample sums up. -/
def counted : List (Reading (Nat × Nat)) :=
  if tick.psutilReadings field = [] then tick.procReadings field
  else tick.psutilReadings field

end ProcessTick

/-- The counters of a process do not decrease themselves, and the processes of
a sample are different ones. -/
structure ProcessCountersGrow (ticks : List ProcessTick) : Prop where
  processes :
    ∀ field : ProcessField, ticks.Pairwise fun earlier later =>
      ∀ reading ∈ earlier.psutilReadings field ++ earlier.procReadings field,
        ∀ next ∈ later.psutilReadings field ++ later.procReadings field,
          NotBack reading next
  distinct :
    ∀ tick ∈ ticks, ((tick.psutil.getD []).map ProcessReading.process).Nodup

/-- What was counted of processes that are counted no more is made up by what
the others have counted since. -/
def LostIsMadeUp (field : ProcessField) (earlier later : ProcessTick) : Prop :=
  later.counted field ≠ [] →
    total (notReadAgain (earlier.counted field) (later.counted field)) ≤
      total (later.counted field) -
        total (readAgain (earlier.counted field) (later.counted field))

/-- The samples of a run of the sampler. -/
def processSamples (ticks : List ProcessTick) : List Sample :=
  ticks.map collectSample

section Process

variable {ticks : List ProcessTick}

theorem counted_subset (tick : ProcessTick) (field : ProcessField) :
    tick.counted field ⊆
      tick.psutilReadings field ++ tick.procReadings field := by
  rw [ProcessTick.counted]
  split
  · exact List.subset_append_right _ _
  · exact List.subset_append_left _ _

theorem counted_nodup {tick : ProcessTick}
    (distinct : ((tick.psutil.getD []).map ProcessReading.process).Nodup)
    (field : ProcessField) : ((tick.counted field).map Prod.fst).Nodup := by
  rw [ProcessTick.counted]
  split
  · rw [ProcessTick.procReadings]
    cases field.ofProc tick with
    | none => exact List.nodup_nil
    | some count => exact List.nodup_singleton _
  · refine distinct.sublist ?_
    rw [ProcessTick.psutilReadings, List.map_filterMap]
    simp only [Option.map_map]
    induction tick.psutil.getD [] with
    | nil => exact List.Sublist.slnil
    | cons reading rest induction =>
        rw [List.filterMap_cons, List.map_cons]
        cases field.ofReading reading with
        | none => exact induction.cons _
        | some count => exact induction.cons_cons _

theorem psutil_values (tick : ProcessTick) (field : ProcessField) :
    (tick.psutilReadings field).map Prod.snd =
      (tick.psutil.getD []).filterMap field.ofReading := by
  rw [ProcessTick.psutilReadings, List.map_filterMap]
  simp only [Option.map_map, Function.comp_def, Option.map_id_fun', id]

/-- A sum over some readings, or none if there are no readings. -/
def shownSum (values : List Nat) : Option Nat :=
  if values = [] then none else some values.sum

theorem ofSample_sampleWithPsutil (field : ProcessField)
    (processes : List ProcessReading) :
    field.ofSample (sampleWithPsutil processes) =
      shownSum (processes.filterMap field.ofReading) := by
  have disk (ofIo : IoTotals → Nat) :
      processes.filterMap (fun reading => reading.io.map ofIo) =
        (processes.filterMap ProcessReading.io).map ofIo :=
    List.map_filterMap.symm
  cases field with
  | diskRead =>
      rw [shownSum]
      change _ = if processes.filterMap (fun reading =>
        reading.io.map IoTotals.readBytes) = [] then _ else some (List.sum
          (processes.filterMap fun reading => reading.io.map IoTotals.readBytes))
      rw [disk]
      simp only [List.map_eq_nil_iff]
      rfl
  | diskWrite =>
      rw [shownSum]
      change _ = if processes.filterMap (fun reading =>
        reading.io.map IoTotals.writeBytes) = [] then _ else some (List.sum
          (processes.filterMap fun reading =>
            reading.io.map IoTotals.writeBytes))
      rw [disk]
      simp only [List.map_eq_nil_iff]
      rfl
  | contextSwitches => rfl

/-- What `psutil` has read of nothing is left to `/proc`. -/
theorem ofSample_collectSample_or (field : ProcessField) (tick : ProcessTick) :
    field.ofSample (collectSample tick) =
      (shownSum ((tick.psutil.getD []).filterMap field.ofReading)).or
        (field.ofProc tick) := by
  cases isRead : tick.psutil with
  | none =>
      rw [collectSample, isRead]
      cases field <;> rfl
  | some processes =>
      rw [Option.getD_some, ← ofSample_sampleWithPsutil, collectSample, isRead]
      have disk :
          (sampleWithPsutil processes).diskReadBytes.isNone =
            (sampleWithPsutil processes).diskWriteBytes.isNone := by
        rw [sampleWithPsutil]
        dsimp only
        split <;> rfl
      cases field with
      | contextSwitches => rfl
      | diskRead =>
          dsimp only [ProcessField.ofSample]
          rw [← disk, Bool.and_self]
          cases (sampleWithPsutil processes).diskReadBytes <;> rfl
      | diskWrite =>
          dsimp only [ProcessField.ofSample]
          rw [disk, Bool.and_self]
          cases (sampleWithPsutil processes).diskWriteBytes <;> rfl

/-- A field is the sum of what is counted for it. -/
theorem ofSample_collectSample (field : ProcessField) (tick : ProcessTick) :
    field.ofSample (collectSample tick) =
      shownSum ((tick.counted field).map Prod.snd) := by
  rw [ofSample_collectSample_or, ← psutil_values, ProcessTick.counted]
  by_cases isEmpty : tick.psutilReadings field = []
  · rw [isEmpty, if_pos rfl, ProcessTick.procReadings]
    cases field.ofProc tick <;> rfl
  · rw [if_neg isEmpty, shownSum, if_neg (mt List.map_eq_nil_iff.mp isEmpty),
      Option.some_or]

/-- A field does not go back from one sample to another if and only if what is
lost is made up. -/
theorem ofSample_le_iff {field : ProcessField} {earlier later : ProcessTick}
    (distinct : ((earlier.counted field).map Prod.fst).Nodup)
    (notBack :
      ∀ reading ∈ earlier.counted field, ∀ next ∈ later.counted field,
        NotBack reading next) :
    (∀ count, field.ofSample (collectSample earlier) = some count →
        ∀ next, field.ofSample (collectSample later) = some next →
          count ≤ next) ↔
      LostIsMadeUp field earlier later := by
  rw [ofSample_collectSample, ofSample_collectSample, LostIsMadeUp,
    ← total_le_iff distinct notBack]
  constructor
  · intro ordered isCounted
    by_cases isEmpty : earlier.counted field = []
    · rw [isEmpty]
      exact Nat.zero_le _
    · exact ordered _ (if_neg (mt List.map_eq_nil_iff.mp isEmpty)) _
        (if_neg (mt List.map_eq_nil_iff.mp isCounted))
  · intro ordered count isCount next isNext
    obtain ⟨-, isSum⟩ := Option.ite_none_left_eq_some.mp isCount
    obtain ⟨notEmpty, isNextSum⟩ := Option.ite_none_left_eq_some.mp isNext
    rw [← Option.some.inj isSum, ← Option.some.inj isNextSum]
    exact ordered (mt List.map_eq_nil_iff.mpr notEmpty)

/-- A field does not go back if and only if what is lost is made up. -/
theorem ofSample_pairwise (grow : ProcessCountersGrow ticks)
    (field : ProcessField) :
    ((processSamples ticks).filterMap field.ofSample).Pairwise (· ≤ ·) ↔
      ticks.Pairwise (LostIsMadeUp field) := by
  have step {earlier later : ProcessTick} (member : earlier ∈ ticks)
      (notBack :
        ∀ reading ∈ earlier.psutilReadings field ++ earlier.procReadings field,
          ∀ next ∈ later.psutilReadings field ++ later.procReadings field,
            NotBack reading next) :=
    ofSample_le_iff (counted_nodup (grow.distinct earlier member) field)
      fun reading inEarlier next inLater =>
        notBack reading (counted_subset earlier field inEarlier) next
          (counted_subset later field inLater)
  have grown := grow.processes field
  rw [processSamples, List.filterMap_map, List.pairwise_filterMap]
  constructor <;> intro ordered
  · refine (ordered.and grown).imp_of_mem ?_
    intro earlier later member _ both
    exact (step member both.2).mp both.1
  · refine (ordered.and grown).imp_of_mem ?_
    intro earlier later member _ both
    exact (step member both.2).mpr both.1

theorem netRxBytes_collectSample (tick : ProcessTick) :
    (collectSample tick).netRxBytes = none ∧
      (collectSample tick).netTxBytes = none := by
  rw [collectSample]
  cases tick.psutil <;> exact ⟨rfl, rfl⟩

/-- The counters of the sampler of a process do not go back if and only if
what is lost is made up. -/
theorem processSamples_nonDecreasing_iff (grow : ProcessCountersGrow ticks) :
    NonDecreasing (processSamples ticks) ↔
      ∀ field, ticks.Pairwise (LostIsMadeUp field) := by
  constructor
  · intro nonDecreasing field
    rw [← ofSample_pairwise grow]
    cases field with
    | diskRead => exact nonDecreasing.diskRead
    | diskWrite => exact nonDecreasing.diskWrite
    | contextSwitches => exact nonDecreasing.contextSwitches
  · intro madeUp
    have ordered field := (ofSample_pairwise grow field).mpr (madeUp field)
    refine ⟨ordered .diskRead, ordered .diskWrite, ordered .contextSwitches,
      ?_, ?_⟩
    · rw [processSamples, List.filterMap_map, List.pairwise_filterMap]
      refine List.pairwise_of_forall fun earlier _ value isShown => ?_
      rw [Function.comp_apply, (netRxBytes_collectSample earlier).1] at isShown
      cases isShown
    · rw [processSamples, List.filterMap_map, List.pairwise_filterMap]
      refine List.pairwise_of_forall fun earlier _ value isShown => ?_
      rw [Function.comp_apply, (netRxBytes_collectSample earlier).2] at isShown
      cases isShown

end Process

/-! ### Both samplers -/

/-- Cumulative fields do not go back, and the deltas are not negative. -/
def Cumulative (samples : List Sample) : Prop :=
  NonDecreasing samples ∧ (summarizeSamples samples).NonNegative

/-- The counters of both samplers are cumulative if and only if the sampler of
a process loses nothing that is not made up. -/
theorem cumulative_iff {containerTicks : List ContainerTick}
    {processTicks : List ProcessTick} (mode : IoMode)
    (containerGrow : ContainerCountersGrow containerTicks)
    (processGrow : ProcessCountersGrow processTicks) :
    Cumulative (containerSamples mode containerTicks) ∧
        Cumulative (processSamples processTicks) ↔
      ∀ field, processTicks.Pairwise (LostIsMadeUp field) := by
  rw [← processSamples_nonDecreasing_iff processGrow]
  constructor
  · rintro ⟨-, nonDecreasing, -⟩
    exact nonDecreasing
  · intro nonDecreasing
    have container := containerSamples_nonDecreasing mode containerGrow
    exact ⟨⟨container, summarizeSamples_nonNegative container⟩,
      nonDecreasing, summarizeSamples_nonNegative nonDecreasing⟩

/-- A process that has read 100 bytes and its child, which has read 50. -/
def withChild : ProcessTick where
  psutil := some
    [⟨(10, 1000), some ⟨100, 0⟩, some 4⟩, ⟨(11, 1200), some ⟨50, 0⟩, some 2⟩]
  process := (10, 1000)
  procIo := some ⟨100, 0⟩
  procContextSwitches := some 4

/-- The child has ended, and the process has read `bytes` itself. -/
def childEnded (bytes : Nat) : ProcessTick where
  psutil := some [⟨(10, 1000), some ⟨bytes, 0⟩, some 9⟩]
  process := (10, 1000)
  procIo := some ⟨bytes, 0⟩
  procContextSwitches := some 9

theorem childEnded_grow {bytes : Nat} (more : 100 ≤ bytes) :
    ProcessCountersGrow [withChild, childEnded bytes] where
  processes field := by
    rw [List.pairwise_pair]
    cases field <;>
      simp [ProcessTick.psutilReadings, ProcessTick.procReadings,
        ProcessField.ofReading, ProcessField.ofProc, withChild, childEnded,
        NotBack, more]
  distinct := by
    intro tick member
    rcases List.mem_pair.mp member with rfl | rfl
    · decide
    · exact List.nodup_singleton _

/-- A container in which the id of a process is used again. -/
def reusedPid : List ContainerTick :=
  [⟨some ⟨100, 20⟩, [⟨7, some 1000, some 5⟩], none, none, none⟩,
    ⟨some ⟨150, 20⟩, [⟨7, some 1300, some 1⟩], none, none, none⟩]

theorem reusedPid_grow : ContainerCountersGrow reusedPid where
  cgroup := by decide
  processes := by
    simp [reusedPid, PidReading.reading, NotBack]
  network := List.Pairwise.nil

theorem childEnded_cumulative :
    ContainerCountersGrow reusedPid ∧
      ProcessCountersGrow [withChild, childEnded 160] ∧
      (Cumulative (containerSamples .cgroup reusedPid) ∧
          Cumulative (processSamples [withChild, childEnded 160]) ↔
        ∀ field, [withChild, childEnded 160].Pairwise (LostIsMadeUp field)) :=
  ⟨reusedPid_grow, childEnded_grow (by decide),
    cumulative_iff .cgroup reusedPid_grow (childEnded_grow (by decide))⟩

/-- The bytes that the child has read are lost when it ends. -/
theorem childEnded_not_cumulative :
    ¬ ∀ (mode : IoMode) (containerTicks : List ContainerTick)
      (processTicks : List ProcessTick),
      ContainerCountersGrow containerTicks →
      ProcessCountersGrow processTicks →
      Cumulative (containerSamples mode containerTicks) ∧
        Cumulative (processSamples processTicks) := by
  intro cumulative
  obtain ⟨-, nonDecreasing, -⟩ :=
    cumulative .cgroup reusedPid [withChild, childEnded 100] reusedPid_grow
      (childEnded_grow (Nat.le_refl _))
  exact absurd nonDecreasing.diskRead (by decide)

end AgentSchedBench.Harness
