import AgentSchedBench.Agent.Runner

/-!
# Retries of malformed tool calls

After a malformed tool call the model is asked again, as often as a budget
allows.  The count of the retries belongs to the input of the model and begins
anew with another input.
-/

namespace AgentSchedBench.Agent

/-- A response that is an attempt of a tool call, and no tool call. -/
def IterationInput.IsMalformed (input : IterationInput) : Prop :=
  input.response.toolCalls = [] ∧ input.response.isError = false ∧
    looksLikeMalformedToolCall input.response.content = true

namespace AgentRunner

/-- The state in which the first iteration begins. -/
def initialState (initialMessages : List Message) : RunState where
  entries := initialMessages.map (⟨·, .initial⟩)
  malformedRetryCount := 0
  lastMalformedInputHash := none
  emitted := []

variable (spec : AgentRunSpec) (inputs : Nat → IterationInput)
  (initialMessages : List Message)

/-- The state in which an iteration begins, if it does. -/
def begins : Nat → Option RunState
  | 0 =>
      if 0 < spec.maxIterations then some (initialState initialMessages)
      else none
  | iteration + 1 =>
      match begins iteration with
      | none => none
      | some state =>
          match iterate spec iteration (inputs iteration) state with
          | .next next =>
              if iteration + 1 < spec.maxIterations then some next else none
          | .stop _ _ _ => none

section Begins

variable {spec inputs initialMessages} {iteration : Nat} {next : RunState}

theorem begins_zero :
    begins spec inputs initialMessages 0 =
      if 0 < spec.maxIterations then some (initialState initialMessages)
      else none :=
  rfl

theorem begins_add_one :
    begins spec inputs initialMessages (iteration + 1) =
      match begins spec inputs initialMessages iteration with
      | none => none
      | some state =>
          match iterate spec iteration (inputs iteration) state with
          | .next next =>
              if iteration + 1 < spec.maxIterations then some next else none
          | .stop _ _ _ => none :=
  rfl

theorem begins_succ :
    begins spec inputs initialMessages (iteration + 1) = some next ↔
      ∃ state, begins spec inputs initialMessages iteration = some state ∧
        iterate spec iteration (inputs iteration) state = .next next ∧
        iteration + 1 < spec.maxIterations := by
  rw [begins_add_one]
  cases begins spec inputs initialMessages iteration with
  | none => simp
  | some state =>
      simp only [Option.some.injEq, exists_eq_left']
      cases iterate spec iteration (inputs iteration) state with
      | next after =>
          simp only [Option.ite_none_right_eq_some, Option.some.injEq,
            IterationEnd.next.injEq]
          exact and_comm
      | stop after finalContent reason => simp

/-- The iterations before one that begins begin as well. -/
theorem begins_of_le {later : Nat} (order : iteration ≤ later)
    (isLater : (begins spec inputs initialMessages later).isSome) :
    (begins spec inputs initialMessages iteration).isSome := by
  induction order with
  | refl => exact isLater
  | step order induction =>
      obtain ⟨next, isNext⟩ := Option.isSome_iff_exists.mp isLater
      obtain ⟨state, isState, -⟩ := begins_succ.mp isNext
      exact induction (Option.isSome_of_mem isState)

theorem lt_maxIterations
    (isBegun : (begins spec inputs initialMessages iteration).isSome) :
    iteration < spec.maxIterations := by
  cases iteration with
  | zero =>
      rw [begins_zero] at isBegun
      split at isBegun
      · assumption
      · cases isBegun
  | succ iteration =>
      obtain ⟨next, isNext⟩ := Option.isSome_iff_exists.mp isBegun
      obtain ⟨-, -, -, room⟩ := begins_succ.mp isNext
      exact room

/-- The run goes on with each iteration that begins. -/
theorem run_eq_loop {state : RunState}
    (isState : begins spec inputs initialMessages iteration = some state) :
    run spec inputs initialMessages =
      loop spec inputs (spec.maxIterations - iteration) iteration state := by
  induction iteration generalizing state with
  | zero =>
      rw [begins_zero] at isState
      split at isState
      · cases isState
        rfl
      · cases isState
  | succ iteration induction =>
      obtain ⟨before, isBefore, iterated, room⟩ := begins_succ.mp isState
      have left :
          spec.maxIterations - iteration =
            spec.maxIterations - (iteration + 1) + 1 := by
        omega
      rw [induction isBefore, left, loop_add_one, iterated]

end Begins

/-! ## The count -/

/-- The number of retries, counted at a malformed response. -/
def countAt (iteration : Nat) (state : RunState) : Nat :=
  malformedCount (inputs iteration) state

section Count

variable {spec inputs initialMessages} {iteration : Nat}
  {state next : RunState}

theorem countAt_eq :
    countAt inputs iteration state =
      if state.lastMalformedInputHash = some (inputs iteration).inputHash then
        state.malformedRetryCount + 1
      else 1 :=
  rfl

/-- A malformed response within the budget is followed by another request. -/
theorem iterate_retries (malformed : (inputs iteration).IsMalformed)
    (within : (countAt inputs iteration state : Int) ≤
      spec.malformedRetryBudget) :
    ∃ next,
      iterate spec iteration (inputs iteration) state = .next next := by
  rw [iterate_of_malformed malformed.1 malformed.2]
  exact ⟨_, if_neg (Int.not_lt.mpr within)⟩

/-- A retry is within the budget, and is counted with its input. -/
theorem of_iterate_malformed (malformed : (inputs iteration).IsMalformed)
    (iterated :
      iterate spec iteration (inputs iteration) state = .next next) :
    (countAt inputs iteration state : Int) ≤ spec.malformedRetryBudget ∧
      next.malformedRetryCount = countAt inputs iteration state ∧
      next.lastMalformedInputHash = some (inputs iteration).inputHash := by
  rw [iterate_of_malformed malformed.1 malformed.2, retryMalformed] at iterated
  split at iterated
  · cases iterated
  · next within =>
    cases iterated
    exact ⟨Int.not_lt.mp within, rfl, rfl⟩

/-- A response that calls tools resets the count. -/
theorem count_of_iterate_tools
    (calls : (inputs iteration).response.toolCalls ≠ [])
    (iterated :
      iterate spec iteration (inputs iteration) state = .next next) :
    next.malformedRetryCount = 0 := by
  rw [iterate_of_calls calls, runTools] at iterated
  split at iterated
  · cases iterated
  · cases iterated
    rfl

/-- The count goes on if the input is the same, and begins anew otherwise. -/
theorem countAt_next (malformed : (inputs iteration).IsMalformed)
    (iterated :
      iterate spec iteration (inputs iteration) state = .next next) :
    countAt inputs (iteration + 1) next =
      if (inputs iteration).inputHash = (inputs (iteration + 1)).inputHash
      then countAt inputs iteration state + 1 else 1 := by
  obtain ⟨-, count, hash⟩ := of_iterate_malformed malformed iterated
  rw [countAt_eq, hash, count]
  simp only [Option.some.injEq]

end Count

/-! ## Runs of malformed responses -/

/--
After as many malformed responses in a row as are asked for again, no more
than the budget have been.
-/
def RetriesBounded : Prop :=
  ∀ first retries,
    (∀ index < retries, (inputs (first + index)).IsMalformed) →
      (begins spec inputs initialMessages (first + retries)).isSome →
        retries ≤ spec.malformedRetryBudget.toNat

/-- Each response that calls tools resets the count. -/
def CountReset : Prop :=
  ∀ iteration state,
    (inputs iteration).response.toolCalls ≠ [] →
      begins spec inputs initialMessages (iteration + 1) = some state →
        state.malformedRetryCount = 0

/--
Malformed responses in a row that are more than the budget, and after which
there is an iteration left, are responses to one and the same input.
-/
def OneInput : Prop :=
  ∀ first,
    let budget := spec.malformedRetryBudget.toNat
    (∀ index ≤ budget, (inputs (first + index)).IsMalformed) →
      (begins spec inputs initialMessages (first + budget)).isSome →
        first + budget + 1 < spec.maxIterations →
          ∀ index ≤ budget,
            (inputs (first + index)).inputHash = (inputs first).inputHash

section Runs

variable {spec inputs initialMessages} {first : Nat}

/-- One input is counted on. -/
theorem le_countAt {length : Nat}
    (malformed : ∀ index ≤ length, (inputs (first + index)).IsMalformed)
    (sameInput : ∀ index ≤ length,
      (inputs (first + index)).inputHash = (inputs first).inputHash)
    {state : RunState}
    (isState :
      begins spec inputs initialMessages (first + length) = some state) :
    length + 1 ≤ countAt inputs (first + length) state := by
  induction length generalizing state with
  | zero =>
      rw [countAt_eq]
      split
      · exact Nat.le_add_left _ _
      · exact Nat.le_refl _
  | succ length induction =>
      obtain ⟨before, isBefore, iterated, -⟩ := begins_succ.mp isState
      have counted := induction
        (fun index le => malformed index (Nat.le_succ_of_le le))
        (fun index le => sameInput index (Nat.le_succ_of_le le))
        isBefore
      rw [← Nat.add_assoc,
        countAt_next (malformed length (Nat.le_succ _)) iterated, if_pos]
      · exact Nat.succ_le_succ counted
      · rw [sameInput length (Nat.le_succ _), Nat.add_assoc,
          sameInput (length + 1) (Nat.le_refl _)]

/-- What has been counted on is one input. -/
theorem sameInput_of_countAt {length : Nat}
    (malformed : ∀ index ≤ length, (inputs (first + index)).IsMalformed)
    {state : RunState}
    (isState :
      begins spec inputs initialMessages (first + length) = some state)
    (counted : length + 1 ≤ countAt inputs (first + length) state) :
    ∀ index ≤ length,
      (inputs (first + index)).inputHash = (inputs first).inputHash := by
  induction length generalizing state with
  | zero =>
      intro index isZero
      rw [Nat.le_zero.mp isZero]
      rfl
  | succ length induction =>
      obtain ⟨before, isBefore, iterated, -⟩ := begins_succ.mp isState
      rw [← Nat.add_assoc,
        countAt_next (malformed length (Nat.le_succ _)) iterated]
        at counted
      split at counted
      · next same =>
        have earlier := induction
          (fun index le => malformed index (Nat.le_succ_of_le le))
          isBefore (Nat.le_of_succ_le_succ counted)
        intro index le
        rcases Nat.lt_or_eq_of_le le with before | rfl
        · exact earlier index (Nat.le_of_lt_succ before)
        · rw [← earlier length (Nat.le_refl _), same]
          rfl
      · omega

/-- The budget is kept if and only if its responses belong to one input. -/
theorem retriesBounded_iff :
    RetriesBounded spec inputs initialMessages ↔
      OneInput spec inputs initialMessages := by
  constructor
  · intro bounded first budget malformed isBegun room
    obtain ⟨state, isState⟩ := Option.isSome_iff_exists.mp isBegun
    refine sameInput_of_countAt malformed isState ?_
    by_contra small
    have within : (countAt inputs (first + budget) state : Int) ≤
        spec.malformedRetryBudget := by
      have positive : 1 ≤ countAt inputs (first + budget) state := by
        rw [countAt_eq]
        split
        · exact Nat.le_add_left _ _
        · exact Nat.le_refl _
      omega
    obtain ⟨next, iterated⟩ :=
      iterate_retries (malformed budget (Nat.le_refl _)) within
    have again : (begins spec inputs initialMessages
        (first + (budget + 1))).isSome :=
      Option.isSome_of_mem (begins_succ.mpr ⟨state, isState, iterated, room⟩)
    have retried := bounded first (budget + 1)
      (fun index less => malformed index (Nat.le_of_lt_succ less)) again
    omega
  · intro oneInput first retries malformed isBegun
    by_contra more
    have again : (begins spec inputs initialMessages
        (first + spec.malformedRetryBudget.toNat + 1)).isSome :=
      begins_of_le (by omega) isBegun
    obtain ⟨next, isNext⟩ := Option.isSome_iff_exists.mp again
    obtain ⟨state, isState, iterated, room⟩ := begins_succ.mp isNext
    have isMalformed :
        ∀ index ≤ spec.malformedRetryBudget.toNat,
          (inputs (first + index)).IsMalformed :=
      fun index le => malformed index (by omega)
    have counted := le_countAt isMalformed
      (oneInput first isMalformed (Option.isSome_of_mem isState) room)
      isState
    have within :=
      (of_iterate_malformed (isMalformed _ (Nat.le_refl _)) iterated).1
    omega

end Runs

/-- What is claimed of the retries holds if and only if the input is one. -/
theorem malformedRetries_iff :
    (RetriesBounded spec inputs initialMessages ∧
        CountReset spec inputs initialMessages) ↔
      OneInput spec inputs initialMessages := by
  rw [retriesBounded_iff, and_iff_left]
  intro iteration state calls isState
  obtain ⟨before, -, iterated, -⟩ := begins_succ.mp isState
  exact count_of_iterate_tools calls iterated

/-! ## An input that changes -/

/-- With another input each time the model is asked until the end. -/
theorem begins_of_changing {spec : AgentRunSpec}
    {inputs : Nat → IterationInput} {initialMessages : List Message}
    (malformed : ∀ iteration, (inputs iteration).IsMalformed)
    (changes : ∀ iteration,
      (inputs iteration).inputHash ≠ (inputs (iteration + 1)).inputHash)
    (budget : 1 ≤ spec.malformedRetryBudget) {iteration : Nat}
    (room : iteration < spec.maxIterations) :
    ∃ state,
      begins spec inputs initialMessages iteration = some state ∧
        countAt inputs iteration state = 1 := by
  induction iteration with
  | zero => exact ⟨_, if_pos room, rfl⟩
  | succ iteration induction =>
      obtain ⟨state, isState, counted⟩ := induction (Nat.lt_of_succ_lt room)
      have within : (countAt inputs iteration state : Int) ≤
          spec.malformedRetryBudget := by
        rwa [counted]
      obtain ⟨next, iterated⟩ := iterate_retries (malformed iteration) within
      refine ⟨next, begins_succ.mpr ⟨state, isState, iterated, room⟩, ?_⟩
      rw [countAt_next (malformed iteration) iterated,
        if_neg (changes iteration)]

/-- The model answers with the same text, to an input that has grown. -/
def growingInput (iteration : Nat) : IterationInput where
  response := ⟨some "<function=exec>", [], false, none, []⟩
  finalizationRetry := ⟨none, [], false, none, []⟩
  finalizeContent := id
  runTool := fun _ _ => ⟨.none, none⟩
  inputHash := iteration
  budgetWriteFails := fun _ => false
  resultWriteFails := fun _ => false

def threeRetries : AgentRunSpec where
  toolNames := ["exec"]
  maxIterations := 40
  maxToolResultChars := 16000
  errorMessage := none
  maxIterationsMessage := none
  failOnToolError := false
  toolResultPath := none
  malformedRetryBudget := 3

/-- A budget of three is exceeded by as many retries as there are iterations. -/
theorem growingInput_not_bounded :
    ¬ (RetriesBounded threeRetries growingInput [] ∧
      CountReset threeRetries growingInput []) := by
  rintro ⟨bounded, -⟩
  have text : looksLikeMalformedToolCall (some "<function=exec>") = true := by
    decide
  have malformed (iteration : Nat) : (growingInput iteration).IsMalformed :=
    ⟨rfl, rfl, text⟩
  have changes (iteration : Nat) :
      (growingInput iteration).inputHash ≠
        (growingInput (iteration + 1)).inputHash := by
    simp only [growingInput]
    omega
  have budget : 1 ≤ threeRetries.malformedRetryBudget := by decide
  have room : 0 + 39 < threeRetries.maxIterations := by decide
  obtain ⟨state, isState, -⟩ :
      ∃ state, begins threeRetries growingInput [] (0 + 39) = some state ∧
        countAt growingInput (0 + 39) state = 1 :=
    begins_of_changing malformed changes budget room
  have retried := bounded 0 39 (fun index _ => malformed _)
    (Option.isSome_of_mem isState)
  exact absurd retried (by decide)

end AgentRunner

end AgentSchedBench.Agent
