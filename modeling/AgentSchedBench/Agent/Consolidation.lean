import AgentSchedBench.Library.Slices
import AgentSchedBench.Trace.Files

/-!
# Memory consolidation

When the prompt of a session grows too long its oldest messages are archived:
a model is asked for a summary, which is appended to `HISTORY.md`, and for the
long-term memory, which is written to `MEMORY.md`.  The messages are written
to the history as they are when this has failed three times.

A run of a session is a list of steps.  Messages are appended at any time, in
particular while the model is asked, and other sessions use the same store.
An attempt to archive a chunk is recorded with what it has written to the
history.
-/

namespace AgentSchedBench.Agent

open JsonText Slices
open Trace (Record Text isTruthy strip)

/-! ## The store -/

structure MemoryStore where
  memory : Text
  /-- What has been written to `HISTORY.md`, write by write. -/
  history : List Text
  consecutiveFailures : Nat

/-- `_MAX_FAILURES_BEFORE_RAW_ARCHIVE` -/
def maxFailuresBeforeRawArchive : Nat := 3

/-- Functions on texts that Python has. -/
structure TextFunctions where
  /-- `str(value)`, for a value that is no text. -/
  str : Json → Text
  upper : Text → Text
  lower : Text → Text

/-- `str(value)` -/
def TextFunctions.show (functions : TextFunctions) : Json → Text
  | .str value => value.toList
  | value => functions.str value

/-- `text.rstrip()` -/
def rstrip (text : Text) : Text := (text.reverse.dropWhile isSpace).reverse

/-- `_ensure_text` -/
def ensureText : Json → Text
  | .str value => value.toList
  | value => dumps value

/-- The texts of a list, if all of its items are texts. -/
def textItems (items : List Json) : Option (List Text) :=
  items.mapM fun item =>
    match item with
    | .str value => some value.toList
    | _ => none

/-- `', '.join(value)`, which raises for what is no iterable of texts. -/
def joinTools : Json → Option Text
  | .arr items => (textItems items).map [',', ' '].intercalate
  | .str value => some ([',', ' '].intercalate (value.toList.map ([·])))
  | .obj fields =>
      some ([',', ' '].intercalate (fields.map fun field => field.1.toList))
  | _ => none

section Format

variable (functions : TextFunctions)

/-- `message.get('timestamp', '?')[:16]` -/
def timestampText (message : Record) : Option Text :=
  match fieldOf message "timestamp" with
  | none => some ['?']
  | some (.str value) => some (value.toList.take 16)
  | some (.arr items) => some (functions.str (.arr (items.take 16)))
  | some _ => none

/-- The line of a message in `_format_messages`; it may raise. -/
def formatMessage (message : Record) : Option Text := do
  let tools ←
    if isTruthy (message.get "tools_used") then
      (joinTools (message.get "tools_used")).map fun names =>
        " [tools: ".toList ++ names ++ "]".toList
    else some []
  let timestamp ← timestampText functions message
  match fieldOf message "role" with
  | some (.str role) =>
      some
        ("[".toList ++ timestamp ++ "] ".toList ++
          functions.upper role.toList ++ tools ++ ": ".toList ++
          functions.show (message.get "content"))
  | _ => none

/-- `_format_messages` -/
def formatMessages (messages : List Record) : Option Text :=
  ((messages.filter fun message => isTruthy (message.get "content")).mapM
    (formatMessage functions)).map ['\n'].intercalate

end Format

/-! ## An attempt -/

/-- A response of the model, with the arguments of its tool calls. -/
structure ConsolidationResponse where
  content : Option Text
  finishReason : Text
  toolCalls : List Json

/-- What an attempt meets with; a text is what a write that raises leaves. -/
structure AttemptInput where
  now : Text
  firstCall : Option ConsolidationResponse
  secondCall : Option ConsolidationResponse
  appendEntry : Option Text
  writeMemory : Option Text
  appendRaw : Option Text
  appendRawAgain : Option Text

/-- `_TOOL_CHOICE_ERROR_MARKERS` -/
def toolChoiceErrorMarkers : List Text :=
  ["tool_choice".toList, "toolchoice".toList, "toolchoice".toList,
    "does not support".toList, "should be [\"none\", \"auto\"]".toList]

/-- `_is_tool_choice_unsupported` -/
def isToolChoiceUnsupported (functions : TextFunctions)
    (content : Option Text) : Bool :=
  toolChoiceErrorMarkers.any fun marker =>
    decide (marker <:+: functions.lower (content.getD []))

/-- The response that counts; `none` if a call raises. -/
def AttemptInput.response (functions : TextFunctions)
    (input : AttemptInput) : Option ConsolidationResponse :=
  input.firstCall.bind fun first =>
    if first.finishReason = "error".toList ∧
        isToolChoiceUnsupported functions first.content then
      input.secondCall
    else some first

/-- The entry and the update of a response that is accepted. -/
def ConsolidationResponse.payload (response : ConsolidationResponse) :
    Option (Text × Text) :=
  match response.toolCalls with
  | .obj args :: _ =>
      match fieldOf args "history_entry", fieldOf args "memory_update" with
      | none, _ | _, none | some .null, _ | _, some .null => none
      | some entry, some update =>
          let entry := strip (ensureText entry)
          if entry = [] then none else some (entry, ensureText update)
  | _ => none

namespace MemoryStore

variable (store : MemoryStore)

/-- `append_history`; the store is what is left of it if it raises. -/
def appendHistory (entry : Text) :
    Option Text → Except MemoryStore MemoryStore
  | none =>
      .ok
        { store with
          history := store.history ++ [rstrip entry ++ ['\n', '\n']] }
  | some left =>
      .error
        { store with
          history := store.history ++ if left = [] then [] else [left] }

/-- `write_long_term` -/
def writeLongTerm (content : Text) :
    Option Text → Except MemoryStore MemoryStore
  | none => .ok { store with memory := content }
  | some left => .error { store with memory := left }

/-- The long-term memory is only written if it changes. -/
def updateLongTerm (currentMemory update : Text) (outcome : Option Text) :
    Except MemoryStore MemoryStore :=
  if update = currentMemory then .ok store
  else store.writeLongTerm update outcome

section

variable (functions : TextFunctions) (messages : List Record)

/-- `_raw_archive` -/
def rawArchive (now : Text) (outcome : Option Text) :
    Except MemoryStore MemoryStore :=
  match formatMessages functions messages with
  | none => .error store
  | some formatted =>
      store.appendHistory
        ("[".toList ++ now ++ "] [RAW] ".toList ++
          dumpNat messages.length ++ " messages\n".toList ++ formatted)
        outcome

/-- `_fail_or_raw_archive` -/
def failOrRawArchive (now : Text) (outcome : Option Text) :
    Except MemoryStore (Bool × MemoryStore) :=
  let failed :=
    { store with consecutiveFailures := store.consecutiveFailures + 1 }
  if failed.consecutiveFailures < maxFailuresBeforeRawArchive then
    .ok (false, failed)
  else
    (failed.rawArchive functions messages now outcome).map fun archived =>
      (true, { archived with consecutiveFailures := 0 })

/-- What `consolidate` does with an entry and an update. -/
def acceptPayload (currentMemory entry update : Text)
    (input : AttemptInput) : Except MemoryStore (Bool × MemoryStore) := do
  let appended ← store.appendHistory entry input.appendEntry
  let written ←
    appended.updateLongTerm currentMemory update input.writeMemory
  return (true, { written with consecutiveFailures := 0 })

/-- The `try` block of `consolidate`, from the response on. -/
def tryConsolidate (currentMemory : Text) (input : AttemptInput) :
    Except MemoryStore (Bool × MemoryStore) :=
  match input.response functions with
  | none => .error store
  | some response =>
      match response.payload with
      | none =>
          store.failOrRawArchive functions messages input.now input.appendRaw
      | some (entry, update) =>
          store.acceptPayload currentMemory entry update input

/-- `consolidate`, with the memory it has read before it asks the model. -/
def consolidate (currentMemory : Text) (input : AttemptInput) :
    Except MemoryStore (Bool × MemoryStore) :=
  if messages = [] then .ok (true, store)
  else
    match store.tryConsolidate functions messages currentMemory input with
    | .ok result => .ok result
    | .error left =>
        left.failOrRawArchive functions messages input.now
          input.appendRawAgain

end

end MemoryStore

/-! ## The consolidator -/

/-- The settings of a consolidator, and its estimates of tokens. -/
structure MemoryConsolidator where
  functions : TextFunctions
  estimateMessageTokens : Record → Option Int
  contextWindowTokens : Int
  maxCompletionTokens : Int

/-- `_MAX_CONSOLIDATION_ROUNDS` -/
def maxConsolidationRounds : Nat := 5

/-- `_SAFETY_BUFFER` -/
def safetyBuffer : Int := 1024

namespace MemoryConsolidator

variable (consolidator : MemoryConsolidator)

def budget : Int :=
  consolidator.contextWindowTokens - consolidator.maxCompletionTokens -
    safetyBuffer

def target : Int := consolidator.budget.fdiv 2

/-- The loop of `pick_consolidation_boundary`; an estimate may raise. -/
def boundaryFrom (start : Nat) (tokensToRemove : Int) :
    Nat → Int → Option (Nat × Int) → List Record →
      Option (Option (Nat × Int))
  | _, _, lastBoundary, [] => some lastBoundary
  | index, removedTokens, lastBoundary, message :: rest =>
      let isBoundary := start < index ∧ message.fieldIs "role" "user"
      if isBoundary ∧ tokensToRemove ≤ removedTokens then
        some (some (index, removedTokens))
      else
        (consolidator.estimateMessageTokens message).bind fun tokens =>
          boundaryFrom start tokensToRemove (index + 1)
            (removedTokens + tokens)
            (if isBoundary then some (index, removedTokens)
            else lastBoundary)
            rest

/-- `pick_consolidation_boundary` -/
def pickConsolidationBoundary (messages : List Record)
    (lastConsolidated : Nat) (tokensToRemove : Int) :
    Option (Option (Nat × Int)) :=
  if messages.length ≤ lastConsolidated ∨ tokensToRemove ≤ 0 then some none
  else
    consolidator.boundaryFrom lastConsolidated tokensToRemove
      lastConsolidated 0 none (messages.drop lastConsolidated)

end MemoryConsolidator

/-- Where `maybe_consolidate_by_tokens` is, which holds a lock while it runs. -/
inductive ConsolidationPhase where
  | idle
  | looping (round : Nat) (estimated : Int)
  | archiving (round stop : Nat) (chunk : List Record) (currentMemory : Text)

/-- An attempt that has ended, and what it wrote to the history. -/
structure ArchiveAttempt where
  start : Nat
  stop : Nat
  chunk : List Record
  archived : Bool
  written : List Text

structure ConsolidationState where
  messages : List Record
  lastConsolidated : Nat
  store : MemoryStore
  phase : ConsolidationPhase
  attempts : List ArchiveAttempt

/-- A session without messages. -/
def ConsolidationState.fresh (store : MemoryStore) : ConsolidationState :=
  ⟨[], 0, store, .idle, []⟩

inductive ConsolidationStep where
  /-- Messages are appended to the session. -/
  | append (messages : List Record)
  /-- `maybe_consolidate_by_tokens` is called and has made its estimate. -/
  | enter (estimated : Int)
  /-- A round begins; reading the long-term memory may raise. -/
  | begin (readFails : Bool)
  /-- The attempt ends; saving the session and the next estimate may raise. -/
  | finish (input : AttemptInput) (saveFails : Bool) (estimated : Option Int)
  /-- The task is cancelled while the model is asked. -/
  | cancel
  /-- Another session uses the store. -/
  | others (memory : Text) (written : List Text) (failures : Nat)

namespace MemoryConsolidator

variable (consolidator : MemoryConsolidator)

/-- The head of the loop, down to the call of the model. -/
def beginRound (state : ConsolidationState) (round : Nat) (estimated : Int)
    (readFails : Bool) : ConsolidationPhase :=
  if maxConsolidationRounds ≤ round ∨ estimated ≤ consolidator.target then
    .idle
  else
    match
      consolidator.pickConsolidationBoundary state.messages
        state.lastConsolidated (max 1 (estimated - consolidator.target))
    with
    | none | some none => .idle
    | some (some (stop, _)) =>
        let chunk := slice state.messages state.lastConsolidated stop
        if chunk = [] ∨ readFails ∨
            (formatMessages consolidator.functions chunk).isNone then
          .idle
        else .archiving round stop chunk state.store.memory

/-- The record of an attempt. -/
def recordAttempt (state : ConsolidationState) (stop : Nat)
    (chunk : List Record) (archived : Bool) (store : MemoryStore) :
    ArchiveAttempt :=
  ⟨state.lastConsolidated, stop, chunk, archived,
    store.history.drop state.store.history.length⟩

/-- What the loop does with the result of `consolidate_messages`. -/
def finishRound (state : ConsolidationState) (round stop : Nat)
    (chunk : List Record) (saveFails : Bool) (estimated : Option Int) :
    Except MemoryStore (Bool × MemoryStore) → ConsolidationState
  | .error store =>
      { state with
        store
        phase := .idle
        attempts :=
          state.attempts ++ [recordAttempt state stop chunk false store] }
  | .ok (false, store) =>
      { state with
        store
        phase := .idle
        attempts :=
          state.attempts ++ [recordAttempt state stop chunk false store] }
  | .ok (true, store) =>
      { state with
        lastConsolidated := stop
        store
        phase :=
          if saveFails then .idle
          else
            match estimated with
            | none => .idle
            | some tokens =>
                if tokens ≤ 0 then .idle else .looping (round + 1) tokens
        attempts :=
          state.attempts ++ [recordAttempt state stop chunk true store] }

/-- One step of `maybe_consolidate_by_tokens`, or of its surroundings. -/
def step (state : ConsolidationState) :
    ConsolidationStep → ConsolidationState
  | .append messages =>
      { state with messages := state.messages ++ messages }
  | .enter estimated =>
      match state.phase with
      | .idle =>
          if state.messages = [] ∨ consolidator.contextWindowTokens ≤ 0 ∨
              estimated ≤ 0 ∨ estimated < consolidator.budget then
            state
          else { state with phase := .looping 0 estimated }
      | _ => state
  | .begin readFails =>
      match state.phase with
      | .looping round estimated =>
          { state with
            phase := consolidator.beginRound state round estimated readFails }
      | _ => state
  | .finish input saveFails estimated =>
      match state.phase with
      | .archiving round stop chunk currentMemory =>
          finishRound state round stop chunk saveFails estimated
            (state.store.consolidate consolidator.functions chunk
              currentMemory input)
      | _ => state
  | .cancel => { state with phase := .idle }
  | .others memory written failures =>
      { state with
        store := ⟨memory, state.store.history ++ written, failures⟩ }

def run (store : MemoryStore) (steps : List ConsolidationStep) :
    ConsolidationState :=
  steps.foldl consolidator.step (.fresh store)

end MemoryConsolidator

/-! ## What an attempt writes -/

/-- The number of writes to the history is one for each archived chunk. -/
def WritesOnce (archived : Bool) (written : List Text) : Prop :=
  written.length = if archived then 1 else 0

/-- The response is there, and its payload is not accepted. -/
def AttemptInput.Refused (functions : TextFunctions) (input : AttemptInput) :
    Prop :=
  ∃ response, input.response functions = some response ∧
    response.payload = none

def AttemptInput.accepted (functions : TextFunctions)
    (input : AttemptInput) : Option (Text × Text) :=
  (input.response functions).bind ConsolidationResponse.payload

/--
The long-term memory is written when the history is, and a write to the
history that raises leaves nothing there.
-/
structure WritesWhole (functions : TextFunctions) (store : MemoryStore)
    (currentMemory : Text) (input : AttemptInput) : Prop where
  memory :
    ∀ entry update, input.accepted functions = some (entry, update) →
      input.appendEntry = none → update ≠ currentMemory →
        input.writeMemory = none
  entry :
    ∀ left, (input.accepted functions).isSome →
      input.appendEntry = some left → left = []
  raw :
    ∀ left, input.Refused functions →
      maxFailuresBeforeRawArchive ≤ store.consecutiveFailures + 1 →
        input.appendRaw = some left → left = []
  rawAgain :
    ∀ left,
      input.response functions = none ∨
          ((input.accepted functions).isSome ∧ input.appendEntry ≠ none) ∨
          (input.Refused functions ∧ input.appendRaw ≠ none) →
        maxFailuresBeforeRawArchive ≤ store.consecutiveFailures + 1 →
          input.appendRawAgain = some left → left = []

/-- What is written by an attempt that gives this result. -/
def writtenBy (store : MemoryStore) :
    Except MemoryStore (Bool × MemoryStore) → Bool × List Text
  | .ok (archived, after) =>
      (archived, after.history.drop store.history.length)
  | .error after => (false, after.history.drop store.history.length)

section Attempt

variable {functions : TextFunctions} {messages : List Record}

theorem failOrRawArchive_cases (store : MemoryStore) (now : Text)
    (outcome : Option Text)
    (formatted : (formatMessages functions messages).isSome) :
    (store.consecutiveFailures + 1 < maxFailuresBeforeRawArchive ∧
      store.failOrRawArchive functions messages now outcome =
        .ok
          (false,
            { store with
              consecutiveFailures := store.consecutiveFailures + 1 })) ∨
      (maxFailuresBeforeRawArchive ≤ store.consecutiveFailures + 1 ∧
        outcome = none ∧
        ∃ entry, store.failOrRawArchive functions messages now outcome =
          .ok (true, ⟨store.memory, store.history ++ [entry], 0⟩)) ∨
      (maxFailuresBeforeRawArchive ≤ store.consecutiveFailures + 1 ∧
        ∃ left, outcome = some left ∧
          store.failOrRawArchive functions messages now outcome =
            .error
              ⟨store.memory,
                store.history ++ if left = [] then [] else [left],
                store.consecutiveFailures + 1⟩) := by
  obtain ⟨text, isText⟩ := Option.isSome_iff_exists.mp formatted
  rw [MemoryStore.failOrRawArchive]
  dsimp only
  split
  · next few => exact .inl ⟨few, rfl⟩
  · next many =>
    rw [not_lt] at many
    rw [MemoryStore.rawArchive, isText]
    cases outcome with
    | none => exact .inr (.inl ⟨many, rfl, _, rfl⟩)
    | some left => exact .inr (.inr ⟨many, left, rfl, rfl⟩)

/-- The attempt that gives this result writes once if it archives. -/
def ResultWritesOnce (store : MemoryStore)
    (result : Except MemoryStore (Bool × MemoryStore)) : Prop :=
  WritesOnce (writtenBy store result).1 (writtenBy store result).2

/--
After writes that belong to the attempt, the fallback is one write too many.
-/
theorem failOrRawArchive_writesOnce {before store : MemoryStore}
    (pieces : List Text) (history : store.history = before.history ++ pieces)
    (now : Text) (outcome : Option Text)
    (formatted : (formatMessages functions messages).isSome) :
    ResultWritesOnce before
        (store.failOrRawArchive functions messages now outcome) ↔
      pieces = [] ∧
        (maxFailuresBeforeRawArchive ≤ store.consecutiveFailures + 1 →
          ∀ left, outcome = some left → left = []) := by
  rw [ResultWritesOnce]
  rcases failOrRawArchive_cases store now outcome formatted with
    ⟨few, result⟩ | ⟨many, rfl, entry, result⟩ | ⟨many, left, rfl, result⟩
  · rw [result]
    simp [writtenBy, history, WritesOnce, Nat.not_le.mpr few]
  · rw [result]
    simp [writtenBy, history, WritesOnce]
  · rw [result]
    by_cases nothing : left = []
    · simp [writtenBy, history, WritesOnce, nothing]
    · simp [writtenBy, history, WritesOnce, nothing, many]

variable {store : MemoryStore} {currentMemory : Text} {input : AttemptInput}

theorem consolidate_eq (nonempty : messages ≠ []) :
    store.consolidate functions messages currentMemory input =
      match store.tryConsolidate functions messages currentMemory input with
      | .ok result => .ok result
      | .error left =>
          left.failOrRawArchive functions messages input.now
            input.appendRawAgain :=
  if_neg nonempty

theorem consolidate_noResponse (nonempty : messages ≠ [])
    (formatted : (formatMessages functions messages).isSome)
    (noResponse : input.response functions = none) :
    ResultWritesOnce store
        (store.consolidate functions messages currentMemory input) ↔
      WritesWhole functions store currentMemory input := by
  have notAccepted : input.accepted functions = none := by
    rw [AttemptInput.accepted, noResponse]
    rfl
  have notRefused : ¬ input.Refused functions := by
    rintro ⟨response, isResponse, _⟩
    rw [noResponse] at isResponse
    cases isResponse
  rw [consolidate_eq nonempty, MemoryStore.tryConsolidate, noResponse]
  dsimp only
  rw [failOrRawArchive_writesOnce [] (by simp) _ _ formatted]
  constructor
  · rintro ⟨-, again⟩
    exact
      { memory := by simp [notAccepted]
        entry := by simp [notAccepted]
        raw := fun left refused => absurd refused notRefused
        rawAgain := fun left _ many => again many left }
  · intro whole
    exact ⟨rfl, fun many left => whole.rawAgain left (.inl noResponse) many⟩

theorem consolidate_refused (nonempty : messages ≠ [])
    (formatted : (formatMessages functions messages).isSome)
    (refused : input.Refused functions) :
    ResultWritesOnce store
        (store.consolidate functions messages currentMemory input) ↔
      WritesWhole functions store currentMemory input := by
  obtain ⟨response, isResponse, noPayload⟩ := refused
  have notAccepted : input.accepted functions = none := by
    rw [AttemptInput.accepted, isResponse]
    exact noPayload
  have ended :
      store.tryConsolidate functions messages currentMemory input =
        store.failOrRawArchive functions messages input.now
          input.appendRaw := by
    rw [MemoryStore.tryConsolidate, isResponse]
    simp only [noPayload]
  have wholeIff :
      WritesWhole functions store currentMemory input ↔
        (maxFailuresBeforeRawArchive ≤ store.consecutiveFailures + 1 →
          ∀ left, input.appendRaw = some left → left = []) ∧
        (input.appendRaw ≠ none →
          maxFailuresBeforeRawArchive ≤ store.consecutiveFailures + 1 →
            ∀ left, input.appendRawAgain = some left → left = []) := by
    constructor
    · intro whole
      exact
        ⟨fun many left =>
            whole.raw left ⟨response, isResponse, noPayload⟩ many,
          fun raised many left =>
            whole.rawAgain left
              (.inr (.inr ⟨⟨response, isResponse, noPayload⟩, raised⟩)) many⟩
    · rintro ⟨raw, again⟩
      exact
        { memory := by simp [notAccepted]
          entry := by simp [notAccepted]
          raw := fun left _ many => raw many left
          rawAgain := by
            rintro left (noResponse | ⟨accepted, _⟩ | ⟨_, raised⟩) many
            · rw [isResponse] at noResponse
              cases noResponse
            · rw [notAccepted] at accepted
              cases accepted
            · exact again raised many left }
  rw [consolidate_eq nonempty, ended, wholeIff]
  rcases failOrRawArchive_cases store input.now input.appendRaw formatted with
    ⟨few, result⟩ | ⟨many, isNone, entry, result⟩ |
      ⟨many, left, isSome, result⟩
  · rw [result]
    simp [ResultWritesOnce, WritesOnce, writtenBy, Nat.not_le.mpr few]
  · rw [result]
    simp [ResultWritesOnce, WritesOnce, writtenBy, isNone]
  · rw [result]
    dsimp only
    rw [failOrRawArchive_writesOnce (if left = [] then [] else [left]) rfl
      _ _ formatted]
    have still : maxFailuresBeforeRawArchive ≤
        store.consecutiveFailures + 1 + 1 := by omega
    simp [isSome, many, still]

theorem consolidate_accepted (nonempty : messages ≠ [])
    (formatted : (formatMessages functions messages).isSome)
    {entry update : Text}
    (accepted : input.accepted functions = some (entry, update)) :
    ResultWritesOnce store
        (store.consolidate functions messages currentMemory input) ↔
      WritesWhole functions store currentMemory input := by
  obtain ⟨response, isResponse, payload⟩ := Option.bind_eq_some_iff.mp accepted
  have ended :
      store.tryConsolidate functions messages currentMemory input =
        store.acceptPayload currentMemory entry update input := by
    rw [MemoryStore.tryConsolidate, isResponse]
    simp only [payload]
  have wholeIff :
      WritesWhole functions store currentMemory input ↔
        (input.appendEntry = none → update ≠ currentMemory →
          input.writeMemory = none) ∧
        (∀ left, input.appendEntry = some left → left = []) ∧
        (input.appendEntry ≠ none →
          maxFailuresBeforeRawArchive ≤ store.consecutiveFailures + 1 →
            ∀ left, input.appendRawAgain = some left → left = []) := by
    constructor
    · intro whole
      exact
        ⟨whole.memory entry update accepted,
          fun left => whole.entry left (by rw [accepted]; rfl),
          fun raised many left =>
            whole.rawAgain left
              (.inr (.inl ⟨by rw [accepted]; rfl, raised⟩)) many⟩
    · rintro ⟨memory, entryWhole, again⟩
      have notRefused : ¬ input.Refused functions := by
        rintro ⟨other, isOther, noPayload⟩
        cases isResponse.symm.trans isOther
        rw [payload] at noPayload
        cases noPayload
      exact
        { memory := fun other otherUpdate isAccepted => by
            cases accepted.symm.trans isAccepted
            exact memory
          entry := fun left _ => entryWhole left
          raw := fun left refused => absurd refused notRefused
          rawAgain := by
            rintro left (noResponse | ⟨_, raised⟩ | ⟨refused, _⟩) many
            · rw [isResponse] at noResponse
              cases noResponse
            · exact again raised many left
            · exact absurd refused notRefused }
  rw [consolidate_eq nonempty, ended, wholeIff]
  rcases appended : input.appendEntry with _ | left
  · by_cases same : update = currentMemory
    · have result :
          store.acceptPayload currentMemory entry update input =
            .ok
              (true,
                ⟨store.memory,
                  store.history ++ [rstrip entry ++ ['\n', '\n']], 0⟩) := by
        simp only [MemoryStore.acceptPayload, MemoryStore.updateLongTerm,
          if_pos same, appended]
        rfl
      rw [result]
      simp [ResultWritesOnce, WritesOnce, writtenBy, same]
    · rcases wrote : input.writeMemory with _ | left
      · have result :
            store.acceptPayload currentMemory entry update input =
              .ok
                (true,
                  ⟨update, store.history ++ [rstrip entry ++ ['\n', '\n']],
                    0⟩) := by
          simp only [MemoryStore.acceptPayload, MemoryStore.updateLongTerm,
            if_neg same, appended, wrote]
          rfl
        rw [result]
        simp [ResultWritesOnce, WritesOnce, writtenBy]
      · have result :
            store.acceptPayload currentMemory entry update input =
              .error
                ⟨left, store.history ++ [rstrip entry ++ ['\n', '\n']],
                  store.consecutiveFailures⟩ := by
          simp only [MemoryStore.acceptPayload, MemoryStore.updateLongTerm,
            if_neg same, appended, wrote]
          rfl
        rw [result]
        dsimp only
        rw [failOrRawArchive_writesOnce [rstrip entry ++ ['\n', '\n']] rfl
          _ _ formatted]
        simp [same]
  · have result :
        store.acceptPayload currentMemory entry update input =
          .error
            { store with
              history :=
                store.history ++ if left = [] then [] else [left] } := by
      rw [MemoryStore.acceptPayload, appended]
      rfl
    rw [result]
    dsimp only
    rw [failOrRawArchive_writesOnce (if left = [] then [] else [left]) rfl
      _ _ formatted]
    simp

/-- An attempt writes once, or not at all, if and only if its writes end. -/
theorem consolidate_writesOnce_iff (nonempty : messages ≠ [])
    (formatted : (formatMessages functions messages).isSome) :
    ResultWritesOnce store
        (store.consolidate functions messages currentMemory input) ↔
      WritesWhole functions store currentMemory input := by
  cases isResponse : input.response functions with
  | none => exact consolidate_noResponse nonempty formatted isResponse
  | some response =>
      cases payload : response.payload with
      | none =>
          exact
            consolidate_refused nonempty formatted
              ⟨response, isResponse, payload⟩
      | some accepted =>
          have isAccepted : input.accepted functions = some accepted := by
            rw [AttemptInput.accepted, isResponse]
            exact payload
          exact consolidate_accepted nonempty formatted isAccepted

end Attempt

/-! ## Boundaries -/

/-- A message of the user is at this index. -/
def IsUserAt (messages : List Record) (index : Nat) : Prop :=
  ∃ message, messages[index]? = some message ∧
    message.fieldIs "role" "user" = true

theorem IsUserAt.lt {messages : List Record} {index : Nat}
    (isUser : IsUserAt messages index) : index < messages.length := by
  obtain ⟨message, found, _⟩ := isUser
  exact (List.getElem?_eq_some_iff.mp found).1

theorem IsUserAt.append {messages : List Record} {index : Nat}
    (isUser : IsUserAt messages index) (more : List Record) :
    IsUserAt (messages ++ more) index := by
  obtain ⟨message, found, role⟩ := isUser
  refine ⟨message, ?_, role⟩
  rw [List.getElem?_append_left (List.getElem?_eq_some_iff.mp found).1]
  exact found

namespace MemoryConsolidator

variable (consolidator : MemoryConsolidator)

/-- A boundary is at a message of the user behind the start. -/
theorem boundaryFrom_isUser {messages : List Record} {start : Nat}
    {tokensToRemove : Int} (rest : List Record) {index : Nat} {removed : Int}
    {lastBoundary : Option (Nat × Int)} {stop : Nat} {tokens : Int}
    (suffix : messages.drop index = rest)
    (before :
      ∀ boundary, lastBoundary = some boundary →
        start < boundary.1 ∧ IsUserAt messages boundary.1)
    (found :
      consolidator.boundaryFrom start tokensToRemove index removed
        lastBoundary rest = some (some (stop, tokens))) :
    start < stop ∧ IsUserAt messages stop := by
  induction rest generalizing index removed lastBoundary with
  | nil => exact before _ (Option.some.inj found)
  | cons message rest induction =>
      have here : messages[index]? = some message := by
        rw [← List.head?_drop, suffix]
        rfl
      have isBoundary
          (boundary : start < index ∧ message.fieldIs "role" "user" = true) :
          start < index ∧ IsUserAt messages index :=
        ⟨boundary.1, message, here, boundary.2⟩
      rw [MemoryConsolidator.boundaryFrom] at found
      split at found
      · next enough =>
        cases found
        exact isBoundary enough.1
      · obtain ⟨estimate, _, found⟩ := Option.bind_eq_some_iff.mp found
        refine induction ?_ ?_ found
        · rw [← List.drop_drop, suffix]
          rfl
        · intro boundary isLast
          split at isLast
          · next boundaryHere =>
            cases isLast
            exact isBoundary boundaryHere
          · exact before boundary isLast

theorem pickConsolidationBoundary_isUser {messages : List Record}
    {lastConsolidated : Nat} {tokensToRemove : Int} {stop : Nat}
    {tokens : Int}
    (picked :
      consolidator.pickConsolidationBoundary messages lastConsolidated
        tokensToRemove = some (some (stop, tokens))) :
    lastConsolidated < stop ∧ IsUserAt messages stop := by
  rw [pickConsolidationBoundary] at picked
  split at picked
  · cases picked
  · exact boundaryFrom_isUser _ _ rfl (by nofun) picked

end MemoryConsolidator

/-! ## What has been archived -/

/-- The attempts archived chunks that follow one another. -/
def Consecutive (messages : List Record) :
    Nat → List ArchiveAttempt → Nat → Prop
  | start, [], stop => start = stop
  | start, attempt :: rest, stop =>
      (attempt.start = start ∧ start < attempt.stop ∧
        IsUserAt messages attempt.stop ∧
        attempt.chunk = slice messages start attempt.stop) ∧
        Consecutive messages attempt.stop rest stop

namespace Consecutive

variable {messages : List Record} {start stop : Nat}
  {attempts : List ArchiveAttempt}

theorem append (consecutive : Consecutive messages start attempts stop)
    (more : List Record) :
    Consecutive (messages ++ more) start attempts stop := by
  induction attempts generalizing start with
  | nil => exact consecutive
  | cons attempt rest induction =>
      obtain ⟨⟨begins, room, isUser, chunk⟩, later⟩ := consecutive
      refine ⟨⟨begins, room, isUser.append more, ?_⟩, induction later⟩
      rw [slice_append isUser.lt.le]
      exact chunk

theorem snoc (consecutive : Consecutive messages start attempts stop)
    {attempt : ArchiveAttempt} (begins : attempt.start = stop)
    (room : stop < attempt.stop) (isUser : IsUserAt messages attempt.stop)
    (chunk : attempt.chunk = slice messages stop attempt.stop) :
    Consecutive messages start (attempts ++ [attempt]) attempt.stop := by
  induction attempts generalizing start with
  | nil =>
      cases consecutive
      exact ⟨⟨begins, room, isUser, chunk⟩, rfl⟩
  | cons first rest induction => exact ⟨consecutive.1, induction consecutive.2⟩

theorem le (consecutive : Consecutive messages start attempts stop) :
    start ≤ stop := by
  induction attempts generalizing start with
  | nil => exact Nat.le_of_eq consecutive
  | cons attempt rest induction =>
      exact consecutive.1.2.1.le.trans (induction consecutive.2)

/-- The chunks are the messages, each once and in order. -/
theorem flatten (consecutive : Consecutive messages start attempts stop) :
    (attempts.map ArchiveAttempt.chunk).flatten =
      slice messages start stop := by
  induction attempts generalizing start with
  | nil =>
      cases consecutive
      rw [slice, Nat.sub_self, List.take_zero]
      rfl
  | cons attempt rest induction =>
      obtain ⟨⟨_, room, _, chunk⟩, later⟩ := consecutive
      rw [List.map_cons, List.flatten_cons, chunk, induction later]
      exact slice_append_slice messages room.le later.le

theorem isUser (consecutive : Consecutive messages start attempts stop) :
    stop = start ∨ IsUserAt messages stop := by
  induction attempts generalizing start with
  | nil => exact .inl consecutive.symm
  | cons attempt rest induction =>
      rcases induction consecutive.2 with rfl | later
      · exact .inr consecutive.1.2.2.1
      · exact .inr later

end Consecutive

/-- Each message before the pointer is archived once, and none behind it. -/
structure ArchivesOnce (state : ConsolidationState) : Prop where
  consecutive :
    Consecutive state.messages 0
      (state.attempts.filter fun attempt => attempt.archived)
      state.lastConsolidated
  once :
    ((state.attempts.filter fun attempt => attempt.archived).map
      ArchiveAttempt.chunk).flatten =
        state.messages.take state.lastConsolidated
  written :
    ∀ attempt ∈ state.attempts, WritesOnce attempt.archived attempt.written
  bounded : state.lastConsolidated ≤ state.messages.length
  boundary :
    state.lastConsolidated = 0 ∨
      state.lastConsolidated = state.messages.length ∨
      IsUserAt state.messages state.lastConsolidated

namespace MemoryConsolidator

variable (consolidator : MemoryConsolidator)

/-- What holds while a chunk is archived. -/
def PhaseInvariant (state : ConsolidationState) : Prop :=
  ∀ round stop chunk currentMemory,
    state.phase = .archiving round stop chunk currentMemory →
      state.lastConsolidated < stop ∧ IsUserAt state.messages stop ∧
        chunk = slice state.messages state.lastConsolidated stop ∧
        chunk ≠ [] ∧ (formatMessages consolidator.functions chunk).isSome

structure ConsolidationInvariant (state : ConsolidationState) : Prop where
  consecutive :
    Consecutive state.messages 0
      (state.attempts.filter fun attempt => attempt.archived)
      state.lastConsolidated
  phase : consolidator.PhaseInvariant state

theorem fresh_invariant (store : MemoryStore) :
    consolidator.ConsolidationInvariant (.fresh store) :=
  ⟨rfl, by nofun⟩

theorem beginRound_invariant (state : ConsolidationState)
    (round : Nat) (estimated : Int) (readFails : Bool) :
    consolidator.PhaseInvariant
      { state with
        phase := consolidator.beginRound state round estimated readFails } := by
  intro archiveRound stop chunk currentMemory archiving
  change consolidator.beginRound state round estimated readFails = _
    at archiving
  rw [beginRound] at archiving
  split at archiving
  · cases archiving
  · split at archiving
    · cases archiving
    · cases archiving
    · next boundary tokens picked =>
      dsimp only at archiving
      split at archiving
      · cases archiving
      · next goes =>
        cases archiving
        rw [not_or, not_or] at goes
        have ⟨room, isUser⟩ :=
          consolidator.pickConsolidationBoundary_isUser picked
        refine ⟨room, isUser, rfl, goes.1, ?_⟩
        rw [← Option.not_isNone]
        simp [goes.2.2]

variable {consolidator}

theorem ConsolidationInvariant.withPhase {state : ConsolidationState}
    (invariant : consolidator.ConsolidationInvariant state)
    (phase : ConsolidationPhase)
    (notArchiving :
      ∀ round stop chunk currentMemory,
        phase ≠ .archiving round stop chunk currentMemory) :
    consolidator.ConsolidationInvariant { state with phase } :=
  ⟨invariant.consecutive,
    fun round stop chunk currentMemory archiving =>
      absurd archiving (notArchiving round stop chunk currentMemory)⟩

/-- The record of the attempt that is added at the end of a round. -/
theorem finishRound_attempts (state : ConsolidationState) (round stop : Nat)
    (chunk : List Record) (saveFails : Bool) (estimated : Option Int)
    (result : Except MemoryStore (Bool × MemoryStore)) :
    (finishRound state round stop chunk saveFails estimated result).attempts =
      state.attempts ++
        [⟨state.lastConsolidated, stop, chunk,
          (writtenBy state.store result).1,
          (writtenBy state.store result).2⟩] := by
  rcases result with store | ⟨archived, store⟩
  · rfl
  · cases archived <;> rfl

theorem finishRound_invariant {state : ConsolidationState}
    (invariant : consolidator.ConsolidationInvariant state)
    {round stop : Nat} {chunk : List Record}
    (room : state.lastConsolidated < stop)
    (isUser : IsUserAt state.messages stop)
    (isChunk : chunk = slice state.messages state.lastConsolidated stop)
    (saveFails : Bool) (estimated : Option Int)
    (result : Except MemoryStore (Bool × MemoryStore)) :
    consolidator.ConsolidationInvariant
      (finishRound state round stop chunk saveFails estimated result) := by
  have failed (store : MemoryStore) :
      (state.attempts ++
          [recordAttempt state stop chunk false store]).filter
          (fun attempt => attempt.archived) =
        state.attempts.filter fun attempt => attempt.archived := by
    rw [List.filter_append]
    exact List.append_nil _
  have succeeded (store : MemoryStore) :
      (state.attempts ++
          [recordAttempt state stop chunk true store]).filter
          (fun attempt => attempt.archived) =
        (state.attempts.filter fun attempt => attempt.archived) ++
          [recordAttempt state stop chunk true store] := by
    rw [List.filter_append]
    rfl
  rcases result with store | ⟨archived, store⟩
  · have consecutive := invariant.consecutive
    rw [← failed store] at consecutive
    exact ⟨consecutive, by nofun⟩
  · cases archived with
    | false =>
        have consecutive := invariant.consecutive
        rw [← failed store] at consecutive
        exact ⟨consecutive, by nofun⟩
    | true =>
        have consecutive :
            Consecutive state.messages 0
              ((state.attempts.filter fun attempt => attempt.archived) ++
                [recordAttempt state stop chunk true store])
              stop :=
          invariant.consecutive.snoc rfl room isUser isChunk
        rw [← succeeded store] at consecutive
        refine ⟨consecutive, ?_⟩
        intro archiveRound archiveStop archiveChunk currentMemory archiving
        dsimp only [finishRound] at archiving
        split at archiving
        · cases archiving
        · split at archiving
          · cases archiving
          · split at archiving <;> cases archiving

/-- A step keeps the invariant. -/
theorem step_invariant {state : ConsolidationState}
    (invariant : consolidator.ConsolidationInvariant state)
    (step : ConsolidationStep) :
    consolidator.ConsolidationInvariant (consolidator.step state step) := by
  cases step with
  | append messages =>
      refine ⟨invariant.consecutive.append messages, ?_⟩
      intro round stop chunk currentMemory archiving
      obtain ⟨room, isUser, isChunk, nonempty, formatted⟩ :=
        invariant.phase round stop chunk currentMemory archiving
      refine ⟨room, isUser.append messages, ?_, nonempty, formatted⟩
      rw [isChunk]
      exact (slice_append isUser.lt.le _ _).symm
  | enter estimated =>
      rw [MemoryConsolidator.step]
      split
      · split
        · exact invariant
        · exact invariant.withPhase _ (by nofun)
      · exact invariant
  | begin readFails =>
      rw [MemoryConsolidator.step]
      split
      · exact
          ⟨invariant.consecutive,
            consolidator.beginRound_invariant state _ _ readFails⟩
      · exact invariant
  | finish input saveFails estimated =>
      rw [MemoryConsolidator.step]
      split
      · next round stop chunk currentMemory archiving =>
        obtain ⟨room, isUser, isChunk, _⟩ :=
          invariant.phase round stop chunk currentMemory archiving
        exact finishRound_invariant invariant room isUser isChunk _ _ _
      · exact invariant
  | cancel => exact invariant.withPhase .idle (by nofun)
  | others memory written failures =>
      exact ⟨invariant.consecutive, invariant.phase⟩

theorem run_invariant (consolidator : MemoryConsolidator)
    (store : MemoryStore) (steps : List ConsolidationStep) :
    consolidator.ConsolidationInvariant (consolidator.run store steps) :=
  List.foldlRecOn steps consolidator.step (consolidator.fresh_invariant store)
    fun _ invariant step _ => step_invariant invariant step

/-- The pointer never goes back. -/
theorem step_lastConsolidated {state : ConsolidationState}
    (invariant : consolidator.ConsolidationInvariant state)
    (step : ConsolidationStep) :
    state.lastConsolidated ≤
      (consolidator.step state step).lastConsolidated := by
  cases step with
  | finish input saveFails estimated =>
      rw [MemoryConsolidator.step]
      split
      · next round stop chunk currentMemory archiving =>
        have room :=
          (invariant.phase round stop chunk currentMemory archiving).1
        rw [finishRound.eq_def]
        split
        · exact Nat.le_refl _
        · exact Nat.le_refl _
        · exact room.le
      · exact Nat.le_refl _
  | enter estimated =>
      rw [MemoryConsolidator.step]
      split
      · split <;> exact Nat.le_refl _
      · exact Nat.le_refl _
  | begin readFails =>
      rw [MemoryConsolidator.step]
      split <;> exact Nat.le_refl _
  | _ => exact Nat.le_refl _

/-! ## Runs whose writes end -/

/-- The writes of an attempt that ends with this step end. -/
def StepWritesWhole (consolidator : MemoryConsolidator)
    (state : ConsolidationState) (step : ConsolidationStep) : Prop :=
  match state.phase, step with
  | .archiving _ _ _ currentMemory, .finish input _ _ =>
      WritesWhole consolidator.functions state.store currentMemory input
  | _, _ => True

/-- The writes of all attempts of a run end. -/
def AllWriteWhole (consolidator : MemoryConsolidator) :
    ConsolidationState → List ConsolidationStep → Prop
  | _, [] => True
  | state, step :: rest =>
      StepWritesWhole consolidator state step ∧
        AllWriteWhole consolidator (consolidator.step state step) rest

/-- All attempts so far write once if they archive, and else nothing. -/
def AttemptsWriteOnce (state : ConsolidationState) : Prop :=
  ∀ attempt ∈ state.attempts, WritesOnce attempt.archived attempt.written

theorem step_attempts_iff {state : ConsolidationState}
    (invariant : consolidator.ConsolidationInvariant state)
    (step : ConsolidationStep) :
    AttemptsWriteOnce (consolidator.step state step) ↔
      AttemptsWriteOnce state ∧ StepWritesWhole consolidator state step := by
  have unchanged (same : (consolidator.step state step).attempts =
        state.attempts)
      (whole : StepWritesWhole consolidator state step) :
      AttemptsWriteOnce (consolidator.step state step) ↔
        AttemptsWriteOnce state ∧ StepWritesWhole consolidator state step := by
    rw [and_iff_left whole, AttemptsWriteOnce, same]
    rfl
  cases step with
  | finish input saveFails estimated =>
      cases archiving : state.phase with
      | archiving round stop chunk currentMemory =>
          obtain ⟨-, -, -, nonempty, formatted⟩ :=
            invariant.phase round stop chunk currentMemory archiving
          have ended :
              consolidator.step state (.finish input saveFails estimated) =
                finishRound state round stop chunk saveFails estimated
                  (state.store.consolidate consolidator.functions chunk
                    currentMemory input) := by
            rw [MemoryConsolidator.step, archiving]
          have whole :
              StepWritesWhole consolidator state
                  (.finish input saveFails estimated) ↔
                WritesWhole consolidator.functions state.store currentMemory
                  input := by
            simp only [StepWritesWhole, archiving]
          rw [ended, AttemptsWriteOnce, finishRound_attempts,
            List.forall_mem_append, List.forall_mem_singleton, whole]
          exact
            and_congr_right fun _ =>
              consolidate_writesOnce_iff nonempty formatted
      | idle =>
          apply unchanged
          · rw [MemoryConsolidator.step, archiving]
          · simp only [StepWritesWhole, archiving]
      | looping round tokens =>
          apply unchanged
          · rw [MemoryConsolidator.step, archiving]
          · simp only [StepWritesWhole, archiving]
  | enter estimated =>
      apply unchanged
      · rw [MemoryConsolidator.step]
        split
        · split <;> rfl
        · rfl
      · unfold StepWritesWhole
        cases state.phase <;> trivial
  | begin readFails =>
      apply unchanged
      · rw [MemoryConsolidator.step]
        split <;> rfl
      · unfold StepWritesWhole
        cases state.phase <;> trivial
  | _ =>
      apply unchanged rfl
      unfold StepWritesWhole
      cases state.phase <;> trivial

theorem run_attempts_iff {state : ConsolidationState}
    (invariant : consolidator.ConsolidationInvariant state)
    (steps : List ConsolidationStep) :
    AttemptsWriteOnce (steps.foldl consolidator.step state) ↔
      AttemptsWriteOnce state ∧ AllWriteWhole consolidator state steps := by
  induction steps generalizing state with
  | nil => exact (and_iff_left trivial).symm
  | cons step rest induction =>
      rw [List.foldl_cons, induction (step_invariant invariant step),
        step_attempts_iff invariant step, AllWriteWhole, and_assoc]

theorem AllWriteWhole.take {state : ConsolidationState}
    {steps : List ConsolidationStep}
    (whole : AllWriteWhole consolidator state steps) (count : Nat) :
    AllWriteWhole consolidator state (steps.take count) := by
  induction steps generalizing state count with
  | nil =>
      rw [List.take_nil]
      trivial
  | cons step rest induction =>
      cases count with
      | zero => trivial
      | succ count => exact ⟨whole.1, induction whole.2 count⟩

/-- All but the writes holds of any run. -/
theorem archivesOnce_run_iff (consolidator : MemoryConsolidator)
    (store : MemoryStore) (steps : List ConsolidationStep) :
    ArchivesOnce (consolidator.run store steps) ↔
      AllWriteWhole consolidator (.fresh store) steps := by
  have invariant := run_invariant consolidator store steps
  have consecutive := invariant.consecutive
  have written :=
    run_attempts_iff (consolidator.fresh_invariant store) steps
  constructor
  · intro archives
    exact (written.mp archives.written).2
  · intro whole
    have bounded :
        (consolidator.run store steps).lastConsolidated ≤
          (consolidator.run store steps).messages.length := by
      rcases consecutive.isUser with start | isUser
      · rw [start]
        exact Nat.zero_le _
      · exact isUser.lt.le
    exact
      { consecutive
        once := by
          rw [consecutive.flatten, slice, List.drop_zero, Nat.sub_zero]
        written := written.mpr ⟨by rintro _ ⟨⟩, whole⟩
        bounded
        boundary := consecutive.isUser.imp_right .inr }

/-- Each state of the run archives once, and the pointer never goes back. -/
def ArchivesOnceAlways (consolidator : MemoryConsolidator)
    (store : MemoryStore) (steps : List ConsolidationStep) : Prop :=
  ∀ count,
    ArchivesOnce (consolidator.run store (steps.take count)) ∧
      (consolidator.run store (steps.take count)).lastConsolidated ≤
        (consolidator.run store (steps.take (count + 1))).lastConsolidated

/--
Every message is archived exactly once in a run if and only if no attempt of
it is cut short between its writes, or within one.
-/
theorem archivesOnceAlways_iff (consolidator : MemoryConsolidator)
    (store : MemoryStore) (steps : List ConsolidationStep) :
    ArchivesOnceAlways consolidator store steps ↔
      AllWriteWhole consolidator (.fresh store) steps := by
  constructor
  · intro archives
    have last := (archives steps.length).1
    rw [List.take_length, archivesOnce_run_iff] at last
    exact last
  · intro whole count
    refine
      ⟨(archivesOnce_run_iff consolidator store _).mpr (whole.take count), ?_⟩
    by_cases inside : count < steps.length
    · rw [List.take_succ_eq_append_getElem inside, run, run,
        List.foldl_append]
      exact step_lastConsolidated (run_invariant consolidator store _) _
    · rw [List.take_of_length_le (Nat.le_of_not_lt inside),
        List.take_of_length_le (by omega)]

/-! ## A long-term memory that cannot be written -/

def asciiFunctions : TextFunctions where
  str := fun _ => []
  upper := List.map Char.toUpper
  lower := List.map Char.toLower

def smallWindow : MemoryConsolidator where
  functions := asciiFunctions
  estimateMessageTokens := fun _ => some 600
  contextWindowTokens := 3024
  maxCompletionTokens := 1000

def userMessage (text : String) : Record :=
  [("role", .str "user"), ("content", .str text),
    ("timestamp", .str "2025-01-01T00:00:00")]

/-- The response is accepted, and the file cannot be opened for writing. -/
def unwritableMemory : AttemptInput where
  now := "2025-01-01 00:00".toList
  firstCall :=
    some
      ⟨none, "tool_calls".toList,
        [.obj
          [("history_entry", .str "Greeted."),
            ("memory_update", .str "The user says hello.")]]⟩
  secondCall := none
  appendEntry := none
  writeMemory := some []
  appendRaw := none
  appendRawAgain := none

def unwritableRun : List ConsolidationStep :=
  [.append [userMessage "Hello", userMessage "Hello again"], .enter 1000,
    .begin false, .finish unwritableMemory false none]

/-- The attempt fails, and its entry is in the history. -/
theorem unwritable_leaves_entry :
    ¬ ArchivesOnceAlways smallWindow ⟨[], [], 0⟩ unwritableRun := by
  intro archives
  have written := (archives 4).1.written
  have attempted :
      (smallWindow.run ⟨[], [], 0⟩ (unwritableRun.take 4)).attempts.map
          (fun attempt => (attempt.archived, attempt.written.length)) =
        [(false, 1)] := by
    decide
  obtain ⟨attempt, member, isAttempt⟩ :=
    List.mem_map.mp (attempted ▸ List.mem_singleton_self (false, 1))
  have once := written attempt member
  rw [Prod.mk.injEq] at isAttempt
  rw [WritesOnce, isAttempt.1, isAttempt.2] at once
  cases once

end MemoryConsolidator

end AgentSchedBench.Agent
