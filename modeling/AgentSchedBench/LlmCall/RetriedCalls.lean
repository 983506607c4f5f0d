import AgentSchedBench.Agent.Message
import AgentSchedBench.Trace.Files
import Mathlib

/-!
# Model calls that are retried

A call that fails is made again after a delay if its error is transient, and
once without images if it is not.  The standard mode gives up after the last
delay, the persistent one when the same error has come too often.
-/

namespace AgentSchedBench.LlmCall

open Agent (isSpace)
open Trace (strip)

/-! ## Responses -/

/-- A response, as far as the retries read it. -/
structure RetriedResponse where
  content : Option (List Char)
  finishReason : String
deriving DecidableEq

/-- `str.lower`: blanks have no case, and no character is dropped. -/
structure Lowering where
  lower : List Char → List Char
  lower_blank : ∀ text, text.all isSpace = true → lower text = text
  lower_ne_nil : ∀ text, text ≠ [] → lower text ≠ []

/-- `str.lower` on ASCII texts -/
def asciiLowering : Lowering where
  lower text := text.map Char.toLower
  lower_blank text blank := by
    refine (List.map_congr_left fun char member => ?_).trans (List.map_id text)
    have isBlank := List.all_eq_true.mp blank char member
    rw [Char.toLower, dif_neg]
    · rfl
    · rintro ⟨above, below⟩
      have above : 65 ≤ char.toNat := above
      have below : char.toNat ≤ 90 := below
      simp [isSpace] at isBlank
      omega
  lower_ne_nil text notNil := by
    rwa [ne_eq, List.map_eq_nil_iff]

/-- `_CHAT_RETRY_DELAYS` -/
def chatRetryDelays : List Nat := [1, 2, 4, 8, 16, 32]

/-- `_PERSISTENT_IDENTICAL_ERROR_LIMIT` -/
def persistentIdenticalErrorLimit : Nat := 10

/-- `_TRANSIENT_ERROR_MARKERS` -/
def transientErrorMarkers : List String :=
  ["429", "rate limit", "rate increased", "too many requests", "500", "502",
    "503", "504", "overloaded", "timeout", "timed out", "connection",
    "server error", "temporarily unavailable"]

section Errors

variable (lowering : Lowering)

/-- `_is_transient_error` -/
def isTransientError (content : Option (List Char)) : Bool :=
  transientErrorMarkers.any fun marker =>
    decide (marker.toList <:+: lowering.lower (content.getD []))

/-- `error_key` -/
def errorKey (content : Option (List Char)) : Option (List Char) :=
  let key := lowering.lower (strip (content.getD []))
  if key = [] then none else some key

end Errors

/-! ## Images -/

/-- The text that stands for an image. -/
def omitImage : Agent.Block → Agent.Block
  | .image _ path =>
      .text (if path.isEmpty then "[image omitted]" else "[image: " ++ path ++ "]")
  | block => block

def isImage : Agent.Block → Bool
  | .image _ _ => true
  | _ => false

/-- `_strip_image_content`, unless there is no image -/
def stripImageContent (messages : List Agent.Message) :
    Option (List Agent.Message) :=
  let found := messages.any fun message =>
    match message.content with
    | .blocks blocks => blocks.any isImage
    | _ => false
  if found then
    some (messages.map fun message =>
      match message.content with
      | .blocks blocks =>
          { message with content := .blocks (blocks.map omitImage) }
      | _ => message)
  else none

/-- Is a call made without the images when it fails for another reason? -/
def omitsImages (messages original : List Agent.Message) : Bool :=
  match stripImageContent original with
  | some stripped => decide (stripped ≠ messages)
  | none => false

/-! ## Retries -/

/-- What the loop keeps. -/
structure RetryState where
  attempt : Nat
  lastErrorKey : Option (List Char)
  identicalErrorCount : Nat

/-- The calls that have been made, and the response if one is returned. -/
structure RetryRun where
  calls : Nat
  returned : Option RetriedResponse

/-- The calls of a run: do they go on after the last delay, and is there one
without images? -/
structure Retries where
  persistent : Bool
  omitsImages : Bool
  lowering : Lowering
  responses : Nat → RetriedResponse

namespace Retries

variable (retries : Retries)

/-- The count of errors that are alike. -/
def countError (state : RetryState) (response : RetriedResponse) : RetryState :=
  let key := errorKey retries.lowering response.content
  if key.isSome ∧ key = state.lastErrorKey then
    { state with
      attempt := state.attempt + 1
      identicalErrorCount := state.identicalErrorCount + 1 }
  else
    { attempt := state.attempt + 1
      lastErrorKey := key
      identicalErrorCount := if key.isSome then 1 else 0 }

/-- The loop, for so many passes; it waits before each pass but the first. -/
def loop : Nat → RetryState → RetryRun
  | 0, state => { calls := state.attempt, returned := none }
  | fuel + 1, state =>
      let response := retries.responses state.attempt
      let next := retries.countError state response
      if response.finishReason ≠ "error" then
        { calls := next.attempt, returned := some response }
      else if !isTransientError retries.lowering response.content then
        if retries.omitsImages then
          { calls := next.attempt + 1
            returned := some (retries.responses next.attempt) }
        else { calls := next.attempt, returned := some response }
      else if retries.persistent ∧
          persistentIdenticalErrorLimit ≤ next.identicalErrorCount then
        { calls := next.attempt, returned := some response }
      else if !retries.persistent ∧ chatRetryDelays.length < next.attempt then
        { calls := next.attempt, returned := some response }
      else loop fuel next

end Retries

/-- `_run_with_retry`: `responses` are those of the calls in their order. -/
def runWithRetry (lowering : Lowering) (responses : Nat → RetriedResponse)
    (messages original : List Agent.Message) (retryMode : String)
    (fuel : Nat) : RetryRun :=
  Retries.loop
    { persistent := decide (retryMode = "persistent")
      omitsImages := omitsImages messages original
      lowering := lowering
      responses := responses } fuel
    { attempt := 0, lastErrorKey := none, identicalErrorCount := 0 }

/-! ## Keys -/

section Keys

variable {lowering : Lowering}

theorem strip_eq_nil {text : List Char} (isNil : strip text = []) :
    text.all isSpace = true := by
  rw [strip, List.reverse_eq_nil_iff, List.dropWhile_eq_nil_iff] at isNil
  simp only [List.mem_reverse] at isNil
  rw [← List.takeWhile_append_dropWhile (p := isSpace) (l := text),
    List.all_append, Bool.and_eq_true_iff, List.all_eq_true, List.all_eq_true]
  exact ⟨fun _ member => List.mem_takeWhile_imp member, isNil⟩

/-- The text of a transient error is not blank. -/
theorem errorKey_of_isTransientError {content : Option (List Char)}
    (isTransient : isTransientError lowering content = true) :
    (errorKey lowering content).isSome = true := by
  have notBlank : strip (content.getD []) ≠ [] := by
    intro isNil
    have blank := strip_eq_nil isNil
    rw [isTransientError, lowering.lower_blank _ blank] at isTransient
    obtain ⟨marker, member, occurs⟩ := List.any_eq_true.mp isTransient
    have noMarker : transientErrorMarkers.all
        (fun marker => marker.toList.any fun char => !isSpace char) = true := by
      decide
    obtain ⟨char, inMarker, notSpace⟩ :=
      List.any_eq_true.mp (List.all_eq_true.mp noMarker marker member)
    have isBlank := List.all_eq_true.mp blank char
      ((of_decide_eq_true occurs).subset inMarker)
    rw [isBlank] at notSpace
    cases notSpace
  rw [errorKey, if_neg (lowering.lower_ne_nil _ notBlank)]
  rfl

end Keys

/-! ## Runs -/

namespace Retries

variable (retries : Retries)

/-- The response of the call is an error. -/
def IsError (call : Nat) : Prop :=
  (retries.responses call).finishReason = "error"

/-- The response of the call is a transient error with the key. -/
structure FailsAs (key : List Char) (call : Nat) : Prop where
  isError : retries.IsError call
  isTransient : isTransientError retries.lowering
    (retries.responses call).content = true
  hasKey : errorKey retries.lowering (retries.responses call).content = some key

/-- All calls so far have failed, and the count is that of the last ones that
have failed alike. -/
structure Reached (state : RetryState) : Prop where
  isError : ∀ call < state.attempt, retries.IsError call
  counted : ∀ first < state.attempt, ∀ key,
    (∀ call, first ≤ call → call < state.attempt → retries.FailsAs key call) →
      state.lastErrorKey = some key ∧
        state.attempt - first ≤ state.identicalErrorCount
  limited : retries.persistent = true →
    state.identicalErrorCount < persistentIdenticalErrorLimit
  identical : retries.persistent = true → ∀ first key,
    (∀ call, first ≤ call → call ≤ first + persistentIdenticalErrorLimit →
      retries.FailsAs key call) →
    state.attempt ≤ first + persistentIdenticalErrorLimit
  standard : retries.persistent = false →
    state.attempt ≤ chatRetryDelays.length

/-- What a run, finished or not, has done. -/
structure Sound (run : RetryRun) : Prop where
  isError : ∀ call, call + 1 < run.calls → retries.IsError call
  last : ∀ response, run.returned = some response →
    ∃ call, run.calls = call + 1 ∧ response = retries.responses call
  answer : ∀ call < run.calls, ¬retries.IsError call →
    run.returned = some (retries.responses call)
  standard : retries.persistent = false →
    run.calls ≤ chatRetryDelays.length + 1 + retries.omitsImages.toNat
  identical : retries.persistent = true → ∀ first key,
    (∀ call, first ≤ call → call ≤ first + persistentIdenticalErrorLimit →
      retries.FailsAs key call) →
    run.calls ≤ first + persistentIdenticalErrorLimit

variable {retries} {state : RetryState}

theorem attempt_countError (response : RetriedResponse) :
    (retries.countError state response).attempt = state.attempt + 1 := by
  rw [countError]
  split <;> rfl

/-- The count is that of the errors that are alike, also with the next one. -/
theorem Reached.counted_countError (reached : retries.Reached state) :
    ∀ first < state.attempt + 1, ∀ key,
      (∀ call, first ≤ call → call < state.attempt + 1 →
        retries.FailsAs key call) →
      (retries.countError state
          (retries.responses state.attempt)).lastErrorKey = some key ∧
        state.attempt + 1 - first ≤ (retries.countError state
          (retries.responses state.attempt)).identicalErrorCount := by
  intro first le key failsAs
  have here := (failsAs state.attempt (Nat.le_of_lt_succ le)
    (Nat.lt_succ_self _)).hasKey
  rw [countError, here]
  rcases Nat.lt_or_eq_of_le (Nat.le_of_lt_succ le) with before | rfl
  · obtain ⟨isKey, counted⟩ := reached.counted first before key
      fun call after below => failsAs call after (Nat.lt_succ_of_lt below)
    rw [if_pos ⟨rfl, isKey.symm⟩]
    exact ⟨isKey, by dsimp only; omega⟩
  · split
    · next same => exact ⟨same.2.symm, by dsimp only; omega⟩
    · refine ⟨rfl, ?_⟩
      rw [Nat.add_sub_cancel_left]
      exact Nat.le_refl 1

/-- The next call is not the one more that fails alike. -/
theorem Reached.identical_next (reached : retries.Reached state)
    (persistent : retries.persistent = true) {first : Nat} {key : List Char}
    (failsAs : ∀ call, first ≤ call →
      call ≤ first + persistentIdenticalErrorLimit → retries.FailsAs key call) :
    state.attempt + 1 ≤ first + persistentIdenticalErrorLimit := by
  have le := reached.identical persistent first key failsAs
  rcases Nat.lt_or_eq_of_le le with before | isLast
  · exact before
  · have positive : 0 < persistentIdenticalErrorLimit := by decide
    have counted := (reached.counted first (by omega) key
      fun call after below => failsAs call after (by omega)).2
    have limited := reached.limited persistent
    omega

/-- A run that ends with the next call is sound. -/
theorem Reached.sound_next (reached : retries.Reached state) :
    retries.Sound { calls := state.attempt + 1
                    returned := some (retries.responses state.attempt) } where
  isError call before := reached.isError call (Nat.lt_of_succ_lt_succ before)
  last := by
    rintro _ ⟨rfl⟩
    exact ⟨state.attempt, rfl, rfl⟩
  answer call before notError := by
    rcases Nat.lt_succ_iff_lt_or_eq.mp before with earlier | rfl
    · exact absurd (reached.isError call earlier) notError
    · rfl
  standard standard :=
    Nat.le_add_right_of_le (Nat.succ_le_succ (reached.standard standard))
  identical persistent _ _ failsAs := reached.identical_next persistent failsAs

/-- A run that ends with a call without images is sound. -/
theorem Reached.sound_omitsImages (reached : retries.Reached state)
    (isError : retries.IsError state.attempt)
    (notTransient : isTransientError retries.lowering
      (retries.responses state.attempt).content = false)
    (omitsImages : retries.omitsImages = true) :
    retries.Sound { calls := state.attempt + 1 + 1
                    returned :=
                      some (retries.responses (state.attempt + 1)) } where
  isError call before := by
    rcases Nat.lt_succ_iff_lt_or_eq.mp (Nat.lt_of_succ_lt_succ before) with
      earlier | rfl
    · exact reached.isError call earlier
    · exact isError
  last := by
    rintro _ ⟨rfl⟩
    exact ⟨state.attempt + 1, rfl, rfl⟩
  answer call before notError := by
    rcases Nat.lt_succ_iff_lt_or_eq.mp before with before | rfl
    · rcases Nat.lt_succ_iff_lt_or_eq.mp before with earlier | rfl
      · exact absurd (reached.isError call earlier) notError
      · exact absurd isError notError
    · rfl
  standard standard := by
    have le := reached.standard standard
    rw [omitsImages]
    exact Nat.succ_le_succ (Nat.succ_le_succ le)
  identical persistent first key failsAs := by
    have le := reached.identical_next persistent failsAs
    rcases Nat.lt_or_eq_of_le le with before | isLast
    · exact before
    · have positive : 0 < persistentIdenticalErrorLimit := by decide
      have transient := (failsAs state.attempt (by omega) (by omega)).isTransient
      rw [notTransient] at transient
      cases transient

/-- A call that fails and is made again keeps what holds of the state. -/
theorem Reached.next (reached : retries.Reached state)
    (isError : retries.IsError state.attempt)
    (limited : retries.persistent = true →
      (retries.countError state
          (retries.responses state.attempt)).identicalErrorCount <
        persistentIdenticalErrorLimit)
    (standard : retries.persistent = false →
      state.attempt + 1 ≤ chatRetryDelays.length) :
    retries.Reached (retries.countError state
      (retries.responses state.attempt)) where
  isError call before := by
    rw [attempt_countError] at before
    rcases Nat.lt_succ_iff_lt_or_eq.mp before with earlier | rfl
    · exact reached.isError call earlier
    · exact isError
  counted := by
    rw [attempt_countError]
    exact reached.counted_countError
  limited := limited
  identical persistent first key failsAs := by
    rw [attempt_countError]
    exact reached.identical_next persistent failsAs
  standard := by
    rw [attempt_countError]
    exact standard

theorem Reached.sound_loop (reached : retries.Reached state) (fuel : Nat) :
    retries.Sound (retries.loop fuel state) := by
  induction fuel generalizing state with
  | zero =>
      exact
        { isError := fun call before => reached.isError call
            (Nat.lt_of_succ_lt before)
          last := nofun
          answer := fun call before notError =>
            absurd (reached.isError call before) notError
          standard := fun standard =>
            Nat.le_add_right_of_le (Nat.le_succ_of_le (reached.standard standard))
          identical := reached.identical }
  | succ fuel induction =>
      have sound := reached.sound_next
      rw [← attempt_countError (retries.responses state.attempt)] at sound
      rw [loop]
      split
      · exact sound
      · next isError =>
          rw [ne_eq, not_not] at isError
          split
          · next notTransient =>
              rw [Bool.not_eq_true'] at notTransient
              split
              · next omitsImages =>
                  rw [attempt_countError]
                  exact reached.sound_omitsImages isError notTransient omitsImages
              · exact sound
          · split
            · exact sound
            · next notLimit =>
                split
                · exact sound
                · next notLast =>
                    rw [attempt_countError] at notLast
                    refine induction (reached.next isError ?_ ?_)
                    · exact fun persistent => not_le.mp fun le =>
                        notLimit ⟨persistent, le⟩
                    · exact fun standard => not_lt.mp fun lt =>
                        notLast ⟨by rw [standard]; rfl, lt⟩

/-- In the standard mode a response is returned after the last delay. -/
theorem returned_loop (standard : retries.persistent = false) {fuel : Nat}
    (enough : chatRetryDelays.length + 1 ≤ state.attempt + fuel)
    (before : state.attempt ≤ chatRetryDelays.length) :
    (retries.loop fuel state).returned.isSome = true := by
  induction fuel generalizing state with
  | zero => omega
  | succ fuel induction =>
      rw [loop]
      split
      · rfl
      · split
        · split <;> rfl
        · split
          · rfl
          · split
            · rfl
            · next notLast =>
                rw [attempt_countError] at notLast
                have le : state.attempt + 1 ≤ chatRetryDelays.length :=
                  not_lt.mp fun lt => notLast ⟨by rw [standard]; rfl, lt⟩
                refine induction ?_ ?_ <;> rw [attempt_countError] <;> omega

end Retries

example : (runWithRetry asciiLowering (fun _ => ⟨some "503".toList, "error"⟩) []
    [] "persistent" 20).calls = 10 := by decide +kernel

end AgentSchedBench.LlmCall
