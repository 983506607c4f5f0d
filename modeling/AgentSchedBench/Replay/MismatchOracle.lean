import AgentSchedBench.Replay.Accounting

/-!
# The mismatch oracle

The oracle tells a replay that differs in looks from one that differs in what
it has done.  It looks at three tiers: at how the process ended, at what it
printed, and at the files it left.
-/

namespace AgentSchedBench.Replay

open AgentSchedBench.Trace (Text Record isTruthy)

/-- A tier of the oracle. -/
inductive OracleTier where
  | one
  | two
  | three
deriving DecidableEq, Repr

inductive OracleCategory where
  | cosmetic
  | contentDivergent
  | unclassified
deriving DecidableEq, Repr

/-- `_TierDecision` -/
structure TierDecision where
  tier : OracleTier
  category : OracleCategory
  reason : String
deriving DecidableEq, Repr

def TierDecision.semanticMatch (decision : TierDecision) : Bool :=
  decision.category == .cosmetic

/-- A signal that is not of its type. -/
inductive OracleError where
  | mustBeBool (name : String)
  | mustBeInt (name : String)
  | mustBeStr (name : String)
deriving DecidableEq, Repr

/-- `_optional_bool` -/
def optionalBool (name : String) : Json → Except OracleError (Option Bool)
  | .null => .ok none
  | .bool value => .ok (some value)
  | _ => .error (.mustBeBool name)

/-- `_optional_int` -/
def optionalInt (name : String) : Json → Except OracleError (Option Int)
  | .null => .ok none
  | .int value => .ok (some value)
  | _ => .error (.mustBeInt name)

/-- `_optional_str` -/
def optionalStr (name : String) : Json → Except OracleError (Option String)
  | .null => .ok none
  | .str value => .ok (some value)
  | _ => .error (.mustBeStr name)

/-- What the oracle is asked about. -/
structure OracleSignals where
  sourceReturncode : Json
  replayReturncode : Json
  sourceTimedOut : Json
  replayTimedOut : Json
  normalizedOutputMatch : Json
  outputDiffSnippet : Json
  casManifestMatch : Json
  casModifiedCount : Json
  casRemovedCount : Json
  casAddedCount : Json
  mismatchReason : Json

/-- `evidence` -/
structure OracleEvidence where
  sourceReturncode : Option Int
  replayReturncode : Option Int
  sourceTimedOut : Option Bool
  replayTimedOut : Option Bool
  timeoutMismatch : Bool
  returncodeMismatch : Option Bool
  normalizedOutputMatch : Option Bool
  outputDiffSnippetPresent : Bool
  casManifestMatch : Option Bool
  casModifiedCount : Option Int
  casRemovedCount : Option Int
  casAddedCount : Option Int
  mismatchReason : Option String
  -- `none` is the category `skipped`
  tierOne : Option TierDecision
  tierTwo : Option TierDecision
  tierThree : Option TierDecision
deriving DecidableEq, Repr

structure MismatchVerdict where
  tier : OracleTier
  category : OracleCategory
  semanticMatch : Bool
  evidence : OracleEvidence
deriving DecidableEq, Repr

/-- `_tier_1_decision` -/
def tierOneDecision (sourceReturncode replayReturncode : Option Int)
    (sourceTimedOut replayTimedOut : Option Bool)
    (mismatchReason : Option String) : Option TierDecision :=
  let timeouts := sourceTimedOut.isSome && replayTimedOut.isSome
  let returncodes := sourceReturncode.isSome && replayReturncode.isSome
  if (timeouts && sourceTimedOut != replayTimedOut) ||
      mismatchReason == some "timeout_mismatch" then
    some ⟨.one, .contentDivergent, "timeout_mismatch"⟩
  else if returncodes && sourceReturncode != replayReturncode then
    some ⟨.one, .contentDivergent, "returncode_mismatch"⟩
  else if timeouts || returncodes then some ⟨.one, .cosmetic, "transport_match"⟩
  else none

/-- `_tier_2_decision` -/
def tierTwoDecision (normalizedOutputMatch : Option Bool)
    (outputDiffSnippet : Option String) : Option TierDecision :=
  normalizedOutputMatch.map fun isMatch =>
    if isMatch then ⟨.two, .cosmetic, "normalized_output_match"⟩
    else if outputDiffSnippet.getD "" = "" then
      ⟨.two, .unclassified, "normalized_output_mismatch_without_diff"⟩
    else ⟨.two, .contentDivergent, "normalized_output_mismatch"⟩

/-- `_tier_3_decision` -/
def tierThreeDecision (casManifestMatch : Option Bool)
    (mismatchReason : Option String) : Option TierDecision :=
  casManifestMatch.map fun isMatch =>
    if isMatch then ⟨.three, .cosmetic, "cas_manifest_match"⟩
    else if mismatchReason = some "cas_state_mismatch" then
      ⟨.three, .contentDivergent, "cas_state_mismatch"⟩
    else ⟨.three, .contentDivergent, "cas_manifest_mismatch"⟩

/-- `_select_lower_tier` -/
def selectLowerTier (tierOne tierTwo : Option TierDecision) :
    Option TierDecision :=
  match tierOne with
  | some decision =>
      if decision.category = .contentDivergent then some decision
      else tierTwo.or (some decision)
  | none => tierTwo

/-- `_to_verdict` -/
def toVerdict (decision : TierDecision) (evidence : OracleEvidence) :
    MismatchVerdict where
  tier := decision.tier
  category := decision.category
  semanticMatch := decision.semanticMatch
  evidence := evidence

/-- `MismatchOracle.verdict` -/
def oracleVerdict (signals : OracleSignals) :
    Except OracleError (Option MismatchVerdict) := do
  let sourceRc ← optionalInt "source_returncode" signals.sourceReturncode
  let replayRc ← optionalInt "replay_returncode" signals.replayReturncode
  let sourceTimeout ← optionalBool "source_timed_out" signals.sourceTimedOut
  let replayTimeout ← optionalBool "replay_timed_out" signals.replayTimedOut
  let normalizedMatch ←
    optionalBool "normalized_output_match" signals.normalizedOutputMatch
  let outputDiff ← optionalStr "output_diff_snippet" signals.outputDiffSnippet
  let casMatch ← optionalBool "cas_manifest_match" signals.casManifestMatch
  let casModified ← optionalInt "cas_modified_count" signals.casModifiedCount
  let casRemoved ← optionalInt "cas_removed_count" signals.casRemovedCount
  let casAdded ← optionalInt "cas_added_count" signals.casAddedCount
  let reason ← optionalStr "mismatch_reason" signals.mismatchReason
  let tierOne :=
    tierOneDecision sourceRc replayRc sourceTimeout replayTimeout reason
  let tierTwo := tierTwoDecision normalizedMatch outputDiff
  let tierThree := tierThreeDecision casMatch reason
  let evidence : OracleEvidence :=
    { sourceReturncode := sourceRc
      replayReturncode := replayRc
      sourceTimedOut := sourceTimeout
      replayTimedOut := replayTimeout
      timeoutMismatch :=
        if sourceTimeout.isSome ∧ replayTimeout.isSome then
          sourceTimeout != replayTimeout
        else reason == some "timeout_mismatch"
      returncodeMismatch :=
        if sourceRc.isSome ∧ replayRc.isSome then some (sourceRc != replayRc)
        else none
      normalizedOutputMatch := normalizedMatch
      outputDiffSnippetPresent := outputDiff.getD "" != ""
      casManifestMatch := casMatch
      casModifiedCount := casModified
      casRemovedCount := casRemoved
      casAddedCount := casAdded
      mismatchReason := reason
      tierOne
      tierTwo
      tierThree }
  return (tierThree.or (selectLowerTier tierOne tierTwo)).map fun decision =>
    toVerdict decision evidence

/-- The signals of a record. -/
def signalsOf (data : Record) : OracleSignals where
  sourceReturncode := data.get "source_returncode"
  replayReturncode := getOr data "replay_returncode" (data.get "returncode")
  sourceTimedOut := data.get "source_timed_out"
  replayTimedOut := getOr data "replay_timed_out" (data.get "timed_out")
  normalizedOutputMatch := data.get "normalized_output_match"
  outputDiffSnippet := data.get "output_diff_snippet"
  casManifestMatch := data.get "cas_manifest_match"
  casModifiedCount := data.get "cas_modified_count"
  casRemovedCount := data.get "cas_removed_count"
  casAddedCount := data.get "cas_added_count"
  mismatchReason := data.get "mismatch_reason"

/-- `MismatchOracle.verdict_from_action_data` -/
def verdictFromActionData (data : Record) :
    Except OracleError (Option MismatchVerdict) :=
  oracleVerdict (signalsOf data)

/-! ## Signals that are accepted -/

/-- A value of its type, or none. -/
def IsIntOrNull : Json → Prop
  | .null | .int _ => True
  | _ => False

def IsBoolOrNull : Json → Prop
  | .null | .bool _ => True
  | _ => False

theorem isIntOrNull_of_ok {name : String} {value : Json} {result : Option Int}
    (accepted : optionalInt name value = .ok result) : IsIntOrNull value := by
  cases value <;> trivial

theorem isBoolOrNull_of_ok {name : String} {value : Json} {result : Option Bool}
    (accepted : optionalBool name value = .ok result) : IsBoolOrNull value := by
  cases value <;> trivial

/-- The oracle answers only where the codes are integers and the timeouts are
truth values. -/
theorem signals_of_oracleVerdict {signals : OracleSignals}
    {verdict : Option MismatchVerdict}
    (answered : oracleVerdict signals = .ok verdict) :
    IsIntOrNull signals.sourceReturncode ∧ IsBoolOrNull signals.sourceTimedOut := by
  obtain ⟨_, isSource, answered⟩ := Loops.bind_eq_ok.mp answered
  obtain ⟨_, _, answered⟩ := Loops.bind_eq_ok.mp answered
  obtain ⟨_, isTimeout, _⟩ := Loops.bind_eq_ok.mp answered
  exact ⟨isIntOrNull_of_ok isSource, isBoolOrNull_of_ok isTimeout⟩

end AgentSchedBench.Replay
