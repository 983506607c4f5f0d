import AgentSchedBench.Agent.DeltaRecording
import AgentSchedBench.Agent.LegalHistory
import Mathlib

/-!
# Snipped histories

A history that is too long for the model is sent with its system messages and
its last messages only.  What is kept of the last messages begins with one of
the user, if there is one, and then at a legal start.  If nothing is left, the
last four messages are tried.
-/

namespace AgentSchedBench.Agent

open Declared

/-! ## Ends of a history -/

theorem fromFirstUser_suffix (messages : List Message) :
    fromFirstUser messages <:+ messages := by
  rw [fromFirstUser]
  split
  · exact List.suffix_refl _
  · exact List.dropWhile_suffix _

theorem fromLegalStart_suffix (messages : List Message) :
    fromLegalStart messages <:+ messages :=
  List.drop_suffix _ _

/-- A legal end that is not empty leaves something. -/
theorem fromLegalStart_ne_nil {messages tail : List Message}
    (isEnd : tail <:+ messages) (notEmpty : tail ≠ [])
    (legal : Legal tail) : fromLegalStart messages ≠ [] := by
  obtain ⟨front, rfl⟩ := isEnd
  have first : Legal ((front ++ tail).drop front.length) := by
    rwa [List.drop_left]
  have start :=
    (findLegalMessageStart_isLegalStart (front ++ tail)).2 first
  rw [fromLegalStart, Ne, List.drop_eq_nil_iff, List.length_append]
  have positive := List.length_pos_iff.mpr notEmpty
  omega

namespace SnipSpec

variable (snip : SnipSpec)

/-- The loop keeps an end of the messages. -/
theorem keep_suffix (remainingBudget : Int) (reversed kept : List Message)
    (keptTokens : Int) :
    snip.keep remainingBudget reversed kept keptTokens <:+
      reversed.reverse ++ kept := by
  induction reversed generalizing kept keptTokens with
  | nil =>
      rw [keep]
      exact List.suffix_refl _
  | cons message rest induction =>
      rw [keep, List.reverse_cons, List.append_assoc, List.singleton_append]
      split
      · exact (List.suffix_cons _ _).trans (List.suffix_append _ _)
      · exact induction _ _

/-- The messages besides those of the system. -/
def nonSystem (messages : List Message) : List Message :=
  messages.filter (·.role != .system)

def systemMessages (messages : List Message) : List Message :=
  messages.filter (·.role == .system)

def tokenBudget : Int := snip.budget (orNumber snip.contextWindowTokens 0)

/-- The last messages that the budget leaves. -/
def kept (messages : List Message) : List Message :=
  let systemTokens :=
    ((systemMessages messages).map snip.estimateMessageTokens).sum
  snip.keep (max 128 (snip.tokenBudget - systemTokens))
    (nonSystem messages).reverse [] 0

/-- The history is too long, and something can be left out. -/
def Snips (messages : List Message) : Prop :=
  orNumber snip.contextWindowTokens 0 ≠ 0 ∧ 0 < snip.tokenBudget ∧
    nonSystem messages ≠ [] ∧
    ∀ estimate ∈ snip.estimatePromptTokens messages,
      snip.tokenBudget < estimate

/-- What is tried in turn: messages that the budget leaves, and the last four. -/
def candidates (messages : List Message) : List (List Message) :=
  [fromFirstUser (snip.kept messages),
    (nonSystem messages).drop ((nonSystem messages).length - 4)]

variable {snip} {messages : List Message}

theorem candidates_suffix :
    ∀ candidate ∈ snip.candidates messages,
      candidate <:+ nonSystem messages := by
  have isKept := snip.keep_suffix
    (max 128 (snip.tokenBudget -
      ((systemMessages messages).map snip.estimateMessageTokens).sum))
    (nonSystem messages).reverse [] 0
  rw [List.reverse_reverse, List.append_nil] at isKept
  intro candidate member
  rcases List.mem_cons.mp member with rfl | isLast
  · exact (fromFirstUser_suffix _).trans isKept
  · rw [List.mem_singleton.mp isLast]
    exact List.drop_suffix _ _

/-- What is left is the legal end of a candidate. -/
theorem snipped_eq (messages : List Message) :
    ∃ candidate ∈ snip.candidates messages,
      snip.snipped snip.tokenBudget (systemMessages messages)
          (nonSystem messages) =
        fromLegalStart candidate := by
  rw [snipped]
  split
  · exact ⟨_, List.mem_cons_self, rfl⟩
  · exact ⟨_, List.mem_cons_of_mem _ List.mem_cons_self, rfl⟩

/-- Something is left if a candidate has a legal end. -/
theorem snipped_ne_nil {candidate tail : List Message}
    (isCandidate : candidate ∈ snip.candidates messages)
    (isEnd : tail <:+ candidate) (notEmpty : tail ≠ [])
    (legal : Legal tail) :
    snip.snipped snip.tokenBudget (systemMessages messages)
        (nonSystem messages) ≠ [] := by
  have left := fromLegalStart_ne_nil isEnd notEmpty legal
  rw [snipped]
  split
  · next notNil => exact notNil
  · next isNil =>
    rcases List.mem_cons.mp isCandidate with rfl | isLast
    · exact absurd left isNil
    · rwa [← List.mem_singleton.mp isLast]

/-- Either the history is sent as it is, or it is snipped. -/
theorem snipHistory_eq {result : List Message}
    (isResult : snip.snipHistory messages = some result) :
    (¬ snip.Snips messages ∧ result = messages) ∨
      (snip.Snips messages ∧
        result =
          systemMessages messages ++
            snip.snipped snip.tokenBudget (systemMessages messages)
              (nonSystem messages)) := by
  rw [snipHistory] at isResult
  split at isResult
  · next noWindow =>
    cases isResult
    refine .inl ⟨?_, rfl⟩
    rintro ⟨window, -, some, -⟩
    rcases noWindow with rfl | isZero
    · exact some rfl
    · exact window isZero
  · next window =>
    rw [not_or] at window
    split at isResult
    · next noBudget =>
      cases isResult
      exact .inl ⟨fun snips => absurd snips.2.1 (not_lt.mpr noBudget), rfl⟩
    · next hasBudget =>
      cases isEstimate : snip.estimatePromptTokens messages with
      | none =>
          rw [isEstimate] at isResult
          cases isResult
      | some estimate =>
          rw [isEstimate] at isResult
          dsimp only at isResult
          split at isResult
          · next fits =>
            cases isResult
            refine .inl ⟨fun snips => ?_, rfl⟩
            exact absurd (snips.2.2.2 estimate isEstimate) (not_lt.mpr fits)
          · next tooLong =>
            split at isResult
            · next nothing =>
              cases isResult
              exact .inl ⟨fun snips => snips.2.2.1 nothing, rfl⟩
            · next something =>
              cases isResult
              refine .inr ⟨⟨window.2, not_le.mp hasBudget, something, ?_⟩, rfl⟩
              intro other isOther
              cases isEstimate.symm.trans isOther
              exact not_le.mp tooLong

end SnipSpec

open SnipSpec

/-! ## What is kept -/

/--
The system messages, and then a legal end of the others that is not empty if
they are not.
-/
def KeepsConversation (messages result : List Message) : Prop :=
  ∃ tail,
    result = systemMessages messages ++ tail ∧
      tail <:+ nonSystem messages ∧ Legal tail ∧
      (nonSystem messages ≠ [] → tail ≠ [])

/--
A history is sent as it is unless it is snipped.  Then the system messages are
followed by a legal end of the others, which is not empty if one of the
candidates has such an end.
-/
theorem snipHistory_keeps {snip : SnipSpec} {messages result : List Message}
    (isResult : snip.snipHistory messages = some result) :
    (¬ snip.Snips messages → result = messages) ∧
      (snip.Snips messages →
        ∃ tail,
          result = systemMessages messages ++ tail ∧
            tail <:+ nonSystem messages ∧ Legal tail ∧
            ((∃ candidate ∈ snip.candidates messages,
                ∃ legalEnd, legalEnd <:+ candidate ∧ legalEnd ≠ [] ∧
                  Legal legalEnd) →
              tail ≠ [])) := by
  rcases snipHistory_eq isResult with ⟨whole, same⟩ | ⟨snips, same⟩
  · exact ⟨fun _ => same, fun snips => absurd snips whole⟩
  · refine ⟨fun whole => absurd snips whole, fun _ => ⟨_, same, ?_, ?_, ?_⟩⟩
    · obtain ⟨candidate, isCandidate, isLeft⟩ := snipped_eq messages
      rw [isLeft]
      exact (fromLegalStart_suffix _).trans
        (candidates_suffix candidate isCandidate)
    · obtain ⟨candidate, -, isLeft⟩ := snipped_eq messages
      rw [isLeft]
      exact legal_drop_start candidate
    · rintro ⟨candidate, isCandidate, legalEnd, isEnd, notEmpty, legal⟩
      exact snipped_ne_nil isCandidate isEnd notEmpty legal

/-! ## Short histories -/

/-- A hundred tokens are left, and each message has as many. -/
def tightSnip : SnipSpec where
  contextWindowTokens := some 8000
  contextBlockLimit := some 100
  providerMaxTokens := none
  estimatePromptTokens := fun messages => some (100 * messages.length)
  estimateMessageTokens := fun _ => 100

/-- The answer to a call. -/
def answer (id : String) : Message :=
  toolMessage ⟨id, "exec", "{}"⟩ (.text "done")

/-- A message that calls four tools, and their answers. -/
def fourAnswers : List Message :=
  buildAssistantMessage ""
      [⟨"call_1", "exec", "{}"⟩, ⟨"call_2", "exec", "{}"⟩,
        ⟨"call_3", "exec", "{}"⟩, ⟨"call_4", "exec", "{}"⟩] none [] ::
    ["call_1", "call_2", "call_3", "call_4"].map answer

/-- An orphan, and a message behind it. -/
def orphanFirst : List Message :=
  [answer "call_1", plainMessage .assistant (.text "done")]

/-- What is behind an orphan is kept. -/
theorem orphanFirst_keeps :
    ∃ tail,
      orphanFirst.drop 1 = systemMessages orphanFirst ++ tail ∧
        tail <:+ nonSystem orphanFirst ∧ Legal tail := by
  have isResult :
      tightSnip.snipHistory orphanFirst = some (orphanFirst.drop 1) := by
    decide
  have snips : tightSnip.Snips orphanFirst := by
    refine ⟨by decide, by decide, by decide, ?_⟩
    rintro estimate ⟨⟩
    decide
  obtain ⟨tail, same, isEnd, legal, -⟩ := (snipHistory_keeps isResult).2 snips
  exact ⟨tail, same, isEnd, legal⟩

/--
An orphan is sent if nothing has to be snipped, and nothing is left of four
answers whose calls are too far back.
-/
theorem snipHistory_not_keeps :
    (∃ result,
        tightSnip.snipHistory [answer "call_1"] = some result ∧
          ¬ KeepsConversation [answer "call_1"] result) ∧
      ∃ result,
        tightSnip.snipHistory fourAnswers = some result ∧
          ¬ KeepsConversation fourAnswers result := by
  constructor
  · refine ⟨[answer "call_1"], by decide, ?_⟩
    rintro ⟨tail, same, -, legal, -⟩
    obtain rfl : [answer "call_1"] = tail := same
    obtain ⟨giver, member, -⟩ := legal [] (answer "call_1") [] rfl "call_1" rfl
    cases member
  · refine ⟨[], by decide, ?_⟩
    rintro ⟨tail, same, -, -, notEmpty⟩
    exact notEmpty (by decide) (List.append_eq_nil_iff.mp same.symm).2

end AgentSchedBench.Agent
