import AgentSchedBench.Agent.TurnKept

/-!
# The results that a session keeps

Saving a turn truncates what the tools returned.  A result that is a text is
bounded by the limit and the marker of the truncation.  A result that is a
list of blocks is not: a text that should be truncated raises, and the
placeholder of an image is as long as its path.
-/

namespace AgentSchedBench.Agent

def truncationMarker : String := "\n... (truncated)"

/-- The texts of a content. -/
def Content.texts : Content → List String
  | .none => []
  | .text value => [value]
  | .blocks items => items.filterMap Block.asText

/-- Is the text within the limit, but for the marker? -/
def WithinLimit (maxToolResultChars : Int) (text : String) : Prop :=
  (text.length : Int) ≤ maxToolResultChars + truncationMarker.length

/-- Each text of the message is within the limit, if it is a result. -/
def Message.Bounded (maxToolResultChars : Int) (message : Message) : Prop :=
  message.role = .tool →
    ∀ text ∈ message.content.texts, WithinLimit maxToolResultChars text

/-- Saving the turn does not raise, and the results it saves are bounded. -/
def SavesBounded (maxToolResultChars : Int) (session : Session)
    (messages : List Message) (skip : Nat) : Prop :=
  ∃ saved added,
    saveTurn maxToolResultChars session messages skip = .ok saved ∧
      saved.messages = session.messages ++ added ∧
      ∀ message ∈ added, message.Bounded maxToolResultChars

/-- The placeholder of an image is within the limit. -/
def Block.PlaceholderFits (maxToolResultChars : Int) : Block → Prop
  | .image url path =>
      isDataImage url = true →
        WithinLimit maxToolResultChars (imagePlaceholderText path)
  | _ => True

/-- A result that fits its limit when it is saved. -/
def Message.ResultFits (maxToolResultChars : Int) (message : Message) :
    Prop :=
  message.role = .tool →
    match message.content with
    | .none => True
    | .text value =>
        0 < maxToolResultChars ∨ WithinLimit maxToolResultChars value
    | .blocks items =>
        items.any (Block.tooLong maxToolResultChars) = false ∧
          ∀ block ∈ items, block.PlaceholderFits maxToolResultChars

section Saving

variable {maxToolResultChars : Int}

/-- A limit that is positive bounds what is truncated. -/
theorem truncateText_within (text : String) :
    WithinLimit maxToolResultChars (truncateText text maxToolResultChars) ↔
      0 < maxToolResultChars ∨ WithinLimit maxToolResultChars text := by
  rw [truncateText]
  split
  · next whole =>
    constructor
    · exact .inr
    · rintro (positive | within)
      · rw [WithinLimit]
        omega
      · exact within
  · next cut =>
    refine iff_of_true ?_ (.inl (by omega))
    have short :
        (text.toList.take maxToolResultChars.toNat).length ≤
          maxToolResultChars.toNat := List.length_take_le _ _
    rw [WithinLimit, String.length_append, String.length_ofList,
      ← truncationMarker]
    omega

/-- Which blocks are within the limit when they are stored. -/
theorem stored_texts_within {items : List Block}
    (noneLong : items.any (Block.tooLong maxToolResultChars) = false) :
    (∀ text ∈ (Content.blocks (items.map Block.stored)).texts,
        WithinLimit maxToolResultChars text) ↔
      ∀ block ∈ items, block.PlaceholderFits maxToolResultChars := by
  rw [Content.texts, List.filterMap_map]
  simp only [List.mem_filterMap, Function.comp_apply, forall_exists_index,
    and_imp]
  rw [forall_comm]
  refine forall_congr' fun block => ?_
  rw [forall_comm]
  refine forall_congr' fun member => ?_
  have notLong : block.tooLong maxToolResultChars = false := by
    simpa using List.any_eq_false.mp noneLong block member
  cases block with
  | text value =>
      have within : (value.length : Int) ≤ maxToolResultChars := by
        simpa [Block.tooLong] using notLong
      have marked : WithinLimit maxToolResultChars value := by
        rw [WithinLimit]
        omega
      simp [Block.stored, Block.asText, Block.PlaceholderFits, marked]
  | image url path =>
      by_cases isData : isDataImage url = true
      · simp [Block.stored, Block.asText, Block.PlaceholderFits, isData]
      · simp [Block.stored, Block.asText, Block.PlaceholderFits, isData]
  | other json => simp [Block.stored, Block.asText, Block.PlaceholderFits]
  | notDict value => simp [Block.stored, Block.asText, Block.PlaceholderFits]

/-! ## One message -/

variable {message : Message}

/-- What is kept of a list of blocks is a result of its blocks. -/
theorem keepBlocks_bounded (isResult : message.role = .tool)
    (filtered : List Block) :
    (∀ entry ∈ keepBlocks message filtered,
        entry.Bounded maxToolResultChars) ↔
      ∀ text ∈ (Content.blocks filtered).texts,
        WithinLimit maxToolResultChars text := by
  rw [keepBlocks]
  cases filtered with
  | nil => simp [Content.texts]
  | cons block rest => simp [Message.Bounded, isResult]

/-- A message that is no result is kept or left out, without an exception. -/
theorem savedEntry_other (notResult : message.role ≠ .tool) :
    ∃ kept,
      savedEntry maxToolResultChars message = .ok kept ∧
        ∀ entry ∈ kept, entry.role = message.role := by
  obtain ⟨role, content, calls, callId, name⟩ := message
  rw [savedEntry]
  split
  · exact ⟨none, rfl, by simp⟩
  · dsimp only at notResult ⊢
    split
    · exact absurd rfl notResult
    · exact absurd rfl notResult
    · split
      · split
        · exact ⟨none, rfl, by simp⟩
        · split
          · exact ⟨none, rfl, by simp⟩
          · exact ⟨some _, rfl, by simp⟩
      · exact ⟨some _, rfl, by simp⟩
    · rw [sanitizePersistedBlocks_user]
      refine ⟨_, rfl, ?_⟩
      rw [keepBlocks]
      split <;> simp
    · exact ⟨some _, rfl, by simp⟩

/-- A result is saved within its limit if and only if it fits. -/
theorem savedEntry_result (isResult : message.role = .tool) :
    (∃ kept,
        savedEntry maxToolResultChars message = .ok kept ∧
          ∀ entry ∈ kept, entry.Bounded maxToolResultChars) ↔
      message.ResultFits maxToolResultChars := by
  have notEmpty : ¬ message.IsEmptyAssistant := by
    rintro ⟨isAssistant, -⟩
    exact Role.noConfusion (isResult.symm.trans isAssistant)
  rw [savedEntry, if_neg notEmpty, Message.ResultFits, isResult]
  cases content : message.content with
  | none => simp [Message.Bounded, content, Content.texts]
  | text value =>
      simp [Message.Bounded, Content.texts, truncateText_within]
  | blocks items =>
      simp only [sanitizePersistedBlocks_tool, forall_const]
      cases noneLong : items.any (Block.tooLong maxToolResultChars) with
      | true => simp [Except.map]
      | false =>
          rw [← stored_texts_within noneLong, ← keepBlocks_bounded isResult]
          simp [Except.map]

theorem savedEntry_bounded :
    (∃ kept,
        savedEntry maxToolResultChars message = .ok kept ∧
          ∀ entry ∈ kept, entry.Bounded maxToolResultChars) ↔
      message.ResultFits maxToolResultChars := by
  by_cases isResult : message.role = .tool
  · exact savedEntry_result isResult
  · refine iff_of_true ?_ fun role => absurd role isResult
    obtain ⟨kept, isKept, sameRole⟩ := savedEntry_other isResult
    exact ⟨kept, isKept, fun entry member role =>
      absurd ((sameRole entry member).symm.trans role) isResult⟩

/-! ## All messages -/

/-- What the session had stays at its front. -/
theorem foldlM_saveStep_extends {messages : List Message}
    {session saved : Session}
    (folded :
      messages.foldlM (saveStep maxToolResultChars) session = .ok saved) :
    session.messages <+: saved.messages := by
  refine
    Loops.foldlM_invariant (saveStep maxToolResultChars)
      (fun _ state => session.messages <+: state.messages)
      (List.prefix_refl _) ?_ folded
  intro _ message _ state next extended stepped
  rw [saveStep] at stepped
  split at stepped
  · cases stepped
  · cases stepped
    exact extended
  · cases stepped
    exact extended.trans (List.prefix_append _ _)

/-- The loop saves bounded results if and only if each message's is. -/
theorem foldlM_saveStep_bounded (messages : List Message)
    (session : Session) :
    (∃ saved added,
        messages.foldlM (saveStep maxToolResultChars) session = .ok saved ∧
          saved.messages = session.messages ++ added ∧
          ∀ message ∈ added, message.Bounded maxToolResultChars) ↔
      ∀ message ∈ messages, message.ResultFits maxToolResultChars := by
  induction messages generalizing session with
  | nil =>
      refine iff_of_true ?_ (by simp)
      exact ⟨session, [], rfl, (List.append_nil _).symm, by simp⟩
  | cons message rest induction =>
      rw [List.forall_mem_cons, ← savedEntry_bounded, List.foldlM_cons,
        saveStep]
      cases savedEntry maxToolResultChars message with
      | error failure => simp [bind, Except.bind]
      | ok kept =>
          cases kept with
          | none =>
              rw [← induction session]
              simp [bind, Except.bind]
          | some entry =>
              rw [← induction
                { session with messages := session.messages ++ [entry] }]
              simp only [bind, Except.bind]
              constructor
              · rintro ⟨saved, added, folded, same, bounded⟩
                obtain ⟨later, extended⟩ := foldlM_saveStep_extends folded
                rw [← extended, List.append_assoc] at same
                obtain rfl := List.append_cancel_left same
                obtain ⟨entryBounded, laterBounded⟩ :=
                  List.forall_mem_cons.mp bounded
                exact
                  ⟨⟨some entry, rfl, by simpa using entryBounded⟩,
                    saved, later, folded, extended.symm, laterBounded⟩
              · rintro ⟨⟨kept, isKept, entryBounded⟩, saved, later, folded,
                  extended, laterBounded⟩
                cases isKept
                refine ⟨saved, entry :: later, folded, ?_, ?_⟩
                · rw [extended, List.append_assoc, List.singleton_append]
                · exact
                    List.forall_mem_cons.mpr
                      ⟨entryBounded entry rfl, laterBounded⟩

end Saving

/--
Saving a turn does not raise and bounds the results it saves exactly when each
result fits.
-/
theorem savesBounded_iff (maxToolResultChars : Int) (session : Session)
    (messages : List Message) (skip : Nat) :
    SavesBounded maxToolResultChars session messages skip ↔
      ∀ message ∈ messages.drop skip,
        message.ResultFits maxToolResultChars :=
  foldlM_saveStep_bounded (messages.drop skip) session

/-- A result is as the runner leaves it. -/
def Message.Normalized (spec : AgentRunSpec) (message : Message) : Prop :=
  message.role = .tool →
    ∃ writeFails toolCallId toolName result,
      message.content =
        normalizeToolResult spec writeFails toolCallId toolName result

/-- A result of an image with its text. -/
def captionedImage (caption : String) : Message :=
  plainMessage .tool
    (.blocks
      [.text caption,
        .image "data:image/png;base64,iVBORw0KGgo=" "plot.png"])

/-- The runner leaves an image as it is. -/
theorem captionedImage_normalized (spec : AgentRunSpec) (caption : String) :
    (captionedImage caption).Normalized spec := by
  intro _
  refine ⟨true, "call_1", "read_file", (captionedImage caption).content, ?_⟩
  simp [normalizeToolResult, ensureNonemptyToolResult, captionedImage,
    plainMessage, stringifyTextBlocks, Block.asText]

/-- A caption that is too long raises. -/
theorem captionedImage_raises :
    ¬ ∀ (spec : AgentRunSpec) (session : Session) (messages : List Message)
        (skip : Nat),
      0 < spec.maxToolResultChars →
        (∀ message ∈ messages, message.Normalized spec) →
          SavesBounded spec.maxToolResultChars session messages skip := by
  intro always
  let spec : AgentRunSpec :=
    { toolNames := ["read_file"]
      maxIterations := 40
      maxToolResultChars := 4
      errorMessage := none
      maxIterationsMessage := none
      failOnToolError := false
      toolResultPath := none
      malformedRetryBudget := 0 }
  have saves :=
    always spec ⟨[], 0, none⟩ [captionedImage "A plot"] 0 (by decide)
      (List.forall_mem_singleton.mpr (captionedImage_normalized spec _))
  have fits :=
    (savesBounded_iff _ _ _ _).mp saves (captionedImage "A plot")
      (by simp) rfl
  exact absurd fits.1 (by decide)

end AgentSchedBench.Agent
