import AgentSchedBench.Agent.Runner
import Mathlib.Data.List.Forall2

/-!
# What a run appends

The messages of a run are those it was given, whose tool results may have been
shortened, followed by what it appended.  Only a final message may take the
place of the last message that was given, if that one is a reply.  What was
appended for a retry is left out of the result.
-/

namespace AgentSchedBench.Agent

/-! ## Lists related item by item -/

section Related

variable {α β : Type} {related : α → β → Prop}

theorem mem_of_forall₂
    {olds : List α} {news : List β}
    (same : List.Forall₂ related olds news) {new : β} (member : new ∈ news) :
    ∃ old ∈ olds, related old new := by
  induction same with
  | nil => cases member
  | cons head _ induction =>
      rcases List.mem_cons.mp member with rfl | later
      · exact ⟨_, List.mem_cons_self, head⟩
      · obtain ⟨old, isOld, isRelated⟩ := induction later
        exact ⟨old, List.mem_cons_of_mem _ isOld, isRelated⟩

theorem forall₂_append_left
    {front back : List α} {news : List β}
    (same : List.Forall₂ related (front ++ back) news) :
    ∃ newFront newBack, List.Forall₂ related front newFront ∧
      List.Forall₂ related back newBack ∧ news = newFront ++ newBack := by
  induction front generalizing news with
  | nil => exact ⟨[], news, List.Forall₂.nil, same, rfl⟩
  | cons item rest induction =>
      cases same with
      | cons head tail =>
          obtain ⟨newFront, newBack, sameFront, sameBack, rfl⟩ :=
            induction tail
          exact ⟨_ :: newFront, newBack, List.Forall₂.cons head sameFront,
            sameBack, rfl⟩

theorem forall₂_append_right
    {olds : List α} {front back : List β}
    (same : List.Forall₂ related olds (front ++ back)) :
    ∃ oldFront oldBack, List.Forall₂ related oldFront front ∧
      List.Forall₂ related oldBack back ∧ olds = oldFront ++ oldBack := by
  obtain ⟨oldFront, oldBack, sameFront, sameBack, split⟩ :=
    forall₂_append_left same.flip
  exact ⟨oldFront, oldBack, sameFront.flip, sameBack.flip, split⟩

end Related

/-! ## Shortened tool results -/

/-- The messages are the same, but for the content of a tool result. -/
structure Message.Alike (old new : Message) : Prop where
  fields : new = { old with content := new.content }
  content : old.role ≠ .tool → new = old
  blocks : old.content ≠ .blocks [] → new.content ≠ .blocks []

namespace Message.Alike

variable {old new : Message}

theorem refl (message : Message) : message.Alike message where
  fields := rfl
  content _ := rfl
  blocks same := same

theorem trans {latest : Message} (first : old.Alike new)
    (second : new.Alike latest) : old.Alike latest where
  fields := by
    rw [second.fields, first.fields]
  content notTool := by
    have same := first.content notTool
    subst same
    exact second.content notTool
  blocks hasBlocks := second.blocks (first.blocks hasBlocks)

theorem role (alike : old.Alike new) : new.role = old.role := by
  rw [alike.fields]

theorem toolCalls (alike : old.Alike new) :
    new.toolCalls = old.toolCalls := by
  rw [alike.fields]

theorem looksSynthetic (alike : old.Alike new) :
    new.looksSynthetic = old.looksSynthetic := by
  rw [alike.fields]
  rfl

theorem stripped (alike : old.Alike new) (skipToolIds : List String) :
    new.stripped skipToolIds = old.stripped skipToolIds := by
  rw [alike.fields]
  rfl

theorem skips (alike : old.Alike new) (skipToolIds : List String) :
    new.skips skipToolIds = old.skips skipToolIds := by
  rw [alike.fields]
  rfl

theorem isReply (alike : old.Alike new) : new.IsReply ↔ old.IsReply := by
  rw [Message.IsReply, alike.role, alike.toolCalls]
  rfl

end Message.Alike

section Normalize

theorem ensureNonemptyToolResult_blocks
    (toolName : String) (content : Content) :
    ensureNonemptyToolResult toolName content ≠ .blocks [] := by
  cases content with
  | none => nofun
  | text value =>
      rw [ensureNonemptyToolResult]
      split <;> nofun
  | blocks items =>
      rw [ensureNonemptyToolResult]
      split
      · nofun
      · next nonempty =>
          have same : Content.blocks items ≠ .blocks [] := by
            rintro ⟨⟩
            exact nonempty rfl
          split
          · split
            · nofun
            · exact same
          · exact same

theorem maybePersistToolResult_blocks
    (toolResultPath : Option (String → String → String))
    (toolCallId : String) {content : Content} (maxChars : Int)
    (hasBlocks : content ≠ .blocks []) :
    maybePersistToolResult toolResultPath toolCallId content maxChars ≠
      .blocks [] := by
  rw [maybePersistToolResult.eq_def]
  split
  · split
    · exact hasBlocks
    · nofun
  · exact hasBlocks

theorem normalizeToolResult_blocks
    (spec : AgentRunSpec) (writeFails : Bool) (toolCallId toolName : String)
    (result : Content) :
    normalizeToolResult spec writeFails toolCallId toolName result ≠
      .blocks [] := by
  have ensured := ensureNonemptyToolResult_blocks toolName result
  have persisted :
      (if writeFails = true then ensureNonemptyToolResult toolName result
        else
          maybePersistToolResult spec.toolResultPath toolCallId
            (ensureNonemptyToolResult toolName result)
            spec.maxToolResultChars) ≠ .blocks [] := by
    split
    · exact ensured
    · exact maybePersistToolResult_blocks _ _ _ ensured
  rw [normalizeToolResult.eq_def]
  dsimp only
  split
  · nofun
  · exact persisted

theorem budgetedMessage_alike
    (spec : AgentRunSpec) (input : IterationInput) (index : Nat)
    (message : Message) :
    message.Alike (budgetedMessage spec input index message) := by
  rw [budgetedMessage]
  split
  · exact Message.Alike.refl message
  · next isTool =>
      constructor
      · rfl
      · exact fun notTool => (isTool notTool).elim
      · intro _
        exact normalizeToolResult_blocks _ _ _ _ _

end Normalize

/-! ## The entries of a run -/

/-- Each entry of a retry is left out, given the ids to be skipped. -/
def RetriesStripped : List String → List Entry → Prop
  | _, [] => True
  | skipToolIds, entry :: rest =>
      (entry.origin = .retry →
        entry.message.stripped skipToolIds = true) ∧
        RetriesStripped (entry.message.skips skipToolIds) rest

/-- What a turn appends is a question, an answer to one, or a reply. -/
structure Message.OfTurn (message : Message) : Prop where
  role : message.role = .assistant ∨ message.role = .tool
  notEmpty : ¬ message.IsEmptyAssistant
  blocks : message.content ≠ .blocks []

/-- The entries that a run has appended. -/
structure Appended (tail : List Entry) : Prop where
  notInitial : ∀ entry ∈ tail, entry.origin ≠ .initial
  ofTurn : ∀ entry ∈ tail, entry.origin = .turn → entry.message.OfTurn
  retries : ∀ skipToolIds, RetriesStripped skipToolIds tail

/-- A message that was given, as an entry of the run. -/
def Given (message : Message) (entry : Entry) : Prop :=
  entry.origin = .initial ∧ message.Alike entry.message

/-- The entries while the run goes on. -/
structure Growing (initial : List Message) (entries : List Entry) : Prop where
  split :
    ∃ base tail, entries = base ++ tail ∧
      List.Forall₂ Given initial base ∧ Appended tail ∧
      ∀ entry ∈ tail, ¬ entry.message.IsReply

/-- The entries at its end: a final message may have replaced a reply. -/
structure Finished (initial : List Message) (entries : List Entry) :
    Prop where
  split :
    ∃ base tail, entries = base ++ tail ∧ Appended tail ∧
      (∀ front entry back, tail = front ++ entry :: back →
        entry.message.IsReply → back = []) ∧
      (List.Forall₂ Given initial base ∨
        ∃ front last, initial = front ++ [last] ∧ last.IsReply ∧
          List.Forall₂ Given front base ∧ tail.length = 1)

section Entries

variable {initial : List Message} {entries tail : List Entry}

theorem retriesStripped_append
    (skipToolIds : List String) (front back : List Entry) :
    RetriesStripped skipToolIds (front ++ back) ↔
      RetriesStripped skipToolIds front ∧
        RetriesStripped
          (skipsAfter skipToolIds (front.map Entry.message)) back := by
  induction front generalizing skipToolIds with
  | nil => simp [RetriesStripped, skipsAfter]
  | cons entry rest induction =>
      rw [List.cons_append, RetriesStripped, RetriesStripped, induction,
        and_assoc]
      rfl

theorem retriesStripped_of_turn
    (ofTurn : ∀ entry ∈ tail, entry.origin = .turn)
    (skipToolIds : List String) : RetriesStripped skipToolIds tail := by
  induction tail generalizing skipToolIds with
  | nil => trivial
  | cons entry rest induction =>
      constructor
      · intro isRetry
        rw [ofTurn entry List.mem_cons_self] at isRetry
        cases isRetry
      · exact induction
          (fun other member => ofTurn other (List.mem_cons_of_mem _ member)) _

theorem appended_nil : Appended [] where
  notInitial _ impossible := nomatch impossible
  ofTurn _ impossible := nomatch impossible
  retries _ := trivial

theorem Appended.append {more : List Entry}
    (appended : Appended tail) (appendedMore : Appended more) :
    Appended (tail ++ more) where
  notInitial entry member := by
    rcases List.mem_append.mp member with old | new
    · exact appended.notInitial entry old
    · exact appendedMore.notInitial entry new
  ofTurn entry member := by
    rcases List.mem_append.mp member with old | new
    · exact appended.ofTurn entry old
    · exact appendedMore.ofTurn entry new
  retries skipToolIds := by
    rw [retriesStripped_append]
    exact ⟨appended.retries _, appendedMore.retries _⟩

/-- Messages of the turn itself. -/
theorem appended_of_turn
    (origin : ∀ entry ∈ tail, entry.origin = .turn)
    (ofTurn : ∀ entry ∈ tail, entry.message.OfTurn) : Appended tail where
  notInitial entry member := by
    rw [origin entry member]
    nofun
  ofTurn entry member _ := ofTurn entry member
  retries := retriesStripped_of_turn origin

/-- The same entries with shortened results. -/
def Shortened (old new : Entry) : Prop :=
  new.origin = old.origin ∧ old.message.Alike new.message

theorem shortened_mapIdx
    (f : Nat → Message → Message)
    (alike : ∀ index message, Message.Alike message (f index message))
    (entries : List Entry) :
    List.Forall₂ Shortened entries
      (entries.mapIdx fun index entry =>
        { entry with message := f index entry.message }) := by
  induction entries generalizing f with
  | nil => exact List.Forall₂.nil
  | cons entry rest induction =>
      rw [List.mapIdx_cons]
      exact List.Forall₂.cons ⟨rfl, alike 0 entry.message⟩
        (induction (fun index => f (index + 1))
          fun index => alike (index + 1))

theorem RetriesStripped.shortened
    {old new : List Entry} (same : List.Forall₂ Shortened old new)
    {skipToolIds : List String}
    (stripped : RetriesStripped skipToolIds old) :
    RetriesStripped skipToolIds new := by
  induction same generalizing skipToolIds with
  | nil => trivial
  | cons head _ induction =>
      obtain ⟨origin, alike⟩ := head
      constructor
      · rw [origin, alike.stripped]
        exact stripped.1
      · rw [alike.skips]
        exact induction stripped.2

theorem Message.OfTurn.alike
    {old new : Message} (ofTurn : old.OfTurn) (alike : old.Alike new) :
    new.OfTurn where
  role := by
    rw [alike.role]
    exact ofTurn.role
  notEmpty := by
    rintro ⟨isAssistant, isEmpty, noCalls⟩
    apply ofTurn.notEmpty
    rw [alike.role] at isAssistant
    have same := alike.content (by rw [isAssistant]; nofun)
    rw [same] at isEmpty noCalls
    exact ⟨isAssistant, isEmpty, noCalls⟩
  blocks := alike.blocks ofTurn.blocks

theorem Appended.shortened
    {more : List Entry} (appended : Appended tail)
    (same : List.Forall₂ Shortened tail more) : Appended more where
  notInitial entry member := by
    obtain ⟨old, isOld, origin, _⟩ := mem_of_forall₂ same member
    rw [origin]
    exact appended.notInitial old isOld
  ofTurn entry member isTurn := by
    obtain ⟨old, isOld, shortened⟩ := mem_of_forall₂ same member
    rw [shortened.1] at isTurn
    exact (appended.ofTurn old isOld isTurn).alike shortened.2
  retries skipToolIds := (appended.retries skipToolIds).shortened same

theorem given_shortened
    {base more : List Entry} (given : List.Forall₂ Given initial base)
    (same : List.Forall₂ Shortened base more) :
    List.Forall₂ Given initial more := by
  induction given generalizing more with
  | nil =>
      cases same
      exact List.Forall₂.nil
  | cons head _ induction =>
      cases same with
      | cons shortened rest =>
          exact List.Forall₂.cons
            ⟨shortened.1.trans head.1, head.2.trans shortened.2⟩
            (induction rest)

theorem Growing.budgeted
    (growing : Growing initial entries) (spec : AgentRunSpec)
    (input : IterationInput) :
    Growing initial (applyToolResultBudget spec input entries) := by
  obtain ⟨base, tail, rfl, given, appended, noReply⟩ := growing.split
  have same :=
    shortened_mapIdx (budgetedMessage spec input)
      (budgetedMessage_alike spec input) (base ++ tail)
  obtain ⟨newBase, newTail, sameBase, sameTail, split⟩ :=
    forall₂_append_left same
  refine ⟨newBase, newTail, split, given_shortened given sameBase,
    appended.shortened sameTail, ?_⟩
  intro entry member
  obtain ⟨old, isOld, _, alike⟩ := mem_of_forall₂ sameTail member
  rw [alike.isReply]
  exact noReply old isOld

theorem Growing.start (initial : List Message) :
    Growing initial (initial.map (⟨·, .initial⟩)) := by
  refine ⟨initial.map (⟨·, .initial⟩), [], (List.append_nil _).symm, ?_,
    appended_nil, fun _ impossible => nomatch impossible⟩
  induction initial with
  | nil => exact List.Forall₂.nil
  | cons message rest induction =>
      exact List.Forall₂.cons ⟨rfl, Message.Alike.refl message⟩ induction

theorem Growing.append
    {more : List Entry} (growing : Growing initial entries)
    (appendedMore : Appended more)
    (noReply : ∀ entry ∈ more, ¬ entry.message.IsReply) :
    Growing initial (entries ++ more) := by
  obtain ⟨base, tail, rfl, given, appended, noneYet⟩ := growing.split
  refine ⟨base, tail ++ more, List.append_assoc .., given,
    appended.append appendedMore, ?_⟩
  intro entry member
  rcases List.mem_append.mp member with old | new
  · exact noneYet entry old
  · exact noReply entry new

theorem Growing.finished (growing : Growing initial entries) :
    Finished initial entries := by
  obtain ⟨base, tail, rfl, given, appended, noReply⟩ := growing.split
  refine ⟨base, tail, rfl, appended, ?_, Or.inl given⟩
  rintro front entry back rfl isReply
  exact (noReply entry (by simp) isReply).elim

/-- One reply at the end. -/
theorem Growing.reply
    {last : Entry} (growing : Growing initial entries)
    (origin : last.origin = .turn) (ofTurn : last.message.OfTurn) :
    Finished initial (entries ++ [last]) := by
  obtain ⟨base, tail, rfl, given, appended, noReply⟩ := growing.split
  have appendedLast : Appended [last] := by
    apply appended_of_turn
    · intro entry member
      rw [List.mem_singleton.mp member]
      exact origin
    · intro entry member
      rw [List.mem_singleton.mp member]
      exact ofTurn
  refine ⟨base, tail ++ [last], List.append_assoc ..,
    appended.append appendedLast, ?_, Or.inl given⟩
  intro front entry back split isReply
  rcases List.eq_nil_or_concat back with rfl | ⟨rest, final, rfl⟩
  · rfl
  · rw [List.concat_eq_append, ← List.cons_append, ← List.append_assoc]
      at split
    have tailIs := List.append_inj_left' split rfl
    exact (noReply entry (by rw [tailIs]; simp) isReply).elim

/-- The entry of a final message. -/
def finalEntry (content : String) : Entry :=
  ⟨buildAssistantMessage content [] none [], .turn⟩

theorem finalEntry_ofTurn
    {content : String} (nonempty : content.isEmpty = false) :
    (finalEntry content).message.OfTurn where
  role := Or.inl rfl
  notEmpty := by
    rintro ⟨_, isEmpty, _⟩
    change content.isEmpty = true at isEmpty
    rw [nonempty] at isEmpty
    cases isEmpty
  blocks := nofun

theorem appendFinalMessage_eq (entries : List Entry) (content : String) :
    appendFinalMessage entries content =
      if content.isEmpty then entries else
        match entries.getLast? with
        | none => [finalEntry content]
        | some last =>
            if last.message.role = .assistant ∧ last.message.toolCalls = []
            then
              if last.message.content = .text content then entries
              else entries.dropLast ++ [finalEntry content]
            else entries ++ [finalEntry content] :=
  rfl

/-- A final message is appended, or replaces a reply that was given. -/
theorem Growing.final
    (growing : Growing initial entries) (content : String) :
    Finished initial (appendFinalMessage entries content) := by
  rw [appendFinalMessage_eq]
  split
  · exact growing.finished
  next nonempty =>
  have ofTurn := finalEntry_ofTurn (by simpa using nonempty)
  cases isLast : entries.getLast? with
  | none =>
      rw [List.getLast?_eq_none_iff] at isLast
      subst isLast
      exact growing.reply rfl ofTurn
  | some last =>
      dsimp only
      split
      · next isReply =>
          split
          · exact growing.finished
          · obtain ⟨base, tail, rfl, given, appended, noReply⟩ :=
              growing.split
            obtain ⟨front, isFront⟩ := List.getLast?_eq_some_iff.mp isLast
            rcases List.eq_nil_or_concat tail with rfl | ⟨rest, final, rfl⟩
            · rw [List.append_nil] at isFront
              subst isFront
              obtain ⟨givenFront, givenLast, sameFront, sameLast, rfl⟩ :=
                forall₂_append_right given
              cases sameLast with
              | cons head nothing =>
                  cases nothing
                  refine ⟨front, [finalEntry content], by simp, ?_, ?_, ?_⟩
                  · apply appended_of_turn
                    · intro entry member
                      rw [List.mem_singleton.mp member]
                      rfl
                    · intro entry member
                      rw [List.mem_singleton.mp member]
                      exact ofTurn
                  · intro before entry after split _
                    have lengths := congrArg List.length split
                    simp only [List.length_append, List.length_cons,
                      List.length_nil] at lengths
                    apply List.eq_nil_of_length_eq_zero
                    omega
                  · exact Or.inr ⟨givenFront, _, rfl,
                      head.2.isReply.mp isReply, sameFront, rfl⟩
            · rw [List.concat_eq_append, ← List.append_assoc] at isFront
              have same := List.append_inj_right' isFront rfl
              cases same
              exact (noReply last (by simp) isReply).elim
      · exact growing.reply rfl ofTurn

end Entries

/-! ## Runs -/

namespace AgentRunner

variable
  {spec : AgentRunSpec} {iteration : Nat} {input : IterationInput}
  {initial : List Message} {state : RunState}

/-- What an iteration keeps: the run grows, or it has finished. -/
def KeepsEntries (initial : List Message) : IterationEnd → Prop
  | .next state => Growing initial state.entries
  | .stop state _ _ => Finished initial state.entries

theorem runTools_keeps
    (growing : Growing initial state.entries)
    (callsTools : input.response.toolCalls ≠ []) :
    KeepsEntries initial (runTools spec iteration input state) := by
  rw [runTools]
  generalize isAsked :
    buildAssistantMessage (input.response.content.getD "")
      input.response.toolCalls input.response.reasoningContent
      input.response.thinkingBlocks = asked
  have hasCalls : asked.toolCalls ≠ [] := by
    rw [← isAsked]
    exact callsTools
  have askedGrowing : Growing initial (state.entries ++ [⟨asked, .turn⟩]) := by
    apply growing.append
    · apply appended_of_turn
      · intro entry member
        rw [List.mem_singleton.mp member]
      · intro entry member
        rw [List.mem_singleton.mp member]
        constructor
        · rw [← isAsked]
          exact Or.inl rfl
        · rintro ⟨_, _, noCalls⟩
          exact hasCalls noCalls
        · rw [← isAsked]
          nofun
    · intro entry member isReply
      rw [List.mem_singleton.mp member] at isReply
      exact hasCalls isReply.2
  dsimp only
  split
  · dsimp only [KeepsEntries]
    exact askedGrowing.final _
  · apply askedGrowing.append
    · apply appended_of_turn
      · intro entry member
        obtain ⟨message, _, rfl⟩ := List.mem_map.mp member
        rfl
      · intro entry member
        obtain ⟨message, isAnswer, rfl⟩ := List.mem_map.mp member
        obtain ⟨index, inRange, rfl⟩ := List.mem_mapIdx.mp isAnswer
        constructor
        · exact Or.inr rfl
        · rintro ⟨isAssistant, _⟩
          cases isAssistant
        · exact normalizeToolResult_blocks _ _ _ _ _
    · intro entry member isReply
      obtain ⟨message, isAnswer, rfl⟩ := List.mem_map.mp member
      obtain ⟨index, inRange, rfl⟩ := List.mem_mapIdx.mp isAnswer
      cases isReply.1

theorem append_nonempty
    {front : String} (back : String) (nonempty : front ≠ "") :
    (front ++ back).isEmpty = false := by
  simp [nonempty]

theorem malformedRetryId_nonempty (iteration count : Nat) :
    (malformedRetryId iteration count).isEmpty = false :=
  append_nonempty _ (by decide)

/-- The feedback on a malformed call is left out with the call. -/
theorem retryAnswer_stripped
    (iteration count : Nat) (content : String)
    (reasoningContent : Option String) (thinkingBlocks : List String)
    (feedback : Content) (skipToolIds : List String) :
    let call : ToolCall :=
      ⟨malformedRetryId iteration count, invalidToolCallName, "{}"⟩
    (toolMessage call feedback).stripped
      ((buildAssistantMessage content [call] reasoningContent
        thinkingBlocks).skips skipToolIds) = true := by
  intro call
  have skipped :
      malformedRetryId iteration count ∈
        (buildAssistantMessage content [call] reasoningContent
          thinkingBlocks).skips skipToolIds := by
    have synthetic :
        (buildAssistantMessage content [call] reasoningContent
          thinkingBlocks).looksSynthetic = true := by
      simp [Message.looksSynthetic, buildAssistantMessage, call]
    rw [Message.skips, if_pos synthetic]
    apply List.mem_append_right
    rw [Message.callIds, List.mem_filter]
    exact ⟨List.mem_singleton_self _, by
      rw [malformedRetryId_nonempty]
      rfl⟩
  rw [Message.stripped]
  show (_ || (true && List.contains _ (malformedRetryId iteration count))) = _
  rw [List.contains_iff_mem.mpr skipped]
  exact Bool.or_true _

theorem retryMalformed_keeps (growing : Growing initial state.entries) :
    KeepsEntries initial (retryMalformed spec iteration input state) := by
  rw [retryMalformed]
  dsimp only
  split
  · dsimp only [KeepsEntries]
    exact growing.final _
  · apply growing.append
    · constructor
      · intro entry member
        rcases List.mem_pair.mp member with rfl | rfl <;> nofun
      · intro entry member isTurn
        rcases List.mem_pair.mp member with rfl | rfl <;> cases isTurn
      · intro skipToolIds
        refine ⟨fun _ => ?_, fun _ => ?_, trivial⟩
        · simp [Message.stripped, Message.looksSynthetic,
            buildAssistantMessage]
        · exact retryAnswer_stripped _ _ _ _ _ _ _
    · intro entry member isReply
      rcases List.mem_pair.mp member with rfl | rfl
      · cases isReply.2
      · cases isReply.1

theorem finish_keeps (growing : Growing initial state.entries) :
    KeepsEntries initial (finish spec iteration input state) := by
  rw [finish]
  dsimp only
  split
  · dsimp only [KeepsEntries]
    exact growing.final _
  · split
    · dsimp only [KeepsEntries]
      exact growing.final _
    · next text _ =>
      split
      · dsimp only [KeepsEntries]
        exact growing.final _
      · next notBlank =>
        apply growing.reply
        · rfl
        · constructor
          · exact Or.inl rfl
          · rintro ⟨_, isEmpty, _⟩
            apply notBlank
            rw [String.isEmpty_iff.mp isEmpty]
            rfl
          · nofun

theorem iterate_keeps
    (spec : AgentRunSpec) (iteration : Nat) (input : IterationInput)
    (growing : Growing initial state.entries) :
    KeepsEntries initial (iterate spec iteration input state) := by
  have budgeted := growing.budgeted spec input
  exact iterate_elim (runTools_keeps budgeted) (retryMalformed_keeps budgeted)
    (finish_keeps budgeted)

variable {inputs : Nat → IterationInput}

theorem loop_finished
    (remaining : Nat) (growing : Growing initial state.entries) :
    Finished initial (loop spec inputs remaining iteration state).entries := by
  induction remaining generalizing iteration state with
  | zero => exact growing.final _
  | succ remaining induction =>
      have kept :=
        iterate_keeps spec iteration (inputs iteration) growing
      rw [loop_add_one]
      cases ended : iterate spec iteration (inputs iteration) state with
      | next state =>
          rw [ended] at kept
          exact induction kept
      | stop state finalContent reason =>
          rw [ended] at kept
          exact kept

theorem run_finished
    (spec : AgentRunSpec) (inputs : Nat → IterationInput)
    (initial : List Message) :
    Finished initial (run spec inputs initial).entries :=
  loop_finished _ (Growing.start initial)

end AgentRunner

end AgentSchedBench.Agent
