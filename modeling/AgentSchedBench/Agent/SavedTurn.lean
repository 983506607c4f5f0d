import AgentSchedBench.Agent.Session
import AgentSchedBench.Agent.Transcript

/-!
# What a turn leaves in the session

After a turn the session should have the messages it had, then the incoming
message and what the run appended.  The index at which the new messages begin
counts the messages of the history: it is too high by one for each message
that is no longer where it was, because the incoming message was merged into
the last one, because it was replaced by a reply, or because a message of the
history looks like a retry.
-/

namespace AgentSchedBench.Agent

/-! ## Messages as they are stored -/

/-- An image is stored by its placeholder. -/
def Block.stored : Block → Block
  | .image url path =>
      if isDataImage url then .text (imagePlaceholderText path)
      else .image url path
  | block => block

/-- Is it a text that is longer than the limit? -/
def Block.tooLong (maxToolResultChars : Int) : Block → Bool
  | .text value => maxToolResultChars < (value.length : Int)
  | _ => false

/-- Is it a text that begins as the runtime context does? -/
def Block.isContext : Block → Bool
  | .text value => startsWith value runtimeContextTag
  | _ => false

/-- Long results are stored truncated, and images by their placeholders. -/
def Message.stored (maxToolResultChars : Int) (message : Message) : Message :=
  match message.role, message.content with
  | .tool, .text value =>
      { message with content := .text (truncateText value maxToolResultChars) }
  | .tool, .blocks items =>
      { message with content := .blocks (items.map Block.stored) }
  | .user, .blocks items =>
      { message with content := .blocks (items.map Block.stored) }
  | _, _ => message

/-- The messages are stored in order; an empty reply may be left out. -/
inductive StoredAs (maxToolResultChars : Int) :
    List Message → List Message → Prop where
  | nil : StoredAs maxToolResultChars [] []
  | keep {message : Message} {rest saved : List Message}
      (later : StoredAs maxToolResultChars rest saved) :
      StoredAs maxToolResultChars (message :: rest)
        (message.stored maxToolResultChars :: saved)
  | leave {message : Message} {rest saved : List Message}
      (isEmpty : message.IsEmptyAssistant)
      (later : StoredAs maxToolResultChars rest saved) :
      StoredAs maxToolResultChars (message :: rest) saved

/-- A message of a blank text. -/
def Message.IsBlank (message : Message) : Prop :=
  ∃ text, message.content = .text text ∧ isBlank text = true

/-- The incoming message is stored; a blank one may be left out. -/
def IncomingStored
    (maxToolResultChars : Int) (incoming : Message) (first : List Message) :
    Prop :=
  first = [incoming.stored maxToolResultChars] ∨
    (first = [] ∧ incoming.IsBlank)

/-- The messages of the turn itself, without its retries. -/
def ownMessages (entries : List Entry) : List Message :=
  (entries.filter (·.origin = .turn)).map Entry.message

/-- No message of the turn is left out, given the ids to be skipped. -/
def OwnKept : List String → List Entry → Prop
  | _, [] => True
  | skipToolIds, entry :: rest =>
      (entry.origin = .turn →
        entry.message.stripped skipToolIds = false) ∧
        OwnKept (entry.message.skips skipToolIds) rest

namespace AgentLoop

variable
  (loop : AgentLoop) (turn : TurnInput) (session : Session)
  (message : InboundMessage)

/-- The incoming message without its runtime context. -/
def incoming : Message :=
  plainMessage message.currentRole message.userContent

/-- What the run of the turn appended. -/
def turnMessages : List Message :=
  ownMessages (loop.runAgentLoop turn (opened turn session) message).entries

/-- The session has its messages, then those of the turn. -/
def SavesTurn : Prop :=
  ∃ saved first rest,
    loop.processMessage turn session message = .ok saved ∧
      saved.messages = (opened turn session).messages ++ (first ++ rest) ∧
        IncomingStored loop.spec.maxToolResultChars (incoming message)
            first ∧
          StoredAs loop.spec.maxToolResultChars
            (loop.turnMessages turn session message) rest

/-! ## When it does -/

/-- The incoming message has become part of the last one of the history. -/
def merges : Bool :=
  ((opened turn session).getHistory 0).getLast?.any
    (·.role = message.currentRole)

/-- How many of the messages given to the run look like a retry. -/
def strippedGiven : Nat :=
  let initial := loop.initialMessages turn (opened turn session) message
  initial.length - (stripSyntheticMalformedPairs initial).length

/-- How many of the messages given to the run it has replaced. -/
def replacedGiven : Nat :=
  (loop.initialMessages turn (opened turn session) message).length -
    ((loop.runAgentLoop turn (opened turn session) message).entries.filter
      (·.origin = .initial)).length

/-- How many messages of the turn the index leaves out. -/
def leftOut : Nat :=
  (if merges turn session message then 1 else 0) +
    loop.strippedGiven turn session message +
      loop.replacedGiven turn session message

/-- What follows the first blank line is the text, or blank as it is. -/
structure ContextRemoved (context : String) (incoming : Message) : Prop where
  role : incoming.role = .user
  text :
    ∀ text, incoming.content = .text text →
      ∃ rest,
        afterBlankLine (context ++ "\n\n" ++ text).toList = some rest ∧
          (rest = text.toList ∨ rest.all isSpace = true)
  blocks :
    ∀ items, incoming.content = .blocks items →
      items.any Block.isContext = false

/-- A result that is a list has no text longer than the limit. -/
def BlocksFit (maxToolResultChars : Int) (message : Message) : Prop :=
  ∀ items, message.role = .tool → message.content = .blocks items →
    items.any (Block.tooLong maxToolResultChars) = false

/--
The index leaves out nothing, or only a blank incoming message; an incoming
message that is saved has its context removed; no message of the turn itself
is taken for a retry; and no list among its results has a text that is too
long.
-/
structure TurnKept : Prop where
  reached :
    loop.leftOut turn session message = 0 ∨
      ((incoming message).IsBlank ∧
        (loop.leftOut turn session message = 1 ∨
          loop.turnMessages turn session message = []))
  context :
    loop.leftOut turn session message = 0 →
      ContextRemoved (runtimeContext turn message) (incoming message)
  own :
    OwnKept [] (loop.runAgentLoop turn (opened turn session) message).entries
  blocksFit :
    ∀ made ∈ loop.turnMessages turn session message,
      BlocksFit loop.spec.maxToolResultChars made

end AgentLoop

/-! ## Saving what the run appended -/

section Saving

variable {maxToolResultChars : Int} {turn saved : List Message}

theorem storedAs_iff
    (noneEmpty : ∀ message ∈ turn, ¬ message.IsEmptyAssistant) :
    StoredAs maxToolResultChars turn saved ↔
      saved = turn.map (Message.stored maxToolResultChars) := by
  constructor
  · intro stored
    induction stored with
    | nil => rfl
    | keep _ induction =>
        rw [List.map_cons, ← induction fun message member =>
          noneEmpty message (List.mem_cons_of_mem _ member)]
    | leave isEmpty _ _ =>
        exact (noneEmpty _ List.mem_cons_self isEmpty).elim
  · rintro rfl
    induction turn with
    | nil => exact StoredAs.nil
    | cons message rest induction =>
        exact StoredAs.keep (induction fun other member =>
          noneEmpty other (List.mem_cons_of_mem _ member))

theorem sanitizePersistedBlocks_cons
    (truncateText dropRuntime : Bool) (block : Block) (rest : List Block) :
    sanitizePersistedBlocks maxToolResultChars truncateText dropRuntime
        (block :: rest) =
      (sanitizePersistedBlock maxToolResultChars truncateText dropRuntime
        block).bind fun kept =>
          (sanitizePersistedBlocks maxToolResultChars truncateText dropRuntime
            rest).map (kept.toList ++ ·) := by
  rw [sanitizePersistedBlocks, sanitizePersistedBlocks, List.mapM_cons]
  cases
    sanitizePersistedBlock maxToolResultChars truncateText dropRuntime block
    with
  | error failure => rfl
  | ok kept =>
      cases
        rest.mapM (sanitizePersistedBlock maxToolResultChars truncateText
          dropRuntime) with
      | error failure => rfl
      | ok blocks => cases kept <;> rfl

/-- A block of a result is stored, unless its text is too long. -/
theorem sanitizePersistedBlock_tool (block : Block) :
    sanitizePersistedBlock maxToolResultChars true false block =
      if block.tooLong maxToolResultChars then .error .boolNotCallable
      else .ok (some block.stored) := by
  cases block with
  | text value =>
      by_cases isLong : maxToolResultChars < (value.length : Int) <;>
        simp [sanitizePersistedBlock, Block.tooLong, Block.stored, isLong]
  | image url path =>
      by_cases isData : isDataImage url = true <;>
        simp [sanitizePersistedBlock, Block.tooLong, Block.stored, isData]
  | other json => rfl
  | notDict value => rfl

/-- A list of blocks is sanitized, unless a text is too long. -/
theorem sanitizePersistedBlocks_tool (items : List Block) :
    sanitizePersistedBlocks maxToolResultChars true false items =
      if items.any (Block.tooLong maxToolResultChars) then
        .error .boolNotCallable
      else .ok (items.map Block.stored) := by
  induction items with
  | nil => rfl
  | cons block rest induction =>
      rw [sanitizePersistedBlocks_cons, sanitizePersistedBlock_tool,
        induction, List.any_cons]
      cases block.tooLong maxToolResultChars with
      | true => rfl
      | false =>
          cases rest.any (Block.tooLong maxToolResultChars) with
          | true => rfl
          | false => rfl

/-- A message of a turn is stored, unless a text of it is too long. -/
theorem savedEntry_ofTurn
    (maxToolResultChars : Int) {message : Message} (ofTurn : message.OfTurn) :
    (AgentLoop.BlocksFit maxToolResultChars message ∧
      savedEntry maxToolResultChars message =
        .ok (some (message.stored maxToolResultChars))) ∨
      (¬ AgentLoop.BlocksFit maxToolResultChars message ∧
        ∃ failure, savedEntry maxToolResultChars message =
          .error failure) := by
  rw [savedEntry, if_neg ofTurn.notEmpty, Message.stored]
  rcases ofTurn.role with isAssistant | isTool
  · rw [isAssistant]
    refine Or.inl ⟨?_, rfl⟩
    intro items isTool
    rw [isAssistant] at isTool
    cases isTool
  · rw [isTool]
    cases isContent : message.content with
    | none =>
        refine Or.inl ⟨?_, rfl⟩
        intro items _ isBlocks
        rw [isContent] at isBlocks
        cases isBlocks
    | text value =>
        refine Or.inl ⟨?_, rfl⟩
        intro items _ isBlocks
        rw [isContent] at isBlocks
        cases isBlocks
    | blocks items =>
        dsimp only
        rw [sanitizePersistedBlocks_tool]
        have fits :
            AgentLoop.BlocksFit maxToolResultChars message ↔
              items.any (Block.tooLong maxToolResultChars) = false := by
          constructor
          · exact fun fits => fits items isTool isContent
          · intro noneLong others _ isBlocks
            rw [isContent] at isBlocks
            cases isBlocks
            exact noneLong
        have nonempty : (items.map Block.stored).isEmpty = false := by
          cases items with
          | nil => exact (ofTurn.blocks isContent).elim
          | cons block rest => rfl
        cases anyLong : items.any (Block.tooLong maxToolResultChars) with
        | true =>
            refine Or.inr ⟨?_, _, rfl⟩
            rw [fits, anyLong]
            nofun
        | false =>
            refine Or.inl ⟨fits.mpr anyLong, ?_⟩
            show Except.ok (keepBlocks message (items.map Block.stored)) = _
            rw [keepBlocks, nonempty, isTool]
            rfl

/-- Saving messages of the turn stores all, or fails on a long text. -/
theorem foldlM_saveStep_ofTurn
    (maxToolResultChars : Int)
    (ofTurn : ∀ message ∈ turn, message.OfTurn) (session : Session) :
    ((∀ message ∈ turn, AgentLoop.BlocksFit maxToolResultChars message) ∧
      turn.foldlM (saveStep maxToolResultChars) session =
        .ok { session with
          messages :=
            session.messages ++
              turn.map (Message.stored maxToolResultChars) }) ∨
      (¬ (∀ message ∈ turn,
          AgentLoop.BlocksFit maxToolResultChars message) ∧
        ∃ failure,
          turn.foldlM (saveStep maxToolResultChars) session =
            .error failure) := by
  induction turn generalizing session with
  | nil =>
      refine Or.inl ⟨nofun, ?_⟩
      rw [List.map_nil, List.append_nil]
      rfl
  | cons message rest induction =>
      rw [List.foldlM_cons, saveStep]
      rcases savedEntry_ofTurn maxToolResultChars
          (ofTurn message List.mem_cons_self) with
        ⟨fits, isSaved⟩ | ⟨tooLong, failure, fails⟩
      · rw [isSaved]
        dsimp only
        rcases induction
            (fun other member =>
              ofTurn other (List.mem_cons_of_mem _ member))
            { session with
              messages :=
                session.messages ++ [message.stored maxToolResultChars] }
          with ⟨allFit, saved⟩ | ⟨notAll, failure, fails⟩
        · refine Or.inl ⟨?_, ?_⟩
          · intro other member
            rcases List.mem_cons.mp member with rfl | later
            · exact fits
            · exact allFit other later
          · show rest.foldlM _ _ = _
            rw [saved, List.map_cons, List.append_assoc,
              List.singleton_append]
        · refine Or.inr ⟨?_, failure, fails⟩
          intro allFit
          exact notAll fun other member =>
            allFit other (List.mem_cons_of_mem _ member)
      · rw [fails]
        exact Or.inr
          ⟨fun allFit => tooLong (allFit message List.mem_cons_self),
            _, rfl⟩

end Saving

end AgentSchedBench.Agent
