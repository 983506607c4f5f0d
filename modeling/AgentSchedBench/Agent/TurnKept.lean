import AgentSchedBench.Agent.SavedTurn

/-!
# Where the index finds the turn

The messages of the result are what is left of those that were given, then
what is left of those of the turn.  The index is right if all that were given
are left and the incoming message is one of them.
-/

namespace AgentSchedBench.Agent

/-! ## What is left of the messages -/

section Left

variable {entries tail : List Entry} {skipToolIds : List String}

theorem ownMessages_cons (entry : Entry) :
    ownMessages (entry :: tail) =
      if entry.origin = .turn then entry.message :: ownMessages tail
      else ownMessages tail := by
  rw [ownMessages, List.filter_cons]
  by_cases isTurn : entry.origin = .turn
  · rw [if_pos (decide_eq_true isTurn), if_pos isTurn]
    rfl
  · rw [if_neg (by simpa using isTurn), if_neg isTurn]
    rfl

/-- What is left of what was appended belongs to the turn itself. -/
theorem stripFrom_sublist_own
    (notInitial : ∀ entry ∈ tail, entry.origin ≠ .initial)
    (retries : RetriesStripped skipToolIds tail) :
    (stripFrom skipToolIds (tail.map Entry.message)).Sublist
      (ownMessages tail) := by
  induction tail generalizing skipToolIds with
  | nil => exact List.Sublist.refl _
  | cons entry rest induction =>
      have later :=
        induction
          (fun other member => notInitial other (List.mem_cons_of_mem _ member))
          retries.2
      rw [List.map_cons, stripFrom, ownMessages_cons]
      cases isOrigin : entry.origin with
      | initial =>
          exact (notInitial entry List.mem_cons_self isOrigin).elim
      | retry =>
          rw [if_pos (retries.1 isOrigin), if_neg (by rintro ⟨⟩)]
          exact later
      | turn =>
          rw [if_pos (rfl : Origin.turn = .turn)]
          split
          · exact later.cons entry.message
          · exact later.cons_cons entry.message

theorem ownKept_iff
    (notInitial : ∀ entry ∈ tail, entry.origin ≠ .initial)
    (retries : RetriesStripped skipToolIds tail) :
    OwnKept skipToolIds tail ↔
      stripFrom skipToolIds (tail.map Entry.message) = ownMessages tail := by
  induction tail generalizing skipToolIds with
  | nil => exact iff_of_true trivial rfl
  | cons entry rest induction =>
      have laterNotInitial :
          ∀ other ∈ rest, other.origin ≠ .initial :=
        fun other member => notInitial other (List.mem_cons_of_mem _ member)
      have later := induction laterNotInitial retries.2
      have fewer :=
        (stripFrom_sublist_own laterNotInitial retries.2).length_le
      rw [OwnKept, List.map_cons, stripFrom, ownMessages_cons, later]
      cases isOrigin : entry.origin with
      | initial =>
          exact (notInitial entry List.mem_cons_self isOrigin).elim
      | retry =>
          rw [if_pos (retries.1 isOrigin), if_neg (by rintro ⟨⟩)]
          exact and_iff_right (by rintro ⟨⟩)
      | turn =>
          rw [if_pos (rfl : Origin.turn = .turn)]
          cases entry.message.stripped skipToolIds with
          | true =>
              constructor
              · rintro ⟨isKept, _⟩
                cases isKept rfl
              · intro same
                have lengths := congrArg List.length same
                rw [if_pos rfl, List.length_cons] at lengths
                omega
          | false =>
              rw [if_neg (by simp), List.cons.injEq]
              exact ⟨fun kept => ⟨rfl, kept.2⟩,
                fun same => ⟨fun _ => rfl, same.2⟩⟩

/-- The messages that were given do not count. -/
theorem ownKept_append
    {base : List Entry} (given : ∀ entry ∈ base, entry.origin = .initial)
    (skipToolIds : List String) :
    OwnKept skipToolIds (base ++ tail) ↔
      OwnKept (skipsAfter skipToolIds (base.map Entry.message)) tail := by
  induction base generalizing skipToolIds with
  | nil => rfl
  | cons entry rest induction =>
      rw [List.cons_append, OwnKept,
        induction fun other member =>
          given other (List.mem_cons_of_mem _ member)]
      apply and_iff_right
      intro isTurn
      rw [given entry List.mem_cons_self] at isTurn
      cases isTurn

theorem ownMessages_append
    {base : List Entry} (given : ∀ entry ∈ base, entry.origin = .initial) :
    ownMessages (base ++ tail) = ownMessages tail := by
  have none : base.filter (·.origin = .turn) = [] := by
    rw [List.filter_eq_nil_iff]
    intro entry member
    rw [given entry member]
    decide
  rw [ownMessages, List.filter_append, none]
  rfl

/-- A reply is not left out. -/
theorem Message.IsReply.not_stripped
    {message : Message} (isReply : message.IsReply)
    (skipToolIds : List String) : message.stripped skipToolIds = false := by
  rw [Message.stripped, Message.looksSynthetic, isReply.1, isReply.2]
  rfl

/-- A reply that is the first of a turn is its only message, and is left. -/
theorem ownMessages_reply
    (replyLast : ∀ front entry back, tail = front ++ entry :: back →
      entry.message.IsReply → back = [])
    {made : Message} {rest : List Message}
    (own : ownMessages tail = made :: rest) (isReply : made.IsReply) :
    rest = [] ∧ stripFrom skipToolIds (tail.map Entry.message) ≠ [] := by
  obtain ⟨entry, later, filtered, isMade, isRest⟩ :=
    List.map_eq_cons_iff.mp own
  obtain ⟨front, back, rfl, _, _, isLater⟩ :=
    List.filter_eq_cons_iff.mp filtered
  subst isMade
  have nothing := replyLast front entry back rfl isReply
  subst nothing
  constructor
  · rw [← isRest, ← isLater]
    rfl
  · rw [List.map_append, stripFrom_append]
    intro empty
    have last := (List.append_eq_nil_iff.mp empty).2
    rw [List.map_cons, stripFrom, isReply.not_stripped] at last
    cases last

/-- What is left of messages that are alike is alike. -/
theorem stripFrom_alike
    {olds news : List Message} (same : List.Forall₂ Message.Alike olds news)
    (skipToolIds : List String) :
    List.Forall₂ Message.Alike (stripFrom skipToolIds olds)
      (stripFrom skipToolIds news) := by
  induction same generalizing skipToolIds with
  | nil => exact List.Forall₂.nil
  | cons head _ induction =>
      rw [stripFrom, stripFrom, head.stripped, head.skips]
      split
      · exact induction _
      · exact List.Forall₂.cons head (induction _)

theorem given_origin
    {initial : List Message} {base : List Entry}
    (given : List.Forall₂ Given initial base) :
    ∀ entry ∈ base, entry.origin = .initial := by
  intro entry member
  obtain ⟨_, _, isGiven⟩ := mem_of_forall₂ given member
  exact isGiven.1

theorem given_alike
    {initial : List Message} {base : List Entry}
    (given : List.Forall₂ Given initial base) :
    List.Forall₂ Message.Alike initial (base.map Entry.message) := by
  rw [List.forall₂_map_right_iff]
  exact given.imp fun _ _ isGiven => isGiven.2

/-- What was given: all of it, or all but a reply that was its last. -/
def GivenTo (initial : List Message) (base : List Entry) : Prop :=
  List.Forall₂ Given initial base ∨
    ∃ front last, initial = front ++ [last] ∧ last.IsReply ∧
      List.Forall₂ Given front base

theorem GivenTo.origin
    {initial : List Message} {base : List Entry}
    (given : GivenTo initial base) :
    ∀ entry ∈ base, entry.origin = .initial := by
  rcases given with all | ⟨front, last, _, _, butLast⟩
  · exact given_origin all
  · exact given_origin butLast

/-- What is left, what was stripped and what was replaced make up the whole. -/
theorem GivenTo.left_length
    {initial : List Message} {base : List Entry}
    (given : GivenTo initial base) :
    (stripFrom [] (base.map Entry.message)).length +
      ((initial.length - (stripFrom [] initial).length) +
        (initial.length - base.length)) = initial.length := by
  have fewer := (stripFrom_sublist [] initial).length_le
  rcases given with all | ⟨front, last, rfl, isReply, butLast⟩
  · have bases := all.length_eq
    have lefts := (stripFrom_alike (given_alike all) []).length_eq
    omega
  · have bases := butLast.length_eq
    have lefts := (stripFrom_alike (given_alike butLast) []).length_eq
    have lastLeft :
        stripFrom [] (front ++ [last]) = stripFrom [] front ++ [last] := by
      rw [stripFrom_append, stripFrom, isReply.not_stripped]
      rfl
    have leftLength := congrArg List.length lastLeft
    rw [List.length_append, List.length_singleton] at leftLength fewer ⊢
    omega

/-- If all is left, its last message is as it was given. -/
theorem GivenTo.last_left
    {front : List Message} {last : Message} {base : List Entry}
    (given : GivenTo (front ++ [last]) base) (notTool : last.role ≠ .tool)
    (noneLost :
      (stripFrom [] (base.map Entry.message)).length = front.length + 1) :
    ∃ newFront, newFront.length = front.length ∧
      stripFrom [] (base.map Entry.message) = newFront ++ [last] := by
  have whole := given.left_length
  rw [noneLost, List.length_append, List.length_singleton] at whole
  have noneStripped : stripFrom [] (front ++ [last]) = front ++ [last] := by
    apply (stripFrom_sublist [] _).eq_of_length_le
    rw [List.length_append, List.length_singleton]
    omega
  rcases given with all | ⟨others, reply, same, _, butLast⟩
  · have alike := stripFrom_alike (given_alike all) []
    rw [noneStripped] at alike
    obtain ⟨newFront, newLast, sameFront, sameLast, split⟩ :=
      forall₂_append_left alike
    cases sameLast with
    | cons head nothing =>
        cases nothing
        refine ⟨newFront, sameFront.length_eq.symm, ?_⟩
        rw [split, head.content notTool]
  · have bases := butLast.length_eq
    have lengths := congrArg List.length same
    rw [List.length_append, List.length_append, List.length_singleton,
      List.length_singleton] at lengths
    omega

end Left

/-! ## The messages that are given -/

theorem getLast?_cons_any {α : Type} (p : α → Bool) {first : α}
    (skipsFirst : p first = false) (rest : List α) :
    (first :: rest).getLast?.any p = rest.getLast?.any p := by
  rcases List.eq_nil_or_concat rest with rfl | ⟨front, last, rfl⟩
  · exact skipsFirst
  · rw [List.concat_eq_append, ← List.cons_append, List.getLast?_concat,
      List.getLast?_concat]

namespace AgentLoop

variable
  {loop : AgentLoop} {turn : TurnInput} {session : Session}
  {message : InboundMessage}

/-- The incoming message with its runtime context. -/
def prompted (turn : TurnInput) (message : InboundMessage) : Message :=
  plainMessage message.currentRole
    (withRuntimeContext (runtimeContext turn message) message.userContent)

theorem currentRole_cases (message : InboundMessage) :
    message.currentRole = .assistant ∨ message.currentRole = .user := by
  rw [InboundMessage.currentRole]
  split
  · exact Or.inl rfl
  · exact Or.inr rfl

/-- The prompt ends with the incoming message, or has taken it in. -/
theorem initialMessages_cases
    (loop : AgentLoop) (turn : TurnInput) (session : Session)
    (message : InboundMessage) :
    let initial := loop.initialMessages turn (opened turn session) message
    let history := (opened turn session).getHistory 0
    (merges turn session message = true ∧
      initial.length = 1 + history.length) ∨
    (merges turn session message = false ∧
      initial =
        (plainMessage .system (.text loop.systemPrompt) :: history) ++
          [prompted turn message]) := by
  intro initial history
  have mergesIs :
      merges turn session message =
        (plainMessage .system (.text loop.systemPrompt) ::
          history).getLast?.any (·.role = message.currentRole) := by
    rw [getLast?_cons_any, merges]
    rcases currentRole_cases message with isRole | isRole <;>
      simp [isRole, plainMessage]
  have initialIs :
      initial =
        buildMessages loop.systemPrompt (runtimeContext turn message)
          history message.userContent message.currentRole := rfl
  rw [buildMessages] at initialIs
  generalize isPrompt :
    plainMessage .system (.text loop.systemPrompt) :: history = prompt
    at mergesIs initialIs ⊢
  have lengths := congrArg List.length isPrompt
  rw [List.length_cons] at lengths
  rcases List.eq_nil_or_concat prompt with rfl | ⟨front, last, rfl⟩
  · cases isPrompt
  · rw [List.concat_eq_append] at *
    rw [List.getLast?_concat] at initialIs mergesIs
    dsimp only [Option.any] at initialIs mergesIs
    by_cases sameRole : last.role = message.currentRole
    · rw [if_pos sameRole] at initialIs
      refine Or.inl ⟨by rw [mergesIs]; exact decide_eq_true sameRole, ?_⟩
      rw [initialIs, List.dropLast_concat]
      rw [List.length_append] at lengths ⊢
      rw [List.length_singleton] at lengths ⊢
      omega
    · rw [if_neg sameRole] at initialIs
      refine Or.inr ⟨by rw [mergesIs]; exact decide_eq_false sameRole, ?_⟩
      exact initialIs

end AgentLoop

/-! ## Saving the incoming message -/

section Incoming

variable {maxToolResultChars : Int}

theorem startsWith_append (front rest : String) :
    startsWith (front ++ rest) front = true := by
  rw [startsWith, String.toList_append, List.isPrefixOf_iff_prefix]
  exact List.prefix_append _ _

/-- After the first blank line there is at least what follows another one. -/
theorem afterBlankLine_append (front rest : List Char) :
    ∃ more,
      afterBlankLine (front ++ '\n' :: '\n' :: rest) =
        some (more ++ rest) := by
  induction front with
  | nil => exact ⟨[], rfl⟩
  | cons char front induction =>
      rw [List.cons_append, afterBlankLine.eq_def]
      split
      · next rest' same =>
        obtain ⟨_, same⟩ := List.cons.inj same
        cases front with
        | nil =>
            obtain ⟨_, rfl⟩ := List.cons.inj same
            exact ⟨['\n'], rfl⟩
        | cons next front =>
            obtain ⟨_, rfl⟩ := List.cons.inj same
            exact ⟨front ++ ['\n', '\n'], by simp⟩
      · next same =>
        obtain ⟨_, rfl⟩ := List.cons.inj same
        exact induction
      · next same => cases same

/-- A block of the user's is stored, unless it is the runtime context. -/
theorem sanitizePersistedBlock_user (block : Block) :
    sanitizePersistedBlock maxToolResultChars false true block =
      .ok (if block.isContext then none else some block.stored) := by
  cases block with
  | text value =>
      cases isContext : startsWith value runtimeContextTag <;>
        simp [sanitizePersistedBlock, Block.isContext, Block.stored,
          isContext]
  | image url path =>
      by_cases isData : isDataImage url = true <;>
        simp [sanitizePersistedBlock, Block.isContext, Block.stored, isData]
  | other json => rfl
  | notDict value => rfl

theorem sanitizePersistedBlocks_user (items : List Block) :
    sanitizePersistedBlocks maxToolResultChars false true items =
      .ok ((items.filter (!·.isContext)).map Block.stored) := by
  induction items with
  | nil => rfl
  | cons block rest induction =>
      rw [sanitizePersistedBlocks_cons, sanitizePersistedBlock_user,
        induction, List.filter_cons]
      cases block.isContext with
      | true => rfl
      | false => rfl

/-- The incoming message is saved as it should be. -/
def SavesIncoming
    (maxToolResultChars : Int) (context : String) (role : Role)
    (content : Content) : Prop :=
  ∃ first : Option Message,
    savedEntry maxToolResultChars
        (plainMessage role (withRuntimeContext context content)) =
      .ok first ∧
    (IncomingStored maxToolResultChars (plainMessage role content)
        first.toList ↔
      AgentLoop.ContextRemoved context (plainMessage role content)) ∧
    ∀ entry, first = some entry →
      entry.role = role ∧ (role = .assistant → entry.IsReply)

theorem savesIncoming_text
    (rest text : String) :
    SavesIncoming maxToolResultChars (runtimeContextTag ++ rest) .user
      (.text text) := by
  obtain ⟨more, isMore⟩ :=
    afterBlankLine_append (runtimeContextTag ++ rest).toList text.toList
  have after :
      afterBlankLine
          (runtimeContextTag ++ rest ++ "\n\n" ++ text).toList =
        some (more ++ text.toList) := by
    rw [← isMore, String.toList_append, String.toList_append,
      List.append_assoc]
    rfl
  have isContext :
      startsWith (runtimeContextTag ++ rest ++ "\n\n" ++ text)
        runtimeContextTag = true := by
    rw [String.append_assoc, String.append_assoc]
    exact startsWith_append _ _
  have removed :
      AgentLoop.ContextRemoved (runtimeContextTag ++ rest)
          (plainMessage .user (.text text)) ↔
        more = [] ∨ (more ++ text.toList).all isSpace = true := by
    constructor
    · intro removed
      obtain ⟨found, isFound, isText⟩ := removed.text text rfl
      rw [after] at isFound
      cases isFound
      simpa using isText
    · intro isText
      constructor
      · rfl
      · rintro other ⟨⟩
        exact ⟨_, after, by simpa using isText⟩
      · rintro _ ⟨⟩
  have saved :
      savedEntry maxToolResultChars
          (plainMessage .user
            (withRuntimeContext (runtimeContextTag ++ rest) (.text text))) =
        .ok
          (if (more ++ text.toList).all isSpace then none
          else
            some
              (plainMessage .user
                (.text (String.ofList (more ++ text.toList))))) := by
    rw [savedEntry, if_neg (by rintro ⟨⟨⟩, _⟩)]
    dsimp only [plainMessage, withRuntimeContext]
    rw [isContext, if_pos rfl, after]
    dsimp only
    split <;> rfl
  refine ⟨_, saved, ?_, ?_⟩
  · rw [removed]
    cases allSpace : (more ++ text.toList).all isSpace with
    | true =>
        refine iff_of_true (Or.inr ⟨rfl, text, rfl, ?_⟩) (Or.inr rfl)
        rw [List.all_append, Bool.and_eq_true] at allSpace
        exact allSpace.2
    | false =>
        rw [if_neg (by rintro ⟨⟩), Option.toList_some, IncomingStored]
        constructor
        · rintro (same | ⟨⟨⟩, _⟩)
          have texts :=
            Content.text.inj
              (congrArg Message.content (List.singleton_inj.mp same))
          have lists := congrArg String.toList texts
          rw [String.toList_ofList] at lists
          exact Or.inl (by simpa using lists)
        · rintro (rfl | impossible)
          · rw [List.nil_append, String.ofList_toList]
            exact Or.inl rfl
          · cases impossible
  · intro entry isEntry
    split at isEntry
    · cases isEntry
    · cases isEntry
      exact ⟨rfl, (by rintro ⟨⟩)⟩

theorem savesIncoming_blocks
    (rest : String) {items : List Block} (nonempty : items ≠ []) :
    SavesIncoming maxToolResultChars (runtimeContextTag ++ rest) .user
      (.blocks items) := by
  have saved :
      savedEntry maxToolResultChars
          (plainMessage .user
            (withRuntimeContext (runtimeContextTag ++ rest)
              (.blocks items))) =
        .ok
          (keepBlocks (plainMessage .user .none)
            ((items.filter (!·.isContext)).map Block.stored)) := by
    rw [savedEntry, if_neg (by rintro ⟨⟨⟩, _⟩)]
    dsimp only [plainMessage, withRuntimeContext]
    rw [sanitizePersistedBlocks_user, List.filter_cons,
      if_neg (by
        rw [Block.isContext, startsWith_append]
        rintro ⟨⟩)]
    rfl
  have removed :
      AgentLoop.ContextRemoved (runtimeContextTag ++ rest)
          (plainMessage .user (.blocks items)) ↔
        items.any Block.isContext = false := by
    constructor
    · exact fun removed => removed.blocks items rfl
    · intro noContext
      constructor
      · rfl
      · rintro _ ⟨⟩
      · rintro others ⟨⟩
        exact noContext
  have lengths : items.any Block.isContext = false ↔
      (items.filter (!·.isContext)) = items := by
    rw [List.filter_eq_self, List.any_eq_false]
    simp
  have notBlank : ¬ (plainMessage .user (.blocks items)).IsBlank := by
    rintro ⟨text, ⟨⟩, _⟩
  refine ⟨_, saved, ?_, ?_⟩
  · rw [removed, lengths, keepBlocks]
    cases isLeft : items.filter (!·.isContext) with
    | nil =>
        refine iff_of_false ?_ nonempty.symm
        rw [List.map_nil, List.isEmpty_nil, if_pos rfl, Option.toList_none]
        rintro (same | ⟨_, blank⟩)
        · cases same
        · exact notBlank blank
    | cons block others =>
        rw [List.map_cons, List.isEmpty_cons, if_neg (by rintro ⟨⟩),
          Option.toList_some, IncomingStored, ← List.map_cons]
        constructor
        · rintro (same | ⟨⟨⟩, _⟩)
          have blocks :=
            Content.blocks.inj
              (congrArg Message.content (List.singleton_inj.mp same))
          have sameLength := congrArg List.length blocks
          rw [List.length_map, List.length_map, ← isLeft] at sameLength
          rw [← isLeft]
          exact List.filter_sublist.eq_of_length sameLength
        · intro same
          rw [same]
          exact Or.inl rfl
  · intro entry isEntry
    rw [keepBlocks] at isEntry
    split at isEntry
    · cases isEntry
    · cases isEntry
      exact ⟨rfl, (by rintro ⟨⟩)⟩

theorem savesIncoming_user
    (rest text : String) (media : List Media) :
    SavesIncoming maxToolResultChars (runtimeContextTag ++ rest) .user
      (buildUserContent text media) := by
  rw [buildUserContent]
  split
  · exact savesIncoming_text rest text
  · apply savesIncoming_blocks
    simp

/-- The runtime context of a subagent's result is not removed. -/
theorem savesIncoming_assistant
    (context : String) (content : Content) :
    SavesIncoming maxToolResultChars context .assistant content := by
  have notEmpty :
      ¬ (plainMessage .assistant
          (withRuntimeContext context content)).IsEmptyAssistant := by
    rintro ⟨_, isEmpty, _⟩
    cases content with
    | none => simp [plainMessage, withRuntimeContext, Content.isEmpty] at isEmpty
    | text value =>
        simp [plainMessage, withRuntimeContext, Content.isEmpty] at isEmpty
    | blocks items => cases isEmpty
  have differs : withRuntimeContext context content ≠ content := by
    cases content with
    | none => rintro ⟨⟩
    | text value =>
        intro same
        have lengths := congrArg String.length (Content.text.inj same)
        rw [String.length_append, String.length_append] at lengths
        have two : "\n\n".length = 2 := rfl
        omega
    | blocks items =>
        intro same
        have lengths := congrArg List.length (Content.blocks.inj same)
        rw [List.length_cons] at lengths
        omega
  refine ⟨some _, by rw [savedEntry, if_neg notEmpty]; rfl, ?_, ?_⟩
  · apply iff_of_false
    · rintro (same | ⟨⟨⟩, _⟩)
      exact differs (congrArg Message.content (List.singleton_inj.mp same))
    · intro removed
      cases removed.role
  · rintro entry ⟨⟩
    exact ⟨rfl, fun _ => ⟨rfl, rfl⟩⟩

end Incoming

namespace AgentLoop

theorem savesIncoming_prompted
    (maxToolResultChars : Int) (turn : TurnInput)
    (message : InboundMessage) :
    SavesIncoming maxToolResultChars (runtimeContext turn message)
      message.currentRole message.userContent := by
  obtain ⟨rest, isContext⟩ :
      ∃ rest,
        runtimeContext turn message = runtimeContextTag ++ rest :=
    ⟨_, String.append_assoc ..⟩
  rw [isContext]
  rcases currentRole_cases message with isRole | isRole
  · rw [isRole]
    exact savesIncoming_assistant _ _
  · rw [isRole]
    exact savesIncoming_user rest _ _

/-! ## Where the index finds the turn -/

/-- What is left of the messages of the turn, as the index finds it. -/
structure Found
    (loop : AgentLoop) (turn : TurnInput) (session : Session)
    (message : InboundMessage) (found own : List Message) : Prop where
  reached :
    loop.leftOut turn session message = 0 →
      found = prompted turn message :: own
  missed :
    loop.leftOut turn session message ≠ 0 →
      found = own.drop (loop.leftOut turn session message - 1)
  sublist : own.Sublist (loop.turnMessages turn session message)
  kept :
    OwnKept [] (loop.runAgentLoop turn (opened turn session) message).entries ↔
      own = loop.turnMessages turn session message
  ofTurn : ∀ made ∈ loop.turnMessages turn session message, made.OfTurn
  reply :
    ∀ made rest, loop.turnMessages turn session message = made :: rest →
      made.IsReply → rest = [] ∧ own ≠ []

theorem exists_found
    (loop : AgentLoop) (turn : TurnInput) (session : Session)
    (message : InboundMessage) :
    ∃ own,
      loop.Found turn session message
        ((loop.runAgentLoop turn (opened turn session) message).messages.drop
          (1 + ((opened turn session).getHistory 0).length)) own := by
  have cases := initialMessages_cases loop turn session message
  dsimp only at cases
  obtain ⟨base, tail, split, appended, replyLast, given⟩ :=
    (AgentRunner.run_finished loop.spec turn.iterations
      (loop.initialMessages turn (opened turn session) message)).split
  have givenTo :
      GivenTo (loop.initialMessages turn (opened turn session) message)
        base := by
    rcases given with all | ⟨front, last, isInitial, isReply, butLast, _⟩
    · exact Or.inl all
    · exact Or.inr ⟨front, last, isInitial, isReply, butLast⟩
  have entriesAre :
      (loop.runAgentLoop turn (opened turn session) message).entries =
        base ++ tail := split
  have turnIs :
      loop.turnMessages turn session message = ownMessages tail := by
    rw [turnMessages, entriesAre, ownMessages_append givenTo.origin]
  have isBase :
      ((base ++ tail).filter (·.origin = .initial)).length = base.length := by
    rw [List.filter_append, List.filter_eq_self.mpr, List.filter_eq_nil_iff.mpr,
      List.append_nil]
    · intro entry member
      simpa using appended.notInitial entry member
    · intro entry member
      simpa using givenTo.origin entry member
  have count :
      (stripFrom [] (base.map Entry.message)).length +
          loop.leftOut turn session message =
        ((opened turn session).getHistory 0).length + 2 := by
    have whole := givenTo.left_length
    rw [leftOut, strippedGiven, replacedGiven, entriesAre, isBase,
      stripSyntheticMalformedPairs_eq]
    rcases cases with ⟨merged, lengths⟩ | ⟨notMerged, isInitial⟩
    · rw [if_pos merged]
      omega
    · have lengths := congrArg List.length isInitial
      rw [List.length_append, List.length_cons, List.length_singleton]
        at lengths
      rw [notMerged, if_neg nofun]
      omega
  have messagesAre :
      (loop.runAgentLoop turn (opened turn session) message).messages =
        stripFrom [] (base.map Entry.message) ++
          stripFrom (skipsAfter [] (base.map Entry.message))
            (tail.map Entry.message) := by
    rw [AgentRunResult.messages, stripSyntheticMalformedPairs_eq, entriesAre,
      List.map_append, stripFrom_append]
  generalize isOwn :
    stripFrom (skipsAfter [] (base.map Entry.message))
      (tail.map Entry.message) = own at messagesAre
  refine ⟨own, ?_, ?_, ?_, ?_, ?_, ?_⟩
  · intro nothing
    rw [messagesAre]
    rcases cases with ⟨merged, _⟩ | ⟨_, isInitial⟩
    · rw [leftOut, if_pos merged] at nothing
      omega
    · rw [isInitial] at givenTo
      obtain ⟨newFront, lengths, isLeft⟩ :=
        givenTo.last_left
          (by
            rcases currentRole_cases message with isRole | isRole <;>
              simp [prompted, plainMessage, isRole])
          (by rw [List.length_cons]; omega)
      rw [isLeft, List.append_assoc, List.drop_append_of_le_length, List.drop_eq_nil_of_le]
      · rfl
      · rw [lengths, List.length_cons]
        omega
      · rw [lengths, List.length_cons]
        omega
  · intro some
    rw [messagesAre, List.drop_append, List.drop_eq_nil_of_le (by omega),
      List.nil_append]
    congr 1
    omega
  · rw [turnIs, ← isOwn]
    exact stripFrom_sublist_own appended.notInitial (appended.retries _)
  · rw [entriesAre, ownKept_append givenTo.origin, turnIs, ← isOwn]
    exact ownKept_iff appended.notInitial (appended.retries _)
  · intro made member
    rw [turnIs] at member
    obtain ⟨entry, isEntry, rfl⟩ := List.mem_map.mp member
    have isTurn := List.mem_filter.mp isEntry
    exact appended.ofTurn entry isTurn.1 (of_decide_eq_true isTurn.2)
  · intro made rest isTurn isReply
    rw [turnIs] at isTurn
    rw [← isOwn]
    exact ownMessages_reply replyLast isTurn isReply

/-! ## Saving what the index finds -/

variable
  {loop : AgentLoop} {turn : TurnInput} {session : Session}
  {message : InboundMessage}

/-- The messages that saving some messages of the turn leads to. -/
theorem foldlM_saves_iff
    {maxToolResultChars : Int} {own : List Message}
    (ofTurn : ∀ made ∈ own, made.OfTurn) (session : Session)
    (expected : List Message) :
    (∃ saved,
      own.foldlM (saveStep maxToolResultChars) session = .ok saved ∧
        saved.messages = expected) ↔
      (∀ made ∈ own, BlocksFit maxToolResultChars made) ∧
        session.messages ++ own.map (Message.stored maxToolResultChars) =
          expected := by
  rcases foldlM_saveStep_ofTurn maxToolResultChars
      ofTurn session with ⟨allFit, saved⟩ | ⟨notAll, failure, fails⟩
  · rw [saved]
    constructor
    · rintro ⟨_, ⟨⟩, same⟩
      exact ⟨allFit, same⟩
    · rintro ⟨_, same⟩
      exact ⟨_, rfl, same⟩
  · rw [fails]
    constructor
    · rintro ⟨_, ⟨⟩, _⟩
    · rintro ⟨allFit, _⟩
      exact (notAll allFit).elim

/-- A turn is saved as what the index finds is. -/
theorem processMessage_saves_iff
    (loop : AgentLoop) (turn : TurnInput) (session : Session)
    (message : InboundMessage) (expected : List Message) :
    (∃ saved, loop.processMessage turn session message = .ok saved ∧
      saved.messages = expected) ↔
      ∃ saved,
        saveTurn loop.spec.maxToolResultChars
            { opened turn session with
              runtimeCheckpoint :=
                (loop.runAgentLoop turn (opened turn session)
                  message).emitted.getLast?.map Emission.checkpoint }
            (loop.runAgentLoop turn (opened turn session) message).messages
            (1 + ((opened turn session).getHistory 0).length) = .ok saved ∧
          saved.messages = expected := by
  rw [processMessage]
  dsimp only
  split
  · next fails =>
    constructor
    · rintro ⟨_, ⟨⟩, _⟩
    · rintro ⟨_, saves, _⟩
      rw [fails] at saves
      cases saves
  · next saved saves =>
    constructor
    · rintro ⟨_, ⟨⟩, same⟩
      exact ⟨saved, saves, same⟩
    · rintro ⟨_, savesToo, same⟩
      rw [saves] at savesToo
      cases savesToo
      exact ⟨_, rfl, same⟩

/-- Saving first the incoming message, then messages of the turn. -/
theorem foldlM_prompted_iff
    {own : List Message} (ofTurn : ∀ made ∈ own, made.OfTurn)
    {first : Option Message} {session : Session} {incoming : Message}
    {maxToolResultChars : Int}
    (isSaved : savedEntry maxToolResultChars incoming = .ok first)
    (expected : List Message) :
    (∃ saved,
      (incoming :: own).foldlM (saveStep maxToolResultChars) session =
          .ok saved ∧ saved.messages = expected) ↔
      (∀ made ∈ own, BlocksFit maxToolResultChars made) ∧
        session.messages ++
            (first.toList ++
              own.map (Message.stored maxToolResultChars)) = expected := by
  rw [List.foldlM_cons, saveStep, isSaved]
  cases first with
  | none => exact foldlM_saves_iff ofTurn session expected
  | some entry =>
      rw [← List.append_assoc]
      exact
        foldlM_saves_iff ofTurn
          { session with messages := session.messages ++ [entry] } expected

/-- The turn is stored, if it is what is left of it. -/
theorem savesTurn_iff
    (ofTurn : ∀ made ∈ loop.turnMessages turn session message, made.OfTurn) :
    loop.SavesTurn turn session message ↔
      ∃ first,
        IncomingStored loop.spec.maxToolResultChars (incoming message)
            first ∧
          ∃ saved, loop.processMessage turn session message = .ok saved ∧
            saved.messages =
              (opened turn session).messages ++
                (first ++
                  (loop.turnMessages turn session message).map
                    (Message.stored loop.spec.maxToolResultChars)) := by
  have noneEmpty :
      ∀ made ∈ loop.turnMessages turn session message,
        ¬ made.IsEmptyAssistant := fun made member =>
    (ofTurn made member).notEmpty
  constructor
  · rintro ⟨saved, first, rest, processed, messagesAre, isFirst, stored⟩
    rw [storedAs_iff noneEmpty] at stored
    subst stored
    exact ⟨first, isFirst, saved, processed, messagesAre⟩
  · rintro ⟨first, isFirst, saved, processed, messagesAre⟩
    exact ⟨saved, first, _, processed, messagesAre, isFirst,
      (storedAs_iff noneEmpty).mpr rfl⟩

theorem incomingStored_length
    {maxToolResultChars : Int} {incoming : Message} {first : List Message}
    (stored : IncomingStored maxToolResultChars incoming first) :
    first = [] ∨ first.length = 1 := by
  rcases stored with rfl | ⟨rfl, _⟩
  · exact Or.inr rfl
  · exact Or.inl rfl

/-- A message is stored under its own role. -/
theorem stored_role (maxToolResultChars : Int) (message : Message) :
    (message.stored maxToolResultChars).role = message.role := by
  rw [Message.stored]
  split <;> rfl

theorem stored_assistant
    (maxToolResultChars : Int) {message : Message}
    (isAssistant : message.role = .assistant) :
    message.stored maxToolResultChars = message := by
  rw [Message.stored, isAssistant]

/-- No message of the turn is taken for the incoming one. -/
theorem Found.not_incoming
    {maxToolResultChars : Int} {found own : List Message} {entry : Message}
    (isFound : loop.Found turn session message found own)
    (isRole :
      entry.role = message.currentRole ∧
        (message.currentRole = .assistant → entry.IsReply))
    (same :
      entry :: own.map (Message.stored maxToolResultChars) =
        (loop.turnMessages turn session message).map
          (Message.stored maxToolResultChars)) : False := by
  obtain ⟨made, rest, isTurn, isEntry, sameRest⟩ :=
    List.map_eq_cons_iff.mp same.symm
  have ofTurn := isFound.ofTurn made (by rw [isTurn]; exact List.mem_cons_self)
  have madeRole : made.role = message.currentRole := by
    rw [← isRole.1, ← isEntry, stored_role]
  have isAssistant : message.currentRole = .assistant := by
    rcases currentRole_cases message with isAssistant | isUser
    · exact isAssistant
    · rw [isUser] at madeRole
      rcases ofTurn.role with isAssistant | isTool
      · rw [madeRole] at isAssistant
        cases isAssistant
      · rw [madeRole] at isTool
        cases isTool
  rw [stored_assistant _ (madeRole.trans isAssistant)] at isEntry
  subst isEntry
  obtain ⟨nothing, some⟩ :=
    isFound.reply made rest isTurn (isRole.2 isAssistant)
  rw [nothing, List.map_nil] at sameRest
  exact some (List.map_eq_nil_iff.mp sameRest.symm)

/-- With all in its place, the incoming message and the turn are saved. -/
theorem savesTurn_iff_of_reached
    {own : List Message}
    (found :
      loop.Found turn session message
        ((loop.runAgentLoop turn (opened turn session) message).messages.drop
          (1 + ((opened turn session).getHistory 0).length)) own)
    (reached : loop.leftOut turn session message = 0) :
    loop.SavesTurn turn session message ↔
      loop.TurnKept turn session message := by
  obtain ⟨first, isSaved, isStored, isRole⟩ :=
    savesIncoming_prompted loop.spec.maxToolResultChars turn message
  change savedEntry _ (prompted turn message) = _ at isSaved
  change IncomingStored _ (incoming message) _ ↔ ContextRemoved _ _ at isStored
  have ownOfTurn : ∀ made ∈ own, made.OfTurn := fun made member =>
    found.ofTurn made (found.sublist.subset member)
  have fewer := found.sublist.length_le
  rw [savesTurn_iff found.ofTurn]
  simp only [processMessage_saves_iff, saveTurn, found.reached reached]
  simp only [foldlM_prompted_iff ownOfTurn isSaved, List.append_cancel_left_eq]
  constructor
  · rintro ⟨expected, expectedStored, allFit, same⟩
    have lengths := congrArg List.length same
    simp only [List.length_append, List.length_map] at lengths
    have sameLength : first.toList.length = expected.length := by
      cases first with
      | none =>
          rw [Option.toList_none, List.length_nil] at lengths ⊢
          omega
      | some entry =>
          rcases incomingStored_length expectedStored with rfl | one
          · exact (found.not_incoming (isRole entry rfl) same).elim
          · exact one.symm
    obtain ⟨rfl, sameTurn⟩ := List.append_inj same sameLength
    have isOwn : own = loop.turnMessages turn session message :=
      found.sublist.eq_of_length (by omega)
    constructor
    · exact Or.inl reached
    · intro _
      exact isStored.mp expectedStored
    · exact found.kept.mpr isOwn
    · rw [← isOwn]
      exact allFit
  · intro kept
    have isOwn := found.kept.mp kept.own
    refine ⟨first.toList, isStored.mpr (kept.context reached), ?_, ?_⟩
    · rw [isOwn]
      exact kept.blocksFit
    · rw [isOwn]

/-- Otherwise only a blank incoming message may be left out. -/
theorem savesTurn_iff_of_missed
    {own : List Message}
    (found :
      loop.Found turn session message
        ((loop.runAgentLoop turn (opened turn session) message).messages.drop
          (1 + ((opened turn session).getHistory 0).length)) own)
    (missed : loop.leftOut turn session message ≠ 0) :
    loop.SavesTurn turn session message ↔
      loop.TurnKept turn session message := by
  have fewer := found.sublist.length_le
  have leftOfTurn :
      ∀ made ∈ own.drop (loop.leftOut turn session message - 1),
        made.OfTurn := fun made member =>
    found.ofTurn made (found.sublist.subset (List.mem_of_mem_drop member))
  rw [savesTurn_iff found.ofTurn]
  simp only [processMessage_saves_iff, saveTurn, found.missed missed]
  simp only [foldlM_saves_iff leftOfTurn, List.append_cancel_left_eq]
  constructor
  · rintro ⟨expected, expectedStored, allFit, same⟩
    have lengths := congrArg List.length same
    simp only [List.length_append, List.length_map, List.length_drop]
      at lengths
    have isOwn : own = loop.turnMessages turn session message :=
      found.sublist.eq_of_length (by omega)
    have nothing : expected = [] := List.eq_nil_of_length_eq_zero (by omega)
    subst nothing
    rw [isOwn] at lengths allFit
    rw [List.length_nil] at lengths
    have dropsNothing :
        loop.leftOut turn session message - 1 = 0 ∨
          (loop.turnMessages turn session message).length = 0 := by
      omega
    constructor
    · rcases expectedStored with ⟨⟨⟩⟩ | ⟨_, isBlank⟩
      refine Or.inr ⟨isBlank, ?_⟩
      rcases dropsNothing with one | none
      · left
        omega
      · exact Or.inr (List.eq_nil_of_length_eq_zero none)
    · exact fun reached => (missed reached).elim
    · exact found.kept.mpr isOwn
    · rcases dropsNothing with one | none
      · rw [one] at allFit
        exact allFit
      · rw [List.eq_nil_of_length_eq_zero none]
        nofun
  · intro kept
    have isOwn := found.kept.mp kept.own
    rcases kept.reached with reached | ⟨isBlank, dropsNothing⟩
    · exact (missed reached).elim
    · refine ⟨[], Or.inr ⟨rfl, isBlank⟩, ?_⟩
      have all :
          own.drop (loop.leftOut turn session message - 1) =
            loop.turnMessages turn session message := by
        rw [isOwn]
        rcases dropsNothing with one | none
        · rw [one]
          rfl
        · rw [none]
          exact List.drop_nil
      rw [all]
      exact ⟨kept.blocksFit, rfl⟩

/-- A turn is saved exactly if the index leaves out nothing of it. -/
theorem turn_saved_iff
    (loop : AgentLoop) (turn : TurnInput) (session : Session)
    (message : InboundMessage) :
    loop.SavesTurn turn session message ↔
      loop.TurnKept turn session message := by
  obtain ⟨own, found⟩ := exists_found loop turn session message
  by_cases reached : loop.leftOut turn session message = 0
  · exact savesTurn_iff_of_reached found reached
  · exact savesTurn_iff_of_missed found reached

/-- An incoming message that was merged is lost. -/
theorem not_savesTurn_of_merges
    (merged : merges turn session message = true)
    (notBlank : ¬ (incoming message).IsBlank) :
    ¬ loop.SavesTurn turn session message := by
  have missed : loop.leftOut turn session message ≠ 0 := by
    rw [leftOut, if_pos merged]
    omega
  obtain ⟨own, found⟩ := exists_found loop turn session message
  rw [savesTurn_iff_of_missed found missed]
  intro kept
  rcases kept.reached with reached | ⟨isBlank, _⟩
  · exact missed reached
  · exact notBlank isBlank

/-- The result of a subagent is lost after a reply. -/
theorem subagent_result_lost :
    ∃ (loop : AgentLoop) (turn : TurnInput) (session : Session)
      (message : InboundMessage),
      session.messages =
        [plainMessage .user (.text "run the tests"),
          plainMessage .assistant (.text "started")] ∧
      message.channel = "system" ∧ message.senderId = "subagent" ∧
      message.content = "all passed" ∧
      ¬ loop.SavesTurn turn session message := by
  let spec : AgentRunSpec :=
    { toolNames := []
      maxIterations := 1
      maxToolResultChars := 1000
      errorMessage := none
      maxIterationsMessage := none
      failOnToolError := false
      toolResultPath := none
      malformedRetryBudget := 2 }
  let answer : LlmResponse :=
    { content := some "done"
      toolCalls := []
      isError := false
      reasoningContent := none
      thinkingBlocks := [] }
  let input : IterationInput :=
    { response := answer
      finalizationRetry := answer
      finalizeContent := id
      runTool := fun _ _ => ⟨.none, none⟩
      inputHash := 0
      budgetWriteFails := fun _ => false
      resultWriteFails := fun _ => false }
  refine
    ⟨⟨spec, "system prompt"⟩, ⟨"noon", 0, fun _ => input⟩,
      { messages :=
          [plainMessage .user (.text "run the tests"),
            plainMessage .assistant (.text "started")]
        lastConsolidated := 0
        runtimeCheckpoint := none },
      { channel := "system"
        senderId := "subagent"
        chatId := "cli:direct"
        content := "all passed"
        media := [] },
      rfl, rfl, rfl, rfl, not_savesTurn_of_merges ?_ ?_⟩
  · decide
  · rintro ⟨text, ⟨⟩, isBlank⟩
    revert isBlank
    decide

end AgentLoop

end AgentSchedBench.Agent
