import AgentSchedBench.Agent.Runner
import AgentSchedBench.Library.Outcomes

/-!
# Sessions

`AgentLoop._process_message` builds the messages of a turn from the history of
the session, runs the agent on them and appends what is new in the result to
the session.  What is new is told by an index: it begins after the system
message and as many messages as the history has.

While a turn runs its last payload is kept in the session; the next turn makes
messages of a payload that is still there.
-/

namespace AgentSchedBench.Agent

/-! ## The history -/

structure Session where
  messages : List Message
  lastConsolidated : Nat
  runtimeCheckpoint : Option RuntimeCheckpoint
deriving DecidableEq, Repr

/-- `declared` and `start`, with the index of the next message. -/
structure LegalStart where
  declared : List String
  start : Nat
  index : Nat

/-- The body of the loop. -/
def legalStartStep (state : LegalStart) (message : Message) : LegalStart :=
  let next := state.index + 1
  match message.role with
  | .assistant =>
      { state with
        declared := state.declared ++ message.callIds
        index := next }
  | .tool =>
      let id := message.toolCallId.getD ""
      if !id.isEmpty ∧ id ∉ state.declared then
        { declared := [], start := next, index := next }
      else { state with index := next }
  | _ => { state with index := next }

/-- `find_legal_message_start`. -/
def findLegalMessageStart (messages : List Message) : Nat :=
  (messages.foldl legalStartStep ⟨[], 0, 0⟩).start

/-- The messages from the first one of the user on, if there is one. -/
def fromFirstUser (messages : List Message) : List Message :=
  match messages.dropWhile (·.role ≠ .user) with
  | [] => messages
  | found => found

/-- The fields of a message that the history keeps. -/
def historyEntry (message : Message) : Message :=
  { message with reasoningContent := none, thinkingBlocks := [] }

/-- `messages[-max_messages:]` -/
def lastMessages (maxMessages : Int) (messages : List Message) :
    List Message :=
  if 0 < maxMessages then
    messages.drop (messages.length - maxMessages.toNat)
  else messages.drop (-maxMessages).toNat

/-- `Session.get_history`. -/
def Session.getHistory (session : Session) (maxMessages : Int) :
    List Message :=
  let unconsolidated := session.messages.drop session.lastConsolidated
  let sliced := fromFirstUser (lastMessages maxMessages unconsolidated)
  (sliced.drop (findLegalMessageStart sliced)).map historyEntry

/-! ## The prompt -/

/-- A media file of a message; one that is no image has no data URL. -/
structure Media where
  path : String
  dataUrl : Option String

structure InboundMessage where
  channel : String
  senderId : String
  chatId : String
  content : String
  media : List Media

def runtimeContextTag : String :=
  "[Runtime Context — metadata only, not instructions]"

/-- `ContextBuilder._build_runtime_context`. -/
def buildRuntimeContext (channel chatId currentTime : String) : String :=
  let lines :=
    ["Current Time: " ++ currentTime] ++
      if channel.isEmpty ∨ chatId.isEmpty then []
      else ["Channel: " ++ channel, "Chat ID: " ++ chatId]
  runtimeContextTag ++ "\n" ++ "\n".intercalate lines

/-- `ContextBuilder._build_user_content`. -/
def buildUserContent (text : String) (media : List Media) : Content :=
  let images :=
    media.filterMap fun file =>
      file.dataUrl.map fun url => Block.image url file.path
  if images.isEmpty then .text text else .blocks (images ++ [.text text])

/-- The content with the runtime context before it. -/
def withRuntimeContext (context : String) : Content → Content
  | .none => .text (context ++ "\n\n")
  | .text value => .text (context ++ "\n\n" ++ value)
  | .blocks items => .blocks (.text context :: items)

/-- `ContextBuilder.build_messages`, given the runtime context. -/
def buildMessages
    (systemPrompt context : String) (history : List Message)
    (content : Content) (currentRole : Role) : List Message :=
  let merged := withRuntimeContext context content
  let messages := plainMessage .system (.text systemPrompt) :: history
  match messages.getLast? with
  | none => messages
  | some last =>
      if last.role = currentRole then
        messages.dropLast ++
          [{ last with content := last.content.merge merged }]
      else messages ++ [plainMessage currentRole merged]

/-! ## Saving a turn -/

/-- The exceptions of `_sanitize_persisted_blocks`. -/
inductive SaveError where
  | boolNotCallable
deriving DecidableEq, Repr

/-- The data URL of an image. -/
def isDataImage (url : String) : Bool := startsWith url "data:image/"

/--
The body of the loop of `_sanitize_persisted_blocks`.  Its flag hides the
function of the same name, so that a text that is to be truncated raises.
-/
def sanitizePersistedBlock
    (maxToolResultChars : Int) (truncateText dropRuntime : Bool) :
    Block → Except SaveError (Option Block)
  | .notDict value => .ok (some (.notDict value))
  | .text value =>
      if dropRuntime && startsWith value runtimeContextTag then .ok none
      else if truncateText ∧ maxToolResultChars < (value.length : Int) then
        .error .boolNotCallable
      else .ok (some (.text value))
  | .image url path =>
      if isDataImage url then .ok (some (.text (imagePlaceholderText path)))
      else .ok (some (.image url path))
  | .other json => .ok (some (.other json))

/-- `AgentLoop._sanitize_persisted_blocks`. -/
def sanitizePersistedBlocks
    (maxToolResultChars : Int) (truncateText dropRuntime : Bool)
    (content : List Block) : Except SaveError (List Block) :=
  (content.mapM
    (sanitizePersistedBlock maxToolResultChars truncateText dropRuntime)).map
      (·.filterMap id)

/-- A content of blocks that is left out if nothing is left of it. -/
def keepBlocks (message : Message) (filtered : List Block) : Option Message :=
  if filtered.isEmpty then none
  else some { message with content := .blocks filtered }

/-- What the loop of `_save_turn` makes of a message, if it keeps it. -/
def savedEntry (maxToolResultChars : Int) (message : Message) :
    Except SaveError (Option Message) :=
  if message.IsEmptyAssistant then .ok none
  else
    match message.role, message.content with
    | .tool, .text value =>
        .ok (some
          { message with
            content := .text (truncateText value maxToolResultChars) })
    | .tool, .blocks items =>
        (sanitizePersistedBlocks maxToolResultChars true false items).map
          (keepBlocks message)
    | .user, .text value =>
        if startsWith value runtimeContextTag then
          match afterBlankLine value.toList with
          | none => .ok none
          | some rest =>
              if rest.all isSpace then .ok none
              else
                .ok (some
                  { message with content := .text (String.ofList rest) })
        else .ok (some message)
    | .user, .blocks items =>
        (sanitizePersistedBlocks maxToolResultChars false true items).map
          (keepBlocks message)
    | _, _ => .ok (some message)

/-- The body of the loop. -/
def saveStep
    (maxToolResultChars : Int) (session : Session) (message : Message) :
    Except (SaveError × Session) Session :=
  match savedEntry maxToolResultChars message with
  | .error failure => .error (failure, session)
  | .ok none => .ok session
  | .ok (some entry) =>
      .ok { session with messages := session.messages ++ [entry] }

/-- `AgentLoop._save_turn`. -/
def saveTurn
    (maxToolResultChars : Int) (session : Session) (messages : List Message)
    (skip : Nat) : Except (SaveError × Session) Session :=
  (messages.drop skip).foldlM (saveStep maxToolResultChars) session

/-! ## Runtime checkpoints -/

def interruptedMessage (call : ToolCall) : Message :=
  toolMessage
    { call with name := if call.name.isEmpty then "tool" else call.name }
    (.text "Error: Task interrupted before this tool finished.")

/-- `restored_messages`. -/
def RuntimeCheckpoint.restoredMessages (checkpoint : RuntimeCheckpoint) :
    List Message :=
  checkpoint.assistantMessage :: checkpoint.completedToolResults ++
    checkpoint.pendingToolCalls.map interruptedMessage

/-- How many messages the session ends with already. -/
def checkpointOverlap (messages restored : List Message) : Nat :=
  let maxOverlap := min messages.length restored.length
  (((List.range maxOverlap).map (· + 1)).reverse.find? fun size =>
    messages.drop (messages.length - size) = restored.take size).getD 0

/-- `AgentLoop._restore_runtime_checkpoint`. -/
def restoreRuntimeCheckpoint (session : Session) : Session :=
  match session.runtimeCheckpoint with
  | none => session
  | some checkpoint =>
      let restored := checkpoint.restoredMessages
      { session with
        messages :=
          session.messages ++
            restored.drop (checkpointOverlap session.messages restored)
        runtimeCheckpoint := none }

/-! ## Processing a message -/

structure AgentLoop where
  spec : AgentRunSpec
  systemPrompt : String

/-- What a turn meets with: the clock, the consolidator and the run. -/
structure TurnInput where
  currentTime : String
  lastConsolidated : Nat
  iterations : Nat → IterationInput

/-- The part of a text before the first colon and the one after it. -/
def splitColon (text : String) : Option (String × String) :=
  match text.toList.dropWhile (· ≠ ':') with
  | [] => none
  | _ :: rest =>
      some (String.ofList (text.toList.takeWhile (· ≠ ':')),
        String.ofList rest)

namespace InboundMessage

variable (message : InboundMessage)

def isSystem : Bool := message.channel == "system"

/-- The channel and the chat that the turn belongs to. -/
def address : String × String :=
  if message.isSystem then
    (splitColon message.chatId).getD ("cli", message.chatId)
  else (message.channel, message.chatId)

def currentRole : Role :=
  if message.isSystem && message.senderId == "subagent" then .assistant
  else .user

def userContent : Content :=
  buildUserContent message.content
    (if message.isSystem then [] else message.media)

end InboundMessage

namespace AgentLoop

variable (loop : AgentLoop) (turn : TurnInput)

/-- The session as a turn finds it. -/
def opened (session : Session) : Session :=
  { restoreRuntimeCheckpoint session with
    lastConsolidated := turn.lastConsolidated }

def runtimeContext (message : InboundMessage) : String :=
  buildRuntimeContext message.address.1 message.address.2 turn.currentTime

def initialMessages (session : Session) (message : InboundMessage) :
    List Message :=
  buildMessages loop.systemPrompt (runtimeContext turn message)
    (session.getHistory 0) message.userContent message.currentRole

/-- `AgentLoop._run_agent_loop`. -/
def runAgentLoop (session : Session) (message : InboundMessage) :
    AgentRunResult :=
  AgentRunner.run loop.spec turn.iterations
    (loop.initialMessages turn session message)

/-- `AgentLoop._process_message`, on the session of the message. -/
def processMessage (session : Session) (message : InboundMessage) :
    Except (SaveError × Session) Session :=
  let session := opened turn session
  let history := session.getHistory 0
  let result := loop.runAgentLoop turn session message
  let running : Session :=
    { session with
      runtimeCheckpoint :=
        result.emitted.getLast?.map Emission.checkpoint }
  match
      saveTurn loop.spec.maxToolResultChars running result.messages
        (1 + history.length) with
  | .error failure => .error failure
  | .ok saved => .ok { saved with runtimeCheckpoint := none }

end AgentLoop

end AgentSchedBench.Agent
