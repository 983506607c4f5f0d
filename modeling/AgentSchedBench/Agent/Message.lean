import Mathlib.Data.List.Basic

/-!
# The messages of an agent

A message is a dictionary with a role, a content and what the role adds to
them.  A content is missing, a text, or a list of blocks; an image is a block
with a data URL, which is not written to the session.
-/

namespace AgentSchedBench.Agent

/-! ## Texts -/

/-- `str.isspace` on one character. -/
def isSpace (char : Char) : Bool :=
  (9 ≤ char.toNat && char.toNat ≤ 13) ||
    (28 ≤ char.toNat && char.toNat ≤ 32) ||
    (0x2000 ≤ char.toNat && char.toNat ≤ 0x200a) ||
    [0x85, 0xa0, 0x1680, 0x2028, 0x2029, 0x202f, 0x205f, 0x3000].contains
      char.toNat

/-- `not text.strip()`. -/
def isBlank (text : String) : Bool := text.toList.all isSpace

/-- `is_blank_text`. -/
def isBlankText : Option String → Bool
  | none => true
  | some text => isBlank text

/-- `truncate_text`. -/
def truncateText (text : String) (maxChars : Int) : String :=
  if maxChars ≤ 0 ∨ (text.length : Int) ≤ maxChars then text
  else
    String.ofList (text.toList.take maxChars.toNat) ++ "\n... (truncated)"

/-- `text.startswith(front)`. -/
def startsWith (text front : String) : Bool :=
  front.toList.isPrefixOf text.toList

/-- `text.split("\n\n", 1)[1]`, if there is a blank line. -/
def afterBlankLine : List Char → Option (List Char)
  | '\n' :: '\n' :: rest => some rest
  | _ :: rest => afterBlankLine rest
  | [] => none

/-! ## Contents -/

/-- A block of a content; one that is not a dictionary is kept as its text. -/
inductive Block where
  | text (text : String)
  | image (url path : String)
  | other (json : String)
  | notDict (text : String)
deriving DecidableEq, Repr

inductive Content where
  | none
  | text (text : String)
  | blocks (blocks : List Block)
deriving DecidableEq, Repr

/-- A block as a dictionary. -/
def Block.asDict : Block → Block
  | .notDict value => .text value
  | block => block

namespace Content

/-- `not content`. -/
def isEmpty : Content → Bool
  | none => true
  | text value => value.isEmpty
  | blocks items => items.isEmpty

/-- `_to_blocks`. -/
def toBlocks : Content → List Block
  | none => []
  | text value => [.text value]
  | blocks items => items.map Block.asDict

/-- `ContextBuilder._merge_message_content`. -/
def merge : Content → Content → Content
  | text left, text right =>
      if left.isEmpty then text right else text (left ++ "\n\n" ++ right)
  | left, right => blocks (left.toBlocks ++ right.toBlocks)

end Content

def Block.asText : Block → Option String
  | .text value => some value
  | _ => none

/-- `stringify_text_blocks`. -/
def stringifyTextBlocks (blocks : List Block) : Option String :=
  (blocks.mapM Block.asText).map ("\n".intercalate ·)

/-- `image_placeholder_text`. -/
def imagePlaceholderText (path : String) : String :=
  if path.isEmpty then "[image]" else "[image: " ++ path ++ "]"

/-! ## Messages -/

inductive Role where
  | system
  | user
  | assistant
  | tool
deriving DecidableEq, Repr

/-- A tool call, with its arguments as JSON text. -/
structure ToolCall where
  id : String
  name : String
  arguments : String
deriving DecidableEq, Repr

structure Message where
  role : Role
  content : Content
  toolCalls : List ToolCall
  toolCallId : Option String
  name : Option String
  reasoningContent : Option String
  thinkingBlocks : List String
deriving DecidableEq, Repr

/-- A message of a role and a content. -/
def plainMessage (role : Role) (content : Content) : Message where
  role := role
  content := content
  toolCalls := []
  toolCallId := none
  name := none
  reasoningContent := none
  thinkingBlocks := []

/-- `build_assistant_message`. -/
def buildAssistantMessage
    (content : String) (toolCalls : List ToolCall)
    (reasoningContent : Option String) (thinkingBlocks : List String) :
    Message where
  role := .assistant
  content := .text content
  toolCalls := toolCalls
  toolCallId := none
  name := none
  reasoningContent :=
    if reasoningContent.isSome ∨ thinkingBlocks ≠ [] then
      some (reasoningContent.getD "")
    else none
  thinkingBlocks := thinkingBlocks

def toolMessage (call : ToolCall) (content : Content) : Message where
  role := .tool
  content := content
  toolCalls := []
  toolCallId := some call.id
  name := some call.name
  reasoningContent := none
  thinkingBlocks := []

/-- An assistant message with neither content nor tool calls. -/
def Message.IsEmptyAssistant (message : Message) : Prop :=
  message.role = .assistant ∧ message.content.isEmpty = true ∧
    message.toolCalls = []

/-- An assistant message without tool calls. -/
def Message.IsReply (message : Message) : Prop :=
  message.role = .assistant ∧ message.toolCalls = []

instance (message : Message) : Decidable message.IsEmptyAssistant :=
  inferInstanceAs (Decidable (_ ∧ _))

instance (message : Message) : Decidable message.IsReply :=
  inferInstanceAs (Decidable (_ ∧ _))

/-! ## Retries -/

def invalidToolCallName : String := "_invalid_tool_call"

/-- Does the message call tools of the invalid name only? -/
def Message.looksSynthetic (message : Message) : Bool :=
  message.role == .assistant && !message.toolCalls.isEmpty &&
    message.toolCalls.all (·.name == invalidToolCallName)

/-- The ids of the tool calls that have one. -/
def Message.callIds (message : Message) : List String :=
  (message.toolCalls.map ToolCall.id).filter (!·.isEmpty)

/-- `cleaned` and `skip_tool_ids`. -/
structure StripState where
  cleaned : List Message
  skipToolIds : List String

/-- The body of the loop. -/
def stripStep (state : StripState) (message : Message) : StripState :=
  if message.looksSynthetic then
    { state with skipToolIds := state.skipToolIds ++ message.callIds }
  else if message.role = .tool ∧
      message.toolCallId.getD "" ∈ state.skipToolIds then
    state
  else { state with cleaned := state.cleaned ++ [message] }

/-- `_strip_synthetic_malformed_pairs`. -/
def stripSyntheticMalformedPairs (messages : List Message) : List Message :=
  (messages.foldl stripStep ⟨[], []⟩).cleaned

/-- Is the message left out, given the ids to be skipped? -/
def Message.stripped (message : Message) (skipToolIds : List String) :
    Bool :=
  message.looksSynthetic ||
    (message.role == .tool &&
      skipToolIds.contains (message.toolCallId.getD ""))

/-- The ids to be skipped after a message. -/
def Message.skips (message : Message) (skipToolIds : List String) :
    List String :=
  if message.looksSynthetic then skipToolIds ++ message.callIds
  else skipToolIds

/-- The ids to be skipped after some messages. -/
def skipsAfter (skipToolIds : List String) (messages : List Message) :
    List String :=
  messages.foldl (fun skipped message => message.skips skipped) skipToolIds

/-- What is left of messages, given the ids to be skipped before them. -/
def stripFrom (skipToolIds : List String) : List Message → List Message
  | [] => []
  | message :: rest =>
      if message.stripped skipToolIds then
        stripFrom (message.skips skipToolIds) rest
      else message :: stripFrom (message.skips skipToolIds) rest

section Strip

variable {skipToolIds : List String} {message : Message}

theorem stripStep_eq (state : StripState) (message : Message) :
    stripStep state message =
      { cleaned :=
          if message.stripped state.skipToolIds then state.cleaned
          else state.cleaned ++ [message]
        skipToolIds := message.skips state.skipToolIds } := by
  rw [stripStep, Message.stripped, Message.skips]
  cases message.looksSynthetic with
  | true => simp
  | false =>
      by_cases skipped :
          message.role = .tool ∧
            message.toolCallId.getD "" ∈ state.skipToolIds
      · simp [skipped]
      · simp [skipped]

theorem foldl_stripStep (messages : List Message) (state : StripState) :
    (messages.foldl stripStep state).cleaned =
      state.cleaned ++ stripFrom state.skipToolIds messages := by
  induction messages generalizing state with
  | nil => exact (List.append_nil _).symm
  | cons message rest induction =>
      rw [List.foldl_cons, induction, stripStep_eq, stripFrom]
      dsimp only
      split
      · rfl
      · rw [List.append_assoc, List.singleton_append]

theorem stripSyntheticMalformedPairs_eq (messages : List Message) :
    stripSyntheticMalformedPairs messages = stripFrom [] messages := by
  rw [stripSyntheticMalformedPairs, foldl_stripStep]
  rfl

theorem stripFrom_append (skipToolIds : List String)
    (front back : List Message) :
    stripFrom skipToolIds (front ++ back) =
      stripFrom skipToolIds front ++
        stripFrom (skipsAfter skipToolIds front) back := by
  induction front generalizing skipToolIds with
  | nil => rfl
  | cons message rest induction =>
      rw [List.cons_append, stripFrom, stripFrom, induction]
      split
      · rfl
      · rfl

theorem stripFrom_sublist (skipToolIds : List String)
    (messages : List Message) :
    (stripFrom skipToolIds messages).Sublist messages := by
  induction messages generalizing skipToolIds with
  | nil => exact List.Sublist.refl _
  | cons message rest induction =>
      rw [stripFrom]
      split
      · exact (induction _).cons message
      · exact (induction _).cons_cons message

end Strip

end AgentSchedBench.Agent
