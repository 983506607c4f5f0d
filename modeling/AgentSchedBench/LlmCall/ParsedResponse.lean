import AgentSchedBench.Library.Buffers
import AgentSchedBench.Library.Json

/-!
# Plain and streamed responses

A chat completion is parsed as a whole, or from the chunks of a stream.  Both
should give the same response, up to the ids of its tool calls.  The parser of
chunks drops the reasoning, takes an empty content for none, and passes
arguments on that are not an object.
-/

namespace AgentSchedBench.LlmCall

open Buffers

abbrev Text := List Char

abbrev Fields := List (String × Json)

/-! ## What the provider sends -/

/-- A content; a part of a list may have no text. -/
inductive Content where
  | text (text : Text)
  | parts (parts : List (Option Text))

/-- `function` of a tool call, with the fields beside the standard ones. -/
structure RawFunction where
  name : Option Text
  arguments : Option Text
  fields : Fields

/-- A tool call of a message, or a fragment of one. -/
structure RawToolCall where
  index : Option Nat
  id : Option Text
  function : Option RawFunction
  extraContent : Option Fields
  fields : Fields

structure RawUsage where
  promptTokens : Option Int
  completionTokens : Option Int
  totalTokens : Option Int
  promptTokensDetails : Option (Option Int)
  cachedTokens : Option Int
  promptCacheHitTokens : Option Int

/-- `choices[0].message` -/
structure RawMessage where
  content : Option Content
  reasoningContent : Option Text
  toolCalls : List RawToolCall

/-- A chat completion; there is always one choice. -/
structure ChatCompletion where
  message : RawMessage
  finishReason : Option Text
  usage : Option RawUsage

/-- `choices[0].delta` -/
structure Delta where
  content : Option Content
  reasoningContent : Option Text
  toolCalls : List RawToolCall

structure ChunkChoice where
  finishReason : Option Text
  delta : Delta

/-- A chunk of a stream; one of usage has no choices. -/
inductive StreamChunk where
  | text (text : Text)
  | mapping (choice : Option ChunkChoice) (usage : Option RawUsage)

/-! ## The response -/

structure ToolCallRequest where
  id : Text
  name : Text
  arguments : Json
  extraContent : Option Fields
  providerSpecificFields : Option Fields
  functionProviderSpecificFields : Option Fields

structure Usage where
  promptTokens : Int
  completionTokens : Int
  totalTokens : Int
  cachedTokens : Option Int

@[ext]
structure LlmResponse where
  content : Option Text
  toolCalls : List ToolCallRequest
  finishReason : Text
  /-- An empty dictionary is no usage. -/
  usage : Option Usage
  reasoningContent : Option Text

def ToolCallRequest.withoutId (request : ToolCallRequest) : ToolCallRequest :=
  { request with id := [] }

/-- A response but for the ids of its tool calls. -/
def LlmResponse.withoutIds (response : LlmResponse) : LlmResponse :=
  { response with
    toolCalls := response.toolCalls.map ToolCallRequest.withoutId }

/-! ## Extraction -/

/-- `value or None` for a list of characters or fields. -/
def nonEmpty {α : Type} : Option (List α) → Option (List α)
  | some [] | none => none
  | some items => some items

/-- `_extract_text_content` -/
def extractTextContent : Option Content → Option Text
  | none => none
  | some (.text text) => some text
  | some (.parts parts) => nonEmpty (some (parts.flatMap (·.getD [])))

/-- The fields beside the standard ones that are not null. -/
def leftover (fields : Fields) : Option Fields :=
  nonEmpty <| some <| fields.filter fun field =>
    match field.2 with
    | .null => false
    | _ => true

structure Extras where
  extraContent : Option Fields
  prov : Option Fields
  fnProv : Option Fields

/-- `_extract_tc_extras` -/
def extractTcExtras (call : RawToolCall) : Extras where
  extraContent := nonEmpty call.extraContent
  prov := leftover call.fields
  fnProv := call.function.bind fun function => leftover function.fields

/-- The number of cached tokens, at the first path that has some. -/
def RawUsage.cached (usage : RawUsage) : Option Int :=
  [usage.promptTokensDetails.getD none, usage.cachedTokens,
    usage.promptCacheHitTokens].findSome? fun tokens =>
      tokens.filter (· ≠ 0)

/-- `_extract_usage` -/
def extractUsage : Option RawUsage → Option Usage
  | none => none
  | some usage =>
      some {
        promptTokens := usage.promptTokens.getD 0
        completionTokens := usage.completionTokens.getD 0
        totalTokens := usage.totalTokens.getD 0
        cachedTokens := usage.cached }

def RawToolCall.name (call : RawToolCall) : Option Text :=
  call.function.bind RawFunction.name

def RawToolCall.arguments (call : RawToolCall) : Option Text :=
  call.function.bind RawFunction.arguments

section Parse

variable (repair : Text → Json) (shortToolId : Nat → Text)

/-! ## Plain responses -/

/-- `args if isinstance(args, dict) else {}` -/
def dictOrEmpty : Json → Json
  | .obj fields => .obj fields
  | _ => .obj []

/-- The request for a tool call of a message. -/
def parseToolCall (position : Nat) (call : RawToolCall) : ToolCallRequest :=
  let extras := extractTcExtras call
  { id := shortToolId position
    name := call.name.getD []
    arguments :=
      match call.arguments with
      | none => .obj []
      | some text => dictOrEmpty (repair text)
    extraContent := extras.extraContent
    providerSpecificFields := extras.prov
    functionProviderSpecificFields := extras.fnProv }

/-- `_parse` -/
def parse (completion : ChatCompletion) : LlmResponse :=
  let finishReason := (nonEmpty completion.finishReason).getD "stop".toList
  { content := extractTextContent completion.message.content
    toolCalls :=
      completion.message.toolCalls.mapIdx (parseToolCall repair shortToolId)
    finishReason :=
      if completion.message.toolCalls ≠ [] then
        match completion.finishReason with
        | some reason =>
            if reason = "tool_calls".toList ∨ reason = "stop".toList then reason
            else finishReason
        | none => finishReason
      else finishReason
    usage := extractUsage completion.usage
    reasoningContent := completion.message.reasoningContent }

/-! ## Streamed responses -/

/-- The buffer of a tool call. -/
structure ToolCallBuffer where
  id : Text
  name : Text
  arguments : Text
  extras : Extras

def ToolCallBuffer.start : ToolCallBuffer := ⟨[], [], [], ⟨none, none, none⟩⟩

/-- What `_accum_tc` does to the buffer of the tool call. -/
def ToolCallBuffer.accum (buffer : ToolCallBuffer) (call : RawToolCall) :
    ToolCallBuffer :=
  let extras := extractTcExtras call
  { id := (nonEmpty call.id).getD buffer.id
    name := (nonEmpty call.name).getD buffer.name
    arguments := buffer.arguments ++ call.arguments.getD []
    extras := {
      extraContent := extras.extraContent.or buffer.extras.extraContent
      prov := extras.prov.or buffer.extras.prov
      fnProv := extras.fnProv.or buffer.extras.fnProv } }

/-- The state of the loop over the chunks. -/
structure ChunkState where
  contentParts : List Text
  tcBufs : Dict Nat ToolCallBuffer
  finishReason : Text
  usage : Option Usage

def ChunkState.start : ChunkState := ⟨[], Dict.empty, "stop".toList, none⟩

/-- `_accum_tc` -/
def accumTc (tcBufs : Dict Nat ToolCallBuffer) (fragment : Nat × RawToolCall) :
    Dict Nat ToolCallBuffer :=
  tcBufs.set fragment.1
    (((tcBufs.get fragment.1).getD .start).accum fragment.2)

/-- The tool calls of a delta with their indices, which are their positions
unless they are given. -/
def Delta.indexed (delta : Delta) : List (Nat × RawToolCall) :=
  delta.toolCalls.mapIdx fun position call =>
    (call.index.getD position, call)

/-- The body of the loop over the chunks. -/
def ChunkState.step (state : ChunkState) : StreamChunk → ChunkState
  | .text text => { state with contentParts := state.contentParts ++ [text] }
  | .mapping none usage =>
      { state with usage := (extractUsage usage).or state.usage }
  | .mapping (some choice) usage =>
      { contentParts :=
          match nonEmpty (extractTextContent choice.delta.content) with
          | some text => state.contentParts ++ [text]
          | none => state.contentParts
        tcBufs := choice.delta.indexed.foldl accumTc state.tcBufs
        finishReason :=
          (nonEmpty choice.finishReason).getD state.finishReason
        usage := (extractUsage usage).or state.usage }

/-- The request for a tool call of a stream. -/
def ToolCallBuffer.request (position : Nat) (buffer : ToolCallBuffer) :
    ToolCallRequest where
  id := if buffer.id = [] then shortToolId position else buffer.id
  name := buffer.name
  arguments :=
    if buffer.arguments = [] then .obj [] else repair buffer.arguments
  extraContent := buffer.extras.extraContent
  providerSpecificFields := buffer.extras.prov
  functionProviderSpecificFields := buffer.extras.fnProv

/-- `_parse_chunks` -/
def parseChunks (chunks : List StreamChunk) : LlmResponse :=
  let state := chunks.foldl ChunkState.step .start
  { content := nonEmpty (some state.contentParts.flatten)
    toolCalls :=
      (state.tcBufs.items.map Prod.snd).mapIdx
        (ToolCallBuffer.request repair shortToolId)
    finishReason := state.finishReason
    usage := state.usage
    reasoningContent := none }

end Parse

/-! ## The protocol of a stream -/

/-- Some parts of a message say a value of it: none of them says another one,
and if there is a value, one does. -/
structure Says {α : Type} (parts : List (Option α)) (value : Option α) :
    Prop where
  agree : ∀ part ∈ parts, part = none ∨ part = value
  told : value ≠ none → value ∈ parts

/-- The fragments of a tool call in order. -/
structure IsCutOfCall (fragments : List RawToolCall) (call : RawToolCall) :
    Prop where
  name :
    Says (fragments.map fun fragment => nonEmpty fragment.name)
      (nonEmpty call.name)
  arguments :
    fragments.flatMap (·.arguments.getD []) = call.arguments.getD []
  extraContent :
    Says (fragments.map fun fragment => (extractTcExtras fragment).extraContent)
      (extractTcExtras call).extraContent
  prov :
    Says (fragments.map fun fragment => (extractTcExtras fragment).prov)
      (extractTcExtras call).prov
  fnProv :
    Says (fragments.map fun fragment => (extractTcExtras fragment).fnProv)
      (extractTcExtras call).fnProv

namespace StreamChunk

def choice? : StreamChunk → Option ChunkChoice
  | .text _ => none
  | mapping choice _ => choice

def usage? : StreamChunk → Option Usage
  | .text _ => none
  | mapping _ usage => extractUsage usage

/-- The text of a chunk. -/
def content (chunk : StreamChunk) : Text :=
  match chunk with
  | .text chars => chars
  | mapping none _ => []
  | mapping (some choice) _ => (extractTextContent choice.delta.content).getD []

def reasoning (chunk : StreamChunk) : Option Text :=
  chunk.choice?.bind (·.delta.reasoningContent)

def finishReason (chunk : StreamChunk) : Option Text :=
  chunk.choice?.bind fun choice => nonEmpty choice.finishReason

/-- The fragments of tool calls of a chunk. -/
def fragments (chunk : StreamChunk) : List (Nat × RawToolCall) :=
  match chunk.choice? with
  | none => []
  | some choice => choice.delta.indexed

end StreamChunk

/-- The chunks are the message in pieces: its texts are cut, each tool call is
cut into fragments with its position as index, the calls begin in order, and
the rest is said in some chunks. -/
structure IsCutOf (chunks : List StreamChunk) (completion : ChatCompletion) :
    Prop where
  content :
    chunks.flatMap StreamChunk.content =
      (extractTextContent completion.message.content).getD []
  reasoning :
    chunks.flatMap (·.reasoning.getD []) =
      completion.message.reasoningContent.getD []
  finishReason :
    Says (chunks.map StreamChunk.finishReason)
      (nonEmpty completion.finishReason)
  usage : Says (chunks.map StreamChunk.usage?) (extractUsage completion.usage)
  order :
    ((chunks.flatMap StreamChunk.fragments).map Prod.fst).eraseDups =
      List.range completion.message.toolCalls.length
  calls :
    ∀ position call, completion.message.toolCalls[position]? = some call →
      IsCutOfCall (itemsOf position (chunks.flatMap StreamChunk.fragments)) call

/-! ## Folds over what is said -/

section Fold

variable {α β σ ι : Type}

/-- A field that each item may replace holds what the items say. -/
theorem Says.foldl {items : List ι} {part : ι → Option α} {value : Option α}
    (said : Says (items.map part) value) (step : σ → ι → σ) (field : σ → β)
    (inject : α → β)
    (stepped : ∀ state item,
      field (step state item) = ((part item).map inject).getD (field state))
    (start : σ) :
    field (items.foldl step start) = (value.map inject).getD (field start) := by
  obtain ⟨agree, told⟩ := said
  cases value with
  | none =>
      clear told
      induction items generalizing start with
      | nil => rfl
      | cons item rest induction =>
          rw [List.map_cons, List.forall_mem_cons] at agree
          rw [List.foldl_cons, induction _ agree.2, stepped,
            agree.1.elim id id]
          rfl
  | some value =>
      have held :
          field start = inject value ∨ some value ∈ items.map part :=
        Or.inr (told nofun)
      clear told
      rw [Option.map_some, Option.getD_some]
      induction items generalizing start with
      | nil => exact held.resolve_right List.not_mem_nil
      | cons item rest induction =>
          rw [List.map_cons, List.forall_mem_cons] at agree
          rw [List.foldl_cons]
          refine induction _ agree.2 ?_
          rw [stepped]
          rcases agree.1 with isNone | isValue
          · rw [isNone]
            refine held.imp_right fun member => ?_
            rw [List.map_cons, isNone, List.mem_cons] at member
            exact member.resolve_left nofun
          · rw [isValue]
            exact Or.inl rfl

/-- A field that each item adds to. -/
theorem foldl_adds (items : List ι) (step : σ → ι → σ) (field : σ → List α)
    (part : ι → List α)
    (stepped : ∀ state item, field (step state item) = field state ++ part item)
    (start : σ) :
    field (items.foldl step start) = field start ++ items.flatMap part := by
  induction items generalizing start with
  | nil => rw [List.foldl_nil, List.flatMap_nil, List.append_nil]
  | cons item rest induction =>
      rw [List.foldl_cons, induction, stepped, List.flatMap_cons,
        List.append_assoc]

end Fold

/-! ## The buffer of a tool call -/

theorem nonEmpty_getD {α : Type} (items : Option (List α)) :
    (nonEmpty items).getD [] = items.getD [] := by
  match items with
  | none | some [] | some (_ :: _) => rfl

theorem or_eq_getD {α : Type} (first second : Option α) :
    first.or second = (first.map some).getD second := by
  cases first <;> rfl

theorem getD_map_id {α : Type} (value : Option α) (start : α) :
    (value.map id).getD start = value.getD start := by
  rw [Option.map_id, id]

/-- The buffer holds what the tool call has. -/
theorem foldl_accum {fragments : List RawToolCall} {call : RawToolCall}
    (isCut : IsCutOfCall fragments call) :
    ∃ id, fragments.foldl ToolCallBuffer.accum .start =
      ⟨id, call.name.getD [], call.arguments.getD [], extractTcExtras call⟩ := by
  have name := isCut.name.foldl ToolCallBuffer.accum
    ToolCallBuffer.name id (fun _ _ => (getD_map_id _ _).symm) .start
  have arguments := foldl_adds fragments ToolCallBuffer.accum
    ToolCallBuffer.arguments
    (fun fragment => fragment.arguments.getD []) (fun _ _ => rfl) .start
  have extraContent := isCut.extraContent.foldl ToolCallBuffer.accum
    (fun buffer => buffer.extras.extraContent) some
    (fun _ _ => or_eq_getD _ _) .start
  have prov := isCut.prov.foldl ToolCallBuffer.accum
    (fun buffer => buffer.extras.prov) some (fun _ _ => or_eq_getD _ _) .start
  have fnProv := isCut.fnProv.foldl ToolCallBuffer.accum
    (fun buffer => buffer.extras.fnProv) some (fun _ _ => or_eq_getD _ _) .start
  rw [← or_eq_getD] at extraContent prov fnProv
  rw [getD_map_id] at name
  rw [isCut.arguments] at arguments
  refine ⟨(fragments.foldl ToolCallBuffer.accum .start).id, ?_⟩
  generalize fragments.foldl ToolCallBuffer.accum .start = buffer at *
  obtain ⟨_, _, _, ⟨_, _, _⟩⟩ := buffer
  cases name.trans (nonEmpty_getD call.name)
  cases arguments
  cases extraContent.trans Option.or_none
  cases prov.trans Option.or_none
  cases fnProv.trans Option.or_none
  rfl

/-! ## All chunks -/

section Chunks

variable (repair : Text → Json) (shortToolId : Nat → Text)

/-- The request for a tool call, given what its arguments are read as. -/
def requestOf (arguments : Option Text → Json) (call : RawToolCall) :
    ToolCallRequest where
  id := []
  name := call.name.getD []
  arguments := arguments call.arguments
  extraContent := (extractTcExtras call).extraContent
  providerSpecificFields := (extractTcExtras call).prov
  functionProviderSpecificFields := (extractTcExtras call).fnProv

/-- What arguments of a message are read as. -/
def plainArguments : Option Text → Json
  | none => .obj []
  | some text => dictOrEmpty (repair text)

/-- What arguments of a stream are read as. -/
def streamedArguments (arguments : Option Text) : Json :=
  if arguments.getD [] = [] then .obj [] else repair (arguments.getD [])

theorem mapIdx_withoutId {α : Type} (request : Nat → α → ToolCallRequest)
    (same : α → ToolCallRequest)
    (isSame : ∀ position item, (request position item).withoutId = same item)
    (items : List α) :
    (items.mapIdx request).map ToolCallRequest.withoutId = items.map same := by
  apply List.ext_getElem?
  intro position
  rw [List.getElem?_map, List.getElem?_map, List.getElem?_mapIdx]
  cases items[position]? with
  | none => rfl
  | some item => exact congrArg some (isSame position item)

/-- Calls or not, the reason to finish is the one that is given. -/
theorem finishReason_parse (completion : ChatCompletion) :
    (parse repair shortToolId completion).finishReason =
      (nonEmpty completion.finishReason).getD "stop".toList := by
  rw [parse]
  dsimp only
  split
  · split
    · next reason isReason =>
        rw [isReason]
        split
        · next known => rcases known with rfl | rfl <;> rfl
        · rfl
    · rfl
  · rfl

theorem parse_withoutIds (completion : ChatCompletion) :
    (parse repair shortToolId completion).withoutIds =
      { content := extractTextContent completion.message.content
        toolCalls :=
          completion.message.toolCalls.map (requestOf (plainArguments repair))
        finishReason := (nonEmpty completion.finishReason).getD "stop".toList
        usage := extractUsage completion.usage
        reasoningContent := completion.message.reasoningContent } := by
  have calls :=
    mapIdx_withoutId (parseToolCall repair shortToolId)
      (requestOf (plainArguments repair)) (fun _ _ => rfl)
      completion.message.toolCalls
  exact LlmResponse.ext rfl calls
    (finishReason_parse repair shortToolId completion) rfl rfl

theorem tcBufs_foldl (chunks : List StreamChunk) (state : ChunkState) :
    (chunks.foldl ChunkState.step state).tcBufs =
      (chunks.flatMap StreamChunk.fragments).foldl accumTc state.tcBufs := by
  induction chunks generalizing state with
  | nil => rfl
  | cons chunk rest induction =>
      rw [List.foldl_cons, induction, List.flatMap_cons, List.foldl_append]
      match chunk with
      | .text _ | .mapping none _ | .mapping (some _) _ => rfl

theorem contentParts_step (state : ChunkState) (chunk : StreamChunk) :
    (state.step chunk).contentParts.flatten =
      state.contentParts.flatten ++ chunk.content := by
  match chunk with
  | .text text => exact List.flatten_concat
  | .mapping none _ => exact (List.append_nil _).symm
  | .mapping (some choice) _ =>
      rw [ChunkState.step, StreamChunk.content, ← nonEmpty_getD]
      dsimp only
      cases nonEmpty (extractTextContent choice.delta.content) with
      | none => exact (List.append_nil _).symm
      | some text => exact List.flatten_concat

theorem finishReason_step (state : ChunkState) (chunk : StreamChunk) :
    (state.step chunk).finishReason =
      (chunk.finishReason.map id).getD state.finishReason := by
  rw [getD_map_id]
  match chunk with
  | .text _ | .mapping none _ | .mapping (some _) _ => rfl

theorem usage_step (state : ChunkState) (chunk : StreamChunk) :
    (state.step chunk).usage = (chunk.usage?.map some).getD state.usage := by
  rw [← or_eq_getD]
  match chunk with
  | .text _ | .mapping none _ | .mapping (some _) _ => rfl

variable {chunks : List StreamChunk} {completion : ChatCompletion}

/-- The requests for the tool calls of a stream. -/
theorem streamedCalls (isCut : IsCutOf chunks completion) :
    (parseChunks repair shortToolId chunks).withoutIds.toolCalls =
      completion.message.toolCalls.map
        (requestOf (streamedArguments repair)) := by
  have isBuffers :
      (chunks.foldl ChunkState.step .start).tcBufs =
        buffers .start ToolCallBuffer.accum
          (chunks.flatMap StreamChunk.fragments) :=
    tcBufs_foldl chunks .start
  rw [LlmResponse.withoutIds, parseChunks]
  dsimp only
  rw [isBuffers, values_buffers isCut.order,
    mapIdx_withoutId (ToolCallBuffer.request repair shortToolId)
      (fun buffer => (buffer.request repair shortToolId 0).withoutId)
      fun _ _ => rfl]
  apply List.ext_getElem?
  intro position
  rw [List.getElem?_map, List.getElem?_map, List.getElem?_map]
  cases isCall : completion.message.toolCalls[position]? with
  | none =>
      rw [List.getElem?_eq_none_iff] at isCall
      rw [List.getElem?_eq_none (by rw [List.length_range]; exact isCall)]
      rfl
  | some call =>
      obtain ⟨inside, -⟩ := List.getElem?_eq_some_iff.mp isCall
      obtain ⟨id, isBuffer⟩ := foldl_accum (isCut.calls position call isCall)
      rw [List.getElem?_range inside, Option.map_some, Option.map_some,
        isBuffer]
      rfl

theorem parseChunks_withoutIds (isCut : IsCutOf chunks completion) :
    (parseChunks repair shortToolId chunks).withoutIds =
      { content :=
          nonEmpty (some
            ((extractTextContent completion.message.content).getD []))
        toolCalls :=
          completion.message.toolCalls.map
            (requestOf (streamedArguments repair))
        finishReason := (nonEmpty completion.finishReason).getD "stop".toList
        usage := extractUsage completion.usage
        reasoningContent := none } := by
  have content := foldl_adds chunks ChunkState.step
    (fun state => state.contentParts.flatten) StreamChunk.content
    contentParts_step .start
  have finishReason := isCut.finishReason.foldl ChunkState.step
    ChunkState.finishReason id finishReason_step .start
  have usage := isCut.usage.foldl ChunkState.step
    ChunkState.usage some usage_step .start
  rw [isCut.content] at content
  rw [getD_map_id] at finishReason
  rw [← or_eq_getD] at usage
  exact LlmResponse.ext (congrArg (fun text => nonEmpty (some text)) content)
    (streamedCalls repair shortToolId isCut) finishReason
    (usage.trans Option.or_none) rfl

/-- Arguments that are absent, or are read as an object; empty ones may be
read as anything that is no object with fields. -/
def ArgumentsFit : Option Text → Prop
  | none => True
  | some [] => ∀ fields, repair [] = .obj fields → fields = []
  | some text => (repair text).isObj = true

theorem dictOrEmpty_eq_self {value : Json} :
    value = dictOrEmpty value ↔ value.isObj = true := by
  cases value <;> simp [dictOrEmpty, Json.isObj]

theorem dictOrEmpty_eq_empty {value : Json} :
    .obj [] = dictOrEmpty value ↔
      ∀ fields, value = .obj fields → fields = [] := by
  cases value <;> simp [dictOrEmpty]

theorem streamedArguments_eq_plain {arguments : Option Text} :
    streamedArguments repair arguments = plainArguments repair arguments ↔
      ArgumentsFit repair arguments := by
  match arguments with
  | none => exact iff_of_true rfl trivial
  | some [] => exact dictOrEmpty_eq_empty
  | some (first :: rest) => exact dictOrEmpty_eq_self

theorem requestOf_eq {first second : Option Text → Json} {call : RawToolCall} :
    requestOf first call = requestOf second call ↔
      first call.arguments = second call.arguments := by
  simp [requestOf]

theorem nonEmpty_eq_self {α : Type} {items : Option (List α)} :
    nonEmpty (some (items.getD [])) = items ↔ items ≠ some [] := by
  match items with
  | none | some [] | some (_ :: _) => simp [nonEmpty]

theorem extractTextContent_eq_empty {content : Option Content} :
    extractTextContent content = some [] ↔ content = some (.text []) := by
  match content with
  | none => simp [extractTextContent]
  | some (.text text) => simp [extractTextContent]
  | some (.parts parts) =>
      rw [extractTextContent]
      cases parts.flatMap (·.getD []) <;> simp [nonEmpty]

end Chunks

/-- A message and its chunks are parsed alike if and only if the content is
not empty, there is no reasoning, and all arguments are read as objects. -/
theorem parseChunks_eq_parse_iff (repair : Text → Json)
    (plainId streamedId : Nat → Text) {chunks : List StreamChunk}
    {completion : ChatCompletion} (isCut : IsCutOf chunks completion) :
    (parseChunks repair streamedId chunks).withoutIds =
        (parse repair plainId completion).withoutIds ↔
      completion.message.content ≠ some (.text []) ∧
        completion.message.reasoningContent = none ∧
        ∀ call ∈ completion.message.toolCalls,
          ArgumentsFit repair call.arguments := by
  rw [parseChunks_withoutIds repair streamedId isCut,
    parse_withoutIds, LlmResponse.ext_iff]
  dsimp only
  rw [nonEmpty_eq_self, Ne, extractTextContent_eq_empty, List.map_inj_left]
  simp only [requestOf_eq, streamedArguments_eq_plain, true_and]
  constructor
  · rintro ⟨notEmpty, fit, noReasoning⟩
    exact ⟨notEmpty, noReasoning.symm, fit⟩
  · rintro ⟨notEmpty, noReasoning, fit⟩
    exact ⟨notEmpty, fit, noReasoning.symm⟩

/-! ## A call in two fragments, and a message with reasoning -/

def sampleCall (arguments : String) : RawToolCall :=
  ⟨some 0, some "call_1".toList,
    some ⟨some "exec".toList, some arguments.toList, []⟩, none, []⟩

def sampleCompletion : ChatCompletion :=
  ⟨⟨some (.text "Hi".toList), none, [sampleCall "\x7b\x7d"]⟩,
    some "tool_calls".toList, some ⟨some 3, some 4, some 7, none, none, none⟩⟩

def sampleChunks : List StreamChunk :=
  [.mapping (some ⟨none, some (.text "H".toList), none,
      [sampleCall "\x7b"]⟩) none,
    .mapping (some ⟨some "tool_calls".toList, some (.text "i".toList), none,
      [⟨some 0, none, some ⟨none, some "\x7d".toList, []⟩, none, []⟩]⟩) none,
    .mapping none (some ⟨some 3, some 4, some 7, none, none, none⟩)]

theorem Says.silent {α : Type} {parts : List (Option α)}
    (allNone : ∀ part ∈ parts, part = none) : Says parts none :=
  ⟨fun part member => Or.inl (allNone part member), fun told => (told rfl).elim⟩

theorem sampleChunks_cut : IsCutOf sampleChunks sampleCompletion where
  content := rfl
  reasoning := rfl
  finishReason := ⟨by decide, by decide⟩
  usage :=
    ⟨by simp [sampleChunks, sampleCompletion, StreamChunk.usage?, extractUsage],
      by simp [sampleChunks, sampleCompletion, StreamChunk.usage?,
        extractUsage]⟩
  order := rfl
  calls := by
    intro position call isCall
    cases position with
    | succ position => cases isCall
    | zero =>
        cases isCall
        exact ⟨⟨by decide, by decide⟩, rfl,
          Says.silent (by rintro part (_ | ⟨_, _ | ⟨_, ⟨⟩⟩⟩) <;> rfl),
          Says.silent (by rintro part (_ | ⟨_, _ | ⟨_, ⟨⟩⟩⟩) <;> rfl),
          Says.silent (by rintro part (_ | ⟨_, _ | ⟨_, ⟨⟩⟩⟩) <;> rfl)⟩

/-- `json_repair` of the arguments of the sample. -/
def sampleRepair (text : Text) : Json :=
  if text = "\x7b\x7d".toList then .obj [] else .str ""

theorem sampleChunks_eq_parse :
    (parseChunks sampleRepair (fun _ => "a".toList) sampleChunks).withoutIds =
      (parse sampleRepair (fun _ => "b".toList) sampleCompletion).withoutIds :=
  (parseChunks_eq_parse_iff sampleRepair _ _ sampleChunks_cut).mpr
    ⟨by simp [sampleCompletion], rfl,
      by
        intro call member
        cases List.mem_singleton.mp member
        rfl⟩

def reasoningCompletion : ChatCompletion :=
  ⟨⟨some (.text "Hi".toList), some "greet".toList, []⟩, some "stop".toList,
    none⟩

def reasoningChunks : List StreamChunk :=
  [.mapping (some ⟨none, none, some "greet".toList, []⟩) none,
    .mapping (some ⟨some "stop".toList, some (.text "Hi".toList), none, []⟩)
      none]

/-- The reasoning of a streamed message is lost. -/
theorem reasoningChunks_ne_parse :
    IsCutOf reasoningChunks reasoningCompletion ∧
      (parseChunks sampleRepair (fun _ => []) reasoningChunks).withoutIds ≠
        (parse sampleRepair (fun _ => []) reasoningCompletion).withoutIds := by
  constructor
  · exact
      { content := rfl
        reasoning := rfl
        finishReason := ⟨by decide, by decide⟩
        usage := Says.silent
          (by rintro part (_ | ⟨_, _ | ⟨_, ⟨⟩⟩⟩) <;> rfl)
        order := rfl
        calls := nofun }
  · intro same
    cases congrArg LlmResponse.reasoningContent same

end AgentSchedBench.LlmCall
