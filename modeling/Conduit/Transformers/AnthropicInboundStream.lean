import Conduit.Base.Emitter
import Conduit.Transformers.AnthropicEvents

/-!
# The Anthropic client stream

`AnthropicInboundStreamIter` turns unified chunks into Anthropic events. The
state is that of the iterator, less the two fields it never reads; its queue
holds the events of one chunk and is drained before the next one is read, so
each chunk is answered with the events it enqueues.
-/

namespace Conduit.Transformers.Anthropic

open Base

/-! ## Usage -/

/-- `convert_llm_usage_to_anthropic`. -/
def convertLlmUsageToAnthropic (usage : Usage) : Json :=
  let cacheRead := usage.promptDetails.cachedTokens
  let cacheCreationInput := usage.promptDetails.writeCachedTokens
  .object
    [("input_tokens", .ofU64 (saturatingSub usage.promptTokens (cacheRead + cacheCreationInput))),
      ("output_tokens", .ofU64 usage.completionTokens),
      ("cache_creation_input_tokens", .ofU64 cacheCreationInput),
      ("cache_read_input_tokens", .ofU64 cacheRead),
      ("cache_creation", .object
        [("ephemeral_5m_input_tokens", .ofU64 usage.promptDetails.writeCachedTokens5m),
          ("ephemeral_1h_input_tokens", .ofU64 usage.promptDetails.writeCachedTokens1h)])]

/-- The usage of `message_start` when the first chunk has none. -/
def placeholderUsage : Json := .object [("input_tokens", .int 1), ("output_tokens", .int 1)]

/-! ## Inline tool results -/

def getAnthropicTypeMeta (metadata : ExtensionMap) : String :=
  ((Json.field metadata "anthropic_type").bind Json.asStr).getD ""

def getAnthropicCallerMeta (metadata : ExtensionMap) : Option Json :=
  (Json.field metadata "anthropic_caller").filter fun caller => !caller.isNull

def getAnthropicToolResultContent (metadata : ExtensionMap) : Option Json :=
  (Json.field metadata "anthropic_tool_result_content").filter fun content => !content.isNull

/-- `tool_result_block_from_inline`: none without an Anthropic block type. -/
def toolResultBlockFromInline (result : InlineToolResult) : Option Json :=
  let blockType := getAnthropicTypeMeta result.transformerMetadata
  if blockType = "" then none
  else
    some (.object
      ([("type", .string blockType)] ++
        ((getAnthropicCallerMeta result.transformerMetadata).toList.map fun caller =>
          ("caller", caller)) ++
        (if result.toolCallId.getD "" = "" then []
          else [("tool_use_id", .string (result.toolCallId.getD ""))]) ++
        (if result.isError then [("is_error", .bool true)] else []) ++
        match getAnthropicToolResultContent result.transformerMetadata with
        | some rawContent => [("content", rawContent)]
        | none =>
            if result.output.getD "" = "" then []
            else [("content", .string (result.output.getD ""))]))

/-! ## State -/

structure ToolCallState where
  id : Option String
  name : String
  arguments : String

structure InboundStream where
  hasStarted : Bool := false
  hasTextContentStarted : Bool := false
  hasThinkingContentStarted : Bool := false
  hasToolContentStarted : Bool := false
  hasFinished : Bool := false
  messageStopped : Bool := false
  messageId : String := ""
  model : String := ""
  contentIndex : Nat := 0
  stopReason : Option String := none
  toolCalls : List (Int × ToolCallState) := []
  lastEventType : String := ""
  pendingSignature : Option String := none

/-- A part of the work on a chunk. -/
abbrev StreamStep := Emitter InboundStream Event

namespace InboundStream

open Emitter

/-! ## Blocks -/

/-- `enqueue_event`: the second of two block stops in a row is dropped. -/
def enqueueEvent (event : InboundStream → Event) : StreamStep := fun s =>
  if s.lastEventType = "content_block_stop" ∧ (event s).eventType = "content_block_stop" then ([], s)
  else ([event s], { s with lastEventType := (event s).eventType })

def startBlock (contentBlock : Json) : StreamStep :=
  enqueueEvent fun s => .contentBlockStart s.contentIndex contentBlock

def writeDelta (delta : BlockDelta) : StreamStep :=
  enqueueEvent fun s => .contentBlockDelta s.contentIndex delta

def stopBlock : StreamStep :=
  (enqueueEvent fun s => .contentBlockStop s.contentIndex).seq
    (update fun s => { s with contentIndex := s.contentIndex + 1 })

def closeTextBlock : StreamStep :=
  whenever hasTextContentStarted
    ((update fun s => { s with hasTextContentStarted := false }).seq stopBlock)

def closeToolBlock : StreamStep :=
  whenever hasToolContentStarted
    ((update fun s => { s with hasToolContentStarted := false }).seq stopBlock)

def thinkingBlock : Json := .object [("type", .string "thinking"), ("thinking", .string "")]

def textBlock : Json := .object [("type", .string "text"), ("text", .string "")]

def redactedBlock (redacted : String) : Json :=
  .object [("type", .string "redacted_thinking"), ("data", .string redacted)]

/-- A block of its own for a signature without thinking. -/
def syntheticThinkingBlock (signature : String) : StreamStep :=
  closeTextBlock.seq <| closeToolBlock.seq <| (startBlock thinkingBlock).seq <|
    (writeDelta (.signature signature)).seq stopBlock

/-- `close_thinking_block`, with the placeholder signature of each block. -/
def closeThinkingBlock (generateSignature : Nat → String) : StreamStep := fun s =>
  match s.hasThinkingContentStarted, s.pendingSignature with
  | false, some signature => syntheticThinkingBlock signature { s with pendingSignature := none }
  | true, pending =>
      ((writeDelta (.signature (pending.getD (generateSignature s.contentIndex)))).seq stopBlock)
        { s with pendingSignature := none, hasThinkingContentStarted := false }
  | false, none => ([], s)

/-! ## Deltas -/

/-- A field that is there and not empty. -/
def nonEmpty (field : Option String) : Option String := field.filter fun value => value ≠ ""

def reasoningDelta (reasoning : String) : StreamStep :=
  closeTextBlock.seq <| closeToolBlock.seq <|
    (whenever (fun s => !s.hasThinkingContentStarted)
      ((update fun s => { s with hasThinkingContentStarted := true }).seq
        (startBlock thinkingBlock))).seq
    (writeDelta (.thinking reasoning))

/-- `buffer_signature`. -/
def bufferSignature (signature : String) : StreamStep :=
  update fun s => { s with pendingSignature := some (s.pendingSignature.getD "" ++ signature) }

section Signatures

variable (generateSignature : Nat → String)

def redactedDelta (redacted : String) : StreamStep :=
  (closeThinkingBlock generateSignature).seq <| closeToolBlock.seq <| closeTextBlock.seq <|
    (startBlock (redactedBlock redacted)).seq stopBlock

def textDelta (text : String) : StreamStep :=
  (closeThinkingBlock generateSignature).seq <| closeToolBlock.seq <|
    (whenever (fun s => !s.hasTextContentStarted)
      ((update fun s => { s with hasTextContentStarted := true }).seq (startBlock textBlock))).seq
    (writeDelta (.text text))

/-- The type of the block a streamed tool call opens. -/
def toolBlockType (toolCall : ToolCall) : String :=
  ((toolCall.metadata "anthropic_type").bind Json.asStr).getD "tool_use"

/-- `start_block`. -/
def toolBlock (toolCall : ToolCall) : Json :=
  .object
    ([("type", .string (toolBlockType toolCall)), ("id", .string (toolCall.id.getD "")),
      ("name", .string toolCall.functionName), ("input", .object [])] ++
      ((toolCall.metadata "anthropic_caller").filter fun caller => !caller.isNull).toList.map
        fun caller => ("caller", caller))

/-- `tool_calls.get_mut`: append to the arguments of a tracked call. -/
def pushArguments (index : Int) (arguments : String) (s : InboundStream) : InboundStream :=
  { s with toolCalls := s.toolCalls.map fun entry =>
      if entry.1 = index then
        (entry.1, { entry.2 with arguments := entry.2.arguments ++ arguments })
      else entry }

def argumentsDelta (toolCall : ToolCall) : StreamStep :=
  if toolCall.functionArguments = "" then skip
  else
    (update (pushArguments toolCall.index toolCall.functionArguments)).seq
      (writeDelta (.inputJson toolCall.functionArguments))

/-- `tool_calls.insert`. -/
def trackToolCall (toolCall : ToolCall) (s : InboundStream) : InboundStream :=
  { s with
    hasToolContentStarted := true
    toolCalls := s.toolCalls ++ [(toolCall.index, ⟨toolCall.id, toolCall.functionName, ""⟩)] }

/-- The first fragment of a tool index: the open tool block is closed only for
an index above zero. -/
def startToolCall (toolCall : ToolCall) : StreamStep :=
  (if 0 < toolCall.index then closeToolBlock else skip).seq <|
    (update (trackToolCall toolCall)).seq <|
    (startBlock (toolBlock toolCall)).seq (argumentsDelta toolCall)

def toolCallDelta (toolCall : ToolCall) : StreamStep := fun s =>
  if toolCall.index ∈ s.toolCalls.map (·.1) then argumentsDelta toolCall s
  else startToolCall toolCall s

def toolCallDeltas (toolCalls : List ToolCall) : StreamStep :=
  if toolCalls.isEmpty then skip
  else
    (closeThinkingBlock generateSignature).seq <| closeTextBlock.seq <|
      forEach toolCallDelta toolCalls

def toolResultBlock (contentBlock : Json) : StreamStep := (startBlock contentBlock).seq stopBlock

def inlineToolResults (results : List InlineToolResult) : StreamStep :=
  if results.isEmpty then skip
  else
    (closeThinkingBlock generateSignature).seq <| closeToolBlock.seq <| closeTextBlock.seq <|
      forEach toolResultBlock (results.filterMap toolResultBlockFromInline)

/-- The text of a content in string form. -/
def contentText : Option MessageContent → Option String
  | some (.text value) => some value
  | _ => none

def messageDelta (delta : LlmMessage) : StreamStep :=
  (forEach reasoningDelta (nonEmpty delta.reasoningContent).toList).seq <|
    (forEach bufferSignature (nonEmpty delta.reasoningSignature).toList).seq <|
    (forEach (redactedDelta generateSignature) (nonEmpty delta.redactedReasoningContent).toList).seq <|
    (forEach (textDelta generateSignature) (nonEmpty (contentText delta.content)).toList).seq <|
    (toolCallDeltas generateSignature delta.toolCalls).seq
    (inlineToolResults generateSignature delta.inlineToolResults)

/-! ## The end of the message -/

def convertFinishReason (finishReason : String) : String :=
  if finishReason = "stop" then "end_turn"
  else if finishReason = "length" then "max_tokens"
  else if finishReason = "tool_calls" then "tool_use"
  else "end_turn"

def finish (finishReason : String) : StreamStep :=
  whenever (fun s => !s.hasFinished)
    ((update fun s => { s with hasFinished := true }).seq <|
      (closeThinkingBlock generateSignature).seq <| closeTextBlock.seq <| closeToolBlock.seq
      (update fun s => { s with stopReason := some (convertFinishReason finishReason) }))

/-- The last two events, once the message has finished and the usage is known. -/
def stopMessage (usage : Usage) : StreamStep :=
  whenever (fun s => s.hasFinished && !s.messageStopped)
    ((enqueueEvent fun s => .messageDelta s.stopReason (convertLlmUsageToAnthropic usage)).seq <|
      (enqueueEvent fun _ => .messageStop).seq
      (update fun s => { s with messageStopped := true }))

/-! ## Chunks -/

/-- The id and the model of the first chunk that has them. -/
def initMessage (chunk : LlmResponse) (s : InboundStream) : InboundStream :=
  { s with
    messageId := if s.messageId = "" then chunk.id else s.messageId
    model := if s.model = "" then chunk.model else s.model }

def startMessage (usage : Option Usage) : StreamStep :=
  whenever (fun s => !s.hasStarted)
    ((update fun s => { s with hasStarted := true }).seq
      (enqueueEvent fun s =>
        .messageStart s.messageId s.model
          ((usage.map convertLlmUsageToAnthropic).getD placeholderUsage)))

def choiceDelta (choice : Choice) : StreamStep :=
  (forEach (messageDelta generateSignature) choice.delta.toList).seq
    (forEach (finish generateSignature) choice.finishReason.toList)

/-- `process_chunk`: of the choices only the first is read. -/
def processChunk (chunk : LlmResponse) : StreamStep :=
  if chunk.object = "[DONE]" then skip
  else
    (update (initMessage chunk)).seq <| (startMessage chunk.usage).seq <|
      (forEach (choiceDelta generateSignature) chunk.choices.head?.toList).seq
      (forEach stopMessage chunk.usage.toList)

/-- The iterator over a whole stream. -/
def iterator : Transducer InboundStream LlmResponse Event :=
  transducer {} (processChunk generateSignature)

end Signatures

end InboundStream

/-- The events a client receives for a list of chunks. -/
def clientEvents (generateSignature : Nat → String) (chunks : List LlmResponse) : List Event :=
  (InboundStream.iterator generateSignature).run chunks

end Conduit.Transformers.Anthropic
