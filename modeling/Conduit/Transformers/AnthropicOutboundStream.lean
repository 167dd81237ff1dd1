import Conduit.Base.Base64
import Conduit.Transformers.AnthropicEvents
import Conduit.Transformers.Wire

/-!
# The Anthropic provider's stream

`parse_anthropic_sse_event` reads one event, `AnthropicStreamReducer` turns
the events into unified chunks, and the iterator skips what the reducer
refuses. Annotations and the service tier are left out.
-/

namespace Conduit.Transformers.Anthropic

open Base Base.Json

/-! ## Usage -/

def convertAnthropicUsage (usage : Json) : Option Usage :=
  if usage.isNull then none
  else
    let promptTokens := (u64Field usage "input_tokens").getD 0
    let completionTokens := (u64Field usage "output_tokens").getD 0
    some
      { promptTokens := promptTokens
        completionTokens := completionTokens
        totalTokens := promptTokens + completionTokens
        promptDetails := { cachedTokens := (u64Field usage "cache_read_input_tokens").getD 0 } }

/-! ## Events -/

/-- `AnthropicStreamEvent`. -/
inductive ProviderEvent
  | messageStart (id model : Option String) (usage : Option Json)
  | contentBlockStart (index : Option Int) (block : Json)
  | contentBlockDelta (delta : Json)
  | contentBlockStop
  | messageDelta (stopReason : Option String) (usage : Option Json)
  | messageStop
  | error (detail : ErrorDetail)
  | done
  | unknown

/-- The payload below `data`, for an envelope around it. -/
def errorCandidate (parsed : Json) : Json :=
  if strField parsed "event" = some "error" then (parsed.get "data").getD parsed else parsed

/-- `parse_anthropic_stream_error_event`. -/
def parseAnthropicStreamErrorEvent (data : Payload) : ErrorDetail :=
  match data with
  | .text _ => { message := "stream error", detailType := "stream_error" }
  | .json parsed =>
      let candidate := errorCandidate parsed
      let error := candidate.get "error"
      let ofError := fun name => ((error.bind fun error => strField error name).getD "")
      let message := if ofError "message" = "" then (strField candidate "message").getD ""
        else ofError "message"
      let message := if message = "" then ((error.filter fun error => !error.isNull).map Json.render).getD ""
        else message
      { code := ofError "code"
        message := if message = "" then "stream error" else message
        detailType :=
          if ofError "type" = "" ∧ strField candidate "type" = some "error" then "stream_error"
          else ofError "type"
        param := ofError "param"
        requestId := if ofError "request_id" = "" then (strField candidate "request_id").getD ""
          else ofError "request_id" }

def parseAnthropicSseEvent (eventType : Option String) (data : Payload) : ProviderEvent :=
  match data with
  | .text text =>
      if text = "" then .unknown
      else if text = "[DONE]" then .done
      else if eventType = some "error" then .error (parseAnthropicStreamErrorEvent data)
      else .unknown
  | .json parsed =>
      let kind := (strField parsed "type").getD (eventType.getD "")
      if eventType = some "error" then .error (parseAnthropicStreamErrorEvent data)
      else if kind = "message_start" then
        let message := parsed.get "message"
        .messageStart (message.bind fun message => strField message "id")
          (message.bind fun message => strField message "model")
          (message.bind fun message => message.get "usage")
      else if kind = "content_block_start" then
        .contentBlockStart ((parsed.get "index").bind asI64) ((parsed.get "content_block").getD .null)
      else if kind = "content_block_delta" then
        .contentBlockDelta ((parsed.get "delta").getD .null)
      else if kind = "content_block_stop" then .contentBlockStop
      else if kind = "message_delta" then
        .messageDelta ((parsed.get "delta").bind fun delta => strField delta "stop_reason")
          (parsed.get "usage")
      else if kind = "message_stop" then .messageStop
      else .unknown

/-! ## The reducer -/

structure AnthropicStreamReducer where
  streamId : String := ""
  streamModel : String := ""
  streamUsage : Option Json := none
  toolIndex : Int := -1
  /-- The tool call of the current index; earlier ones are not read again. -/
  currentTool : Option ToolCall := none

namespace AnthropicStreamReducer

def baseChunk (s : AnthropicStreamReducer) : LlmResponse :=
  { id := s.streamId, object := "chat.completion.chunk", model := s.streamModel }

/-- A chunk with one choice. -/
def chunk (s : AnthropicStreamReducer) (delta : LlmMessage) : LlmResponse :=
  { s.baseChunk with choices := [{ delta := some delta }] }

/-- A chunk with the usage so far. -/
def usageChunk (s : AnthropicStreamReducer) : LlmResponse :=
  { s.baseChunk with usage := s.streamUsage.bind convertAnthropicUsage }

/-- `is_anthropic_special_tool_use_block` and its result counterpart. -/
def isSpecial (blockType : String) : Bool :=
  (Text.endsWith blockType "_tool_use" && blockType ≠ "tool_use") ||
    (Text.endsWith blockType "_tool_result" && blockType ≠ "tool_result")

/-- `set_anthropic_special_meta` and `set_anthropic_block_index`. -/
def blockMeta (special : Bool) (block : Json) (blockIndex : Option Int) : ExtensionMap :=
  (if special && isSpecial (blockType block) then
      [("anthropic_type", .string (blockType block))] ++
        (((block.get "caller").filter fun caller => !caller.isNull).toList.map fun caller =>
          ("anthropic_caller", caller))
    else []) ++
    ((blockIndex.filter fun index => 0 ≤ index).toList.map fun index =>
      ("anthropic_block_index", .int index))

/-- `inline_tool_result_from_block`. -/
def inlineToolResultFromBlock (block : Json) : InlineToolResult :=
  { toolCallId := strField block "tool_use_id"
    output := (block.get "content").bind fun content =>
      match content with
      | .string text => some text
      | .null => none
      | other => some other.render
    isError := ((block.get "is_error").bind asBool).getD false }

def startTool (block : Json) (blockIndex : Option Int) (name : String) (s : AnthropicStreamReducer) :
    ToolCall :=
  { id := strField block "id"
    callType := "function"
    function := .object [("name", .string name), ("arguments", .string "")]
    extra := ("index", .int (s.toolIndex + 1)) :: blockMeta true block blockIndex }

/-- A fragment of the arguments of the current tool call. -/
def toolFragment (partialJson : String) (toolCall : ToolCall) : ToolCall :=
  { toolCall with
    callType := "function"
    function := .object
      (((strField toolCall.function "name").toList.map fun name => ("name", .string name)) ++
        [("arguments", .string partialJson)]) }

/-- The message of a block delta; none if the event is dropped. -/
def deltaMessage (delta : Json) (s : AnthropicStreamReducer) : Option LlmMessage :=
  let kind := (strField delta "type").getD ""
  if kind = "input_json_delta" then
    (strField delta "partial_json").bind fun partialJson => s.currentTool.map fun toolCall =>
      { role := some "assistant", toolCalls := [toolFragment partialJson toolCall] }
  else if kind = "text_delta" then
    some { role := some "assistant", content := some (.text ((strField delta "text").getD "")) }
  else if kind = "thinking_delta" then
    some { role := some "assistant", reasoningContent := strField delta "thinking" }
  else if kind = "signature_delta" then
    some
      { role := some "assistant"
        reasoningSignature := (strField delta "signature").map Base64.ensureEncoded }
  else if kind = "citations_delta" then
    (delta.get "citation").map fun _ => { role := some "assistant" }
  else none

/-- `message_start`'s input tokens stand in for missing ones. -/
def mergeInputTokens (usage : Json) (previous : Option Json) : Json :=
  match usage, previous.bind fun previous => u64Field previous "input_tokens" with
  | .object fields, some promptTokens =>
      if (u64Field usage "input_tokens").getD 0 = 0 then
        .object (insert "input_tokens" (.ofU64 promptTokens) fields)
      else usage
  | _, _ => usage

/-- `map_anthropic_stop_reason`. -/
def mapAnthropicStopReason (reason : String) : String :=
  if reason = "end_turn" ∨ reason = "stop_sequence" then "stop"
  else if reason = "max_tokens" then "length"
  else if reason = "tool_use" then "tool_calls"
  else reason

def finalDelta (stopReason : Option String) : List Choice :=
  stopReason.toList.map fun reason =>
    { delta := some {}, finishReason := some (mapAnthropicStopReason reason) }

/-- `next_event`: the chunk to send on, if there is one, or the error. -/
def nextEvent (event : ProviderEvent) (s : AnthropicStreamReducer) :
    Except ErrorDetail (Option LlmResponse) × AnthropicStreamReducer :=
  match event with
  | .done => (.ok (some { id := "[DONE]", object := "chat.completion.chunk" }), s)
  | .unknown => (.ok none, s)
  | .error detail => (.error detail, s)
  | .messageStart id model usage =>
      let s :=
        { s with
          streamId := id.getD s.streamId
          streamModel := model.getD s.streamModel
          streamUsage := usage.or s.streamUsage }
      (.ok (some
        { s.chunk { role := some "assistant" } with usage := usage.bind convertAnthropicUsage }), s)
  | .contentBlockStart blockIndex block =>
      if isAnthropicToolUseLike (blockType block) then
        match strField block "name" with
        | none => (.ok none, s)
        | some name =>
            let toolCall := s.startTool block blockIndex name
            let s := { s with toolIndex := s.toolIndex + 1, currentTool := some toolCall }
            (.ok (some (s.chunk { role := some "assistant", toolCalls := [toolCall] })), s)
      else if isAnthropicToolResultLike (blockType block) then
        (.ok (some (s.chunk
          { role := some "assistant"
            inlineToolResults :=
              [{ inlineToolResultFromBlock block with
                transformerMetadata := blockMeta false block blockIndex }] })), s)
      else (.ok none, s)
  | .contentBlockDelta delta => (.ok ((s.deltaMessage delta).map s.chunk), s)
  | .contentBlockStop => (.ok none, s)
  | .messageDelta stopReason usage =>
      let s := { s with streamUsage :=
        (usage.map fun usage => mergeInputTokens usage s.streamUsage).or s.streamUsage }
      (.ok (some { s.usageChunk with choices := finalDelta stopReason }), s)
  | .messageStop => (.ok (some s.usageChunk), s)

end AnthropicStreamReducer

/-! ## The iterator -/

/-- What one event of the provider is read as: an error is skipped. -/
def readProviderEvent (s : AnthropicStreamReducer) (event : WireEvent) :
    List LlmResponse × AnthropicStreamReducer :=
  let next := s.nextEvent (parseAnthropicSseEvent event.eventType (event.data.getD (.text "")))
  (next.1.toOption.join.toList, next.2)

/-- `AnthropicStreamIter`. -/
def providerStream : Transducer AnthropicStreamReducer WireEvent LlmResponse where
  start := {}
  read s event := ((readProviderEvent s event).1, some (readProviderEvent s event).2)
  finish _ := []

end Conduit.Transformers.Anthropic
