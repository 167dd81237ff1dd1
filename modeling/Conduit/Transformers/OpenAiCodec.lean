import Conduit.Transformers.Wire

/-!
# The wire format of chat completions

The unified response is OpenAI-shaped: a chunk of an OpenAI stream is decoded
as it is, and a unified chunk is encoded as it is.
-/

namespace Conduit.Transformers

open Base Base.Json

/-! ## Messages -/

namespace ContentPart

def encode (part : ContentPart) : Json :=
  .object
    ([("type", .string part.partType)] ++ optionalField "text" (part.text.map .string) ++
      optionalField "image_url" part.imageUrl ++ part.extra)

def names : List String := ["type", "text", "image_url", "input_audio"]

def decode (value : Json) : Option ContentPart := do
  let fields ← value.asObject
  guard (namesOnce names fields)
  return {
    partType := ← fieldRequired asStr fields "type"
    text := ← fieldOption asStr fields "text"
    imageUrl := ← fieldOption some fields "image_url"
    extra := otherFields names fields }

end ContentPart

namespace MessageContent

def encode : MessageContent → Json
  | text value => .string value
  | parts values => .array (values.map ContentPart.encode)
  | json value => value

/-- Untagged: a string, else a list of parts, else any value. -/
def decode (value : Json) : MessageContent :=
  match value.asStr with
  | some content => .text content
  | none =>
      match decodeList ContentPart.decode value with
      | some content => .parts content
      | none => .json value

end MessageContent

namespace ToolCall

def encode (toolCall : ToolCall) : Json :=
  .object
    (optionalField "id" (toolCall.id.map .string) ++
      [("type", .string toolCall.callType), ("function", toolCall.function)] ++ toolCall.extra)

def names : List String := ["id", "type", "function"]

/-- The type and the function are required. -/
def decode (value : Json) : Option ToolCall := do
  let fields ← value.asObject
  guard (namesOnce names fields)
  return {
    id := ← fieldOption asStr fields "id"
    callType := ← fieldRequired asStr fields "type"
    function := ← fieldRequired some fields "function"
    extra := otherFields names fields }

end ToolCall

namespace InlineToolResult

def encode (result : InlineToolResult) : Json :=
  .object
    (optionalField "tool_call_id" (result.toolCallId.map .string) ++
      optionalField "output" (result.output.map .string) ++
      [("is_error", .bool result.isError)] ++
      if result.transformerMetadata.isEmpty then []
      else [("transformer_metadata", .object result.transformerMetadata)])

def decode (value : Json) : Option InlineToolResult := do
  let fields ← value.asObject
  return {
    toolCallId := ← fieldOption asStr fields "tool_call_id"
    output := ← fieldOption asStr fields "output"
    isError := ← fieldOr false asBool fields "is_error"
    transformerMetadata := ← fieldOr [] asObject fields "transformer_metadata" }

end InlineToolResult

namespace LlmMessage

def encode (message : LlmMessage) : Json :=
  .object
    (optionalField "id" (message.id.map .string) ++
      optionalField "role" (message.role.map .string) ++
      optionalField "content" (message.content.map MessageContent.encode) ++
      optionalField "refusal" (message.refusal.map .string) ++
      nonEmptyList "tool_calls" (message.toolCalls.map ToolCall.encode) ++
      optionalField "reasoning_content" (message.reasoningContent.map .string) ++
      optionalField "reasoning_signature" (message.reasoningSignature.map .string) ++
      optionalField "redacted_reasoning_content" (message.redactedReasoningContent.map .string) ++
      nonEmptyList "inline_tool_results" (message.inlineToolResults.map InlineToolResult.encode))

def decode (value : Json) : Option LlmMessage := do
  let fields ← value.asObject
  return {
    id := ← fieldOption asStr fields "id"
    role := ← fieldOption asStr fields "role"
    content := ← fieldOption (fun content => some (MessageContent.decode content)) fields "content"
    refusal := ← fieldOption asStr fields "refusal"
    toolCalls := ← fieldOr [] (decodeList ToolCall.decode) fields "tool_calls"
    reasoningContent := ← fieldOption asStr fields "reasoning_content"
    reasoningSignature := ← fieldOption asStr fields "reasoning_signature"
    redactedReasoningContent := ← fieldOption asStr fields "redacted_reasoning_content"
    inlineToolResults :=
      ← fieldOr [] (decodeList InlineToolResult.decode) fields "inline_tool_results" }

end LlmMessage

/-! ## Errors -/

/-- The fields of a struct without a flattened map, which serde also reads from
an array, by position. -/
def structFields (arity : Nat) : Json → Option (Nat → String → Option Json)
  | .object fields => some fun _ name => field fields name
  | .array values => if values.length ≤ arity then some fun index _ => values[index]? else none
  | _ => none

namespace ErrorDetail

def encode (detail : ErrorDetail) : Json :=
  .object
    (nonEmptyField "code" detail.code ++
      [("message", .string detail.message), ("type", .string detail.detailType)] ++
      nonEmptyField "param" detail.param ++ nonEmptyField "request_id" detail.requestId)

def decode (value : Json) : Option ErrorDetail := do
  let get ← structFields 5 value
  return {
    code := ← (get 0 "code").elim (some "") asStr
    message := ← (get 1 "message").elim (some "") asStr
    detailType := ← (get 2 "type").elim (some "") asStr
    param := ← (get 3 "param").elim (some "") asStr
    requestId := ← (get 4 "request_id").elim (some "") asStr }

end ErrorDetail

namespace ResponseError

/-- The status code is not serialized. -/
def encode (error : ResponseError) : Json := .object [("error", error.detail.encode)]

/-- The detail is a field named `error` of its own. -/
def decode (value : Json) : Option ResponseError := do
  let get ← structFields 1 value
  return { detail := ← (get 0 "error").elim (some {}) ErrorDetail.decode }

end ResponseError

/-! ## Responses -/

namespace Choice

def encode (choice : Choice) : Json :=
  .object
    ([("index", .int choice.index)] ++ optionalField "message" (choice.message.map LlmMessage.encode) ++
      optionalField "delta" (choice.delta.map LlmMessage.encode) ++
      optionalField "finish_reason" (choice.finishReason.map .string))

def decode (value : Json) : Option Choice := do
  let fields ← value.asObject
  return {
    index := ← fieldOr 0 asI64 fields "index"
    message := ← fieldOption LlmMessage.decode fields "message"
    delta := ← fieldOption LlmMessage.decode fields "delta"
    finishReason := ← fieldOption asStr fields "finish_reason" }

end Choice

namespace LlmResponse

def encode (response : LlmResponse) : Json :=
  .object
    ([("id", .string response.id), ("choices", .array (response.choices.map Choice.encode)),
      ("object", .string response.object), ("created", .int response.created),
      ("model", .string response.model)] ++
      optionalField "previous_response_id" (response.previousResponseId.map .string) ++
      optionalField "usage" (response.usage.map Usage.encode) ++
      optionalField "error" (response.error.map ResponseError.encode) ++
      if response.transformerMetadata.isEmpty then []
      else [("transformer_metadata", .object response.transformerMetadata)])

def decode (value : Json) : Option LlmResponse := do
  let fields ← value.asObject
  return {
    id := ← fieldOr "" asStr fields "id"
    choices := ← fieldOr [] (decodeList Choice.decode) fields "choices"
    object := ← fieldOr "" asStr fields "object"
    created := ← fieldOr 0 asI64 fields "created"
    model := ← fieldOr "" asStr fields "model"
    previousResponseId := ← fieldOption asStr fields "previous_response_id"
    usage := ← fieldOption Usage.decode fields "usage"
    error := ← fieldOption ResponseError.decode fields "error"
    transformerMetadata := ← fieldOr [] asObject fields "transformer_metadata" }

end LlmResponse

end Conduit.Transformers
