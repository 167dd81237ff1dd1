import Mathlib
import Conduit.Base.Keyed
import Conduit.Transformers.Wire

/-!
# The Responses provider's stream

`ResponsesStreamIter` turns the lifecycle events of the Responses API into
unified chunks. An event that cannot be read is skipped. The parser of event
data that is JSON only after a `data:` is a parameter.
-/

namespace Conduit.Transformers.Responses

open Base Base.Json

/-! ## Usage -/

/-- The first of two fields that is there, as a count. -/
def countField (value : Json) (name other : String) : UInt64 :=
  (((value.get name).or (value.get other)).bind asU64).getD 0

/-- A count of the details below the first of two fields. -/
def detailField (value : Json) (name other detail : String) : UInt64 :=
  (((value.get name).or (value.get other)).bind fun details =>
    (details.get detail).bind asU64).getD 0

/-- `extract_usage_from_responses`. -/
def extractUsageFromResponses (usage : Json) : Usage :=
  let prompt := detailField usage "input_tokens_details" "prompt_tokens_details"
  let completion := detailField usage "output_tokens_details" "completion_tokens_details"
  { promptTokens := countField usage "input_tokens" "prompt_tokens"
    completionTokens := countField usage "output_tokens" "completion_tokens"
    totalTokens := ((usage.get "total_tokens").bind asU64).getD 0
    promptDetails := { audioTokens := prompt "audio_tokens", cachedTokens := prompt "cached_tokens" }
    completionDetails :=
      { audioTokens := completion "audio_tokens", reasoningTokens := completion "reasoning_tokens" } }

/-! ## State -/

structure ResponsesStreamToolCall where
  index : Int
  name : String
  namespaceName : Option String := none
  arguments : String := ""
  custom : Bool

structure ResponsesStreamState where
  responseId : String := ""
  responseModel : String := ""
  previousResponseId : Option String := none
  created : Int := 0
  nextToolIndex : Int := 0
  toolCalls : List (String × ResponsesStreamToolCall) := []
  itemToCallId : List (String × String) := []

namespace ResponsesStreamState

def baseChunk (s : ResponsesStreamState) : LlmResponse :=
  { id := s.responseId, object := "chat.completion.chunk", created := s.created
    model := s.responseModel, previousResponseId := s.previousResponseId }

/-- A chunk with one choice. -/
def chunk (s : ResponsesStreamState) (delta : LlmMessage) : LlmResponse :=
  { s.baseChunk with choices := [{ delta := some delta }] }

/-- `update_identity`, from the response an event carries. -/
def updateIdentity (response : Option Json) (s : ResponsesStreamState) : ResponsesStreamState :=
  { s with
    responseId := (response.bind fun response => strField response "id").getD s.responseId
    responseModel := (response.bind fun response => strField response "model").getD s.responseModel
    created := (response.bind fun response => (response.get "created_at").bind asI64).getD s.created
    previousResponseId :=
      (response.bind fun response => strField response "previous_response_id").or
        s.previousResponseId }

def callIdForItem (itemId : String) (s : ResponsesStreamState) : String :=
  (Keyed.get s.itemToCallId itemId).getD itemId

/-! ## Tool calls -/

def customToolCall (callId name input : String) : Json :=
  .object [("call_id", .string callId), ("name", .string name), ("input", .string input)]

/-- `stream_tool_call_start`. -/
def streamToolCallStart (callId : String) (call : ResponsesStreamToolCall) : ToolCall :=
  if call.custom then
    { id := some callId, callType := "responses_custom_tool", function := .object []
      extra := [("index", .int call.index),
        ("response_custom_tool", customToolCall callId call.name "")] }
  else
    { id := some callId, callType := "function"
      function := .object
        ([("name", .string call.name), ("arguments", .string "")] ++
          optionalField "namespace" (call.namespaceName.map .string))
      extra := [("index", .int call.index)] }

/-- `response.output_item.added` with a tool call. -/
def addTool (item : Json) (s : ResponsesStreamState) : List LlmResponse × ResponsesStreamState :=
  let callId := ((strField item "call_id").or (strField item "id")).getD ""
  let itemId := (strField item "id").getD callId
  let call : ResponsesStreamToolCall :=
    { index := s.nextToolIndex, name := (strField item "name").getD ""
      namespaceName := strField item "namespace"
      custom := strField item "type" = some "custom_tool_call" }
  let s :=
    { s with
      nextToolIndex := s.nextToolIndex + 1
      itemToCallId := Keyed.upsert itemId callId (fun _ => callId) s.itemToCallId
      toolCalls := Keyed.upsert callId call (fun _ => call) s.toolCalls }
  ([s.chunk { toolCalls := [streamToolCallStart callId call] }], s)

/-- A fragment of the arguments of a tool call. -/
def toolFragment (callId delta : String) (call : ResponsesStreamToolCall) (custom : Bool) : ToolCall :=
  if custom then
    { callType := "responses_custom_tool", function := .object []
      extra := [("index", .int call.index),
        ("response_custom_tool", customToolCall callId call.name delta)] }
  else
    { callType := "", function := .object [("arguments", .string delta)]
      extra := [("index", .int call.index)] }

def extendArguments (delta : String) (call : ResponsesStreamToolCall) : ResponsesStreamToolCall :=
  { call with arguments := call.arguments ++ delta }

/-- The two delta events of tool calls; a call that is not known is dropped. -/
def extendTool (value : Json) (custom : Bool) (s : ResponsesStreamState) :
    List LlmResponse × ResponsesStreamState :=
  let callId := s.callIdForItem ((strField value "item_id").getD "")
  let delta := (strField value "delta").getD ""
  match Keyed.get s.toolCalls callId with
  | none => ([], s)
  | some call =>
      ([s.chunk { toolCalls := [toolFragment callId delta call custom] }],
        { s with
          toolCalls := Keyed.upsert callId call (extendArguments delta) s.toolCalls })

/-- Change a known tool call. -/
def setTool (callId : String) (f : ResponsesStreamToolCall → ResponsesStreamToolCall)
    (s : ResponsesStreamState) : ResponsesStreamState :=
  match Keyed.get s.toolCalls callId with
  | none => s
  | some call => { s with toolCalls := Keyed.upsert callId call f s.toolCalls }

def closeFunction (value : Json) (call : ResponsesStreamToolCall) : ResponsesStreamToolCall :=
  { call with
    name := (strField value "name").getD call.name
    namespaceName := (strField value "namespace").or call.namespaceName
    arguments := (strField value "arguments").getD call.arguments }

/-! ## The end of the response -/

def terminalEvents : List String :=
  ["response.completed", "response.failed", "response.incomplete", "response.cancelled",
    "response.canceled"]

def finishReason (eventType : String) (s : ResponsesStreamState) : String :=
  if eventType = "response.completed" then if s.toolCalls.isEmpty then "stop" else "tool_calls"
  else if eventType = "response.failed" then "error"
  else if eventType = "response.incomplete" then "length"
  else "cancelled"

/-- The usage of an event: the response's, else its own. -/
def eventUsage (value : Json) : Option Json :=
  ((value.get "response").bind fun response => response.get "usage").or (value.get "usage")

def finishResponse (eventType : String) (value : Json) (s : ResponsesStreamState) :
    List LlmResponse × ResponsesStreamState :=
  let s := s.updateIdentity (value.get "response")
  ([{ s.baseChunk with
      choices := [{ delta := some {}, finishReason := some (s.finishReason eventType) }] }] ++
    ((eventUsage value).toList.map fun usage =>
      { s.baseChunk with usage := some (extractUsageFromResponses usage) }), s)

def streamError (value : Json) : ResponseError :=
  { detail :=
      { code := (strField value "code").getD "stream_error"
        message := (strField value "message").getD "Responses API stream error"
        detailType := "api_error"
        param := (strField value "param").getD "" } }

/-! ## Events -/

/-- The signature of a finished reasoning item. -/
def itemSignature (value : Json) : Option String :=
  (value.get "item").bind fun item =>
    if strField item "type" = some "reasoning" then
      (strField item "encrypted_content").filter fun signature => signature ≠ ""
    else none

def createdChunk (value : Json) (s : ResponsesStreamState) : LlmResponse :=
  { s.chunk { role := some "assistant" } with
    usage := ((value.get "response").bind fun response => response.get "usage").map
      extractUsageFromResponses }

/-- The delta a text-like event carries. -/
def deltaText (value : Json) : String := (strField value "delta").getD ""

/-- `transform_event` after the event was parsed. -/
def transformValue (eventType : String) (value : Json) (s : ResponsesStreamState) :
    List LlmResponse × ResponsesStreamState :=
  if eventType = "response.created" then
    let s := s.updateIdentity (value.get "response")
    ([s.createdChunk value], s)
  else if eventType = "response.in_progress" then ([], s.updateIdentity (value.get "response"))
  else if eventType = "response.output_item.added" then
    match value.get "item" with
    | none => ([], s)
    | some item =>
        if strField item "type" = some "function_call" ∨ strField item "type" = some "custom_tool_call" then
          s.addTool item
        else ([], s)
  else if eventType = "response.function_call_arguments.delta" then s.extendTool value false
  else if eventType = "response.function_call_arguments.done" then
    ([], s.setTool ((strField value "call_id").getD "") (closeFunction value))
  else if eventType = "response.custom_tool_call_input.delta" then s.extendTool value true
  else if eventType = "response.custom_tool_call_input.done" then
    ([], s.setTool (s.callIdForItem ((strField value "item_id").getD "")) fun call =>
      { call with arguments := (strField value "input").getD call.arguments })
  else if eventType = "response.output_text.delta" then
    ([s.chunk { content := some (.text (deltaText value)) }], s)
  else if eventType = "response.refusal.delta" then
    ([s.chunk { content := some (.parts [{ partType := "refusal", text := some (deltaText value) }]) }], s)
  else if eventType = "response.reasoning_summary_text.delta" then
    ([s.chunk { reasoningContent := some (deltaText value) }], s)
  else if eventType = "response.output_item.done" then
    ((itemSignature value).toList.map fun signature => s.chunk { reasoningSignature := some signature }, s)
  else if eventType ∈ terminalEvents then s.finishResponse eventType value
  else if eventType = "error" then ([{ s.baseChunk with error := some (streamError value) }], s)
  else ([], s)

/-! ## The iterator -/

section Parse

variable (parse : String → Option Json)

/-- `parse_responses_stream_event`; none also where the data is no JSON. -/
def parseResponsesStreamEvent (event : WireEvent) : Option Json :=
  if event.done then none
  else
    event.data.bind fun data =>
      match data with
      | .json value => some value
      | .text content =>
          if Text.startsWith (Text.trim content) "data:" then
            parse (Text.trim (String.ofList ((Text.trimmed content).drop 5)))
          else none

/-- What one event of the provider is read as. -/
def readProviderEvent (s : ResponsesStreamState) (event : WireEvent) :
    List LlmResponse × ResponsesStreamState :=
  match parseResponsesStreamEvent parse event with
  | none => ([], s)
  | some value => s.transformValue ((strField value "type").getD (event.eventType.getD "")) value

/-- `ResponsesStreamIter`. -/
def providerStream : Transducer ResponsesStreamState WireEvent LlmResponse where
  start := {}
  read s event := ((readProviderEvent parse s event).1, some (readProviderEvent parse s event).2)
  finish _ := []

end Parse

end ResponsesStreamState

end Conduit.Transformers.Responses
