import Mathlib
import Conduit.Base.Keyed
import Conduit.Transformers.OpenAiCodec

/-!
# OpenAI chat streams

The OpenAI-compatible adapter decodes each event on its own and drops what it
cannot decode. The client stream re-encodes the chunks and ends with `[DONE]`;
the aggregator folds decoded chunks into one completion.
-/

namespace Conduit.Transformers.OpenAi

open Base Base.Json

def doneSentinel : String := "[DONE]"

/-! ## The provider's stream -/

/-- `OutboundTransformer::transform_stream`, the default: an event without data
or with data that is no `LlmResponse` is dropped. -/
def decodeEvent (event : WireEvent) : Option LlmResponse :=
  (event.data.bind Payload.value).bind LlmResponse.decode

def transformStream : Transducer Unit WireEvent LlmResponse where
  start := ()
  read _ event := ((decodeEvent event).toList, some ())
  finish _ := []

/-! ## The client's stream -/

structure ChatClientStream where
  sawTerminalChunk : Bool := false
  emittedDone : Bool := false

namespace ChatClientStream

def doneEvent : WireEvent := { data := some (.text doneSentinel), done := true }

/-- A chunk that ends the answer: an error or a finish reason. -/
def terminalChunk (response : LlmResponse) : Bool :=
  response.error.isSome || response.choices.any fun choice => choice.finishReason.isSome

def read (s : ChatClientStream) (response : LlmResponse) : List WireEvent × ChatClientStream :=
  if response.object = doneSentinel then ([doneEvent], { s with emittedDone := true })
  else
    ([{ data := some (.json response.encode) }],
      { s with sawTerminalChunk := s.sawTerminalChunk || terminalChunk response })

/-- At the end of the chunks. -/
def finish (s : ChatClientStream) : List WireEvent :=
  if s.sawTerminalChunk && !s.emittedDone then [doneEvent] else []

def transducer : Transducer ChatClientStream LlmResponse WireEvent where
  start := {}
  read s response := ((s.read response).1, some (s.read response).2)
  finish := finish

end ChatClientStream

/-! ## Decoding a frame -/

/-- What a frame of a stream is. A frame that is not JSON is `invalid`, and so
is JSON of another shape. -/
inductive ParsedFrame
  | done
  | error (detail : ErrorDetail)
  | chunk (response : LlmResponse)
  | invalid

/-- `string_field`: numbers and booleans count as strings. -/
def stringField (value : Json) (name : String) : String :=
  match value.get name with
  | some (.string text) => text
  | some (.int n) => (Json.int n).render
  | some (.decimal text) => text
  | some (.bool b) => (Json.bool b).render
  | _ => ""

/-- `extract_string`. -/
def extractString (value : Json) (name : String) : Option String :=
  ((value.get name).bind asStr).filter fun text => text ≠ ""

def buildDetailFromErrorObject : Option Json → ErrorDetail
  | none => { message := "stream error" }
  | some (.object fields) =>
      let error := Json.object fields
      let message := ((error.get "message").bind asStr).getD ""
      { code := stringField error "code"
        message := if message = "" then error.render else message
        detailType := stringField error "type"
        param := stringField error "param" }
  | some (.string text) => { message := text }
  | some other => { message := other.render }

/-- The part of `parse_stream_error_event` after the JSON is parsed. -/
def parseStreamErrorValue (root : Json) (eventType : Option String) : Option ErrorDetail :=
  if eventType = some "error" ∨ (root.get "event").bind asStr = some "error" then
    let error := (root.get "error").or ((root.get "data").bind fun data => data.get "error")
    let requestId := ((extractString root "request_id").or
      ((root.get "data").bind fun data => extractString data "request_id")).or
      (error.bind fun error => extractString error "request_id")
    some { buildDetailFromErrorObject error with requestId := requestId.getD "" }
  else
    ((root.get "error").filter fun error => !error.isNull).map fun error =>
      { buildDetailFromErrorObject (some error) with
        requestId := ((extractString root "request_id").or (extractString error "request_id")).getD "" }

/-- `openai_sse_chunk_to_llm_response`. -/
def parseFrame (data : Payload) (eventType : Option String) : ParsedFrame :=
  match data with
  | .text text =>
      if doneSentinel.toList.isPrefixOf (text.toList.dropWhile Text.isWhitespace) then .done
      else if eventType = some "error" ∧ text = "" then
        .error { message := "stream error", detailType := "stream_error" }
      else .invalid
  | .json root =>
      match parseStreamErrorValue root eventType with
      | some detail => .error detail
      | none => (LlmResponse.decode root).elim .invalid .chunk

/-- The chunks of the frames, without sentinels, errors and undecodable ones. -/
def decodeFrames (events : List WireEvent) : List LlmResponse :=
  events.filterMap fun event =>
    event.data.bind fun data =>
      match parseFrame data event.eventType with
      | .chunk response => some response
      | _ => none

/-! ## Aggregation -/

structure ToolCallAggregator where
  id : Option String := none
  callType : Option String := none
  name : String := ""
  arguments : String := ""

namespace ToolCallAggregator

/-- The last name, type and id that are not empty win; arguments add up. -/
def add (toolCall : ToolCall) (s : ToolCallAggregator) : ToolCallAggregator :=
  { id := ((toolCall.id.filter fun id => id ≠ "").or s.id)
    callType := if toolCall.callType = "" then s.callType else some toolCall.callType
    name := if toolCall.functionName = "" then s.name else toolCall.functionName
    arguments := s.arguments ++ toolCall.functionArguments }

def toToolCall (index : Int) (s : ToolCallAggregator) : ToolCall :=
  { id := s.id
    callType := s.callType.getD ""
    function := .object [("name", .string s.name), ("arguments", .string s.arguments)]
    extra := [("index", .int index)] }

end ToolCallAggregator

structure ChoiceAggregator where
  role : String := "assistant"
  content : String := ""
  reasoningContent : Option String := none
  toolCalls : List (Int × ToolCallAggregator) := []
  finishReason : Option String := none

/-- The text of a content in string form. -/
def contentText : Option MessageContent → Option String
  | some (.text value) => some value
  | _ => none

namespace ChoiceAggregator

/-- Add a delta. Reasoning that was seen is kept, also when it is empty. -/
def addDelta (delta : LlmMessage) (s : ChoiceAggregator) : ChoiceAggregator :=
  { s with
    role := if delta.role.getD "" = "" then s.role else delta.role.getD ""
    content := s.content ++ (contentText delta.content).getD ""
    reasoningContent :=
      match delta.reasoningContent with
      | none => s.reasoningContent
      | some reasoning => some (s.reasoningContent.getD "" ++ reasoning)
    toolCalls := Keyed.foldFrom ToolCall.index (fun _ => ({} : ToolCallAggregator)) ToolCallAggregator.add s.toolCalls
      delta.toolCalls }

def add (choice : Choice) (s : ChoiceAggregator) : ChoiceAggregator :=
  let s := choice.delta.elim s fun delta => s.addDelta delta
  { s with finishReason := choice.finishReason.or s.finishReason }

def message (s : ChoiceAggregator) : LlmMessage :=
  { role := some s.role
    content := if s.content = "" then none else some (.text s.content)
    toolCalls := s.toolCalls.map fun entry => entry.2.toToolCall entry.1
    reasoningContent := s.reasoningContent }

/-- Without a finish reason: what the message looks like. -/
def toChoice (index : Int) (s : ChoiceAggregator) : Choice :=
  { index := index
    message := some s.message
    finishReason := some (s.finishReason.getD
      (if s.message.toolCalls.isEmpty then "stop" else "tool_calls")) }

end ChoiceAggregator

/-- The last usage of a list of chunks. -/
def lastUsage (chunks : List LlmResponse) : Option Usage :=
  chunks.foldl (fun usage chunk => chunk.usage.or usage) none

/-- `aggregate_openai_stream_chunks`: id, model and creation time are those of
the last chunk. -/
def aggregateOpenaiStreamChunks (chunks : List LlmResponse) : LlmResponse :=
  match chunks.getLast? with
  | none => {}
  | some last =>
      { id := last.id
        choices := (Keyed.fold Choice.index (fun _ => ({} : ChoiceAggregator)) ChoiceAggregator.add
          (chunks.flatMap LlmResponse.choices)).map fun entry => entry.2.toChoice entry.1
        object := "chat.completion"
        created := last.created
        model := last.model
        usage := lastUsage chunks }

/-- An aggregated response: the body as JSON, the usage and the completion flag
the stream's end reads. -/
structure AggregatedResponse where
  body : Json
  usage : Option Usage := none
  completed : Bool := false

/-- `OpenAiChatInbound::aggregate_stream_chunks`; an empty list is an error. -/
def aggregateStreamChunks (events : List WireEvent) : Option AggregatedResponse :=
  if events.isEmpty then none
  else some { body := (aggregateOpenaiStreamChunks (decodeFrames events)).encode }

end Conduit.Transformers.OpenAi
