import Mathlib
import Conduit.Base.Emitter
import Conduit.Base.Keyed
import Conduit.Transformers.OpenAiCodec

/-!
# The Responses client stream

`ResponsesClientStream` turns unified chunks into the lifecycle events of the
Responses API: the response and its items are opened as chunks come in, and at
the end of the chunks every item is closed and one terminal event sent. Its
queue is drained before the next chunk is read. Identifiers it makes up and
the time are parameters.
-/

namespace Conduit.Transformers.Responses

open Base Base.Json

/-! ## Values -/

/-- `string_value`. -/
def stringValue (value : Json) : String := value.asStr.getD value.render

/-- `json_content_text`. -/
def jsonContentText : Json → Option String
  | .string text => some text
  | .object fields => ((field fields "content").or (field fields "text")).bind asStr
  | .null => none
  | other => some other.render

def responsesUsage (usage : Usage) : Json :=
  .object
    [("input_tokens", .ofU64 usage.promptTokens),
      ("input_tokens_details", .object [("cached_tokens", .ofU64 usage.promptDetails.cachedTokens)]),
      ("output_tokens", .ofU64 usage.completionTokens),
      ("output_tokens_details", .object
        [("reasoning_tokens", .ofU64 usage.completionDetails.reasoningTokens)]),
      ("total_tokens", .ofU64 usage.totalTokens)]

def responseErrorValue (error : ResponseError) : Json := error.detail.encode

inductive Status
  | completed
  | incomplete
  | failed
  | cancelled
deriving DecidableEq

namespace Status

def text : Status → String
  | completed => "completed"
  | incomplete => "incomplete"
  | failed => "failed"
  | cancelled => "cancelled"

/-- The terminal event of a response with that status. -/
def eventType : Status → String
  | completed => "response.completed"
  | incomplete => "response.incomplete"
  | failed => "response.failed"
  | cancelled => "response.cancelled"

end Status

/-- `stream_status`. -/
def streamStatus (finishReason : Option String) (error : Option ResponseError) : Status :=
  if error.isSome then .failed
  else
    match finishReason with
    | none => .completed
    | some reason =>
        if reason = "length" ∨ reason = "content_filter" then .incomplete
        else if reason = "error" ∨ reason = "failed" then .failed
        else if reason = "cancelled" ∨ reason = "canceled" then .cancelled
        else .completed

def incompleteReasonFromFinish (finishReason : Option String) : String :=
  if finishReason = some "content_filter" then "content_filter" else "max_output_tokens"

/-- The deltas of a content: texts and refusals. -/
inductive ContentStreamDelta
  | outputText (text : String)
  | refusal (text : String)

def contentStreamDeltas : MessageContent → List ContentStreamDelta
  | .text content => [.outputText content]
  | .parts content => content.filterMap fun part => part.text.map fun text =>
      if part.partType = "refusal" then .refusal text else .outputText text
  | .json value => (jsonContentText value).toList.map .outputText

/-! ## State -/

structure StreamPart where
  contentIndex : UInt64
  text : String := ""

structure MessageStreamItem where
  id : String
  outputIndex : UInt64
  nextContentIndex : UInt64 := 0
  text : Option StreamPart := none
  refusal : Option StreamPart := none

structure ReasoningStreamItem where
  id : String
  outputIndex : UInt64
  text : String := ""
  encryptedContent : Option String := none

structure ToolStreamItem where
  id : String
  callId : String
  outputIndex : UInt64
  name : String
  arguments : String := ""
  custom : Bool

structure ResponsesClientStream where
  responseId : String := ""
  model : String := ""
  createdAt : Int := 0
  previousResponseId : Option String := none
  usage : Option Usage := none
  error : Option ResponseError := none
  finishReason : Option String := none
  message : Option MessageStreamItem := none
  reasoning : Option ReasoningStreamItem := none
  tools : List (Int × ToolStreamItem) := []
  nextOutputIndex : UInt64 := 0
  sequence : UInt64 := 0
  started : Bool := false
  /-- How many identifiers were made up. -/
  generated : Nat := 0

/-- What the stream takes from outside: fresh identifiers and the clock. -/
structure Surroundings where
  generatedId : String → Nat → String
  now : Int

abbrev ClientStep := Emitter ResponsesClientStream WireEvent

namespace ResponsesClientStream

open Emitter

/-! ## Events -/

/-- `push_event`. -/
def pushEvent (eventType : String) (payload : ResponsesClientStream → List (String × Json)) :
    ClientStep := fun s =>
  ([{ eventType := some eventType
      data := some (.json (.object
        (insert "sequence_number" (.ofU64 s.sequence) (insert "type" (.string eventType) (payload s))))) }],
    { s with sequence := saturatingAdd s.sequence 1 })

/-- `response_snapshot`. -/
def responseSnapshot (status : String) (output : List Json) (s : ResponsesClientStream) : Json :=
  .object
    ([("id", .string s.responseId), ("object", .string "response"), ("created_at", .int s.createdAt),
        ("status", .string status), ("model", .string s.model), ("output", .array output)] ++
      optionalField "previous_response_id" (s.previousResponseId.map .string) ++
      optionalField "usage" (s.usage.map responsesUsage) ++
      optionalField "error" (s.error.map responseErrorValue) ++
      if status = "incomplete" then
        [("incomplete_details", .object
          [("reason", .string (incompleteReasonFromFinish s.finishReason))])]
      else [])

/-- `take_output_index`. -/
def takeOutputIndex (s : ResponsesClientStream) : UInt64 × ResponsesClientStream :=
  (s.nextOutputIndex, { s with nextOutputIndex := saturatingAdd s.nextOutputIndex 1 })

section Steps

variable (w : Surroundings)

/-- `generated_id`. -/
def freshId (kind : String) (s : ResponsesClientStream) : String × ResponsesClientStream :=
  (w.generatedId kind s.generated, { s with generated := s.generated + 1 })

/-- An identifier that is there, or a new one. -/
def idOr (kind : String) (id : Option String) (s : ResponsesClientStream) :
    String × ResponsesClientStream :=
  match id with
  | some id => (id, s)
  | none => freshId w kind s

/-! ## Text and refusals -/

def ensureMessage (messageId : Option String) : ClientStep := fun s =>
  if s.message.isSome then ([], s)
  else
    let (id, s) := s.idOr w "msg" (messageId.filter fun id => id ≠ "")
    let (outputIndex, s) := s.takeOutputIndex
    pushEvent "response.output_item.added"
      (fun _ =>
        [("output_index", .ofU64 outputIndex),
          ("item", .object
            [("id", .string id), ("type", .string "message"), ("status", .string "in_progress"),
              ("role", .string "assistant"), ("content", .array [])])])
      { s with message := some { id := id, outputIndex := outputIndex } }

/-- Open a part of the message, unless it is open. -/
def ensurePart (part : MessageStreamItem → Option StreamPart)
    (setPart : StreamPart → MessageStreamItem → MessageStreamItem) (blank : Json) : ClientStep :=
  fun s =>
    match s.message with
    | none => ([], s)
    | some message =>
        if (part message).isSome then ([], s)
        else
          let contentIndex := message.nextContentIndex
          pushEvent "response.content_part.added"
            (fun _ =>
              [("item_id", .string message.id), ("output_index", .ofU64 message.outputIndex),
                ("content_index", .ofU64 contentIndex), ("part", blank)])
            { s with
              message := some (setPart { contentIndex := contentIndex }
                { message with nextContentIndex := saturatingAdd contentIndex 1 }) }

/-- Append to a part of the message. -/
def pushPart (eventType : String) (part : MessageStreamItem → Option StreamPart)
    (setPart : StreamPart → MessageStreamItem → MessageStreamItem)
    (more : List (String × Json)) (delta : String) : ClientStep := fun s =>
  match s.message with
  | none => ([], s)
  | some message =>
      match part message with
      | none => ([], s)
      | some open' =>
          pushEvent eventType
            (fun _ =>
              [("item_id", .string message.id), ("output_index", .ofU64 message.outputIndex),
                ("content_index", .ofU64 open'.contentIndex), ("delta", .string delta)] ++ more)
            { s with message := some (setPart { open' with text := open'.text ++ delta } message) }

def setText (part : StreamPart) (message : MessageStreamItem) : MessageStreamItem :=
  { message with text := some part }

def setRefusal (part : StreamPart) (message : MessageStreamItem) : MessageStreamItem :=
  { message with refusal := some part }

def blankText : Json :=
  .object [("type", .string "output_text"), ("text", .string ""), ("annotations", .array []),
    ("logprobs", .array [])]

def blankRefusal : Json := .object [("type", .string "refusal"), ("refusal", .string "")]

/-- `ensure_text` and `push_text_delta`. -/
def pushTextDelta (delta : String) (messageId : Option String) : ClientStep :=
  (ensureMessage w messageId).seq <| (ensurePart MessageStreamItem.text setText blankText).seq
    (pushPart "response.output_text.delta" MessageStreamItem.text setText [("logprobs", .array [])] delta)

/-- `ensure_refusal` and `push_refusal_delta`. -/
def pushRefusalDelta (delta : String) (messageId : Option String) : ClientStep :=
  (ensureMessage w messageId).seq <|
    (ensurePart MessageStreamItem.refusal setRefusal blankRefusal).seq
    (pushPart "response.refusal.delta" MessageStreamItem.refusal setRefusal [] delta)

/-! ## Reasoning -/

def ensureReasoning : ClientStep := fun s =>
  if s.reasoning.isSome then ([], s)
  else
    let (id, s) := s.freshId w "rs"
    let (outputIndex, s) := s.takeOutputIndex
    (pushEvent "response.output_item.added"
      (fun _ =>
        [("output_index", .ofU64 outputIndex),
          ("item", .object
            [("id", .string id), ("type", .string "reasoning"), ("status", .string "in_progress"),
              ("summary", .array [])])])).seq
      (pushEvent "response.reasoning_summary_part.added" fun _ =>
        [("item_id", .string id), ("output_index", .ofU64 outputIndex), ("summary_index", .int 0),
          ("part", .object [("type", .string "summary_text"), ("text", .string "")])])
      { s with reasoning := some { id := id, outputIndex := outputIndex } }

def pushReasoningDelta (delta : String) : ClientStep :=
  (ensureReasoning w).seq fun s =>
    match s.reasoning with
    | none => ([], s)
    | some reasoning =>
        pushEvent "response.reasoning_summary_text.delta"
          (fun _ =>
            [("item_id", .string reasoning.id), ("output_index", .ofU64 reasoning.outputIndex),
              ("summary_index", .int 0), ("delta", .string delta)])
          { s with reasoning := some { reasoning with text := reasoning.text ++ delta } }

def setSignature (signature : String) : ClientStep :=
  (ensureReasoning w).seq
    (update fun s =>
      { s with reasoning := s.reasoning.map fun reasoning =>
          { reasoning with encryptedContent := some signature } })

/-! ## Tool calls -/

/-- A field of the custom tool call a tool call carries. -/
def customTool (toolCall : ToolCall) (name : String) : Option Json :=
  (field toolCall.extra "response_custom_tool").bind fun value => value.get name

/-- `stream_tool_value`. -/
def streamToolValue (tool : ToolStreamItem) (status : String) : Json :=
  .object
    [("id", .string tool.id),
      ("type", .string (if tool.custom then "custom_tool_call" else "function_call")),
      ("status", .string status), ("call_id", .string tool.callId), ("name", .string tool.name),
      (if tool.custom then "input" else "arguments", .string tool.arguments)]

/-- A call without an index is a new one. -/
def toolIndex (toolCall : ToolCall) (s : ResponsesClientStream) : Int :=
  ((field toolCall.extra "index").bind asI64).getD s.tools.length

def toolName (toolCall : ToolCall) : String :=
  (((toolCall.function.get "name").or (customTool toolCall "name")).bind asStr).getD ""

def toolDelta (toolCall : ToolCall) : String :=
  (((toolCall.function.get "arguments").or (customTool toolCall "input")).map stringValue).getD ""

/-- Open the item of a tool index, unless it is open. -/
def ensureTool (index : Int) (callId : String) (toolCall : ToolCall) : ClientStep := fun s =>
  if (Keyed.get s.tools index).isSome then ([], s)
  else
    let custom := decide (toolCall.callType = "responses_custom_tool")
    let (id, s) := s.freshId w (if custom then "ct" else "fc")
    let (outputIndex, s) := s.takeOutputIndex
    let item : ToolStreamItem :=
      { id := id, callId := callId, outputIndex := outputIndex, name := toolName toolCall, custom := custom }
    pushEvent "response.output_item.added"
      (fun _ => [("output_index", .ofU64 outputIndex), ("item", streamToolValue item "in_progress")])
      { s with tools := Keyed.upsert index item (fun tool => tool) s.tools }

/-- The first name that is not empty is kept. -/
def extendTool (toolCall : ToolCall) (item : ToolStreamItem) : ToolStreamItem :=
  { item with
    name := if item.name = "" then toolName toolCall else item.name
    arguments := item.arguments ++ toolDelta toolCall }

def pushArguments (index : Int) (toolCall : ToolCall) : ClientStep := fun s =>
  match Keyed.get s.tools index with
  | none => ([], s)
  | some item =>
      pushEvent
        (if item.custom then "response.custom_tool_call_input.delta"
          else "response.function_call_arguments.delta")
        (fun _ =>
          [("item_id", .string item.id), ("output_index", .ofU64 item.outputIndex),
            ("delta", .string (toolDelta toolCall))])
        { s with tools := Keyed.upsert index item (extendTool toolCall) s.tools }

def pushToolDelta (toolCall : ToolCall) : ClientStep := fun s =>
  let index := s.toolIndex toolCall
  let (callId, s) := s.idOr w "call"
    (toolCall.id.or ((customTool toolCall "call_id").bind asStr))
  ((ensureTool w index callId toolCall).seq (pushArguments index toolCall)) s

/-! ## Chunks -/

def updateIdentity (response : LlmResponse) (s : ResponsesClientStream) : ResponsesClientStream :=
  let (responseId, s) := s.idOr w "resp"
    ((if s.responseId = "" then some response.id else some s.responseId).filter fun id => id ≠ "")
  { s with
    responseId := responseId
    model := if s.model = "" then response.model else s.model
    createdAt :=
      if s.createdAt = 0 then if response.created = 0 then w.now else response.created
      else s.createdAt
    previousResponseId := response.previousResponseId.or s.previousResponseId }

def start : ClientStep :=
  whenever (fun s => !s.started)
    ((update fun s => { s with started := true }).seq <|
      (pushEvent "response.created" fun s => [("response", s.responseSnapshot "in_progress" [])]).seq
      (pushEvent "response.in_progress" fun s => [("response", s.responseSnapshot "in_progress" [])]))

def contentDelta (messageId : Option String) : ContentStreamDelta → ClientStep
  | .outputText delta => pushTextDelta w delta messageId
  | .refusal delta => pushRefusalDelta w delta messageId

def consumeMessage (message : LlmMessage) : ClientStep :=
  (forEach (pushReasoningDelta w) message.reasoningContent.toList).seq <|
    (forEach (setSignature w) message.reasoningSignature.toList).seq <|
    (forEach (contentDelta w message.id) (message.content.toList.flatMap contentStreamDeltas)).seq <|
    (forEach (fun refusal => pushRefusalDelta w refusal message.id) message.refusal.toList).seq
    (forEach (pushToolDelta w) message.toolCalls)

/-- An error sets the finish reason, which a later choice may set again. -/
def noteOutcome (response : LlmResponse) (s : ResponsesClientStream) : ResponsesClientStream :=
  { s with
    usage := response.usage.or s.usage
    error := response.error.or s.error
    finishReason := if response.error.isSome then some "error" else s.finishReason }

def consumeChoice (choice : Choice) : ClientStep :=
  (forEach (consumeMessage w) (choice.delta.or choice.message).toList).seq
    (update fun s => { s with finishReason := choice.finishReason.or s.finishReason })

def consume (response : LlmResponse) : ClientStep :=
  (update (updateIdentity w response)).seq <| start.seq <| (update (noteOutcome response)).seq
    (forEach (consumeChoice w) response.choices)

end Steps

/-! ## The end of the stream -/

/-- `output_item_status`. -/
def outputItemStatus (status : Status) : String := status.text

/-- The finished items by output index, as `completed` collects them. -/
abbrev FinishedItems := List (UInt64 × Json)

def inOrder (items : FinishedItems) : List Json :=
  (Keyed.fold (fun item => item.1.toNat) (fun _ => Json.null) (fun item _ => item.2) items).map Prod.snd

def summaryPart (reasoning : ReasoningStreamItem) : Json :=
  .object [("type", .string "summary_text"), ("text", .string reasoning.text)]

def reasoningItem (status : Status) (reasoning : ReasoningStreamItem) : Json :=
  .object
    ([("id", .string reasoning.id), ("type", .string "reasoning"),
        ("status", .string (outputItemStatus status)), ("summary", .array [summaryPart reasoning])] ++
      optionalField "encrypted_content" (reasoning.encryptedContent.map .string))

def itemDone (outputIndex : UInt64) (item : Json) : ClientStep :=
  pushEvent "response.output_item.done" fun _ => [("output_index", .ofU64 outputIndex), ("item", item)]

def finishReasoning (status : Status) (reasoning : ReasoningStreamItem) : ClientStep :=
  (pushEvent "response.reasoning_summary_text.done" fun _ =>
    [("item_id", .string reasoning.id), ("output_index", .ofU64 reasoning.outputIndex),
      ("summary_index", .int 0), ("text", .string reasoning.text)]).seq <|
  (pushEvent "response.reasoning_summary_part.done" fun _ =>
    [("item_id", .string reasoning.id), ("output_index", .ofU64 reasoning.outputIndex),
      ("summary_index", .int 0), ("part", summaryPart reasoning)]).seq
  (itemDone reasoning.outputIndex (reasoningItem status reasoning))

def textPart (text : String) : Json :=
  .object [("type", .string "output_text"), ("text", .string text), ("annotations", .array []),
    ("logprobs", .array [])]

def refusalPart (text : String) : Json :=
  .object [("type", .string "refusal"), ("refusal", .string text)]

def partDone (message : MessageStreamItem) (contentIndex : UInt64) (part : Json) : ClientStep :=
  pushEvent "response.content_part.done" fun _ =>
    [("item_id", .string message.id), ("output_index", .ofU64 message.outputIndex),
      ("content_index", .ofU64 contentIndex), ("part", part)]

def finishText (message : MessageStreamItem) (text : StreamPart) : ClientStep :=
  (pushEvent "response.output_text.done" fun _ =>
    [("item_id", .string message.id), ("output_index", .ofU64 message.outputIndex),
      ("content_index", .ofU64 text.contentIndex), ("text", .string text.text),
      ("logprobs", .array [])]).seq
  (partDone message text.contentIndex (textPart text.text))

def finishRefusal (message : MessageStreamItem) (refusal : StreamPart) : ClientStep :=
  (pushEvent "response.refusal.done" fun _ =>
    [("item_id", .string message.id), ("output_index", .ofU64 message.outputIndex),
      ("content_index", .ofU64 refusal.contentIndex), ("refusal", .string refusal.text)]).seq
  (partDone message refusal.contentIndex (refusalPart refusal.text))

def messageItem (status : Status) (message : MessageStreamItem) : Json :=
  .object
    [("id", .string message.id), ("type", .string "message"),
      ("status", .string (outputItemStatus status)), ("role", .string "assistant"),
      ("content", .array (inOrder
        ((message.text.toList.map fun text => (text.contentIndex, textPart text.text)) ++
          message.refusal.toList.map fun refusal => (refusal.contentIndex, refusalPart refusal.text))))]

def finishMessage (status : Status) (message : MessageStreamItem) : ClientStep :=
  (forEach (finishText message) message.text.toList).seq <|
    (forEach (finishRefusal message) message.refusal.toList).seq
    (itemDone message.outputIndex (messageItem status message))

def finishTool (status : Status) (tool : ToolStreamItem) : ClientStep :=
  (pushEvent
    (if tool.custom then "response.custom_tool_call_input.done"
      else "response.function_call_arguments.done") fun _ =>
    [("item_id", .string tool.id), ("output_index", .ofU64 tool.outputIndex),
      ("call_id", .string tool.callId), ("name", .string tool.name),
      (if tool.custom then "input" else "arguments", .string tool.arguments)]).seq
  (itemDone tool.outputIndex (streamToolValue tool (outputItemStatus status)))

def finishedItems (status : Status) (s : ResponsesClientStream) : FinishedItems :=
  (s.reasoning.toList.map fun reasoning => (reasoning.outputIndex, reasoningItem status reasoning)) ++
    (s.message.toList.map fun message => (message.outputIndex, messageItem status message)) ++
    s.tools.map fun entry =>
      (entry.2.outputIndex, streamToolValue entry.2 (outputItemStatus status))

def missingFinishReason : ResponseError :=
  { statusCode := 502
    detail :=
      { code := "upstream_stream_missing_finish_reason"
        message := "Upstream stream ended without a finish reason"
        detailType := "invalid_response_error" } }

/-- Chunks without a finish reason and without an error are an error. -/
def noteMissingFinish (s : ResponsesClientStream) : ResponsesClientStream :=
  if s.finishReason.isNone && s.error.isNone then
    { s with finishReason := some "error", error := some missingFinishReason }
  else s

def status (s : ResponsesClientStream) : Status := streamStatus s.finishReason s.error

/-- The terminal event. -/
def finishResponse (status : Status) (output : List Json) : ClientStep :=
  pushEvent status.eventType fun s => [("response", s.responseSnapshot status.text output)]

def closeItems (s : ResponsesClientStream) : ClientStep :=
  (forEach (finishReasoning s.status) s.reasoning.toList).seq <|
    (forEach (finishMessage s.status) s.message.toList).seq
    (forEach (finishTool s.status) (s.tools.map Prod.snd))

/-- `finish`: nothing is sent if no chunk came. -/
def finish (s : ResponsesClientStream) : List WireEvent :=
  if s.started then
    let s := s.noteMissingFinish
    (((closeItems s).seq (finishResponse s.status (inOrder (s.finishedItems s.status)))) s).1
  else []

def transducer (w : Surroundings) : Transducer ResponsesClientStream LlmResponse WireEvent where
  start := {}
  read s response := ((consume w response s).1, some (consume w response s).2)
  finish := finish

end ResponsesClientStream

end Conduit.Transformers.Responses
