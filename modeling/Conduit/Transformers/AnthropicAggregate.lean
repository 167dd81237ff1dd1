import Conduit.Transformers.AnthropicOutboundStream
import Conduit.Transformers.OpenAiChat

/-!
# Aggregating an Anthropic stream

`aggregate_anthropic_stream_chunks` folds the events of a stream into one
message. Frames that are not JSON are skipped. The parser of a tool call's
accumulated input is a parameter.
-/

namespace Conduit.Transformers.Anthropic

open Base Base.Json

/-! ## Blocks -/

/-- `as_object_mut` and `insert`. -/
def setField (name : String) (value : Json) : Json → Json
  | .object fields => .object (insert name value fields)
  | other => other

/-- `append_text_field`. -/
def appendTextField (name : String) (delta : Option Json) (block : Json) : Json :=
  match delta.bind asStr with
  | none => block
  | some text => setField name (.string ((strField block name).getD "" ++ text)) block

/-- `append_citation`. -/
def appendCitation (citation : Json) (block : Json) : Json :=
  match block.get "citations" with
  | none => setField "citations" (.array [citation]) block
  | some (.array citations) => setField "citations" (.array (citations ++ [citation])) block
  | some _ => block

/-- A block that is not of that type becomes one, with the delta's field. -/
def convertBlock (kind name : String) (delta : Json) (block : Json) : Json :=
  let block := setField "type" (.string kind) block
  (delta.get name).elim block fun value => setField name value block

/-- The block that is in place of one that was never started. -/
def emptyTextBlock : Json := .object [("type", .string "text"), ("text", .string "")]

/-- A tool call's input is built from its deltas. -/
def startedBlock (block : Json) : Json :=
  if isAnthropicToolUseLike (blockType block) then setField "input" .null block else block

def applyBlockDelta (delta : Json) (block : Json) : Json :=
  let kind := (strField delta "type").getD ""
  if kind = "text_delta" then
    if blockType block = "text" then appendTextField "text" (delta.get "text") block else block
  else if kind = "thinking_delta" then
    if blockType block = "thinking" then appendTextField "thinking" (delta.get "thinking") block
    else convertBlock "thinking" "thinking" delta block
  else if kind = "signature_delta" then
    if blockType block = "thinking" then appendTextField "signature" (delta.get "signature") block
    else convertBlock "thinking" "signature" delta block
  else if kind = "citations_delta" then
    if blockType block = "text" then (delta.get "citation").elim block fun citation =>
      appendCitation citation block
    else block
  else if kind = "input_json_delta" then
    match strField delta "partial_json" with
    | none => block
    | some partialJson =>
        if isAnthropicToolUseLike (blockType block) then
          setField "input" (.string ((strField block "input").getD "" ++ partialJson)) block
        else if blockType block = "text" then
          appendTextField "text" (some (.string partialJson)) block
        else block
  else block

/-- The input of a stopped tool call, parsed if it is JSON. -/
def stoppedBlock (parse : String → Option Json) (block : Json) : Json :=
  if isAnthropicToolUseLike (blockType block) then
    match (strField block "input").bind parse with
    | none => block
    | some input => setField "input" input block
  else block

/-! ## Usage -/

/-- `as_i64` of a field. -/
def i64Field (value : Json) (name : String) : Option Int := (value.get name).bind asI64

/-- A count that is written if it is positive. -/
def positiveField (delta : Json) (name : String) (fields : List (String × Json)) :
    List (String × Json) :=
  match i64Field delta name with
  | none => fields
  | some count => if 0 < count then insert name (.int count) fields else fields

/-- The cached tokens of a delta are taken out of the input tokens. -/
def cachedTokens (delta : Json) (fields : List (String × Json)) : List (String × Json) :=
  match i64Field delta "cached_tokens" with
  | none => fields
  | some cached =>
      if cached ≤ 0 then fields
      else
        let fields := insert "cached_tokens" (.int cached) fields
        match i64Field delta "cache_read_input_tokens", (field fields "input_tokens").bind asI64 with
        | some cacheRead, some input => insert "input_tokens" (.int (max (input - cacheRead) 0)) fields
        | _, _ => fields

/-- `merge_usage`. -/
def mergeUsage (running : Option Json) (delta : Json) : Json :=
  match running, delta with
  | none, delta => delta
  | some (.object fields), .object deltaFields =>
      let delta := Json.object deltaFields
      let fields :=
        match i64Field delta "output_tokens" with
        | none => fields
        | some count => insert "output_tokens" (.int count) fields
      .object
        (positiveField delta "cache_read_input_tokens" <|
          positiveField delta "cache_creation_input_tokens" <|
          cachedTokens delta <| positiveField delta "input_tokens" fields)
  | some (.object fields), _ => .object fields
  | some _, delta => delta

/-! ## The fold -/

structure MessageAggregator where
  messageStart : Option Json := none
  contentBlocks : List Json := []
  usage : Option Json := none
  stopReason : Option String := none

namespace MessageAggregator

/-- An `i64` index as a `usize`. -/
def toIndex (index : Int) : Nat := (index % 18446744073709551616).toNat

section Parse

variable (parse : String → Option Json)

/-- Blocks are padded up to the index of a delta. -/
def padBlocks (index : Nat) (blocks : List Json) : List Json :=
  blocks ++ List.replicate (index + 1 - blocks.length) emptyTextBlock

/-- One event, by its type. -/
def add (s : MessageAggregator) (parsed : Json) : MessageAggregator :=
  let kind := (strField parsed "type").getD ""
  if kind = "message_start" then
    let message := parsed.get "message"
    { s with
      messageStart := message
      usage := ((message.bind fun message => message.get "usage").filter fun usage =>
        !usage.isNull).or s.usage }
  else if kind = "content_block_start" then
    { s with
      contentBlocks := s.contentBlocks ++
        ((parsed.get "content_block").toList.map startedBlock) }
  else if kind = "content_block_delta" then
    match i64Field parsed "index" with
    | none => s
    | some index =>
        let blocks := padBlocks (toIndex index) s.contentBlocks
        match parsed.get "delta" with
        | none => { s with contentBlocks := blocks }
        | some delta => { s with contentBlocks := blocks.modify (toIndex index) (applyBlockDelta delta) }
  else if kind = "message_delta" then
    { s with
      stopReason := ((parsed.get "delta").bind fun delta => strField delta "stop_reason").or s.stopReason
      usage := ((parsed.get "usage").map (mergeUsage s.usage)).or s.usage }
  else if kind = "content_block_stop" then
    match i64Field parsed "index" with
    | none => s
    | some index => { s with contentBlocks := s.contentBlocks.modify (toIndex index) (stoppedBlock parse) }
  else s

def fold (events : List WireEvent) : MessageAggregator :=
  (events.filterMap fun event => event.data.bind Payload.value).foldl (add parse) {}

/-- A field of the started message, or its default. -/
def startField (s : MessageAggregator) (name default : String) : Json :=
  .string ((s.messageStart.bind fun message => strField message name).getD default)

def message (s : MessageAggregator) : Json :=
  .object
    ([("id", s.startField "id" "msg_unknown"), ("type", s.startField "type" "message"),
        ("role", s.startField "role" "assistant"),
        ("content", .array (if s.contentBlocks.isEmpty then [emptyTextBlock] else s.contentBlocks)),
        ("model", s.startField "model" "claude-3-sonnet-20240229")] ++
      optionalField "stop_reason" (s.stopReason.map .string) ++ optionalField "usage" s.usage)

end Parse

end MessageAggregator

/-- `aggregate_anthropic_stream_chunks`. -/
def aggregateAnthropicStreamChunks (parse : String → Option Json) (events : List WireEvent) :
    Option Json :=
  if events.isEmpty then none else some (MessageAggregator.fold parse events).message

/-- `AnthropicInboundTransformer::aggregate_stream_chunks`. -/
def aggregateStreamChunks (parse : String → Option Json) (events : List WireEvent) :
    Option OpenAi.AggregatedResponse :=
  (aggregateAnthropicStreamChunks parse events).map fun message =>
    { body := message
      usage := (message.get "usage").bind convertAnthropicUsage
      completed := (message.get "stop_reason").any fun reason => !reason.isNull }

end Conduit.Transformers.Anthropic
