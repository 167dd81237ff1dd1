import Conduit.Transformers.AnthropicInboundStream
import Conduit.Transformers.AnthropicOutboundStream
import Mathlib

/-!
# Anthropic messages and unified responses

`convert_anthropic_message_to_llm_response` sorts the content blocks of a
message into the slots of the unified message, with the position of a block in
the metadata; `convert_to_anthropic_response` takes them out of the slots and
restores their order. The unified response is the one choice it consists of.
-/

namespace Conduit.Transformers.AnthropicResponse

open Base Base.Json Base.Text Anthropic

/-! ## The unified response -/

structure UrlCitation where
  url : Option String
  title : Option String

structure Annotation where
  annotationType : Option String
  urlCitation : Option UrlCitation

/-- `LlmMessage` with its annotations. -/
structure AnnotatedMessage extends LlmMessage where
  annotations : List Annotation := []

/-- `LlmResponse` with one choice. -/
structure AnnotatedResponse where
  id : String
  model : String
  message : AnnotatedMessage
  finishReason : Option String
  usage : Option Usage
  transformerMetadata : ExtensionMap := []

/-! ## Metadata -/

def blockIndexKey : String := "anthropic_block_index"
def typeKey : String := "anthropic_type"
def callerKey : String := "anthropic_caller"
def toolResultContentKey : String := "anthropic_tool_result_content"
def responseContentKey : String := "anthropic_response_content"

def setAnthropicBlockIndex (meta' : ExtensionMap) (index : Nat) : ExtensionMap :=
  insert blockIndexKey (.int index) meta'

/-- `as_i64` of an ordinal: the index of a list element is always one. -/
def asOrdinal : Json → Option Int
  | .int ordinal => some ordinal
  | _ => none

/-- The ordinal of a part, call or result that has one. -/
def metaIndex (meta' : ExtensionMap) : Option Int := (field meta' blockIndexKey).bind asOrdinal

def getBlockIndex (meta' : ExtensionMap) : Int := (metaIndex meta').getD (-1)

def isAnthropicToolUseLike (blockType : String) : Bool :=
  blockType = "tool_use" || endsWith blockType "_tool_use"

def isAnthropicToolResultLike (blockType : String) : Bool :=
  blockType = "tool_result" || endsWith blockType "_tool_result"

/-- A server-side tool block. -/
def isAnthropicSpecialBlock (blockType : String) : Bool :=
  (endsWith blockType "_tool_use" && blockType ≠ "tool_use") ||
    (endsWith blockType "_tool_result" && blockType ≠ "tool_result")

/-- A value that is there and not null. -/
def present (value : Option Json) : Option Json := value.filter fun value => !value.isNull

def setAnthropicSpecialMeta (meta' : ExtensionMap) (blockType : String) (caller : Option Json) :
    ExtensionMap :=
  if isAnthropicSpecialBlock blockType then
    let typed := insert typeKey (.string blockType) meta'
    (present caller).elim typed fun caller => insert callerKey caller typed
  else meta'

def getAnthropicTypeMeta (meta' : ExtensionMap) : String := ((field meta' typeKey).bind asStr).getD ""

def getAnthropicCallerMeta (meta' : ExtensionMap) : Option Json := present (field meta' callerKey)

def getAnthropicToolResultContent (meta' : ExtensionMap) : Option Json :=
  present (field meta' toolResultContentKey)

/-! ## From Anthropic -/

/-- What the loop over the content blocks collects. -/
structure Collected where
  textParts : List String := []
  toolCalls : List ToolCall := []
  reasoningContent : Option String := none
  reasoningSignature : Option String := none
  annotations : List Annotation := []
  inlineToolResults : List InlineToolResult := []
  contentParts : List ContentPart := []

/-- A string field, or the empty string. -/
def strOr (value : Json) (name : String) : String := (strField value name).getD ""

def llmAnnotationFromCitation (citation : Json) : Annotation where
  annotationType := some ((strField citation "type").getD "url_citation")
  urlCitation := some ⟨strField citation "url", strField citation "title"⟩

/-- The text that holds the content of a result. -/
def inlineOutput (content : Option Json) : Option String :=
  content.bind fun content =>
    match content with
    | .string text => some text
    | .null => none
    | other => some other.render

def inlineToolResultFromBlock (block : Json) : InlineToolResult where
  toolCallId := strField block "tool_use_id"
  output := inlineOutput (block.get "content")
  isError := ((block.get "is_error").bind asBool).getD false

namespace Collected

def text (c : Collected) (index : Nat) (block : Json) : Collected :=
  let withText : Collected :=
    match strField block "text" with
    | some text =>
        if text = "" then c
        else
          { c with
            textParts := c.textParts ++ [text]
            contentParts := c.contentParts ++
              [{ partType := "text", text := some text, extra := setAnthropicBlockIndex [] index }] }
    | none => c
  { withText with
    annotations := withText.annotations ++
      (((block.get "citations").bind asArray).getD []).map llmAnnotationFromCitation }

/-- The part has no index, and a type of its own. -/
def image (c : Collected) (block : Json) : Collected :=
  match block.get "source" with
  | some source =>
      { c with
        contentParts := c.contentParts ++
          [{ partType := "image", imageUrl := some (.object [("url", .string (strOr source "data"))]) }] }
  | none => c

/-- A call needs an id and a name. -/
def toolUse (c : Collected) (block : Json) (extra : ExtensionMap) : Collected :=
  if strOr block "id" ≠ "" ∧ strOr block "name" ≠ "" then
    { c with
      toolCalls := c.toolCalls ++
        [{ id := some (strOr block "id")
           callType := "function"
           function := .object [("name", .string (strOr block "name")),
             ("arguments", .string ((block.get "input").getD (.object [])).render)]
           extra }] }
  else c

/-- The last thinking wins. -/
def thinking (c : Collected) (block : Json) : Collected :=
  { c with
    reasoningContent := (strField block "thinking").or c.reasoningContent
    reasoningSignature :=
      ((strField block "signature").map Base64.ensureEncoded).or c.reasoningSignature }

def toolResult (c : Collected) (block : Json) (extra : ExtensionMap) : Collected :=
  { c with
    inlineToolResults := c.inlineToolResults ++
      [{ inlineToolResultFromBlock block with transformerMetadata := extra }] }

def block (c : Collected) (index : Nat) (block : Json) : Collected :=
  let blockType := strOr block "type"
  let indexed := setAnthropicBlockIndex [] index
  if blockType = "text" then c.text index block
  else if blockType = "image" then c.image block
  else if blockType = "tool_use" then c.toolUse block indexed
  else if blockType = "thinking" then c.thinking block
  -- nothing of a redacted thinking is kept
  else if blockType = "redacted_thinking" then c
  else if isAnthropicToolUseLike blockType then
    c.toolUse block (setAnthropicSpecialMeta indexed blockType (block.get "caller"))
  else if isAnthropicToolResultLike blockType then
    c.toolResult block (setAnthropicSpecialMeta indexed blockType (block.get "caller"))
  else c

/-- No tool block stands before the last text. -/
def safe (c : Collected) : Bool :=
  let maxTextIndex := (c.contentParts.filterMap fun part => metaIndex part.extra).foldl max (-1)
  let after := fun meta' => (metaIndex meta').all fun index => ¬ (0 ≤ index ∧ index < maxTextIndex)
  (c.toolCalls.all fun toolCall => after toolCall.extra) &&
    c.inlineToolResults.all fun result => after result.transformerMetadata

/-- Text alone becomes one string where that moves nothing. -/
def content (c : Collected) : Option MessageContent :=
  if !c.textParts.isEmpty && c.contentParts.length = c.textParts.length then
    if c.safe then some (.text (String.join c.textParts)) else some (.parts c.contentParts)
  else if c.contentParts.isEmpty then none
  else some (.parts c.contentParts)

end Collected

/-- The loop over the content blocks. -/
def collect (blocks : List Json) : Collected :=
  blocks.zipIdx.foldl (fun c entry => c.block entry.2 entry.1) {}

/-- `convert_anthropic_message_to_llm_response`. -/
def convertAnthropicMessageToLlmResponse (message : Json) : AnnotatedResponse :=
  let collected := collect (((message.get "content").bind asArray).getD [])
  { id := strOr message "id"
    model := strOr message "model"
    message :=
      { role := some ((strField message "role").getD "assistant")
        content := collected.content
        toolCalls := collected.toolCalls
        reasoningContent := collected.reasoningContent
        reasoningSignature := collected.reasoningSignature
        inlineToolResults := collected.inlineToolResults
        annotations := collected.annotations }
    finishReason :=
      (strField message "stop_reason").map AnthropicStreamReducer.mapAnthropicStopReason
    usage := (message.get "usage").bind convertAnthropicUsage }

/-! ## To Anthropic -/

/-- `parse_data_url`: the media type and the data. -/
def parseDataUrl (url : String) : Option (String × String) :=
  if startsWith url "data:" then
    (splitOnce "," (String.ofList (url.toList.drop 5))).map fun (header, data) =>
      let mediaType := String.ofList (header.toList.takeWhile (· != ';'))
      (if mediaType = "" then "application/octet-stream" else mediaType, data)
  else none

def sanitizeReadToolInput (name : String) (input : Json) : Json :=
  if eqIgnoreAsciiCase name "read" then
    match input with
    | .object fields =>
        if (field fields "pages").bind asStr = some "" then .object (remove "pages" fields) else input
    | other => other
  else input

def hasOpenaiResponsesWebSearchCalls (metadata : ExtensionMap) : Bool :=
  match field metadata "openai_responses_web_search_calls" with
  | some (.array calls) => !calls.isEmpty
  | some .null => false
  | none => false
  | some _ => true

def citationFromAnnotation (cited : Annotation) (metadata : ExtensionMap) : Option Json :=
  let annotationType := cited.annotationType.getD ""
  if annotationType = "" ∧ cited.urlCitation.isNone then none
  else
    let citationType :=
      if annotationType = "" ∨
          (annotationType = "url_citation" ∧ hasOpenaiResponsesWebSearchCalls metadata) then
        "web_search_result_location"
      else annotationType
    some (.object
      ([("type", .string citationType)] ++
        optionalField "url" ((cited.urlCitation.bind UrlCitation.url).map .string) ++
        optionalField "title" ((cited.urlCitation.bind UrlCitation.title).map .string)))

/-- `citation_key`. -/
def citationKey (citation : Json) : String × String × String :=
  (strOr citation "type", strOr citation "url", strOr citation "title")

/-- The first text block gets the citations that it does not have. -/
def attachToFirstText (citations : List Json) : List Json → Option (List Json)
  | [] => none
  | block :: blocks =>
      if strField block "type" = some "text" then
        let existing := ((block.get "citations").bind asArray).getD []
        let merged := existing ++ citations.filter fun citation =>
          citationKey citation ∉ existing.map citationKey
        some (.object (insert "citations" (.array merged) (block.asObject.getD [])) :: blocks)
      else (attachToFirstText citations blocks).map (block :: ·)

/-- `attach_citations_to_first_text_block`. -/
def attachCitationsToFirstTextBlock (blocks : List Json) (annotations : List Annotation)
    (metadata : ExtensionMap) : List Json :=
  let citations := annotations.filterMap fun annotation => citationFromAnnotation annotation metadata
  if citations.isEmpty then blocks
  else
    (attachToFirstText citations blocks).getD
      (blocks ++ [.object [("type", .string "text"), ("text", .string ""),
        ("citations", .array citations)]])

/-- `merge_response_content_blocks`. -/
def mergeResponseContentBlocks (blocks : List Json) (metadata : ExtensionMap)
    (annotations : List Annotation) : List Json :=
  match field metadata responseContentKey with
  | some (.array (block :: provider)) =>
      attachCitationsToFirstTextBlock (block :: provider) annotations metadata
  | _ => attachCitationsToFirstTextBlock blocks annotations metadata

/-- `tool_result_block_from_inline`. -/
def toolResultBlockFromInline (result : InlineToolResult) : Option Json :=
  let blockType := getAnthropicTypeMeta result.transformerMetadata
  if blockType = "" then none
  else
    some (.object
      ([("type", .string blockType)] ++
        optionalField "caller" (getAnthropicCallerMeta result.transformerMetadata) ++
        nonEmptyField "tool_use_id" (result.toolCallId.getD "") ++
        (if result.isError then [("is_error", .bool true)] else []) ++
        match getAnthropicToolResultContent result.transformerMetadata with
        | some content => [("content", content)]
        | none => nonEmptyField "content" (result.output.getD "")))

structure OrderedBlock where
  idx : Int
  order : Nat
  block : Json

/-- The comparison of `sort_ordered_blocks`: known indexes first. -/
def OrderedBlock.le (a b : OrderedBlock) : Bool :=
  if 0 ≤ a.idx then
    if 0 ≤ b.idx then decide (a.idx < b.idx ∨ (a.idx = b.idx ∧ a.order ≤ b.order)) else true
  else if 0 ≤ b.idx then false
  else decide (a.order ≤ b.order)

/-- `sort_ordered_blocks`, which is stable. -/
def sortOrderedBlocks (blocks : List OrderedBlock) : List OrderedBlock :=
  blocks.mergeSort OrderedBlock.le

/-- The order of a block is its place in the list. -/
def numbered (blocks : List (Int × Json)) : List OrderedBlock :=
  blocks.zipIdx.map fun entry => ⟨entry.1.1, entry.2, entry.1.2⟩

def imageBlock (url : String) : Json :=
  .object [("type", .string "image"),
    ("source",
      match parseDataUrl url with
      | some (mediaType, data) =>
          .object [("type", .string "base64"), ("media_type", .string mediaType),
            ("data", .string data)]
      | none => .object [("type", .string "url"), ("url", .string url)])]

/-- The block of a content part, with its index. -/
def partBlock (part : ContentPart) : Option (Int × Json) :=
  if part.partType = "text" then
    part.text.map fun text =>
      (getBlockIndex part.extra, .object [("type", .string "text"), ("text", .string text)])
  else if part.partType = "image_url" then
    ((part.imageUrl.bind fun image => strField image "url").filter fun url => url ≠ "").map fun url =>
      (getBlockIndex part.extra, imageBlock url)
  else none

section ToAnthropic

-- `serde_json::from_str`
variable (fromStr : String → Option Json)

def toolCallBlock (toolCall : ToolCall) : Int × Json :=
  let input :=
    if toolCall.functionArguments = "" then .object []
    else (fromStr toolCall.functionArguments).getD (.object [])
  let typeMeta := getAnthropicTypeMeta toolCall.extra
  (getBlockIndex toolCall.extra,
    .object
      ([("type", .string (if typeMeta = "" then "tool_use" else typeMeta)),
        ("id", toolCall.id.elim .null .string), ("name", .string toolCall.functionName),
        ("input", sanitizeReadToolInput toolCall.functionName input)] ++
        optionalField "caller" (getAnthropicCallerMeta toolCall.extra)))

/-- The thinking block comes first. -/
def thinkingBlocks (generateSignature : String) (message : LlmMessage) : List Json :=
  if (message.reasoningContent.any fun text => text ≠ "") ∨
      (message.reasoningSignature.any fun text => text ≠ "") then
    [.object [("type", .string "thinking"),
      ("thinking", .string (message.reasoningContent.getD "")),
      ("signature", .string (message.reasoningSignature.getD generateSignature))]]
  else []

def redactedBlocks (message : LlmMessage) : List Json :=
  (message.redactedReasoningContent.filter fun data => data ≠ "").toList.map fun data =>
    .object [("type", .string "redacted_thinking"), ("data", .string data)]

/-- The text that comes first when all the content is one text. -/
def leadingBlocks (message : LlmMessage) : List Json :=
  match message.content with
  | some (.text text) =>
      if text = "" then [] else [.object [("type", .string "text"), ("text", .string text)]]
  | _ => []

def contentPartBlocks (message : LlmMessage) : List (Int × Json) :=
  match message.content with
  | some (.parts parts) => parts.filterMap partBlock
  | _ => []

def orderedBlocks (message : LlmMessage) : List OrderedBlock :=
  numbered
    (contentPartBlocks message ++ message.toolCalls.map (toolCallBlock fromStr) ++
      message.inlineToolResults.filterMap fun result =>
        (toolResultBlockFromInline result).map fun block =>
          (getBlockIndex result.transformerMetadata, block))

def messageBlocks (generateSignature : String) (message : LlmMessage) : List Json :=
  thinkingBlocks generateSignature message ++ redactedBlocks message ++ leadingBlocks message ++
    (sortOrderedBlocks (orderedBlocks fromStr message)).map OrderedBlock.block

def stopReasonOf (finishReason : String) : String :=
  if finishReason = "stop" then "end_turn"
  else if finishReason = "length" then "max_tokens"
  else if finishReason = "tool_calls" ∨ finishReason = "function_call" then "tool_use"
  else finishReason

/-- `convert_to_anthropic_response`. -/
def convertToAnthropicResponse (generateSignature : String) (response : AnnotatedResponse) : Json :=
  .object
    ([("id", .string response.id), ("type", .string "message"), ("role", .string "assistant"),
      ("model", .string response.model)] ++
      optionalField "stop_reason"
        (response.finishReason.map fun reason => .string (stopReasonOf reason)) ++
      [("content",
        .array (mergeResponseContentBlocks
          (messageBlocks fromStr generateSignature response.message.toLlmMessage)
          response.transformerMetadata response.message.annotations))] ++
      optionalField "usage" (response.usage.map convertLlmUsageToAnthropic))

end ToAnthropic

/-! ## Content blocks -/

/-- The content blocks of a message. A tool block has its type, the plain one or that of a
server-side tool. -/
inductive AnthropicBlock
  | text (value : String) (citations : List Json)
  | thinking (reasoning : String) (signature : Option String)
  | redactedThinking (data : String)
  | image (source : Json)
  | toolUse (blockType id name : String) (input : Json) (caller : Option Json)
  | toolResult (blockType toolUseId : String) (content : Option Json) (isError : Bool)
      (caller : Option Json)

namespace AnthropicBlock

def toJson : AnthropicBlock → Json
  | text value citations =>
      .object ([("type", .string "text"), ("text", .string value)] ++
        nonEmptyList "citations" citations)
  | thinking reasoning signature =>
      .object ([("type", .string "thinking"), ("thinking", .string reasoning)] ++
        optionalField "signature" (signature.map .string))
  | redactedThinking data =>
      .object [("type", .string "redacted_thinking"), ("data", .string data)]
  | image source => .object [("type", .string "image"), ("source", source)]
  | toolUse blockType id name input caller =>
      .object ([("type", .string blockType), ("id", .string id), ("name", .string name),
        ("input", input)] ++ optionalField "caller" caller)
  | toolResult blockType toolUseId content isError caller =>
      .object ([("type", .string blockType)] ++ optionalField "caller" caller ++
        [("tool_use_id", .string toolUseId)] ++
        (if isError then [("is_error", .bool true)] else []) ++ optionalField "content" content)

/-- Texts are not empty, and tool blocks have an id, a name and a type that is one. The
results are those of server-side tools. -/
def WellFormed : AnthropicBlock → Prop
  | text value _ => value ≠ ""
  | thinking _ _ => True
  | redactedThinking _ => True
  | image _ => True
  | toolUse blockType id name _ _ =>
      isAnthropicToolUseLike blockType = true ∧ id ≠ "" ∧ name ≠ ""
  | toolResult blockType toolUseId _ _ _ =>
      endsWith blockType "_tool_result" = true ∧ toolUseId ≠ ""

/-- Reads a block. -/
def read (block : Json) : Option AnthropicBlock :=
  let blockType := strOr block "type"
  if blockType = "text" then
    some (.text (strOr block "text") (((block.get "citations").bind asArray).getD []))
  else if blockType = "thinking" then
    some (.thinking (strOr block "thinking") (strField block "signature"))
  else if blockType = "redacted_thinking" then some (.redactedThinking (strOr block "data"))
  else if blockType = "image" then (block.get "source").map .image
  else if isAnthropicToolUseLike blockType then
    (block.get "input").map fun input =>
      .toolUse blockType (strOr block "id") (strOr block "name") input (block.get "caller")
  else if isAnthropicToolResultLike blockType then
    some (.toolResult blockType (strOr block "tool_use_id") (block.get "content")
      (((block.get "is_error").bind asBool).getD false) (block.get "caller"))
  else none

/-- What of a block is compared: the citations by their fields. -/
inductive View
  | text (value : String) (citations : List (String → Option Json))
  | other (block : AnthropicBlock)

def view : AnthropicBlock → View
  | text value citations => .text value (citations.map Json.get)
  | block => .other block

end AnthropicBlock

/-- A text before merged blocks. -/
def consText (value : String) (citations : List Json) : List AnthropicBlock → List AnthropicBlock
  | .text more moreCitations :: rest => .text (value ++ more) (citations ++ moreCitations) :: rest
  | merged => .text value citations :: merged

/-- Merges the adjacent texts. -/
def mergeTexts : List AnthropicBlock → List AnthropicBlock
  | [] => []
  | .text value citations :: blocks => consText value citations (mergeTexts blocks)
  | block :: blocks => block :: mergeTexts blocks

/-- The content blocks of a response. -/
def contentOf (response : Json) : Option (List AnthropicBlock) :=
  ((response.get "content").bind asArray).bind fun blocks => blocks.mapM AnthropicBlock.read

end Conduit.Transformers.AnthropicResponse
