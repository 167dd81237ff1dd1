import Conduit.Transformers.OpenAiRequest

/-!
# Chat requests for the Responses API

`build_chat_responses_request_body`: the messages become the input and the
instructions, the settings the fields of the same meaning. Audio parts are left
out, as in the unified messages.
-/

namespace Conduit.Transformers

open Base Base.Json

namespace ResponsesRequest

/-! ## Instructions -/

def nonEmpty (text : String) : List String := if text = "" then [] else [text]

def collectInstructionValue (value : Json) : List String :=
  match value with
  | .string text => nonEmpty text
  | .array parts => parts.flatMap fun part => (part.strField "text").elim [] nonEmpty
  | _ => []

/-- The texts of the parts of type `text`. -/
def partTexts (parts : List ContentPart) : List String :=
  (parts.filter fun part => part.partType = "text").filterMap (·.text)

def collectMessageText (content : Option MessageContent) : List String :=
  match content with
  | some (.text text) => nonEmpty text
  | some (.parts parts) => nonEmpty ("\n".intercalate (partTexts parts))
  | some (.json (.string text)) => nonEmpty text
  | _ => []

def convertChatInstructions (chat : ChatRequest) : String :=
  "\n".intercalate
    ((field chat.extra "system").elim [] collectInstructionValue ++
      (chat.messages.filter fun message => message.role = "system").flatMap fun message =>
        collectMessageText message.content)

/-! ## Input -/

def inputText (text : String) : Json := .object [("type", .string "input_text"), ("text", .string text)]

def outputText (text : String) : Json :=
  .object [("type", .string "output_text"), ("text", .string text)]

def inputImage (image : Json) : Json :=
  .object ([("type", .string "input_image"), ("image_url", (image.get "url").getD image)] ++
    optionalField "detail" (image.get "detail"))

def inputContentPart (part : ContentPart) : Option Json :=
  if part.partType = "text" then part.text.map inputText
  else if part.partType = "image_url" then part.imageUrl.map inputImage
  else none

/-- A content that is neither text nor parts, as a text. -/
def jsonText : Json → String
  | .string text => text
  | value => value.render

def inputContentParts (content : Option MessageContent) : List Json :=
  match content with
  | some (.text text) => [inputText text]
  | some (.parts parts) => parts.filterMap inputContentPart
  | some (.json value) => [inputText (jsonText value)]
  | none => []

def convertUserMessageToResponses (message : ChatMessage) : Json :=
  .object [("type", .string "message"),
    ("role", .string (if message.role = "developer" then "developer" else "user")),
    ("content", .array (inputContentParts message.content))]

/-- A string of the message's extra fields, unless it is empty. -/
def extraStr (message : ChatMessage) (name : String) : Option String :=
  ((field message.extra name).bind asStr).filter (· ≠ "")

def reasoningItem (message : ChatMessage) : Option Json :=
  ((((field message.extra "reasoning_signature").or (field message.extra "encrypted_content")).bind
      asStr).filter (· ≠ "")).map fun encryptedContent =>
    .object [("type", .string "reasoning"), ("encrypted_content", .string encryptedContent),
      ("summary", .array ((extraStr message "reasoning_content").toList.map fun text =>
        .object [("type", .string "summary_text"), ("text", .string text)]))]

def outputParts (content : Option MessageContent) : List Json :=
  match content with
  | some (.text text) => [outputText text]
  | some (.parts parts) => (partTexts parts).map outputText
  | some (.json value) => [outputText (jsonText value)]
  | none => []

def outputItem (message : ChatMessage) : List Json :=
  let content := outputParts message.content
  if content.isEmpty then []
  else
    [.object [("type", .string "message"), ("role", .string "assistant"),
      ("status", .string "completed"), ("content", .array content)]]

/-- The custom payload is looked up as `response_custom_tool`. -/
def customToolCallItem (toolCall : ToolCall) : Json :=
  let custom := field toolCall.extra "response_custom_tool"
  let part := fun (name : String) => custom.bind fun custom => custom.strField name
  .object [("type", .string "custom_tool_call"),
    ("call_id", .string (((part "call_id").or toolCall.id).getD "")),
    ("name", .string ((part "name").getD "")), ("input", .string ((part "input").getD ""))]

def functionCallItem (toolCall : ToolCall) : Json :=
  .object
    ([("type", .string "function_call"), ("call_id", .string (toolCall.id.getD "")),
      ("name", .string toolCall.functionName)] ++
      optionalField "namespace" (toolCall.function.get "namespace") ++
      [("arguments", .string ((toolCall.function.get "arguments").elim "" jsonText))])

def convertAssistantMessageToResponses (message : ChatMessage) : List Json :=
  (reasoningItem message).toList ++ outputItem message ++
    message.toolCalls.map fun toolCall =>
      if toolCall.callType = "responses_custom_tool" then customToolCallItem toolCall
      else functionCallItem toolCall

/-- The type of the output that answers a call. -/
def toolResultType (item : Json) : Option (String × String) :=
  (item.strField "call_id").bind fun callId =>
    if item.strField "type" = some "custom_tool_call" then some (callId, "custom_tool_call_output")
    else if item.strField "type" = some "function_call" then some (callId, "function_call_output")
    else none

def toolOutputFromContent (content : Option MessageContent) : Json :=
  match content with
  | some (.text text) => .string text
  | some (.parts parts) => .array ((partTexts parts).map inputText)
  | some (.json value) => value
  | none => .string ""

/-- The last call of an id says how its output is typed. -/
def toolOutputItem (resultTypes : List (String × String)) (message : ChatMessage) : Json :=
  let callId := message.toolCallId.getD ""
  .object [("type", .string ((resultTypes.lookup callId).getD "function_call_output")),
    ("call_id", .string callId), ("output", toolOutputFromContent message.content)]

def convertMessages (resultTypes : List (String × String)) : List ChatMessage → List Json
  | [] => []
  | message :: messages =>
      if message.role = "user" ∨ message.role = "developer" then
        convertUserMessageToResponses message :: convertMessages resultTypes messages
      else if message.role = "assistant" ∨ message.role = "model" then
        let items := convertAssistantMessageToResponses message
        items ++ convertMessages ((items.filterMap toolResultType).reverse ++ resultTypes) messages
      else if message.role = "tool" then
        toolOutputItem resultTypes message :: convertMessages resultTypes messages
      else convertMessages resultTypes messages

def convertChatMessagesToResponsesInput (chat : ChatRequest) : Json :=
  match chat.messages with
  | [{ role := role, content := some (.text text), .. }] =>
      if role = "system" then .array (convertMessages [] chat.messages) else .string text
  | messages => .array (convertMessages [] messages)

/-! ## Tools -/

/-- The extra fields of a function tool that are not written yet. -/
def otherExtra (written extra : ExtensionMap) : ExtensionMap :=
  extra.filter fun entry => (field written entry.1).isNone ∧ entry.1 ≠ "strict"

def convertFunctionTool (tool : UnifiedTool) : Json :=
  let written :=
    [("type", .string "function")] ++ optionalField "name" (tool.name.map .string) ++
      optionalField "description" (tool.description.map .string) ++
      optionalField "parameters" tool.parameters ++
      optionalField "strict" (((field tool.extra "strict").bind asBool).map .bool)
  .object (written ++ otherExtra written tool.extra)

def userLocation (location : ExtensionMap) : Json :=
  let part := fun (name : String) => optionalField name (((field location name).bind asStr).map .string)
  .object ([("type", .string (((field location "type").bind asStr).getD "approximate"))] ++
    part "city" ++ part "country" ++ part "region" ++ part "timezone")

def convertWebSearchTool (tool : UnifiedTool) : Json :=
  let webSearch := field tool.extra "web_search"
  let domains := (((webSearch.bind (·.get "allowed_domains")).bind asArray).getD []).filterMap asStr
  let location := (webSearch.bind (·.get "user_location")).bind asObject
  .object ([("type", .string "web_search")] ++
    (if domains.isEmpty then []
      else [("filters", .object [("allowed_domains", .array (domains.map .string))])]) ++
    optionalField "user_location" (location.map userLocation))

/-- The configuration is copied over the type. -/
def convertImageGenerationTool (tool : UnifiedTool) : Json :=
  let config := ((field tool.extra "image_generation").bind asObject).getD []
  .object (config.foldl (fun fields entry => insert entry.1 entry.2 fields)
    [("type", .string "image_generation")])

def convertCustomTool (tool : UnifiedTool) : Json :=
  .object ([("type", .string "custom")] ++ optionalField "name" (tool.name.map .string) ++
    optionalField "description" (tool.description.map .string) ++
    optionalField "format" (field tool.extra "format"))

/-- A tool of another type is dropped. -/
def convertToolForResponses (tool : UnifiedTool) : Option Json :=
  if tool.toolType = "function" then some (convertFunctionTool tool)
  else if tool.toolType = "web_search" ∨ tool.toolType = "web_search_preview" then
    some (convertWebSearchTool tool)
  else if tool.toolType = "image_generation" then some (convertImageGenerationTool tool)
  else if tool.toolType = "responses_custom_tool" then some (convertCustomTool tool)
  else none

/-- Both callers come without an image request. -/
def convertToolsForResponses (tools : List UnifiedTool) : List Json :=
  tools.filterMap convertToolForResponses

/-! ## Settings -/

def convertToolChoice (choice : Json) : Option Json :=
  match choice with
  | .string mode => some (.string mode)
  | .object fields =>
      ((field fields "type").bind asStr).map fun choiceType =>
        match ((field fields "name").bind asStr).or
            ((field fields "function").bind fun function => function.strField "name") with
        | some name => .object [("type", .string choiceType), ("name", .string name)]
        | none => .string choiceType
  | _ => none

/-- The fields of a schema are those of the format itself. -/
def textFormat (format : ExtensionMap) : Json :=
  let formatType := ((field format "type").bind asStr).getD "text"
  .object ([("type", .string formatType)] ++
    if formatType = "json_schema" then
      optionalField "name" (((field format "name").bind asStr).map .string) ++
        optionalField "description" (((field format "description").bind asStr).map .string) ++
        optionalField "schema" (field format "schema") ++
        optionalField "strict" (((field format "strict").bind asBool).map .bool)
    else [])

def buildTextOptions (responseFormat : Json) : Json :=
  .object (optionalField "format" (responseFormat.asObject.map textFormat))

/-- The settings that keep their names. -/
def copiedKeys : List String :=
  ["parallel_tool_calls", "store", "service_tier", "safety_identifier", "user", "metadata",
    "top_logprobs", "prompt_cache_key", "previous_response_id", "include", "max_tool_calls",
    "prompt_cache_retention", "truncation"]

def copiedFields (extra : ExtensionMap) : ExtensionMap :=
  copiedKeys.flatMap fun key => optionalField key (field extra key)

/-- `max_completion_tokens`, else `max_tokens`. -/
def maxOutputTokens (chat : ChatRequest) : Option Json :=
  (field chat.extra "max_completion_tokens").or
    (chat.maxTokens.map fun maxTokens => .int (.ofNat maxTokens.toNat))

/-- The fields with their own names. -/
def typedFields (model : String) (stream : Bool) (chat : ChatRequest) : ExtensionMap :=
  [("model", .string model), ("input", convertChatMessagesToResponsesInput chat)] ++
    nonEmptyField "instructions" (convertChatInstructions chat) ++
    nonEmptyList "tools" (convertToolsForResponses chat.tools) ++
    [("stream", .bool stream)] ++
    optionalField "text" (chat.responseFormat.map buildTextOptions) ++
    optionalField "max_output_tokens" (maxOutputTokens chat) ++
    optionalField "top_p" chat.topP ++
    optionalField "tool_choice" (chat.toolChoice.bind convertToolChoice) ++
    optionalField "reasoning"
      (chat.reasoningEffort.map fun effort => .object [("effort", .string effort)]) ++
    optionalField "stream_options" ((chat.streamOptions.bind (·.get "include_obfuscation")).map
      fun includeObfuscation => .object [("include_obfuscation", includeObfuscation)])

def buildChatResponsesRequestBody (model : String) (stream : Bool) (chat : ChatRequest) :
    Except String ExtensionMap :=
  if chat.messages.isEmpty then .error "messages are required for Responses API"
  else
    let body := mergeKeys (typedFields model stream chat) (copiedFields chat.extra)
    .ok (if (field body "tools").isNone then remove "parallel_tool_calls" body else body)

end ResponsesRequest

end Conduit.Transformers
