import Conduit.Transformers.Request

/-!
# Gemini requests

`parse_gemini_contents_to_llm_request` and `build_gemini_outbound_body`. The
parser takes texts, inline data, tools and the calling mode; function calls and
responses and the generation config stay behind in the extra fields. The
builder writes the functions of all tools into one entry.
-/

namespace Conduit.Transformers.Gemini

open Base Base.Json

/-! ## Requests -/

structure GeminiBlob where
  mimeType : String := ""
  data : String := ""
deriving DecidableEq

/-- Function calls and responses are extra fields. -/
structure GeminiPart where
  text : String := ""
  inlineData : Option GeminiBlob := none
  extra : ExtensionMap := []

structure GeminiContent where
  parts : List GeminiPart := []
  role : String := ""

structure GeminiGenerateContentRequest where
  contents : List GeminiContent := []
  systemInstruction : Option GeminiContent := none
  extra : ExtensionMap := []

structure GeminiAction where
  model : String
  stream : Bool

/-! ## Contents -/

def geminiRoleToLlmRole (role : String) : String :=
  if role = "model" then "assistant" else if role = "" ∨ role = "user" then "user" else role

def extractTextFromContent (content : Option GeminiContent) : String :=
  "\n".intercalate
    ((content.elim [] GeminiContent.parts).filterMap fun part =>
      if part.text = "" then none else some part.text)

def buildDataUrl (mimeType data : String) : String := "data:" ++ mimeType ++ ";base64," ++ data

def textPart (text : String) : ContentPart := { partType := "text", text := some text }

def blobPart (blob : GeminiBlob) : ContentPart :=
  { partType := "image_url"
    imageUrl := some (.object [("url", .string (buildDataUrl blob.mimeType blob.data))]) }

def buildContentParts (content : GeminiContent) : List ContentPart :=
  content.parts.flatMap fun part =>
    (if part.text = "" then [] else [textPart part.text]) ++
      (part.inlineData.map blobPart).toList

def collapseParts : List ContentPart → Option MessageContent
  | [] => none
  | [part] =>
      if part.partType = "text" then some (.text (part.text.getD "")) else some (.parts [part])
  | parts => some (.parts parts)

/-- A content that has nothing to say is left out. -/
def contentMessage (content : GeminiContent) : Option ChatMessage :=
  (collapseParts (buildContentParts content)).map fun messageContent =>
    { role := geminiRoleToLlmRole content.role, content := some messageContent }

def systemMessage (request : GeminiGenerateContentRequest) : List ChatMessage :=
  let text := extractTextFromContent request.systemInstruction
  if text = "" then [] else [{ role := "system", content := some (.text text) }]

/-! ## Tools -/

/-- A field that is there and not null. -/
def nonNullField (value : Json) (name : String) : Option Json :=
  (value.get name).filter fun value => !value.isNull

/-- The private mark that a newer schema gets is left out: nothing reads it. -/
def functionTool (declaration : Json) : UnifiedTool :=
  { toolType := "function"
    name := declaration.strField "name"
    description := declaration.strField "description"
    parameters := (nonNullField declaration "parameters").or
      (nonNullField declaration "parametersJsonSchema") }

def nativeTool (tool : Json) (name toolType : String) : List UnifiedTool :=
  if (tool.get name).isSome then [{ toolType := toolType }] else []

/-- The tools of one entry. -/
def parseGeminiTool (tool : Json) : List UnifiedTool :=
  (((tool.get "functionDeclarations").bind asArray).getD []).map functionTool ++
    nativeTool tool "googleSearch" "google_search" ++
    nativeTool tool "codeExecution" "google_code_execution" ++
    nativeTool tool "urlContext" "google_url_context"

def rawTools (extra : ExtensionMap) : List Json := ((field extra "tools").bind asArray).getD []

def parseGeminiTools (extra : ExtensionMap) : List UnifiedTool :=
  (rawTools extra).flatMap parseGeminiTool

def callingConfig (extra : ExtensionMap) : Option Json :=
  (field extra "toolConfig").bind (·.get "functionCallingConfig")

def modeOf (config : Json) : String := (config.strField "mode").getD ""

def allowedNames (config : Json) : List String :=
  (((config.get "allowedFunctionNames").bind asArray).getD []).filterMap asStr

def toolChoiceOf (config : Json) : Json :=
  if modeOf config = "AUTO" then .string "auto"
  else if modeOf config = "NONE" then .string "none"
  else if modeOf config = "ANY" then
    match allowedNames config with
    | [name] =>
        .object [("type", .string "function"), ("function", .object [("name", .string name)])]
    | _ => .string "required"
  else .string "auto"

def parseGeminiToolConfig (extra : ExtensionMap) : Option Json :=
  (callingConfig extra).map toolChoiceOf

def parseGeminiContentsToLlmRequest (request : GeminiGenerateContentRequest) (action : GeminiAction) :
    Except String LlmRequest :=
  if request.contents.isEmpty then .error "contents are required"
  else
    .ok {
      requestType := .chat
      apiFormat := .geminiContents
      model := some action.model
      stream := action.stream
      payload := .chat {
        messages := systemMessage request ++ request.contents.filterMap contentMessage
        tools := parseGeminiTools request.extra
        toolChoice := parseGeminiToolConfig request.extra } }

/-! ## Parts of the body -/

def llmRoleToGeminiRole (role : String) : String :=
  if role = "assistant" then "model" else if role = "developer" then "user" else role

def geminiTextPart (text : String) : Json := .object [("text", .string text)]

def convertImageUrlToGeminiPart (url : String) : Json :=
  match if Text.startsWith url "data:" then
      Text.splitOnce "," (String.ofList (url.toList.drop 5)) else none with
  | some (header, data) =>
      let mimeType := String.ofList (header.toList.takeWhile (· != ';'))
      .object [("inlineData", .object (nonEmptyField "mimeType" mimeType ++ [("data", .string data)]))]
  | none => .object [("fileData", .object [("fileUri", .string url)])]

def nonEmptyText (text : String) : List Json := if text = "" then [] else [geminiTextPart text]

def contentPartJson (part : ContentPart) : List Json :=
  if part.partType = "text" then part.text.elim [] nonEmptyText
  else if part.partType = "image_url" then
    ((((part.imageUrl.bind (·.get "url")).bind asStr).filter (· ≠ "")).map
      convertImageUrlToGeminiPart).toList
  else []

def thoughtPart (message : ChatMessage) : List Json :=
  ((((field message.extra "reasoning_content").bind asStr).filter (· ≠ "")).map fun reasoning =>
    Json.object [("text", .string reasoning), ("thought", .bool true)]).toList

def bodyParts (content : Option MessageContent) : List Json :=
  match content with
  | some (.text text) => nonEmptyText text
  | some (.parts parts) => parts.flatMap contentPartJson
  | _ => []

def buildGeminiPartsFromMessage (message : ChatMessage) : List Json :=
  thoughtPart message ++ bodyParts message.content

/-! ## Tool results -/

section ToolResults

-- the third-party parser of JSON texts
variable (parseText : String → Option Json)

def toolResponse (content : Option MessageContent) : Json :=
  match content with
  | some (.text text) =>
      if text = "" then .object []
      else
        match parseText text with
        | some (.object fields) => .object fields
        | _ => .object [("result", .string text)]
  | _ => .object []

def functionResponsePart (message : ChatMessage) : Json :=
  .object [("functionResponse", .object
    (nonEmptyField "id" (message.toolCallId.getD "") ++
      nonEmptyField "name" (((field message.extra "tool_call_name").bind asStr).getD "") ++
      [("response", toolResponse parseText message.content)]))]

def contentJson (role : String) (parts : List Json) : Json :=
  .object [("role", .string role), ("parts", .array parts)]

def isToolResponse (content : Json) : Bool :=
  content.strField "role" = some "user" ∧
    ((((content.get "parts").bind asArray).bind List.head?).bind (·.get "functionResponse")).isSome

/-- A further result joins the content before it if that holds results. -/
def addToolResponse (contents : List Json) (message : ChatMessage) : List Json :=
  match contents.getLast? with
  | some last =>
      if isToolResponse last then
        contents.dropLast ++ [contentJson "user"
          (((last.get "parts").bind asArray).getD [] ++ [functionResponsePart parseText message])]
      else contents ++ [contentJson "user" [functionResponsePart parseText message]]
  | none => [contentJson "user" [functionResponsePart parseText message]]

/-- The contents and the parts of the system instruction so far. -/
structure Written where
  contents : List Json := []
  systemParts : List Json := []

def writeMessage (written : Written) (message : ChatMessage) : Written :=
  if message.role = "system" ∨ message.role = "developer" then
    { written with systemParts := written.systemParts ++ buildGeminiPartsFromMessage message }
  else if message.role = "tool" then
    { written with contents := addToolResponse parseText written.contents message }
  else
    let parts := buildGeminiPartsFromMessage message
    if parts.isEmpty then written
    else
      { written with
        contents := written.contents ++ [contentJson (llmRoleToGeminiRole message.role) parts] }

end ToolResults

/-! ## Settings -/

/-- A number of the chat as JSON. -/
def maxTokensJson (maxTokens : UInt32) : Json := .int (.ofNat maxTokens.toNat)

def stopSequences (stop : Json) : List Json :=
  match stop with
  | .string text => [.string text]
  | .array values => values
  | _ => []

def buildGeminiGenerationConfig (chat : ChatRequest) : ExtensionMap :=
  optionalField "maxOutputTokens" (chat.maxTokens.map maxTokensJson) ++
    optionalField "temperature" chat.temperature ++
    optionalField "topP" chat.topP ++
    optionalField "presencePenalty" (field chat.extra "presence_penalty") ++
    optionalField "frequencyPenalty" (field chat.extra "frequency_penalty") ++
    optionalField "seed" (field chat.extra "seed") ++
    nonEmptyList "stopSequences" (chat.stop.elim [] stopSequences)

/-- The schema is always written as a JSON schema. -/
def functionDeclaration (tool : UnifiedTool) : Json :=
  let schema := ((field tool.extra "parametersJsonSchema").filter fun value => !value.isNull).or
    (tool.parameters.filter fun value => !value.isNull)
  .object (nonEmptyField "name" (tool.name.getD "") ++
    nonEmptyField "description" (tool.description.getD "") ++
    optionalField "parametersJsonSchema" schema)

def nativeEntry (tool : UnifiedTool) : Option Json :=
  if tool.toolType = "google_search" ∨ tool.toolType = "web_search" then
    some (.object [("googleSearch", .object [])])
  else if tool.toolType = "google_code_execution" then
    some (.object [("codeExecution", .object [])])
  else if tool.toolType = "google_url_context" then some (.object [("urlContext", .object [])])
  else none

/-- The functions first, in one entry. -/
def buildGeminiTools (tools : List UnifiedTool) : List Json :=
  let declarations := (tools.filter fun tool => tool.toolType = "function").map functionDeclaration
  (if declarations.isEmpty then [] else [.object [("functionDeclarations", .array declarations)]]) ++
    tools.filterMap nativeEntry

def modeName (choice : String) : String :=
  if choice = "auto" then "AUTO" else if choice = "none" then "NONE"
  else if choice = "required" then "ANY" else "AUTO"

def functionCallingConfig (toolChoice : Json) : Json :=
  match toolChoice with
  | .string choice => .object [("mode", .string (modeName choice))]
  | .object fields =>
      .object ([("mode", .string "ANY")] ++
        optionalField "allowedFunctionNames"
          (((((field fields "function").bind (·.get "name")).bind asStr).filter (· ≠ "")).map
            fun name => .array [.string name]))
  | _ => .object [("mode", .string "AUTO")]

def buildGeminiToolConfig (toolChoice : Json) : Json :=
  .object [("functionCallingConfig", functionCallingConfig toolChoice)]

/-! ## The body -/

/-- An object that is written only if it has a field. -/
def nonEmptyObject (name : String) (fields : ExtensionMap) : ExtensionMap :=
  if fields.isEmpty then [] else [(name, .object fields)]

def buildGeminiOutboundBody (parseText : String → Option Json) (request : LlmRequest) :
    Except String ExtensionMap :=
  match request.payload with
  | .chat chat =>
      if request.model.getD "" = "" then .error "model is required"
      else if chat.messages.isEmpty then .error "messages are required"
      else
        let written := chat.messages.foldl (writeMessage parseText) {}
        .ok (nonEmptyObject "generationConfig" (buildGeminiGenerationConfig chat) ++
          nonEmptyObject "systemInstruction" (nonEmptyList "parts" written.systemParts) ++
          [("contents", .array written.contents)] ++
          nonEmptyList "tools" (buildGeminiTools chat.tools) ++
          optionalField "toolConfig" (chat.toolChoice.map buildGeminiToolConfig))
  | _ => .error "gemini outbound only supports chat payloads"

end Conduit.Transformers.Gemini
