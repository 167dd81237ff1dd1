import Conduit.Transformers.ResponsesRequest

/-!
# Settings of a chat and of a Responses request

What a client sets, read from the body of a chat completion and from the body of
a Responses request. `null` sets nothing. A schema is nested in the format of a
chat and lies in the format of a Responses request; a function lies in the tool
of a Responses request.
-/

namespace Conduit.Transformers.ChatSettings

open Base Base.Json ResponsesRequest

/-! ## Settings -/

inductive ToolChoice
  | mode (name : String)
  | tool (type name : String)
  | other (value : Json)

inductive ToolSetting
  | function (name description parameters strict : Option Json)
  | hosted

@[ext]
structure FormatSetting where
  type : String
  name : Option Json := none
  description : Option Json := none
  schema : Option Json := none
  strict : Option Json := none

@[ext]
structure Settings where
  temperature : Option Json
  topP : Option Json
  maxOutputTokens : Option Json
  toolChoice : Option ToolChoice
  format : Option FormatSetting
  effort : Option Json
  tools : List ToolSetting
  includeObfuscation : Option Json
  parallelToolCalls : Option Json
  copied : List (Option Json)

/-- What is not `null`. -/
def nonNull (value : Option Json) : Option Json := value.filter fun value => !value.isNull

def setting (fields : ExtensionMap) (name : String) : Option Json := nonNull (field fields name)

def typeOf (fields : ExtensionMap) : Option String := (field fields "type").bind asStr

/-- The copied settings, apart from that of the tools. -/
def otherCopied : List String := copiedKeys.filter (· ≠ "parallel_tool_calls")

/-! ## Of a chat -/

/-- The name of a tool that is chosen, itself or below `function`. -/
def chosenName (fields : ExtensionMap) : Option String :=
  ((field fields "name").bind asStr).or
    ((field fields "function").bind fun function => function.strField "name")

/-- A choice names a mode, or a tool below its type. -/
def chatToolChoice (value : Json) : ToolChoice :=
  match value with
  | .string mode => .mode mode
  | .object fields =>
      match typeOf fields with
      | none => .other value
      | some type =>
          match (chosenName fields).or ((field fields type).bind (·.strField "name")) with
          | some name => .tool type name
          | none => if fields.all (·.1 = "type") then .mode type else .other value
  | _ => .other value

/-- The schema of a format. -/
def schemaOf (format : ExtensionMap) : ExtensionMap :=
  ((field format "json_schema").bind asObject).getD format

def chatFormat (value : Json) : Option FormatSetting :=
  value.asObject.map fun format =>
    let type := (typeOf format).getD "text"
    if type = "json_schema" then
      { type := type
        name := setting (schemaOf format) "name"
        description := setting (schemaOf format) "description"
        schema := setting (schemaOf format) "schema"
        strict := setting (schemaOf format) "strict" }
    else { type := type }

/-- A field of a tool, below `function` or beside it. -/
def toolField (tool : Json) (name : String) : Option Json :=
  ((tool.get "function").bind (·.get name)).or (tool.get name)

def hostedTypes : List String :=
  ["web_search", "web_search_preview", "image_generation", "responses_custom_tool"]

def chatTool (tool : Json) : Option ToolSetting :=
  if tool.strField "type" = some "function" then
    some (.function (nonNull (toolField tool "name")) (nonNull (toolField tool "description"))
      (nonNull (toolField tool "parameters")) (nonNull (toolField tool "strict")))
  else if ∃ type ∈ hostedTypes, tool.strField "type" = some type then some .hosted
  else none

def rawTools (body : ExtensionMap) : List Json := ((field body "tools").bind asArray).getD []

def chatSettings (body : ExtensionMap) : Settings where
  temperature := setting body "temperature"
  topP := setting body "top_p"
  maxOutputTokens := (setting body "max_completion_tokens").or (setting body "max_tokens")
  toolChoice := (setting body "tool_choice").map chatToolChoice
  format := (setting body "response_format").bind chatFormat
  effort := setting body "reasoning_effort"
  tools := (rawTools body).filterMap chatTool
  includeObfuscation :=
    nonNull ((setting body "stream_options").bind (·.get "include_obfuscation"))
  parallelToolCalls := setting body "parallel_tool_calls"
  copied := otherCopied.map (setting body)

/-! ## Of a Responses request -/

def responsesToolChoice (value : Json) : ToolChoice :=
  match value with
  | .string mode => .mode mode
  | .object fields =>
      match typeOf fields, (field fields "name").bind asStr with
      | some type, some name => .tool type name
      | _, _ => .other value
  | _ => .other value

def responsesFormat (text : Json) : Option FormatSetting :=
  ((text.get "format").bind asObject).map fun format =>
    { type := (typeOf format).getD "text"
      name := setting format "name"
      description := setting format "description"
      schema := setting format "schema"
      strict := setting format "strict" }

def responsesTool (tool : Json) : ToolSetting :=
  if tool.strField "type" = some "function" then
    .function (nonNull (tool.get "name")) (nonNull (tool.get "description"))
      (nonNull (tool.get "parameters")) (nonNull (tool.get "strict"))
  else .hosted

def responsesSettings (body : ExtensionMap) : Settings where
  temperature := setting body "temperature"
  topP := setting body "top_p"
  maxOutputTokens := setting body "max_output_tokens"
  toolChoice := (setting body "tool_choice").map responsesToolChoice
  format := (setting body "text").bind responsesFormat
  effort := nonNull ((setting body "reasoning").bind (·.get "effort"))
  tools := (rawTools body).map responsesTool
  includeObfuscation :=
    nonNull ((setting body "stream_options").bind (·.get "include_obfuscation"))
  parallelToolCalls := setting body "parallel_tool_calls"
  copied := otherCopied.map (setting body)

/-- The fields of a Responses request. -/
def responsesFields : List String :=
  ["model", "input", "instructions", "tools", "stream", "text", "max_output_tokens", "top_p",
    "tool_choice", "reasoning", "stream_options"] ++ copiedKeys

/-- Every setting is carried, and nothing else. -/
structure KeepsSettings (body out : ExtensionMap) : Prop where
  settings : responsesSettings out = chatSettings body
  fields : ∀ name, (field out name).isSome = true → name ∈ responsesFields

/-! ## What is kept -/

/-- A mode, or a tool whose name lies beside its type or below `function`. -/
def ChoiceKept (value : Json) : Prop :=
  (∃ mode, value = .string mode) ∨
    ∃ fields type, value = .object fields ∧ typeOf fields = some type ∧
      ((chosenName fields).isSome = true ∨ fields.all (·.1 = "type") = true)

/-- The schema lies in the format itself, with fields of their types. -/
structure SchemaOnTop (format : ExtensionMap) : Prop where
  name : ((field format "name").bind asStr).map Json.string = setting (schemaOf format) "name"
  description : ((field format "description").bind asStr).map Json.string =
    setting (schemaOf format) "description"
  schema : setting format "schema" = setting (schemaOf format) "schema"
  strict : ((field format "strict").bind asBool).map Json.bool = setting (schemaOf format) "strict"

def FormatKept (value : Json) : Prop :=
  ∀ format, value = .object format → typeOf format = some "json_schema" → SchemaOnTop format

/-- A function is strict or not, and an image tool is not made a function. -/
structure ToolKept (tool : Json) : Prop where
  strict : tool.strField "type" = some "function" →
    ∀ value, nonNull (toolField tool "strict") = some value → ∃ b, value = .bool b
  image : tool.strField "type" = some "image_generation" → ∀ config,
    toolField tool "image_generation" = some (.object config) →
      field config.reverse "type" ≠ some (.string "function")

/-- No temperature, no `null` over a token limit, no nested schema, no parallel
calls without a tool. -/
structure SettingsKept (body : ExtensionMap) : Prop where
  temperature : setting body "temperature" = none
  tokens : field body "max_completion_tokens" = some .null → setting body "max_tokens" = none
  toolChoice : ∀ value, setting body "tool_choice" = some value → ChoiceKept value
  format : ∀ value, setting body "response_format" = some value → FormatKept value
  tools : ∀ tool ∈ rawTools body, ToolKept tool
  /-- Without a tool that is carried, `parallel_tool_calls` is dropped. -/
  parallel : (rawTools body).filterMap chatTool = [] → setting body "parallel_tool_calls" = none

end Conduit.Transformers.ChatSettings
