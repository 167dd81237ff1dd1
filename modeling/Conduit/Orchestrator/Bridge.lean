import Conduit.Base.Json
import Conduit.Orchestrator.Selection

/-!
# The bridge

`build_candidate_request` turns the unified request into the selector's. The
profiles of project and key come out of the request's metadata: what is missing
there reads as an empty list. The model is the one the client asked for; only
the pipeline splits a reasoning effort off its name.
-/

namespace Conduit.Orchestrator

open Base Base.Text

/-! ## The unified request -/

inductive OpenAiRoute
  | chatCompletions
  | responses
  | anthropicMessages
  | anthropicCountTokens
  | geminiGenerateContent
  | embeddings
  | audioSpeech
  | videos
  | imageGenerations
  | completions
  | responsesCompact
  | jinaRerank
  | jinaEmbeddings
  | doubaoCreateTask
deriving DecidableEq, Repr

/-- Whether the inbound transformer of a route takes the metadata over
(`llm_request.metadata = request.metadata`). Gemini's starts from an empty map. -/
def OpenAiRoute.carriesMetadata : OpenAiRoute → Bool
  | .geminiGenerateContent => false
  | _ => true

/-- What selection sees of a client's request besides the metadata; messages
and tools as `candidate_message` and `candidate_tool` read them. -/
structure RequestContent where
  model : Option String
  requestType : RequestType
  apiFormat : String
  stream : Bool
  messages : List RequestMessage
  tools : List RequestTool
  isImageRequest : Bool
deriving DecidableEq, Repr

structure LlmRequest extends RequestContent where
  metadata : List (String × Json)

/-- `inbound_request`. -/
def inboundRequest (route : OpenAiRoute) (metadata : List (String × Json))
    (content : RequestContent) : LlmRequest where
  toRequestContent := content
  metadata := if route.carriesMetadata then metadata else []

/-! ## Reading the metadata -/

/-- A value of the channel list of a model: strings and numbers count. -/
def channelText : Json → Option String
  | .string value => some value
  | .int value => some (toString value)
  | .decimal text => some text
  | _ => none

def metadataModelChannelList (metadata : List (String × Json)) (key model : String) :
    Option (List String) :=
  (Json.field metadata key).bind fun models =>
    models.asObject.bind fun models =>
      (Json.field models model).bind fun values =>
        values.asArray.map fun values => values.filterMap channelText

def metadataString (metadata : List (String × Json)) (key : String) : String :=
  ((Json.field metadata key).bind Json.asStr).getD ""

/-- Strings and numbers that fit an `i64`. -/
def metadataStringList (metadata : List (String × Json)) (key : String) : List String :=
  (((Json.field metadata key).bind Json.asArray).getD []).filterMap fun value =>
    value.asStr <|> value.asI64.map toString

def buildCandidateRequest (llmRequest : LlmRequest) : ProfiledRequest :=
  let model := llmRequest.model.getD ""
  { model
    stream := llmRequest.stream
    apiFormat := llmRequest.apiFormat
    requestType := llmRequest.requestType
    messages := llmRequest.messages
    tools := llmRequest.tools
    isImageRequest := llmRequest.isImageRequest
    projectChannelIds :=
      (metadataModelChannelList llmRequest.metadata "project_channels_by_model" model).getD
        (metadataStringList llmRequest.metadata "project_channel_ids")
    projectChannelTags := metadataStringList llmRequest.metadata "project_channel_tags"
    projectChannelTagsMatchMode :=
      metadataString llmRequest.metadata "project_channel_tags_match_mode"
    keyChannelIds := metadataStringList llmRequest.metadata "api_key_channel_ids"
    keyChannelTags := metadataStringList llmRequest.metadata "api_key_channel_tags"
    keyChannelTagsMatchMode :=
      metadataString llmRequest.metadata "api_key_channel_tags_match_mode" }

/-! ## Reasoning efforts in model names -/

namespace AutoReasoningEffort

def supportedEfforts : List String := ["max", "xhigh", "high", "medium", "low"]

/-- What is before and after the last occurrence of a character. -/
def splitAtLast (c : Char) (text : List Char) : Option (List Char × List Char) :=
  (splitAtFirst [c] text.reverse).map fun parts => (parts.2.reverse, parts.1.reverse)

def isQwenMaxModel (model : String) : Bool :=
  let normalized := (trimmed model).map Char.toLower
  let afterSlash := ((splitAtLast '/' normalized).map Prod.snd).getD normalized
  "-max".toList.isSuffixOf normalized && "qwen".toList.isPrefixOf afterSlash

def splitAutoReasoningEffortModel (model : String) : Option (String × String) :=
  match splitAtLast '-' model.toList with
  | none => none
  | some (base, effort) =>
      let effortLower := String.ofList (effort.map Char.toLower)
      if base = [] ∨ effort = [] then none
      else if !supportedEfforts.contains effortLower then none
      else if effortLower = "max" && isQwenMaxModel model then none
      else some (String.ofList base, String.ofList effort)

example : splitAutoReasoningEffortModel "gpt-4o-high" = some ("gpt-4o", "high") := by decide

example : splitAutoReasoningEffortModel "qwen-max" = none := by decide

/-- The request behind the middleware, and the effort it found; a chat keeps
that in its extra fields. -/
def onInboundLlmRequest (enabled : Bool) (request : RequestContent) :
    RequestContent × Option String :=
  match request.model with
  | none => (request, none)
  | some model =>
      if model = "" ∨ enabled = false then (request, none)
      else
        match splitAutoReasoningEffortModel model with
        | none => (request, none)
        | some (base, effort) => ({ request with model := some base }, some effort)

end AutoReasoningEffort

end Conduit.Orchestrator
