import Conduit.Base.Text
import Conduit.Pipeline.Context

/-!
# Upstream requests

What happens to the request of the outbound transformer before the outbound
middlewares see it: the headers and the query of the client's request are
merged in, then the candidate's target and credential are stamped on it.
-/

namespace Conduit.Pipeline

open Base Base.Text

/-! ## Formats -/

inductive ApiFormat
  | openAiChatCompletions
  | openAiCompletions
  | openAiResponses
  | openAiResponsesCompact
  | openAiImageGeneration
  | openAiImageEdit
  | openAiImageVariation
  | openAiEmbeddings
  | openAiVideo
  | openAiAudioSpeech
  | openAiAudioTranscriptions
  | openAiAudioTranslations
  | geminiContents
  | geminiEmbeddings
  | anthropicMessages
  | aiSdkText
  | aiSdkDatastream
  | jinaRerank
  | jinaEmbeddings
  | ollamaChat
  | seedanceVideo
deriving DecidableEq, Repr

namespace ApiFormat

def asStr : ApiFormat → String
  | openAiChatCompletions => "openai/chat_completions"
  | openAiCompletions => "openai/completions"
  | openAiResponses => "openai/responses"
  | openAiResponsesCompact => "openai/responses_compact"
  | openAiImageGeneration => "openai/image_generation"
  | openAiImageEdit => "openai/image_edit"
  | openAiImageVariation => "openai/image_variation"
  | openAiEmbeddings => "openai/embeddings"
  | openAiVideo => "openai/video"
  | openAiAudioSpeech => "openai/audio_speech"
  | openAiAudioTranscriptions => "openai/audio_transcriptions"
  | openAiAudioTranslations => "openai/audio_translations"
  | geminiContents => "gemini/contents"
  | geminiEmbeddings => "gemini/embeddings"
  | anthropicMessages => "anthropic/messages"
  | aiSdkText => "aisdk/text"
  | aiSdkDatastream => "aisdk/datastream"
  | jinaRerank => "jina/rerank"
  | jinaEmbeddings => "jina/embeddings"
  | ollamaChat => "ollama/chat"
  | seedanceVideo => "seedance/video"

def all : List ApiFormat :=
  [openAiChatCompletions, openAiCompletions, openAiResponses, openAiResponsesCompact,
    openAiImageGeneration, openAiImageEdit, openAiImageVariation, openAiEmbeddings, openAiVideo,
    openAiAudioSpeech, openAiAudioTranscriptions, openAiAudioTranslations, geminiContents,
    geminiEmbeddings, anthropicMessages, aiSdkText, aiSdkDatastream, jinaRerank, jinaEmbeddings,
    ollamaChat, seedanceVideo]

/-- `FromStr`: the format with that text. -/
def parse (value : String) : Option ApiFormat := all.find? fun format => format.asStr = value

/-- Every format parses back from its text. -/
theorem parse_asStr (format : ApiFormat) : parse format.asStr = some format := by
  cases format <;> decide

end ApiFormat

/-! ## Requests -/

/-- `serde_json::Value`, with a number as it is written. -/
inductive JsonValue
  | null
  | bool (value : Bool)
  | number (text : String)
  | string (value : String)
  | array (values : List JsonValue)
  | object (fields : List (String × JsonValue))

/-- `BTreeMap<String, String>` as its lookup function. -/
abbrev Headers := String → Option String

/-- `BTreeMap<String, Vec<String>>` as its lookup function. -/
abbrev QueryMap := String → Option (List String)

structure HttpAuth where
  scheme : String
  token : Option String

/-- A request with the fields that are merged, stamped or sent. -/
structure HttpRequest where
  method : String
  url : Option String
  path : String
  query : QueryMap
  headers : Headers
  contentType : Option String
  body : Option (List UInt8)
  jsonBody : Option JsonValue
  auth : Option HttpAuth
  metadata : String → Option JsonValue
  skipInboundQueryMerge : Bool

namespace HttpRequest

/-- `HttpRequest::default`. -/
def empty : HttpRequest where
  method := ""
  url := none
  path := ""
  query _ := none
  headers _ := none
  contentType := none
  body := none
  jsonBody := none
  auth := none
  metadata _ := none
  skipInboundQueryMerge := false

end HttpRequest

/-! ## Merging -/

/-- The headers that are not merged: the client's credentials and the framing
of its connection. -/
def unmergedHeaders : List String :=
  ["authorization", "proxy-authorization", "x-api-key", "x-goog-api-key", "content-length",
    "transfer-encoding", "host", "connection", "proxy-connection", "keep-alive", "te", "trailer",
    "upgrade"]

def mergeInbound (outbound inbound : HttpRequest) : HttpRequest where
  method := if outbound.method = "" then inbound.method else outbound.method
  url := outbound.url
  path := outbound.path
  query key :=
    if outbound.skipInboundQueryMerge then outbound.query key
    else (outbound.query key).or (inbound.query key)
  headers key :=
    if unmergedHeaders.any (eqIgnoreAsciiCase key) then outbound.headers key
    else (outbound.headers key).or (inbound.headers key)
  contentType := outbound.contentType.or inbound.contentType
  body := outbound.body
  jsonBody := outbound.jsonBody
  auth := outbound.auth
  metadata := outbound.metadata
  skipInboundQueryMerge := outbound.skipInboundQueryMerge

/-! ## The target -/

/-- The path and query of an absolute or relative URL. -/
def pathAndQueryFromUrl (url : String) : Option String :=
  let trimmed := trim url
  if trimmed = "" then none
  else
    match splitOnce "://" trimmed with
    | none => some trimmed
    | some (_, afterScheme) => some (String.ofList (afterScheme.toList.dropWhile (· != '/')))

def urlOrigin (url : String) : Option String :=
  (splitOnce "://" url).map fun (scheme, afterScheme) =>
    scheme ++ "://" ++ String.ofList (afterScheme.toList.takeWhile (· != '/'))

/-- The paths that some transformers emit without the version prefix. -/
def unversionedPath : ApiFormat → Option String
  | .anthropicMessages => some "/messages"
  | .openAiResponses => some "/responses"
  | .openAiResponsesCompact => some "/responses/compact"
  | .openAiChatCompletions => some "/chat/completions"
  | _ => none

def normalizeProtocolPath (target : PipelineCandidate) (path : String) : String :=
  let path := trim path
  match (ApiFormat.parse target.apiFormat).bind unversionedPath with
  | some unversioned =>
      if path = unversioned || startsWith path (unversioned ++ "?") then "/v1" ++ path else path
  | none => path

/-- The URL of a base that ends with a version and a path that starts with it. -/
def joinVersion (base path pathWithoutQuery version : String) : Option String :=
  if endsWith base version && startsWith pathWithoutQuery (version ++ "/") then
    some (base ++ String.ofList (path.toList.drop version.toList.length))
  else none

def joinCandidateUrl (base path : String) : String :=
  match stripSuffix base "##" with
  | some raw => trimEndMatches '/' raw
  | none =>
      let base := trimEndMatches '/' base
      if path = "" then base
      else
        let path := if startsWith path "/" then path else "/" ++ path
        let (pathWithoutQuery, query) := (splitOnce "?" path).getD (path, "")
        if endsWith base pathWithoutQuery then
          if query = "" then base else base ++ "?" ++ query
        else
          ((joinVersion base path pathWithoutQuery "/v1beta").or
            (joinVersion base path pathWithoutQuery "/v1")).getD (base ++ path)

def nonEmptyTrimmed (text : Option String) : Option String := (text.map trim).filter (· ≠ "")

/-! ## The credential -/

def anthropicBearerChannel (channelType : String) : Bool :=
  ["anthropic_aws", "longcat_anthropic", "claudecode"].contains channelType

namespace Headers

/-- `retain` of every key but one, in any case. -/
def without (name : String) (headers : Headers) : Headers := fun key =>
  if eqIgnoreAsciiCase key name then none else headers key

def insert (name value : String) (headers : Headers) : Headers :=
  Function.update headers name (some value)

/-- `entry(..).or_insert_with(..)`. -/
def orInsert (name value : String) (headers : Headers) : Headers :=
  Function.update headers name (some ((headers name).getD value))

end Headers

/-- How the credential of a candidate is put on a request. -/
def stampCredential (target : PipelineCandidate) (credential : String) (httpReq : HttpRequest) :
    HttpRequest :=
  let channelType := target.channelType
  let targetFormat := ApiFormat.parse target.apiFormat
  if targetFormat = some .anthropicMessages && !anthropicBearerChannel channelType &&
      channelType ≠ "anthropic_gcp" then
    { httpReq with
      auth := none
      headers := ((((httpReq.headers.without "authorization").without "x-api-key").insert
        "x-api-key" credential).orInsert "anthropic-version" "2023-06-01") }
  else if targetFormat = some .geminiContents && channelType ≠ "gemini_vertex" then
    { httpReq with
      auth := none
      headers := ((httpReq.headers.without "authorization").without "x-goog-api-key").insert
        "x-goog-api-key" credential }
  else if channelType ≠ "anthropic_gcp" && channelType ≠ "gemini_vertex" then
    { httpReq with
      headers := ((httpReq.headers.without "authorization").without "x-api-key").without
        "x-goog-api-key"
      auth := some ⟨"Bearer", some credential⟩ }
  else httpReq

def stampOutboundTarget (httpReq : HttpRequest) (target : PipelineCandidate) : HttpRequest :=
  let metadata := Function.update httpReq.metadata "channel_proxy"
    ((target.channelConfig.get "channel_proxy").map .string)
  let explicitEndpointPath := nonEmptyTrimmed target.endpointPath
  let transformerPath :=
    if trim httpReq.path = "" then (httpReq.url.bind pathAndQueryFromUrl).getD "" else httpReq.path
  let effectivePath :=
    match explicitEndpointPath with
    | some path => path
    | none => normalizeProtocolPath target transformerPath
  let effectivePath :=
    if effectivePath ≠ "" && !startsWith effectivePath "/" then "/" ++ effectivePath
    else effectivePath
  let path := if effectivePath = "" then httpReq.path else effectivePath
  let url :=
    match nonEmptyTrimmed target.baseUrl with
    | some base => some (joinCandidateUrl base effectivePath)
    | none =>
        match explicitEndpointPath, httpReq.url.bind urlOrigin with
        | some _, some origin => some (joinCandidateUrl origin effectivePath)
        | _, _ => httpReq.url
  let stamped := { httpReq with metadata, path, url }
  match target.credential with
  | some credential => stampCredential target credential stamped
  | none => stamped

end Conduit.Pipeline
