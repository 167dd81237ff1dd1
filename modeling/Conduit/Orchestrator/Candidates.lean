import Conduit.Orchestrator.Condition
import Mathlib

/-!
# Candidates of a model

The associations of a model are matched against the enabled channels in order.
A channel and a model name of it are taken by the first association that
matches them. What an association took counts only if its `When` holds for the
request; the rest is put together by channel, priority and endpoint.
-/

namespace Conduit.Orchestrator

open Base Base.ParseInt Base.Text
open Pipeline (JsonValue RegexEngine)

/-! ## Requests -/

inductive RequestType
  | chat
  | embedding
  | rerank
  | image
  | video
  | compact
  | completion
  | speech
  | transcription
  | translation
deriving DecidableEq, Repr

structure RequestContentPart where
  partType : String
  text : Option String
  imageUrl : Option String
  videoUrl : Option String
  document : Option String
  inputAudio : Option String
deriving DecidableEq, Repr

inductive RequestMessageContent
  | empty
  | text (text : String)
  | parts (parts : List RequestContentPart)
deriving DecidableEq, Repr

structure RequestToolCall where
  callType : String
  functionName : String
  functionArguments : String
deriving DecidableEq, Repr

structure RequestTool where
  toolType : String
  functionName : String
  functionDescription : String
  functionParameters : String
deriving DecidableEq, Repr

structure RequestMessage where
  role : String
  name : Option String
  toolCallId : Option String
  toolCallName : Option String
  reasoningContent : Option String
  content : RequestMessageContent
  toolCalls : List RequestToolCall
deriving DecidableEq, Repr

/-- What candidate selection reads of a request. -/
structure CandidateRequest where
  model : String
  stream : Bool
  apiFormat : String
  requestType : RequestType
  messages : List RequestMessage
  tools : List RequestTool
deriving DecidableEq, Repr

def RequestMessageContent.partList : RequestMessageContent → List RequestContentPart
  | .parts all => all
  | _ => []

/-! ## Channels -/

/-- How a model entry was derived. -/
inductive ModelSource
  | direct
  | prefixed
  | autoTrim
  | mapping
deriving DecidableEq, Repr

structure ChannelModelEntry where
  requestModel : String
  actualModel : String
  source : ModelSource
deriving DecidableEq, Repr

/-- A `BTreeMap` with its entries in iteration order. -/
structure ChannelModelEntryMap where
  entries : List (String × ChannelModelEntry)
  sorted : (entries.map Prod.fst).Pairwise (· < ·)

structure ChannelEndpoint where
  apiFormat : String
  path : String
  baseUrl : String
  transport : String
deriving DecidableEq, Repr

/-- `ChannelEndpoint::default`. -/
def ChannelEndpoint.empty : ChannelEndpoint := ⟨"", "", "", ""⟩

/-- `stream` of the policies; a channel's settings are not looked into. -/
structure ChannelSnapshot (Settings : Type) where
  id : String
  name : String
  orderingWeight : Int
  tags : List String
  modelEntries : ChannelModelEntryMap
  resolvedEndpoints : List ChannelEndpoint
  credentialKeyIdentity : String
  policies : String
  channelType : String
  baseUrl : Option String
  activeCredential : Option String
  enabledCredentials : List String
  settings : Option Settings

structure ChannelModelsCandidate (Settings : Type) where
  channelId : String
  channelName : String
  orderingWeight : Int
  priority : Int
  models : List ChannelModelEntry
  endpoint : ChannelEndpoint
  apiFormat : String
  channelType : String
  policies : String
  credentialKeyIdentity : String
  tags : List String
  baseUrl : Option String
  activeCredential : Option String
  enabledCredentials : List String
  settings : Option Settings
  theoreticalCostAccounting : Option String
  costEfficiencyScore : Int

/-! ## Associations -/

structure ModelAssociationWhen where
  enabled : Bool
  condition : Option Condition

structure ExcludeAssociation where
  channelNamePattern : String
  channelIds : List Int
  channelTags : List String
deriving DecidableEq, Repr

structure ChannelModelAssociation where
  channelId : Int
  modelId : String
deriving DecidableEq, Repr

structure ChannelRegexAssociation where
  channelId : Int
  pattern : String
deriving DecidableEq, Repr

structure RegexAssociation where
  pattern : String
  exclude : List ExcludeAssociation
deriving DecidableEq, Repr

structure ModelIdAssociation where
  modelId : String
  exclude : List ExcludeAssociation
deriving DecidableEq, Repr

structure ChannelTagsModelAssociation where
  channelTags : List String
  modelId : String
deriving DecidableEq, Repr

structure ChannelTagsRegexAssociation where
  channelTags : List String
  pattern : String
deriving DecidableEq, Repr

structure ModelAssociation where
  kind : String
  priority : Int
  disabled : Bool
  when : Option ModelAssociationWhen
  channelModel : Option ChannelModelAssociation
  channelRegex : Option ChannelRegexAssociation
  regex : Option RegexAssociation
  modelId : Option ModelIdAssociation
  channelTagsModel : Option ChannelTagsModelAssociation
  channelTagsRegex : Option ChannelTagsRegexAssociation

/-! ## Matching -/

/-- The channel by its position in the list of channels. -/
structure MatchedConnection where
  channelIdx : Nat
  models : List ChannelModelEntry
  priority : Int
deriving DecidableEq, Repr

structure AssociationMatch where
  when : Option ModelAssociationWhen
  connections : List MatchedConnection

/-- The channel ids and request models that were added. -/
abbrev DuplicateTracker := List (String × String)

/-- Whether the pair is new, and the tracker with it. -/
def DuplicateTracker.add (tracker : DuplicateTracker) (channelId requestModel : String) :
    Bool × DuplicateTracker :=
  if tracker.contains (channelId, requestModel) then (false, tracker)
  else (true, (channelId, requestModel) :: tracker)

/-- The entries of one channel whose names are new. -/
def addEntries (channelId : String) : List (String × ChannelModelEntry) → DuplicateTracker →
    List ChannelModelEntry × DuplicateTracker
  | [], tracker => ([], tracker)
  | (modelId, entry) :: entries, tracker =>
      let (new, tracker) := tracker.add channelId modelId
      let (models, tracker) := addEntries channelId entries tracker
      (if new then entry :: models else models, tracker)

variable {Settings : Type}

/-- The loop over the channels: `select` are the entries of a channel that the
association matches. -/
def connect (priority : Int) (select : ChannelSnapshot Settings → List (String × ChannelModelEntry)) :
    List (Nat × ChannelSnapshot Settings) → DuplicateTracker →
    List MatchedConnection × DuplicateTracker
  | [], tracker => ([], tracker)
  | (idx, ch) :: channels, tracker =>
      let (models, tracker) := addEntries ch.id (select ch) tracker
      let (connections, tracker) := connect priority select channels tracker
      (if models.isEmpty then connections else ⟨idx, models, priority⟩ :: connections, tracker)

def enumerate (channels : List (ChannelSnapshot Settings)) : List (Nat × ChannelSnapshot Settings) :=
  channels.zipIdx.map Prod.swap

def findChannel (channels : List (ChannelSnapshot Settings)) (id : Int) :
    Option (Nat × ChannelSnapshot Settings) :=
  (enumerate channels).find? fun entry => entry.2.id = toString id

/-- `model_entries.get`. -/
def namedEntry (modelId : String) (ch : ChannelSnapshot Settings) :
    List (String × ChannelModelEntry) :=
  (ch.modelEntries.entries.lookup modelId).toList.map fun entry => (modelId, entry)

def matchedEntries (isMatch : String → Bool) (ch : ChannelSnapshot Settings) :
    List (String × ChannelModelEntry) :=
  ch.modelEntries.entries.filter fun entry => isMatch entry.1

def channelHasAnyTag (ch : ChannelSnapshot Settings) (tags : List String) : Bool :=
  tags.any fun tag => ch.tags.contains tag

def shouldExcludeChannel (engine : RegexEngine) (ch : ChannelSnapshot Settings)
    (excludes : List ExcludeAssociation) : Bool :=
  excludes.any fun exclude =>
    (exclude.channelNamePattern ≠ "" &&
        (engine exclude.channelNamePattern).any fun isMatch => isMatch ch.name) ||
      ((parseSigned 9223372036854775808 ch.id).any fun id => exclude.channelIds.contains id) ||
      exclude.channelTags.any fun tag => ch.tags.contains tag

/-- A matcher that connects nothing. -/
def noConnection (tracker : DuplicateTracker) : List MatchedConnection × DuplicateTracker :=
  ([], tracker)

section Matchers

variable (engine : RegexEngine) (assoc : ModelAssociation)
  (channels : List (ChannelSnapshot Settings))

def matchChannelModel : DuplicateTracker → List MatchedConnection × DuplicateTracker :=
  match assoc.channelModel with
  | none => noConnection
  | some branch =>
      connect assoc.priority (namedEntry branch.modelId)
        (findChannel channels branch.channelId).toList

def matchChannelRegex : DuplicateTracker → List MatchedConnection × DuplicateTracker :=
  match assoc.channelRegex with
  | none => noConnection
  | some branch =>
      match engine branch.pattern with
      | none => noConnection
      | some isMatch =>
          connect assoc.priority (matchedEntries isMatch)
            (findChannel channels branch.channelId).toList

def matchRegex : DuplicateTracker → List MatchedConnection × DuplicateTracker :=
  match assoc.regex with
  | none => noConnection
  | some branch =>
      match engine branch.pattern with
      | none => noConnection
      | some isMatch =>
          connect assoc.priority (matchedEntries isMatch)
            ((enumerate channels).filter fun entry =>
              !shouldExcludeChannel engine entry.2 branch.exclude)

def matchModel : DuplicateTracker → List MatchedConnection × DuplicateTracker :=
  match assoc.modelId with
  | none => noConnection
  | some branch =>
      connect assoc.priority (namedEntry branch.modelId)
        ((enumerate channels).filter fun entry =>
          !shouldExcludeChannel engine entry.2 branch.exclude)

def matchChannelTagsModel : DuplicateTracker → List MatchedConnection × DuplicateTracker :=
  match assoc.channelTagsModel with
  | none => noConnection
  | some branch =>
      connect assoc.priority (namedEntry branch.modelId)
        ((enumerate channels).filter fun entry => channelHasAnyTag entry.2 branch.channelTags)

def matchChannelTagsRegex : DuplicateTracker → List MatchedConnection × DuplicateTracker :=
  match assoc.channelTagsRegex with
  | none => noConnection
  | some branch =>
      match engine branch.pattern with
      | none => noConnection
      | some isMatch =>
          connect assoc.priority (matchedEntries isMatch)
            ((enumerate channels).filter fun entry => channelHasAnyTag entry.2 branch.channelTags)

def matchSingleAssociation : DuplicateTracker → List MatchedConnection × DuplicateTracker :=
  if assoc.kind = "channel_model" then matchChannelModel assoc channels
  else if assoc.kind = "channel_regex" then matchChannelRegex engine assoc channels
  else if assoc.kind = "regex" then matchRegex engine assoc channels
  else if assoc.kind = "model" then matchModel engine assoc channels
  else if assoc.kind = "channel_tags_model" then matchChannelTagsModel assoc channels
  else if assoc.kind = "channel_tags_regex" then matchChannelTagsRegex engine assoc channels
  else noConnection

end Matchers

/-- The loop of `match_associations`. -/
def matchFrom (engine : RegexEngine) (channels : List (ChannelSnapshot Settings)) :
    List ModelAssociation → DuplicateTracker → List AssociationMatch
  | [], _ => []
  | assoc :: associations, tracker =>
      if assoc.disabled then matchFrom engine channels associations tracker
      else
        let (connections, tracker) := matchSingleAssociation engine assoc channels tracker
        let later := matchFrom engine channels associations tracker
        if connections.isEmpty then later else ⟨assoc.when, connections⟩ :: later

def matchAssociations (engine : RegexEngine) (associations : List ModelAssociation)
    (channels : List (ChannelSnapshot Settings)) : List AssociationMatch :=
  matchFrom engine channels associations []

/-! ## Endpoints -/

def capableFormats : RequestType → List String
  | .chat => ["openai/chat_completions", "openai/responses", "anthropic/messages",
      "gemini/contents", "ollama/chat"]
  | .compact => ["openai/responses_compact"]
  | .completion => ["openai/completions"]
  | .embedding => ["openai/embeddings", "jina/embeddings", "gemini/embeddings"]
  | .image => ["openai/image_generation", "openai/image_edit", "openai/image_variation"]
  | .rerank => ["jina/rerank"]
  | .video => ["openai/video", "seedance/video"]
  | .speech => ["openai/audio_speech"]
  | .transcription => ["openai/audio_transcriptions"]
  | .translation => ["openai/audio_translations"]

/-- The endpoint of the request's own format, or one that is capable, or the first. -/
def selectEndpoint (endpoints : List ChannelEndpoint) (req : CandidateRequest) :
    Option ChannelEndpoint :=
  let allowed := capableFormats req.requestType
  (if req.apiFormat ≠ "" then
    endpoints.find? fun ep => allowed.contains ep.apiFormat && ep.apiFormat = req.apiFormat
  else none)
    <|> (endpoints.find? fun ep => allowed.contains ep.apiFormat)
    <|> endpoints.head?

/-! ## The request's data -/

structure ContentFeatures where
  hasImage : Bool
  hasVideo : Bool
  hasDocument : Bool
  hasAudio : Bool
deriving DecidableEq, Repr

def ContentFeatures.detect (req : CandidateRequest) : ContentFeatures :=
  let parts := req.messages.flatMap fun msg => msg.content.partList
  { hasImage := parts.any fun part => part.imageUrl.isSome
    hasVideo := parts.any fun part => part.videoUrl.isSome
    hasDocument := parts.any fun part => part.document.isSome
    hasAudio := parts.any fun part => part.inputAudio.isSome }

def isCjk (c : Char) : Bool :=
  let r := c.toNat
  (0x3400 ≤ r && r ≤ 0x9FFF) || (0x3040 ≤ r && r ≤ 0x30FF) || (0xAC00 ≤ r && r ≤ 0xD7A3) ||
    (0x1100 ≤ r && r ≤ 0x11FF)

/-- `(cjk / 1.5 + other / 4.0) as i64`: the sum is whole only where the first
quotient is exact. -/
def estimateTokens (value : String) : Int :=
  let cjk := value.toList.countP isCjk
  let other := value.toList.countP fun c => !isCjk c && !isWhitespace c
  if value = "" then 0
  else if cjk = 0 ∧ other = 0 then 1
  else ((8 * cjk + 3 * other) / 12 : Nat)

def optionTokens (value : Option String) : Int := value.elim 0 estimateTokens

def partTokens (part : RequestContentPart) : Int :=
  let attached (value : Option String) : Int := if value.isSome then 128 else 0
  estimateTokens part.partType + optionTokens part.text + attached part.imageUrl +
    attached part.videoUrl + attached part.document + attached part.inputAudio

def countMessageContent : RequestMessageContent → Int
  | .empty => 0
  | .text text => estimateTokens text
  | .parts parts => (parts.map partTokens).sum

def messageTokens (msg : RequestMessage) : Int :=
  estimateTokens msg.role + optionTokens msg.name + countMessageContent msg.content +
    optionTokens msg.toolCallId + optionTokens msg.toolCallName +
    optionTokens msg.reasoningContent +
    (msg.toolCalls.map fun call => estimateTokens call.callType +
      estimateTokens call.functionName + estimateTokens call.functionArguments).sum

def estimatePromptTokens (req : CandidateRequest) : Int :=
  (req.messages.map messageTokens).sum +
    (req.tools.map fun tool => estimateTokens tool.toolType + estimateTokens tool.functionName +
      estimateTokens tool.functionDescription + estimateTokens tool.functionParameters).sum

def whenData (promptTokens : Int) (stream : Bool) (requestFormat : String)
    (features : ContentFeatures) (nowRfc3339 : String) : JsonValue :=
  .object [("has_audio", .bool features.hasAudio), ("has_document", .bool features.hasDocument),
    ("has_image", .bool features.hasImage), ("has_video", .bool features.hasVideo),
    ("now", .string nowRfc3339), ("prompt_tokens", .number (toString promptTokens)),
    ("request_format", .string requestFormat), ("stream", .bool stream)]

def matchesWhen (reader : ValueReader) (when : Option ModelAssociationWhen) (promptTokens : Int)
    (stream : Bool) (requestFormat : String) (features : ContentFeatures) (nowRfc3339 : String) :
    Bool :=
  match when with
  | none => true
  | some when =>
      if !when.enabled then true
      else
        match when.condition with
        | none => true
        | some condition =>
            evaluate reader condition
              (whenData promptTokens stream requestFormat features nowRfc3339)

/-! ## Aggregation -/

structure ResolvedAssociationCandidate (Settings : Type) where
  channel : ChannelSnapshot Settings
  priority : Int
  models : List ChannelModelEntry
  when : Option ModelAssociationWhen

/-- A new candidate with one model. -/
def ChannelSnapshot.candidate (channel : ChannelSnapshot Settings) (priority : Int)
    (endpoint : ChannelEndpoint) (entry : ChannelModelEntry) : ChannelModelsCandidate Settings where
  channelId := channel.id
  channelName := channel.name
  orderingWeight := channel.orderingWeight
  priority
  models := [entry]
  endpoint
  apiFormat := endpoint.apiFormat
  channelType := channel.channelType
  policies := channel.policies
  credentialKeyIdentity := channel.credentialKeyIdentity
  tags := channel.tags
  baseUrl := channel.baseUrl
  activeCredential := channel.activeCredential
  enabledCredentials := channel.enabledCredentials
  settings := channel.settings
  theoreticalCostAccounting := none
  costEfficiencyScore := 0

/-- The channel, its format, its credential and the model that were seen. -/
abbrev SeenTargets := List (String × String × String × String)

structure Aggregation (Settings : Type) where
  candidates : List (ChannelModelsCandidate Settings)
  seen : SeenTargets

def Aggregation.addModel (channel : ChannelSnapshot Settings) (priority : Int)
    (endpoint : ChannelEndpoint) (agg : Aggregation Settings) (entry : ChannelModelEntry) :
    Aggregation Settings :=
  let key := (channel.id, endpoint.apiFormat, channel.credentialKeyIdentity, entry.actualModel)
  if agg.seen.contains key then agg
  else
    let pos := agg.candidates.findIdx? fun c =>
      c.channelId = channel.id && c.priority = priority && c.apiFormat = endpoint.apiFormat
    { seen := key :: agg.seen
      candidates := match pos with
        | some i =>
            agg.candidates.modify i fun c =>
              if c.models.any fun m => m.actualModel = entry.actualModel then c
              else { c with models := c.models ++ [entry] }
        | none => agg.candidates ++ [channel.candidate priority endpoint entry] }

def Aggregation.addResolved (req : CandidateRequest) (agg : Aggregation Settings)
    (resolved : ResolvedAssociationCandidate Settings) : Aggregation Settings :=
  let endpoint := (selectEndpoint resolved.channel.resolvedEndpoints req).getD .empty
  resolved.models.foldl (Aggregation.addModel resolved.channel resolved.priority endpoint) agg

def aggregateCandidates (resolved : List (ResolvedAssociationCandidate Settings))
    (req : CandidateRequest) : List (ChannelModelsCandidate Settings) :=
  (resolved.foldl (Aggregation.addResolved req) ⟨[], []⟩).candidates

def filterResolvedForRequest (reader : ValueReader)
    (resolved : List (ResolvedAssociationCandidate Settings)) (req : CandidateRequest)
    (nowRfc3339 : String) : List (ChannelModelsCandidate Settings) :=
  if resolved.isEmpty then []
  else if !resolved.any fun c => c.when.isSome then aggregateCandidates resolved req
  else
    let promptTokens := estimatePromptTokens req
    let features := ContentFeatures.detect req
    aggregateCandidates (resolved.filter fun c =>
      matchesWhen reader c.when promptTokens req.stream req.apiFormat features nowRfc3339) req

/-- The matches with their channels, in order. -/
def resolveMatches (channels : List (ChannelSnapshot Settings)) (matched : List AssociationMatch) :
    List (ResolvedAssociationCandidate Settings) :=
  matched.flatMap fun m =>
    m.connections.filterMap fun conn =>
      channels[conn.channelIdx]?.map fun ch => ⟨ch, conn.priority, conn.models, m.when⟩

def selectModelCandidates (engine : RegexEngine) (reader : ValueReader) (req : CandidateRequest)
    (channels : List (ChannelSnapshot Settings)) (associations : List ModelAssociation)
    (nowRfc3339 : String) : List (ChannelModelsCandidate Settings) :=
  if associations.isEmpty then []
  else
    filterResolvedForRequest reader
      (resolveMatches channels (matchAssociations engine associations channels)) req nowRfc3339

end Conduit.Orchestrator
