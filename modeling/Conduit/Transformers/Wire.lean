import Conduit.Transformers.Unified
import Conduit.Pipeline.Stream

/-!
# Stream events and the JSON they carry

The data of a stream event is text; where the text is JSON the model holds its
value. `encode` and `decode` are what serde derives for the unified types: a
field of the wrong type makes the whole value undecodable, an absent one has
its default, and flattened maps keep the fields that have no name of their
own. Fields the model leaves out are taken to be absent.
-/

namespace Conduit.Transformers

open Base Base.Json

/-! ## Events -/

/-- The data of an event: JSON, or text that is not. -/
inductive Payload
  | text (text : String)
  | json (value : Json)

/-- A `StreamEvent` with the fields transformers set and read. -/
structure WireEvent where
  eventType : Option String := none
  data : Option Payload := none
  done : Bool := false

namespace Payload

def render : Payload → String
  | Payload.text content => content
  | Payload.json content => content.render

/-- The JSON value, where the text is JSON. -/
def value (payload : Payload) : Option Json :=
  match payload with
  | .text _ => none
  | .json value => some value

end Payload

/-- The event as the pipeline handles it. -/
def WireEvent.toStreamEvent (event : WireEvent) : Pipeline.StreamEvent :=
  { lastEventId := none, eventType := event.eventType, data := event.data.map Payload.render
    binary := none, done := event.done }

/-! ## Usage -/

namespace TokenDetails

def fields (details : TokenDetails) : List (String × Json) :=
  [("cached_tokens", .ofU64 details.cachedTokens),
    ("write_cached_tokens", .ofU64 details.writeCachedTokens),
    ("write_cached_5min_tokens", .ofU64 details.writeCachedTokens5m),
    ("write_cached_1hour_tokens", .ofU64 details.writeCachedTokens1h),
    ("audio_tokens", .ofU64 details.audioTokens),
    ("reasoning_tokens", .ofU64 details.reasoningTokens),
    ("accepted_prediction_tokens", .ofU64 details.acceptedPredictionTokens),
    ("rejected_prediction_tokens", .ofU64 details.rejectedPredictionTokens)]

def encode (details : TokenDetails) : Json := .object details.fields

def decode (value : Json) : Option TokenDetails := do
  let fields ← value.asObject
  return {
    cachedTokens := ← fieldOr 0 asU64 fields "cached_tokens"
    writeCachedTokens := ← fieldOr 0 asU64 fields "write_cached_tokens"
    writeCachedTokens5m := ← fieldOr 0 asU64 fields "write_cached_5min_tokens"
    writeCachedTokens1h := ← fieldOr 0 asU64 fields "write_cached_1hour_tokens"
    audioTokens := ← fieldOr 0 asU64 fields "audio_tokens"
    reasoningTokens := ← fieldOr 0 asU64 fields "reasoning_tokens"
    acceptedPredictionTokens := ← fieldOr 0 asU64 fields "accepted_prediction_tokens"
    rejectedPredictionTokens := ← fieldOr 0 asU64 fields "rejected_prediction_tokens" }

theorem decode_encode (details : TokenDetails) : decode details.encode = some details := by
  unfold decode encode fields
  simp [asObject, fieldOr]

end TokenDetails

namespace Usage

def encode (usage : Usage) : Json :=
  .object
    [("prompt_tokens", .ofU64 usage.promptTokens), ("completion_tokens", .ofU64 usage.completionTokens),
      ("total_tokens", .ofU64 usage.totalTokens),
      ("prompt_tokens_details", usage.promptDetails.encode),
      ("completion_tokens_details", usage.completionDetails.encode)]

def decode (value : Json) : Option Usage := do
  let fields ← value.asObject
  return {
    promptTokens := ← fieldOr 0 asU64 fields "prompt_tokens"
    completionTokens := ← fieldOr 0 asU64 fields "completion_tokens"
    totalTokens := ← fieldOr 0 asU64 fields "total_tokens"
    promptDetails := ← fieldOr {} TokenDetails.decode fields "prompt_tokens_details"
    completionDetails := ← fieldOr {} TokenDetails.decode fields "completion_tokens_details" }

theorem decode_encode (usage : Usage) : decode usage.encode = some usage := by
  unfold decode encode
  simp [asObject, fieldOr, TokenDetails.decode_encode]

end Usage

end Conduit.Transformers
