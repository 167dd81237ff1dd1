import Conduit.Transformers.OpenAiChat

/-!
# Aggregating a Responses stream

The aggregator looks for `response.completed` from the end and takes the
response it carries; the usage is read with OpenAI's names.
-/

namespace Conduit.Transformers.Responses

open Base Base.Json

/-! ## Usage -/

/-- A count with a default, by position or name. -/
def countAt (get : Nat → String → Option Json) (index : Nat) (name : String) : Option UInt64 :=
  (get index name).elim (some 0) asU64

/-- `PromptTokensDetails`. -/
def decodePromptDetails (value : Json) : Option TokenDetails := do
  let get ← structFields 3 value
  return {
    audioTokens := ← countAt get 0 "audio_tokens"
    cachedTokens := ← countAt get 1 "cached_tokens"
    writeCachedTokens := ← countAt get 2 "write_cached_tokens" }

/-- `CompletionTokensDetails`. -/
def decodeCompletionDetails (value : Json) : Option TokenDetails := do
  let get ← structFields 4 value
  return {
    audioTokens := ← countAt get 0 "audio_tokens"
    reasoningTokens := ← countAt get 1 "reasoning_tokens"
    acceptedPredictionTokens := ← countAt get 2 "accepted_prediction_tokens"
    rejectedPredictionTokens := ← countAt get 3 "rejected_prediction_tokens" }

/-- A field under one of two names, which must not both be there. -/
def aliased {α : Type} (default : α) (decode : Json → Option α) (fields : List (String × Json))
    (name other : String) : Option α :=
  if (fields.filter fun entry => entry.1 = name ∨ entry.1 = other).length ≤ 1 then
    ((field fields name).or (field fields other)).elim (some default) decode
  else none

/-- `OpenAiUsage` and `to_unified`. -/
def decodeUsage (value : Json) : Option Usage := do
  let fields ← value.asObject
  let prompt ← aliased {} decodePromptDetails fields "prompt_tokens_details" "input_tokens_details"
  let cached ← fieldOr 0 asU64 fields "cached_tokens"
  return {
    promptTokens := ← aliased 0 asU64 fields "prompt_tokens" "input_tokens"
    completionTokens := ← aliased 0 asU64 fields "completion_tokens" "output_tokens"
    totalTokens := ← fieldOr 0 asU64 fields "total_tokens"
    promptDetails :=
      { prompt with cachedTokens := if prompt.cachedTokens = 0 then cached else prompt.cachedTokens }
    completionDetails :=
      ← aliased {} decodeCompletionDetails fields "completion_tokens_details" "output_tokens_details" }

/-- `extract_usage`. -/
def extractUsage (response : Json) : Option Usage := (response.get "usage").bind decodeUsage

/-! ## The aggregator -/

/-- The last `response.completed` of a stream. -/
def completedEvent (events : List WireEvent) : Option Json :=
  (events.filterMap fun event => event.data.bind Payload.value).reverse.find? fun value =>
    decide (strField value "type" = some "response.completed")

/-- `OpenAiResponsesInbound::aggregate_stream_chunks`. -/
def aggregateStreamChunks (events : List WireEvent) : Option OpenAi.AggregatedResponse :=
  (completedEvent events).bind fun value =>
    (value.get "response").map fun response =>
      { body := response, usage := extractUsage response }

end Conduit.Transformers.Responses
