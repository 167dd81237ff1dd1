import Mathlib.Data.List.Infix
import Mathlib.Logic.Function.Basic

/-!
# Errors, candidates and the request context

What the attempts of one request share: the error type with the predicates
that read it, the candidates of a request, and the context that is threaded
through every hook.
-/

namespace Conduit.Pipeline

/-! ## Errors -/

inductive ErrorKind
  | invalidRequest
  | invalidModel
  | invalidResponse
  | unauthorized
  | forbidden
  | notFound
  | conflict
  | rateLimited
  | quotaExhausted
  | channelQueueTimeout
  | upstream
  | timeout
  | db
  | config
  | internal
deriving DecidableEq, Repr

namespace ErrorKind

def asStr : ErrorKind → String
  | invalidRequest => "invalid_request"
  | invalidModel => "invalid_model"
  | invalidResponse => "invalid_response"
  | unauthorized => "unauthorized"
  | forbidden => "forbidden"
  | notFound => "not_found"
  | conflict => "conflict"
  | rateLimited => "rate_limited"
  | quotaExhausted => "quota_exhausted"
  | channelQueueTimeout => "channel_queue_timeout"
  | upstream => "upstream_error"
  | timeout => "timeout"
  | db => "db_error"
  | config => "config_error"
  | internal => "internal_error"

end ErrorKind

/-- The fields of an error that retrying and the middlewares read. -/
structure ConduitError where
  kind : ErrorKind
  message : String
  providerStatus : Option Nat
  code : Option String
  /-- `UPSTREAM_ERROR_MARKER` in the error's metadata. -/
  upstreamMarker : Bool
deriving DecidableEq, Repr

namespace ConduitError

def new (kind : ErrorKind) (message : String) : ConduitError :=
  ⟨kind, message, none, some kind.asStr, false⟩

def withCode (err : ConduitError) (code : String) : ConduitError := { err with code := some code }

def withProviderStatus (err : ConduitError) (status : Nat) : ConduitError :=
  { err with providerStatus := some status }

end ConduitError

def wrapUpstreamError (err : ConduitError) : ConduitError :=
  if err.upstreamMarker then err else { err with upstreamMarker := true }

/-! ## Retryable errors -/

structure RetryableErrorPattern where
  pattern : String
  regex : Bool
deriving DecidableEq, Repr

/-- `regex::Regex::new(pattern)` with `is_match`, if the pattern compiles. -/
abbrev RegexEngine := String → Option (String → Bool)

def extractStatusCodeFromError (err : ConduitError) : Int := err.providerStatus.getD 0

def errorMatchText (err : ConduitError) : String :=
  match err.code with
  | some code => err.message ++ ", code: " ++ code
  | none => err.message

def matchesRetryableErrorPattern (engine : RegexEngine) (message : String)
    (patterns : List RetryableErrorPattern) : Bool :=
  message ≠ "" && patterns.any fun pattern =>
    pattern.pattern ≠ "" &&
      if pattern.regex then (engine pattern.pattern).any fun isMatch => isMatch message
      else decide (pattern.pattern.toList <:+: message.toList)

def isChannelExtraRetryable (engine : RegexEngine) (err : ConduitError)
    (retryableStatusCodes : List Int) (retryableErrorPatterns : List RetryableErrorPattern) : Bool :=
  retryableStatusCodes.contains (extractStatusCodeFromError err) ||
    matchesRetryableErrorPattern engine (errorMatchText err) retryableErrorPatterns

/-! ## Metadata -/

/-- `BTreeMap<String, String>` as its lookup function. -/
abbrev Metadata := String → Option String

namespace Metadata

def insert (metadata : Metadata) (key value : String) : Metadata :=
  Function.update metadata key (some value)

def remove (metadata : Metadata) (key : String) : Metadata := Function.update metadata key none

end Metadata

/-- `BTreeMap<String, String>` with its entries in iteration order. -/
structure ChannelConfig where
  entries : List (String × String)
  nodup : (entries.map Prod.fst).Nodup

namespace ChannelConfig

def empty : ChannelConfig := ⟨[], List.nodup_nil⟩

def get (config : ChannelConfig) (key : String) : Option String := config.entries.lookup key

end ChannelConfig

/-! ## Candidates and context -/

/-- The target of an attempt. -/
structure PipelineCandidate where
  id : String
  baseUrl : Option String
  credential : Option String
  credentialIdentity : Option String
  actualModel : Option String
  apiFormat : String
  endpointPath : Option String
  endpointTransport : Option String
  channelType : String
  channelConfig : ChannelConfig
  retryableStatusCodes : List Int
  retryableErrorPatterns : List RetryableErrorPattern

/-- Id-only candidate. -/
def PipelineCandidate.ofId (id : String) : PipelineCandidate where
  id
  baseUrl := none
  credential := none
  credentialIdentity := none
  actualModel := none
  apiFormat := ""
  endpointPath := none
  endpointTransport := none
  channelType := ""
  channelConfig := .empty
  retryableStatusCodes := []
  retryableErrorPatterns := []

inductive ExecutionMode
  | stream
  | autoAggregate
  | nonStream
deriving DecidableEq, Repr

def ExecutionMode.resolve (userWantsStream effectiveWantsStream : Bool) : ExecutionMode :=
  if userWantsStream then .stream else if effectiveWantsStream then .autoAggregate else .nonStream

end Conduit.Pipeline
