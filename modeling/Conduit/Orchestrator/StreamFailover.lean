import Conduit.Base.Lockstep
import Conduit.Middlewares.CircuitBreaker
import Conduit.Middlewares.RateLimit
import Conduit.Pipeline.Retry

/-!
# Failover of streamed requests

The loops of `process_command_stream_impl` over candidates and over the
attempts on one of them, until a stream is committed. Every attempt is a call
of `stream_live_with_inbound_policy`, which applies the request stage before it
turns to its candidate; `process_with_inbound_policy` applies it before its
loop.
-/

namespace Conduit.Orchestrator.StreamFailover

open Base Base.FixedWindow Pipeline Middlewares

/-! ## Errors -/

def isHttpStatusCodeRetryable (statusCode : Int) : Bool :=
  if statusCode = 429 then true
  else if 400 ≤ statusCode ∧ statusCode < 500 then false
  else decide (500 ≤ statusCode)

def isRetryableError (err : ConduitError) : Bool :=
  isHttpStatusCodeRetryable (extractStatusCodeFromError err)

def isResponseTimeoutError (err : ConduitError) : Bool :=
  err.code = some "stream_first_event_timeout" || err.code = some "non_stream_response_timeout"

/-- An upstream error that came without a status. -/
def isTransportError (err : ConduitError) : Bool :=
  err.kind = .upstream && err.providerStatus.isNone

/-! ## The loops -/

def channelAttemptLimit (policy : Pipeline.RetryPolicy) (candidates : Nat) : Nat :=
  min candidates (if policy.enabled then 1 + policy.maxChannelRetries.toNat else 1)

/-- One attempt and the retries, as a saturating `u32`. -/
def sameChannelAttempts (policy : Pipeline.RetryPolicy) : Nat :=
  if policy.enabled then min (1 + policy.maxSingleChannelRetries.toNat) (UInt32.size - 1) else 1

structure Cursor where
  candidateIndex : Nat
  sameAttempt : Nat
deriving DecidableEq, Repr

def retrySame (policy : Pipeline.RetryPolicy) (sameAttempt : Nat) (err : ConduitError) : Bool :=
  !ModelCircuitBreaker.isCircuitCode err &&
    decide (sameAttempt + 1 < sameChannelAttempts policy) &&
    (isRetryableError err || isResponseTimeoutError err || isTransportError err)

/-- Where the loops are. -/
inductive Progress
  | attempting (cursor : Cursor)
  | committed
  | exhausted (lastError : Option ConduitError)
deriving DecidableEq, Repr

namespace Progress

def start (limit : Nat) : Progress := if 0 < limit then .attempting ⟨0, 0⟩ else .exhausted none

/-- The end of an attempt. -/
def step (policy : Pipeline.RetryPolicy) (limit : Nat) :
    Progress → Except ConduitError Unit → Progress
  | attempting _, .ok () => committed
  | attempting cursor, .error err =>
      if retrySame policy cursor.sameAttempt err then
        attempting { cursor with sameAttempt := cursor.sameAttempt + 1 }
      else if cursor.candidateIndex + 1 < limit then attempting ⟨cursor.candidateIndex + 1, 0⟩
      else exhausted (some err)
  | committed, _ => committed
  | exhausted lastError, _ => exhausted lastError

def cursor? : Progress → Option Cursor
  | attempting cursor => some cursor
  | _ => none

end Progress

/-! ## Attempts with their request stage -/

/-- One call of `stream_live_with_inbound_policy`: when it applies the request
stage, what the middlewares after the quota say, and what happens to the rest
of the attempt. -/
structure LiveAttempt where
  now : Nat
  otherMiddlewares : Option ConduitError
  rest : Except ConduitError Unit

/-- The windows of the quota middleware by API key. -/
abbrev Counters := Int → Option Window

/-- What the request stage leaves behind: the windows, and the verdict of the
quota middleware at each application. -/
structure Stage where
  counters : Counters
  verdicts : List (Except ConduitError Unit)

namespace Stage

/-- One application to the client's request. -/
def apply (metadata : Metadata) (now : Nat) (stage : Stage) : Stage :=
  let (counters, verdict) := QuotaEnforcement.onInboundLlmRequest now metadata stage.counters
  { counters, verdicts := stage.verdicts ++ [verdict] }

def rejection (metadata : Metadata) (now : Nat) (otherMiddlewares : Option ConduitError)
    (stage : Stage) : Option ConduitError :=
  match (QuotaEnforcement.onInboundLlmRequest now metadata stage.counters).2 with
  | .error err => some err
  | .ok () => otherMiddlewares

end Stage

/-- What an attempt ends with: a rejected request never gets to its candidate. -/
def LiveAttempt.outcome (metadata : Metadata) (stage : Stage) (attempt : LiveAttempt) :
    Except ConduitError Unit :=
  match stage.rejection metadata attempt.now attempt.otherMiddlewares with
  | some err => .error err
  | none => attempt.rest

/-- A streamed request and its stage. -/
def processCommandStream (policy : Pipeline.RetryPolicy) (limit : Nat) (metadata : Metadata)
    (counters : Counters) : TSys (Progress × Stage) LiveAttempt where
  init := (.start limit, ⟨counters, []⟩)
  step s attempt :=
    match s.1 with
    | .attempting _ =>
        (s.1.step policy limit (attempt.outcome metadata s.2), s.2.apply metadata attempt.now)
    | _ => s

/-! ## The buffered path -/

/-- Rejected before the loop, or in it. -/
inductive Buffered (candidates : List PipelineCandidate)
  | rejected (err : ConduitError)
  | looping (process : Process candidates Unit)

def Buffered.step {candidates : List PipelineCandidate} (policy : Pipeline.RetryPolicy)
    (engine : RegexEngine) (requestModel : Option String) :
    Buffered candidates → Attempt Unit → Buffered candidates
  | rejected err, _ => rejected err
  | looping process, attempt => looping (process.step policy engine requestModel attempt)

/-- `process_with_inbound_policy` with its request stage, applied at `now`. -/
def processBuffered (policy : Pipeline.RetryPolicy) (engine : RegexEngine)
    (requestModel : Option String)
    (candidates : List PipelineCandidate) (ctx : PipelineContext) (counters : Counters) (now : Nat)
    (otherMiddlewares : Option ConduitError) (nowMs : Int) :
    TSys (Buffered candidates × Stage) (Attempt Unit) where
  init :=
    let stage : Stage := ⟨counters, []⟩
    (match stage.rejection ctx.metadata now otherMiddlewares with
      | some err => .rejected err
      | none => .looping (.start candidates ctx nowMs),
      stage.apply ctx.metadata now)
  step s attempt := (s.1.step policy engine requestModel attempt, s.2)

/-! ## Channels attempted -/

/-- What happens around one attempt on either path: what the request stage
says if it is applied, what the rest ends with, and whether the client is gone
by then. -/
structure Outcome where
  requestStage : Option ConduitError
  rest : Except ConduitError Unit
  canceled : Bool

namespace Outcome

def live (outcome : Outcome) : Except ConduitError Unit :=
  match outcome.requestStage with
  | some err => .error err
  | none => outcome.rest

/-- With the hooks of the production pipeline. -/
def buffered (outcome : Outcome) : Attempt Unit where
  steps := []
  touch := id
  mode := .stream
  outcome := outcome.rest
  canceledMeanwhile := outcome.canceled
  isTimeoutError := isResponseTimeoutError
  canRetry := isRetryableError
  hasMoreChannels := true
  canceledBeforeNext := false

end Outcome

/-- The candidates that the streamed path attempts, by their positions. -/
def streamChannels (policy : Pipeline.RetryPolicy) (limit : Nat) : Progress → List Outcome →
    List Nat
  | .attempting cursor, outcome :: outcomes =>
      cursor.candidateIndex ::
        streamChannels policy limit ((Progress.attempting cursor).step policy limit outcome.live)
          outcomes
  | _, _ => []

/-- The context of a client that is there. -/
def freshContext (metadata : Metadata) : PipelineContext :=
  { metadata, order := [], canceled := false, retryContext := none }

end Conduit.Orchestrator.StreamFailover
