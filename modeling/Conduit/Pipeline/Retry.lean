import Conduit.Base.TSys
import Conduit.Pipeline.Context

/-!
# The retry loop

`process_with_inbound_policy` from the first attempt on. One step of the
system is one pass of the loop: stamp the candidate on the context, run the
attempt, and after a failure stop, retry the channel or switch to the next.
What the attempt does and how the hooks answer is the input of the step, so a
run is any sequence of outcomes. The returned error is the attempt's, before
the channel's rewrite rules.
-/

namespace Conduit.Pipeline

open Base

/-! ## The pure decision -/

structure RetryPolicy where
  enabled : Bool
  maxChannelRetries : UInt32
  maxSingleChannelRetries : UInt32
deriving DecidableEq, Repr

structure RetryState where
  channelSwitches : UInt32
  singleChannelRetries : UInt32
deriving DecidableEq, Repr

inductive RetryDecision
  | stop
  | retrySameChannel
  | retryNextChannel
deriving DecidableEq, Repr

structure AttemptOutcome where
  isTimeoutError : Bool
  canRetrySameChannel : Bool
  hasMoreChannels : Bool
deriving DecidableEq, Repr

def decideRetry (policy : RetryPolicy) (state : RetryState) (outcome : AttemptOutcome)
    (ctxCanceled : Bool) : RetryDecision :=
  if ctxCanceled then .stop
  else if !outcome.isTimeoutError && outcome.canRetrySameChannel
      && state.singleChannelRetries < policy.maxSingleChannelRetries && policy.enabled then
    .retrySameChannel
  else if policy.enabled && outcome.hasMoreChannels
      && state.channelSwitches < policy.maxChannelRetries then
    .retryNextChannel
  else .stop

structure RetryContext where
  channelAttempt : UInt32
  singleChannelAttempt : UInt32
  lastErrorKind : Option String
  retryableStatus : Bool
  startedAtMs : Int
deriving DecidableEq, Repr

namespace RetryContext

def new (startedAtMs : Int) : RetryContext := ⟨1, 0, none, false, startedAtMs⟩

def recordFailure (ctx : RetryContext) (errorKind : String) : RetryDecision → RetryContext
  | .stop => { ctx with lastErrorKind := some errorKind }
  | .retrySameChannel =>
      { ctx with
        lastErrorKind := some errorKind
        singleChannelAttempt := ctx.singleChannelAttempt + 1
        channelAttempt := ctx.channelAttempt + 1
        retryableStatus := true }
  | .retryNextChannel =>
      { ctx with
        lastErrorKind := some errorKind
        singleChannelAttempt := 0
        channelAttempt := ctx.channelAttempt + 1
        retryableStatus := true }

end RetryContext

/-! ## The failover cursor -/

inductive FailoverError
  | noMoreChannels
  | retryDisabled
deriving DecidableEq, Repr

def FailoverError.text : FailoverError → String
  | noMoreChannels => "no more candidates available for retry"
  | retryDisabled => "retry policy disabled"

structure FailoverState (candidates : List PipelineCandidate) where
  currentIndex : Nat
  inBounds : currentIndex < candidates.length
  currentModelIndex : Nat
  sameChannelRetries : UInt32
  totalAttempts : UInt32

namespace FailoverState

variable {candidates : List PipelineCandidate} (state : FailoverState candidates)

def current : PipelineCandidate := candidates.get ⟨state.currentIndex, state.inBounds⟩

def prepareForRetry (policy : RetryPolicy) (modelCount : Nat) :
    Except FailoverError (Bool × FailoverState candidates) :=
  if !policy.enabled then .error .retryDisabled
  else if policy.maxSingleChannelRetries ≤ state.sameChannelRetries then .ok (false, state)
  else .ok (true,
    { state with
      currentModelIndex :=
        if state.currentModelIndex + 1 < modelCount then state.currentModelIndex + 1
        else state.currentModelIndex
      sameChannelRetries := state.sameChannelRetries + 1
      totalAttempts := state.totalAttempts + 1 })

/-- Past the last candidate the index is put back. -/
def nextChannel : Except FailoverError (FailoverState candidates) :=
  if h : state.currentIndex + 1 < candidates.length then
    .ok
      { currentIndex := state.currentIndex + 1
        inBounds := h
        currentModelIndex := 0
        sameChannelRetries := 0
        totalAttempts := state.totalAttempts + 1 }
  else .error .noMoreChannels

end FailoverState

def buildFailoverState (candidates : List PipelineCandidate) : Option (FailoverState candidates) :=
  if h : 0 < candidates.length then some ⟨0, h, 0, 0, 1⟩ else none

/-! ## The context of an attempt -/

structure PipelineContext where
  metadata : Metadata
  order : List String
  canceled : Bool
  retryContext : Option RetryContext

def PipelineContext.recordOrder (ctx : PipelineContext) (step : String) : PipelineContext :=
  { ctx with order := ctx.order ++ [step] }

/-- What a channel's configuration replaced, to be restored by the next attempt. -/
abbrev PreviousValues := List (String × Option String)

/-- Put the previous values back. -/
def restoreMetadata (metadata : Metadata) (previousValues : PreviousValues) : Metadata :=
  previousValues.foldl (fun metadata (key, previousValue) =>
    match previousValue with
    | some value => metadata.insert key value
    | none => metadata.remove key) metadata

/-- Lay the entries over the metadata and remember what they replaced. -/
def overlayMetadata (metadata : Metadata) : List (String × String) → PreviousValues →
    Metadata × PreviousValues
  | [], previousValues => (metadata, previousValues)
  | (key, value) :: entries, previousValues =>
      overlayMetadata (metadata.insert key value) entries (previousValues ++ [(key, metadata key)])

def replaceChannelConfigMetadata (metadata : Metadata) (channelConfig : ChannelConfig)
    (previousValues : PreviousValues) : Metadata × PreviousValues :=
  overlayMetadata (restoreMetadata metadata previousValues) channelConfig.entries []

/-- The keys that every attempt stamps before its channel's configuration. -/
def stampCandidate (metadata : Metadata) (target : PipelineCandidate)
    (requestModel : Option String) : Metadata :=
  let metadata := metadata.insert "channel_id" target.id
  let metadata := metadata.insert "channel_type" target.channelType
  let metadata := metadata.insert "api_format" target.apiFormat
  let metadata := metadata.remove "credential_identity"
  let metadata := match target.credentialIdentity with
    | some identity => metadata.insert "credential_identity" identity
    | none => metadata
  let metadata := match target.actualModel with
    | some actual => metadata.insert "actual_model" actual
    | none => metadata
  match requestModel with
  | some requestModel => metadata.insert "request_model" requestModel
  | none => metadata

/-- What the pipeline itself writes during an attempt, before the middlewares
of the attempt run: the selected endpoint format and the request's. -/
def writeFormats (metadata : Metadata) (apiFormat format : String) : Metadata :=
  (metadata.insert "api_format" apiFormat).insert "format" format

/-- What the middlewares of an attempt on `target` observe. -/
def observedMetadata (formats : PipelineCandidate → String × String) (requestModel : Option String)
    (metadata : Metadata) (previousValues : PreviousValues) (target : PipelineCandidate) :
    Metadata :=
  writeFormats (replaceChannelConfigMetadata (stampCandidate metadata target requestModel)
    target.channelConfig previousValues).1 (formats target).1 (formats target).2

/-! ## The loop -/

structure AttemptRecord (Response : Type) where
  sequence : UInt32
  channelId : String
  modelIndex : Nat
  mode : ExecutionMode
  outcome : Except ConduitError Response

/-- One attempt and what happens around it: the steps it records, what it and
the middlewares do to the metadata, its outcome, the answers of the hooks, and
whether the client disconnects during the attempt or after the loop has looked,
the retry delay included. -/
structure Attempt (Response : Type) where
  steps : List String
  touch : Metadata → Metadata
  mode : ExecutionMode
  outcome : Except ConduitError Response
  canceledMeanwhile : Bool
  isTimeoutError : ConduitError → Bool
  canRetry : ConduitError → Bool
  hasMoreChannels : Bool
  canceledBeforeNext : Bool

structure Loop (candidates : List PipelineCandidate) (Response : Type) where
  cursor : FailoverState candidates
  ctx : PipelineContext
  retryCtx : RetryContext
  previousChannelConfigValues : PreviousValues
  attempts : List (AttemptRecord Response)

inductive Process (candidates : List PipelineCandidate) (Response : Type)
  | running (loop : Loop candidates Response)
  | returned (result : Except ConduitError (Response × List (AttemptRecord Response)))
      (ctx : PipelineContext)

section Retry

variable {candidates : List PipelineCandidate} {Response : Type}
  (policy : RetryPolicy) (engine : RegexEngine) (requestModel : Option String)

/-- `try_same_channel_retry`. -/
def trySameChannelRetry (ctx : PipelineContext) (state : FailoverState candidates)
    (err : ConduitError) (canRetry : ConduitError → Bool) :
    PipelineContext × FailoverState candidates × Except FailoverError Unit :=
  if !policy.enabled || policy.maxSingleChannelRetries ≤ state.sameChannelRetries then
    (ctx, state, .ok ())
  else if !(canRetry err || isChannelExtraRetryable engine err state.current.retryableStatusCodes
      state.current.retryableErrorPatterns) then
    (ctx, state, .ok ())
  else
    match state.prepareForRetry policy 1 with
    | .ok (true, state) =>
        (ctx.recordOrder s!"retry:same_channel:{state.sameChannelRetries}", state, .ok ())
    | .ok (false, state) => (ctx, state, .ok ())
    | .error e => (ctx, state, .error e)

/-- `try_channel_switch`. The switches made so far are compared as a `u32`. -/
def tryChannelSwitch (ctx : PipelineContext) (state : FailoverState candidates)
    (hasMoreChannels : Bool) :
    PipelineContext × FailoverState candidates × Except FailoverError Bool :=
  if !policy.enabled || policy.maxChannelRetries ≤ UInt32.ofNat state.currentIndex then
    (ctx, state, .ok false)
  else if !hasMoreChannels then (ctx, state, .ok false)
  else
    match state.nextChannel with
    | .ok state =>
        (ctx.recordOrder s!"retry:channel_switch:{state.currentIndex}", state, .ok true)
    | .error e => (ctx, state, .error e)

def wasSameChannelRetryTaken (ctx : PipelineContext) : Bool :=
  ctx.order.getLast?.any fun step => step.startsWith "retry:same_channel:"

/-- The same-channel arm, unless the error is a response timeout. -/
def sameChannelArm (ctx : PipelineContext) (state : FailoverState candidates)
    (err : ConduitError) (attempt : Attempt Response) :
    PipelineContext × FailoverState candidates × RetryDecision :=
  if attempt.isTimeoutError err then (ctx, state, .stop)
  else
    match trySameChannelRetry policy engine ctx state err attempt.canRetry with
    | (ctx, state, .ok ()) =>
        (ctx, state, if wasSameChannelRetryTaken ctx then .retrySameChannel else .stop)
    | (ctx, state, .error e) => (ctx.recordOrder s!"retry:same_channel:failed:{e.text}", state, .stop)

/-- The channel-switch arm, if no same-channel retry was taken. -/
def channelSwitchArm (ctx : PipelineContext) (state : FailoverState candidates)
    (attempt : Attempt Response) : RetryDecision →
    PipelineContext × FailoverState candidates × RetryDecision
  | .stop =>
      match tryChannelSwitch policy ctx state attempt.hasMoreChannels with
      | (ctx, state, .ok true) => (ctx, state, .retryNextChannel)
      | (ctx, state, .ok false) => (ctx, state, .stop)
      | (ctx, state, .error e) =>
          (ctx.recordOrder s!"retry:channel_switch:failed:{e.text}", state, .stop)
  | decision => (ctx, state, decision)

namespace Loop

/-- The start of a pass: the context as the attempt finds it. -/
def start (loop : Loop candidates Response) : Loop candidates Response :=
  let target := loop.cursor.current
  let replaced := replaceChannelConfigMetadata
    (stampCandidate loop.ctx.metadata target requestModel) target.channelConfig
    loop.previousChannelConfigValues
  { loop with
    ctx := ({ loop.ctx with metadata := replaced.1 }).recordOrder
      s!"attempt:{loop.cursor.totalAttempts}:start"
    previousChannelConfigValues := replaced.2 }

/-- The context after the attempt. -/
def attempted (loop : Loop candidates Response) (attempt : Attempt Response) : PipelineContext :=
  { loop.ctx with
    metadata := attempt.touch loop.ctx.metadata
    order := loop.ctx.order ++ attempt.steps
    canceled := loop.ctx.canceled || attempt.canceledMeanwhile }

def record (loop : Loop candidates Response) (attempt : Attempt Response) :
    AttemptRecord Response where
  sequence := loop.cursor.totalAttempts
  channelId := loop.cursor.current.id
  modelIndex := loop.cursor.currentModelIndex
  mode := attempt.mode
  outcome := attempt.outcome

/-- Publish the decision and go on with it. -/
def decided (loop : Loop candidates Response) (err : ConduitError) (attempt : Attempt Response) :
    PipelineContext × FailoverState candidates × RetryDecision → Process candidates Response
  | (ctx, cursor, decision) =>
      let retryCtx := loop.retryCtx.recordFailure err.kind.asStr decision
      let ctx := { ctx with retryContext := some retryCtx }
      if decision = .stop then .returned (.error err) (ctx.recordOrder "retry:exhausted")
      else
        .running
          { loop with
            cursor
            ctx := { ctx with canceled := ctx.canceled || attempt.canceledBeforeNext }
            retryCtx }

/-- The rest of the pass after a failed attempt. -/
def failed (loop : Loop candidates Response) (ctx : PipelineContext) (err : ConduitError)
    (attempt : Attempt Response) : Process candidates Response :=
  if ctx.canceled then
    let ctx := ctx.recordOrder "retry:context_canceled"
    .returned (.error err)
      { ctx with retryContext := some (loop.retryCtx.recordFailure err.kind.asStr .stop) }
  else
    let same := sameChannelArm policy engine ctx loop.cursor err attempt
    loop.decided err attempt
      (channelSwitchArm policy same.1 same.2.1 attempt same.2.2)

/-- One pass of the loop. -/
def pass (loop : Loop candidates Response) (attempt : Attempt Response) :
    Process candidates Response :=
  let loop := loop.start requestModel
  let ctx := loop.attempted attempt
  let loop := { loop with attempts := loop.attempts ++ [loop.record attempt] }
  match attempt.outcome with
  | .ok response =>
      .returned (.ok (response, loop.attempts))
        (ctx.recordOrder s!"attempt:{loop.cursor.totalAttempts}:success")
  | .error err =>
      loop.failed policy engine
        (ctx.recordOrder s!"attempt:{loop.cursor.totalAttempts}:error") err attempt

end Loop

namespace Process

def step : Process candidates Response → Attempt Response → Process candidates Response
  | .running loop, attempt => loop.pass policy engine requestModel attempt
  | .returned result ctx, _ => .returned result ctx

/-- The loop is entered with the context as the request-side stages left it. -/
def start (candidates : List PipelineCandidate) (ctx : PipelineContext) (nowMs : Int) :
    Process candidates Response :=
  match buildFailoverState candidates with
  | none =>
      .returned (.error (.new .notFound "no candidates available for pipeline"))
        (ctx.recordOrder "retry:no_candidates")
  | some cursor =>
      .running
        { cursor
          ctx := { ctx with retryContext := some (.new nowMs) }
          retryCtx := .new nowMs
          previousChannelConfigValues := []
          attempts := [] }

end Process

/-- `process_with_inbound_policy` from its first attempt. -/
def processWithInboundPolicy (candidates : List PipelineCandidate) (ctx : PipelineContext)
    (nowMs : Int) : TSys (Process candidates Response) (Attempt Response) where
  init := .start candidates ctx nowMs
  step := Process.step policy engine requestModel

end Retry

end Conduit.Pipeline
