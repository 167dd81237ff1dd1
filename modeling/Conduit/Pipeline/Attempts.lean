import Conduit.Base.TSys
import Conduit.Base.Table
import Conduit.Pipeline.Context

/-!
# Which hooks an attempt runs

`process_attempt` and `stream_live` as one middleware sees them: the stages of
an attempt and the hooks that their failures and successes call. The
middleware may stand anywhere in the chain, so the middlewares before and after
it are stages too. Any number of requests are in flight; a step of the system
is one hook call, and the calls of different requests interleave freely.
-/

namespace Conduit.Pipeline

open Base

/-! ## Stages -/

def upstreamError (message : String) : ConduitError := .new .upstream message

def streamFirstEventTimeoutError : ConduitError :=
  (ConduitError.new .timeout "stream first event timeout").withCode "stream_first_event_timeout"

def nonStreamResponseTimeoutError : ConduitError :=
  (ConduitError.new .timeout "non-stream response timeout").withCode "non_stream_response_timeout"

def emptyStreamChunksError : ConduitError :=
  (upstreamError "empty stream chunks").withCode "empty_stream_chunks"

def emptyAggregatedBodyError : ConduitError :=
  (upstreamError "empty aggregated body").withCode "empty_aggregated_body"

def emptyResponseError : ConduitError :=
  (upstreamError "empty response detected").withCode "empty_response"

/-- What becomes of a stage: `none` when it passes. -/
abbrev Stage := Option ConduitError

/-- The first stage that fails. -/
def firstFailure (stages : List Stage) : Stage := stages.findSome? id

def failIf (failed : Bool) (err : ConduitError) : Stage := if failed then some err else none

/-- The executor under a timeout. -/
structure Executed where
  timedOut : Bool
  executed : Stage

def Executed.failure (x : Executed) (timeoutError : ConduitError) : Stage :=
  if x.timedOut then some timeoutError else x.executed

/-- `finish_stream_events`. -/
structure StreamStages where
  rawStreamMiddlewares : Stage
  outboundTransformStream : Stage
  llmStreamMiddlewares : Stage
  inboundTransformStream : Stage
  inboundStreamMiddlewares : Stage

def StreamStages.failure (x : StreamStages) : Stage :=
  firstFailure [x.rawStreamMiddlewares, x.outboundTransformStream, x.llmStreamMiddlewares,
    x.inboundTransformStream, x.inboundStreamMiddlewares]

/-- The rest of an auto-aggregated stream, `finish_aggregated_response` last. -/
structure AggregateStages where
  noEvents : Bool
  aggregateStreamChunks : Stage
  bodyEmpty : Bool
  inboundResponseMiddlewares : Stage

def AggregateStages.failure (x : AggregateStages) : Stage :=
  firstFailure [failIf x.noEvents emptyStreamChunksError, x.aggregateStreamChunks,
    failIf x.bodyEmpty emptyAggregatedBodyError, x.inboundResponseMiddlewares]

/-- The response side of a non-stream attempt. The response hooks run in
reverse order, so the middlewares after the observed one come first. -/
structure ResponseStages where
  laterResponseMiddlewares : Stage
  earlierResponseMiddlewares : Stage
  wireCompatiblePassthrough : Bool
  outboundResponse : Stage
  serialize : Stage
  outboundTransformResponse : Stage
  llmResponseMiddlewares : Stage
  emptyResponse : Bool
  inboundTransformResponse : Stage
  inboundResponseMiddlewares : Stage

/-- How a provider is called and what becomes of its answer. A non-stream
answer with a status from 400 on is a `providerError`. -/
inductive Execution
  | stream (executor : Executed) (stages : StreamStages)
  | autoAggregate (executor : Executed) (stages : StreamStages) (aggregate : AggregateStages)
  | nonStream (executor : Executed) (providerError : Stage) (stages : ResponseStages)
  | live (executed : Stage) (firstEventTimedOut : Bool) (firstEvent : Stage) (ended : Bool)

/-! ## Hooks -/

inductive Hook
  | onOutboundRawResponse
  | onOutboundRawError (err : ConduitError)
  | onOutboundLiveStreamClose
deriving DecidableEq, Repr

/-- `apply_raw_error_response_middlewares`, if a stage failed. -/
def Stage.raise : Stage → List Hook
  | some err => [.onOutboundRawError err]
  | none => []

/-- `finish_non_stream_response`. A failed serialization returns without a hook. -/
def ResponseStages.hooks (x : ResponseStages) : List Hook :=
  match x.laterResponseMiddlewares with
  | some err => [.onOutboundRawError err]
  | none => .onOutboundRawResponse ::
      match x.earlierResponseMiddlewares with
      | some err => [.onOutboundRawError err]
      | none =>
          if x.wireCompatiblePassthrough then
            match x.outboundResponse with
            | some err => [.onOutboundRawError err]
            | none => if x.serialize.isSome then [] else Stage.raise x.inboundResponseMiddlewares
          else
            Stage.raise (firstFailure [x.outboundTransformResponse, x.llmResponseMiddlewares,
              failIf x.emptyResponse emptyResponseError, x.inboundTransformResponse,
              x.inboundResponseMiddlewares])

/-- The hooks after the request hooks have all passed, in order. -/
def Execution.hooks : Execution → List Hook
  | .stream executor stages =>
      Stage.raise (firstFailure [executor.failure streamFirstEventTimeoutError, stages.failure])
  | .autoAggregate executor stages aggregate =>
      Stage.raise (firstFailure [executor.failure nonStreamResponseTimeoutError, stages.failure,
        aggregate.failure])
  | .nonStream executor providerError stages =>
      match firstFailure [executor.failure nonStreamResponseTimeoutError, providerError] with
      | some err => [.onOutboundRawError err]
      | none => stages.hooks
  | .live executed firstEventTimedOut firstEvent ended =>
      match firstFailure [executed, failIf firstEventTimedOut streamFirstEventTimeoutError,
          firstEvent, failIf ended (upstreamError "upstream stream ended before first event")] with
      | some err => [.onOutboundRawError err]
      | none => [.onOutboundLiveStreamClose]

/-- An attempt: the stages before the raw request hooks, which run no hook when
they fail, the request hooks of the middlewares before and after the observed
one, and the execution. -/
structure Exchange where
  prepared : Stage
  earlierRequestMiddlewares : Stage
  laterRequestMiddlewares : Stage
  execution : Execution

/-! ## Requests in flight -/

/-- The hooks of a middleware, on state `S` shared by all requests and with
what it keeps in the context of a request. -/
structure AttemptHooks (S Own : Type) where
  onOutboundRawRequest : Int → Metadata → S → Own → Except ConduitError (S × Own)
  onOutboundRawResponse : Metadata → S → Own → S × Own
  onOutboundRawError : Int → ConduitError → Metadata → S → Own → S × Own
  onOutboundLiveStreamClose : Metadata → S → Own → S × Own
  /-- What it keeps in a fresh context. -/
  fresh : Own

/-- A request: `todo` are the hooks that its attempt still has to run, and
`holding` says that the admission of this attempt took a slot and that no later
hook of it has run. -/
structure Request (Own : Type) where
  metadata : Metadata
  own : Own
  todo : Option (List Hook)
  holding : Bool

structure Pool (S Own : Type) where
  store : S
  requests : Table (Request Own)

inductive PoolAction
  | accept (metadata : Metadata)
  | attempt (id : Nat) (stamp : Metadata → Metadata) (now : Int) (exchange : Exchange)
  | hook (id : Nat) (now : Int)
  | finish (id : Nat)

section Pool

variable {S Own : Type} (m : AttemptHooks S Own) (takes : Int → Metadata → S → Bool)

namespace AttemptHooks

def run (hook : Hook) (now : Int) (metadata : Metadata) (store : S) (own : Own) : S × Own :=
  match hook with
  | .onOutboundRawResponse => m.onOutboundRawResponse metadata store own
  | .onOutboundRawError err => m.onOutboundRawError now err metadata store own
  | .onOutboundLiveStreamClose => m.onOutboundLiveStreamClose metadata store own

/-- The start of an attempt, up to the request hooks of the whole chain. -/
def begin (now : Int) (x : Exchange) (store : S) (request : Request Own) : S × Request Own :=
  match x.prepared with
  | some _ => (store, { request with todo := some [] })
  | none =>
      match x.earlierRequestMiddlewares with
      | some err => (store, { request with todo := some [.onOutboundRawError err] })
      | none =>
          match m.onOutboundRawRequest now request.metadata store request.own with
          | .error err => (store, { request with todo := some [.onOutboundRawError err] })
          | .ok (store', own) =>
              (store',
                { request with
                  own
                  holding := takes now request.metadata store
                  todo := some (match x.laterRequestMiddlewares with
                    | some err => [.onOutboundRawError err]
                    | none => x.execution.hooks) })

end AttemptHooks

namespace Pool

variable (pool : Pool S Own)

def replace (id : Nat) (result : S × Request Own) : Pool S Own where
  store := result.1
  requests := pool.requests.updateRow id fun _ => result.2

/-- A request makes one attempt at a time. -/
def step : PoolAction → Pool S Own
  | .accept metadata =>
      { pool with requests := pool.requests.insertRow ⟨metadata, m.fresh, none, false⟩ }
  | .attempt id stamp now x =>
      match pool.requests[id]? with
      | some request =>
          if request.todo = none then
            pool.replace id (m.begin takes now x pool.store
              { request with metadata := stamp request.metadata })
          else pool
      | none => pool
  | .hook id now =>
      match pool.requests[id]? with
      | some request =>
          match request.todo with
          | some (hook :: rest) =>
              let result := m.run hook now request.metadata pool.store request.own
              pool.replace id
                (result.1, { request with own := result.2, todo := some rest, holding := false })
          | _ => pool
      | none => pool
  | .finish id =>
      match pool.requests[id]? with
      | some request =>
          if request.todo = some [] then
            pool.replace id (pool.store, { request with todo := none, holding := false })
          else pool
      | none => pool

end Pool

/-- Requests around one middleware, which starts with `store`. -/
def requests (store : S) : TSys (Pool S Own) PoolAction where
  init := ⟨store, []⟩
  step := Pool.step m takes

end Pool

end Conduit.Pipeline
