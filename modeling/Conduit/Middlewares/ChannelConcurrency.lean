import Conduit.Pipeline.Attempts
import Conduit.Base.ParseInt

/-!
# The channel concurrency limiter

`ChannelConcurrencyMiddleware`: a counter of attempts in flight for each
channel. The metadata key `channel_limiter_acquired`, which only the limiter
writes, is what it keeps in the context of a request.
-/

namespace Conduit.Middlewares

open Base Pipeline

/-- `str::parse::<u32>`. -/
def parseU32 (text : String) : Option UInt32 :=
  (ParseInt.parseUnsigned UInt32.size text).map UInt32.ofNat

/-- `HashMap<String, u32>` as its lookup function. -/
abbrev ChannelCounters := String → Option UInt32

namespace ChannelConcurrency

variable (defaultMaxConcurrent : UInt32)

def channelId (metadata : Metadata) : Option String := metadata "channel_id"

/-- `effective_limit`; zero is unlimited. -/
def effectiveLimit (metadata : Metadata) : UInt32 :=
  ((metadata "channel_max_concurrent").bind parseU32).getD defaultMaxConcurrent

def onOutboundRawRequest (metadata : Metadata) (counters : ChannelCounters) (acquired : Bool) :
    Except ConduitError (ChannelCounters × Bool) :=
  let max := effectiveLimit defaultMaxConcurrent metadata
  if max = 0 then .ok (counters, acquired)
  else
    match channelId metadata with
    | none => .ok (counters, acquired)
    | some channel =>
        let current := (counters channel).getD 0
        if max ≤ current then .error (.new .rateLimited "channel concurrency limit exceeded")
        else .ok (Function.update counters channel (some (current + 1)), true)

/-- `release_slot`. A counter that reaches zero is removed. -/
def releaseSlot (metadata : Metadata) (counters : ChannelCounters) (acquired : Bool) :
    ChannelCounters × Bool :=
  if !acquired then (counters, acquired)
  else
    match channelId metadata with
    | none => (counters, false)
    | some channel =>
        match counters channel with
        | none => (counters, false)
        | some count =>
            let count := if count = 0 then 0 else count - 1
            (Function.update counters channel (if count = 0 then none else some count), false)

def hooks : AttemptHooks ChannelCounters Bool where
  onOutboundRawRequest _ := onOutboundRawRequest defaultMaxConcurrent
  onOutboundRawResponse := releaseSlot
  onOutboundRawError _ _ := releaseSlot
  onOutboundLiveStreamClose := releaseSlot
  fresh := false

/-- An admission takes a slot of its channel. -/
def takesSlot (_ : Int) (metadata : Metadata) (counters : ChannelCounters) : Bool :=
  effectiveLimit defaultMaxConcurrent metadata ≠ 0 &&
    (channelId metadata).any fun channel =>
      (counters channel).getD 0 < effectiveLimit defaultMaxConcurrent metadata

/-- Requests through a pipeline with a limiter that counts nothing yet. -/
def system : TSys (Pool ChannelCounters Bool) PoolAction :=
  requests (hooks defaultMaxConcurrent) (takesSlot defaultMaxConcurrent) fun _ => none

end ChannelConcurrency

end Conduit.Middlewares
