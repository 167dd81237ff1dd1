import Conduit.Base.FixedWindow
import Conduit.Base.ParseInt
import Conduit.Base.TSys
import Conduit.Pipeline.Context

/-!
# Requests per minute

`RateLimitAdmissionMiddleware` limits the attempts on a channel and
`QuotaEnforcementMiddleware` the requests of an API key. Both count in windows
of a minute. A count never exceeds its limit, so it is a natural number here.
-/

namespace Conduit.Middlewares

open Base Base.FixedWindow Pipeline

/-! ## Time -/

/-- `Instant` and `Duration` count nanoseconds. -/
def millisecond : Nat := 1000000

def second : Nat := 1000 * millisecond

def minute : Nat := 60 * second

theorem minute_pos : 0 < minute := by decide

/-! ## Channels that cool down -/

/-- `HashMap<String, Instant>` as its lookup function. -/
abbrev Cooldowns := String → Option Nat

namespace ChannelCooldownTracker

def setCooldown (now : Nat) (channelId : String) (duration : Nat) (cooldowns : Cooldowns) :
    Cooldowns :=
  let until' := now + duration
  let entry := (cooldowns channelId).getD until'
  Function.update cooldowns channelId (some (if entry < until' then until' else entry))

/-- A cooldown that is over is removed. -/
def remaining (now : Nat) (channelId : String) (cooldowns : Cooldowns) : Cooldowns × Option Nat :=
  match cooldowns channelId with
  | none => (cooldowns, none)
  | some until' =>
      if until' ≤ now then (Function.update cooldowns channelId none, none)
      else (cooldowns, some (until' - now))

end ChannelCooldownTracker

/-! ## Admission of attempts on a channel -/

structure RateLimits where
  counters : String → Option Window
  cooldowns : Cooldowns

/-- An error with `retry_after_ms` in its metadata. -/
structure RateLimited where
  error : ConduitError
  retryAfterMs : Option Nat

namespace RateLimitAdmission

def rpmLimit (metadata : Metadata) : Option Nat :=
  ((metadata "channel_rpm_limit").bind (ParseInt.parseUnsigned UInt32.size)).filter fun limit =>
    0 < limit

def coolingDown (remaining : Nat) : RateLimited where
  error := .new .rateLimited "upstream channel is cooling down after rate limiting"
  retryAfterMs := some (min (remaining / millisecond) (UInt64.size - 1))

def exhausted : RateLimited where
  error := .new .rateLimited "rate limit exceeded: requests per minute quota exhausted"
  retryAfterMs := none

def onOutboundRawRequest (now : Nat) (metadata : Metadata) (s : RateLimits) :
    RateLimits × Except RateLimited Unit :=
  let channelId := (metadata "channel_id").getD ""
  if channelId = "" then (s, .ok ())
  else
    match ChannelCooldownTracker.remaining now channelId s.cooldowns with
    | (cooldowns, some remaining) => ({ s with cooldowns }, .error (coolingDown remaining))
    | (cooldowns, none) =>
        match rpmLimit metadata with
        | none => ({ s with cooldowns }, .ok ())
        | some limit =>
            let entry := (s.counters channelId).getD ⟨now, 0⟩
            -- reset the window if it expired
            let entry := if minute ≤ now - entry.start then ⟨now, 0⟩ else entry
            if limit ≤ entry.count then
              (⟨Function.update s.counters channelId (some entry), cooldowns⟩, .error exhausted)
            else
              let entry := { entry with count := entry.count + 1 }
              (⟨Function.update s.counters channelId (some entry), cooldowns⟩, .ok ())

/-- A channel with a limit. -/
structure LimitedChannel where
  id : String
  limit : Nat
  named : id ≠ ""
  positive : 0 < limit

/-- What reaches the middleware. Attempts on other channels come with any
limit; the ones on the channel come with its own. -/
inductive Event (channel : LimitedChannel)
  | attempt (metadata : Metadata) (limited : metadata "channel_id" = some channel.id →
      rpmLimit metadata = some channel.limit)
  | setCooldown (channelId : String) (duration : Nat)

/-- The event is an attempt on the channel while it does not cool down. -/
def concerns (channel : LimitedChannel) (now : Nat) (event : Event channel) (s : RateLimits) :
    Bool :=
  match event with
  | .attempt metadata _ => metadata "channel_id" = some channel.id &&
      (ChannelCooldownTracker.remaining now channel.id s.cooldowns).2.isNone
  | .setCooldown _ _ => false

/-- One event, and whether it was an attempt on the channel that its limit
admitted or turned away. -/
def arrive (channel : LimitedChannel) (now : Nat) (event : Event channel) (s : RateLimits) :
    RateLimits × Option Bool :=
  match event with
  | .setCooldown channelId duration =>
      ({ s with cooldowns := ChannelCooldownTracker.setCooldown now channelId duration s.cooldowns },
        none)
  | .attempt metadata _ =>
      let (next, result) := onOutboundRawRequest now metadata s
      if metadata "channel_id" = some channel.id then
        match result with
        | .ok () => (next, some true)
        | .error rejection => (next, if rejection.retryAfterMs.isSome then none else some false)
      else (next, none)

end RateLimitAdmission

/-! ## Admission of requests of an API key -/

namespace QuotaEnforcement

def rpmLimit (metadata : Metadata) : Option Nat :=
  match metadata "api_key_quota_rpm" with
  | none => none
  | some rpm =>
      if rpm = "" then none
      else (ParseInt.parseUnsigned UInt64.size rpm).filter fun limit => 0 < limit

def apiKeyId (metadata : Metadata) : Option Int :=
  match metadata "api_key_id" with
  | none => none
  | some keyId => if keyId = "" then none else ParseInt.parseSigned (2 ^ 63) keyId

def quotaExceeded (apiKeyId : Int) (rpmLimit : Nat) : ConduitError :=
  (ConduitError.new .forbidden
    s!"API key {apiKeyId} exceeded the quota of {rpmLimit} requests per minute").withCode
    "quota_exceeded"

def onInboundLlmRequest (now : Nat) (metadata : Metadata) (counters : Int → Option Window) :
    (Int → Option Window) × Except ConduitError Unit :=
  match rpmLimit metadata, apiKeyId metadata with
  | some limit, some keyId =>
      let window := (counters keyId).getD ⟨now, 0⟩
      -- `as_secs` rounds down
      let window := if 60 ≤ (now - window.start) / second then ⟨now, 0⟩ else window
      if limit ≤ window.count then
        (Function.update counters keyId (some window), .error (quotaExceeded keyId limit))
      else
        let window := { window with count := window.count + 1 }
        (Function.update counters keyId (some window), .ok ())
  | _, _ => (counters, .ok ())

/-- An API key with a quota. -/
structure LimitedKey where
  id : Int
  limit : Nat
  positive : 0 < limit

/-- A request of any key. The ones of the key come with its quota. -/
structure KeyRequest (key : LimitedKey) where
  metadata : Metadata
  limited : apiKeyId metadata = some key.id → rpmLimit metadata = some key.limit

def concerns (key : LimitedKey) (request : KeyRequest key) : Bool :=
  apiKeyId request.metadata = some key.id

/-- One request, and whether it was one of the key that was admitted or not. -/
def arrive (key : LimitedKey) (now : Nat) (request : KeyRequest key)
    (counters : Int → Option Window) : (Int → Option Window) × Option Bool :=
  let (next, result) := onInboundLlmRequest now request.metadata counters
  if apiKeyId request.metadata = some key.id then (next, some result.isOk) else (next, none)

end QuotaEnforcement

end Conduit.Middlewares
