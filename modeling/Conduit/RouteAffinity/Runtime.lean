import Conduit.Base.History
import Conduit.Base.Json
import Conduit.RouteAffinity.Repository

/-!
# Processes that share a repository and a remote cache

Every process looks routes up through a local and a remote cache and writes
what the repository answers back to both. A call reads the clock once, at its
start, and then waits for one cache or repository at a time; between two of
these steps any other call may run, and a call may be dropped.

A cache is as weak as can be: it answers with any value that was ever set for
the key, or with none, or fails, and a write that fails may have happened.
-/

namespace Conduit.RouteAffinity

open Base Base.Json

/-! ## Cache entries -/

structure RouteAffinityCacheEntry where
  row : Option RouteAffinityRow
  validUntil : Int

/-- The text of an instant and how it is read back. -/
structure TimeCodec where
  render : Int → String
  parse : String → Option Int
  parse_render : ∀ instant, parse (render instant) = some instant

namespace TimeCodec

variable (times : TimeCodec)

def encode (instant : Int) : Json := .string (times.render instant)

def decode (value : Json) : Option Int := value.asStr.bind times.parse

@[simp] theorem decode_encode (instant : Int) : times.decode (times.encode instant) = some instant :=
  times.parse_render instant

end TimeCodec

namespace RouteAffinityRow

variable (times : TimeCodec)

def encode (row : RouteAffinityRow) : Json :=
  .object
    ([("id", .string row.id), ("projectId", .string row.projectId), ("keyClass", .string row.keyClass),
      ("keyHash", .string row.keyHash), ("publicModelId", .string row.publicModelId),
      ("apiFormat", .string row.apiFormat), ("channelId", .string row.channelId),
      ("upstreamModelId", .string row.upstreamModelId),
      ("upstreamApiFormat", .string row.upstreamApiFormat)] ++
      optionalField "credentialIdentity" (row.credentialIdentity.map .string) ++
      [("expiresAt", times.encode row.expiresAt), ("createdAt", times.encode row.createdAt),
        ("updatedAt", times.encode row.updatedAt)])

def decode (value : Json) : Option RouteAffinityRow := do
  let fields ← value.asObject
  return {
    id := ← fieldRequired asStr fields "id"
    projectId := ← fieldRequired asStr fields "projectId"
    keyClass := ← fieldRequired asStr fields "keyClass"
    keyHash := ← fieldRequired asStr fields "keyHash"
    publicModelId := ← fieldRequired asStr fields "publicModelId"
    apiFormat := ← fieldRequired asStr fields "apiFormat"
    channelId := ← fieldRequired asStr fields "channelId"
    upstreamModelId := ← fieldRequired asStr fields "upstreamModelId"
    upstreamApiFormat := ← fieldRequired asStr fields "upstreamApiFormat"
    credentialIdentity := ← fieldOption asStr fields "credentialIdentity"
    expiresAt := ← fieldRequired times.decode fields "expiresAt"
    createdAt := ← fieldRequired times.decode fields "createdAt"
    updatedAt := ← fieldRequired times.decode fields "updatedAt" }

theorem decode_encode (row : RouteAffinityRow) : decode times (row.encode times) = some row := by
  obtain ⟨id, projectId, keyClass, keyHash, publicModelId, apiFormat, channelId, upstreamModelId,
    upstreamApiFormat, credentialIdentity, expiresAt, createdAt, updatedAt⟩ := row
  have htime : ∀ instant, times.decode (times.encode instant) = some instant := times.decode_encode
  unfold decode encode asObject
  -- one field after the other; those behind the optional one are looked up in both cases
  refine Option.bind_eq_some_iff.mpr ⟨_, rfl, ?_⟩
  refine Option.bind_eq_some_iff.mpr ⟨id, rfl, ?_⟩
  refine Option.bind_eq_some_iff.mpr ⟨projectId, rfl, ?_⟩
  refine Option.bind_eq_some_iff.mpr ⟨keyClass, rfl, ?_⟩
  refine Option.bind_eq_some_iff.mpr ⟨keyHash, rfl, ?_⟩
  refine Option.bind_eq_some_iff.mpr ⟨publicModelId, rfl, ?_⟩
  refine Option.bind_eq_some_iff.mpr ⟨apiFormat, rfl, ?_⟩
  refine Option.bind_eq_some_iff.mpr ⟨channelId, rfl, ?_⟩
  refine Option.bind_eq_some_iff.mpr ⟨upstreamModelId, rfl, ?_⟩
  refine Option.bind_eq_some_iff.mpr ⟨upstreamApiFormat, rfl, ?_⟩
  refine Option.bind_eq_some_iff.mpr ⟨credentialIdentity, by cases credentialIdentity <;> rfl, ?_⟩
  refine Option.bind_eq_some_iff.mpr ⟨expiresAt, ?_, ?_⟩
  · cases credentialIdentity <;> exact htime expiresAt
  refine Option.bind_eq_some_iff.mpr ⟨createdAt, ?_, ?_⟩
  · cases credentialIdentity <;> exact htime createdAt
  refine Option.bind_eq_some_iff.mpr ⟨updatedAt, ?_, rfl⟩
  cases credentialIdentity <;> exact htime updatedAt

end RouteAffinityRow

namespace RouteAffinityCacheEntry

variable (times : TimeCodec)

def encode (entry : RouteAffinityCacheEntry) : Json :=
  .object [("row", (entry.row.map (RouteAffinityRow.encode times)).getD .null),
    ("valid_until", times.encode entry.validUntil)]

def decode (value : Json) : Option RouteAffinityCacheEntry := do
  let fields ← value.asObject
  return {
    row := ← fieldOption (RouteAffinityRow.decode times) fields "row"
    validUntil := ← fieldRequired times.decode fields "valid_until" }

theorem decode_encode (entry : RouteAffinityCacheEntry) :
    decode times (entry.encode times) = some entry := by
  obtain ⟨row, validUntil⟩ := entry
  cases row with
  | none => simp [encode, decode, fieldRequired, fieldOption, asObject, Json.isNull]
  | some row =>
      have hobject : (row.encode times).isNull = false := rfl
      simp [encode, decode, fieldRequired, fieldOption, asObject, hobject,
        RouteAffinityRow.decode_encode]

end RouteAffinityCacheEntry

/-! ## The runtime -/

/-- Lifetimes in nanoseconds. -/
structure RouteAffinityRuntimeConfig where
  lookupCacheTtl : Nat
  negativeCacheTtl : Nat

/-- No cached answer is younger than it claims by more than this. -/
def RouteAffinityRuntimeConfig.longestTtl (config : RouteAffinityRuntimeConfig) : Nat :=
  max config.lookupCacheTtl config.negativeCacheTtl

structure Environment where
  config : RouteAffinityRuntimeConfig
  times : TimeCodec
  /-- SHA-256 in hexadecimal digits. -/
  digest : List UInt8 → String
  digest_injective : ∀ bytes bytes', digest bytes = digest bytes' → bytes = bytes'
  /-- The last instant of the calendar. -/
  maxUtc : Int

/-- `to_be_bytes` of a length. -/
def toBeBytes (length : Nat) : List UInt8 :=
  [7, 6, 5, 4, 3, 2, 1, 0].map fun i => UInt8.ofNat (length / 256 ^ i)

/-- A part of a key behind its length. -/
def hashedPart (part : String) : List UInt8 :=
  toBeBytes part.toByteArray.data.toList.length ++ part.toByteArray.data.toList

def RouteAffinityKey.parts (key : RouteAffinityKey) : List String :=
  [key.projectId, key.keyClass, key.keyHash, key.publicModelId, key.apiFormat]

def affinityCacheKey (env : Environment) (key : RouteAffinityKey) : String :=
  "route_affinity:v2:" ++ env.digest (key.parts.flatMap hashedPart)

/-- The longest duration: `i64::MAX` milliseconds. -/
def maxDuration : Nat := 9223372036854775807 * 1000000

def cacheDeadline (env : Environment) (now : Int) (ttl : Nat) : Option Int :=
  if ttl ≤ maxDuration ∧ now + ttl ≤ env.maxUtc then some (now + ttl) else none

def routeCacheValue (env : Environment) (row : Option RouteAffinityRow) (now : Int) (ttl : Nat) :
    Option Json :=
  (cacheDeadline env now ttl).map fun validUntil =>
    RouteAffinityCacheEntry.encode env.times { row, validUntil }

/-! ## Calls -/

inductive Source
  | cache
  | repository
  deriving DecidableEq

/-- What a call returned. -/
inductive Outcome
  | looked (key : RouteAffinityKey) (now : Int) (source : Source) (row : Option RouteAffinityRow)
  | remembered (row : RouteAffinityRow)
  | failed

/-- Where a call is. -/
inductive Call
  | getLocal (key : RouteAffinityKey) (now : Int)
  | getRemote (key : RouteAffinityKey) (now : Int)
  | backfill (key : RouteAffinityKey) (now : Int) (value : Json)
  | findValid (key : RouteAffinityKey) (now : Int)
  | upsert (input : UpsertRouteAffinityInput) (now : Int)
  | setRemote (cacheKey : String) (value : Json) (outcome : Outcome)
  | setLocal (cacheKey : String) (value : Json) (outcome : Outcome)
  | returned (outcome : Outcome)

/-- How a cache or the repository answers a call: a cache with one of the values
that were set for the key. A failure may come after the write was made. -/
inductive Reply
  | value (index : Nat)
  | missing
  | done (freshId : String)
  | failed (applied : Bool) (freshId : String)

structure State where
  clock : Int
  repo : RouteAffinityRepo
  /-- Every value that was ever set in the remote cache. -/
  remote : List (String × Json)
  /-- Every value that was ever set in the local cache of a process. -/
  memory : Nat → List (String × Json)
  /-- The calls by number, with their processes. -/
  calls : Nat → Option (Nat × Call)

namespace State

def setMemory (s : State) (process : Nat) (cacheKey : String) (value : Json) : State :=
  { s with memory := fun other =>
      if other = process then (cacheKey, value) :: s.memory process else s.memory other }

def setRemote (s : State) (cacheKey : String) (value : Json) : State :=
  { s with remote := (cacheKey, value) :: s.remote }

def setRepo (s : State) (repo : RouteAffinityRepo) : State := { s with repo := repo }

def setCall (s : State) (call : Nat) (entry : Option (Nat × Call)) : State :=
  { s with calls := fun other => if other = call then entry else s.calls other }

end State

variable (env : Environment)

/-- `lookup` once the cache has answered: with `none` it did not, or failed. -/
def readCache (key : RouteAffinityKey) (now : Int) (value : Option Json) : Call :=
  match value.bind (RouteAffinityCacheEntry.decode env.times) with
  | none => .findValid key now
  | some entry =>
      if entry.validUntil ≤ now then .findValid key now
      else
        match entry.row with
        | none => .returned (.looked key now .cache none)
        | some row =>
            if rowMatchesKey row key && decide (now < row.expiresAt) then
              .returned (.looked key now .cache (some row))
            else .findValid key now

/-- Begins `set` of both caches, or returns if there is nothing to set. -/
def writeCache (key : RouteAffinityKey) (value : Option Json) (outcome : Outcome) : Call :=
  match value with
  | none => .returned outcome
  | some value => .setRemote (affinityCacheKey env key) value outcome

/-- `cache_positive`. -/
def cachePositive (key : RouteAffinityKey) (row : RouteAffinityRow) (now : Int) (outcome : Outcome) :
    Call :=
  let remaining := (row.expiresAt - now).toNat
  if remaining = 0 then .returned outcome
  else
    writeCache env key
      (routeCacheValue env (some row) now (min remaining env.config.lookupCacheTtl)) outcome

/-- `lookup` once the repository has answered. -/
def cacheAnswer (key : RouteAffinityKey) (now : Int) (row : Option RouteAffinityRow) : Call :=
  let outcome := Outcome.looked key now .repository row
  match row with
  | some row => cachePositive env key row now outcome
  | none =>
      writeCache env key (routeCacheValue env none now env.config.negativeCacheTtl) outcome

/-- One of the values that were set for a key. -/
def everSet (entries : List (String × Json)) (cacheKey : String) (index : Nat) : Option Json :=
  ((entries.filter fun entry => entry.1 = cacheKey)[index]?).map Prod.snd

/-- The next step of a call; a reply that the call does not wait for, or that
the cache cannot give, changes nothing. -/
def resume (s : State) (process : Nat) (call : Call) (reply : Reply) : State × Call :=
  match call, reply with
  | .getLocal key now, .value index =>
      match everSet (s.memory process) (affinityCacheKey env key) index with
      | some value => (s, readCache env key now (some value))
      | none => (s, call)
  | .getLocal key now, .missing => (s, .getRemote key now)
  | .getLocal key now, .failed _ _ => (s, readCache env key now none)
  | .getRemote key now, .value index =>
      match everSet s.remote (affinityCacheKey env key) index with
      | some value => (s, .backfill key now value)
      | none => (s, call)
  | .getRemote key now, .missing => (s, readCache env key now none)
  | .getRemote key now, .failed _ _ => (s, readCache env key now none)
  | .backfill key now value, .done _ =>
      (s.setMemory process (affinityCacheKey env key) value, readCache env key now (some value))
  | .backfill key now value, .failed applied _ =>
      (if applied then s.setMemory process (affinityCacheKey env key) value else s,
        readCache env key now none)
  | .findValid key now, .done _ => (s, cacheAnswer env key now (s.repo.findValidRouteAffinity key now))
  | .findValid _ _, .failed _ _ => (s, .returned .failed)
  | .upsert input now, .done freshId =>
      (s.setRepo (s.repo.upsertRouteAffinity input freshId now),
        cachePositive env input.key (s.repo.upserted input freshId now) now
          (.remembered (s.repo.upserted input freshId now)))
  | .upsert input now, .failed applied freshId =>
      (if applied then s.setRepo (s.repo.upsertRouteAffinity input freshId now) else s,
        .returned .failed)
  | .setRemote cacheKey value outcome, .done _ =>
      (s.setRemote cacheKey value, .setLocal cacheKey value outcome)
  | .setRemote cacheKey value outcome, .failed applied _ =>
      (if applied then s.setRemote cacheKey value else s, .returned outcome)
  | .setLocal cacheKey value outcome, .done _ =>
      (s.setMemory process cacheKey value, .returned outcome)
  | .setLocal cacheKey value outcome, .failed applied _ =>
      (if applied then s.setMemory process cacheKey value else s, .returned outcome)
  | _, _ => (s, call)

/-! ## Runs -/

inductive Action
  | tick (elapsed : Nat)
  | lookup (call process : Nat) (key : RouteAffinityKey)
  | remember (call process : Nat) (input : UpsertRouteAffinityInput)
  /-- The repository call of a cleanup that read the clock at `now`. -/
  | purgeExpired (now : Int) (chosen : RouteAffinityRow → Bool)
  | proceed (call : Nat) (reply : Reply)
  | drop (call : Nat)

/-- The number of a call is not given to another one. -/
def State.begin (s : State) (call process : Nat) (start : Call) : State :=
  match s.calls call with
  | none => s.setCall call (some (process, start))
  | some _ => s

def step (s : State) : Action → State
  | .tick elapsed => { s with clock := s.clock + elapsed }
  | .lookup call process key => s.begin call process (.getLocal key s.clock)
  | .remember call process input => s.begin call process (.upsert input s.clock)
  | .purgeExpired now chosen =>
      if now ≤ s.clock then s.setRepo (s.repo.deleteExpiredRouteAffinities now chosen) else s
  | .proceed call reply =>
      match s.calls call with
      | none => s
      | some (process, state) =>
          (resume env s process state reply).1.setCall call
            (some (process, (resume env s process state reply).2))
  | .drop call => s.setCall call none

/-- Processes over a repository with some rows, the caches empty. -/
def system (clock : Int) (rows : List RouteAffinityRow) : TSys State Action where
  init := { clock, repo := { rows }, remote := [], memory := fun _ => [], calls := fun _ => none }
  step := step env

end Conduit.RouteAffinity
