import Conduit.Pipeline.Attempts

/-!
# The model circuit breaker

`ModelCircuitBreakerMiddleware`. Its map of circuits is shared by all requests;
a circuit is closed, open until an instant, or half open with one probe.
Instants and durations are counted in one unit.
-/

namespace Conduit.Middlewares

open Base Pipeline

structure CircuitState where
  errorCount : UInt32
  cooldownUntil : Option Int
  halfOpenProbeInFlight : Bool
deriving DecidableEq, Repr

structure CircuitBreakerConfig where
  maxErrors : UInt32
  cooldownDuration : Nat
deriving DecidableEq, Repr

namespace CircuitState

/-- `or_insert`. -/
def closed : CircuitState := ⟨0, none, false⟩

/-- After an answer of a reachable provider. -/
def reset (_ : CircuitState) : CircuitState := closed

/-- A local rejection gives the probe back. -/
def releaseProbe (now : Int) (circuit : CircuitState) : CircuitState :=
  if circuit.halfOpenProbeInFlight then
    { circuit with halfOpenProbeInFlight := false, cooldownUntil := some now }
  else circuit

/-- `error_count.saturating_add(1)`. -/
def nextCount (circuit : CircuitState) : UInt32 :=
  if circuit.errorCount.toNat + 1 < UInt32.size then circuit.errorCount + 1
  else circuit.errorCount

/-- One more failure opens the circuit. -/
def opens (config : CircuitBreakerConfig) (circuit : CircuitState) : Bool :=
  circuit.halfOpenProbeInFlight || config.maxErrors ≤ circuit.nextCount

/-- One more failure. -/
def count (config : CircuitBreakerConfig) (now : Int) (circuit : CircuitState) : CircuitState :=
  if circuit.opens config then
    { errorCount := circuit.nextCount
      cooldownUntil := some (now + config.cooldownDuration)
      halfOpenProbeInFlight := false }
  else { circuit with errorCount := circuit.nextCount }

end CircuitState

/-- `HashMap<String, CircuitState>` as its lookup function. -/
abbrev Circuits := String → Option CircuitState

namespace Circuits

def insert (circuits : Circuits) (key : String) (circuit : CircuitState) : Circuits :=
  Function.update circuits key (some circuit)

/-- `get_mut`. -/
def update (circuits : Circuits) (key : String) (f : CircuitState → CircuitState) : Circuits :=
  match circuits key with
  | some circuit => circuits.insert key (f circuit)
  | none => circuits

end Circuits

namespace ModelCircuitBreaker

def resolveModel (metadata : Metadata) (requestModel : Option String) : Option String :=
  (metadata "actual_model").or requestModel

/-- `resolve_key`. -/
def resolveKey (metadata : Metadata) (requestModel : Option String) : Option String :=
  (resolveModel metadata requestModel).map fun model =>
    let channel := (metadata "channel_id").getD ""
    let credential := (metadata "credential_identity").getD ""
    if channel = "" ∧ credential = "" then model
    else channel ++ "\x1f" ++ model ++ "\x1f" ++ credential

def enabledFor (metadata : Metadata) : Bool :=
  match metadata "load_balance_strategy" with
  | none => true
  | some strategy => strategy = "circuit-breaker"

/-- The row that a hook works on, if the breaker is enabled and the key is not
empty. -/
def rowKey (metadata : Metadata) (requestModel : Option String) : Option String :=
  if enabledFor metadata then (resolveKey metadata requestModel).filter (· ≠ "") else none

/-- The row of the request hook. -/
def requestKey (metadata : Metadata) : Option String := rowKey metadata none

/-- The row of the response and the error hook. -/
def answerKey (metadata : Metadata) : Option String := rowKey metadata (metadata "request_model")

def openError (model : String) (errorCount : UInt32) : ConduitError :=
  (ConduitError.new .upstream
    s!"model circuit breaker open: {model} is in cooldown after {errorCount} consecutive errors").withCode
    "model_circuit_open"

def halfOpenError (model : String) : ConduitError :=
  (ConduitError.new .upstream
    s!"model circuit breaker half-open: probe in flight for {model}").withCode
    "model_circuit_half_open"

def onOutboundRawRequest (now : Int) (metadata : Metadata) (circuits : Circuits) :
    Except ConduitError Circuits :=
  match requestKey metadata with
  | none => .ok circuits
  | some key =>
      let model := (resolveModel metadata none).getD ""
      match circuits key with
      | none => .ok circuits
      | some circuit =>
          match circuit.cooldownUntil with
          | some until' =>
              if now < until' then .error (openError model circuit.errorCount)
              else
                .ok (circuits.insert key
                  { circuit with cooldownUntil := none, halfOpenProbeInFlight := true })
          | none =>
              if circuit.halfOpenProbeInFlight then .error (halfOpenError model)
              else .ok circuits

def onOutboundRawResponse (metadata : Metadata) (circuits : Circuits) : Circuits :=
  match answerKey metadata with
  | some key => circuits.update key .reset
  | none => circuits

def isCircuitCode (err : ConduitError) : Bool :=
  err.code = some "model_circuit_open" || err.code = some "model_circuit_half_open"

/-- A provider 4xx other than 429. -/
def isClientMistake (err : ConduitError) : Bool :=
  err.providerStatus.any fun status => 400 ≤ status && status < 500 && status ≠ 429

def onOutboundRawError (config : CircuitBreakerConfig) (now : Int) (err : ConduitError)
    (metadata : Metadata) (circuits : Circuits) : Circuits :=
  if isCircuitCode err then circuits
  else
    match answerKey metadata with
    | none => circuits
    | some key =>
        if err.kind ≠ .upstream then circuits.update key (.releaseProbe now)
        else if isClientMistake err then circuits.update key .reset
        else
          circuits.insert key (((circuits key).getD .closed).count config now)

/-- The hooks of the breaker, which keeps nothing in the context. -/
def hooks (config : CircuitBreakerConfig) : AttemptHooks Circuits Unit where
  onOutboundRawRequest now metadata circuits _ :=
    (onOutboundRawRequest now metadata circuits).map fun circuits => (circuits, ())
  onOutboundRawResponse metadata circuits _ := (onOutboundRawResponse metadata circuits, ())
  onOutboundRawError now err metadata circuits _ :=
    (onOutboundRawError config now err metadata circuits, ())
  onOutboundLiveStreamClose _ circuits _ := (circuits, ())
  fresh := ()

/-- An admission at `now` is the half-open probe: the cooldown has elapsed. -/
def takesProbe (now : Int) (metadata : Metadata) (circuits : Circuits) : Bool :=
  ((requestKey metadata).bind circuits).any fun circuit =>
    circuit.cooldownUntil.any fun until' => until' ≤ now

/-- Requests through a pipeline with a breaker without circuits. -/
def system (config : CircuitBreakerConfig) : TSys (Pool Circuits Unit) PoolAction :=
  requests (hooks config) takesProbe fun _ => none

end ModelCircuitBreaker

end Conduit.Middlewares
