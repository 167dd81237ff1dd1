import Conduit.Middlewares.Logic.Consecutive
import Conduit.Middlewares.Logic.ChannelConcurrency
import Conduit.Middlewares.Logic.RateLimit

/-!
# What holds of the middlewares in a pipeline

The pipeline decides which hooks an attempt runs, so these are results about
both together: when the half-open probe of a circuit is tracked, when only
consecutive failures open a circuit, when the slots of a channel are conserved,
when a limit per minute holds in every minute.
-/

namespace Conduit.Middlewares

open Base Pipeline

/-- An attempt whose executor fails with a transport error. -/
def transportFailure : Exchange :=
  ⟨none, none, none, .stream ⟨false, some (upstreamError "unreachable")⟩ ⟨none, none, none, none, none⟩⟩

/-- A buffered stream that succeeds. -/
def streamSuccess : Exchange :=
  ⟨none, none, none, .stream ⟨false, none⟩ ⟨none, none, none, none, none⟩⟩

namespace ModelCircuitBreaker

/-! ## The half-open probe -/

/-- The flag of a circuit is set exactly while the attempt that was admitted as
its probe is in flight, there is at most one, and when no attempt on the key is
in flight a request is admitted from the end of the cooldown on. -/
structure OneProbe (pool : Pool Circuits Unit) : Prop extends ProbeTracked pool where
  admits : ∀ (metadata : Metadata) (now : Int) (key : String), requestKey metadata = some key →
    (∀ (id : Nat) (request : Request Unit), pool.requests[id]? = some request →
      requestKey request.metadata = some key → request.todo = none) →
    (∀ (circuit : CircuitState) (until' : Int), pool.store key = some circuit →
      circuit.cooldownUntil = some until' → until' ≤ now) →
    ∃ circuits : Circuits, onOutboundRawRequest now metadata pool.store = .ok circuits

theorem ProbeTracked.oneProbe {pool : Pool Circuits Unit} (h : ProbeTracked pool)
    (hsane : Sane pool) : OneProbe pool := by
  refine ⟨h, ?_⟩
  intro metadata now key hkey hidle hcooled
  have hfree : pool.store.probeInFlight key = false := by
    rw [← Bool.not_eq_true]
    intro hflag
    obtain ⟨id, request, hrequest, hholding, hholds⟩ := (h.flag key).mp hflag
    exact (hsane.settled id request hrequest hholding).1 (hidle id request hrequest hholds)
  unfold onOutboundRawRequest
  rw [hkey]
  dsimp only
  cases hrow : pool.store key with
  | none => exact ⟨_, rfl⟩
  | some circuit =>
      dsimp only
      cases hcooldown : circuit.cooldownUntil with
      | some until' =>
          dsimp only
          rw [if_neg (Int.not_lt.mpr (hcooled circuit until' hrow hcooldown))]
          exact ⟨_, rfl⟩
      | none =>
          have hflag : circuit.halfOpenProbeInFlight = false := by
            unfold Circuits.probeInFlight at hfree
            rw [hrow] at hfree
            exact hfree
          dsimp only
          rw [if_neg (by simp [hflag])]
          exact ⟨_, rfl⟩

/-- The probe is tracked in every state of a run exactly if every step of the
run gives back its own probe and no other. -/
theorem one_probe_iff (config : CircuitBreakerConfig) (actions : List PoolAction) :
    (∀ taken : List PoolAction, taken <+: actions →
      OneProbe ((system config).run (system config).init taken)) ↔
    (system config).Along ProbeKept (system config).init actions := by
  have hinit : ProbeTracked (system config).init := by
    refine ⟨fun key => ⟨fun hflag => absurd hflag (by simp [system, requests, Circuits.probeInFlight]), ?_⟩, ?_⟩
    · rintro ⟨id, request, hnone, _⟩
      exact absurd hnone (by simp [system, requests])
    · rintro key id id' ⟨request, hnone, _⟩
      exact absurd hnone (by simp [system, requests])
  refine (sane_inductive config).throughout_iff
    (hinit.oneProbe (sane_inductive config).init) ?_ actions
  intro pool a hsane h
  rw [← probeTracked_step config a hsane h.toProbeTracked]
  exact ⟨OneProbe.toProbeTracked, fun hnext =>
    hnext.oneProbe ((sane_inductive config).step pool a hsane)⟩

/-- The metadata of an attempt on one model. -/
def oneModel : Metadata := fun key => if key = "actual_model" then some "m" else none

/-- A probe that succeeds as a buffered stream runs no hook: its flag stays. -/
theorem stream_probe_wedges : ¬ ∀ (config : CircuitBreakerConfig) (actions taken : List PoolAction),
    taken <+: actions → OneProbe ((system config).run (system config).init taken) := by
  intro h
  have hprobe := h ⟨1, 0⟩ _ [.accept oneModel, .attempt 0 (fun m => m) 0 transportFailure, .hook 0 0, .finish 0,
    .accept oneModel, .attempt 1 (fun m => m) 0 streamSuccess, .finish 1] List.prefix_rfl
  obtain ⟨id, request, hrequest, hholding, _⟩ := (hprobe.flag "m").mp (by decide)
  have hnobody : ∀ request ∈ ((system ⟨1, 0⟩).run (system ⟨1, 0⟩).init [.accept oneModel,
      .attempt 0 (fun m => m) 0 transportFailure, .hook 0 0, .finish 0, .accept oneModel,
      .attempt 1 (fun m => m) 0 streamSuccess, .finish 1]).requests, request.holding = false := by
    decide
  exact absurd hholding (by simp [hnobody request (List.mem_of_getElem? hrequest)])

/-! ## Consecutive failures -/

/-- The circuit of a key rejects an attempt only after `max_errors` failures in
a row or a failed probe, and a success of any mode resets the count. -/
structure OpensOnFailures (config : CircuitBreakerConfig) (key : String) (s : Sequence) : Prop
    extends Counted config key s where
  opened : ∀ (now : Int) (metadata : Metadata) (err : ConduitError),
    requestKey metadata = some key → onOutboundRawRequest now metadata s.circuits = .error err →
    err.code = some "model_circuit_open" → ∃ trip, s.trip = some trip ∧ trip.Justified config
  reset : s.history.head? = some .success → errorsOf (s.circuits key) = 0

theorem Counted.opensOnFailures {config : CircuitBreakerConfig} {key : String} {s : Sequence}
    (h : Counted config key s) : OpensOnFailures config key s := by
  refine ⟨h, ?_, ?_⟩
  · intro now metadata err hkey herr hcode
    apply h.justified
    unfold onOutboundRawRequest at herr
    rw [hkey] at herr
    dsimp only at herr
    cases hrow : s.circuits key with
    | none =>
        rw [hrow] at herr
        exact absurd herr (by simp)
    | some circuit =>
        rw [hrow] at herr
        dsimp only at herr
        cases hcooldown : circuit.cooldownUntil with
        | some until' => simp [openOf, CircuitState.isOpen, hcooldown]
        | none =>
            rw [hcooldown] at herr
            dsimp only at herr
            split_ifs at herr
            rw [← Except.error.inj herr] at hcode
            exact absurd hcode (by simp [halfOpenError, ConduitError.withCode])
  · intro hhead
    have hnone : failures s.history = 0 := by
      unfold failures
      obtain ⟨rest, hrest⟩ := List.head?_eq_some_iff.mp hhead
      rw [hrest]
      rfl
    have := h.errors
    omega

/-- Only failures in a row open the circuit, in every state of a run, exactly
if every success that runs no response hook finds the count at zero. -/
theorem opens_on_failures_iff (config : CircuitBreakerConfig) (key : String)
    (attempts : List (KeyedAttempt key)) :
    (∀ made : List (KeyedAttempt key), made <+: attempts →
      OpensOnFailures config key
        ((sequential config key).run (sequential config key).init made)) ↔
    (sequential config key).Along (ResetAnyway config) (sequential config key).init attempts := by
  have htrivial : (sequential config key).Inductive fun _ => True := ⟨trivial, fun _ _ _ => trivial⟩
  have hinit : Counted config key (sequential config key).init :=
    ⟨Nat.zero_le _, fun hopen => absurd hopen (by simp [sequential, openOf, CircuitState.isOpen,
      CircuitState.closed])⟩
  refine htrivial.throughout_iff hinit.opensOnFailures ?_ attempts
  intro s attempt _ h
  rw [← counted_step s attempt h.toCounted]
  exact ⟨OpensOnFailures.toCounted, Counted.opensOnFailures⟩

/-- An attempt on the model, at the start of the clock. -/
def onModel (exchange : Exchange) : KeyedAttempt "m" where
  metadata := oneModel
  keyed := by decide
  now := 0
  answered := 0
  exchange := exchange

/-- A streamed success between two failures does not reset the count. -/
theorem stream_success_not_reset : ¬ ∀ (config : CircuitBreakerConfig) (key : String)
    (attempts made : List (KeyedAttempt key)), made <+: attempts →
      OpensOnFailures config key
        ((sequential config key).run (sequential config key).init made) := by
  intro h
  have hopens := h ⟨2, 60⟩ "m" _ [onModel transportFailure, onModel streamSuccess] List.prefix_rfl
  have hcount := hopens.reset (by decide)
  revert hcount
  decide

end ModelCircuitBreaker

namespace ChannelConcurrency

/-! ## Channel slots -/

variable (defaultMaxConcurrent : UInt32)

/-- In every state of a run the counter of a channel is the number of attempts
that hold one of its slots, only those can release one, and it is within any
limit that bounds the admissions of the run on the channel. -/
def SlotsKept (actions : List PoolAction) : Prop :=
  ∀ taken : List PoolAction, taken <+: actions →
    SlotsConserved ((system defaultMaxConcurrent).run (system defaultMaxConcurrent).init taken) ∧
    ∀ (channel : String) (limit : Nat),
      (system defaultMaxConcurrent).Along (Limited defaultMaxConcurrent channel limit)
        (system defaultMaxConcurrent).init taken →
      inUse ((system defaultMaxConcurrent).run (system defaultMaxConcurrent).init taken).store
        channel ≤ limit

/-- The slots are kept exactly if no attempt that holds one ends without a hook. -/
theorem slots_kept_iff (actions : List PoolAction) :
    SlotsKept defaultMaxConcurrent actions ↔
      (system defaultMaxConcurrent).Along SlotReturned (system defaultMaxConcurrent).init actions := by
  have hinit : SlotsConserved (system defaultMaxConcurrent).init :=
    ⟨fun _ => rfl, fun _ _ hnone => absurd hnone (by simp [system, requests])⟩
  rw [← (system_settled defaultMaxConcurrent).throughout_iff hinit
    (fun _ a hsettled h => slotsConserved_step a hsettled h) actions]
  constructor
  · exact fun h taken htaken => (h taken htaken).1
  · intro h taken htaken
    refine ⟨h taken htaken, ?_⟩
    intro channel limit hlimited
    have hstep : ∀ (pool : Pool ChannelCounters Bool) (a : PoolAction),
        inUse pool.store channel ≤ limit → Limited defaultMaxConcurrent channel limit pool a →
        inUse ((system defaultMaxConcurrent).step pool a).store channel ≤ limit :=
      fun _ a hle => inUse_step a hle
    exact TSys.Along.run hstep taken _ (Nat.zero_le _) hlimited

/-- The metadata of an attempt on a channel with two slots. -/
def twoSlots : Metadata := fun key =>
  if key = "channel_id" then some "c" else if key = "channel_max_concurrent" then some "2" else none

/-- A buffered stream that succeeds never gives its slot back. -/
theorem stream_slot_leaks : ¬ ∀ (defaultMaxConcurrent : UInt32) (actions : List PoolAction),
    SlotsKept defaultMaxConcurrent actions := by
  intro h
  have hconserved := (h 0 [.accept twoSlots, .attempt 0 (fun m => m) 0 streamSuccess, .finish 0] _
    List.prefix_rfl).1
  have hcount := hconserved.inUse "c"
  revert hcount
  decide

end ChannelConcurrency

namespace RateLimitAdmission

/-! ## Requests per minute -/

/-- The limit per minute of a channel and the quota of an API key hold in every
minute of a run, and only an exhausted minute turns a request away, exactly if
each arrival that is among the first of its window comes a minute after the one
of the window before whose place in the last `limit` it takes. -/
theorem rpm_limit_iff (channel : LimitedChannel) (attempts : List (FixedWindow.Timed (Event channel)))
    (key : QuotaEnforcement.LimitedKey)
    (requests : List (FixedWindow.Timed (QuotaEnforcement.KeyRequest key))) :
    ((limiter channel).SlidesAlong attempts ↔
      FixedWindow.Spaced minute channel.limit ((limiter channel).arrivedAt attempts)) ∧
    ((QuotaEnforcement.limiter key).SlidesAlong requests ↔
      FixedWindow.Spaced minute key.limit ((QuotaEnforcement.limiter key).arrivedAt requests)) :=
  ⟨(limiter channel).slidesAlong_iff_spaced attempts,
    (QuotaEnforcement.limiter key).slidesAlong_iff_spaced requests⟩

/-- A channel with a limit of two. -/
def twoPerMinute : LimitedChannel := ⟨"c", 2, by decide, by decide⟩

/-- An attempt on the channel, some seconds after the one before it. -/
def attemptAfter (seconds : Nat) : FixedWindow.Timed (Event twoPerMinute) where
  elapsed := seconds * second
  arrival := .attempt
    (fun key => if key = "channel_id" then some "c"
      else if key = "channel_rpm_limit" then some "2" else none)
    fun _ => by decide

/-- An API key with a quota of two. -/
def twoForKey : QuotaEnforcement.LimitedKey := ⟨7, 2, by decide⟩

/-- A request of the key, some seconds after the one before it. -/
def requestAfter (seconds : Nat) : FixedWindow.Timed (QuotaEnforcement.KeyRequest twoForKey) where
  elapsed := seconds * second
  arrival :=
    { metadata := fun key => if key = "api_key_id" then some "7"
        else if key = "api_key_quota_rpm" then some "2" else none
      limited := fun _ => by decide }

/-- Arrivals at 0, 59, 60 and 119 seconds keep the limit, on the channel and
for the key; of the ones at 0, 30, 31 and 90 the third is turned away. -/
theorem rpm_limit_kept :
    (limiter twoPerMinute).SlidesAlong
        [attemptAfter 0, attemptAfter 59, attemptAfter 1, attemptAfter 59] ∧
      (QuotaEnforcement.limiter twoForKey).SlidesAlong
        [requestAfter 0, requestAfter 30, requestAfter 1, requestAfter 59] := by
  have hiff := rpm_limit_iff twoPerMinute
    [attemptAfter 0, attemptAfter 59, attemptAfter 1, attemptAfter 59] twoForKey
    [requestAfter 0, requestAfter 30, requestAfter 1, requestAfter 59]
  exact ⟨hiff.1.mpr (by decide), hiff.2.mpr (by decide)⟩

/-- Arrivals at 0, 59, 60 and 61 seconds are all admitted, by the limit of a
channel and by the quota of a key. -/
theorem burst_across_reset :
    (¬ ∀ (channel : LimitedChannel) (actions : List (FixedWindow.Timed (Event channel))),
      (limiter channel).SlidesAlong actions) ∧
    ¬ ∀ (key : QuotaEnforcement.LimitedKey)
        (requests : List (FixedWindow.Timed (QuotaEnforcement.KeyRequest key))),
      (QuotaEnforcement.limiter key).SlidesAlong requests := by
  constructor
  · intro h
    have hwithin := (h twoPerMinute
      [attemptAfter 0, attemptAfter 59, attemptAfter 1, attemptAfter 1] _ List.prefix_rfl).admitted
      (61 * second)
    revert hwithin
    decide
  · intro h
    have hwithin := (h twoForKey
      [requestAfter 0, requestAfter 59, requestAfter 1, requestAfter 1] _ List.prefix_rfl).admitted
      (61 * second)
    revert hwithin
    decide

end RateLimitAdmission

end Conduit.Middlewares
