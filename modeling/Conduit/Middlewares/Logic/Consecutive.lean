import Conduit.Middlewares.Logic.CircuitBreaker

/-!
# Consecutive failures

Attempts on one key, one after the other, with the endings of those that
reached the provider. The error count is at most the number of failures since
the last other ending, as long as every success that runs no response hook
finds the count at zero.
-/

namespace Conduit.Middlewares

open Base Pipeline

/-- How an attempt that reached the provider ended, `rejected` for the others. -/
inductive Ending
  | success
  | clientMistake
  | failure
  | rejected
deriving DecidableEq, Repr

namespace ModelCircuitBreaker

/-- An error that counts as an answer of the provider. -/
def isProviderError (err : ConduitError) : Bool := !isCircuitCode err && err.kind = .upstream

/-- The ending, from the hooks that were run. An error of another kind after a
response is not the provider's. -/
def endingOf (hooks : List Hook) : Ending :=
  match hooks.getLast? with
  | some (.onOutboundRawError err) =>
      if isProviderError err then if isClientMistake err then .clientMistake else .failure
      else if hooks.contains .onOutboundRawResponse then .success
      else .rejected
  | _ => .success

/-- An attempt on a key, with the clock at the request hook and at the others. -/
structure KeyedAttempt (key : String) where
  metadata : Metadata
  keyed : requestKey metadata = some key
  now : Int
  answered : Int
  exchange : Exchange

/-- The last opening of a circuit: whether by its probe, and the endings up to
it, latest first. -/
structure Trip where
  probe : Bool
  history : List Ending

structure Sequence where
  circuits : Circuits
  history : List Ending
  trip : Option Trip

section Sequence

variable (config : CircuitBreakerConfig) (key : String)

namespace KeyedAttempt

variable {key} (attempt : KeyedAttempt key) (circuits : Circuits)

def begun : Circuits × Request Unit :=
  (hooks config).begin takesProbe attempt.now attempt.exchange circuits
    ⟨attempt.metadata, (), none, false⟩

/-- The hooks after the request hook. -/
def todo : List Hook := ((attempt.begun config circuits).2.todo).getD []

/-- The circuits after some of its hooks. -/
def after (circuits : Circuits) (todo : List Hook) : Circuits :=
  todo.foldl (fun circuits hook =>
    ((hooks config).run hook attempt.answered attempt.metadata circuits ()).1) circuits

def ending : Ending :=
  if attempt.exchange.prepared.isSome then .rejected else endingOf (attempt.todo config circuits)

end KeyedAttempt

/-- One attempt from its request hook to its last. An attempt opens the circuit
when its failure is counted on a row that one more failure opens. -/
def Sequence.step (s : Sequence) (attempt : KeyedAttempt key) : Sequence :=
  let begun := (attempt.begun config s.circuits).1
  let todo := attempt.todo config s.circuits
  let ending := attempt.ending config s.circuits
  let counted := (attempt.after config begun todo.dropLast key).getD .closed
  let history := if ending = .rejected then s.history else ending :: s.history
  { circuits := attempt.after config begun todo
    history
    trip :=
      if ending = .failure ∧ counted.opens config = true then
        some ⟨counted.halfOpenProbeInFlight, history⟩
      else s.trip }

/-- Attempts on a key, from a breaker without circuits. -/
def sequential : TSys Sequence (KeyedAttempt key) where
  init := ⟨fun _ => none, [], none⟩
  step := Sequence.step config key

end Sequence

end ModelCircuitBreaker

/-! ## One row -/

namespace CircuitState

variable {config : CircuitBreakerConfig} {now : Int} {circuit : CircuitState}

/-- The circuit rejects, or its probe is in flight. -/
def isOpen (circuit : CircuitState) : Bool :=
  circuit.cooldownUntil.isSome || circuit.halfOpenProbeInFlight

theorem nextCount_le : circuit.nextCount.toNat ≤ circuit.errorCount.toNat + 1 := by
  unfold nextCount
  split_ifs with hroom
  · rw [UInt32.toNat_add]
    exact Nat.mod_le _ _
  · exact Nat.le_succ _

theorem count_errors : (circuit.count config now).errorCount = circuit.nextCount := by
  unfold count
  split_ifs <;> rfl

/-- A failure that does not open the circuit leaves it as open as it was. -/
theorem count_isOpen (hopens : circuit.opens config = false)
    (h : (circuit.count config now).isOpen = true) : circuit.isOpen = true := by
  unfold count at h
  rw [if_neg (by simp [hopens])] at h
  exact h

theorem releaseProbe_errors : (circuit.releaseProbe now).errorCount = circuit.errorCount := by
  unfold releaseProbe
  split_ifs <;> rfl

theorem releaseProbe_isOpen (h : (circuit.releaseProbe now).isOpen = true) :
    circuit.isOpen = true := by
  unfold releaseProbe at h
  split_ifs at h with hflag
  · unfold isOpen
    rw [hflag, Bool.or_true]
  · exact h

end CircuitState

/-- The error count of a row, zero when there is none. -/
def errorsOf (row : Option CircuitState) : Nat := (row.getD .closed).errorCount.toNat

def openOf (row : Option CircuitState) : Bool := (row.getD .closed).isOpen

/-- The same count, and not more open. -/
structure Unopened (row row' : Option CircuitState) : Prop where
  errors : errorsOf row' = errorsOf row
  isOpen : openOf row' = true → openOf row = true

/-- A closed row without errors. -/
structure Reset (row : Option CircuitState) : Prop where
  errors : errorsOf row = 0
  isOpen : openOf row = false

theorem Unopened.refl (row : Option CircuitState) : Unopened row row := ⟨rfl, id⟩

theorem Unopened.trans {row row' row'' : Option CircuitState} (h : Unopened row row')
    (h' : Unopened row' row'') : Unopened row row'' :=
  ⟨h'.errors.trans h.errors, fun hopen => h.isOpen (h'.isOpen hopen)⟩

theorem reset_map (row : Option CircuitState) : Reset (row.map .reset) := by
  cases row with
  | none => exact ⟨rfl, rfl⟩
  | some circuit => exact ⟨rfl, rfl⟩

theorem unopened_releaseProbe (now : Int) (row : Option CircuitState) :
    Unopened row (row.map (.releaseProbe now)) := by
  cases row with
  | none => exact .refl none
  | some circuit =>
      exact ⟨congrArg UInt32.toNat CircuitState.releaseProbe_errors,
        CircuitState.releaseProbe_isOpen⟩

namespace ModelCircuitBreaker

variable {config : CircuitBreakerConfig} {now : Int} {key : String} {metadata : Metadata}

variable (config now) in
/-- What an error does to the row. -/
theorem error_cases (err : ConduitError) (circuits : Circuits) (hkey : answerKey metadata = some key) :
    (isProviderError err = false ∧
      Unopened (circuits key) (onOutboundRawError config now err metadata circuits key)) ∨
    (isProviderError err = true ∧ isClientMistake err = true ∧
      Reset (onOutboundRawError config now err metadata circuits key)) ∨
    (isProviderError err = true ∧ isClientMistake err = false ∧
      onOutboundRawError config now err metadata circuits key =
        some (((circuits key).getD .closed).count config now)) := by
  unfold onOutboundRawError isProviderError
  by_cases hcode : isCircuitCode err = true
  · rw [if_pos hcode]
    exact .inl ⟨by simp [hcode], .refl _⟩
  rw [if_neg hcode, hkey]
  dsimp only
  by_cases hkind : err.kind = .upstream
  · rw [if_neg (not_not.mpr hkind)]
    have hprovider : (!isCircuitCode err && decide (err.kind = .upstream)) = true := by
      simp [hcode, hkind]
    by_cases hmistake : isClientMistake err = true
    · rw [if_pos hmistake, circuits.update_self]
      exact .inr (.inl ⟨hprovider, hmistake, reset_map _⟩)
    · rw [if_neg hmistake, circuits.insert_self]
      exact .inr (.inr ⟨hprovider, by simpa using hmistake, rfl⟩)
  · rw [if_pos hkind, circuits.update_self]
    exact .inl ⟨by simp [hkind], unopened_releaseProbe now _⟩

theorem response_reset (circuits : Circuits) (hkey : answerKey metadata = some key) :
    Reset (onOutboundRawResponse metadata circuits key) := by
  unfold onOutboundRawResponse
  rw [hkey]
  dsimp only
  rw [circuits.update_self]
  exact reset_map _

/-- An admission counts nothing and opens nothing. -/
theorem request_unopened {circuits circuits' : Circuits} (hkey : requestKey metadata = some key)
    (hok : onOutboundRawRequest now metadata circuits = .ok circuits') :
    Unopened (circuits key) (circuits' key) := by
  rcases onOutboundRawRequest_ok hok with ⟨_, rfl⟩ |
    ⟨_, key', circuit, until', hkey', hrow, hcooldown, rfl⟩
  · exact .refl _
  · obtain rfl := Option.some.inj (hkey.symm.trans hkey')
    rw [circuits.insert_self, hrow]
    refine ⟨rfl, fun _ => ?_⟩
    unfold openOf CircuitState.isOpen
    simp [hcooldown]

/-! ## One attempt -/

namespace KeyedAttempt

variable (attempt : KeyedAttempt key) (circuits : Circuits)

/-- What the hooks of an attempt do to the row, by its ending. -/
inductive Answered (attempt : KeyedAttempt key) (config : CircuitBreakerConfig)
    (circuits : Circuits) (todo : List Hook) : Prop
  | rejected (hending : endingOf todo = .rejected)
      (hrow : Unopened (circuits key) (attempt.after config circuits todo key))
  | unhooked (hending : endingOf todo = .success) (hhooks : .onOutboundRawResponse ∉ todo)
      (hrow : Unopened (circuits key) (attempt.after config circuits todo key))
  | reset (hending : endingOf todo = .success ∧ .onOutboundRawResponse ∈ todo ∨
        endingOf todo = .clientMistake)
      (hrow : Reset (attempt.after config circuits todo key))
  | counted (hending : endingOf todo = .failure)
      (hbefore : Unopened (circuits key) (attempt.after config circuits todo.dropLast key) ∨
        Reset (attempt.after config circuits todo.dropLast key))
      (hrow : attempt.after config circuits todo key =
        some (((attempt.after config circuits todo.dropLast key).getD .closed).count config
          attempt.answered))

theorem answered_of_list {todo : List Hook} (htodo : HookList todo) :
    Answered attempt config circuits todo := by
  have hkey := answerKey_of_requestKey attempt.keyed
  cases htodo with
  | none => exact .unhooked rfl (by simp) (.refl _)
  | closed => exact .unhooked rfl (by simp) (.refl _)
  | answered => exact .reset (.inl ⟨rfl, by simp⟩) (response_reset circuits hkey)
  | failed err =>
      rcases error_cases config attempt.answered err circuits hkey with
        ⟨hlocal, hrow⟩ | ⟨hprovider, hmistake, hrow⟩ | ⟨hprovider, hcounted, hrow⟩
      · exact .rejected (by simp [endingOf, hlocal]) hrow
      · exact .reset (.inr (by simp [endingOf, hprovider, hmistake])) hrow
      · exact .counted (by simp [endingOf, hprovider, hcounted]) (.inl (.refl _)) hrow
  | answeredFailed err =>
      have hreset := response_reset circuits hkey
      rcases error_cases config attempt.answered err
        (onOutboundRawResponse attempt.metadata circuits) hkey with
        ⟨hlocal, hrow⟩ | ⟨hprovider, hmistake, hrow⟩ | ⟨hprovider, hcounted, hrow⟩
      · refine .reset (.inl ⟨by simp [endingOf, hlocal], by simp⟩) ⟨hrow.errors.trans hreset.errors, ?_⟩
        rw [← Bool.not_eq_true]
        exact fun hopen => absurd (hrow.isOpen hopen) (by simp [hreset.isOpen])
      · exact .reset (.inr (by simp [endingOf, hprovider, hmistake])) hrow
      · exact .counted (by simp [endingOf, hprovider, hcounted]) (.inr hreset) hrow

variable (config) in
/-- The request hook opens nothing, and an attempt that was not prepared runs
no hook. -/
theorem begun_cases :
    Unopened (circuits key) ((attempt.begun config circuits).1 key) ∧
      HookList (attempt.todo config circuits) ∧
      (attempt.exchange.prepared.isSome = true →
        (attempt.begun config circuits).1 = circuits ∧ attempt.todo config circuits = []) := by
  unfold todo begun
  have hbegun := begin_begun (hooks config) takesProbe attempt.now attempt.exchange circuits
    ⟨attempt.metadata, (), none, false⟩
  generalize (hooks config).begin takesProbe attempt.now attempt.exchange circuits _ = result
    at hbegun ⊢
  cases hbegun with
  | unprepared => exact ⟨.refl _, .none, fun _ => ⟨rfl, rfl⟩⟩
  | refused hprepared err => exact ⟨.refl _, .failed err, fun h => absurd h (by simp [hprepared])⟩
  | admitted hprepared hok htodo =>
      exact ⟨request_unopened attempt.keyed (request_of_hooks hok), htodo,
        fun h => absurd h (by simp [hprepared])⟩

end KeyedAttempt

/-! ## Runs -/

/-- The last `max_errors` endings were failures, or the probe failed. -/
def Trip.Justified (config : CircuitBreakerConfig) (trip : Trip) : Prop :=
  trip.probe = true ∨ config.maxErrors.toNat ≤ trip.history.length ∧
    ∀ ending ∈ trip.history.take config.maxErrors.toNat, ending = .failure

/-- The failures since the last other ending. -/
def failures (history : List Ending) : Nat := (history.takeWhile (· = .failure)).length

theorem justified_of_failures {history : List Ending} {probe : Bool}
    (h : config.maxErrors.toNat ≤ failures history) : (Trip.mk probe history).Justified config := by
  have hstreak : history.takeWhile (· = .failure) <+: history := List.takeWhile_prefix _
  refine .inr ⟨h.trans hstreak.length_le, ?_⟩
  intro ending hmem
  have htake : history.take config.maxErrors.toNat =
      (history.takeWhile (· = .failure)).take config.maxErrors.toNat := by
    obtain ⟨rest, hrest⟩ := hstreak
    conv_lhs => rw [← hrest]
    exact List.take_append_of_le_length h
  rw [htake] at hmem
  simpa using List.mem_takeWhile_imp (List.mem_of_mem_take hmem)

/-- The count is covered by failures in a row, and an open circuit was opened
for a reason. -/
structure Counted (config : CircuitBreakerConfig) (key : String) (s : Sequence) : Prop where
  errors : errorsOf (s.circuits key) ≤ failures s.history
  justified : openOf (s.circuits key) = true →
    ∃ trip, s.trip = some trip ∧ trip.Justified config

/-- A success that runs no response hook finds the count at zero. -/
def ResetAnyway (config : CircuitBreakerConfig) (s : Sequence) (attempt : KeyedAttempt key) : Prop :=
  attempt.ending config s.circuits = .success →
    .onOutboundRawResponse ∉ attempt.todo config s.circuits → errorsOf (s.circuits key) = 0

theorem counted_step (s : Sequence) (attempt : KeyedAttempt key) (h : Counted config key s) :
    Counted config key (s.step config key attempt) ↔ ResetAnyway config s attempt := by
  obtain ⟨hbegun, htodo, hunprepared⟩ := attempt.begun_cases config s.circuits
  unfold ResetAnyway Sequence.step
  generalize hending : attempt.ending config s.circuits = ending
  unfold KeyedAttempt.ending at hending
  by_cases hprepared : attempt.exchange.prepared.isSome = true
  · -- no hook runs
    rw [if_pos hprepared] at hending
    subst hending
    obtain ⟨hsame, hnone⟩ := hunprepared hprepared
    rw [hsame, hnone]
    exact ⟨fun _ habsurd => absurd habsurd (by simp), fun _ => ⟨h.errors, h.justified⟩⟩
  rw [if_neg hprepared] at hending
  generalize attempt.todo config s.circuits = todo at htodo hending ⊢
  generalize (attempt.begun config s.circuits).1 = circuits at hbegun ⊢
  have hanswered : KeyedAttempt.Answered attempt config circuits todo :=
    attempt.answered_of_list circuits htodo
  cases hanswered with
  | rejected hrejected hrow =>
      obtain rfl := hending.symm.trans hrejected
      have hall := hbegun.trans hrow
      exact ⟨fun _ habsurd => absurd habsurd (by simp),
        fun _ => ⟨hall.errors.trans_le h.errors, fun hopen => h.justified (hall.isOpen hopen)⟩⟩
  | unhooked hsuccess hhooks hrow =>
      obtain rfl := hending.symm.trans hsuccess
      have hall := hbegun.trans hrow
      constructor
      · intro hnext _ _
        have hzero : errorsOf (attempt.after config circuits todo key) ≤ 0 := hnext.errors
        rw [hall.errors] at hzero
        exact Nat.le_zero.mp hzero
      · intro hzero
        exact ⟨(hall.errors.trans (hzero rfl hhooks)).le,
          fun hopen => h.justified (hall.isOpen hopen)⟩
  | reset hreset hrow =>
      refine ⟨fun _ hsuccess hhooks => ?_, fun _ => ⟨?_, ?_⟩⟩
      · rcases hreset with ⟨_, hmem⟩ | hmistake
        · exact absurd hmem hhooks
        · exact absurd (hmistake.symm.trans (hending.trans hsuccess)) (by simp)
      · exact hrow.errors.le.trans (Nat.zero_le _)
      · exact fun hopen => absurd hopen (by simp [hrow.isOpen])
  | counted hfailure hbefore hrow =>
      obtain rfl := hending.symm.trans hfailure
      refine ⟨fun _ habsurd => absurd habsurd (by simp), fun _ => ?_⟩
      generalize hlast : attempt.after config circuits todo.dropLast key = last at hbefore hrow ⊢
      have herrors : errorsOf last ≤ failures s.history := by
        rcases hbefore with hunopened | hreset
        · rw [(hbegun.trans hunopened).errors]
          exact h.errors
        · rw [hreset.errors]
          exact Nat.zero_le _
      have hcount : (last.getD .closed).nextCount.toNat ≤ failures (.failure :: s.history) := by
        have hnext : (last.getD .closed).nextCount.toNat ≤ errorsOf last + 1 :=
          CircuitState.nextCount_le
        have hmore : failures (.failure :: s.history) = failures s.history + 1 := by
          unfold failures
          rw [List.takeWhile_cons_of_pos (by simp), List.length_cons]
        omega
      refine ⟨?_, ?_⟩
      · show errorsOf (attempt.after config circuits todo key) ≤ _
        rw [hrow]
        show ((last.getD .closed).count config attempt.answered).errorCount.toNat ≤ _
        rw [CircuitState.count_errors]
        exact hcount
      · intro hopen
        dsimp only at hopen ⊢
        rw [hlast]
        by_cases hopens : (last.getD .closed).opens config = true
        · rw [if_pos ⟨rfl, hopens⟩]
          refine ⟨_, rfl, ?_⟩
          unfold CircuitState.opens at hopens
          rw [Bool.or_eq_true, decide_eq_true_eq] at hopens
          rcases hopens with hprobe | hmax
          · exact .inl hprobe
          · exact justified_of_failures ((UInt32.le_iff_toNat_le.mp hmax).trans hcount)
        · rw [if_neg fun hboth => hopens hboth.2]
          rw [hrow] at hopen
          have hlastOpen := CircuitState.count_isOpen (by simpa using hopens) hopen
          rcases hbefore with hunopened | hreset
          · exact h.justified ((hbegun.trans hunopened).isOpen hlastOpen)
          · exact absurd hlastOpen (Bool.eq_false_iff.mp hreset.isOpen)

end ModelCircuitBreaker

end Conduit.Middlewares
