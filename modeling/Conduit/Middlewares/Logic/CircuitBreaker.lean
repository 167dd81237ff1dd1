import Conduit.Middlewares.CircuitBreaker
import Conduit.Pipeline.Logic.Attempts

/-!
# The probe of a circuit

The half-open flag of a circuit is a slot of size one: the probe takes it, and
every answer or error that reaches the row gives it back, whoever it belongs
to. So the flag tells where the probe is exactly as long as nobody gives the
slot of another attempt back, and every probe gives its own back.
-/

namespace Conduit.Middlewares

open Base Pipeline

/-! ## Rows -/

namespace CircuitState

variable (config : CircuitBreakerConfig) (now : Int) (circuit : CircuitState)

theorem releaseProbe_flag : (circuit.releaseProbe now).halfOpenProbeInFlight = false := by
  unfold releaseProbe
  split_ifs with hflag
  · rfl
  · simpa using hflag

theorem count_flag : (circuit.count config now).halfOpenProbeInFlight = false := by
  unfold count
  split_ifs with hguard
  · rfl
  · unfold opens at hguard
    simp only [Bool.or_eq_true, not_or] at hguard
    simpa using hguard.1

end CircuitState

namespace Circuits

variable (circuits : Circuits) {key other : String}

theorem insert_self (circuit : CircuitState) : circuits.insert key circuit key = some circuit :=
  Function.update_self _ _ _

theorem insert_ne (circuit : CircuitState) (h : other ≠ key) :
    circuits.insert key circuit other = circuits other := Function.update_of_ne h _ _

theorem update_self (f : CircuitState → CircuitState) :
    circuits.update key f key = (circuits key).map f := by
  unfold update
  cases hrow : circuits key with
  | none => exact hrow
  | some circuit => exact circuits.insert_self _

theorem update_ne (f : CircuitState → CircuitState) (h : other ≠ key) :
    circuits.update key f other = circuits other := by
  unfold update
  cases circuits key with
  | none => rfl
  | some circuit => exact circuits.insert_ne _ h

/-- `half_open_probe_in_flight` of the row under a key. -/
def probeInFlight (key : String) : Bool := (circuits key).any CircuitState.halfOpenProbeInFlight

/-- A circuit with a probe in flight has no cooldown. -/
def Cool : Prop :=
  ∀ (key : String) (circuit : CircuitState), circuits key = some circuit →
    circuit.halfOpenProbeInFlight = true → circuit.cooldownUntil = none

end Circuits

namespace ModelCircuitBreaker

/-- The request hook and the other hooks work on the same row, when the
request hook works on one. -/
theorem answerKey_of_requestKey {metadata : Metadata} {key : String}
    (h : requestKey metadata = some key) : answerKey metadata = some key := by
  unfold requestKey rowKey resolveKey resolveModel at h
  unfold answerKey rowKey resolveKey resolveModel
  cases hactual : metadata "actual_model" with
  | none =>
      rw [hactual] at h
      simp at h
  | some model =>
      rw [hactual] at h
      exact h

/-! ## Hooks -/

/-- Everything an admission does. -/
theorem onOutboundRawRequest_ok {now : Int} {metadata : Metadata} {circuits circuits' : Circuits}
    (h : onOutboundRawRequest now metadata circuits = .ok circuits') :
    (takesProbe now metadata circuits = false ∧ circuits' = circuits) ∨
    (takesProbe now metadata circuits = true ∧ ∃ key circuit until',
      requestKey metadata = some key ∧ circuits key = some circuit ∧
      circuit.cooldownUntil = some until' ∧
      circuits' = circuits.insert key
        { circuit with cooldownUntil := none, halfOpenProbeInFlight := true }) := by
  unfold onOutboundRawRequest at h
  unfold takesProbe
  cases hkey : requestKey metadata with
  | none =>
      rw [hkey] at h
      exact .inl ⟨rfl, (Except.ok.inj h).symm⟩
  | some key =>
      rw [hkey] at h
      dsimp only at h
      cases hrow : circuits key with
      | none =>
          rw [hrow] at h
          refine .inl ⟨?_, (Except.ok.inj h).symm⟩
          rw [Option.bind_some, hrow]
          rfl
      | some circuit =>
          rw [hrow] at h
          dsimp only at h
          rw [Option.bind_some, hrow]
          cases hcooldown : circuit.cooldownUntil with
          | none =>
              rw [hcooldown] at h
              dsimp only at h
              split_ifs at h
              refine .inl ⟨?_, (Except.ok.inj h).symm⟩
              simp [hcooldown]
          | some until' =>
              rw [hcooldown] at h
              dsimp only at h
              split_ifs at h with hopen
              refine .inr ⟨?_, key, circuit, until', rfl, hrow, hcooldown, (Except.ok.inj h).symm⟩
              simp [hcooldown, Int.not_lt.mp hopen]

theorem takesProbe_key {now : Int} {metadata : Metadata} {circuits : Circuits}
    (h : takesProbe now metadata circuits = true) : ∃ key, requestKey metadata = some key := by
  unfold takesProbe at h
  cases hkey : requestKey metadata with
  | none =>
      rw [hkey] at h
      exact absurd h (by simp)
  | some key => exact ⟨key, rfl⟩

/-- The hook reaches the row of a key and gives its probe back. -/
def clears (hook : Hook) (metadata : Metadata) (key : String) : Bool :=
  answerKey metadata = some key &&
    match hook with
    | .onOutboundRawResponse => true
    | .onOutboundRawError err => !isCircuitCode err
    | .onOutboundLiveStreamClose => false

variable (config : CircuitBreakerConfig) (now : Int)

/-- The row of another key is left alone, and the row of its own has no probe
afterwards. -/
structure Cleared (key : String) (circuits circuits' : Circuits) : Prop where
  own : ∀ circuit, circuits' key = some circuit → circuit.halfOpenProbeInFlight = false
  others : ∀ other, other ≠ key → circuits' other = circuits other

theorem cleared_update (circuits : Circuits) (key : String) {f : CircuitState → CircuitState}
    (hf : ∀ circuit, (f circuit).halfOpenProbeInFlight = false) :
    Cleared key circuits (circuits.update key f) := by
  refine ⟨?_, fun other hother => circuits.update_ne f hother⟩
  intro circuit hrow
  rw [circuits.update_self, Option.map_eq_some_iff] at hrow
  obtain ⟨before, _, rfl⟩ := hrow
  exact hf before

theorem cleared_insert (circuits : Circuits) (key : String) {circuit : CircuitState}
    (hflag : circuit.halfOpenProbeInFlight = false) :
    Cleared key circuits (circuits.insert key circuit) := by
  refine ⟨?_, fun other hother => circuits.insert_ne circuit hother⟩
  intro circuit' hrow
  obtain rfl := Option.some.inj ((circuits.insert_self circuit).symm.trans hrow)
  exact hflag

/-- What a hook of an attempt does to the probes. -/
theorem run_cases (hook : Hook) (metadata : Metadata) (circuits : Circuits) :
    (∃ key, clears hook metadata key = true ∧
      Cleared key circuits ((hooks config).run hook now metadata circuits ()).1) ∨
    ((∀ key, clears hook metadata key = false) ∧
      ((hooks config).run hook now metadata circuits ()).1 = circuits) := by
  cases hkey : answerKey metadata with
  | none =>
      refine .inr ⟨fun key => by simp [clears, hkey], ?_⟩
      cases hook with
      | onOutboundRawResponse =>
          show onOutboundRawResponse metadata circuits = circuits
          unfold onOutboundRawResponse
          rw [hkey]
      | onOutboundRawError err =>
          show onOutboundRawError config now err metadata circuits = circuits
          unfold onOutboundRawError
          rw [hkey]
          split_ifs <;> rfl
      | onOutboundLiveStreamClose => rfl
  | some key =>
      cases hook with
      | onOutboundRawResponse =>
          refine .inl ⟨key, by simp [clears, hkey], ?_⟩
          show Cleared key circuits (onOutboundRawResponse metadata circuits)
          unfold onOutboundRawResponse
          rw [hkey]
          exact cleared_update circuits key fun _ => rfl
      | onOutboundRawError err =>
          show _ ∨ _ ∧ onOutboundRawError config now err metadata circuits = circuits
          by_cases hcode : isCircuitCode err = true
          · refine .inr ⟨fun key => by simp [clears, hcode], ?_⟩
            unfold onOutboundRawError
            rw [if_pos hcode]
          · refine .inl ⟨key, by simp [clears, hkey, hcode], ?_⟩
            show Cleared key circuits (onOutboundRawError config now err metadata circuits)
            unfold onOutboundRawError
            rw [if_neg hcode, hkey]
            dsimp only
            split_ifs
            · exact cleared_update circuits key (CircuitState.releaseProbe_flag now)
            · exact cleared_update circuits key fun _ => rfl
            · exact cleared_insert circuits key (CircuitState.count_flag config now _)
      | onOutboundLiveStreamClose => exact .inr ⟨fun key => by simp [clears], rfl⟩

variable {config now}

theorem clears_key {hook : Hook} {metadata : Metadata} {key key' : String}
    (h : clears hook metadata key = true) (h' : clears hook metadata key' = true) : key = key' := by
  unfold clears at h h'
  simp only [Bool.and_eq_true, decide_eq_true_eq] at h h'
  exact Option.some.inj (h.1.symm.trans h'.1)

theorem probeInFlight_run (hook : Hook) (metadata : Metadata) (circuits : Circuits) (key : String) :
    (((hooks config).run hook now metadata circuits ()).1).probeInFlight key =
      (circuits.probeInFlight key && !clears hook metadata key) := by
  unfold Circuits.probeInFlight
  rcases run_cases config now hook metadata circuits with ⟨own, hclears, hcleared⟩ | ⟨hnone, hsame⟩
  · by_cases hkey : key = own
    · subst hkey
      rw [hclears, Bool.not_true, Bool.and_false]
      cases hrow : ((hooks config).run hook now metadata circuits ()).1 key with
      | none => rfl
      | some circuit => exact hcleared.own circuit hrow
    · have hother : clears hook metadata key = false := by
        rw [← Bool.not_eq_true]
        exact fun h => hkey (clears_key h hclears)
      rw [hcleared.others key hkey, hother, Bool.not_false, Bool.and_true]
  · rw [hsame, hnone key, Bool.not_false, Bool.and_true]

theorem cool_run {hook : Hook} {metadata : Metadata} {circuits : Circuits} (h : circuits.Cool) :
    (((hooks config).run hook now metadata circuits ()).1).Cool := by
  rcases run_cases config now hook metadata circuits with ⟨own, _, hcleared⟩ | ⟨_, hsame⟩
  · intro key circuit hrow hflag
    by_cases hkey : key = own
    · subst hkey
      exact absurd hflag (by simp [hcleared.own circuit hrow])
    · rw [hcleared.others key hkey] at hrow
      exact h key circuit hrow hflag
  · rw [hsame]
    exact h

theorem request_of_hooks {metadata : Metadata} {circuits circuits' : Circuits} {own own' : Unit}
    (hok : (hooks config).onOutboundRawRequest now metadata circuits own = .ok (circuits', own')) :
    onOutboundRawRequest now metadata circuits = .ok circuits' := by
  change (onOutboundRawRequest now metadata circuits).map _ = _ at hok
  cases hresult : onOutboundRawRequest now metadata circuits with
  | error err =>
      rw [hresult] at hok
      exact absurd hok (by simp [Except.map])
  | ok result =>
      rw [hresult] at hok
      exact congrArg Except.ok (congrArg Prod.fst (Except.ok.inj hok))

/-- An admission, in terms of the probes. -/
theorem admitted_cases {metadata : Metadata} {circuits : Circuits} {own own' : Unit}
    {circuits' : Circuits} (h : circuits.Cool)
    (hok : (hooks config).onOutboundRawRequest now metadata circuits own = .ok (circuits', own')) :
    circuits'.Cool ∧
    ((takesProbe now metadata circuits = false ∧ circuits' = circuits) ∨
      (takesProbe now metadata circuits = true ∧ ∃ key, requestKey metadata = some key ∧
        circuits.probeInFlight key = false ∧ circuits'.probeInFlight key = true ∧
        ∀ other, other ≠ key → circuits'.probeInFlight other = circuits.probeInFlight other)) := by
  rcases onOutboundRawRequest_ok (request_of_hooks hok) with ⟨htakes, rfl⟩ |
    ⟨htakes, key, circuit, until', hkey, hrow, hcooldown, rfl⟩
  · exact ⟨h, .inl ⟨htakes, rfl⟩⟩
  · refine ⟨?_, .inr ⟨htakes, key, hkey, ?_, ?_, ?_⟩⟩
    · intro other circuit' hrow' hflag
      by_cases hother : other = key
      · subst hother
        rw [circuits.insert_self] at hrow'
        rw [← Option.some.inj hrow']
      · rw [circuits.insert_ne _ hother] at hrow'
        exact h other circuit' hrow' hflag
    · unfold Circuits.probeInFlight
      rw [hrow, Option.any_some, ← Bool.not_eq_true]
      intro hflag
      exact absurd (h key circuit hrow hflag) (by simp [hcooldown])
    · unfold Circuits.probeInFlight
      rw [circuits.insert_self]
      rfl
    · intro other hother
      unfold Circuits.probeInFlight
      rw [circuits.insert_ne _ hother]

/-! ## The flag and the probe -/

/-- Circuits with a probe in flight have no cooldown, and idle requests hold
nothing. -/
structure Sane (pool : Pool Circuits Unit) : Prop where
  cool : pool.store.Cool
  settled : pool.Settled requestKey

theorem system_settled (config : CircuitBreakerConfig) :
    (system config).Inductive (Pool.Settled requestKey) :=
  settled_inductive _ fun _ _ _ => takesProbe_key

theorem sane_inductive (config : CircuitBreakerConfig) : (system config).Inductive Sane where
  init := ⟨fun _ _ hnone => absurd hnone (by simp [system, requests]), (system_settled config).init⟩
  step pool a h := by
    refine ⟨?_, (system_settled config).step pool a h.settled⟩
    have hmoves : pool.Moves (hooks config) takesProbe a ((system config).step pool a) :=
      Pool.step_moves (hooks config) takesProbe pool a
    generalize (system config).step pool a = next at hmoves ⊢
    cases hmoves with
    | idle => exact h.cool
    | accepted => exact h.cool
    | refused => exact h.cool
    | admitted stamp now x todo hrequest hidle hok => exact (admitted_cases h.cool hok).1
    | hooked now hrequest htodo => exact cool_run h.cool
    | finished => exact h.cool

/-- The half-open flag of a circuit says that its one probe is in flight. -/
structure ProbeTracked (pool : Pool Circuits Unit) : Prop where
  flag : ∀ key : String, pool.store.probeInFlight key = true ↔
    ∃ id : Nat, pool.HeldBy requestKey key id
  single : ∀ (key : String) (id id' : Nat), pool.HeldBy requestKey key id →
    pool.HeldBy requestKey key id' → id = id'

/-- A probe gives its slot back with its first hook and does not end without
one, and nobody else gives it back. -/
def ProbeKept (pool : Pool Circuits Unit) : PoolAction → Prop
  | .hook id _ => ∀ (request : Request Unit) (hook : Hook) (rest : List Hook),
      pool.requests[id]? = some request → request.todo = some (hook :: rest) →
      ∀ key : String,
        (request.Holds requestKey key → clears hook request.metadata key = true) ∧
        (¬ request.Holds requestKey key → clears hook request.metadata key = true →
          ∀ j : Nat, ¬ pool.HeldBy requestKey key j)
  | .finish id => ∀ request : Request Unit, pool.requests[id]? = some request →
      request.todo = some [] → request.holding = false
  | _ => True

theorem probeKept_of_disabled {pool : Pool Circuits Unit} {a : PoolAction}
    (h : pool.Disabled a) : ProbeKept pool a := by
  cases a with
  | accept metadata => trivial
  | attempt id stamp now x => trivial
  | hook id now => exact fun request hook rest hrequest htodo => absurd htodo (h _ _ _ hrequest)
  | finish id => exact fun request hrequest htodo => absurd htodo (h _ hrequest)

/-- Only a stream that succeeds ends with the probe still in flight. -/
theorem probeKept_finish_along (config : CircuitBreakerConfig) {actions : List PoolAction}
    (hends : ∀ a ∈ actions, a.EndsWithHook) :
    (system config).Along (fun pool a => ∀ id : Nat, a = .finish id → ProbeKept pool a)
      (system config).init actions := by
  refine along_of_unstranded (system_settled config) ?_ hends
  rintro pool _ h id rfl request hrequest htodo
  rw [← Bool.not_eq_true]
  exact fun hholding => h id request hrequest hholding htodo

theorem ProbeTracked.congr {pool pool' : Pool Circuits Unit} (h : ProbeTracked pool)
    (hstore : pool'.store = pool.store)
    (hheld : ∀ key j, pool'.HeldBy requestKey key j ↔ pool.HeldBy requestKey key j) :
    ProbeTracked pool' := by
  refine ⟨?_, ?_⟩
  · intro key
    rw [hstore, h.flag]
    exact exists_congr fun j => (hheld key j).symm
  · intro key id id' hid hid'
    exact h.single key id id' ((hheld key id).mp hid) ((hheld key id').mp hid')

section Step

variable {pool : Pool Circuits Unit} {id : Nat} {request : Request Unit}

/-- The probe is admitted only while no other is in flight. -/
theorem ProbeTracked.admitted (h : ProbeTracked pool) (hsane : Sane pool) {metadata : Metadata}
    {circuits : Circuits} {own own' : Unit} {todo : List Hook}
    (hrequest : pool.requests[id]? = some request) (hidle : request.todo = none)
    (hok : (hooks config).onOutboundRawRequest now metadata pool.store own = .ok (circuits, own')) :
    ProbeTracked (pool.replace id (circuits,
      ⟨metadata, own', some todo, takesProbe now metadata pool.store⟩)) := by
  have hbefore := hsane.settled.not_holding hrequest hidle
  rcases (admitted_cases hsane.cool hok).2 with ⟨htakes, rfl⟩ |
    ⟨htakes, own, hkey, hfree, htaken, hothers⟩
  · rw [htakes]
    exact h.congr rfl (Pool.heldBy_replace_of_not_holding hrequest _ hbefore rfl)
  · rw [htakes]
    have hnobody : ∀ j, ¬ pool.HeldBy requestKey own j := by
      intro j hheld
      exact absurd ((h.flag own).mpr ⟨j, hheld⟩) (by simp [hfree])
    refine ⟨?_, ?_⟩
    · intro key
      show circuits.probeInFlight key = true ↔ _
      by_cases hown : key = own
      · subst hown
        refine ⟨fun _ => ⟨id, ?_⟩, fun _ => htaken⟩
        rw [Pool.heldBy_replace hrequest, if_pos rfl]
        exact ⟨rfl, hkey⟩
      · rw [hothers key hown, h.flag]
        refine exists_congr ?_
        intro j
        rw [Pool.heldBy_replace hrequest]
        split_ifs with hid
        · subst hid
          rw [Pool.heldBy_iff hrequest]
          constructor
          · exact fun hholds => absurd hholds.1 (by simp [hbefore])
          · exact fun hholds => absurd (Option.some.inj (hholds.2.symm.trans hkey)) hown
        · rfl
    · intro key j j' hj hj'
      rw [Pool.heldBy_replace hrequest] at hj hj'
      split_ifs at hj hj' with hid hid' hid'
      · exact hid.symm.trans hid'
      · obtain rfl := Option.some.inj (hj.2.symm.trans hkey)
        exact absurd hj' (hnobody j')
      · obtain rfl := Option.some.inj (hj'.2.symm.trans hkey)
        exact absurd hj (hnobody j)
      · exact h.single key j j' hj hj'

/-- A hook keeps track of the probe exactly if it gives back its own slot and no
other. -/
theorem ProbeTracked.hooked_iff (h : ProbeTracked pool) {hook : Hook} {rest : List Hook} {own : Unit}
    (hrequest : pool.requests[id]? = some request) (htodo : request.todo = some (hook :: rest)) :
    ProbeTracked (pool.replace id (((hooks config).run hook now request.metadata pool.store ()).1,
      ⟨request.metadata, own, some rest, false⟩)) ↔ ProbeKept pool (.hook id now) := by
  have hheld : ∀ key j, (pool.replace id
      (((hooks config).run hook now request.metadata pool.store ()).1,
        ⟨request.metadata, own, some rest, false⟩)).HeldBy requestKey key j ↔
      id ≠ j ∧ pool.HeldBy requestKey key j := by
    intro key j
    rw [Pool.heldBy_replace hrequest]
    split_ifs with hid
    · simp [Request.Holds, hid]
    · simp [hid]
  constructor
  · intro hnext request' hook' rest' hrequest' htodo' key
    obtain rfl := Option.some.inj (hrequest.symm.trans hrequest')
    obtain ⟨rfl, rfl⟩ := List.cons.inj (Option.some.inj (htodo.symm.trans htodo'))
    have hflag := hnext.flag key
    rw [exists_congr (hheld key)] at hflag
    change (((hooks config).run hook now request.metadata pool.store ()).1).probeInFlight key = true ↔
      _ at hflag
    rw [probeInFlight_run, Bool.and_eq_true, h.flag, Bool.not_eq_true'] at hflag
    refine ⟨?_, ?_⟩
    · intro hholds
      rw [← Bool.not_eq_false]
      intro hkeeps
      have hid := (Pool.heldBy_iff hrequest key).mpr hholds
      obtain ⟨j, hne, hj⟩ := hflag.mp ⟨⟨id, hid⟩, hkeeps⟩
      exact hne (h.single key id j hid hj)
    · intro hother hclears j hj
      have hne : id ≠ j := by
        rintro rfl
        exact hother ((Pool.heldBy_iff hrequest key).mp hj)
      exact absurd (hflag.mpr ⟨j, hne, hj⟩).2 (by simp [hclears])
  · intro hkept
    have hkept := hkept request hook rest hrequest htodo
    refine ⟨?_, ?_⟩
    · intro key
      show (((hooks config).run hook now request.metadata pool.store ()).1).probeInFlight key = true ↔ _
      rw [exists_congr (hheld key), probeInFlight_run, Bool.and_eq_true, h.flag, Bool.not_eq_true']
      constructor
      · rintro ⟨⟨j, hj⟩, hkeeps⟩
        refine ⟨j, ?_, hj⟩
        rintro rfl
        have hclears := (hkept key).1 ((Pool.heldBy_iff hrequest key).mp hj)
        exact absurd hclears (by simp [hkeeps])
      · rintro ⟨j, hne, hj⟩
        refine ⟨⟨j, hj⟩, ?_⟩
        rw [← Bool.not_eq_true]
        intro hclears
        by_cases hholds : request.Holds requestKey key
        · exact hne (h.single key id j ((Pool.heldBy_iff hrequest key).mpr hholds) hj)
        · exact (hkept key).2 hholds hclears j hj
    · intro key j j' hj hj'
      exact h.single key j j' ((hheld key j).mp hj).2 ((hheld key j').mp hj').2

/-- A request ends with the probe tracked exactly if it is not the probe. -/
theorem ProbeTracked.finished_iff (h : ProbeTracked pool) (hsane : Sane pool)
    (hrequest : pool.requests[id]? = some request) (htodo : request.todo = some []) :
    ProbeTracked (pool.replace id (pool.store, { request with todo := none, holding := false })) ↔
      ProbeKept pool (.finish id) := by
  constructor
  · intro hnext request' hrequest' _
    obtain rfl := Option.some.inj (hrequest.symm.trans hrequest')
    rw [← Bool.not_eq_true]
    intro hholding
    obtain ⟨_, key, hkey⟩ := hsane.settled id request hrequest hholding
    have hid := (Pool.heldBy_iff hrequest key).mpr ⟨hholding, hkey⟩
    obtain ⟨j, hj⟩ := (hnext.flag key).mp ((h.flag key).mpr ⟨id, hid⟩)
    rw [Pool.heldBy_replace hrequest] at hj
    split_ifs at hj with hne
    · exact absurd hj.1 (by simp)
    · exact hne (h.single key id j hid hj)
  · intro hkept
    have hholding := hkept request hrequest htodo
    exact h.congr rfl (Pool.heldBy_replace_of_not_holding hrequest _ hholding rfl)

end Step

/-- Exactly the steps that keep track of the probe. -/
theorem probeTracked_step (config : CircuitBreakerConfig) {pool : Pool Circuits Unit}
    (a : PoolAction) (hsane : Sane pool) (h : ProbeTracked pool) :
    ProbeTracked ((system config).step pool a) ↔ ProbeKept pool a := by
  have hmoves : pool.Moves (hooks config) takesProbe a ((system config).step pool a) :=
    Pool.step_moves (hooks config) takesProbe pool a
  generalize (system config).step pool a = next at hmoves ⊢
  cases hmoves with
  | idle hdisabled => exact ⟨fun _ => probeKept_of_disabled hdisabled, fun _ => h⟩
  | accepted metadata =>
      exact ⟨fun _ => trivial, fun _ => h.congr rfl fun key j => Pool.heldBy_insert key j⟩
  | refused stamp now x todo hrequest hidle =>
      have hbefore := hsane.settled.not_holding hrequest hidle
      exact ⟨fun _ => trivial,
        fun _ => h.congr rfl (Pool.heldBy_replace_of_not_holding hrequest _ hbefore hbefore)⟩
  | admitted stamp now x todo hrequest hidle hok =>
      exact ⟨fun _ => trivial, fun _ => h.admitted hsane hrequest hidle hok⟩
  | hooked now hrequest htodo => exact h.hooked_iff hrequest htodo
  | finished hrequest htodo => exact h.finished_iff hsane hrequest htodo

end ModelCircuitBreaker

end Conduit.Middlewares
