import Conduit.Pipeline.Attempts

/-!
# Who holds a slot

What one step of the requests in flight can do, and which requests hold the
slot of a key: a request whose attempt took it and has run no hook since.
-/

namespace Conduit.Pipeline

open Base

variable {S Own : Type} {m : AttemptHooks S Own} {takes : Int → Metadata → S → Bool}

/-! ## Hooks -/

/-- The hooks an attempt can run after the request hooks. -/
inductive HookList : List Hook → Prop
  | none : HookList []
  | closed : HookList [.onOutboundLiveStreamClose]
  | answered : HookList [.onOutboundRawResponse]
  | failed (err : ConduitError) : HookList [.onOutboundRawError err]
  | answeredFailed (err : ConduitError) :
      HookList [.onOutboundRawResponse, .onOutboundRawError err]

theorem Stage.raise_list (stage : Stage) : HookList stage.raise := by
  cases stage with
  | none => exact .none
  | some err => exact .failed err

theorem ResponseStages.hooks_list (x : ResponseStages) : HookList x.hooks := by
  have hraise : ∀ stage : Stage, HookList (.onOutboundRawResponse :: stage.raise) := by
    intro stage
    cases stage with
    | none => exact .answered
    | some err => exact .answeredFailed err
  unfold hooks
  cases x.laterResponseMiddlewares with
  | some err => exact .failed err
  | none =>
      cases x.earlierResponseMiddlewares with
      | some err => exact .answeredFailed err
      | none =>
          dsimp only
          by_cases hpassthrough : x.wireCompatiblePassthrough = true
          · rw [if_pos hpassthrough]
            cases x.outboundResponse with
            | some err => exact .answeredFailed err
            | none =>
                dsimp only
                by_cases hserialize : x.serialize.isSome = true
                · rw [if_pos hserialize]
                  exact .answered
                · rw [if_neg hserialize]
                  exact hraise _
          · rw [if_neg hpassthrough]
            exact hraise _

theorem Execution.hooks_list (x : Execution) : HookList x.hooks := by
  cases x with
  | stream executor stages => exact Stage.raise_list _
  | autoAggregate executor stages aggregate => exact Stage.raise_list _
  | nonStream executor providerError stages =>
      unfold hooks
      dsimp only
      cases firstFailure [executor.failure nonStreamResponseTimeoutError, providerError] with
      | some err => exact .failed err
      | none => exact stages.hooks_list
  | live executed firstEventTimedOut firstEvent ended =>
      unfold hooks
      dsimp only
      cases firstFailure [executed, failIf firstEventTimedOut streamFirstEventTimeoutError, firstEvent,
          failIf ended (upstreamError "upstream stream ended before first event")] with
      | some err => exact .failed err
      | none => exact .closed

/-- The attempt is a buffered stream or an auto-aggregate of which every stage
passes. -/
def Execution.StreamSucceeds : Execution → Prop
  | .stream executor stages =>
      executor.failure streamFirstEventTimeoutError = none ∧ stages.failure = none
  | .autoAggregate executor stages aggregate =>
      executor.failure nonStreamResponseTimeoutError = none ∧ stages.failure = none ∧
        aggregate.failure = none
  | .nonStream _ _ _ => False
  | .live _ _ _ _ => False

theorem firstFailure_eq_none_iff {stages : List Stage} :
    firstFailure stages = none ↔ ∀ stage ∈ stages, stage = none :=
  List.findSome?_eq_none_iff

theorem Stage.raise_eq_nil_iff {stage : Stage} : stage.raise = [] ↔ stage = none := by
  cases stage <;> simp [Stage.raise]

theorem ResponseStages.hooks_ne_nil (x : ResponseStages) : x.hooks ≠ [] := by
  unfold hooks
  cases x.laterResponseMiddlewares with
  | some err => exact List.cons_ne_nil _ _
  | none => exact List.cons_ne_nil _ _

/-- A stream that succeeds is the one end of an attempt at which no hook runs. -/
theorem Execution.hooks_eq_nil_iff (x : Execution) : x.hooks = [] ↔ x.StreamSucceeds := by
  cases x with
  | stream executor stages =>
      exact Stage.raise_eq_nil_iff.trans (firstFailure_eq_none_iff.trans (by simp [StreamSucceeds]))
  | autoAggregate executor stages aggregate =>
      exact Stage.raise_eq_nil_iff.trans (firstFailure_eq_none_iff.trans (by simp [StreamSucceeds]))
  | nonStream executor providerError stages =>
      refine iff_of_false ?_ id
      unfold hooks
      dsimp only
      cases firstFailure [executor.failure nonStreamResponseTimeoutError, providerError] with
      | some err => exact List.cons_ne_nil _ _
      | none => exact stages.hooks_ne_nil
  | live executed firstEventTimedOut firstEvent ended =>
      refine iff_of_false ?_ id
      unfold hooks
      dsimp only
      cases firstFailure [executed, failIf firstEventTimedOut streamFirstEventTimeoutError, firstEvent,
          failIf ended (upstreamError "upstream stream ended before first event")] with
      | some err => exact List.cons_ne_nil _ _
      | none => exact List.cons_ne_nil _ _

/-- Everything the start of an attempt does. -/
inductive Begun (m : AttemptHooks S Own) (takes : Int → Metadata → S → Bool) (now : Int)
    (x : Exchange) (store : S) (request : Request Own) : S × Request Own → Prop
  /-- A stage before the request hooks fails. -/
  | unprepared (hprepared : x.prepared.isSome = true) :
      Begun m takes now x store request (store, { request with todo := some [] })
  /-- The request hook of a middleware fails, before or in the observed one. -/
  | refused (hprepared : x.prepared.isSome = false) (err : ConduitError) :
      Begun m takes now x store request
        (store, { request with todo := some [.onOutboundRawError err] })
  | admitted (hprepared : x.prepared.isSome = false) {store' : S} {own : Own} {todo : List Hook}
      (hok : m.onOutboundRawRequest now request.metadata store request.own = .ok (store', own))
      (htodo : HookList todo) (hstream : todo = [] → x.execution.StreamSucceeds) :
      Begun m takes now x store request
        (store', ⟨request.metadata, own, some todo, takes now request.metadata store⟩)

variable (m takes) in
theorem begin_begun (now : Int) (x : Exchange) (store : S) (request : Request Own) :
    Begun m takes now x store request (m.begin takes now x store request) := by
  unfold AttemptHooks.begin
  cases hprepared : x.prepared with
  | some err => exact .unprepared (by simp [hprepared])
  | none =>
      cases x.earlierRequestMiddlewares with
      | some err => exact .refused (by simp [hprepared]) err
      | none =>
          dsimp only
          cases hok : m.onOutboundRawRequest now request.metadata store request.own with
          | error err => exact .refused (by simp [hprepared]) err
          | ok result =>
              cases x.laterRequestMiddlewares with
              | some err =>
                  exact .admitted (by simp [hprepared]) hok (.failed err)
                    fun hnil => absurd hnil (List.cons_ne_nil _ _)
              | none =>
                  exact .admitted (by simp [hprepared]) hok x.execution.hooks_list
                    x.execution.hooks_eq_nil_iff.mp

/-! ## Steps -/

namespace Pool

/-- No request is at the point that the action is about. -/
def Disabled (pool : Pool S Own) : PoolAction → Prop
  | .hook id _ => ∀ request hook rest, pool.requests[id]? = some request →
      request.todo ≠ some (hook :: rest)
  | .finish id => ∀ request, pool.requests[id]? = some request → request.todo ≠ some []
  | _ => True

/-- Everything a step can do. -/
inductive Moves (m : AttemptHooks S Own) (takes : Int → Metadata → S → Bool) (pool : Pool S Own) :
    PoolAction → Pool S Own → Prop
  | idle {a : PoolAction} (hdisabled : pool.Disabled a) : Moves m takes pool a pool
  | accepted (metadata : Metadata) :
      Moves m takes pool (.accept metadata)
        { pool with requests := pool.requests.insertRow ⟨metadata, m.fresh, none, false⟩ }
  /-- A stage or the hook itself fails before a slot is taken. -/
  | refused {id : Nat} {request : Request Own} (stamp : Metadata → Metadata) (now : Int)
      (x : Exchange) (todo : List Hook) (hrequest : pool.requests[id]? = some request)
      (hidle : request.todo = none) :
      Moves m takes pool (.attempt id stamp now x)
        (pool.replace id
          (pool.store, { request with metadata := stamp request.metadata, todo := some todo }))
  | admitted {id : Nat} {request : Request Own} (stamp : Metadata → Metadata) (now : Int)
      (x : Exchange) (todo : List Hook) {store : S} {own : Own}
      (hrequest : pool.requests[id]? = some request) (hidle : request.todo = none)
      (hok : m.onOutboundRawRequest now (stamp request.metadata) pool.store request.own =
        .ok (store, own)) (hstream : todo = [] → x.execution.StreamSucceeds) :
      Moves m takes pool (.attempt id stamp now x)
        (pool.replace id (store,
          ⟨stamp request.metadata, own, some todo, takes now (stamp request.metadata) pool.store⟩))
  | hooked {id : Nat} {request : Request Own} (now : Int) {hook : Hook} {rest : List Hook}
      (hrequest : pool.requests[id]? = some request) (htodo : request.todo = some (hook :: rest)) :
      Moves m takes pool (.hook id now)
        (pool.replace id ((m.run hook now request.metadata pool.store request.own).1,
          ⟨request.metadata, (m.run hook now request.metadata pool.store request.own).2, some rest,
            false⟩))
  | finished {id : Nat} {request : Request Own} (hrequest : pool.requests[id]? = some request)
      (htodo : request.todo = some []) :
      Moves m takes pool (.finish id)
        (pool.replace id (pool.store, { request with todo := none, holding := false }))

variable (m takes) in
theorem step_moves (pool : Pool S Own) (a : PoolAction) :
    pool.Moves m takes a (pool.step m takes a) := by
  cases a with
  | accept metadata => exact .accepted metadata
  | attempt id stamp now x =>
      unfold step
      dsimp only
      cases hrequest : pool.requests[id]? with
      | none => exact .idle trivial
      | some request =>
          dsimp only
          split_ifs with hidle
          · have hbegun := begin_begun m takes now x pool.store
              { request with metadata := stamp request.metadata }
            generalize m.begin takes now x pool.store _ = result at hbegun ⊢
            cases hbegun with
            | unprepared => exact .refused stamp now x _ hrequest hidle
            | refused => exact .refused stamp now x _ hrequest hidle
            | admitted _ hok _ hstream => exact .admitted stamp now x _ hrequest hidle hok hstream
          · exact .idle trivial
  | hook id now =>
      unfold step
      dsimp only
      cases hrequest : pool.requests[id]? with
      | none => exact .idle fun _ _ _ hsome => absurd (hrequest.symm.trans hsome) (by simp)
      | some request =>
          dsimp only
          have hidle : (∀ hook rest, request.todo ≠ some (hook :: rest)) →
              pool.Disabled (.hook id now) := by
            intro hnone request' hook rest hrequest' htodo
            obtain rfl := Option.some.inj (hrequest.symm.trans hrequest')
            exact hnone hook rest htodo
          rcases htodo : request.todo with _ | _ | ⟨hook, rest⟩
          · exact .idle (hidle (by simp [htodo]))
          · exact .idle (hidle (by simp [htodo]))
          · exact .hooked now hrequest htodo
  | finish id =>
      unfold step
      dsimp only
      cases hrequest : pool.requests[id]? with
      | none => exact .idle fun _ hsome => absurd (hrequest.symm.trans hsome) (by simp)
      | some request =>
          dsimp only
          split_ifs with htodo
          · exact .finished hrequest htodo
          · refine .idle ?_
            intro request' hrequest'
            obtain rfl := Option.some.inj (hrequest.symm.trans hrequest')
            exact htodo

end Pool

/-! ## Holders -/

section Holders

variable (keyOf : Metadata → Option String)

/-- The attempt of a request holds the slot of a key. -/
def Request.Holds (key : String) (request : Request Own) : Prop :=
  request.holding = true ∧ keyOf request.metadata = some key

def Pool.HeldBy (pool : Pool S Own) (key : String) (id : Nat) : Prop :=
  ∃ request, pool.requests[id]? = some request ∧ request.Holds keyOf key

/-- How many attempts hold a slot of a key. -/
def Pool.holders (pool : Pool S Own) (key : String) : Nat :=
  pool.requests.countWhere fun request =>
    request.holding && decide (keyOf request.metadata = some key)

/-- Only an attempt in progress holds a slot, and then one with a key. -/
def Pool.Settled (pool : Pool S Own) : Prop :=
  ∀ (id : Nat) (request : Request Own), pool.requests[id]? = some request →
    request.holding = true → request.todo ≠ none ∧ ∃ key, keyOf request.metadata = some key

variable {keyOf} {pool : Pool S Own} {id : Nat} {request : Request Own}

namespace Pool

theorem heldBy_iff (hrequest : pool.requests[id]? = some request) (key : String) :
    pool.HeldBy keyOf key id ↔ request.Holds keyOf key := by
  constructor
  · rintro ⟨request', hrequest', hholds⟩
    obtain rfl : request = request' := Option.some.inj (hrequest.symm.trans hrequest')
    exact hholds
  · exact fun hholds => ⟨request, hrequest, hholds⟩

theorem getElem?_replace_self (hrequest : pool.requests[id]? = some request) (store : S)
    (next : Request Own) : (pool.replace id (store, next)).requests[id]? = some next :=
  Table.getElem?_updateRow_self _ hrequest

theorem getElem?_replace_ne {j : Nat} (hne : id ≠ j) (store : S) (next : Request Own) :
    (pool.replace id (store, next)).requests[j]? = pool.requests[j]? :=
  Table.getElem?_updateRow_ne _ _ hne

/-- Replacing a request changes the holders at its id only. -/
theorem heldBy_replace (hrequest : pool.requests[id]? = some request) (store : S)
    (next : Request Own) (key : String) (j : Nat) :
    (pool.replace id (store, next)).HeldBy keyOf key j ↔
      if id = j then next.Holds keyOf key else pool.HeldBy keyOf key j := by
  split_ifs with hid
  · subst hid
    exact heldBy_iff (getElem?_replace_self hrequest store next) key
  · unfold HeldBy
    rw [getElem?_replace_ne hid]

/-- A request that holds nothing before and after leaves the holders alone. -/
theorem heldBy_replace_of_not_holding (hrequest : pool.requests[id]? = some request) (store : S)
    {next : Request Own} (hbefore : request.holding = false) (hafter : next.holding = false)
    (key : String) (j : Nat) :
    (pool.replace id (store, next)).HeldBy keyOf key j ↔ pool.HeldBy keyOf key j := by
  rw [heldBy_replace hrequest]
  split_ifs with hid
  · subst hid
    rw [heldBy_iff hrequest]
    simp [Request.Holds, hbefore, hafter]
  · rfl

variable (keyOf) in
/-- Replacing a request takes the old one out of the count and puts the new one in. -/
theorem holders_replace (hrequest : pool.requests[id]? = some request) (store : S)
    (next : Request Own) (key : String) :
    (pool.replace id (store, next)).holders keyOf key +
        (if request.holding && decide (keyOf request.metadata = some key) then 1 else 0) =
      pool.holders keyOf key +
        if next.holding && decide (keyOf next.metadata = some key) then 1 else 0 :=
  Table.countWhere_updateRow (fun _ => next) _ hrequest

theorem holders_insert {metadata : Metadata} {own : Own} {todo : Option (List Hook)} (key : String) :
    holders keyOf ({ pool with requests := pool.requests.insertRow ⟨metadata, own, todo, false⟩ } :
      Pool S Own) key = pool.holders keyOf key :=
  Table.countWhere_insertRow _ _ _

theorem heldBy_insert {metadata : Metadata} {own : Own} {todo : Option (List Hook)} (key : String)
    (j : Nat) :
    HeldBy keyOf ({ pool with requests := pool.requests.insertRow ⟨metadata, own, todo, false⟩ } :
      Pool S Own) key j ↔ pool.HeldBy keyOf key j := by
  constructor
  · rintro ⟨request, hrequest, hholds⟩
    rcases Table.getElem?_insertRow_cases hrequest with ⟨_, rfl⟩ | hold
    · exact absurd hholds.1 (by simp)
    · exact ⟨request, hold, hholds⟩
  · rintro ⟨request, hrequest, hholds⟩
    exact ⟨request, Table.getElem?_insertRow_of_some _ hrequest, hholds⟩

/-- An idle request holds nothing. -/
theorem Settled.not_holding (h : pool.Settled keyOf) (hrequest : pool.requests[id]? = some request)
    (hidle : request.todo = none) : request.holding = false := by
  rw [← Bool.not_eq_true]
  intro hholding
  exact (h id request hrequest hholding).1 hidle

theorem Settled.replace (h : pool.Settled keyOf) (store : S) {next : Request Own}
    (hnext : next.holding = true → next.todo ≠ none ∧ ∃ key, keyOf next.metadata = some key) :
    (pool.replace id (store, next)).Settled keyOf := by
  intro j request' hrequest' hholding
  rcases Table.getElem?_updateRow_cases hrequest' with ⟨rfl, _, _, rfl⟩ | ⟨_, hold⟩
  · exact hnext hholding
  · exact h j request' hold hholding

end Pool

theorem settled_inductive (store : S)
    (htakes : ∀ (now : Int) (metadata : Metadata) (store : S), takes now metadata store = true →
      ∃ key, keyOf metadata = some key) :
    (requests m takes store).Inductive (Pool.Settled keyOf) where
  init := fun _ _ hnone => absurd hnone (by simp [requests])
  step pool a h := by
    have hmoves : pool.Moves m takes a ((requests m takes store).step pool a) :=
      Pool.step_moves m takes pool a
    generalize (requests m takes store).step pool a = next at hmoves ⊢
    cases hmoves with
    | idle => exact h
    | accepted metadata =>
        intro id request hrequest hholding
        rcases Table.getElem?_insertRow_cases hrequest with ⟨_, rfl⟩ | hold
        · exact absurd hholding (by simp)
        · exact h id request hold hholding
    | refused stamp now x todo hrequest hidle =>
        refine h.replace _ ?_
        intro hholding
        exact absurd hholding (by simp [h.not_holding hrequest hidle])
    | admitted stamp now x todo hrequest hidle hok =>
        exact h.replace _ fun hholding => ⟨by simp, htakes _ _ _ hholding⟩
    | hooked now hrequest htodo => exact h.replace _ fun hholding => absurd hholding (by simp)
    | finished hrequest htodo => exact h.replace _ fun hholding => absurd hholding (by simp)

/-- No request holds something without a hook left to give it back. -/
def Pool.Unstranded (pool : Pool S Own) : Prop :=
  ∀ (id : Nat) (request : Request Own), pool.requests[id]? = some request →
    request.holding = true → request.todo ≠ some []

theorem Pool.Unstranded.replace (h : pool.Unstranded) (store : S) {next : Request Own}
    (hnext : next.holding = true → next.todo ≠ some []) :
    (pool.replace id (store, next)).Unstranded := by
  intro j request' hrequest' hholding
  rcases Table.getElem?_updateRow_cases hrequest' with ⟨rfl, _, _, rfl⟩ | ⟨_, hold⟩
  · exact hnext hholding
  · exact h j request' hold hholding

/-- Not an attempt that ends as a stream that succeeds. -/
def PoolAction.EndsWithHook : PoolAction → Prop
  | .attempt _ _ _ x => ¬ x.execution.StreamSucceeds
  | _ => True

/-- Only a stream that succeeds strands what its attempt took. -/
theorem unstranded_step {store : S} (a : PoolAction) (hsettled : pool.Settled keyOf)
    (h : pool.Unstranded) (hends : a.EndsWithHook) :
    ((requests m takes store).step pool a).Unstranded := by
  have hmoves : pool.Moves m takes a ((requests m takes store).step pool a) :=
    Pool.step_moves m takes pool a
  generalize (requests m takes store).step pool a = next at hmoves ⊢
  cases hmoves with
  | idle => exact h
  | accepted metadata =>
      intro id request hrequest hholding
      rcases Table.getElem?_insertRow_cases hrequest with ⟨_, rfl⟩ | hold
      · exact absurd hholding (by simp)
      · exact h id request hold hholding
  | refused stamp now x todo hrequest hidle =>
      refine h.replace _ ?_
      intro hholding
      exact absurd hholding (by simp [hsettled.not_holding hrequest hidle])
  | admitted stamp now x todo hrequest hidle hok hstream =>
      refine h.replace _ ?_
      intro _ hnil
      exact hends (hstream (Option.some.inj hnil))
  | hooked now hrequest htodo => exact h.replace _ fun hholding => absurd hholding (by simp)
  | finished hrequest htodo => exact h.replace _ fun hholding => absurd hholding (by simp)

/-- In a run without such streams, what holds along every step whose requests
are not stranded. -/
theorem along_of_unstranded {store : S} {C : Pool S Own → PoolAction → Prop}
    (hsettled : (requests m takes store).Inductive (Pool.Settled keyOf))
    (hC : ∀ (pool : Pool S Own) (a : PoolAction), pool.Unstranded → C pool a)
    {actions : List PoolAction} (hends : ∀ a ∈ actions, a.EndsWithHook) :
    (requests m takes store).Along C (requests m takes store).init actions := by
  have hstart : (requests m takes store).init.Unstranded :=
    fun _ _ hnone => absurd hnone (by simp [requests])
  refine TSys.Along.imp (P := fun pool => pool.Settled keyOf ∧ pool.Unstranded)
    (C := fun _ a => a.EndsWithHook) ?_ ?_ actions _ ⟨hsettled.init, hstart⟩
    (TSys.along_of_forall (fun a ha _ => hends a ha) _)
  · intro pool a h hends
    exact ⟨hsettled.step pool a h.1, unstranded_step a h.1 h.2 hends⟩
  · exact fun pool a h _ => hC pool a h.2

end Holders

end Conduit.Pipeline
