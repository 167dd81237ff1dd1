import Conduit.Pipeline.Logic.Retry

/-!
# The attempts of a run

`visits` lists the attempts that a run of the retry loop makes. Successive
visits are related by the decision between them, so candidates are visited in
order and the visits of a run are strictly increasing in (candidate, retry),
within the two budgets. The counts of attempts follow from that.
-/

namespace Conduit.Pipeline

open Base

variable {candidates : List PipelineCandidate} {Response : Type}

/-- One attempt of a run: the candidate's position, the same-channel retries
before it, whether the context was canceled when it started and when it
ended, whether it failed with a response timeout, and after a failure the
decision of `decideRetry` and the action of the loop. -/
structure Visit where
  index : Nat
  retries : Nat
  startedCanceled : Bool
  endedCanceled : Bool
  timedOut : Bool
  decided : Option RetryDecision
  taken : Option RetryDecision
deriving DecidableEq, Repr

namespace Visit

/-- In list order, without a way back. -/
def Before (v w : Visit) : Prop :=
  v.index < w.index ∨ v.index = w.index ∧ v.retries < w.retries

/-- The next attempt retries the channel or starts on the next one. -/
def Leads (v w : Visit) : Prop :=
  v.endedCanceled = false ∧
    (v.timedOut = false ∧ w.index = v.index ∧ w.retries = v.retries + 1 ∨
      w.index = v.index + 1 ∧ w.retries = 0)

theorem Before.ne {v w : Visit} (h : v.Before w) : (v.index, v.retries) ≠ (w.index, w.retries) := by
  intro heq
  rw [Prod.mk.injEq] at heq
  rcases h with hlt | ⟨_, hlt⟩
  · omega
  · omega

theorem Leads.before {v w : Visit} (h : v.Leads w) : v.Before w := by
  rcases h.2 with ⟨_, hindex, hretries⟩ | ⟨hindex, _⟩
  · exact .inr ⟨hindex.symm, by omega⟩
  · exact .inl (by omega)

theorem Before.trans {u v w : Visit} (huv : u.Before v) (hvw : v.Before w) : u.Before w := by
  unfold Before at *
  omega

/-- What an attempt makes sure of for all later ones. -/
structure Precedes (v w : Visit) : Prop where
  before : v.Before w
  live : v.endedCanceled = false
  timedOut : v.timedOut = true → v.index < w.index

theorem Leads.precedes {v w : Visit} (h : v.Leads w) : v.Precedes w := by
  refine ⟨h.before, h.1, ?_⟩
  intro htimeout
  rcases h.2 with ⟨hanswered, _⟩ | ⟨hindex, _⟩
  · exact absurd htimeout (by simp [hanswered])
  · omega

theorem Precedes.trans {u v w : Visit} (huv : u.Precedes v) (hvw : v.Precedes w) :
    u.Precedes w := by
  refine ⟨huv.before.trans hvw.before, huv.live, ?_⟩
  intro htimeout
  have hlt := huv.timedOut htimeout
  rcases hvw.before with hswitch | ⟨hsame, _⟩
  · omega
  · omega

instance : IsTrans Visit Precedes := ⟨fun _ _ _ => Precedes.trans⟩

end Visit

/-! ## Counting visits -/

section Counting

variable {visits : List Visit}

theorem nodup_of_before (h : visits.Pairwise Visit.Before) :
    (visits.map fun v => (v.index, v.retries)).Nodup := by
  rw [List.Nodup, List.pairwise_map]
  exact h.imp Visit.Before.ne

/-- Strictly increasing visits within budgets are no more than the budgets allow. -/
theorem length_le_of_before {switches retries : Nat} (h : visits.Pairwise Visit.Before)
    (hbound : ∀ v ∈ visits, v.index ≤ switches ∧ v.retries ≤ retries) :
    visits.length ≤ (1 + switches) * (1 + retries) := by
  have hsubset : (visits.map fun v => (v.index, v.retries)) ⊆
      List.range (1 + switches) ×ˢ List.range (1 + retries) := by
    intro pair hmem
    obtain ⟨v, hv, rfl⟩ := List.mem_map.mp hmem
    obtain ⟨hindex, hretries⟩ := hbound v hv
    rw [List.mem_product, List.mem_range, List.mem_range]
    omega
  have hlength := (List.subperm_of_subset (nodup_of_before h) hsubset).length_le
  rwa [List.length_map, List.length_product, List.length_range, List.length_range] at hlength

theorem length_filter_index_le {retries : Nat} (h : visits.Pairwise Visit.Before)
    (hbound : ∀ v ∈ visits, v.retries ≤ retries) (index : Nat) :
    (visits.filter fun v => v.index = index).length ≤ 1 + retries := by
  have hwithin : ∀ v ∈ visits.filter fun v => v.index = index, v.index = index ∧ v.retries ≤ retries := by
    intro v hv
    obtain ⟨hmem, hindex⟩ := List.mem_filter.mp hv
    exact ⟨of_decide_eq_true hindex, hbound v hmem⟩
  have hnodup : ((visits.filter fun v => v.index = index).map Visit.retries).Nodup := by
    rw [List.Nodup, List.pairwise_map]
    refine (List.Pairwise.and_mem.mp (h.filter _)).imp ?_
    rintro v w ⟨hv, hw, hbefore⟩ heq
    refine hbefore.ne ?_
    rw [(hwithin v hv).1, (hwithin w hw).1, heq]
  have hsubset : ((visits.filter fun v => v.index = index).map Visit.retries) ⊆
      List.range (1 + retries) := by
    intro n hmem
    obtain ⟨v, hv, rfl⟩ := List.mem_map.mp hmem
    have := (hwithin v hv).2
    rw [List.mem_range]
    omega
  have hlength := (List.subperm_of_subset hnodup hsubset).length_le
  rwa [List.length_map, List.length_range] at hlength

end Counting

/-! ## The visits of a run -/

section Visits

variable (policy : RetryPolicy) (engine : RegexEngine) (requestModel : Option String)

/-- What the loop does after a failed attempt, read off its next state. -/
def Process.taken (loop : Loop candidates Response) :
    Process candidates Response → Option RetryDecision
  | .returned (.ok _) _ => none
  | .returned (.error _) _ => some .stop
  | .running next =>
      some (if next.cursor.currentIndex = loop.cursor.currentIndex then .retrySameChannel
        else .retryNextChannel)

def Loop.visit (loop : Loop candidates Response) (attempt : Attempt Response) : Visit where
  index := loop.cursor.currentIndex
  retries := loop.cursor.sameChannelRetries.toNat
  startedCanceled := loop.ctx.canceled
  endedCanceled := loop.canceledAfter attempt
  timedOut := match attempt.outcome with
    | .ok _ => false
    | .error err => attempt.isTimeoutError err
  decided := match attempt.outcome with
    | .ok _ => none
    | .error err => some (loop.decision policy engine attempt err)
  taken := (loop.pass policy engine requestModel attempt).taken loop

/-- The attempts that are made when the outcomes are `attempts`. -/
def Process.visits : Process candidates Response → List (Attempt Response) → List Visit
  | .running loop, attempt :: attempts =>
      loop.visit policy engine requestModel attempt ::
        Process.visits (loop.pass policy engine requestModel attempt) attempts
  | .running _, [] => []
  | .returned _ _, _ => []

@[simp] theorem Process.visits_returned
    (result : Except ConduitError (Response × List (AttemptRecord Response)))
    (ctx : PipelineContext) (attempts : List (Attempt Response)) :
    Process.visits policy engine requestModel
      (.returned result ctx : Process candidates Response) attempts = [] := by
  cases attempts <;> rfl

@[simp] theorem Process.visits_nil (process : Process candidates Response) :
    Process.visits policy engine requestModel process [] = [] := by
  cases process <;> rfl

/-! ## Counters -/

/-- Within the budgets, and the counters say how many attempts were made. -/
structure Loop.Counted (loop : Loop candidates Response) : Prop where
  index : loop.cursor.currentIndex ≤ policy.maxChannelRetries.toNat
  retries : loop.cursor.sameChannelRetries.toNat ≤ policy.maxSingleChannelRetries.toNat
  channelAttempt : loop.retryCtx.channelAttempt = UInt32.ofNat (loop.attempts.length + 1)
  singleChannelAttempt : loop.retryCtx.singleChannelAttempt = loop.cursor.sameChannelRetries
  published : loop.ctx.retryContext = some loop.retryCtx

theorem toNat_succ_of_lt {a b : UInt32} (h : a < b) : (a + 1).toNat = a.toNat + 1 := by
  have hlt := UInt32.lt_iff_toNat_lt.mp h
  have hbound := b.toNat_lt
  rw [UInt32.toNat_add]
  simp
  omega

/-- A decided retry is within its budget. -/
theorem decideRetry_retrySameChannel {state : RetryState} {outcome : AttemptOutcome}
    {canceled : Bool} (h : decideRetry policy state outcome canceled = .retrySameChannel) :
    canceled = false ∧ outcome.isTimeoutError = false ∧
      state.singleChannelRetries < policy.maxSingleChannelRetries := by
  unfold decideRetry at h
  split at h
  · exact absurd h (by simp)
  · split at h
    · next hlive hguard =>
        simp only [Bool.and_eq_true, Bool.not_eq_true', decide_eq_true_eq] at hguard
        exact ⟨by simpa using hlive, hguard.1.1.1, hguard.1.2⟩
    · split at h
      · exact absurd h (by simp)
      · exact absurd h (by simp)

theorem decideRetry_retryNextChannel {state : RetryState} {outcome : AttemptOutcome}
    {canceled : Bool} (h : decideRetry policy state outcome canceled = .retryNextChannel) :
    canceled = false ∧ state.channelSwitches < policy.maxChannelRetries := by
  unfold decideRetry at h
  split at h
  · exact absurd h (by simp)
  · split at h
    · exact absurd h (by simp)
    · split at h
      · next hlive _ hguard =>
          simp only [Bool.and_eq_true, decide_eq_true_eq] at hguard
          exact ⟨by simpa using hlive, hguard.2⟩
      · exact absurd h (by simp)

variable {policy engine requestModel} {loop next : Loop candidates Response}
  {attempt : Attempt Response} {err : ConduitError}

theorem toNat_ofNat_index (h : loop.Counted policy) :
    (UInt32.ofNat loop.cursor.currentIndex).toNat = loop.cursor.currentIndex := by
  have hindex := h.index
  have hbound := policy.maxChannelRetries.toNat_lt
  exact UInt32.toNat_ofNat_of_lt' (by rw [UInt32.size]; omega)

/-- A decision that is carried out stays within the budgets and is counted. -/
theorem Loop.Counted.continues (h : loop.Counted policy)
    (hgo : loop.decision policy engine attempt err ≠ .stop)
    (hnext : loop.Continues requestModel attempt (loop.decision policy engine attempt err) err next) :
    next.Counted policy ∧ loop.canceledAfter attempt = false ∧
      (attempt.isTimeoutError err = false ∧ next.cursor.currentIndex = loop.cursor.currentIndex ∧
          next.cursor.sameChannelRetries.toNat = loop.cursor.sameChannelRetries.toNat + 1 ∧
          loop.decision policy engine attempt err = .retrySameChannel ∨
        next.cursor.currentIndex = loop.cursor.currentIndex + 1 ∧
          next.cursor.sameChannelRetries.toNat = 0 ∧
          loop.decision policy engine attempt err = .retryNextChannel) := by
  obtain ⟨hcursor, hattempts, hretryCtx, hpublished, _, _⟩ := hnext
  have hcount : UInt32.ofNat (loop.attempts.length + 1) + 1 =
      UInt32.ofNat (next.attempts.length + 1) := by
    rw [hattempts]
    simp
  generalize hdecision : loop.decision policy engine attempt err = decision at hgo hcursor hretryCtx
  cases decision with
  | stop => exact absurd rfl hgo
  | retrySameChannel =>
      obtain ⟨hindex, hretries, _⟩ := hcursor
      obtain ⟨hlive, htimeout, hbudget⟩ := decideRetry_retrySameChannel policy hdecision
      have hbudget' : loop.cursor.sameChannelRetries < policy.maxSingleChannelRetries := hbudget
      have hsucc := toNat_succ_of_lt hbudget'
      have hlt := UInt32.lt_iff_toNat_lt.mp hbudget'
      refine ⟨⟨?_, ?_, ?_, ?_, hpublished⟩, hlive, .inl ⟨htimeout, hindex, ?_, rfl⟩⟩
      · rw [hindex]
        exact h.index
      · rw [hretries, hsucc]
        omega
      · rw [hretryCtx, ← hcount, ← h.channelAttempt]
        rfl
      · rw [hretryCtx, hretries, ← h.singleChannelAttempt]
        rfl
      · rw [hretries, hsucc]
  | retryNextChannel =>
      obtain ⟨hindex, hretries, _⟩ := hcursor
      obtain ⟨hlive, hbudget⟩ := decideRetry_retryNextChannel policy hdecision
      have hbudget' : UInt32.ofNat loop.cursor.currentIndex < policy.maxChannelRetries := hbudget
      have hlt := UInt32.lt_iff_toNat_lt.mp hbudget'
      rw [toNat_ofNat_index h] at hlt
      refine ⟨⟨?_, ?_, ?_, ?_, hpublished⟩, hlive, .inr ⟨hindex, ?_, rfl⟩⟩
      · rw [hindex]
        exact hlt
      · rw [hretries]
        exact Nat.zero_le _
      · rw [hretryCtx, ← hcount, ← h.channelAttempt]
        rfl
      · rw [hretryCtx, hretries]
        rfl
      · rw [hretries]
        rfl

/-- The loop takes the action that `decideRetry` decides. -/
theorem taken_eq_decided (h : loop.Counted policy) :
    (loop.visit policy engine requestModel attempt).taken =
      (loop.visit policy engine requestModel attempt).decided := by
  unfold Loop.visit
  dsimp only
  cases houtcome : attempt.outcome with
  | ok response =>
      obtain ⟨ctx, hpass, _⟩ := loop.pass_ok policy engine requestModel attempt houtcome
      rw [hpass]
      rfl
  | error err =>
      rcases loop.pass_error policy engine requestModel attempt houtcome with
        ⟨hstop, ctx, hpass, _⟩ | ⟨hgo, next, hpass, hnext⟩
      · rw [hpass]
        dsimp only
        rw [hstop]
        rfl
      · rw [hpass]
        dsimp only
        obtain ⟨_, _, ⟨_, hindex, _, hdecision⟩ | ⟨hindex, _, hdecision⟩⟩ := h.continues hgo hnext
        · rw [hdecision]
          simp [Process.taken, hindex]
        · rw [hdecision]
          simp [Process.taken, hindex]

/-! ## Runs -/

/-- What holds of the visits of a run. -/
structure Planned (policy : RetryPolicy) (loop : Loop candidates Response) (visits : List Visit) :
    Prop where
  taken : ∀ v ∈ visits, v.taken = v.decided
  within : ∀ v ∈ visits, v.index ≤ policy.maxChannelRetries.toNat ∧
    v.retries ≤ policy.maxSingleChannelRetries.toNat
  chain : visits.IsChain Visit.Leads
  head : ∀ v ∈ visits.head?, v.index = loop.cursor.currentIndex ∧
    v.retries = loop.cursor.sameChannelRetries.toNat

theorem visits_planned (attempts : List (Attempt Response)) :
    ∀ loop : Loop candidates Response, loop.Counted policy →
      Planned policy loop (Process.visits policy engine requestModel (.running loop) attempts) := by
  induction attempts with
  | nil => exact fun _ _ => ⟨by simp [Process.visits], by simp [Process.visits],
      by simp [Process.visits], by simp [Process.visits]⟩
  | cons attempt attempts ih =>
      intro loop h
      have hfirst : ∀ rest : List Visit,
          (∀ v ∈ rest, v.taken = v.decided) →
          (∀ v ∈ rest, v.index ≤ policy.maxChannelRetries.toNat ∧
            v.retries ≤ policy.maxSingleChannelRetries.toNat) →
          (loop.visit policy engine requestModel attempt :: rest).IsChain Visit.Leads →
          Planned policy loop (loop.visit policy engine requestModel attempt :: rest) := by
        intro rest htaken hwithin hchain
        refine ⟨?_, ?_, hchain, ?_⟩
        · intro v hv
          rcases List.mem_cons.mp hv with rfl | hv
          · exact taken_eq_decided h
          · exact htaken v hv
        · intro v hv
          rcases List.mem_cons.mp hv with rfl | hv
          · exact ⟨h.index, h.retries⟩
          · exact hwithin v hv
        · rintro v ⟨⟩
          exact ⟨rfl, rfl⟩
      have hlast : Planned policy loop [loop.visit policy engine requestModel attempt] :=
        hfirst [] (by simp) (by simp) (by simp)
      unfold Process.visits
      cases houtcome : attempt.outcome with
      | ok response =>
          obtain ⟨ctx, hpass, _⟩ := loop.pass_ok policy engine requestModel attempt houtcome
          rw [hpass, Process.visits_returned]
          exact hlast
      | error err =>
          rcases loop.pass_error policy engine requestModel attempt houtcome with
            ⟨_, ctx, hpass, _⟩ | ⟨hgo, next, hpass, hnext⟩
          · rw [hpass, Process.visits_returned]
            exact hlast
          · rw [hpass]
            obtain ⟨hcounted, hlive, hstep⟩ := h.continues hgo hnext
            have htail := ih next hcounted
            refine hfirst _ htail.taken htail.within ?_
            refine List.isChain_cons.mpr ⟨?_, htail.chain⟩
            intro w hw
            obtain ⟨hindex, hretries⟩ := htail.head w hw
            refine ⟨hlive, ?_⟩
            rcases hstep with ⟨htimeout, hsame, hmore, _⟩ | ⟨hswitch, hzero, _⟩
            · refine .inl ⟨?_, hindex.trans hsame, hretries.trans hmore⟩
              unfold Loop.visit
              dsimp only
              rw [houtcome]
              exact htimeout
            · exact .inr ⟨hindex.trans hswitch, hretries.trans hzero⟩

/-! ## The end of a run -/

/-- A run that has not returned made one attempt for each outcome; one that
has returned published how many it made. -/
inductive Ended (policy : RetryPolicy) (visits : List Visit) (made given : Nat) :
    Process candidates Response → Prop
  | running {loop : Loop candidates Response} (hcounted : loop.Counted policy)
      (hmade : loop.attempts.length = made + visits.length) (hgiven : visits.length = given) :
      Ended policy visits made given (.running loop)
  | returned {result : Except ConduitError (Response × List (AttemptRecord Response))}
      {ctx : PipelineContext} {retryCtx : RetryContext} (hpublished : ctx.retryContext = some retryCtx)
      (hattempt : retryCtx.channelAttempt = UInt32.ofNat (made + visits.length))
      (hretries : ∀ v ∈ visits.getLast?, retryCtx.singleChannelAttempt.toNat = v.retries) :
      Ended policy visits made given (.returned result ctx)

theorem Ended.cons {visits : List Visit} {made given : Nat}
    {process : Process candidates Response} (v : Visit) (h : Ended policy visits (made + 1) given process)
    (hlast : visits = [] → ∀ result ctx, process ≠ .returned result ctx) :
    Ended policy (v :: visits) made (given + 1) process := by
  cases h with
  | running hcounted hmade hgiven =>
      refine .running hcounted ?_ ?_
      · rw [hmade, List.length_cons]
        omega
      · rw [List.length_cons, hgiven]
  | returned hpublished hattempt hretries =>
      refine .returned hpublished ?_ ?_
      · rw [hattempt, List.length_cons]
        congr 1
        omega
      · cases visits with
        | nil => exact absurd rfl (hlast rfl _ _)
        | cons w rest =>
            rw [List.getLast?_cons_cons]
            exact hretries

/-- The attempt that ends a run is counted with the ones before it. -/
theorem Ended.last {visit : Visit} {given : Nat}
    {result : Except ConduitError (Response × List (AttemptRecord Response))}
    {ctx : PipelineContext} {retryCtx : RetryContext} (h : loop.Counted policy)
    (hpublished : ctx.retryContext = some retryCtx)
    (hattempt : retryCtx.channelAttempt = loop.retryCtx.channelAttempt)
    (hretries : retryCtx.singleChannelAttempt = loop.retryCtx.singleChannelAttempt)
    (hvisit : visit.retries = loop.cursor.sameChannelRetries.toNat) :
    Ended policy [visit] loop.attempts.length given
      (.returned result ctx : Process candidates Response) := by
  refine .returned hpublished ?_ ?_
  · rw [hattempt, h.channelAttempt]
    rfl
  · rintro v ⟨⟩
    rw [hretries, h.singleChannelAttempt]
    exact hvisit.symm

variable (policy engine requestModel) in
/-- The system does nothing once it has returned. -/
theorem run_returned (ctx₀ : PipelineContext) (nowMs : Int) (attempts : List (Attempt Response))
    (result : Except ConduitError (Response × List (AttemptRecord Response))) (ctx : PipelineContext) :
    (processWithInboundPolicy policy engine requestModel candidates ctx₀ nowMs).run
      (.returned result ctx) attempts = .returned result ctx := by
  induction attempts with
  | nil => rfl
  | cons attempt attempts ih =>
      rw [TSys.run_cons]
      exact ih

theorem run_ended (ctx₀ : PipelineContext) (nowMs : Int) (attempts : List (Attempt Response)) :
    ∀ loop : Loop candidates Response, loop.Counted policy →
      Ended policy (Process.visits policy engine requestModel (.running loop) attempts)
        loop.attempts.length attempts.length
        ((processWithInboundPolicy policy engine requestModel candidates ctx₀ nowMs).run
          (.running loop) attempts) := by
  induction attempts with
  | nil => exact fun loop h => .running h rfl rfl
  | cons attempt attempts ih =>
      intro loop h
      rw [TSys.run_cons]
      have hstep : (processWithInboundPolicy policy engine requestModel candidates ctx₀ nowMs).step
          (.running loop) attempt = loop.pass policy engine requestModel attempt := rfl
      rw [hstep]
      unfold Process.visits
      cases houtcome : attempt.outcome with
      | ok response =>
          obtain ⟨ctx, hpass, hctx⟩ := loop.pass_ok policy engine requestModel attempt houtcome
          rw [hpass, Process.visits_returned, run_returned]
          exact .last h (hctx.trans h.published) rfl rfl rfl
      | error err =>
          rcases loop.pass_error policy engine requestModel attempt houtcome with
            ⟨_, ctx, hpass, hctx⟩ | ⟨hgo, next, hpass, hnext⟩
          · rw [hpass, Process.visits_returned, run_returned]
            exact .last h hctx rfl rfl rfl
          · rw [hpass]
            obtain ⟨hcounted, _, _⟩ := h.continues hgo hnext
            have htail := ih next hcounted
            rw [hnext.attempts, List.length_append, List.length_singleton] at htail
            refine htail.cons _ ?_
            -- a loop that is still running makes another attempt before it returns
            intro hnone result ctx hreturned
            cases attempts with
            | nil => exact absurd hreturned (by simp)
            | cons attempt' attempts => exact absurd hnone (by simp [Process.visits])

variable (policy engine requestModel) in
/-- The visits of a longer run. -/
theorem visits_append (ctx₀ : PipelineContext) (nowMs : Int) (later : List (Attempt Response))
    (attempts : List (Attempt Response)) : ∀ process : Process candidates Response,
      Process.visits policy engine requestModel process (attempts ++ later) =
        Process.visits policy engine requestModel process attempts ++
          Process.visits policy engine requestModel
            ((processWithInboundPolicy policy engine requestModel candidates ctx₀ nowMs).run
              process attempts) later := by
  induction attempts with
  | nil =>
      intro process
      cases process with
      | running loop => rfl
      | returned result ctx => simp
  | cons attempt attempts ih =>
      intro process
      cases process with
      | running loop =>
          rw [List.cons_append, TSys.run_cons]
          exact congrArg (List.cons _) (ih _)
      | returned result ctx =>
          rw [run_returned, Process.visits_returned, Process.visits_returned,
            Process.visits_returned]
          rfl

/-- An attempt that fails. -/
def Attempt.failing : Attempt Response where
  steps := []
  touch := id
  mode := .nonStream
  outcome := .error (.new .internal "")
  canceledMeanwhile := false
  isTimeoutError _ := false
  canRetry _ := false
  hasMoreChannels := false
  canceledBeforeNext := false

theorem Planned.precedes {visits : List Visit} (h : Planned policy loop visits) :
    visits.Pairwise Visit.Precedes :=
  List.isChain_iff_pairwise.mp (h.chain.imp fun _ _ => Visit.Leads.precedes)

theorem Planned.before {visits : List Visit} (h : Planned policy loop visits) :
    visits.Pairwise Visit.Before := h.precedes.imp Visit.Precedes.before

/-- The budgets bound every run that has not returned. -/
theorem running_lt (ctx₀ : PipelineContext) (nowMs : Int) {loop loop' : Loop candidates Response}
    {attempts : List (Attempt Response)} (h : loop.Counted policy)
    (hrun : (processWithInboundPolicy policy engine requestModel candidates ctx₀ nowMs).run
      (.running loop) attempts = .running loop')
    (hmade : (Process.visits policy engine requestModel (.running loop) attempts).length =
      attempts.length) :
    attempts.length <
      (1 + policy.maxChannelRetries.toNat) * (1 + policy.maxSingleChannelRetries.toNat) := by
  have hlonger : Planned policy loop (Process.visits policy engine requestModel (.running loop)
      (attempts ++ [Attempt.failing])) := visits_planned _ loop h
  have hbound := length_le_of_before hlonger.before hlonger.within
  rw [visits_append policy engine requestModel ctx₀ nowMs, hrun, List.length_append, hmade] at hbound
  rw [Process.visits, Process.visits_nil, List.length_singleton] at hbound
  exact hbound

end Visits

end Conduit.Pipeline
