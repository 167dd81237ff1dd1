import Conduit.Orchestrator.StreamFailover
import Conduit.Pipeline.Logic.Visits
import Mathlib

/-!
# Streamed and buffered failover

The buffered path applies the request stage once, whatever its attempts end
with; the streamed path once for each attempt. Both paths walk over the
candidates by a decision after each attempt, so they attempt the same channels
exactly if these decisions agree wherever the streamed path gets to.
-/

namespace Conduit.Orchestrator.StreamFailover

open Base Base.FixedWindow Pipeline Middlewares

/-! ## Applications of the request stage -/

/-- The effects of one application at `now`, and no rejection later on. -/
structure AppliedOnce (metadata : Metadata) (counters : Counters) (now : Nat) (stage : Stage) :
    Prop where
  once : stage.verdicts.length = 1
  counters : stage.counters = (QuotaEnforcement.onInboundLlmRequest now metadata counters).1
  rejected : ∀ k err, stage.verdicts[k]? = some (.error err) → k = 0

theorem appliedOnce_apply (metadata : Metadata) (counters : Counters) (now : Nat) :
    AppliedOnce metadata counters now ((⟨counters, []⟩ : Stage).apply metadata now) where
  once := rfl
  counters := rfl
  rejected k err h := by
    have hlt := (List.getElem?_eq_some_iff.mp h).1
    have hlength : ((⟨counters, []⟩ : Stage).apply metadata now).verdicts.length = 1 := rfl
    omega

/-- The first attempt is the only one: it commits the stream, or neither its
channel nor another one is tried after it. -/
def OneAttempt (policy : Pipeline.RetryPolicy) (limit : Nat) (metadata : Metadata)
    (counters : Counters)
    (first : LiveAttempt) : Prop :=
  0 < limit ∧ ∀ err, first.outcome metadata ⟨counters, []⟩ = .error err →
    retrySame policy 0 err = false ∧ limit ≤ 1

/-- The first `n` attempts. -/
def first {α : Type} (attempts : Nat → α) (n : Nat) : List α := (List.range n).map attempts

theorem first_succ {α : Type} (attempts : Nat → α) (n : Nat) :
    first attempts (n + 1) = attempts 0 :: first (fun k => attempts (k + 1)) n := by
  unfold first
  rw [List.range_succ_eq_map, List.map_cons, List.map_map]
  rfl

section Streamed

variable (policy : Pipeline.RetryPolicy) (limit : Nat) (metadata : Metadata) (counters : Counters)

/-- A stream that is not attempted any more has no further effect. -/
theorem run_over {progress : Progress} (h : progress.cursor? = none) (stage : Stage)
    (attempts : List LiveAttempt) :
    (processCommandStream policy limit metadata counters).run (progress, stage) attempts =
      (progress, stage) := by
  induction attempts with
  | nil => rfl
  | cons attempt attempts ih =>
      rw [TSys.run_cons]
      cases progress with
      | attempting cursor => cases h
      | committed => exact ih
      | exhausted lastError => exact ih

theorem step_start (hlimit : 0 < limit) (attempt : LiveAttempt) :
    (processCommandStream policy limit metadata counters).step
        (processCommandStream policy limit metadata counters).init attempt =
      ((Progress.attempting ⟨0, 0⟩).step policy limit (attempt.outcome metadata ⟨counters, []⟩),
        (⟨counters, []⟩ : Stage).apply metadata attempt.now) := by
  unfold processCommandStream Progress.start
  rw [if_pos hlimit]

/-- After the first attempt the loops are over exactly if it is the only one. -/
theorem oneAttempt_iff (hlimit : 0 < limit) (first : LiveAttempt) :
    OneAttempt policy limit metadata counters first ↔
      ((Progress.attempting ⟨0, 0⟩).step policy limit
        (first.outcome metadata ⟨counters, []⟩)).cursor? = none := by
  unfold OneAttempt
  cases houtcome : first.outcome metadata ⟨counters, []⟩ with
  | ok _ =>
      refine ⟨fun _ => rfl, fun _ => ⟨hlimit, fun err h => ?_⟩⟩
      cases h
  | error err =>
      unfold Progress.step
      dsimp only
      constructor
      · intro h
        obtain ⟨hsame, hone⟩ := h.2 err rfl
        rw [if_neg (by simp [hsame]), if_neg (by omega)]
        rfl
      · intro h
        by_cases hsame : retrySame policy 0 err = true
        · rw [if_pos hsame] at h
          cases h
        · rw [if_neg hsame] at h
          by_cases hmore : 0 + 1 < limit
          · rw [if_pos hmore] at h
            cases h
          · refine ⟨hlimit, fun err' herr => ?_⟩
            obtain rfl := Except.error.inj herr
            exact ⟨by simpa using hsame, by omega⟩

/-- A second attempt is a second application. -/
theorem two_verdicts {cursor : Cursor} {progress : Progress} (h : progress.cursor? = some cursor)
    (stage : Stage) (attempt : LiveAttempt) :
    ((processCommandStream policy limit metadata counters).step (progress, stage)
      attempt).2.verdicts.length = stage.verdicts.length + 1 := by
  cases progress with
  | attempting cursor => simp [processCommandStream, Stage.apply]
  | committed => cases h
  | exhausted lastError => cases h

theorem appliedOnce_iff (attempts : Nat → LiveAttempt) :
    (∀ n, AppliedOnce metadata counters (attempts 0).now
      ((processCommandStream policy limit metadata counters).run
        (processCommandStream policy limit metadata counters).init
        (first attempts (n + 1))).2) ↔
      OneAttempt policy limit metadata counters (attempts 0) := by
  by_cases hlimit : 0 < limit
  · rw [oneAttempt_iff policy limit metadata counters hlimit]
    constructor
    · intro h
      by_contra hcursor
      obtain ⟨cursor, hcursor⟩ := Option.ne_none_iff_exists'.mp hcursor
      have honce := (h 1).once
      rw [first_succ, first_succ, TSys.run_cons, TSys.run_cons, step_start _ _ _ _ hlimit] at honce
      have htwo := two_verdicts policy limit metadata counters hcursor
        ((⟨counters, []⟩ : Stage).apply metadata (attempts 0).now) (attempts 1)
      rw [(appliedOnce_apply metadata counters (attempts 0).now).once] at htwo
      exact absurd (honce.symm.trans htwo) (by decide)
    · intro hover n
      rw [first_succ, TSys.run_cons, step_start _ _ _ _ hlimit,
        run_over policy limit metadata counters hover]
      exact appliedOnce_apply metadata counters (attempts 0).now
  · -- without a candidate the stage is not applied at all
    constructor
    · intro h
      have honce := (h 0).once
      have hstart : (processCommandStream policy limit metadata counters).init =
          (.exhausted none, ⟨counters, []⟩) := by
        unfold processCommandStream Progress.start
        rw [if_neg hlimit]
      rw [hstart, run_over policy limit metadata counters rfl] at honce
      cases honce
    · intro h
      exact absurd h.1 hlimit

end Streamed

/-- The buffered path leaves the stage as its one application did. -/
theorem run_buffered (policy : Pipeline.RetryPolicy) (engine : RegexEngine)
    (requestModel : Option String)
    (candidates : List PipelineCandidate) (ctx : PipelineContext) (counters : Counters) (now : Nat)
    (otherMiddlewares : Option ConduitError) (nowMs : Int) (attempts : List (Attempt Unit))
    (s : Buffered candidates × Stage) :
    ((processBuffered policy engine requestModel candidates ctx counters now otherMiddlewares
      nowMs).run s attempts).2 = s.2 := by
  induction attempts generalizing s with
  | nil => rfl
  | cons attempt attempts ih => exact ih _

/-- The request stage has its effects once on the buffered path, and on the
streamed path exactly if the first attempt is the only one. -/
theorem request_stage_once_iff (policy : Pipeline.RetryPolicy) (candidates : List PipelineCandidate)
    (ctx : PipelineContext) (counters : Counters) :
    (∀ (engine : RegexEngine) (requestModel : Option String) (now : Nat)
      (otherMiddlewares : Option ConduitError) (nowMs : Int) (attempts : List (Attempt Unit)),
      AppliedOnce ctx.metadata counters now
        ((processBuffered policy engine requestModel candidates ctx counters now otherMiddlewares
          nowMs).run (processBuffered policy engine requestModel candidates ctx counters now
            otherMiddlewares nowMs).init attempts).2) ∧
    ∀ attempts : Nat → LiveAttempt,
      (∀ n, AppliedOnce ctx.metadata counters (attempts 0).now
        ((processCommandStream policy (channelAttemptLimit policy candidates.length) ctx.metadata
          counters).run (processCommandStream policy (channelAttemptLimit policy candidates.length)
            ctx.metadata counters).init (first attempts (n + 1))).2) ↔
        OneAttempt policy (channelAttemptLimit policy candidates.length) ctx.metadata counters
          (attempts 0) := by
  constructor
  · intro engine requestModel now otherMiddlewares nowMs attempts
    rw [run_buffered]
    exact appliedOnce_apply ctx.metadata counters now
  · intro attempts
    exact appliedOnce_iff policy _ ctx.metadata counters attempts

/-! ## Decisions -/

section Decisions

variable (policy : Pipeline.RetryPolicy) (engine : RegexEngine)
    (candidates : List PipelineCandidate)

/-- The decision of the streamed path. -/
def streamDecision (limit : Nat) (cursor : Cursor) (result : Except ConduitError Unit) :
    RetryDecision :=
  match result with
  | .ok () => .stop
  | .error err =>
      if retrySame policy cursor.sameAttempt err then .retrySameChannel
      else if cursor.candidateIndex + 1 < limit then .retryNextChannel
      else .stop

/-- The candidate's own retry rules take the error. -/
def extraRetryable (cursor : Cursor) (err : ConduitError) : Bool :=
  candidates[cursor.candidateIndex]?.any fun candidate =>
    isChannelExtraRetryable engine err candidate.retryableStatusCodes
      candidate.retryableErrorPatterns

/-- The decision of the buffered path. -/
def bufferedDecision (cursor : Cursor) (result : Except ConduitError Unit) (canceled : Bool) :
    RetryDecision :=
  match result with
  | .ok () => .stop
  | .error err =>
      decideRetry policy
        ⟨UInt32.ofNat cursor.candidateIndex, UInt32.ofNat cursor.sameAttempt⟩
        { isTimeoutError := isResponseTimeoutError err
          canRetrySameChannel := isRetryableError err || extraRetryable engine candidates cursor err
          hasMoreChannels := decide (cursor.candidateIndex + 1 < candidates.length) }
        canceled

def Cursor.follow (cursor : Cursor) : RetryDecision → Option Cursor
  | .stop => none
  | .retrySameChannel => some { cursor with sameAttempt := cursor.sameAttempt + 1 }
  | .retryNextChannel => some ⟨cursor.candidateIndex + 1, 0⟩

def streamNext (limit : Nat) (cursor : Cursor) (outcome : Outcome) : Option Cursor :=
  cursor.follow (streamDecision policy limit cursor outcome.live)

def bufferedNext (cursor : Cursor) (outcome : Outcome) : Option Cursor :=
  cursor.follow (bufferedDecision policy engine candidates cursor outcome.rest outcome.canceled)

end Decisions

theorem follow_inj {cursor : Cursor} {d d' : RetryDecision}
    (h : (cursor.follow d).map Cursor.candidateIndex =
      (cursor.follow d').map Cursor.candidateIndex) :
    d = d' := by
  cases d <;> cases d' <;> simp [Cursor.follow] at h ⊢

theorem told (policy : Pipeline.RetryPolicy) (engine : RegexEngine)
    (candidates : List PipelineCandidate)
    (limit : Nat) :
    Lockstep.Told Cursor.candidateIndex (streamNext policy limit)
      (bufferedNext policy engine candidates) := by
  intro cursor outcome h
  unfold streamNext bufferedNext at *
  rw [follow_inj h]

theorem cursor?_step (policy : Pipeline.RetryPolicy) (limit : Nat) (cursor : Cursor)
    (outcome : Outcome) :
    ((Progress.attempting cursor).step policy limit outcome.live).cursor? =
      streamNext policy limit cursor outcome := by
  unfold streamNext streamDecision
  cases outcome.live with
  | ok _ => rfl
  | error err =>
      unfold Progress.step
      dsimp only
      split_ifs <;> rfl

/-- The streamed path goes by its decisions. -/
theorem streamChannels_eq (policy : Pipeline.RetryPolicy) (limit : Nat) (progress : Progress)
    (outcomes : Nat → Outcome) (n : Nat) :
    streamChannels policy limit progress (first outcomes n) =
      Lockstep.shown Cursor.candidateIndex (streamNext policy limit) progress.cursor? outcomes n :=
        by
  induction n generalizing progress outcomes with
  | zero =>
      rw [Lockstep.shown_zero]
      cases progress <;> rfl
  | succ n ih =>
      rw [first_succ]
      cases progress with
      | attempting cursor =>
          show _ :: _ = Lockstep.shown _ _ (some cursor) _ _
          rw [Lockstep.shown_succ, ih, cursor?_step]
      | committed => rfl
      | exhausted lastError => rfl

/-! ## The buffered loop -/

section Loops

variable {policy : Pipeline.RetryPolicy} {engine : RegexEngine}
    {candidates : List PipelineCandidate}

/-- A live loop that is about to make the attempt of the cursor. -/
structure At (loop : Loop candidates Unit) (cursor : Cursor) : Prop where
  index : loop.cursor.currentIndex = cursor.candidateIndex
  retries : loop.cursor.sameChannelRetries.toNat = cursor.sameAttempt
  live : loop.ctx.canceled = false

/-- Whether the client is gone is passed on to the next attempt. -/
theorem canceled_running {requestModel : Option String} {loop next : Loop candidates Unit}
    {attempt : Attempt Unit}
    (h : loop.pass policy engine requestModel attempt = .running next) :
    next.ctx.canceled = (loop.canceledAfter attempt || attempt.canceledBeforeNext) := by
  unfold Loop.pass at h
  cases houtcome : attempt.outcome with
  | ok response =>
      rw [houtcome] at h
      cases h
  | error err =>
      rw [houtcome] at h
      dsimp only at h
      unfold Loop.failed at h
      split at h
      · cases h
      · next hlive =>
          have harms := decided_arms policy engine
            ((loop.start requestModel).attempted attempt |>.recordOrder
              s!"attempt:{(loop.start requestModel).cursor.totalAttempts}:error")
            loop.cursor err attempt
            (by rw [wasSameChannelRetryTaken_recordOrder, error_not_sameChannel])
          unfold Loop.decided at h
          dsimp only at h
          split at h
          · cases h
          · obtain rfl := Process.running.inj h
            have hcanceled := congrArg PipelineContext.canceled harms.ctx
            exact congrArg (· || attempt.canceledBeforeNext) hcanceled

theorem decision_eq {loop : Loop candidates Unit} {cursor : Cursor} (h : At loop cursor)
    {outcome : Outcome} {err : ConduitError} (herr : outcome.rest = .error err) :
    loop.decision policy engine outcome.buffered err =
      bufferedDecision policy engine candidates cursor outcome.rest outcome.canceled := by
  have hcurrent : candidates[cursor.candidateIndex]? = some loop.cursor.current := by
    rw [← h.index]
    exact List.getElem?_eq_getElem loop.cursor.inBounds
  have hextra : extraRetryable engine candidates cursor err =
      isChannelExtraRetryable engine err loop.cursor.current.retryableStatusCodes
        loop.cursor.current.retryableErrorPatterns := by
    unfold extraRetryable
    rw [hcurrent]
    rfl
  unfold Loop.decision bufferedDecision
  rw [herr]
  dsimp only
  have hstate : loop.cursor.retryState =
      ⟨UInt32.ofNat cursor.candidateIndex, UInt32.ofNat cursor.sameAttempt⟩ := by
    unfold FailoverState.retryState
    rw [h.index, ← h.retries, UInt32.ofNat_toNat]
  have hcanceled : loop.canceledAfter outcome.buffered = outcome.canceled := by
    unfold Loop.canceledAfter
    rw [h.live, Bool.false_or]
    rfl
  rw [hstate, hcanceled, hextra]
  unfold Attempt.retryOutcome
  rw [h.index]
  rfl

/-- The loop goes on at the cursor that its decision leads to. -/
theorem At.next {loop next : Loop candidates Unit} {cursor : Cursor} (h : At loop cursor)
    (hcounted : loop.Counted policy) {outcome : Outcome} {err : ConduitError}
    (hgo : loop.decision policy engine outcome.buffered err ≠ .stop)
    (hnext : loop.Continues none outcome.buffered
      (loop.decision policy engine outcome.buffered err) err next)
    (hrun : loop.pass policy engine none outcome.buffered = .running next) :
    next.Counted policy ∧ ∃ cursor',
      cursor.follow (loop.decision policy engine outcome.buffered err) = some cursor' ∧
        At next cursor' := by
  obtain ⟨hcounted', hlive, hmove⟩ := hcounted.continues hgo hnext
  have hcanceled : next.ctx.canceled = false := by
    rw [canceled_running hrun, hlive]
    rfl
  refine ⟨hcounted', ?_⟩
  rcases hmove with ⟨_, hindex, hretries, hdecision⟩ | ⟨hindex, hretries, hdecision⟩
  · rw [hdecision]
    exact ⟨_, rfl, hindex.trans h.index, by rw [hretries, h.retries], hcanceled⟩
  · rw [hdecision]
    exact ⟨_, rfl, by rw [hindex, h.index], hretries, hcanceled⟩

/-- The buffered loop goes by its decisions. -/
theorem visits_eq (n : Nat) (loop : Loop candidates Unit) (cursor : Cursor) (h : At loop cursor)
    (hcounted : loop.Counted policy) (outcomes : Nat → Outcome) :
    (Process.visits policy engine none (.running loop)
        ((first outcomes n).map Outcome.buffered)).map Visit.index =
      Lockstep.shown Cursor.candidateIndex (bufferedNext policy engine candidates) (some cursor)
        outcomes n := by
  induction n generalizing loop cursor outcomes with
  | zero => rfl
  | succ n ih =>
      rw [first_succ, List.map_cons, Lockstep.shown_succ]
      unfold Process.visits
      rw [List.map_cons]
      refine congrArg₂ List.cons h.index ?_
      cases hrest : (outcomes 0).rest with
      | ok _ =>
          have hok : (outcomes 0).buffered.outcome = .ok () := hrest
          obtain ⟨ctx, hpass, _⟩ := loop.pass_ok policy engine none _ hok
          have hstop : bufferedNext policy engine candidates cursor (outcomes 0) = none := by
            unfold bufferedNext bufferedDecision
            rw [hrest]
            rfl
          rw [hpass, hstop, Process.visits_returned, Lockstep.shown_none]
          rfl
      | error err =>
          have herr : (outcomes 0).buffered.outcome = .error err := hrest
          have hdecision : bufferedNext policy engine candidates cursor (outcomes 0) =
              cursor.follow (loop.decision policy engine (outcomes 0).buffered err) := by
            rw [decision_eq h hrest]
            rfl
          rcases loop.pass_error policy engine none _ herr with
            ⟨hstop, ctx, hpass, _⟩ | ⟨hgo, next, hpass, hnext⟩
          · rw [hpass, hdecision, hstop, Process.visits_returned]
            exact (Lockstep.shown_none _ _).symm
          · obtain ⟨hcounted', cursor', hfollow, hat⟩ := h.next hcounted hgo hnext hpass
            rw [hpass, hdecision, hfollow]
            exact ih next cursor' hat hcounted' _

end Loops

/-! ## Agreement -/

section Agreement

variable (policy : Pipeline.RetryPolicy) (engine : RegexEngine)
    (candidates : List PipelineCandidate)

/-- The channels that the buffered path attempts: none if the request is
rejected before its loop. -/
def bufferedChannels (metadata : Metadata) (nowMs : Int) (outcomes : List Outcome) : List Nat :=
  if (outcomes.head?.bind Outcome.requestStage).isSome then []
  else
    (Process.visits policy engine none (.start candidates (freshContext metadata) nowMs)
      (outcomes.map Outcome.buffered)).map Visit.index

/-- The gate of the buffered path for another attempt on the same channel. -/
def bufferedRetrySame (cursor : Cursor) (err : ConduitError) : Bool :=
  !isResponseTimeoutError err &&
    (isRetryableError err || extraRetryable engine candidates cursor err) &&
    decide (UInt32.ofNat cursor.sameAttempt < policy.maxSingleChannelRetries) && policy.enabled

/-- After an attempt that has failed on the streamed path: if it has failed on
the buffered path too, with the client still there, both gates let its error
through or neither does; else the streamed path has nothing left to try. -/
def Agrees (cursor : Cursor) (outcome : Outcome) : Prop :=
  ∀ err, outcome.live = .error err →
    (∀ err', outcome.rest = .error err' → outcome.canceled = false →
      retrySame policy cursor.sameAttempt err =
        bufferedRetrySame policy engine candidates cursor err') ∧
    (outcome.rest = .ok () ∨ outcome.canceled = true →
      retrySame policy cursor.sameAttempt err = false ∧
        channelAttemptLimit policy candidates.length ≤ cursor.candidateIndex + 1)

/-- The attempt of the streamed path with the given number. -/
def attemptAt (outcomes : Nat → Outcome) (n : Nat) : Option Cursor :=
  Lockstep.stateAt (streamNext policy (channelAttemptLimit policy candidates.length))
    (Progress.start (channelAttemptLimit policy candidates.length)).cursor? outcomes n

variable {candidates}

theorem channelAttemptLimit_pos (h : candidates ≠ []) :
    0 < channelAttemptLimit policy candidates.length := by
  have hlength := List.length_pos_iff.mpr h
  unfold channelAttemptLimit
  split <;> omega

theorem start_at (h : candidates ≠ []) (metadata : Metadata) (nowMs : Int) :
    ∃ loop : Loop candidates Unit, Process.start candidates (freshContext metadata) nowMs =
      .running loop ∧ loop.Counted policy ∧ At loop ⟨0, 0⟩ := by
  unfold Process.start buildFailoverState
  rw [dif_pos (List.length_pos_iff.mpr h)]
  exact ⟨_, rfl, ⟨Nat.zero_le _, Nat.zero_le _, rfl, rfl, rfl⟩, rfl, rfl, rfl⟩

/-- Within the budgets both paths have the same channels left. -/
theorem more_iff {cursor : Cursor}
    (hindex : cursor.candidateIndex < channelAttemptLimit policy candidates.length) :
    cursor.candidateIndex + 1 < channelAttemptLimit policy candidates.length ↔
      (policy.enabled && decide (cursor.candidateIndex + 1 < candidates.length) &&
        decide (UInt32.ofNat cursor.candidateIndex < policy.maxChannelRetries)) = true := by
  unfold channelAttemptLimit at *
  by_cases henabled : policy.enabled = true
  · rw [if_pos henabled] at hindex ⊢
    have hbound := policy.maxChannelRetries.toNat_lt
    have hnat : (UInt32.ofNat cursor.candidateIndex).toNat = cursor.candidateIndex :=
      UInt32.toNat_ofNat_of_lt' (by rw [UInt32.size]; omega)
    simp only [henabled, Bool.true_and, Bool.and_eq_true, decide_eq_true_eq,
      UInt32.lt_iff_toNat_lt, hnat]
    omega
  · rw [if_neg henabled]
    simp only [Bool.eq_false_iff.mpr henabled, Bool.false_and, Bool.false_eq_true, iff_false]
    omega

/-- On the streamed path nothing but the last candidate's attempts is left. -/
theorem streamDecision_stop {limit : Nat} {cursor : Cursor} {err : ConduitError} :
    streamDecision policy limit cursor (.error err) = .stop ↔
      retrySame policy cursor.sameAttempt err = false ∧ limit ≤ cursor.candidateIndex + 1 := by
  unfold streamDecision
  dsimp only
  by_cases hsame : retrySame policy cursor.sameAttempt err = true
  · simp [hsame]
  · by_cases hmore : cursor.candidateIndex + 1 < limit
    · simp [hsame, hmore]
    · simp [hsame, hmore, Nat.not_lt.mp hmore]

/-- Two failures lead on alike exactly if their gates agree. -/
theorem decisions_failed_iff {cursor : Cursor} {err err' : ConduitError}
    (hindex : cursor.candidateIndex < channelAttemptLimit policy candidates.length) :
    streamDecision policy (channelAttemptLimit policy candidates.length) cursor (.error err) =
        bufferedDecision policy engine candidates cursor (.error err') false ↔
      retrySame policy cursor.sameAttempt err =
        bufferedRetrySame policy engine candidates cursor err' := by
  unfold streamDecision bufferedDecision decideRetry bufferedRetrySame
  dsimp only
  rw [if_neg Bool.false_ne_true]
  have hmore := more_iff policy hindex
  generalize (!isResponseTimeoutError err' &&
    (isRetryableError err' || extraRetryable engine candidates cursor err') &&
    decide (UInt32.ofNat cursor.sameAttempt < policy.maxSingleChannelRetries) &&
    policy.enabled) = bufferedSame
  generalize retrySame policy cursor.sameAttempt err = streamedSame
  by_cases hleft : cursor.candidateIndex + 1 < channelAttemptLimit policy candidates.length
  · rw [if_pos hleft, if_pos (hmore.mp hleft)]
    cases streamedSame <;> cases bufferedSame <;> simp
  · rw [if_neg hleft, if_neg fun h => hleft (hmore.mpr h)]
    cases streamedSame <;> cases bufferedSame <;> simp

theorem agrees_iff {cursor : Cursor} {outcome : Outcome}
    (hindex : cursor.candidateIndex < channelAttemptLimit policy candidates.length) :
    Agrees policy engine candidates cursor outcome ↔
      streamDecision policy (channelAttemptLimit policy candidates.length) cursor outcome.live =
        bufferedDecision policy engine candidates cursor outcome.rest outcome.canceled := by
  unfold Agrees
  cases hlive : outcome.live with
  | ok _ =>
      -- the attempt was not rejected, so it has gone well on both paths
      have hrest : outcome.rest = .ok () := by
        unfold Outcome.live at hlive
        split at hlive
        · cases hlive
        · exact hlive
      rw [hrest]
      simp [streamDecision, bufferedDecision]
  | error err =>
      cases hrest : outcome.rest with
      | ok _ =>
          have hstop : bufferedDecision policy engine candidates cursor (.ok ()) outcome.canceled =
              .stop := rfl
          rw [hstop, streamDecision_stop]
          simp
      | error err' =>
          cases hcanceled : outcome.canceled with
          | true =>
              have hstop : bufferedDecision policy engine candidates cursor (.error err') true =
                  .stop := rfl
              rw [hstop, streamDecision_stop]
              simp
          | false =>
              rw [decisions_failed_iff policy engine hindex]
              simp

theorem index_lt {outcomes : Nat → Outcome} {n : Nat} {cursor : Cursor}
    (hlimit : 0 < channelAttemptLimit policy candidates.length)
    (h : attemptAt policy candidates outcomes n = some cursor) :
    cursor.candidateIndex < channelAttemptLimit policy candidates.length := by
  refine Lockstep.stateAt_invariant (P := fun cursor => cursor.candidateIndex <
    channelAttemptLimit policy candidates.length) ?_ n ?_ h
  · intro s outcome s' hs hnext
    unfold streamNext streamDecision at hnext
    split at hnext
    · cases hnext
    · split at hnext
      · obtain rfl := Option.some.inj hnext
        exact hs
      · split at hnext
        · next hmore =>
            obtain rfl := Option.some.inj hnext
            exact hmore
        · cases hnext
  · intro s hs
    unfold Progress.start at hs
    rw [if_pos hlimit] at hs
    obtain rfl := Option.some.inj hs
    exact hlimit

/-- Both paths attempt the same channels exactly if the request is not rejected
at once and their decisions agree after every attempt of the streamed path. -/
theorem fails_over_alike_iff (candidates : List PipelineCandidate) (metadata : Metadata)
    (nowMs : Int) (outcomes : Nat → Outcome) :
    (∀ n, streamChannels policy (channelAttemptLimit policy candidates.length)
        (.start (channelAttemptLimit policy candidates.length)) (first outcomes n) =
      bufferedChannels policy engine candidates metadata nowMs (first outcomes n)) ↔
    candidates = [] ∨ (outcomes 0).requestStage = none ∧
      ∀ n cursor, attemptAt policy candidates outcomes n = some cursor →
        Agrees policy engine candidates cursor (outcomes n) := by
  by_cases hempty : candidates = []
  · -- there is nothing to attempt
    refine ⟨fun _ => .inl hempty, fun _ n => ?_⟩
    subst hempty
    have hstart : Progress.start (channelAttemptLimit policy ([] : List PipelineCandidate).length) =
        .exhausted none := by
      unfold Progress.start channelAttemptLimit
      rw [if_neg (by simp)]
    rw [hstart]
    unfold bufferedChannels
    have hvisits : Process.visits policy engine none
        (.start [] (freshContext metadata) nowMs : Process [] Unit)
        ((first outcomes n).map Outcome.buffered) = [] := Process.visits_returned _ _ _ _ _ _
    rw [hvisits]
    cases first outcomes n <;> simp [streamChannels]
  rw [or_iff_right hempty]
  have hlimit := channelAttemptLimit_pos policy hempty
  have hcursor : (Progress.start (channelAttemptLimit policy candidates.length)).cursor? =
      some ⟨0, 0⟩ := by
    unfold Progress.start
    rw [if_pos hlimit]
    rfl
  by_cases hstage : (outcomes 0).requestStage = none
  · -- the same walk on both paths, decision by decision
    obtain ⟨loop, hloop, hcounted, hat⟩ := start_at policy hempty metadata nowMs
    have hbuffered : ∀ n, bufferedChannels policy engine candidates metadata nowMs
        (first outcomes n) = Lockstep.shown Cursor.candidateIndex
          (bufferedNext policy engine candidates) (some ⟨0, 0⟩) outcomes n := by
      intro n
      have hhead : ((first outcomes n).head?.bind Outcome.requestStage).isSome = false := by
        cases n with
        | zero => rfl
        | succ n => rw [first_succ, List.head?_cons, Option.bind_some, hstage]; rfl
      unfold bufferedChannels
      rw [if_neg (by simp [hhead]), hloop, visits_eq n loop _ hat hcounted]
    simp only [streamChannels_eq, hcursor, hbuffered]
    rw [Lockstep.shown_eq_iff (told policy engine candidates _)]
    have hlt : ∀ n cursor, attemptAt policy candidates outcomes n = some cursor →
        cursor.candidateIndex < channelAttemptLimit policy candidates.length :=
      fun n cursor hn => index_lt policy hlimit hn
    unfold attemptAt at *
    rw [hcursor] at *
    constructor
    · intro h
      refine ⟨hstage, fun n cursor hn => ?_⟩
      rw [agrees_iff policy engine (hlt n cursor hn)]
      exact follow_inj (congrArg _ (h n cursor hn))
    · intro h n cursor hn
      exact congrArg cursor.follow
        ((agrees_iff policy engine (hlt n cursor hn)).mp (h.2 n cursor hn))
  · -- the streamed path attempts the first channel all the same
    refine ⟨fun h => absurd (h 1) ?_, fun h => absurd h.1 hstage⟩
    rw [streamChannels_eq, hcursor, Lockstep.shown_one]
    unfold bufferedChannels
    rw [first_succ, List.head?_cons, Option.bind_some,
      if_pos (Option.isSome_iff_ne_none.mpr hstage)]
    exact List.cons_ne_nil _ _

end Agreement

/-! ## Where they differ -/

/-- One retry on a channel, and one switch. -/
def onePolicy : Pipeline.RetryPolicy := ⟨true, 1, 1⟩

def timeoutError : ConduitError :=
  (ConduitError.new .timeout "stream first event timeout").withCode "stream_first_event_timeout"

/-- The first provider event comes too late: the stream is tried on the same
channel again, the buffered request on the next one. -/
theorem timeout_fails_over_differently :
    ¬ ∀ (policy : Pipeline.RetryPolicy) (engine : RegexEngine) (candidates : List PipelineCandidate)
      (metadata : Metadata) (nowMs : Int) (outcomes : Nat → Outcome) (n : Nat),
      streamChannels policy (channelAttemptLimit policy candidates.length)
          (.start (channelAttemptLimit policy candidates.length)) (first outcomes n) =
        bufferedChannels policy engine candidates metadata nowMs (first outcomes n) := by
  intro h
  have htwo := h onePolicy (fun _ => none) [.ofId "a", .ofId "b"] (fun _ => none) 0
    (fun _ => ⟨none, .error timeoutError, false⟩) 2
  revert htwo
  decide

/-- An API key with a quota of ten requests per minute. -/
def meteredKey : Metadata := fun name =>
  if name = "api_key_id" then some "7" else if name = "api_key_quota_rpm" then some "10" else none

def serverError : ConduitError :=
  ((ConduitError.new .upstream "bad gateway").withProviderStatus 502)

/-- A stream that fails over is counted twice. -/
theorem failed_over_stream_counted_twice :
    ¬ ∀ (policy : Pipeline.RetryPolicy) (candidates : List PipelineCandidate) (metadata : Metadata)
      (counters : Counters) (attempts : Nat → LiveAttempt) (n : Nat),
      AppliedOnce metadata counters (attempts 0).now
        ((processCommandStream policy (channelAttemptLimit policy candidates.length) metadata
          counters).run (processCommandStream policy
            (channelAttemptLimit policy candidates.length) metadata counters).init
          (first attempts (n + 1))).2 := by
  intro h
  have htwo := (h ⟨true, 1, 0⟩ [.ofId "a", .ofId "b"] meteredKey (fun _ => none)
    (fun k => ⟨k, none, .error serverError⟩) 1).once
  revert htwo
  decide

end Conduit.Orchestrator.StreamFailover
