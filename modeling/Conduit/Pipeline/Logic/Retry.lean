import Conduit.Pipeline.Retry
import Mathlib

/-!
# What one pass of the retry loop does

`pass_cases` says everything a pass can do, in terms of `decideRetry`: a
success returns, a failure that is decided `stop` returns the error, and any
other decision is carried out on the cursor and published. What holds of runs
is derived from it.
-/

namespace Conduit.Pipeline

open Base

variable {candidates : List PipelineCandidate} {Response : Type}

/-! ## The last recorded step -/

theorem error_not_sameChannel (sequence : UInt32) :
    (s!"attempt:{sequence}:error").startsWith "retry:same_channel:" = false := by
  have htext : (s!"attempt:{sequence}:error").toList =
      'a' :: ("ttempt:".toList ++ ((toString sequence).toList ++ ":error".toList)) := by
    rw [String.toList_append, String.toList_append]
    rfl
  rw [String.startsWith_string_eq_false_iff, htext]
  rintro ⟨rest, hrest⟩
  have hhead := congrArg List.head? hrest
  simp at hhead

theorem sameChannel_sameChannel (retries : UInt32) :
    (s!"retry:same_channel:{retries}").startsWith "retry:same_channel:" = true := by
  rw [String.startsWith_string_iff, String.toList_append]
  exact List.prefix_append _ _

theorem wasSameChannelRetryTaken_recordOrder (ctx : PipelineContext) (step : String) :
    wasSameChannelRetryTaken (ctx.recordOrder step) = step.startsWith "retry:same_channel:" := by
  unfold wasSameChannelRetryTaken PipelineContext.recordOrder
  rw [List.getLast?_append, List.getLast?_singleton]
  rfl

/-! ## Carrying a decision out -/

namespace FailoverState

/-- The cursor after a decision. -/
def Follows (state : FailoverState candidates) :
    RetryDecision → FailoverState candidates → Prop
  | .stop, next => next = state
  | .retrySameChannel, next =>
      next.currentIndex = state.currentIndex ∧
        next.sameChannelRetries = state.sameChannelRetries + 1 ∧
        next.totalAttempts = state.totalAttempts + 1
  | .retryNextChannel, next =>
      next.currentIndex = state.currentIndex + 1 ∧ next.sameChannelRetries = 0 ∧
        next.totalAttempts = state.totalAttempts + 1

theorem prepareForRetry_open {policy : RetryPolicy} (state : FailoverState candidates)
    (henabled : policy.enabled = true)
    (hbudget : state.sameChannelRetries < policy.maxSingleChannelRetries) :
    ∃ next, state.prepareForRetry policy 1 = .ok (true, next) ∧
      state.Follows .retrySameChannel next := by
  unfold prepareForRetry
  rw [if_neg (by simp [henabled]), if_neg (UInt32.not_le.mpr hbudget)]
  exact ⟨_, rfl, rfl, rfl, rfl⟩

theorem nextChannel_open (state : FailoverState candidates)
    (hinside : state.currentIndex + 1 < candidates.length) :
    ∃ next, state.nextChannel = .ok next ∧ state.Follows .retryNextChannel next := by
  unfold nextChannel
  rw [dif_pos hinside]
  exact ⟨_, rfl, rfl, rfl, rfl⟩

/-- The counters that `decideRetry` reads. -/
def retryState (state : FailoverState candidates) : RetryState :=
  ⟨UInt32.ofNat state.currentIndex, state.sameChannelRetries⟩

end FailoverState

/-- The outcome that `decideRetry` reads. -/
def Attempt.retryOutcome (attempt : Attempt Response) (engine : RegexEngine)
    (cursor : FailoverState candidates) (err : ConduitError) : AttemptOutcome where
  isTimeoutError := attempt.isTimeoutError err
  canRetrySameChannel := attempt.canRetry err ||
    isChannelExtraRetryable engine err cursor.current.retryableStatusCodes
      cursor.current.retryableErrorPatterns
  hasMoreChannels := attempt.hasMoreChannels &&
    decide (cursor.currentIndex + 1 < candidates.length)

/-- Contexts that differ in their recorded steps only. -/
def PipelineContext.SameButOrder (ctx ctx' : PipelineContext) : Prop :=
  ctx' = { ctx with order := ctx'.order }

/-- Both arms together decide as `decideRetry` does on a live context. -/
structure Decided (policy : RetryPolicy) (engine : RegexEngine) (ctx : PipelineContext)
    (cursor : FailoverState candidates) (err : ConduitError) (attempt : Attempt Response)
    (result : PipelineContext × FailoverState candidates × RetryDecision) : Prop where
  decision : result.2.2 =
    decideRetry policy cursor.retryState (attempt.retryOutcome engine cursor err) false
  cursor : cursor.Follows result.2.2 result.2.1
  ctx : ctx.SameButOrder result.1

section Arms

variable (policy : RetryPolicy) (engine : RegexEngine) (ctx : PipelineContext)
  (cursor : FailoverState candidates) (err : ConduitError) (attempt : Attempt Response)

/-- The guard of the same-channel arm. -/
def sameChannelOpen : Bool :=
  !attempt.isTimeoutError err && (attempt.retryOutcome engine cursor err).canRetrySameChannel
    && cursor.sameChannelRetries < policy.maxSingleChannelRetries && policy.enabled

theorem sameChannelArm_closed (hlast : wasSameChannelRetryTaken ctx = false)
    (hclosed : sameChannelOpen policy engine cursor err attempt = false) :
    sameChannelArm policy engine ctx cursor err attempt = (ctx, cursor, .stop) := by
  unfold sameChannelArm
  by_cases htimeout : attempt.isTimeoutError err = true
  · rw [if_pos htimeout]
  · rw [if_neg htimeout]
    have hstay : trySameChannelRetry policy engine ctx cursor err attempt.canRetry =
        (ctx, cursor, .ok ()) := by
      unfold trySameChannelRetry
      split
      · rfl
      · next hbudget =>
          rw [if_pos]
          simp only [sameChannelOpen, Attempt.retryOutcome] at hclosed
          simp only [Bool.or_eq_true, Bool.not_eq_true', decide_eq_true_eq, not_or,
            UInt32.not_le] at hbudget
          simp_all
    rw [hstay]
    simp only [hlast]
    rfl

theorem sameChannelArm_open (hopen : sameChannelOpen policy engine cursor err attempt = true) :
    ∃ next : FailoverState candidates,
      sameChannelArm policy engine ctx cursor err attempt =
        (ctx.recordOrder s!"retry:same_channel:{next.sameChannelRetries}", next,
          .retrySameChannel) ∧ cursor.Follows .retrySameChannel next := by
  simp only [sameChannelOpen, Attempt.retryOutcome, Bool.and_eq_true, Bool.not_eq_true',
    decide_eq_true_eq] at hopen
  obtain ⟨⟨⟨htimeout, hretryable⟩, hbudget⟩, henabled⟩ := hopen
  obtain ⟨next, hnext, hfollows⟩ := cursor.prepareForRetry_open henabled hbudget
  have htry : trySameChannelRetry policy engine ctx cursor err attempt.canRetry =
      (ctx.recordOrder s!"retry:same_channel:{next.sameChannelRetries}", next, .ok ()) := by
    unfold trySameChannelRetry
    rw [if_neg (by simp [henabled, UInt32.not_le.mpr hbudget]), if_neg (by simp [hretryable]),
      hnext]
  refine ⟨next, ?_, hfollows⟩
  unfold sameChannelArm
  rw [if_neg (by simp [htimeout]), htry]
  dsimp only
  rw [wasSameChannelRetryTaken_recordOrder, sameChannel_sameChannel, if_pos rfl]

/-- The guard of the channel-switch arm. -/
def switchOpen : Bool :=
  policy.enabled && (attempt.retryOutcome engine cursor err).hasMoreChannels
    && cursor.retryState.channelSwitches < policy.maxChannelRetries

theorem channelSwitchArm_open (hopen : switchOpen policy engine cursor err attempt = true) :
    ∃ next : FailoverState candidates,
      channelSwitchArm policy ctx cursor attempt .stop =
        (ctx.recordOrder s!"retry:channel_switch:{next.currentIndex}", next,
          .retryNextChannel) ∧ cursor.Follows .retryNextChannel next := by
  simp only [switchOpen, Attempt.retryOutcome, FailoverState.retryState, Bool.and_eq_true,
    decide_eq_true_eq] at hopen
  obtain ⟨⟨henabled, hmore, hinside⟩, hopen⟩ := hopen
  have hbudget := of_decide_eq_true hopen
  obtain ⟨next, hnext, hfollows⟩ := cursor.nextChannel_open hinside
  refine ⟨next, ?_, hfollows⟩
  unfold channelSwitchArm tryChannelSwitch
  rw [if_neg (by simp [henabled, UInt32.not_le.mpr hbudget]), if_neg (by simp [hmore]), hnext]

theorem channelSwitchArm_closed (hclosed : switchOpen policy engine cursor err attempt = false) :
    ∃ ctx', channelSwitchArm policy ctx cursor attempt .stop = (ctx', cursor, .stop) ∧
      ctx.SameButOrder ctx' := by
  simp only [switchOpen, Attempt.retryOutcome, FailoverState.retryState] at hclosed
  unfold channelSwitchArm tryChannelSwitch
  by_cases hspent : (!policy.enabled
      || decide (policy.maxChannelRetries ≤ UInt32.ofNat cursor.currentIndex)) = true
  · simp only [hspent, ↓reduceIte]
    exact ⟨ctx, rfl, rfl⟩
  · simp only [Bool.or_eq_true, Bool.not_eq_true', decide_eq_true_eq, not_or, UInt32.not_le,
      Bool.not_eq_false] at hspent
    by_cases hmore : attempt.hasMoreChannels = true
    · have hlast : ¬ cursor.currentIndex + 1 < candidates.length := by
        simpa [hspent, hmore] using hclosed
      have hnext : cursor.nextChannel = .error .noMoreChannels := by
        unfold FailoverState.nextChannel
        rw [dif_neg hlast]
      rw [if_neg (by simp [hspent, UInt32.not_le.mpr hspent.2]), if_neg (by simp [hmore]), hnext]
      exact ⟨_, rfl, rfl⟩
    · rw [if_neg (by simp [hspent, UInt32.not_le.mpr hspent.2]), if_pos (by simp [hmore])]
      exact ⟨ctx, rfl, rfl⟩

/-- The decision on a live context, by the guards of the two arms. -/
theorem decideRetry_live :
    decideRetry policy cursor.retryState (attempt.retryOutcome engine cursor err) false =
      if sameChannelOpen policy engine cursor err attempt then .retrySameChannel
      else if switchOpen policy engine cursor err attempt then .retryNextChannel
      else .stop := rfl

/-- Both arms together. -/
theorem decided_arms (hlast : wasSameChannelRetryTaken ctx = false) :
    Decided policy engine ctx cursor err attempt
      (channelSwitchArm policy (sameChannelArm policy engine ctx cursor err attempt).1
        (sameChannelArm policy engine ctx cursor err attempt).2.1 attempt
        (sameChannelArm policy engine ctx cursor err attempt).2.2) := by
  by_cases hsame : sameChannelOpen policy engine cursor err attempt = true
  · obtain ⟨next, harm, hfollows⟩ := sameChannelArm_open policy engine ctx cursor err attempt hsame
    rw [harm]
    refine ⟨?_, hfollows, rfl⟩
    rw [decideRetry_live, if_pos hsame]
    rfl
  · rw [sameChannelArm_closed policy engine ctx cursor err attempt hlast (by simpa using hsame)]
    by_cases hswitch : switchOpen policy engine cursor err attempt = true
    · obtain ⟨next, harm, hfollows⟩ :=
        channelSwitchArm_open policy engine ctx cursor err attempt hswitch
      rw [harm]
      refine ⟨?_, hfollows, rfl⟩
      rw [decideRetry_live, if_neg hsame, if_pos hswitch]
    · obtain ⟨ctx', harm, hctx⟩ :=
        channelSwitchArm_closed policy engine ctx cursor err attempt (by simpa using hswitch)
      rw [harm]
      refine ⟨?_, rfl, hctx⟩
      rw [decideRetry_live, if_neg hsame, if_neg hswitch]

end Arms

/-! ## One pass -/

section Passes

variable (policy : RetryPolicy) (engine : RegexEngine) (requestModel : Option String)
  (loop : Loop candidates Response) (attempt : Attempt Response)

namespace Loop

/-- The context is canceled when the attempt has ended. -/
def canceledAfter : Bool := loop.ctx.canceled || attempt.canceledMeanwhile

/-- What `decideRetry` says after a failed attempt. -/
def decision (err : ConduitError) : RetryDecision :=
  decideRetry policy loop.cursor.retryState (attempt.retryOutcome engine loop.cursor err)
    (loop.canceledAfter attempt)

/-- The loop goes on with a decision. -/
structure Continues (decision : RetryDecision) (err : ConduitError)
    (next : Loop candidates Response) : Prop where
  cursor : loop.cursor.Follows decision next.cursor
  attempts : next.attempts = loop.attempts ++ [loop.record attempt]
  retryCtx : next.retryCtx = loop.retryCtx.recordFailure err.kind.asStr decision
  published : next.ctx.retryContext = some next.retryCtx
  metadata : next.ctx.metadata = attempt.touch (loop.start requestModel).ctx.metadata
  previous : next.previousChannelConfigValues =
    (loop.start requestModel).previousChannelConfigValues

theorem pass_ok {response : Response} (hok : attempt.outcome = .ok response) :
    ∃ ctx, loop.pass policy engine requestModel attempt =
      .returned (.ok (response, loop.attempts ++ [loop.record attempt])) ctx ∧
      ctx.retryContext = loop.ctx.retryContext := by
  unfold pass
  rw [hok]
  exact ⟨_, rfl, rfl⟩

/-- The rest of a pass after a failure, from the context it ended with. -/
theorem failed_cases (ctx : PipelineContext) (err : ConduitError) {decision : RetryDecision}
    (hlast : wasSameChannelRetryTaken ctx = false)
    (hdecision : decision = decideRetry policy loop.cursor.retryState
      (attempt.retryOutcome engine loop.cursor err) ctx.canceled) :
    (decision = .stop ∧ ∃ ctx', loop.failed policy engine ctx err attempt =
        .returned (.error err) ctx' ∧
      ctx'.retryContext = some (loop.retryCtx.recordFailure err.kind.asStr .stop)) ∨
    (decision ≠ .stop ∧ ∃ cursor ctx', loop.failed policy engine ctx err attempt =
        .running { loop with
          cursor, ctx := ctx', retryCtx := loop.retryCtx.recordFailure err.kind.asStr decision } ∧
      loop.cursor.Follows decision cursor ∧ ctx'.metadata = ctx.metadata ∧
      ctx'.retryContext = some (loop.retryCtx.recordFailure err.kind.asStr decision)) := by
  unfold failed
  by_cases hcanceled : ctx.canceled = true
  · rw [if_pos hcanceled]
    left
    refine ⟨?_, _, rfl, rfl⟩
    rw [hdecision, hcanceled]
    rfl
  · rw [if_neg hcanceled]
    dsimp only
    rw [Bool.eq_false_iff.mpr hcanceled] at hdecision
    have harms := decided_arms policy engine ctx loop.cursor err attempt hlast
    generalize channelSwitchArm policy _ _ attempt _ = result at harms ⊢
    obtain ⟨ctx', cursor, decided⟩ := result
    obtain rfl : decided = decision := harms.decision.trans hdecision.symm
    unfold Loop.decided
    dsimp only
    by_cases hstop : decided = .stop
    · rw [if_pos hstop, hstop]
      exact .inl ⟨rfl, _, rfl, rfl⟩
    · rw [if_neg hstop]
      have hmetadata := congrArg PipelineContext.metadata harms.ctx
      exact .inr ⟨hstop, cursor, _, rfl, harms.cursor, hmetadata, rfl⟩

/-- A failed attempt: stop with its error, or go on as decided. -/
theorem pass_error {err : ConduitError} (herr : attempt.outcome = .error err) :
    (loop.decision policy engine attempt err = .stop ∧
      ∃ ctx, loop.pass policy engine requestModel attempt = .returned (.error err) ctx ∧
        ctx.retryContext = some (loop.retryCtx.recordFailure err.kind.asStr .stop)) ∨
    (loop.decision policy engine attempt err ≠ .stop ∧
      ∃ next, loop.pass policy engine requestModel attempt = .running next ∧
        loop.Continues requestModel attempt (loop.decision policy engine attempt err) err next) := by
  unfold pass
  rw [herr]
  dsimp only
  have hlast : wasSameChannelRetryTaken (((loop.start requestModel).attempted attempt).recordOrder
      s!"attempt:{loop.cursor.totalAttempts}:error") = false := by
    rw [wasSameChannelRetryTaken_recordOrder, error_not_sameChannel]
  have hcases := failed_cases policy engine
    { loop.start requestModel with attempts := loop.attempts ++ [loop.record attempt] } attempt _ err
    hlast (rfl : loop.decision policy engine attempt err = _)
  rcases hcases with ⟨hstop, ctx', hrun, hpublished⟩ |
    ⟨hgo, cursor, ctx', hrun, hfollows, hmetadata, hpublished⟩
  · exact .inl ⟨hstop, ctx', hrun, hpublished⟩
  · exact .inr ⟨hgo, _, hrun, hfollows, rfl, rfl, hpublished, hmetadata, rfl⟩

end Loop

end Passes

end Conduit.Pipeline
