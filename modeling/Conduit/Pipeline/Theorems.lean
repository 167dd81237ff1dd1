import Conduit.Pipeline.Logic.Metadata
import Conduit.Pipeline.Logic.Stream

/-!
# What holds of every request

The retry loop carries out `decideRetry` on every sequence of outcomes. What
an attempt finds in the metadata is its own candidate's, unless an earlier
candidate left a stamp behind. The buffered and the live path deliver the same
stream, unless they re-emit different terminals.
-/

namespace Conduit.Pipeline

open Base

/-! ## Retries -/

/-- The attempts of a run are the ones `decideRetry` asks for, and the run
ends within the budgets. -/
structure Retried {candidates : List PipelineCandidate} {Response : Type} (policy : RetryPolicy)
    (given : Nat) (visits : List Visit) (process : Process candidates Response) : Prop where
  decided : ∀ v ∈ visits, v.taken = v.decided
  leads : visits.IsChain Visit.Leads
  precedes : visits.Pairwise Visit.Precedes
  channels : ∀ v ∈ visits, v.index < 1 + policy.maxChannelRetries.toNat
  perChannel : ∀ index : Nat,
    (visits.filter fun v => v.index = index).length ≤ 1 + policy.maxSingleChannelRetries.toNat
  terminates :
    (1 + policy.maxChannelRetries.toNat) * (1 + policy.maxSingleChannelRetries.toNat) ≤ given →
      ∃ result ctx, process = .returned result ctx
  published : ∀ result ctx, process = .returned result ctx → ∀ last ∈ visits.getLast?,
    ∃ retryCtx, ctx.retryContext = some retryCtx ∧
      retryCtx.channelAttempt = UInt32.ofNat visits.length ∧
      retryCtx.singleChannelAttempt.toNat = last.retries

/-- However the attempts end, the retry loop does what `decideRetry` says. -/
theorem retry_loop_refines {Response : Type} (policy : RetryPolicy) (engine : RegexEngine)
    (requestModel : Option String) (candidates : List PipelineCandidate) (ctx : PipelineContext)
    (nowMs : Int) (attempts : List (Attempt Response)) :
    Retried policy attempts.length
      (Process.visits policy engine requestModel (.start candidates ctx nowMs) attempts)
      ((processWithInboundPolicy policy engine requestModel candidates ctx nowMs).run
        (.start candidates ctx nowMs) attempts) := by
  by_cases hcandidates : 0 < candidates.length
  · -- the loop is entered with fresh counters
    have hstart : ∃ loop : Loop candidates Response,
        Process.start candidates ctx nowMs = .running loop ∧ loop.Counted policy ∧
          loop.attempts = [] := by
      unfold Process.start buildFailoverState
      rw [dif_pos hcandidates]
      exact ⟨_, rfl, ⟨Nat.zero_le _, Nat.zero_le _, rfl, rfl, rfl⟩, rfl⟩
    obtain ⟨loop, hloop, hcounted, hfresh⟩ := hstart
    rw [hloop]
    have hplanned : Planned policy loop
        (Process.visits policy engine requestModel (.running loop) attempts) :=
      visits_planned attempts loop hcounted
    have hended : Ended policy (Process.visits policy engine requestModel (.running loop) attempts)
        loop.attempts.length attempts.length
        ((processWithInboundPolicy policy engine requestModel candidates ctx nowMs).run
          (.running loop) attempts) := run_ended ctx nowMs attempts loop hcounted
    rw [hfresh] at hended
    refine ⟨hplanned.taken, hplanned.chain, hplanned.precedes, ?_, ?_, ?_, ?_⟩
    · intro v hv
      have := (hplanned.within v hv).1
      omega
    · intro index
      exact length_filter_index_le hplanned.before (fun v hv => (hplanned.within v hv).2) index
    · intro hgiven
      cases hrun : (processWithInboundPolicy policy engine requestModel candidates ctx nowMs).run
          (.running loop) attempts with
      | returned result ctx => exact ⟨result, ctx, rfl⟩
      | running loop' =>
          rw [hrun] at hended
          cases hended with
          | running _ _ hmade =>
              have := running_lt ctx nowMs hcounted hrun hmade
              omega
    · intro result ctx' hreturned last hlast
      rw [hreturned] at hended
      cases hended with
      | returned hpublished hattempt hretries =>
          refine ⟨_, hpublished, ?_, hretries last hlast⟩
          rw [hattempt, List.length_nil, Nat.zero_add]
  · -- without candidates the run is over before an attempt
    have hstart : Process.start candidates ctx nowMs =
        (.returned (.error (.new .notFound "no candidates available for pipeline"))
          (ctx.recordOrder "retry:no_candidates") : Process candidates Response) := by
      unfold Process.start buildFailoverState
      rw [dif_neg hcandidates]
    rw [hstart, Process.visits_returned, run_returned]
    refine ⟨by simp, by simp, by simp, by simp, by simp, fun _ => ⟨_, _, rfl⟩, by simp⟩

/-- The context is not looked at between the retry delay and the next attempt. -/
theorem canceled_delay_attempts : ¬ ∀ (policy : RetryPolicy) (engine : RegexEngine)
    (requestModel : Option String) (candidates : List PipelineCandidate) (ctx : PipelineContext)
    (nowMs : Int) (attempts : List (Attempt Unit)),
    ∀ v ∈ (Process.visits policy engine requestModel (.start candidates ctx nowMs) attempts).tail,
      v.startedCanceled = false := by
  intro h
  have hattempts := h ⟨true, 0, 1⟩ (fun _ => none) none [.ofId "a"] ⟨fun _ => none, [], false, none⟩ 0
    [{ (Attempt.failing : Attempt Unit) with
        canRetry := fun _ => true
        canceledBeforeNext := true }, .failing]
  revert hattempts
  decide +kernel

/-! ## Metadata -/

/-- Keys whose value belongs to a channel. -/
def ChannelDependent (pool : List PipelineCandidate) (key : String) : Prop :=
  key ∈ stampedKeys ∨ ∃ candidate ∈ pool, key ∈ candidate.channelConfig.keys

/-- In every run over candidates of the pool, each attempt finds the channel's
metadata as if it were the first. -/
def Unleaked (Response : Type) (requestModel : Option String) (pool : List PipelineCandidate) :
    Prop :=
  ∀ (policy : RetryPolicy) (engine : RegexEngine) (formats : PipelineCandidate → String × String)
    (candidates : List PipelineCandidate) (ctx : PipelineContext) (nowMs : Int)
    (attempts : List (Attempt Response)) (loop : Loop candidates Response),
    candidates ⊆ pool → (∀ attempt ∈ attempts, attempt.KeepsMetadata) →
    (processWithInboundPolicy policy engine requestModel candidates ctx nowMs).run
      (.start candidates ctx nowMs) attempts = .running loop →
    ∀ key : String, ChannelDependent pool key →
      observedMetadata formats requestModel loop.ctx.metadata loop.previousChannelConfigValues
          loop.cursor.current key =
        observedMetadata formats requestModel ctx.metadata [] loop.cursor.current key

variable {Response : Type} {requestModel : Option String} {pool : List PipelineCandidate}

/-- One switch shows what a candidate leaves to the next. -/
theorem Unleaked.separated (h : Unleaked Response requestModel pool) :
    Separated requestModel pool := by
  intro key hstamped earlier hearlier target htarget hopen
  apply indifferent_of_observed
  intro base
  obtain ⟨loop, next, hrun, htargeted, hlaid, hnext⟩ :=
    run_switching Response requestModel (fun _ => none) earlier target fun _ => base
  have hpool : [earlier, target] ⊆ pool := by
    simp [hearlier, htarget]
  have hkeeps : ∀ attempt ∈ [(.switching : Attempt Response)], attempt.KeepsMetadata := by
    simpa using Attempt.switching_keeps
  have hformat : key ∉ formatKeys := by
    intro hmem
    simp only [stampedKeys, formatKeys, List.mem_cons, List.not_mem_nil, or_false] at hstamped hmem
    rcases hmem with rfl | rfl <;> simp at hstamped
  have hsame := h ⟨true, 1, 0⟩ (fun _ => none) (fun _ => ("", "")) [earlier, target] _ 0 _ next
    hpool hkeeps hrun key (.inl hstamped)
  rw [htargeted, observed_switched hlaid hnext _ hformat hopen, observed_first _ _ _ hformat,
    ChannelConfig.get_of_not_mem hopen] at hsame
  exact hsame

/-- A separated pool leaves every attempt what the first would have found. -/
theorem Separated.unleaked (h : Separated requestModel pool) :
    Unleaked Response requestModel pool := by
  intro policy engine formats candidates ctx nowMs attempts loop hpool hkeeps hrun key _
  cases hstart : (.start candidates ctx nowMs : Process candidates Response) with
  | returned result ctx' =>
      rw [hstart, run_returned] at hrun
      exact absurd hrun (by simp)
  | running first =>
      rw [hstart] at hrun
      obtain ⟨underlay, config, hlaid, hclean⟩ := run_clean policy engine ctx nowMs hpool h attempts
        first _ _ (start_laid hstart).1 (clean_empty ctx.metadata pool) hkeeps hrun
      exact hlaid.observed hclean formats (hpool loop.cursor.current_mem) key

/-- Attempts leak nothing to later ones exactly over a separated pool. -/
theorem unleaked_iff_separated (Response : Type) (requestModel : Option String)
    (pool : List PipelineCandidate) :
    Unleaked Response requestModel pool ↔ Separated requestModel pool :=
  ⟨Unleaked.separated, Separated.unleaked⟩

/-- A channel without an `actual_model` finds the one of the channel before it. -/
theorem stale_actual_model : ¬ ∀ (pool : List PipelineCandidate), Unleaked Unit none pool := by
  intro h
  let first : PipelineCandidate := { PipelineCandidate.ofId "a" with actualModel := some "m" }
  have hseparated := (h [first, .ofId "b"]).separated
  have hindifferent := hseparated "actual_model" (by decide) first (by simp) (.ofId "b") (by simp)
    (by decide)
  exact absurd (hindifferent.unstamped (by decide)) (by decide)

/-! ## Client streams -/

section Streams

variable {σ τ LlmResponse : Type}

/-- Both paths deliver the same events, with a terminal if the provider sent
one. -/
def SameStream (outbound : Transducer σ StreamEvent LlmResponse)
    (inbound : Transducer τ LlmResponse StreamEvent) (raw : List StreamEvent) : Prop :=
  ∃ delivered : List StreamEvent,
    finishStreamEvents (.ok outbound) (.ok inbound) raw = .ok delivered ∧
      okFrames (transformLiveStream (.ok outbound) (.ok inbound) (raw.map .ok)) = delivered ∧
      (hasTerminal raw = true → hasTerminal delivered = true)

/-- Either nothing has to be re-emitted, or the transformers shortened the
stream and its first terminal is also the last one they read. -/
def TerminalsAgree (outbound : Transducer σ StreamEvent LlmResponse)
    (inbound : Transducer τ LlmResponse StreamEvent) (raw : List StreamEvent) : Prop :=
  hasTerminal raw = false ∨ hasTerminal (inbound.run (outbound.run raw)) = true ∨
    (inbound.run (outbound.run raw)).length < raw.length ∧
      raw.find? isClientStreamTerminal =
        lastTerminal none ((outbound.comp inbound).pulled (outbound.comp inbound).start raw)

/-- Exactly when the buffered and the live path deliver the same stream. -/
theorem same_stream_iff (outbound : Transducer σ StreamEvent LlmResponse)
    (inbound : Transducer τ LlmResponse StreamEvent) (raw : List StreamEvent) :
    SameStream outbound inbound raw ↔ TerminalsAgree outbound inbound raw := by
  unfold SameStream TerminalsAgree
  rw [finishStreamEvents_ok, transformLiveStream_ok]
  dsimp only
  generalize hevents : inbound.run (outbound.run raw) = events
  by_cases hsurvived : hasTerminal events = true
  · -- a terminal came through
    have hpresent : (decide (raw.length ≤ events.length) || hasTerminal events) = true := by
      rw [hsurvived, Bool.or_true]
    rw [if_pos hpresent, if_pos hsurvived]
    exact ⟨fun _ => .inr (.inl hsurvived), fun _ => ⟨events, rfl, rfl, fun _ => hsurvived⟩⟩
  rw [if_neg hsurvived]
  have hmissing := Bool.eq_false_iff.mpr hsurvived
  by_cases hraw : hasTerminal raw = true
  · -- one of the raw terminals has to be re-emitted
    by_cases hshort : raw.length ≤ events.length
    · rw [if_pos (by simp [hshort])]
      constructor
      · rintro ⟨delivered, hdelivered, _, hterminal⟩
        obtain rfl := Except.ok.inj hdelivered
        exact absurd (hterminal hraw) hsurvived
      · rintro (hnone | hsome | ⟨hlt, _⟩)
        · exact absurd hraw (by simp [hnone])
        · exact absurd hsome hsurvived
        · omega
    · rw [if_neg (by simp [hshort, hmissing])]
      constructor
      · rintro ⟨delivered, hdelivered, hlive, _⟩
        rw [← Except.ok.inj hdelivered] at hlive
        exact .inr (.inr ⟨by omega, (append_toList_inj hlive).symm⟩)
      · rintro (hnone | hsome | ⟨_, hsame⟩)
        · exact absurd hraw (by simp [hnone])
        · exact absurd hsome hsurvived
        · refine ⟨_, rfl, by rw [hsame], ?_⟩
          intro _
          rw [← isSome_find?_terminal] at hraw
          obtain ⟨terminal, hterminal⟩ := Option.isSome_iff_exists.mp hraw
          rw [hterminal]
          unfold hasTerminal
          rw [List.any_append]
          simp [List.find?_some hterminal]
  · -- there is nothing to re-emit
    have hnone := Bool.eq_false_iff.mpr hraw
    have hfirst : raw.find? isClientStreamTerminal = none := by
      rw [← Option.not_isSome_iff_eq_none, isSome_find?_terminal]
      exact hraw
    rw [hfirst, lastTerminal_of_none (hasTerminal_pulled hnone _), Option.toList_none,
      List.append_nil]
    refine ⟨fun _ => .inl hnone, fun _ => ⟨events, ?_, rfl, fun h => absurd h hraw⟩⟩
    split_ifs <;> rfl

/-- Transformers that drop two terminals: the buffered path re-emits the first
one, the live path the second. -/
theorem two_terminals_differ : ¬ ∀ (outbound : Transducer (List StreamEvent) StreamEvent Unit)
    (inbound : Transducer (List Unit) Unit StreamEvent) (raw : List StreamEvent),
    SameStream outbound inbound raw := by
  intro h
  obtain ⟨delivered, hbuffered, hlive, _⟩ := h (.ofFun fun _ => []) (.ofFun fun _ => [])
    [⟨none, some "response.completed", none, none, false⟩, ⟨none, none, some "[DONE]", none, true⟩]
  obtain rfl : [⟨none, some "response.completed", none, none, false⟩] = delivered :=
    Except.ok.inj hbuffered
  revert hlive
  decide

end Streams

end Conduit.Pipeline
