import Conduit.Transformers.AnthropicInboundStream
import Conduit.Transformers.AnthropicOutboundStream
import Mathlib

/-!
# Anthropic usage, there and back

Anthropic counts the tokens read from and written to the cache beside
`input_tokens`; the unified usage counts them inside `prompt_tokens`.
`convert_llm_usage_to_anthropic` takes them out, but `convert_anthropic_usage`
puts none in and reads no cache-write count at all. So each direction keeps the
counts of a usage without cache counts, and of no other.
-/

namespace Conduit.Transformers.Anthropic

open Base Base.Json

/-! ## The two conventions -/

/-- The counts of an Anthropic usage object; an absent one is zero. -/
structure AnthropicCounts where
  input : UInt64
  output : UInt64
  cacheRead : UInt64
  cacheCreation : UInt64
  cacheCreation5m : UInt64
  cacheCreation1h : UInt64
deriving DecidableEq, Repr

namespace AnthropicCounts

def read (usage : Json) : AnthropicCounts where
  input := (u64Field usage "input_tokens").getD 0
  output := (u64Field usage "output_tokens").getD 0
  cacheRead := (u64Field usage "cache_read_input_tokens").getD 0
  cacheCreation := (u64Field usage "cache_creation_input_tokens").getD 0
  cacheCreation5m :=
    ((usage.get "cache_creation").bind fun c => u64Field c "ephemeral_5m_input_tokens").getD 0
  cacheCreation1h :=
    ((usage.get "cache_creation").bind fun c => u64Field c "ephemeral_1h_input_tokens").getD 0

/-- Nothing went through the cache. -/
structure Uncached (counts : AnthropicCounts) : Prop where
  cacheRead : counts.cacheRead = 0
  cacheCreation : counts.cacheCreation = 0
  cacheCreation5m : counts.cacheCreation5m = 0
  cacheCreation1h : counts.cacheCreation1h = 0

end AnthropicCounts

/-- The prompt tokens of a unified usage include its cached and cache-written ones. -/
def CountsCached (usage : Usage) : Prop :=
  usage.promptDetails.cachedTokens.toNat + usage.promptDetails.writeCachedTokens.toNat ≤
    usage.promptTokens.toNat

/-- A unified usage of which nothing went through the cache. -/
structure UncachedPrompt (usage : Usage) : Prop where
  cached : usage.promptDetails.cachedTokens = 0
  writeCached : usage.promptDetails.writeCachedTokens = 0
  writeCached5m : usage.promptDetails.writeCachedTokens5m = 0
  writeCached1h : usage.promptDetails.writeCachedTokens1h = 0

/-- The conversion counts what went through the cache, and gives the counts back. -/
def KeepsCounts (usage : Json) : Prop :=
  ∃ unified : Usage, convertAnthropicUsage usage = some unified ∧
    unified.promptTokens.toNat = (AnthropicCounts.read usage).input.toNat +
      (AnthropicCounts.read usage).cacheRead.toNat +
        (AnthropicCounts.read usage).cacheCreation.toNat ∧
    CountsCached unified ∧
    AnthropicCounts.read (convertLlmUsageToAnthropic unified) = AnthropicCounts.read usage

/-- A unified usage has its counts again after both conversions, those of the
two lifetimes of cache writes included. -/
def RoundTrips (usage : Usage) : Prop :=
  ∃ back : Usage, convertAnthropicUsage (convertLlmUsageToAnthropic usage) = some back ∧
    back.promptTokens = usage.promptTokens ∧ back.completionTokens = usage.completionTokens ∧
    back.promptDetails.cachedTokens = usage.promptDetails.cachedTokens ∧
    back.promptDetails.writeCachedTokens = usage.promptDetails.writeCachedTokens ∧
    back.promptDetails.writeCachedTokens5m = usage.promptDetails.writeCachedTokens5m ∧
    back.promptDetails.writeCachedTokens1h = usage.promptDetails.writeCachedTokens1h

/-! ## What each conversion yields -/

theorem read_convertLlmUsageToAnthropic (usage : Usage) :
    AnthropicCounts.read (convertLlmUsageToAnthropic usage) =
      { input := saturatingSub usage.promptTokens
          (usage.promptDetails.cachedTokens + usage.promptDetails.writeCachedTokens)
        output := usage.completionTokens
        cacheRead := usage.promptDetails.cachedTokens
        cacheCreation := usage.promptDetails.writeCachedTokens
        cacheCreation5m := usage.promptDetails.writeCachedTokens5m
        cacheCreation1h := usage.promptDetails.writeCachedTokens1h } := by
  have hcount : ∀ (value : Json) (name : String) (count : UInt64),
      value.get name = some (.ofU64 count) → u64Field value name = some count := by
    intro value name count h
    unfold u64Field
    rw [h, Option.bind_some, asU64_ofU64]
  have hlifetime : ∀ (name : String) (count : UInt64),
      Json.get (.object
        [("ephemeral_5m_input_tokens", .ofU64 usage.promptDetails.writeCachedTokens5m),
          ("ephemeral_1h_input_tokens", .ofU64 usage.promptDetails.writeCachedTokens1h)]) name =
        some (.ofU64 count) →
      ((convertLlmUsageToAnthropic usage).get "cache_creation").bind (fun c => u64Field c name) =
        some count := by
    intro name count h
    exact hcount _ name count h
  unfold AnthropicCounts.read
  rw [hcount _ "input_tokens" _ rfl, hcount _ "output_tokens" _ rfl,
    hcount _ "cache_read_input_tokens" _ rfl, hcount _ "cache_creation_input_tokens" _ rfl,
    hlifetime "ephemeral_5m_input_tokens" _ rfl, hlifetime "ephemeral_1h_input_tokens" _ rfl]
  rfl

/-- The details hold the cache reads only, and the prompt tokens not even these. -/
theorem convertAnthropicUsage_eq {usage : Json} (h : usage.isNull = false) :
    convertAnthropicUsage usage = some
      { promptTokens := (AnthropicCounts.read usage).input
        completionTokens := (AnthropicCounts.read usage).output
        totalTokens := (AnthropicCounts.read usage).input + (AnthropicCounts.read usage).output
        promptDetails := { cachedTokens := (AnthropicCounts.read usage).cacheRead } } := by
  unfold convertAnthropicUsage
  rw [if_neg (by simp [h])]
  rfl

/-- Where the prompt tokens include the cached ones, the subtraction is exact. -/
theorem CountsCached.toNat_saturatingSub {usage : Usage} (h : CountsCached usage) :
    (saturatingSub usage.promptTokens
      (usage.promptDetails.cachedTokens + usage.promptDetails.writeCachedTokens)).toNat +
        (usage.promptDetails.cachedTokens.toNat + usage.promptDetails.writeCachedTokens.toNat) =
      usage.promptTokens.toNat := by
  unfold CountsCached at h
  have hsum : (usage.promptDetails.cachedTokens + usage.promptDetails.writeCachedTokens).toNat =
      usage.promptDetails.cachedTokens.toNat + usage.promptDetails.writeCachedTokens.toNat := by
    rw [UInt64.toNat_add]
    exact Nat.mod_eq_of_lt (lt_of_le_of_lt h usage.promptTokens.toNat_lt)
  have hle : usage.promptDetails.cachedTokens + usage.promptDetails.writeCachedTokens ≤
      usage.promptTokens := UInt64.le_iff_toNat_le.mpr (hsum ▸ h)
  unfold saturatingSub
  rw [if_pos hle, UInt64.toNat_sub_of_le _ _ hle, hsum]
  omega

theorem saturatingSub_zero (n : UInt64) : saturatingSub n 0 = n := by
  unfold saturatingSub
  rw [if_pos (UInt64.le_iff_toNat_le.mpr (Nat.zero_le _)), UInt64.sub_zero]

/-! ## The counts that survive -/

theorem keepsCounts_iff (fields : List (String × Json)) :
    KeepsCounts (.object fields) ↔ (AnthropicCounts.read (.object fields)).Uncached := by
  have hconvert := @convertAnthropicUsage_eq (.object fields) rfl
  unfold KeepsCounts
  rw [hconvert]
  constructor
  · rintro ⟨unified, hunified, hprompt, -, hback⟩
    obtain rfl := Option.some.inj hunified
    have hsum : (AnthropicCounts.read (.object fields)).cacheRead.toNat = 0 ∧
        (AnthropicCounts.read (.object fields)).cacheCreation.toNat = 0 := by
      dsimp only at hprompt
      omega
    rw [read_convertLlmUsageToAnthropic] at hback
    constructor
    · exact UInt64.toNat_inj.mp hsum.1
    · exact UInt64.toNat_inj.mp hsum.2
    · exact (congrArg AnthropicCounts.cacheCreation5m hback).symm
    · exact (congrArg AnthropicCounts.cacheCreation1h hback).symm
  · intro hcounts
    refine ⟨_, rfl, ?_, ?_, ?_⟩
    · simp [hcounts.cacheRead, hcounts.cacheCreation]
    · simp [CountsCached, hcounts.cacheRead]
    · rw [read_convertLlmUsageToAnthropic]
      cases hread : AnthropicCounts.read (.object fields) with
      | mk input output cacheRead cacheCreation cacheCreation5m cacheCreation1h =>
          rw [hread] at hcounts
          obtain ⟨rfl, rfl, rfl, rfl⟩ := hcounts
          simp [saturatingSub_zero]

theorem usageRoundTrips_iff {usage : Usage} (h : CountsCached usage) :
    RoundTrips usage ↔ UncachedPrompt usage := by
  have hconvert := @convertAnthropicUsage_eq (convertLlmUsageToAnthropic usage) rfl
  rw [read_convertLlmUsageToAnthropic] at hconvert
  unfold RoundTrips
  rw [hconvert]
  constructor
  · rintro ⟨back, hback, hprompt, -, -, -, h5m, h1h⟩
    obtain rfl := Option.some.inj hback
    have hexact := h.toNat_saturatingSub
    rw [show saturatingSub usage.promptTokens _ = usage.promptTokens from hprompt] at hexact
    constructor
    · exact UInt64.toNat_inj.mp (by rw [UInt64.toNat_zero]; omega)
    · exact UInt64.toNat_inj.mp (by rw [UInt64.toNat_zero]; omega)
    · exact h5m.symm
    · exact h1h.symm
  · intro huncached
    refine ⟨_, rfl, ?_, rfl, rfl, huncached.writeCached.symm, huncached.writeCached5m.symm,
      huncached.writeCached1h.symm⟩
    simp [huncached.cached, huncached.writeCached, saturatingSub_zero]

theorem usage_counts_kept_iff (fields : List (String × Json)) (usage : Usage)
    (h : CountsCached usage) :
    (KeepsCounts (.object fields) ↔ (AnthropicCounts.read (.object fields)).Uncached) ∧
      (RoundTrips usage ↔ UncachedPrompt usage) :=
  ⟨keepsCounts_iff fields, usageRoundTrips_iff h⟩

/-- Ten tokens beside the cache, twenty read from it. -/
def sampleCachedUsage : List (String × Json) :=
  [("input_tokens", .int 10), ("output_tokens", .int 5), ("cache_read_input_tokens", .int 20)]

theorem usage_counts_kept_sample :
    CountsCached { promptTokens := 30, promptDetails := { cachedTokens := 20 } } ∧
      ((KeepsCounts (.object [("input_tokens", .int 10)]) ↔
          (AnthropicCounts.read (.object [("input_tokens", .int 10)])).Uncached) ∧
        (RoundTrips { promptTokens := 30, promptDetails := { cachedTokens := 20 } } ↔
          UncachedPrompt { promptTokens := 30, promptDetails := { cachedTokens := 20 } })) :=
  have hcounts : CountsCached { promptTokens := 30, promptDetails := { cachedTokens := 20 } } := by
    unfold CountsCached
    decide
  ⟨hcounts, usage_counts_kept_iff [("input_tokens", .int 10)] _ hcounts⟩

theorem usage_counts_not_kept :
    ¬ KeepsCounts (.object sampleCachedUsage) ∧
      ¬ RoundTrips { promptTokens := 30, promptDetails := { cachedTokens := 20 } } := by
  constructor
  · intro h
    exact absurd ((keepsCounts_iff _).mp h).cacheRead (by decide)
  · intro h
    exact absurd ((usageRoundTrips_iff (by unfold CountsCached; decide)).mp h).cached (by decide)

end Conduit.Transformers.Anthropic
