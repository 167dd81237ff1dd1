import Conduit.Transformers.Unified
import Mathlib

/-!
# Usage on the Gemini wire

Gemini reports the thoughts beside the candidates, the unified usage the
reasoning within the completion. `gemini_usage_to_llm` casts signed counts to
unsigned ones: `toNat_castU64` says what a cast makes of a count, and every
statement here about a count follows from it.
-/

namespace Conduit.Transformers

/-! ## The two converters -/

structure GeminiUsageMetadata where
  promptTokenCount : Int64 := 0
  candidatesTokenCount : Int64 := 0
  totalTokenCount : Int64 := 0
  cachedContentTokenCount : Int64 := 0
  thoughtsTokenCount : Int64 := 0
deriving DecidableEq

/-- `as u64` keeps the bits. -/
def castU64 (count : Int64) : UInt64 := count.toUInt64

/-- `as i64` keeps the bits. -/
def castI64 (count : UInt64) : Int64 := count.toInt64

/-- `i64::saturating_sub`. -/
def saturatingSubI64 (a b : Int64) : Int64 :=
  if a.toInt - b.toInt < -2 ^ 63 then Int64.minValue
  else if 2 ^ 63 ≤ a.toInt - b.toInt then Int64.maxValue
  else a - b

/-- The sum of the candidates and the thoughts wraps where it overflows. -/
def geminiUsageToLlm (g : GeminiUsageMetadata) : Usage where
  promptTokens := castU64 g.promptTokenCount
  completionTokens := castU64 (g.candidatesTokenCount + g.thoughtsTokenCount)
  totalTokens := castU64 g.totalTokenCount
  promptDetails :=
    { cachedTokens :=
        if 0 < g.cachedContentTokenCount then castU64 g.cachedContentTokenCount else 0 }
  completionDetails :=
    { reasoningTokens := if 0 < g.thoughtsTokenCount then castU64 g.thoughtsTokenCount else 0 }

def llmUsageToGemini (usage : Usage) : GeminiUsageMetadata where
  promptTokenCount := castI64 usage.promptTokens
  candidatesTokenCount :=
    if 0 < usage.completionDetails.reasoningTokens then
      saturatingSubI64 (castI64 usage.completionTokens) (castI64 usage.completionDetails.reasoningTokens)
    else castI64 usage.completionTokens
  totalTokenCount := castI64 usage.totalTokens
  cachedContentTokenCount :=
    if 0 < usage.promptDetails.cachedTokens then castI64 usage.promptDetails.cachedTokens else 0
  thoughtsTokenCount :=
    if 0 < usage.completionDetails.reasoningTokens then
      castI64 usage.completionDetails.reasoningTokens
    else 0

/-! ## What the wire must keep -/

/-- Counts below `2 ^ 62`, with the reasoning in the completion and the total their sum. -/
structure Usage.Plausible (usage : Usage) : Prop where
  prompt : usage.promptTokens.toNat < 2 ^ 62
  completion : usage.completionTokens.toNat < 2 ^ 62
  cached : usage.promptDetails.cachedTokens.toNat < 2 ^ 62
  writeCached : usage.promptDetails.writeCachedTokens.toNat < 2 ^ 62
  writeCached5m : usage.promptDetails.writeCachedTokens5m.toNat < 2 ^ 62
  writeCached1h : usage.promptDetails.writeCachedTokens1h.toNat < 2 ^ 62
  reasoning : usage.completionDetails.reasoningTokens.toNat ≤ usage.completionTokens.toNat
  total : usage.totalTokens.toNat = usage.promptTokens.toNat + usage.completionTokens.toNat

/-- The counts that a client is metered by are the same. -/
structure Usage.AgreesWith (usage other : Usage) : Prop where
  prompt : usage.promptTokens = other.promptTokens
  completion : usage.completionTokens = other.completionTokens
  total : usage.totalTokens = other.totalTokens
  reasoning : usage.completionDetails.reasoningTokens = other.completionDetails.reasoningTokens
  cached : usage.promptDetails.cachedTokens = other.promptDetails.cachedTokens
  writeCached : usage.promptDetails.writeCachedTokens = other.promptDetails.writeCachedTokens
  writeCached5m : usage.promptDetails.writeCachedTokens5m = other.promptDetails.writeCachedTokens5m
  writeCached1h : usage.promptDetails.writeCachedTokens1h = other.promptDetails.writeCachedTokens1h

namespace GeminiUsageMetadata

/-- The largest sum of reported counts: that of those which are not negative. -/
def largestSum (g : GeminiUsageMetadata) : Nat :=
  g.promptTokenCount.toInt.toNat + g.candidatesTokenCount.toInt.toNat +
    g.totalTokenCount.toInt.toNat + g.cachedContentTokenCount.toInt.toNat +
    g.thoughtsTokenCount.toInt.toNat

/-- No sum overflows, and no count that comes out is larger than what was reported. -/
structure Bounded (g : GeminiUsageMetadata) : Prop where
  noOverflow : -2 ^ 63 ≤ g.candidatesTokenCount.toInt + g.thoughtsTokenCount.toInt ∧
    g.candidatesTokenCount.toInt + g.thoughtsTokenCount.toInt < 2 ^ 63
  prompt : (geminiUsageToLlm g).promptTokens.toNat ≤ g.largestSum
  completion : (geminiUsageToLlm g).completionTokens.toNat ≤ g.largestSum
  total : (geminiUsageToLlm g).totalTokens.toNat ≤ g.largestSum
  cached : (geminiUsageToLlm g).promptDetails.cachedTokens.toNat ≤ g.largestSum
  reasoning : (geminiUsageToLlm g).completionDetails.reasoningTokens.toNat ≤ g.largestSum

/-- A count that is not negative, or whose bits are no more than what was reported. -/
def Harmless (g : GeminiUsageMetadata) (count : Int) : Prop :=
  0 ≤ count ∨ count + 2 ^ 64 ≤ g.largestSum

end GeminiUsageMetadata

/-! ## Casts -/

theorem toNat_castU64 (count : Int64) :
    ((castU64 count).toNat : Int) = if 0 ≤ count.toInt then count.toInt else count.toInt + 2 ^ 64 := by
  have hbits : count.toInt = if 2 * (castU64 count).toNat < 2 ^ 64 then ((castU64 count).toNat : Int)
      else (castU64 count).toNat - (2 ^ 64 : Nat) := BitVec.toInt_eq_toNat_cond count.toBitVec
  have hlt := (castU64 count).toNat_lt
  omega

theorem toInt_castI64 {count : UInt64} (h : count.toNat < 2 ^ 63) :
    (castI64 count).toInt = count.toNat := by
  have hcast := toNat_castU64 (castI64 count)
  have hlow := (castI64 count).le_toInt
  rw [show castU64 (castI64 count) = count from rfl] at hcast
  omega

/-- A positive count is positive as an `i64` too. -/
theorem pos_castI64 {count : UInt64} (h : count.toNat < 2 ^ 63) : 0 < castI64 count ↔ 0 < count := by
  rw [Int64.lt_iff_toInt_lt, UInt64.lt_iff_toNat_lt, toInt_castI64 h]
  exact Int.natCast_pos

theorem toInt_add_of_bounds {a b : Int64} (hlow : -2 ^ 63 ≤ a.toInt + b.toInt)
    (hhigh : a.toInt + b.toInt < 2 ^ 63) : (a + b).toInt = a.toInt + b.toInt := by
  rw [Int64.toInt_add]
  exact Int.bmod_eq_of_le (by omega) (by omega)

/-! ## There and back -/

/-- A count that only comes over if it is positive comes over anyway. -/
theorem guarded_cast {count : UInt64} (h : count.toNat < 2 ^ 63) :
    (if 0 < (if 0 < count then castI64 count else 0) then
      castU64 (if 0 < count then castI64 count else 0) else 0) = count := by
  by_cases hpos : 0 < count
  · rw [if_pos hpos, if_pos ((pos_castI64 h).mpr hpos)]
    rfl
  · rw [if_neg hpos, if_neg (by decide)]
    rw [UInt64.lt_iff_toNat_lt] at hpos
    refine UInt64.toNat_inj.mp ?_
    have hzero : (0 : UInt64).toNat = 0 := rfl
    omega

theorem saturatingSubI64_of_le {usage : Usage} (h : usage.Plausible) :
    saturatingSubI64 (castI64 usage.completionTokens)
        (castI64 usage.completionDetails.reasoningTokens) =
      castI64 usage.completionTokens - castI64 usage.completionDetails.reasoningTokens := by
  have hcompletion := h.completion
  have hreasoning := h.reasoning
  have ha := @toInt_castI64 usage.completionTokens (by omega)
  have hb := @toInt_castI64 usage.completionDetails.reasoningTokens (by omega)
  unfold saturatingSubI64
  rw [if_neg (by omega), if_neg (by omega)]

/-- What comes back is the usage, but for the tokens written to the cache. -/
theorem geminiUsageToLlm_llmUsageToGemini {usage : Usage} (h : usage.Plausible) :
    geminiUsageToLlm (llmUsageToGemini usage) =
      { promptTokens := usage.promptTokens
        completionTokens := usage.completionTokens
        totalTokens := usage.totalTokens
        promptDetails := { cachedTokens := usage.promptDetails.cachedTokens }
        completionDetails := { reasoningTokens := usage.completionDetails.reasoningTokens } } := by
  have hcompletion := h.completion
  have hreasoning := h.reasoning
  have hcached := h.cached
  have hsum : castU64 ((llmUsageToGemini usage).candidatesTokenCount +
      (llmUsageToGemini usage).thoughtsTokenCount) = usage.completionTokens := by
    unfold llmUsageToGemini
    dsimp only
    by_cases hpos : 0 < usage.completionDetails.reasoningTokens
    · rw [if_pos hpos, if_pos hpos, saturatingSubI64_of_le h, Int64.sub_add_cancel]
      rfl
    · rw [if_neg hpos, if_neg hpos, Int64.add_zero]
      rfl
  unfold geminiUsageToLlm
  rw [hsum]
  unfold llmUsageToGemini
  dsimp only
  rw [guarded_cast (by omega), guarded_cast (by omega)]
  rfl

theorem agreesWith_iff {usage : Usage} (h : usage.Plausible) :
    (geminiUsageToLlm (llmUsageToGemini usage)).AgreesWith usage ↔
      usage.promptDetails.writeCachedTokens = 0 ∧ usage.promptDetails.writeCachedTokens5m = 0 ∧
        usage.promptDetails.writeCachedTokens1h = 0 := by
  rw [geminiUsageToLlm_llmUsageToGemini h]
  constructor
  · intro hagrees
    exact ⟨hagrees.writeCached.symm, hagrees.writeCached5m.symm, hagrees.writeCached1h.symm⟩
  · rintro ⟨hwrite, h5m, h1h⟩
    exact ⟨rfl, rfl, rfl, rfl, rfl, hwrite.symm, h5m.symm, h1h.symm⟩

/-! ## What a provider may send -/

namespace GeminiUsageMetadata

variable (g : GeminiUsageMetadata)

/-- A cast count is bounded exactly if the count does no harm. -/
theorem castU64_le_iff {count : Int64} (h : count.toInt ≤ g.largestSum) :
    (castU64 count).toNat ≤ g.largestSum ↔ g.Harmless count.toInt := by
  have hcast := toNat_castU64 count
  unfold Harmless
  by_cases hneg : 0 ≤ count.toInt
  · rw [if_pos hneg] at hcast
    exact iff_of_true (by omega) (.inl hneg)
  · rw [if_neg hneg] at hcast
    omega

theorem guarded_le {count : Int64} (h : count.toInt ≤ g.largestSum) :
    (if 0 < count then castU64 count else 0).toNat ≤ g.largestSum := by
  by_cases hpos : 0 < count
  · rw [if_pos hpos]
    rw [Int64.lt_iff_toInt_lt] at hpos
    exact (g.castU64_le_iff h).mpr (.inl hpos.le)
  · rw [if_neg hpos]
    exact Nat.zero_le _

theorem bounded_iff :
    g.Bounded ↔
      (-2 ^ 63 ≤ g.candidatesTokenCount.toInt + g.thoughtsTokenCount.toInt ∧
        g.candidatesTokenCount.toInt + g.thoughtsTokenCount.toInt < 2 ^ 63) ∧
      g.Harmless g.promptTokenCount.toInt ∧ g.Harmless g.totalTokenCount.toInt ∧
        g.Harmless (g.candidatesTokenCount.toInt + g.thoughtsTokenCount.toInt) := by
  have hsum : (g.promptTokenCount.toInt ≤ g.largestSum ∧ g.totalTokenCount.toInt ≤ g.largestSum) ∧
      g.candidatesTokenCount.toInt + g.thoughtsTokenCount.toInt ≤ g.largestSum ∧
      g.cachedContentTokenCount.toInt ≤ g.largestSum ∧ g.thoughtsTokenCount.toInt ≤ g.largestSum := by
    unfold largestSum
    omega
  obtain ⟨⟨hprompt, htotal⟩, hcompletion, hcached, hthoughts⟩ := hsum
  constructor
  · rintro ⟨hoverflow, hp, hc, ht, -, -⟩
    have hadd := toInt_add_of_bounds hoverflow.1 hoverflow.2
    refine ⟨hoverflow, (g.castU64_le_iff hprompt).mp hp, (g.castU64_le_iff htotal).mp ht, ?_⟩
    rw [← hadd] at hcompletion ⊢
    exact (g.castU64_le_iff hcompletion).mp hc
  · rintro ⟨hoverflow, hp, ht, hc⟩
    have hadd := toInt_add_of_bounds hoverflow.1 hoverflow.2
    rw [← hadd] at hcompletion hc
    exact ⟨hoverflow, (g.castU64_le_iff hprompt).mpr hp, (g.castU64_le_iff hcompletion).mpr hc,
      (g.castU64_le_iff htotal).mpr ht, g.guarded_le hcached, g.guarded_le hthoughts⟩

end GeminiUsageMetadata

/-! ## Both directions -/

theorem gemini_usage_survives_iff (usage : Usage) (g : GeminiUsageMetadata) (h : usage.Plausible) :
    (geminiUsageToLlm (llmUsageToGemini usage)).AgreesWith usage ∧ g.Bounded ↔
      (usage.promptDetails.writeCachedTokens = 0 ∧ usage.promptDetails.writeCachedTokens5m = 0 ∧
        usage.promptDetails.writeCachedTokens1h = 0) ∧
      (-2 ^ 63 ≤ g.candidatesTokenCount.toInt + g.thoughtsTokenCount.toInt ∧
        g.candidatesTokenCount.toInt + g.thoughtsTokenCount.toInt < 2 ^ 63) ∧
      g.Harmless g.promptTokenCount.toInt ∧ g.Harmless g.totalTokenCount.toInt ∧
        g.Harmless (g.candidatesTokenCount.toInt + g.thoughtsTokenCount.toInt) :=
  and_congr (agreesWith_iff h) g.bounded_iff

theorem gemini_usage_survives_sample :
    let usage : Usage :=
      { promptTokens := 10, completionTokens := 7, totalTokens := 17
        completionDetails := { reasoningTokens := 3 } }
    let g : GeminiUsageMetadata :=
      { promptTokenCount := 10, candidatesTokenCount := 4, totalTokenCount := 17
        thoughtsTokenCount := 3 }
    (geminiUsageToLlm (llmUsageToGemini usage)).AgreesWith usage ∧ g.Bounded := by
  refine (gemini_usage_survives_iff _ _ ⟨?_, ?_, ?_, ?_, ?_, ?_, ?_, ?_⟩).mpr
    ⟨⟨rfl, rfl, rfl⟩, ⟨?_, ?_⟩, .inl ?_, .inl ?_, .inl ?_⟩ <;> decide

/-- A negative count becomes a huge one, and what was written to the cache is forgotten. -/
theorem negative_count_wraps :
    ¬ GeminiUsageMetadata.Bounded { promptTokenCount := -1 } ∧
      ¬ (geminiUsageToLlm (llmUsageToGemini
        { promptTokens := 9, totalTokens := 9, promptDetails := { writeCachedTokens := 5 } })).AgreesWith
          { promptTokens := 9, totalTokens := 9, promptDetails := { writeCachedTokens := 5 } } := by
  constructor
  · intro h
    exact absurd h.prompt (by decide)
  · intro h
    exact absurd h.writeCached (by decide)

end Conduit.Transformers
