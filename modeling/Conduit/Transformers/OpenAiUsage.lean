import Conduit.Transformers.ResponsesAggregate
import Mathlib

/-!
# The two decoders of OpenAI usage

A body decoded as `LlmResponse` reads its usage with the names of the unified
shape, `extract_usage` with those of OpenAI. Each of them is a condition on the
fields and a reading of their counts (`decodeInBody_eq`, `decodeUsage_eq`), and
so is what they agree on.
-/

namespace Conduit.Transformers.OpenAiUsage

open Base Base.Json Responses

/-! ## The usage of a body -/

/-- `Usage`, whose metadata is a map of its own. -/
def decodeInBody (value : Json) : Option Usage := do
  let fields ← value.asObject
  let usage ← Usage.decode value
  let _ ← fieldOr [] asObject fields "metadata"
  return usage

/-- The usage of a body that is decoded as `LlmResponse`. One that cannot be
decoded is an error in a response and no chunk in a stream, with no usage. -/
def bodyUsage (body : Json) : Option Usage := do
  let fields ← body.asObject
  let response ← LlmResponse.decode (.object (remove "usage" fields))
  let usage ← fieldOption decodeInBody fields "usage"
  ({ response with usage } : LlmResponse).usage

/-! ## Counts -/

/-- Absent, or a non-negative integer of 64 bits. -/
def isCount (value : Option Json) : Bool := value.all fun value => value.asU64.isSome

/-- The count; an absent one is zero. -/
def count (value : Option Json) : UInt64 := (value.bind asU64).getD 0

/-- Every count of the unified details. -/
def tokenDetailNames : List String :=
  ["cached_tokens", "write_cached_tokens", "write_cached_5min_tokens", "write_cached_1hour_tokens",
    "audio_tokens", "reasoning_tokens", "accepted_prediction_tokens", "rejected_prediction_tokens"]

/-- The unified details are an object of counts. -/
def readsTokenDetails (value : Json) : Bool :=
  value.asObject.any fun fields => tokenDetailNames.all fun name => isCount (field fields name)

def tokenDetails (value : Json) : TokenDetails where
  cachedTokens := count (value.get "cached_tokens")
  writeCachedTokens := count (value.get "write_cached_tokens")
  writeCachedTokens5m := count (value.get "write_cached_5min_tokens")
  writeCachedTokens1h := count (value.get "write_cached_1hour_tokens")
  audioTokens := count (value.get "audio_tokens")
  reasoningTokens := count (value.get "reasoning_tokens")
  acceptedPredictionTokens := count (value.get "accepted_prediction_tokens")
  rejectedPredictionTokens := count (value.get "rejected_prediction_tokens")

/-- A count of OpenAI's details, by name or, in an array, by position. -/
def detailAt (arity : Nat) (value : Json) (index : Nat) (name : String) : Option Json :=
  (structFields arity value).bind fun get => get index name

def readsPromptDetails (value : Json) : Bool :=
  (structFields 3 value).isSome &&
    (isCount (detailAt 3 value 0 "audio_tokens") &&
      (isCount (detailAt 3 value 1 "cached_tokens") &&
        isCount (detailAt 3 value 2 "write_cached_tokens")))

def promptDetails (value : Json) : TokenDetails where
  audioTokens := count (detailAt 3 value 0 "audio_tokens")
  cachedTokens := count (detailAt 3 value 1 "cached_tokens")
  writeCachedTokens := count (detailAt 3 value 2 "write_cached_tokens")

def readsCompletionDetails (value : Json) : Bool :=
  (structFields 4 value).isSome &&
    (isCount (detailAt 4 value 0 "audio_tokens") &&
      (isCount (detailAt 4 value 1 "reasoning_tokens") &&
        (isCount (detailAt 4 value 2 "accepted_prediction_tokens") &&
          isCount (detailAt 4 value 3 "rejected_prediction_tokens"))))

def completionDetails (value : Json) : TokenDetails where
  audioTokens := count (detailAt 4 value 0 "audio_tokens")
  reasoningTokens := count (detailAt 4 value 1 "reasoning_tokens")
  acceptedPredictionTokens := count (detailAt 4 value 2 "accepted_prediction_tokens")
  rejectedPredictionTokens := count (detailAt 4 value 3 "rejected_prediction_tokens")

/-- The fields that the decoder of a body takes. -/
def readsInBody (fields : List (String × Json)) : Bool :=
  (isCount (field fields "prompt_tokens") &&
    (isCount (field fields "completion_tokens") &&
      (isCount (field fields "total_tokens") &&
        ((field fields "prompt_tokens_details").all readsTokenDetails &&
          (field fields "completion_tokens_details").all readsTokenDetails)))) &&
    (field fields "metadata").all fun value => value.asObject.isSome

def usageInBody (fields : List (String × Json)) : Usage where
  promptTokens := count (field fields "prompt_tokens")
  completionTokens := count (field fields "completion_tokens")
  totalTokens := count (field fields "total_tokens")
  promptDetails := (field fields "prompt_tokens_details").elim {} tokenDetails
  completionDetails := (field fields "completion_tokens_details").elim {} tokenDetails

/-- Not both names are there. -/
def soleName (fields : List (String × Json)) (name other : String) : Bool :=
  (fields.filter fun entry => entry.1 = name ∨ entry.1 = other).length ≤ 1

def eitherField (fields : List (String × Json)) (name other : String) : Option Json :=
  (field fields name).or (field fields other)

/-- The fields that `extract_usage` takes. -/
def readsExtracted (fields : List (String × Json)) : Bool :=
  (soleName fields "prompt_tokens_details" "input_tokens_details" &&
      (eitherField fields "prompt_tokens_details" "input_tokens_details").all readsPromptDetails) &&
    (isCount (field fields "cached_tokens") &&
      ((soleName fields "prompt_tokens" "input_tokens" &&
          isCount (eitherField fields "prompt_tokens" "input_tokens")) &&
        ((soleName fields "completion_tokens" "output_tokens" &&
            isCount (eitherField fields "completion_tokens" "output_tokens")) &&
          (isCount (field fields "total_tokens") &&
            (soleName fields "completion_tokens_details" "output_tokens_details" &&
              (eitherField fields "completion_tokens_details" "output_tokens_details").all
                readsCompletionDetails)))))

/-- The prompt details without the count on the top level. -/
def extractedPromptDetails (fields : List (String × Json)) : TokenDetails :=
  (eitherField fields "prompt_tokens_details" "input_tokens_details").elim {} promptDetails

def usageExtracted (fields : List (String × Json)) : Usage where
  promptTokens := count (eitherField fields "prompt_tokens" "input_tokens")
  completionTokens := count (eitherField fields "completion_tokens" "output_tokens")
  totalTokens := count (field fields "total_tokens")
  promptDetails :=
    { extractedPromptDetails fields with
      cachedTokens :=
        if (extractedPromptDetails fields).cachedTokens = 0 then count (field fields "cached_tokens")
        else (extractedPromptDetails fields).cachedTokens }
  completionDetails :=
    (eitherField fields "completion_tokens_details" "output_tokens_details").elim {} completionDetails

/-! ## What each decoder reads -/

section Reads

variable {α β : Type}

theorem count_eq (value : Option Json) :
    value.elim (some 0) asU64 = if isCount value then some (count value) else none := by
  cases value with
  | none => rfl
  | some value =>
      unfold isCount count
      rw [Option.elim_some, Option.all_some, Option.bind_some]
      cases value.asU64 <;> rfl

theorem bind_guarded {p : Bool} (a : α) (f : α → Option β) :
    ((if p then some a else none).bind f) = if p then f a else none := by
  cases p <;> rfl

theorem guarded_guarded {p q : Bool} (a : α) :
    (if p then (if q then some a else none) else none) = if p && q then some a else none := by
  cases p <;> rfl

/-- A field with a default, whose decoder reads what fulfils the condition. -/
theorem elim_guarded {reads : Json → Bool} {result : Json → α} {decode : Json → Option α}
    (hdecode : ∀ value : Json, decode value = if reads value then some (result value) else none)
    (default : α) (value : Option Json) :
    value.elim (some default) decode =
      if value.all reads then some (value.elim default result) else none := by
  cases value with
  | none => rfl
  | some value => exact hdecode value

theorem decodeTokenDetails_eq (value : Json) :
    TokenDetails.decode value =
      if readsTokenDetails value then some (tokenDetails value) else none := by
  unfold TokenDetails.decode readsTokenDetails tokenDetails
  cases value with
  | object fields =>
      simp only [asObject, fieldOr, count_eq, Option.bind_eq_bind, Option.bind_some, Option.pure_def,
        bind_guarded, guarded_guarded, Option.any_some, tokenDetailNames, List.all_cons, List.all_nil,
        Bool.and_true, get_object]
  | _ => rfl

theorem decodePromptDetails_eq (value : Json) :
    decodePromptDetails value =
      if readsPromptDetails value then some (promptDetails value) else none := by
  unfold decodePromptDetails readsPromptDetails promptDetails detailAt
  cases structFields 3 value with
  | none => rfl
  | some get =>
      simp only [countAt, count_eq, Option.bind_eq_bind, Option.bind_some, Option.pure_def,
        bind_guarded, guarded_guarded, Option.isSome_some, Bool.true_and]

theorem decodeCompletionDetails_eq (value : Json) :
    decodeCompletionDetails value =
      if readsCompletionDetails value then some (completionDetails value) else none := by
  unfold decodeCompletionDetails readsCompletionDetails completionDetails detailAt
  cases structFields 4 value with
  | none => rfl
  | some get =>
      simp only [countAt, count_eq, Option.bind_eq_bind, Option.bind_some, Option.pure_def,
        bind_guarded, guarded_guarded, Option.isSome_some, Bool.true_and]

theorem asObject_eq (value : Json) :
    value.asObject = if value.asObject.isSome then some (value.asObject.getD []) else none := by
  cases value.asObject <;> rfl

theorem decodeInBody_eq (fields : List (String × Json)) :
    decodeInBody (.object fields) =
      if readsInBody fields then some (usageInBody fields) else none := by
  have hfields : (object fields).asObject = some fields := rfl
  unfold decodeInBody Usage.decode readsInBody usageInBody
  simp only [hfields, fieldOr, count_eq, elim_guarded decodeTokenDetails_eq,
    elim_guarded asObject_eq, Option.bind_eq_bind, Option.bind_some, Option.pure_def, bind_guarded,
    guarded_guarded]

theorem aliased_guarded {reads : Json → Bool} {result : Json → α} {decode : Json → Option α}
    (hdecode : ∀ value : Json, decode value = if reads value then some (result value) else none)
    (default : α) (fields : List (String × Json)) (name other : String) :
    aliased default decode fields name other =
      if soleName fields name other && (eitherField fields name other).all reads then
        some ((eitherField fields name other).elim default result)
      else none := by
  unfold aliased soleName
  rw [show (field fields name).or (field fields other) = eitherField fields name other from rfl,
    elim_guarded hdecode, ← guarded_guarded]
  by_cases hsole : (fields.filter fun entry => entry.1 = name ∨ entry.1 = other).length ≤ 1
  · rw [if_pos hsole, if_pos (decide_eq_true hsole)]
  · rw [if_neg hsole, if_neg (by simpa using hsole)]

theorem aliased_count (fields : List (String × Json)) (name other : String) :
    aliased 0 asU64 fields name other =
      if soleName fields name other && isCount (eitherField fields name other) then
        some (count (eitherField fields name other))
      else none := by
  have hdecode : ∀ value : Json, value.asU64 =
      if value.asU64.isSome then some (value.asU64.getD 0) else none := by
    intro value
    cases value.asU64 <;> rfl
  rw [aliased_guarded hdecode]
  unfold isCount count
  cases eitherField fields name other <;> rfl

theorem decodeUsage_eq (fields : List (String × Json)) :
    decodeUsage (.object fields) =
      if readsExtracted fields then some (usageExtracted fields) else none := by
  unfold decodeUsage readsExtracted usageExtracted extractedPromptDetails
  simp only [asObject, fieldOr, count_eq, aliased_count, aliased_guarded decodePromptDetails_eq,
    aliased_guarded decodeCompletionDetails_eq, Option.bind_eq_bind, Option.bind_some,
    Option.pure_def, bind_guarded, guarded_guarded]

end Reads

/-! ## Agreement -/

/-- The counts that are billed or reported. -/
structure SameCounts (a b : Usage) : Prop where
  prompt : a.promptTokens = b.promptTokens
  completion : a.completionTokens = b.completionTokens
  total : a.totalTokens = b.totalTokens
  cached : a.promptDetails.cachedTokens = b.promptDetails.cachedTokens
  written : a.promptDetails.writeCachedTokens = b.promptDetails.writeCachedTokens
  written5m : a.promptDetails.writeCachedTokens5m = b.promptDetails.writeCachedTokens5m
  written1h : a.promptDetails.writeCachedTokens1h = b.promptDetails.writeCachedTokens1h
  promptAudio : a.promptDetails.audioTokens = b.promptDetails.audioTokens
  completionAudio : a.completionDetails.audioTokens = b.completionDetails.audioTokens
  reasoning : a.completionDetails.reasoningTokens = b.completionDetails.reasoningTokens

def countNames : List String :=
  ["prompt_tokens", "input_tokens", "completion_tokens", "output_tokens", "total_tokens",
    "cached_tokens"]

def detailsNames : List String :=
  ["prompt_tokens_details", "input_tokens_details", "completion_tokens_details",
    "output_tokens_details"]

/-- Every token count of the object is a non-negative integer. -/
structure TokenCounts (fields : List (String × Json)) : Prop where
  top : ∀ name ∈ countNames, isCount (field fields name) = true
  details : ∀ name ∈ detailsNames, ∀ inner : List (String × Json),
    field fields name = some (.object inner) →
      ∀ key ∈ tokenDetailNames, isCount (field inner key) = true

/-- Both are there or none, with the same counts, and both are there for token counts. -/
structure DecodedAlike (inBody extracted : Option Usage) (fields : List (String × Json)) :
    Prop where
  present : inBody.isSome = extracted.isSome
  same : ∀ a b : Usage, inBody = some a → extracted = some b → SameCounts a b
  counts : TokenCounts fields → inBody.isSome = true ∧ extracted.isSome = true

/-- Nothing is counted under a name that one of the decoders ignores. -/
structure Covered (fields : List (String × Json)) : Prop where
  prompt : field fields "prompt_tokens" = none → count (field fields "input_tokens") = 0
  completion : field fields "completion_tokens" = none → count (field fields "output_tokens") = 0
  /-- The count on the top level is only a fallback. -/
  cached : ((field fields "prompt_tokens_details").elim {} tokenDetails).cachedTokens = 0 →
    count (field fields "cached_tokens") = 0
  written5m : ((field fields "prompt_tokens_details").elim {} tokenDetails).writeCachedTokens5m = 0
  written1h : ((field fields "prompt_tokens_details").elim {} tokenDetails).writeCachedTokens1h = 0
  promptDetails : field fields "prompt_tokens_details" = none →
    (field fields "input_tokens_details").elim {} promptDetails = {}
  completionDetails : field fields "completion_tokens_details" = none →
    ((field fields "output_tokens_details").elim {} completionDetails).audioTokens = 0 ∧
      ((field fields "output_tokens_details").elim {} completionDetails).reasoningTokens = 0

/-- Both decoders take the object and nothing is counted out of their common sight, or
neither takes it and a count is no non-negative integer. -/
def Alike (fields : List (String × Json)) : Prop :=
  readsInBody fields = true ∧ readsExtracted fields = true ∧ Covered fields ∨
    readsInBody fields = false ∧ readsExtracted fields = false ∧ ¬ TokenCounts fields

section Agreement

variable {fields : List (String × Json)}

/-- A count under a second name is read by one decoder only. -/
theorem count_either (name other : String) :
    count (field fields name) = count (eitherField fields name other) ↔
      (field fields name = none → count (field fields other) = 0) := by
  unfold eitherField
  cases field fields name with
  | none => exact ⟨fun h _ => h.symm, fun h => (h rfl).symm⟩
  | some value => simp

/-- The details of a body are read by name from an object. -/
theorem tokenDetails_of_reads {name : String}
    (hreads : (field fields name).all readsTokenDetails = true) :
    field fields name = none ∨
      ∃ inner : List (String × Json), field fields name = some (.object inner) := by
  cases hvalue : field fields name with
  | none => exact .inl rfl
  | some value =>
      rw [hvalue, Option.all_some] at hreads
      cases value with
      | object inner => exact .inr ⟨inner, rfl⟩
      | _ => exact absurd hreads Bool.false_ne_true

/-- The cached tokens of the details come first, those of the top level fill in. -/
theorem cached_fallback (details top : UInt64) :
    details = (if details = 0 then top else details) ↔ (details = 0 → top = 0) := by
  by_cases hzero : details = 0
  · rw [if_pos hzero, hzero]
    exact ⟨fun h _ => h.symm, fun h => (h rfl).symm⟩
  · rw [if_neg hzero]
    exact ⟨fun _ h => absurd h hzero, fun _ => rfl⟩

theorem promptDetails_eq_default (value : Option Json) :
    value.elim {} promptDetails = ({} : TokenDetails) ↔
      (value.elim {} promptDetails).cachedTokens = 0 ∧
        (value.elim {} promptDetails).writeCachedTokens = 0 ∧
        (value.elim {} promptDetails).audioTokens = 0 := by
  cases value with
  | none => simp
  | some value => simp [promptDetails]

/-- OpenAI's details have no counts by lifetime. -/
theorem extractedPromptDetails_lifetimes :
    (extractedPromptDetails fields).writeCachedTokens5m = 0 ∧
      (extractedPromptDetails fields).writeCachedTokens1h = 0 := by
  unfold extractedPromptDetails
  cases eitherField fields "prompt_tokens_details" "input_tokens_details" <;> exact ⟨rfl, rfl⟩

/-- What the fallback gives is zero only if there is nothing. -/
theorem fallback_eq_zero (details top : UInt64) :
    0 = (if details = 0 then top else details) ↔ details = 0 ∧ top = 0 := by
  by_cases hzero : details = 0
  · rw [if_pos hzero]
    exact ⟨fun h => ⟨hzero, h.symm⟩, fun h => h.2.symm⟩
  · rw [if_neg hzero]
    exact ⟨fun h => absurd h.symm hzero, fun h => absurd h.1 hzero⟩

/-- The counts of the prompt details, of which a body reads those under its own name. -/
theorem promptDetails_same_iff
    (hreads : (field fields "prompt_tokens_details").all readsTokenDetails = true)
    {read extracted : TokenDetails}
    (hread : read = (field fields "prompt_tokens_details").elim {} tokenDetails)
    (hextracted : extracted = (usageExtracted fields).promptDetails) :
    (read.cachedTokens = extracted.cachedTokens ∧
      read.writeCachedTokens = extracted.writeCachedTokens ∧
      read.writeCachedTokens5m = extracted.writeCachedTokens5m ∧
      read.writeCachedTokens1h = extracted.writeCachedTokens1h ∧
      read.audioTokens = extracted.audioTokens) ↔
    (read.cachedTokens = 0 → count (field fields "cached_tokens") = 0) ∧
      read.writeCachedTokens5m = 0 ∧ read.writeCachedTokens1h = 0 ∧
      (field fields "prompt_tokens_details" = none →
        (field fields "input_tokens_details").elim {} promptDetails = {}) := by
  obtain ⟨h5m, h1h⟩ := @extractedPromptDetails_lifetimes fields
  rw [promptDetails_eq_default, hextracted]
  unfold usageExtracted
  dsimp only
  rw [h5m, h1h]
  rcases tokenDetails_of_reads hreads with hnone | ⟨inner, hinner⟩
  · -- a body has no details, and the extracted ones are those under the other name
    rw [hnone, Option.elim_none] at hread
    have hother : extractedPromptDetails fields =
        (field fields "input_tokens_details").elim {} promptDetails := by
      unfold extractedPromptDetails eitherField
      rw [hnone, Option.none_or]
    rw [hread, hother, fallback_eq_zero]
    constructor
    · rintro ⟨⟨hcached, htop⟩, hwritten, -, -, haudio⟩
      exact ⟨fun _ => htop, rfl, rfl, fun _ => ⟨hcached, hwritten.symm, haudio.symm⟩⟩
    · rintro ⟨htop, -, -, hdetails⟩
      obtain ⟨hcached, hwritten, haudio⟩ := hdetails hnone
      exact ⟨⟨hcached, htop rfl⟩, hwritten.symm, rfl, rfl, haudio.symm⟩
  · -- both read the same object
    rw [hinner, Option.elim_some] at hread
    have hsame : extractedPromptDetails fields = promptDetails (.object inner) := by
      unfold extractedPromptDetails eitherField
      rw [hinner, Option.some_or, Option.elim_some]
    have hcached : (promptDetails (.object inner)).cachedTokens = read.cachedTokens := by
      rw [hread]
      rfl
    have hwritten : (promptDetails (.object inner)).writeCachedTokens = read.writeCachedTokens := by
      rw [hread]
      rfl
    have haudio : (promptDetails (.object inner)).audioTokens = read.audioTokens := by
      rw [hread]
      rfl
    rw [hsame, hcached, hwritten, haudio, cached_fallback, hinner]
    constructor
    · rintro ⟨htop, -, h5m, h1h, -⟩
      exact ⟨htop, h5m, h1h, fun h => absurd h (Option.some_ne_none _)⟩
    · rintro ⟨htop, h5m, h1h, -⟩
      exact ⟨htop, rfl, h5m, h1h, rfl⟩

/-- The same for the completion details. -/
theorem completionDetails_same_iff
    (hreads : (field fields "completion_tokens_details").all readsTokenDetails = true) :
    ((usageInBody fields).completionDetails.audioTokens =
        (usageExtracted fields).completionDetails.audioTokens ∧
      (usageInBody fields).completionDetails.reasoningTokens =
        (usageExtracted fields).completionDetails.reasoningTokens) ↔
    (field fields "completion_tokens_details" = none →
      ((field fields "output_tokens_details").elim {} completionDetails).audioTokens = 0 ∧
        ((field fields "output_tokens_details").elim {} completionDetails).reasoningTokens = 0) := by
  unfold usageInBody usageExtracted eitherField
  dsimp only
  rcases tokenDetails_of_reads hreads with hnone | ⟨inner, hinner⟩
  · rw [hnone, Option.none_or, Option.elim_none]
    exact ⟨fun h _ => ⟨h.1.symm, h.2.symm⟩, fun h => ⟨(h rfl).1.symm, (h rfl).2.symm⟩⟩
  · rw [hinner, Option.some_or, Option.elim_some]
    exact ⟨fun _ h => absurd h (Option.some_ne_none _), fun _ => ⟨rfl, rfl⟩⟩

/-- On an object that the decoder of a body takes, the two read the same counts if
nothing is counted under a name that one of them ignores. -/
theorem sameCounts_iff (hreads : readsInBody fields = true) :
    SameCounts (usageInBody fields) (usageExtracted fields) ↔ Covered fields := by
  unfold readsInBody at hreads
  simp only [Bool.and_eq_true] at hreads
  obtain ⟨⟨-, -, -, hprompt, hcompletion⟩, -⟩ := hreads
  have hdetails := promptDetails_same_iff hprompt rfl rfl
  have hcompletionDetails := completionDetails_same_iff hcompletion
  constructor
  · intro h
    obtain ⟨hcached, h5m, h1h, hother⟩ :=
      hdetails.mp ⟨h.cached, h.written, h.written5m, h.written1h, h.promptAudio⟩
    exact {
      prompt := (count_either _ _).mp h.prompt
      completion := (count_either _ _).mp h.completion
      cached := hcached
      written5m := h5m
      written1h := h1h
      promptDetails := hother
      completionDetails := hcompletionDetails.mp ⟨h.completionAudio, h.reasoning⟩ }
  · intro h
    obtain ⟨hcached, hwritten, h5m, h1h, haudio⟩ :=
      hdetails.mpr ⟨h.cached, h.written5m, h.written1h, h.promptDetails⟩
    obtain ⟨hcompletionAudio, hreasoning⟩ := hcompletionDetails.mpr h.completionDetails
    exact {
      prompt := (count_either _ _).mpr h.prompt
      completion := (count_either _ _).mpr h.completion
      total := rfl
      cached := hcached
      written := hwritten
      written5m := h5m
      written1h := h1h
      promptAudio := haudio
      completionAudio := hcompletionAudio
      reasoning := hreasoning }

theorem decodedAlike_iff :
    DecodedAlike (decodeInBody (.object fields)) (decodeUsage (.object fields)) fields ↔
      Alike fields := by
  unfold Alike
  rw [decodeInBody_eq, decodeUsage_eq]
  by_cases hbody : readsInBody fields = true
  · by_cases hextracted : readsExtracted fields = true
    · rw [if_pos hbody, if_pos hextracted]
      constructor
      · intro h
        exact .inl ⟨hbody, hextracted, (sameCounts_iff hbody).mp (h.same _ _ rfl rfl)⟩
      · rintro (⟨-, -, hcovered⟩ | ⟨hnot, -, -⟩)
        · refine ⟨rfl, ?_, fun _ => ⟨rfl, rfl⟩⟩
          rintro a b ha hb
          rw [← Option.some.inj ha, ← Option.some.inj hb]
          exact (sameCounts_iff hbody).mpr hcovered
        · exact absurd hbody (Bool.eq_false_iff.mp hnot)
    · -- only the body has a usage
      rw [if_pos hbody, if_neg hextracted]
      constructor
      · intro h
        exact absurd h.present (by simp)
      · rintro (⟨-, hreads, -⟩ | ⟨hnot, -, -⟩)
        · exact absurd hreads hextracted
        · exact absurd hbody (Bool.eq_false_iff.mp hnot)
  · by_cases hextracted : readsExtracted fields = true
    · rw [if_neg hbody, if_pos hextracted]
      constructor
      · intro h
        exact absurd h.present (by simp)
      · rintro (⟨hreads, -, -⟩ | ⟨-, hnot, -⟩)
        · exact absurd hreads hbody
        · exact absurd hextracted (Bool.eq_false_iff.mp hnot)
    · rw [if_neg hbody, if_neg hextracted]
      constructor
      · intro h
        refine .inr ⟨Bool.eq_false_iff.mpr hbody, Bool.eq_false_iff.mpr hextracted, fun hcounts => ?_⟩
        exact absurd (h.counts hcounts).1 (by simp)
      · rintro (⟨hreads, -, -⟩ | ⟨-, -, hcounts⟩)
        · exact absurd hreads hbody
        · exact ⟨rfl, fun _ _ h => absurd h.symm (Option.some_ne_none _), fun h => absurd h hcounts⟩

end Agreement

/-! ## In a body -/

section Body

variable {body fields : List (String × Json)}

/-- In a body that decodes without its usage, the usage is what its own object gives. -/
theorem bodyUsage_eq (hrest : (LlmResponse.decode (.object (remove "usage" body))).isSome = true)
    (husage : field body "usage" = some (.object fields)) :
    bodyUsage (.object body) = decodeInBody (.object fields) := by
  obtain ⟨response, hresponse⟩ := Option.isSome_iff_exists.mp hrest
  have hbody : (object body).asObject = some body := rfl
  have hobject : (object fields).isNull = false := rfl
  unfold bodyUsage fieldOption
  simp only [hbody, hresponse, husage, hobject, Option.bind_eq_bind, Option.bind_some,
    Option.elim_some, Bool.false_eq_true, if_false]
  cases decodeInBody (.object fields) <;> rfl

/-- The usage of a body and the one `extract_usage` returns agree exactly for the objects
that both take with nothing counted under a name one of them ignores, and for those that
neither takes because of their counts. -/
theorem usage_decoded_alike_iff
    (hrest : (LlmResponse.decode (.object (remove "usage" body))).isSome = true)
    (husage : field body "usage" = some (.object fields)) :
    DecodedAlike (bodyUsage (.object body)) (extractUsage (.object body)) fields ↔
      Alike fields := by
  rw [bodyUsage_eq hrest husage]
  unfold extractUsage
  rw [get_object, husage, Option.bind_some]
  exact decodedAlike_iff

theorem usage_decoded_alike_sample :
    DecodedAlike
      (bodyUsage (.object [("usage", .object [("prompt_tokens", .int 7), ("cost", .decimal "0.1")])]))
      (extractUsage
        (.object [("usage", .object [("prompt_tokens", .int 7), ("cost", .decimal "0.1")])]))
      [("prompt_tokens", .int 7), ("cost", .decimal "0.1")] := by
  refine (usage_decoded_alike_iff (by decide) rfl).mpr
    (.inl ⟨by decide, by decide, ?_⟩)
  exact ⟨fun h => absurd h (by simp), fun _ => rfl, fun _ => rfl, rfl, rfl, fun _ => rfl,
    fun _ => ⟨rfl, rfl⟩⟩

/-- A usage with Moonshot's count of cached tokens. -/
def moonshotUsage : List (String × Json) :=
  [("prompt_tokens", .int 10), ("completion_tokens", .int 2), ("total_tokens", .int 12),
    ("cached_tokens", .int 5)]

/-- Moonshot's cached tokens are no cached tokens of the body. -/
theorem moonshot_not_decoded_alike :
    ¬ DecodedAlike (bodyUsage (.object [("usage", .object moonshotUsage)]))
      (extractUsage (.object [("usage", .object moonshotUsage)])) moonshotUsage := by
  intro h
  have hbody : bodyUsage (.object [("usage", .object moonshotUsage)]) =
      some { promptTokens := 10, completionTokens := 2, totalTokens := 12 } := by decide
  have hextracted : extractUsage (.object [("usage", .object moonshotUsage)]) =
      some { promptTokens := 10, completionTokens := 2, totalTokens := 12,
             promptDetails := { cachedTokens := 5 } } := by decide
  exact absurd (h.same _ _ hbody hextracted).cached (by decide)

end Body

end Conduit.Transformers.OpenAiUsage
