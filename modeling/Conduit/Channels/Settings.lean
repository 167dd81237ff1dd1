import Conduit.Base.Decimal
import Conduit.Base.Json
import Mathlib

/-!
# Channel settings and their layers

`merge_settings_layers` folds four layers of settings, each over the ones
before it. There are three rules: an option or a text of a higher layer wins, a
list is extended, a flag is set by any layer. `layered` says this of a list of
layers, field by field, and `merge_loses_no_field_iff` says for which layers the
fold does it.
-/

namespace Conduit.Channels

open Base

/-! ## The data model -/

structure ModelMapping where
  fromModel : String := ""
  toModel : String := ""
deriving DecidableEq, Repr

structure HeaderEntry where
  key : String := ""
  value : String := ""

structure TransformOptions where
  forceArrayInstructions : Bool := false
  forceArrayInputs : Bool := false
  replaceDeveloperRoleWithSystem : Bool := false

structure OverrideMatch where
  path : String := ""
  eq : String := ""

structure OverrideOperation where
  op : String := ""
  path : String := ""
  fromKey : String := ""
  toKey : String := ""
  value : String := ""
  condition : String := ""
  itemMatch : Option OverrideMatch := none
  index : Option Int := none
  splat : Option Bool := none

structure ChannelRateLimit where
  rpm : Option Int := none
  tpm : Option Int := none
  maxConcurrent : Option Int := none
  queueSize : Option Int := none
  queueTimeoutMs : Option Int := none

structure RetryableErrorPattern where
  pattern : String := ""
  regex : Bool := false

structure AutoModelMappingRule where
  pattern : String := ""
  publicModelIdTemplate : String := ""
  createDraft : Bool := true
  developerTemplate : String := ""
  nameTemplate : String := ""
  groupTemplate : String := ""
  modelType : String := "chat"

structure ErrorResponseRewriteRule where
  statusCodes : List UInt16 := []
  bodyPattern : String := ""
  httpStatus : Option UInt16 := none
  message : Option String := none
  errorType : Option String := none
  code : Option String := none
  body : Option Json := none

structure ChannelSettings where
  managementAdapter : Option String := none
  billingCurrency : String := ""
  rechargeMultiplier : Option Decimal := none
  extraModelPrefix : String := ""
  autoTrimedModelPrefixes : List String := []
  modelMappings : List ModelMapping := []
  hideOriginalModels : Bool := false
  hideMappedModels : Bool := false
  lowercaseModelId : Bool := false
  overrideParameters : String := ""
  bodyOverrideOperations : List OverrideOperation := []
  overrideHeaders : List HeaderEntry := []
  headerOverrideOperations : List OverrideOperation := []
  proxy : Option Json := none
  transformOptions : TransformOptions := {}
  passThroughUserAgent : Option Bool := none
  passThroughBody : Option Bool := none
  rateLimit : Option ChannelRateLimit := none
  retryableStatusCodes : List Int := []
  retryableErrorPatterns : List RetryableErrorPattern := []
  autoModelMappingRules : List AutoModelMappingRule := []
  errorResponseRewriteRules : List ErrorResponseRewriteRule := []

/-! ## The three rules -/

section Rules

variable {α : Type}

/-- `Some` wins. -/
def someWins (base override' : Option α) : Option α :=
  if override'.isSome then override' else base

/-- Non-empty text wins. -/
def textWins (base override' : String) : String :=
  if override' ≠ "" then override' else base

/-- A later layer extends the list. -/
def extended (base override' : List α) : List α :=
  if override'.isEmpty then base else base ++ override'

@[simp] theorem someWins_eq (base override' : Option α) : someWins base override' = override'.or base := by
  cases override' <;> rfl

@[simp] theorem extended_eq (base override' : List α) : extended base override' = base ++ override' := by
  cases override' with
  | nil => exact (List.append_nil base).symm
  | cons value override' => rfl

@[simp] theorem textWins_empty (base : String) : textWins base "" = base := rfl

@[simp] theorem empty_textWins (override' : String) : textWins "" override' = override' := by
  unfold textWins
  by_cases h : override' = ""
  · rw [if_neg (by simpa using h), h]
  · rw [if_pos h]

theorem textWins_assoc (first second third : String) :
    textWins (textWins first second) third = textWins first (textWins second third) := by
  unfold textWins
  by_cases hthird : third = ""
  · simp [hthird]
  · simp [hthird]

end Rules

/-! ## Merging -/

def TransformOptions.mergeInto (base override' : TransformOptions) : TransformOptions where
  forceArrayInstructions := base.forceArrayInstructions || override'.forceArrayInstructions
  forceArrayInputs := base.forceArrayInputs || override'.forceArrayInputs
  replaceDeveloperRoleWithSystem :=
    base.replaceDeveloperRoleWithSystem || override'.replaceDeveloperRoleWithSystem

/-- `merge_into`: the rules for discovered models and for error responses stay those of the
base. -/
def mergeInto (base override' : ChannelSettings) : ChannelSettings :=
  { base with
    managementAdapter := someWins base.managementAdapter override'.managementAdapter
    billingCurrency := textWins base.billingCurrency override'.billingCurrency
    rechargeMultiplier := someWins base.rechargeMultiplier override'.rechargeMultiplier
    extraModelPrefix := textWins base.extraModelPrefix override'.extraModelPrefix
    overrideParameters := textWins base.overrideParameters override'.overrideParameters
    autoTrimedModelPrefixes :=
      extended base.autoTrimedModelPrefixes override'.autoTrimedModelPrefixes
    modelMappings := extended base.modelMappings override'.modelMappings
    bodyOverrideOperations := extended base.bodyOverrideOperations override'.bodyOverrideOperations
    headerOverrideOperations :=
      extended base.headerOverrideOperations override'.headerOverrideOperations
    overrideHeaders := extended base.overrideHeaders override'.overrideHeaders
    retryableStatusCodes := extended base.retryableStatusCodes override'.retryableStatusCodes
    retryableErrorPatterns := extended base.retryableErrorPatterns override'.retryableErrorPatterns
    hideOriginalModels := base.hideOriginalModels || override'.hideOriginalModels
    hideMappedModels := base.hideMappedModels || override'.hideMappedModels
    lowercaseModelId := base.lowercaseModelId || override'.lowercaseModelId
    transformOptions := base.transformOptions.mergeInto override'.transformOptions
    proxy := someWins base.proxy override'.proxy
    passThroughUserAgent := someWins base.passThroughUserAgent override'.passThroughUserAgent
    passThroughBody := someWins base.passThroughBody override'.passThroughBody
    rateLimit := someWins base.rateLimit override'.rateLimit }

/-- `merge_settings_layers`: system, model, channel, request. -/
def mergeSettingsLayers (systemDefault modelSetting channelSetting requestOverride : ChannelSettings) :
    ChannelSettings :=
  mergeInto (mergeInto (mergeInto systemDefault modelSetting) channelSetting) requestOverride

/-! ## What the layers come to -/

section Layers

variable {α : Type} (layers : List ChannelSettings)

/-- The value of the highest layer that sets the field. -/
def highest (field : ChannelSettings → Option α) : Option α := layers.reverse.findSome? field

def highestText (field : ChannelSettings → String) : String :=
  ((layers.reverse.map field).find? fun text => text ≠ "").getD ""

/-- Every option and text is that of the highest layer that sets it, every list the lists of
the layers in their order, every flag the flag of any layer. -/
def layered : ChannelSettings where
  managementAdapter := highest layers (·.managementAdapter)
  billingCurrency := highestText layers (·.billingCurrency)
  rechargeMultiplier := highest layers (·.rechargeMultiplier)
  extraModelPrefix := highestText layers (·.extraModelPrefix)
  autoTrimedModelPrefixes := layers.flatMap (·.autoTrimedModelPrefixes)
  modelMappings := layers.flatMap (·.modelMappings)
  hideOriginalModels := layers.any (·.hideOriginalModels)
  hideMappedModels := layers.any (·.hideMappedModels)
  lowercaseModelId := layers.any (·.lowercaseModelId)
  overrideParameters := highestText layers (·.overrideParameters)
  bodyOverrideOperations := layers.flatMap (·.bodyOverrideOperations)
  overrideHeaders := layers.flatMap (·.overrideHeaders)
  headerOverrideOperations := layers.flatMap (·.headerOverrideOperations)
  proxy := highest layers (·.proxy)
  transformOptions :=
    { forceArrayInstructions := layers.any (·.transformOptions.forceArrayInstructions)
      forceArrayInputs := layers.any (·.transformOptions.forceArrayInputs)
      replaceDeveloperRoleWithSystem :=
        layers.any (·.transformOptions.replaceDeveloperRoleWithSystem) }
  passThroughUserAgent := highest layers (·.passThroughUserAgent)
  passThroughBody := highest layers (·.passThroughBody)
  rateLimit := highest layers (·.rateLimit)
  retryableStatusCodes := layers.flatMap (·.retryableStatusCodes)
  retryableErrorPatterns := layers.flatMap (·.retryableErrorPatterns)
  autoModelMappingRules := layers.flatMap (·.autoModelMappingRules)
  errorResponseRewriteRules := layers.flatMap (·.errorResponseRewriteRules)

end Layers

/-- A layer alone is unchanged, the grouping of the layers does not matter, and the merged
settings are what the layers come to. -/
structure LosesNoField (a b c d : ChannelSettings) : Prop where
  identity : mergeSettingsLayers a {} {} {} = a ∧ mergeSettingsLayers {} b {} {} = b ∧
    mergeSettingsLayers {} {} c {} = c ∧ mergeSettingsLayers {} {} {} d = d
  associative :
    mergeSettingsLayers (mergeSettingsLayers a b {} {}) c {} {} = mergeSettingsLayers a b c {} ∧
      mergeSettingsLayers a (mergeSettingsLayers b c {} {}) {} {} = mergeSettingsLayers a b c {}
  fields : mergeSettingsLayers a b c d = layered [a, b, c, d]

/-- The layer has no rules for discovered models and none for error responses. -/
def HasNoRules (layer : ChannelSettings) : Prop :=
  layer.autoModelMappingRules = [] ∧ layer.errorResponseRewriteRules = []

/-! ## The laws of the merge -/

theorem mergeInto_default (base : ChannelSettings) : mergeInto base {} = base := by
  unfold mergeInto TransformOptions.mergeInto
  simp

/-- Over the defaults a layer keeps everything but its rules. -/
theorem default_mergeInto (layer : ChannelSettings) :
    mergeInto {} layer = { layer with autoModelMappingRules := [], errorResponseRewriteRules := [] } := by
  unfold mergeInto TransformOptions.mergeInto
  simp

theorem mergeInto_assoc (a b c : ChannelSettings) :
    mergeInto (mergeInto a b) c = mergeInto a (mergeInto b c) := by
  unfold mergeInto TransformOptions.mergeInto
  simp [textWins_assoc, Option.or_assoc, Bool.or_assoc]

theorem highest_eq {α : Type} (a b c d : ChannelSettings) (field : ChannelSettings → Option α) :
    highest [a, b, c, d] field = (field d).or ((field c).or ((field b).or (field a))) := by
  unfold highest
  show List.findSome? field [d, c, b, a] = _
  simp only [List.findSome?_cons, List.findSome?_nil]
  cases field d <;> cases field c <;> cases field b <;> cases field a <;> rfl

theorem highestText_eq (a b c d : ChannelSettings) (field : ChannelSettings → String) :
    highestText [a, b, c, d] field =
      textWins (textWins (textWins (field a) (field b)) (field c)) (field d) := by
  unfold highestText textWins
  show (List.find? _ [field d, field c, field b, field a]).getD "" = _
  by_cases hd : field d = ""
  · by_cases hc : field c = ""
    · by_cases hb : field b = ""
      · by_cases ha : field a = "" <;> simp [hd, hc, hb, ha]
      · simp [hd, hc, hb]
    · simp [hd, hc]
  · simp [hd]

/-- The merge is what the layers come to, but for the rules, which are those of the system. -/
theorem mergeSettingsLayers_eq (a b c d : ChannelSettings) :
    mergeSettingsLayers a b c d =
      { layered [a, b, c, d] with
        autoModelMappingRules := a.autoModelMappingRules
        errorResponseRewriteRules := a.errorResponseRewriteRules } := by
  unfold mergeSettingsLayers layered
  simp [mergeInto, TransformOptions.mergeInto, highest_eq, highestText_eq, Bool.or_assoc]

/-- A layer merged only with the defaults, in each of the positions. -/
theorem merge_alone (layer : ChannelSettings) :
    mergeSettingsLayers layer {} {} {} = layer ∧
      mergeSettingsLayers {} layer {} {} = mergeInto {} layer ∧
      mergeSettingsLayers {} {} layer {} = mergeInto {} layer ∧
      mergeSettingsLayers {} {} {} layer = mergeInto {} layer := by
  unfold mergeSettingsLayers
  simp only [mergeInto_default, and_self]

theorem default_mergeInto_iff (layer : ChannelSettings) : mergeInto {} layer = layer ↔ HasNoRules layer := by
  rw [default_mergeInto]
  constructor
  · intro heq
    exact ⟨(congrArg ChannelSettings.autoModelMappingRules heq).symm,
      (congrArg ChannelSettings.errorResponseRewriteRules heq).symm⟩
  · rintro ⟨hauto, herror⟩
    rw [← hauto, ← herror]

theorem merge_loses_no_field_iff (a b c d : ChannelSettings) :
    LosesNoField a b c d ↔ HasNoRules b ∧ HasNoRules c ∧ HasNoRules d := by
  constructor
  · intro h
    obtain ⟨-, hb, hc, hd⟩ := h.identity
    rw [(merge_alone b).2.1] at hb
    rw [(merge_alone c).2.2.1] at hc
    rw [(merge_alone d).2.2.2] at hd
    exact ⟨(default_mergeInto_iff b).mp hb, (default_mergeInto_iff c).mp hc,
      (default_mergeInto_iff d).mp hd⟩
  · rintro ⟨hb, hc, hd⟩
    refine ⟨⟨(merge_alone a).1, ?_, ?_, ?_⟩, ?_, ?_⟩
    · rw [(merge_alone b).2.1, (default_mergeInto_iff b).mpr hb]
    · rw [(merge_alone c).2.2.1, (default_mergeInto_iff c).mpr hc]
    · rw [(merge_alone d).2.2.2, (default_mergeInto_iff d).mpr hd]
    · unfold mergeSettingsLayers
      simp only [mergeInto_default, mergeInto_assoc, and_self]
    · rw [mergeSettingsLayers_eq]
      -- only the rules of the system layer are there
      have hauto : (layered [a, b, c, d]).autoModelMappingRules = a.autoModelMappingRules := by
        simp [layered, hb.1, hc.1, hd.1]
      have herror : (layered [a, b, c, d]).errorResponseRewriteRules =
          a.errorResponseRewriteRules := by
        simp [layered, hb.2, hc.2, hd.2]
      rw [← hauto, ← herror]

/-- The rules for error responses of a channel are dropped. -/
theorem rewrite_rules_dropped :
    ¬ LosesNoField {} {} { errorResponseRewriteRules := [{ statusCodes := [500] }] } {} := by
  intro h
  have hrules := congrArg ChannelSettings.errorResponseRewriteRules h.identity.2.2.1
  exact absurd (congrArg List.length hrules) (by decide)

end Conduit.Channels
