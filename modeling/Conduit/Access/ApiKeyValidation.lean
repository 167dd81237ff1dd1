import Conduit.Base.Json
import Conduit.Base.Text
import Mathlib

/-!
# Validated API keys

A key that authenticates gets the access map of its project, cut down to the
models and channels its active profile allows. What is left goes onto the
request as metadata: the names of the models joined by commas, the channels of
each model, and the channels of the whole project. The model check reads the
first of them.
-/

namespace Conduit.Access

open Base Base.Text

/-! ## The access map -/

/-- `routes_by_model`: a map of models to sets of channels, both in order. -/
structure RoutesByModel where
  entries : List (String × List Int64)
  sorted : (entries.map Prod.fst).Pairwise (· < ·)
  channelsSorted : ∀ entry ∈ entries, entry.2.Pairwise fun a b => a.toInt < b.toInt

/-! ## Profiles -/

/-- A profile of a key; dates are points in time. -/
structure APIKeyProfile where
  name : String
  channelIds : List Int64
  channelTags : List String
  channelTagsMatchMode : Option String
  modelIds : List String
  validFrom : Option Int
  validUntil : Option Int
deriving DecidableEq

structure APIKeyProfiles where
  activeProfile : String
  profiles : List APIKeyProfile
deriving DecidableEq

inductive ApiKeyValidationError
  | invalid
  | internal
  | quotaExceeded
deriving DecidableEq, Repr

/-- No selection is no profile; a selection has to resolve. -/
def APIKeyProfiles.active (profiles : APIKeyProfiles) :
    Except ApiKeyValidationError (Option APIKeyProfile) :=
  if profiles.activeProfile = "" then .ok none
  else
    match profiles.profiles.find? fun profile => profile.name = profiles.activeProfile with
    | some profile => .ok (some profile)
    | none => .error .invalid

def APIKeyProfile.outsideWindow (profile : APIKeyProfile) (now : Int) : Bool :=
  profile.validFrom.any (fun start => now < start) || profile.validUntil.any (fun stop => stop ≤ now)

/-! ## The grant -/

/-- `key_models`: a profile without models allows every model. -/
def allowsModel (active : Option APIKeyProfile) (model : String) : Bool :=
  active.all fun profile => profile.modelIds.isEmpty || profile.modelIds.contains model

/-- `key_channels`: no channels allow every channel. -/
def allowsChannel (active : Option APIKeyProfile) (channel : Int64) : Bool :=
  active.all fun profile => profile.channelIds.isEmpty || profile.channelIds.contains channel

/-- The channels of each model that is left with one. -/
def channelsByModel (active : Option APIKeyProfile) (routes : RoutesByModel) :
    List (String × List Int64) :=
  (routes.entries.filter fun entry => allowsModel active entry.1).filterMap fun entry =>
    let effective := entry.2.filter (allowsChannel active)
    if effective.isEmpty then none else some (entry.1, effective)

/-- The channels of all models, once each and in order. -/
def projectChannelIds (routes : RoutesByModel) : List Int64 :=
  ((routes.entries.flatMap Prod.snd).eraseDups).mergeSort fun a b => a.toInt ≤ b.toInt

/-- What the request learns of the models and channels of its key. -/
structure ValidatedApiKeyMetadata where
  allowedModels : String
  keyChannelIds : List Int64
  keyChannelTags : List String
  keyChannelTagsMatchMode : String
  projectChannelIds : List Int64
  projectChannelsByModel : List (String × List Int64)
  projectChannelTags : List String
  projectChannelTagsMatchMode : String
deriving DecidableEq

/-- The answer for an active profile whose grant is not empty. -/
def ValidatedApiKeyMetadata.of (active : Option APIKeyProfile) (routes : RoutesByModel) :
    ValidatedApiKeyMetadata where
  allowedModels := joinWith ',' ((channelsByModel active routes).map Prod.fst)
  keyChannelIds := (active.map (·.channelIds)).getD []
  keyChannelTags := (active.map (·.channelTags)).getD []
  keyChannelTagsMatchMode := (active.bind (·.channelTagsMatchMode)).getD ""
  projectChannelIds := Access.projectChannelIds routes
  projectChannelsByModel := channelsByModel active routes
  projectChannelTags := []
  projectChannelTagsMatchMode := ""

/-- `validate`, after the key has been found and its profiles have been
checked. `checkQuota` is the quota of a profile. -/
def validate (now : Int) (checkQuota : APIKeyProfile → Except ApiKeyValidationError Unit)
    (profiles : APIKeyProfiles) (routes : RoutesByModel) :
    Except ApiKeyValidationError ValidatedApiKeyMetadata :=
  match profiles.active with
  | .error e => .error e
  | .ok active =>
      if active.any fun profile => profile.outsideWindow now then .error .invalid
      else if (channelsByModel active routes).isEmpty then .error .invalid
      else
        match active.elim (.ok ()) checkQuota with
        | .error e => .error e
        | .ok () => .ok (.of active routes)

/-! ## On the request -/

def channelArray (ids : List Int64) : Json := .array (ids.map fun id => .int id.toInt)

def stringArray (values : List String) : Json := .array (values.map .string)

/-- The metadata of a request. What is stamped replaces what was there. -/
def stampApiKey (validated : ValidatedApiKeyMetadata) (metadata : List (String × Json)) :
    List (String × Json) :=
  [("api_key_allowed_models", .string validated.allowedModels),
    ("api_key_channel_ids", channelArray validated.keyChannelIds),
    ("api_key_channel_tags", stringArray validated.keyChannelTags),
    ("api_key_channel_tags_match_mode", .string validated.keyChannelTagsMatchMode),
    ("project_channel_ids", channelArray validated.projectChannelIds),
    ("project_channels_by_model", .object (validated.projectChannelsByModel.map fun entry =>
      (entry.1, channelArray entry.2))),
    ("project_channel_tags", stringArray validated.projectChannelTags),
    ("project_channel_tags_match_mode", .string validated.projectChannelTagsMatchMode)] ++ metadata

/-- The pipeline context takes over strings and numbers. -/
def contextMetadata (metadata : List (String × Json)) (key : String) : Option String :=
  match Json.field metadata key with
  | some (.string value) => some value
  | some (.int value) => some (toString value)
  | some (.decimal text) => some text
  | _ => none

/-- `CheckModelAccessMiddleware`: the errors are invalid requests. -/
def checkModelAccess (metadata : List (String × Json)) (model : Option String) :
    Except String Unit :=
  match model with
  | none => .error "request model is empty"
  | some model =>
      if model = "" then .error "request model is empty"
      else
        let allowedModels := (contextMetadata metadata "api_key_allowed_models").getD ""
        if allowedModels = "" then .ok ()
        else if (splitOn ',' allowedModels).any fun piece => trim piece = model then .ok ()
        else .error ("model access denied: " ++ model)

/-! ## What a grant holds -/

/-- A model and a channel the project and the key both grant. -/
def Granted (active : Option APIKeyProfile) (routes : RoutesByModel) (model : String)
    (channel : Int64) : Prop :=
  ∃ channels : List Int64, (model, channels) ∈ routes.entries ∧ channel ∈ channels ∧
    allowsModel active model = true ∧ allowsChannel active channel = true

/-- The models that are granted with a channel. -/
def grantedModels (active : Option APIKeyProfile) (routes : RoutesByModel) : List String :=
  (channelsByModel active routes).map Prod.fst

theorem mem_channelsByModel {active : Option APIKeyProfile} {routes : RoutesByModel}
    {model : String} {effective : List Int64} (h : (model, effective) ∈ channelsByModel active routes) :
    effective ≠ [] ∧ ∀ channel ∈ effective, Granted active routes model channel := by
  unfold channelsByModel at h
  obtain ⟨entry, hentry, hsome⟩ := List.mem_filterMap.mp h
  obtain ⟨hmem, hmodel⟩ := List.mem_filter.mp hentry
  by_cases hempty : (entry.2.filter (allowsChannel active)).isEmpty = true
  · rw [if_pos hempty] at hsome
    exact absurd hsome (by simp)
  · rw [if_neg hempty] at hsome
    obtain ⟨rfl, rfl⟩ := Prod.mk.inj (Option.some.inj hsome)
    refine ⟨by simpa using hempty, fun channel hchannel => ?_⟩
    obtain ⟨hin, hallowed⟩ := List.mem_filter.mp hchannel
    exact ⟨entry.2, hmem, hin, hmodel, hallowed⟩

/-- A granted model is among the models that are joined. -/
theorem Granted.mem_grantedModels {active : Option APIKeyProfile} {routes : RoutesByModel}
    {model : String} {channel : Int64} (h : Granted active routes model channel) :
    model ∈ grantedModels active routes := by
  obtain ⟨channels, hentry, hchannel, hmodel, hallowed⟩ := h
  have hne : ¬ (channels.filter (allowsChannel active)).isEmpty = true := by
    rw [List.isEmpty_iff]
    exact List.ne_nil_of_mem (List.mem_filter.mpr ⟨hchannel, hallowed⟩)
  refine List.mem_map.mpr ⟨(model, channels.filter (allowsChannel active)), ?_, rfl⟩
  exact List.mem_filterMap.mpr ⟨(model, channels), List.mem_filter.mpr ⟨hentry, hmodel⟩, if_neg hne⟩

/-- Every channel of the access map is a channel of the project. -/
theorem Granted.mem_projectChannelIds {active : Option APIKeyProfile} {routes : RoutesByModel}
    {model : String} {channel : Int64} (h : Granted active routes model channel) :
    channel ∈ projectChannelIds routes := by
  obtain ⟨channels, hentry, hchannel, -, -⟩ := h
  unfold projectChannelIds
  rw [List.mem_mergeSort, List.mem_eraseDups, List.mem_flatMap]
  exact ⟨_, hentry, hchannel⟩

/-- A key that validates has an active profile or none, a grant that is not
empty, and the answer made of the two. -/
theorem validate_ok {now : Int} {checkQuota : APIKeyProfile → Except ApiKeyValidationError Unit}
    {profiles : APIKeyProfiles} {routes : RoutesByModel} {validated : ValidatedApiKeyMetadata}
    (h : validate now checkQuota profiles routes = .ok validated) :
    ∃ active, profiles.active = .ok active ∧ grantedModels active routes ≠ [] ∧
      validated = .of active routes := by
  unfold validate at h
  cases hactive : profiles.active with
  | error e => simp [hactive] at h
  | ok active =>
      rw [hactive] at h
      dsimp only at h
      by_cases hwindow : (active.any fun profile => profile.outsideWindow now) = true
      · simp [hwindow] at h
      · rw [if_neg hwindow] at h
        by_cases hempty : (channelsByModel active routes).isEmpty = true
        · simp [hempty] at h
        · rw [if_neg hempty] at h
          refine ⟨active, rfl, fun hnil => hempty ?_, ?_⟩
          · exact List.isEmpty_iff.mpr (List.map_eq_nil_iff.mp hnil)
          · cases hchecked : active.elim (.ok ()) checkQuota with
            | error e => simp [hchecked] at h
            | ok _ =>
                rw [hchecked] at h
                exact (Except.ok.inj h).symm

end Conduit.Access
