import Conduit.Access.ApiKeyValidation
import Conduit.Orchestrator.Bridge

/-!
# The scope of a key

A key may reach a channel only for a model that its project routes to the
channel and that the key itself grants. The grant travels as metadata: the
model check reads the joined names of the models, the selector reads the
channels of the requested model, or those of the whole project when the model
has none. The two readings part where a piece of the joined names is the
requested model and no granted model is, where the check sees the name without
its reasoning effort, and where the metadata got lost.
-/

namespace Conduit.Access

open Base Base.Text
open Orchestrator

/-! ## Requests of a key -/

/-- What a selection reads besides the request. -/
structure SelectionEnvironment (Settings σ : Type) where
  quoted : String → String
  engine : Pipeline.RegexEngine
  reader : ValueReader
  channels : List (ChannelSnapshot Settings)
  associations : AssociationSource
  nowRfc3339 : String
  quotaProvider : Option ProviderQuotaStatus
  quotaSettings : QuotaEnforcementSettings
  loadBalance : Option (LoadBalanceStage Settings σ)

def SelectionEnvironment.selectFor {Settings σ : Type} (env : SelectionEnvironment Settings σ)
    (req : ProfiledRequest) :
    Except SelectCandidatesError
      (List (ChannelModelsCandidate Settings) × SelectionDiagnostics) :=
  selectCandidates env.quoted env.engine env.reader req env.channels env.associations
    (.fromRequest req) env.nowRfc3339 env.quotaProvider env.quotaSettings env.loadBalance

/-- A request before the key is stamped onto it. -/
structure KeyRequest where
  route : OpenAiRoute
  metadata : List (String × Json)
  content : RequestContent

def KeyRequest.model (request : KeyRequest) : String := request.content.model.getD ""

/-- The request that gets to the model check, when reasoning efforts are split
off or not. -/
def KeyRequest.checked (request : KeyRequest) (splitEfforts : Bool) : RequestContent :=
  (AutoReasoningEffort.onInboundLlmRequest splitEfforts request.content).1

def KeyRequest.checkedModel (request : KeyRequest) (splitEfforts : Bool) : String :=
  (request.checked splitEfforts).model.getD ""

/-- The request the selector is given. -/
def KeyRequest.candidateRequest (request : KeyRequest) (validated : ValidatedApiKeyMetadata) :
    ProfiledRequest :=
  buildCandidateRequest (inboundRequest request.route
    (stampApiKey validated request.metadata) request.content)

section Key

variable (now : Int) (checkQuota : APIKeyProfile → Except ApiKeyValidationError Unit)
  (profiles : APIKeyProfiles) (routes : RoutesByModel) (splitEfforts : Bool) (request : KeyRequest)

/-- The key authenticates, the model check passes, and in some environment a
candidate of the channel is selected. -/
def Reaches (channelId : String) : Prop :=
  ∃ validated, validate now checkQuota profiles routes = .ok validated ∧
    checkModelAccess (stampApiKey validated request.metadata) (request.checked splitEfforts).model =
      .ok () ∧
    ∃ (Settings σ : Type) (env : SelectionEnvironment Settings σ)
      (selected : List (ChannelModelsCandidate Settings)) (diagnostics : SelectionDiagnostics),
      env.selectFor (request.candidateRequest validated) = .ok (selected, diagnostics) ∧
        ∃ c ∈ selected, c.channelId = channelId

/-- Every channel a request reaches is granted for the requested model. -/
def Confined : Prop :=
  ∀ channelId, Reaches now checkQuota profiles routes splitEfforts request channelId →
    ∃ active, profiles.active = .ok active ∧
      ∃ channel : Int64, toString channel.toInt = channelId ∧
        Granted active routes request.model channel

end Key

/-! ## The model check -/

/-- What the check accepts, given the names that were joined: everything when
the one name is empty, else every piece between commas. -/
def PassesFor (names : List String) (model : String) : Prop :=
  model ≠ "" ∧ (names = [""] ∨ ∃ name ∈ names, ∃ piece ∈ splitOn ',' name, trim piece = model)

theorem contextMetadata_allowedModels (validated : ValidatedApiKeyMetadata)
    (metadata : List (String × Json)) :
    contextMetadata (stampApiKey validated metadata) "api_key_allowed_models" =
      some validated.allowedModels := rfl

theorem checkModelAccess_ok {active : Option APIKeyProfile} {routes : RoutesByModel}
    {metadata : List (String × Json)} {model : Option String}
    (hgrant : grantedModels active routes ≠ []) :
    checkModelAccess (stampApiKey (.of active routes) metadata) model = .ok () ↔
      PassesFor (grantedModels active routes) (model.getD "") := by
  have hempty := joinWith_eq_empty ',' hgrant
  have hsplit := splitOn_joinWith ',' hgrant
  unfold checkModelAccess PassesFor
  rw [contextMetadata_allowedModels]
  cases model with
  | none => simp
  | some model =>
      have hallowed : (ValidatedApiKeyMetadata.of active routes).allowedModels =
          joinWith ',' (grantedModels active routes) := rfl
      simp only [Option.getD_some, hallowed, hempty, hsplit]
      by_cases hmodel : model = ""
      · simp [hmodel]
      · by_cases hone : grantedModels active routes = [""]
        · simp [hmodel, hone]
        · rw [if_neg hmodel, if_neg hone]
          by_cases hpiece : ((grantedModels active routes).flatMap (splitOn ',')).any fun piece =>
              trim piece = model
          · rw [if_pos hpiece]
            refine iff_of_true rfl ⟨hmodel, .inr ?_⟩
            simpa using hpiece
          · rw [if_neg hpiece]
            refine iff_of_false (by simp) fun h => hpiece ?_
            rcases h.2 with h | h
            · exact absurd h hone
            · simpa using h

/-! ## The lists the selector sees -/

/-- A reader of channel ids, over a list of them. -/
theorem filterMap_channelIds {read : Json → Option String}
    (hread : ∀ id : Int64, read (.int id.toInt) = some (toString id.toInt)) (ids : List Int64) :
    (ids.map fun id => Json.int id.toInt).filterMap read = ids.map fun id => toString id.toInt := by
  induction ids with
  | nil => rfl
  | cons id ids ih =>
      rw [List.map_cons, List.map_cons, ← ih, List.filterMap_cons, hread]

theorem asI64_int64 (id : Int64) : (Json.int id.toInt).asI64 = some id.toInt := by
  have hlower := id.le_toInt
  have hupper := id.toInt_lt
  cases hid : id.toInt with
  | ofNat n =>
      rw [hid] at hupper
      have hn : n < 9223372036854775808 := by
        have hcast : Int.ofNat n = (n : Int) := rfl
        omega
      simp [Json.asI64, hn]
  | negSucc n =>
      rw [hid] at hlower
      have hn : n < 9223372036854775808 := by omega
      simp [Json.asI64, hn]

/-- Channel lists are read back as the decimal texts of their ids. -/
theorem metadataStringList_channelArray {metadata : List (String × Json)} {key : String}
    {ids : List Int64} (h : Json.field metadata key = some (channelArray ids)) :
    metadataStringList metadata key = ids.map fun id => toString id.toInt := by
  unfold metadataStringList
  rw [h]
  refine filterMap_channelIds (fun id => ?_) ids
  rw [asI64_int64]
  rfl

/-- What the stamped map says of the requested model. -/
theorem metadataModelChannelList_stamped (validated : ValidatedApiKeyMetadata)
    (metadata : List (String × Json)) (model : String) :
    metadataModelChannelList (stampApiKey validated metadata) "project_channels_by_model" model =
      (Json.field (validated.projectChannelsByModel.map fun entry =>
          (entry.1, channelArray entry.2)) model).bind fun values =>
        values.asArray.map fun values => values.filterMap channelText := rfl

section Stamped

variable {request : KeyRequest} (hcarries : request.route.carriesMetadata = true)
  (validated : ValidatedApiKeyMetadata)

include hcarries

theorem keyChannelIds_candidateRequest :
    (request.candidateRequest validated).keyChannelIds =
      validated.keyChannelIds.map fun id => toString id.toInt := by
  unfold KeyRequest.candidateRequest buildCandidateRequest inboundRequest
  rw [if_pos hcarries]
  exact metadataStringList_channelArray rfl

/-- The requested model has channels of its own. -/
theorem projectChannelIds_of_mem
    (hmem : request.model ∈ validated.projectChannelsByModel.map Prod.fst) :
    ∃ effective, (request.model, effective) ∈ validated.projectChannelsByModel ∧
      (request.candidateRequest validated).projectChannelIds =
        effective.map fun id => toString id.toInt := by
  cases hfield : Json.field (validated.projectChannelsByModel.map fun entry =>
      (entry.1, channelArray entry.2)) request.model with
  | none =>
      have hnot := Json.field_eq_none.mp hfield
      rw [List.map_map] at hnot
      exact absurd hmem hnot
  | some values =>
      obtain ⟨entry, hentry, heq⟩ := List.mem_map.mp (Json.mem_of_field hfield)
      obtain ⟨hmodel, hvalues⟩ := Prod.mk.inj heq
      refine ⟨entry.2, by rwa [← hmodel], ?_⟩
      unfold KeyRequest.candidateRequest buildCandidateRequest inboundRequest
      rw [if_pos hcarries]
      dsimp only
      rw [metadataModelChannelList_stamped]
      show (((Json.field _ request.model).bind _).getD _) = _
      rw [hfield, ← hvalues]
      exact filterMap_channelIds (fun _ => rfl) entry.2

/-- The requested model has none: the selector falls back on the project's. -/
theorem projectChannelIds_of_notMem
    (hmem : request.model ∉ validated.projectChannelsByModel.map Prod.fst) :
    (request.candidateRequest validated).projectChannelIds =
      validated.projectChannelIds.map fun id => toString id.toInt := by
  have hfield : Json.field (validated.projectChannelsByModel.map fun entry =>
      (entry.1, channelArray entry.2)) request.model = none := by
    rw [Json.field_eq_none, List.map_map]
    exact hmem
  unfold KeyRequest.candidateRequest buildCandidateRequest inboundRequest
  rw [if_pos hcarries]
  dsimp only
  rw [metadataModelChannelList_stamped]
  show (((Json.field _ request.model).bind _).getD _) = _
  rw [hfield]
  exact metadataStringList_channelArray rfl

theorem projectChannelTags_candidateRequest (active : Option APIKeyProfile)
    (routes : RoutesByModel) :
    (request.candidateRequest (.of active routes)).projectChannelTags = [] := by
  unfold KeyRequest.candidateRequest buildCandidateRequest inboundRequest
  rw [if_pos hcarries]
  rfl

end Stamped

/-- A route that loses the metadata leaves the selector without any list. -/
theorem lists_of_lost {request : KeyRequest} (hlost : request.route.carriesMetadata = false)
    (validated : ValidatedApiKeyMetadata) :
    (request.candidateRequest validated).projectChannelIds = [] ∧
      (request.candidateRequest validated).projectChannelTags = [] ∧
      (request.candidateRequest validated).keyChannelIds = [] := by
  unfold KeyRequest.candidateRequest buildCandidateRequest inboundRequest
  rw [if_neg (by simp [hlost])]
  exact ⟨rfl, rfl, rfl⟩

/-! ## An environment with one channel -/

/-- A tag list that matches the tags asked for. -/
def matchingTags (allowedTags : List String) (mode : String) : List String :=
  if mode = "none" then [] else allowedTags

theorem matchChannelTags_matchingTags {allowedTags : List String} (h : allowedTags ≠ [])
    (mode : String) : matchChannelTags allowedTags mode (matchingTags allowedTags mode) = true := by
  unfold matchChannelTags matchingTags
  by_cases hall : mode = "all"
  · simp [hall]
  · by_cases hnone : mode = "none"
    · simp [hnone]
    · obtain ⟨tag, htag⟩ := List.exists_mem_of_ne_nil allowedTags h
      rw [if_neg hall, if_neg hnone, if_neg hnone]
      exact List.any_eq_true.mpr ⟨tag, htag, by simpa using htag⟩

/-- The channel of a given id that offers the requested model. -/
def loneChannel (req : ProfiledRequest) (channelId : String) : ChannelSnapshot Unit where
  id := channelId
  name := "channel"
  orderingWeight := 0
  tags := matchingTags req.keyChannelTags req.keyChannelTagsMatchMode
  modelEntries := ⟨[(req.model, ⟨req.model, req.model, .direct⟩)], by simp⟩
  resolvedEndpoints := []
  credentialKeyIdentity := ""
  policies := ""
  channelType := "openai"
  baseUrl := none
  activeCredential := none
  enabledCredentials := []
  settings := none

/-- No associations, and unknown models fall back to the channels. -/
def loneEnvironment (req : ProfiledRequest) (channelId : String) :
    SelectionEnvironment Unit Unit where
  quoted := id
  engine := fun _ => none
  reader := ⟨fun _ => 0, fun _ => none⟩
  channels := [loneChannel req channelId]
  associations := ⟨fun _ => none, ⟨true⟩⟩
  nowRfc3339 := ""
  quotaProvider := none
  quotaSettings := .default
  loadBalance := none

/-- A lone candidate without a stream policy passes what its profile lets pass. -/
theorem filterPipeline_lone {ctx : FilterContext} {c : ChannelModelsCandidate Unit}
    (hprofile : c ∈ (profileStages id ctx [c]).kept) (hpolicy : c.policies = "") :
    (filterPipeline id ctx [c]).kept = [c] := by
  refine (narrowing_filterPipeline id ctx).eq_singleton ?_
  have hkept := (narrowing_profileStages id ctx).eq_singleton hprofile
  have hnative : (nativeToolsCapability id ctx [c]).kept = [c] := by
    unfold nativeToolsCapability
    cases activeFamily ctx with
    | none => rfl
    | some family =>
        by_cases hsupports : c.supports family = true
        · simp [hsupports]
        · simp [hsupports]
  have hunlimited : c.streamPolicy = "unlimited" := by
    unfold ChannelModelsCandidate.streamPolicy
    rw [if_pos hpolicy]
  show c ∈ (streamPolicy ctx (nativeToolsCapability id ctx (profileStages id ctx [c]).kept).kept).kept
  rw [hkept, hnative]
  unfold streamPolicy
  by_cases hstream : ctx.stream = true
  · simp [hstream, hunlimited]
  · simp [hstream, hunlimited]

theorem selectFor_lone {req : ProfiledRequest} {channelId : String}
    (hproject : onList req.projectChannelIds channelId) (htags : req.projectChannelTags = [])
    (hkey : onList req.keyChannelIds channelId) :
    ∃ selected diagnostics,
      (loneEnvironment req channelId).selectFor req = .ok (selected, diagnostics) ∧
        ∃ c ∈ selected, c.channelId = channelId := by
  let c := (loneChannel req channelId).candidate 0 .empty ⟨req.model, req.model, .direct⟩
  have hselect : select (loneEnvironment req channelId).engine
      (loneEnvironment req channelId).reader req.toCandidateRequest
      (loneEnvironment req channelId).channels (loneEnvironment req channelId).associations
      (loneEnvironment req channelId).nowRfc3339 = .ok [c] := by
    simp [select, loneEnvironment, selectLegacy, loneChannel, selectEndpoint, c]
  have hkeyTags : req.keyChannelTags = [] ∨ matchChannelTags req.keyChannelTags
      req.keyChannelTagsMatchMode c.tags = true := by
    by_cases hempty : req.keyChannelTags = []
    · exact .inl hempty
    · exact .inr (matchChannelTags_matchingTags hempty _)
  have hkept : (filterPipeline id (.fromRequest req) [c]).kept = [c] :=
    filterPipeline_lone (mem_profileStages.mpr
      ⟨List.mem_singleton_self c, hproject, .inl htags, hkey, hkeyTags⟩) rfl
  refine ⟨[c], ⟨[c.ref], (filterPipeline id (.fromRequest req) [c]).rejected ++ []⟩, ?_, c,
    List.mem_singleton_self c, rfl⟩
  unfold SelectionEnvironment.selectFor selectCandidates
  rw [hselect]
  have hquota : applyProviderQuotaSelector (loneEnvironment req channelId).quotaProvider
      (loneEnvironment req channelId).quotaSettings req.isImageRequest =
      (Sieved.all : Stage Unit) := rfl
  have hfilter : ∀ model useStream limitType candidates,
      balanced (loneEnvironment req channelId).loadBalance model useStream limitType candidates =
        candidates := fun _ _ _ _ => rfl
  have hquoted : (loneEnvironment req channelId).quoted = id := rfl
  have hdisabled : (loneEnvironment req channelId).quotaSettings.enabled = false := rfl
  dsimp only
  rw [hquota, hquoted, hfilter, Sieved.kept_andThen, Sieved.kept_all, hkept, hdisabled]
  rfl

/-! ## The scope -/

variable {now : Int} {checkQuota : APIKeyProfile → Except ApiKeyValidationError Unit}
  {profiles : APIKeyProfiles} {routes : RoutesByModel} {splitEfforts : Bool} {request : KeyRequest}

/-- A request for a granted model that keeps its metadata reaches what the
grant of the model says. -/
theorem granted_of_selected {Settings σ : Type} {env : SelectionEnvironment Settings σ}
    {active : Option APIKeyProfile} {selected : List (ChannelModelsCandidate Settings)}
    {diagnostics : SelectionDiagnostics} {c : ChannelModelsCandidate Settings}
    (hcarries : request.route.carriesMetadata = true)
    (hmodel : request.model ∈ grantedModels active routes)
    (h : env.selectFor (request.candidateRequest (.of active routes)) = .ok (selected, diagnostics))
    (hc : c ∈ selected) :
    ∃ channel : Int64, toString channel.toInt = c.channelId ∧
      Granted active routes request.model channel := by
  obtain ⟨resolved, -, hkept⟩ := mem_of_selectCandidates h hc
  obtain ⟨-, hproject, -⟩ := mem_profileStages.mp hkept
  obtain ⟨effective, heffective, hids⟩ := projectChannelIds_of_mem hcarries
    (ValidatedApiKeyMetadata.of active routes) hmodel
  obtain ⟨hne, hgranted⟩ := mem_channelsByModel heffective
  have hlist : onList (effective.map fun id => toString id.toInt) c.channelId := by
    rw [← hids]
    exact hproject
  rcases hlist with hnil | hmem
  · exact absurd (List.map_eq_nil_iff.mp hnil) hne
  · obtain ⟨channel, hchannel, htext⟩ := List.mem_map.mp hmem
    exact ⟨channel, htext, hgranted channel hchannel⟩

/-- A model the check lets pass without being granted reaches a channel of the
project. -/
theorem reaches_of_notGranted {active : Option APIKeyProfile}
    (hcarries : request.route.carriesMetadata = true)
    (hmodel : request.model ∉ grantedModels active routes)
    (hgrant : grantedModels active routes ≠ []) :
    ∃ channelId selected diagnostics,
      (loneEnvironment (request.candidateRequest (.of active routes)) channelId).selectFor
          (request.candidateRequest (.of active routes)) = .ok (selected, diagnostics) ∧
        ∃ c ∈ selected, c.channelId = channelId := by
  obtain ⟨name, hname⟩ := List.exists_mem_of_ne_nil _ hgrant
  obtain ⟨entry, hentry, -⟩ := List.mem_map.mp hname
  obtain ⟨hne, hgranted⟩ := mem_channelsByModel hentry
  obtain ⟨channel, hchannel⟩ := List.exists_mem_of_ne_nil _ hne
  have hchannel := hgranted channel hchannel
  refine ⟨toString channel.toInt, selectFor_lone ?_ ?_ ?_⟩
  · rw [projectChannelIds_of_notMem hcarries (ValidatedApiKeyMetadata.of active routes) hmodel]
    exact .inr (List.mem_map_of_mem hchannel.mem_projectChannelIds)
  · exact projectChannelTags_candidateRequest hcarries active routes
  · rw [keyChannelIds_candidateRequest hcarries]
    obtain ⟨-, -, -, -, hallowed⟩ := hchannel
    cases active with
    | none => exact .inl rfl
    | some profile =>
        by_cases hany : profile.channelIds = []
        · exact .inl (by simp [ValidatedApiKeyMetadata.of, hany])
        · refine .inr (List.mem_map_of_mem ?_)
          show channel ∈ profile.channelIds
          simpa [allowsChannel, hany] using hallowed

/-- The two readings of the grant agree on the request: when the check lets the
model it sees pass, the one asked for is granted, and comes in on a route that
keeps the metadata. -/
def ReadAlike (now : Int) (checkQuota : APIKeyProfile → Except ApiKeyValidationError Unit)
    (profiles : APIKeyProfiles) (routes : RoutesByModel) (splitEfforts : Bool)
    (request : KeyRequest) : Prop :=
  ∀ active validated, profiles.active = .ok active →
    validate now checkQuota profiles routes = .ok validated →
      PassesFor (grantedModels active routes) (request.checkedModel splitEfforts) →
        request.route.carriesMetadata = true ∧ request.model ∈ grantedModels active routes

theorem confined_of_readAlike (hread : ReadAlike now checkQuota profiles routes splitEfforts request) :
    Confined now checkQuota profiles routes splitEfforts request := by
  intro channelId hreaches
  obtain ⟨validated, hvalid, hcheck, Settings, σ, env, selected, diagnostics, hselect, c, hc,
    rfl⟩ := hreaches
  obtain ⟨active, hactive, hgrant, rfl⟩ := validate_ok hvalid
  have hpasses := (checkModelAccess_ok hgrant).mp hcheck
  obtain ⟨hcarries, hmodel⟩ := hread active _ hactive hvalid hpasses
  exact ⟨active, hactive, granted_of_selected hcarries hmodel hselect hc⟩

theorem readAlike_of_confined (hconfined : Confined now checkQuota profiles routes splitEfforts request) :
    ReadAlike now checkQuota profiles routes splitEfforts request := by
  intro active validated hactive hvalid hpasses
  obtain ⟨active', hactive', hgrant, rfl⟩ := validate_ok hvalid
  obtain rfl : active = active' := Except.ok.inj (hactive.symm.trans hactive')
  have hcheck := (@checkModelAccess_ok active routes request.metadata (request.checked splitEfforts).model
    hgrant).mpr hpasses
  by_cases hcarries : request.route.carriesMetadata = true
  · refine ⟨hcarries, ?_⟩
    by_contra hmodel
    obtain ⟨channelId, selected, diagnostics, hselect, hc⟩ :=
      reaches_of_notGranted hcarries hmodel hgrant
    obtain ⟨active', hactive', channel, -, hgranted⟩ := hconfined channelId
      ⟨_, hvalid, hcheck, Unit, Unit, _, selected, diagnostics, hselect, hc⟩
    obtain rfl : active = active' := Except.ok.inj (hactive.symm.trans hactive')
    exact hmodel hgranted.mem_grantedModels
  · -- without metadata a channel of any id will do
    exfalso
    have hlost : request.route.carriesMetadata = false := by simpa using hcarries
    obtain ⟨hproject, htags, hkey⟩ := lists_of_lost hlost (.of active routes)
    obtain ⟨selected, diagnostics, hselect, hc⟩ :=
      @selectFor_lone (request.candidateRequest (.of active routes)) "" (.inl hproject) htags
        (.inl hkey)
    obtain ⟨-, -, channel, htext, -⟩ := hconfined ""
      ⟨_, hvalid, hcheck, Unit, Unit, _, selected, diagnostics, hselect, hc⟩
    rw [Int.toString_eq_repr, Int.repr_eq_if] at htext
    split_ifs at htext
    · exact Nat.repr_ne_empty htext
    · simp at htext

/-- When a key's requests stay within its grant: exactly when the check and the
selector read the grant alike. -/
theorem confined_iff (now : Int) (checkQuota : APIKeyProfile → Except ApiKeyValidationError Unit)
    (profiles : APIKeyProfiles) (routes : RoutesByModel) (splitEfforts : Bool)
    (request : KeyRequest) :
    Confined now checkQuota profiles routes splitEfforts request ↔
      ReadAlike now checkQuota profiles routes splitEfforts request :=
  ⟨readAlike_of_confined, confined_of_readAlike⟩

/-! ## A request in scope -/

/-- The access map of a project with one model. -/
def oneModel (model : String) (channels : List Int64)
    (sorted : channels.Pairwise fun a b => a.toInt < b.toInt) : RoutesByModel where
  entries := [(model, channels)]
  sorted := List.pairwise_singleton _ _
  channelsSorted entry hentry := by
    obtain rfl := List.mem_singleton.mp hentry
    exact sorted

def plainRequest (route : OpenAiRoute) (model apiFormat : String) : KeyRequest where
  route
  metadata := []
  content :=
    { model := some model
      requestType := .chat
      apiFormat
      stream := false
      messages := []
      tools := []
      isImageRequest := false }

theorem validate_oneModel (model : String) (channels : List Int64) (hne : channels ≠ [])
    (sorted : channels.Pairwise fun a b => a.toInt < b.toInt) :
    validate 0 (fun _ => .ok ()) ⟨"", []⟩ (oneModel model channels sorted) =
      .ok (.of none (oneModel model channels sorted)) := by
  cases channels with
  | nil => exact absurd rfl hne
  | cons channel channels => rfl

/-- Heavier channels first. -/
def byOrderingWeight : CandidateGroupSorter Unit Unit where
  sortGroup s group _ _ _ :=
    (group.insertionSort fun a b => b.orderingWeight ≤ a.orderingWeight, s)
  perm _ group _ _ _ := List.perm_insertionSort _ group

/-- Three channels that offer the model, with a load balancer. -/
def threeChannels (req : ProfiledRequest) : SelectionEnvironment Unit Unit :=
  { loneEnvironment req "1" with
    channels :=
      [{ loneChannel req "1" with orderingWeight := 5 },
        { loneChannel req "2" with orderingWeight := 9 },
        { loneChannel req "3" with orderingWeight := 7 }]
    loadBalance := some ⟨byOrderingWeight, (), ⟨true, 2⟩⟩ }

/-- A key granted one model on channels 1 and 3 asks for it: the balancer puts
channel 3 first, and every channel a request reaches is one of the two. -/
theorem confined_oneModel :
    let routes := oneModel "gpt-4" [1, 3] (by decide)
    let request := plainRequest .chatCompletions "gpt-4" "openai/chat_completions"
    Confined 0 (fun _ => .ok ()) ⟨"", []⟩ routes true request ∧
      (((threeChannels (request.candidateRequest (.of none routes))).selectFor
        (request.candidateRequest (.of none routes))).toOption.map fun answer =>
          answer.1.map (·.channelId)) = some ["3", "1"] := by
  dsimp only
  refine ⟨(confined_iff _ _ _ _ _ _).mpr ?_, by decide⟩
  intro active validated hactive _ _
  obtain rfl : none = active := Except.ok.inj hactive
  exact ⟨rfl, by decide⟩

/-! ## Requests out of scope -/

/-- A granted name with a comma opens the model before it, the name of a
granted model with an effort behind it reaches the whole project, and a request
on the Gemini route is not kept to any channel. -/
theorem not_confined :
    ¬ Confined 0 (fun _ => .ok ()) ⟨"", []⟩ (oneModel "gpt-4,vision" [1] (by decide)) false
        (plainRequest .chatCompletions "gpt-4" "openai/chat_completions") ∧
      ¬ Confined 0 (fun _ => .ok ()) ⟨"", []⟩ (oneModel "gpt-4o" [1] (by decide)) true
        (plainRequest .chatCompletions "gpt-4o-high" "openai/chat_completions") ∧
      ¬ Confined 0 (fun _ => .ok ()) ⟨"", []⟩ (oneModel "gemini-pro" [1] (by decide)) false
        (plainRequest .geminiGenerateContent "gemini-pro" "gemini/contents") := by
  refine ⟨fun hconfined => ?_, fun hconfined => ?_, fun hconfined => ?_⟩
  · have hread := readAlike_of_confined hconfined none _ rfl
      (validate_oneModel _ _ (by decide) (by decide))
      ⟨by decide, .inr ⟨"gpt-4,vision", by decide, "gpt-4", by decide, by decide⟩⟩
    exact absurd hread.2 (by decide)
  · have hread := readAlike_of_confined hconfined none _ rfl
      (validate_oneModel _ _ (by decide) (by decide))
      ⟨by decide, .inr ⟨"gpt-4o", by decide, "gpt-4o", by decide, by decide⟩⟩
    exact absurd hread.2 (by decide)
  · have hread := readAlike_of_confined hconfined none _ rfl
      (validate_oneModel _ _ (by decide) (by decide))
      ⟨by decide, .inr ⟨"gemini-pro", by decide, "gemini-pro", by decide, by decide⟩⟩
    exact absurd hread.1 (by decide)

end Conduit.Access
