import Conduit.Base.Keyed
import Conduit.Base.Sieve
import Conduit.Orchestrator.Routing

/-!
# Selection of candidates

The candidates of a model pass the profile of the project, the profile of the
key, the gate for native tools and the stream policy, then quota admission, and
are put in order by priority and load balancing. An empty allow-list or tag
list lets everything through.
-/

namespace Conduit.Orchestrator

open Base Base.Text

/-! ## The request -/

/-- What the stages after the base selection read of a request besides. -/
structure ProfiledRequest extends CandidateRequest where
  isImageRequest : Bool
  projectChannelIds : List String
  projectChannelTags : List String
  projectChannelTagsMatchMode : String
  keyChannelIds : List String
  keyChannelTags : List String
  keyChannelTagsMatchMode : String
deriving DecidableEq, Repr

structure FilterContext where
  projectChannelIds : List String
  projectChannelTags : List String
  projectChannelTagsMatchMode : String
  keyChannelIds : List String
  keyChannelTags : List String
  keyChannelTagsMatchMode : String
  apiFormat : String
  stream : Bool
  tools : List RequestTool
  requestType : RequestType
deriving DecidableEq, Repr

def FilterContext.fromRequest (req : ProfiledRequest) : FilterContext where
  projectChannelIds := req.projectChannelIds
  projectChannelTags := req.projectChannelTags
  projectChannelTagsMatchMode := req.projectChannelTagsMatchMode
  keyChannelIds := req.keyChannelIds
  keyChannelTags := req.keyChannelTags
  keyChannelTagsMatchMode := req.keyChannelTagsMatchMode
  apiFormat := req.apiFormat
  stream := req.stream
  tools := req.tools
  requestType := req.requestType

/-! ## Base selection -/

/-- What an association source knows of a model. -/
structure EffectiveModel where
  modelId : String
  updatedAt : String
  associations : List ModelAssociation

structure SystemModelSettings where
  fallbackToChannelsOnModelNotFound : Bool
deriving DecidableEq, Repr

structure AssociationSource where
  resolve : String → Option EffectiveModel
  systemSettings : SystemModelSettings

inductive CandidateSelectionError
  | modelNotFound (model : String)
deriving DecidableEq, Repr

variable {Settings : Type}

/-- Every channel that offers the requested name. -/
def selectLegacy (req : CandidateRequest) (channels : List (ChannelSnapshot Settings)) :
    List (ChannelModelsCandidate Settings) :=
  channels.filterMap fun ch =>
    (ch.modelEntries.entries.lookup req.model).map fun entry =>
      ch.candidate 0 ((selectEndpoint ch.resolvedEndpoints req).getD .empty) entry

def select (engine : Pipeline.RegexEngine) (reader : ValueReader) (req : CandidateRequest)
    (channels : List (ChannelSnapshot Settings)) (associations : AssociationSource)
    (nowRfc3339 : String) :
    Except CandidateSelectionError (List (ChannelModelsCandidate Settings)) :=
  match associations.resolve req.model with
  | some effective =>
      .ok (selectModelCandidates engine reader req channels effective.associations nowRfc3339)
  | none =>
      if associations.systemSettings.fallbackToChannelsOnModelNotFound then
        .ok (selectLegacy req channels)
      else .error (.modelNotFound req.model)

/-! ## Diagnostics -/

inductive NativeToolFamily
  | google
  | anthropic
deriving DecidableEq, Repr

def NativeToolFamily.display : NativeToolFamily → String
  | .google => "google"
  | .anthropic => "anthropic"

def ChannelModelsCandidate.reject (c : ChannelModelsCandidate Settings) (stage : FilterStage)
    (detail : String) : SelectionRejection := ⟨stage, c.channelId, c.channelName, detail⟩

def ChannelModelsCandidate.ref (c : ChannelModelsCandidate Settings) : SelectedCandidateRef :=
  ⟨c.channelId, c.channelName, c.priority, c.apiFormat⟩

/-- `{:?}` of a list of strings, from that of a string. -/
def quotedList (quoted : String → String) (values : List String) : String :=
  "[" ++ ", ".intercalate (values.map quoted) ++ "]"

/-! ## The filter pipeline -/

/-- A mode that is neither `all` nor `none` is `any`. -/
def matchChannelTags (allowedTags : List String) (mode : String) (channelTags : List String) :
    Bool :=
  if mode = "all" then allowedTags.all fun tag => channelTags.contains tag
  else if mode = "none" then channelTags.all fun tag => !allowedTags.contains tag
  else channelTags.any fun tag => allowedTags.contains tag

/-- A stage of the pipeline. -/
abbrev Stage (Settings : Type) : Type :=
  List (ChannelModelsCandidate Settings) →
    Sieved (ChannelModelsCandidate Settings) SelectionRejection

def allowlistPass (allowedIds : List String) (stage : FilterStage) (level : String) :
    Stage Settings :=
  if allowedIds.isEmpty then Sieved.all
  else
    Sieved.byTest (fun c => allowedIds.contains c.channelId) fun c =>
      c.reject stage ("channel_id " ++ c.channelId ++ " not in " ++ level ++
        " profile allow-list (" ++ toString allowedIds.length ++ " ids)")

section Quoting

-- How `{:?}` quotes a string.
variable (quoted : String → String)

def tagsPass (allowedTags : List String) (matchMode : String) (stage : FilterStage)
    (level : String) : Stage Settings :=
  if allowedTags.isEmpty then Sieved.all
  else
    Sieved.byTest (fun c => matchChannelTags allowedTags matchMode c.tags) fun c =>
      c.reject stage ("channel tags " ++ quotedList quoted c.tags ++ " do not match " ++ level ++
        " profile tags " ++ quotedList quoted allowedTags ++ " (mode " ++ quoted matchMode ++ ")")

def profileStages (ctx : FilterContext) : Stage Settings := fun candidates =>
  (((allowlistPass ctx.projectChannelIds .projectProfile "project" candidates).andThen
    (tagsPass quoted ctx.projectChannelTags ctx.projectChannelTagsMatchMode .projectProfile
      "project")).andThen
    (allowlistPass ctx.keyChannelIds .keyProfile "key")).andThen
    (tagsPass quoted ctx.keyChannelTags ctx.keyChannelTagsMatchMode .keyProfile "key")

def containsGoogleNativeTools (tools : List RequestTool) : Bool :=
  tools.any fun tool => startsWith tool.toolType "google_"

def containsAnthropicNativeTools (tools : List RequestTool) : Bool :=
  tools.any fun tool => tool.toolType = "web_search" || tool.toolType = "web_search_20250305"

def ChannelModelsCandidate.supportsGoogleNativeTools (c : ChannelModelsCandidate Settings) : Bool :=
  ["gemini", "gemini_vertex"].contains c.channelType

def ChannelModelsCandidate.supportsAnthropicNativeTools (c : ChannelModelsCandidate Settings) :
    Bool :=
  ["anthropic", "anthropic_aws", "anthropic_gcp", "claudecode"].contains c.channelType

def ChannelModelsCandidate.supports (family : NativeToolFamily)
    (c : ChannelModelsCandidate Settings) : Bool :=
  match family with
  | .google => c.supportsGoogleNativeTools
  | .anthropic => c.supportsAnthropicNativeTools

/-- The family whose native tools the request carries, if its format has one. -/
def activeFamily (ctx : FilterContext) : Option NativeToolFamily :=
  if ctx.apiFormat = "gemini/contents" then
    if containsGoogleNativeTools ctx.tools then some .google else none
  else if ctx.apiFormat = "anthropic/messages" then
    if containsAnthropicNativeTools ctx.tools then some .anthropic else none
  else none

/-- Without one capable candidate all of them stay. -/
def nativeToolsCapability (ctx : FilterContext) : Stage Settings := fun candidates =>
  match activeFamily ctx with
  | none => .all candidates
  | some family =>
      if candidates.any (·.supports family) then
        Sieved.byTest (·.supports family)
          (fun c => c.reject .nativeToolsCapability ("channel type " ++ quoted c.channelType ++
            " does not support " ++ family.display ++ " native tools")) candidates
      else .all candidates

/-- `stream_policy`, `unlimited` when unset. -/
def ChannelModelsCandidate.streamPolicy (c : ChannelModelsCandidate Settings) : String :=
  if c.policies = "" then "unlimited" else c.policies

def supportsAutoAggregate (apiFormat : String) : RequestType → Bool
  | .chat => ["", "openai/chat_completions", "openai/responses", "anthropic/messages",
      "gemini/contents", "ollama/chat"].contains apiFormat
  | .completion => apiFormat = "" || apiFormat = "openai/completions"
  | _ => false

def streamPolicy (ctx : FilterContext) : Stage Settings := fun candidates =>
  if ctx.stream then
    Sieved.byTest (fun c => c.streamPolicy ≠ "forbid")
      (fun c => c.reject .streamPolicy "stream policy is 'forbid' for a streaming request") candidates
  else if candidates.any fun c => c.streamPolicy ≠ "require" then
    Sieved.byTest (fun c => c.streamPolicy ≠ "require")
      (fun c => c.reject .streamPolicy ("stream policy is 'require' for a non-streaming request; " ++
        "native candidates preferred")) candidates
  else if supportsAutoAggregate ctx.apiFormat ctx.requestType then .all candidates
  else
    Sieved.byTest (fun _ => false)
      (fun c => c.reject .streamPolicy
        "stream policy is 'require' for a non-streaming request without auto-aggregate") candidates

/-- The pipeline of the stages, `run_stages`. -/
def filterPipeline (ctx : FilterContext) : Stage Settings := fun candidates =>
  ((profileStages quoted ctx candidates).andThen (nativeToolsCapability quoted ctx)).andThen
    (streamPolicy ctx)

/-- `select_with_inputs`: an unknown model gives nothing. -/
def selectWithInputs (engine : Pipeline.RegexEngine) (reader : ValueReader)
    (req : CandidateRequest) (channels : List (ChannelSnapshot Settings))
    (associations : AssociationSource) (profile : FilterContext) (nowRfc3339 : String) :
    List (ChannelModelsCandidate Settings) × SelectionDiagnostics :=
  match select engine reader req channels associations nowRfc3339 with
  | .error _ => ([], ⟨[], []⟩)
  | .ok resolved =>
      let sieved := filterPipeline quoted profile resolved
      (sieved.kept, ⟨sieved.kept.map (·.ref), sieved.rejected⟩)

end Quoting

/-! ## Quota admission -/

structure QuotaLimitStatusView where
  limitType : String
  status : String
  ready : Bool
deriving DecidableEq, Repr

structure QuotaChannelStatusView where
  status : String
  ready : Bool
  limits : List QuotaLimitStatusView
deriving DecidableEq, Repr

def requestModality (isImageRequest : Bool) : String := if isImageRequest then "image" else "token"

def quotaStatusRank (status : String) : Int :=
  if status = "available" then 0
  else if status = "warning" then 1
  else if status = "exhausted" then 2
  else -1

/-- The worse of two limits; of equal rank both have to be ready. -/
def worseLimit (worst limit : QuotaLimitStatusView) : QuotaLimitStatusView :=
  if quotaStatusRank worst.status < quotaStatusRank limit.status then limit
  else if quotaStatusRank limit.status = quotaStatusRank worst.status then
    { worst with ready := worst.ready && limit.ready }
  else worst

/-- Missing data is `unknown` and does not block. -/
def QuotaChannelStatusView.effectiveStatus (view : QuotaChannelStatusView) (limitType : String) :
    String × Bool :=
  if view.status = "exhausted" then ("exhausted", false)
  else if view.limits.isEmpty then (view.status, view.ready)
  else
    match view.limits.filter fun limit => limit.limitType = limitType with
    | [] => ("unknown", true)
    | first :: rest =>
        let worst := rest.foldl worseLimit first
        (worst.status, worst.ready)

/-- `get_quota_status`. -/
abbrev ProviderQuotaStatus := String → Option QuotaChannelStatusView

inductive ProviderQuotaEnforcementMode
  | exhaustedOnly
  | dePrioritize
deriving DecidableEq, Repr

structure QuotaEnforcementSettings where
  enabled : Bool
  mode : ProviderQuotaEnforcementMode
deriving DecidableEq, Repr

/-- `QuotaEnforcementSettings::default`. -/
def QuotaEnforcementSettings.default : QuotaEnforcementSettings := ⟨false, .exhaustedOnly⟩

def channelExhausted (provider : ProviderQuotaStatus) (limitType : String)
    (c : ChannelModelsCandidate Settings) : Bool :=
  (provider c.channelId).any fun status => (status.effectiveStatus limitType).1 = "exhausted"

def applyProviderQuotaSelector (provider : Option ProviderQuotaStatus)
    (settings : QuotaEnforcementSettings) (isImageRequest : Bool) : Stage Settings :=
  match provider with
  | none => Sieved.all
  | some provider =>
      if !settings.enabled || settings.mode = .dePrioritize then Sieved.all
      else
        Sieved.byTest (fun c => !channelExhausted provider (requestModality isImageRequest) c)
          fun c => c.reject .quotaAdmission ("provider quota exhausted for limit type \"" ++
            requestModality isImageRequest ++ "\"")

def areAllChannelsExhausted (provider : Option ProviderQuotaStatus) (isImageRequest : Bool)
    (candidates : List (ChannelModelsCandidate Settings)) : Bool :=
  match provider with
  | none => false
  | some provider =>
      !candidates.isEmpty &&
        candidates.all (channelExhausted provider (requestModality isImageRequest))

/-! ## Load balancing -/

/-- A sorter of one priority group, with what it remembers. It is given the
model, whether to stream and the quota limit type. -/
structure CandidateGroupSorter (Settings σ : Type) where
  sortGroup : σ → List (ChannelModelsCandidate Settings) → String → Bool → String →
    List (ChannelModelsCandidate Settings) × σ
  perm : ∀ (s : σ) (group : List (ChannelModelsCandidate Settings)) (model : String)
    (useStream : Bool) (limitType : String),
    (sortGroup s group model useStream limitType).1.Perm group

structure LoadBalanceStage (Settings σ : Type) where
  sorter : CandidateGroupSorter Settings σ
  memory : σ
  retryPolicy : RetryPolicy

variable {σ : Type}

/-- The groups in order of their keys, each sorted, until the budget is used
up. The group after the last one is sorted too. -/
def takeGroups (sort : σ → List (ChannelModelsCandidate Settings) →
      List (ChannelModelsCandidate Settings) × σ) :
    Nat → σ → List (Int × List (ChannelModelsCandidate Settings)) →
      List (ChannelModelsCandidate Settings)
  | _, _, [] => []
  | remaining, s, (_, group) :: groups =>
      let (sorted, s) := sort s group
      if remaining = 0 then []
      else if sorted.length ≤ remaining then
        sorted ++ takeGroups sort (remaining - sorted.length) s groups
      else sorted.take remaining

def priorityGroups (candidates : List (ChannelModelsCandidate Settings)) :
    List (Int × List (ChannelModelsCandidate Settings)) :=
  Keyed.fold (fun c : ChannelModelsCandidate Settings => c.priority) (fun _ => [])
    (fun c group => group ++ [c]) candidates

def loadBalancedOrder (stage : LoadBalanceStage Settings σ) (model : String) (useStream : Bool)
    (quotaLimitType : String) (candidates : List (ChannelModelsCandidate Settings)) :
    List (ChannelModelsCandidate Settings) :=
  if candidates.length ≤ 1 then candidates
  else
    takeGroups (fun s group => stage.sorter.sortGroup s group model useStream quotaLimitType)
      stage.retryPolicy.topK stage.memory (priorityGroups candidates)

/-- Load balancing only when a balancer is wired. -/
def balanced (loadBalance : Option (LoadBalanceStage Settings σ)) (model : String)
    (useStream : Bool) (quotaLimitType : String)
    (candidates : List (ChannelModelsCandidate Settings)) :
    List (ChannelModelsCandidate Settings) :=
  match loadBalance with
  | some stage => loadBalancedOrder stage model useStream quotaLimitType candidates
  | none => candidates

/-! ## The selection -/

inductive SelectCandidatesError
  | quotaExhausted (model : String)
  | invalidModel (model : String)
deriving DecidableEq, Repr

def selectCandidates (quoted : String → String) (engine : Pipeline.RegexEngine)
    (reader : ValueReader) (req : ProfiledRequest) (channels : List (ChannelSnapshot Settings)) (associations : AssociationSource)
    (profile : FilterContext) (nowRfc3339 : String) (quotaProvider : Option ProviderQuotaStatus)
    (quotaSettings : QuotaEnforcementSettings)
    (loadBalance : Option (LoadBalanceStage Settings σ)) :
    Except SelectCandidatesError
      (List (ChannelModelsCandidate Settings) × SelectionDiagnostics) :=
  match select engine reader req.toCandidateRequest channels associations nowRfc3339 with
  | .error (.modelNotFound model) => .error (.invalidModel model)
  | .ok resolved =>
      let filtered := filterPipeline quoted profile resolved
      let admitted := filtered.andThen
        (applyProviderQuotaSelector quotaProvider quotaSettings req.isImageRequest)
      let survivors := balanced loadBalance req.model req.stream
        (requestModality req.isImageRequest) admitted.kept
      if survivors.isEmpty then
        if quotaSettings.enabled && admitted.kept.length < filtered.kept.length then
          .error (.quotaExhausted req.model)
        else .error (.invalidModel req.model)
      else if quotaSettings.enabled && quotaSettings.mode = .dePrioritize &&
          areAllChannelsExhausted quotaProvider req.isImageRequest survivors then
        .error (.quotaExhausted req.model)
      else .ok (survivors, ⟨survivors.map (·.ref), admitted.rejected⟩)

/-! ## What a selection keeps -/

theorem narrowing_allowlistPass (allowedIds : List String) (stage : FilterStage) (level : String) :
    Sieved.Narrowing (allowlistPass allowedIds stage level : Stage Settings) := by
  unfold allowlistPass
  by_cases hempty : allowedIds.isEmpty = true
  · rw [if_pos hempty]
    exact Sieved.narrowing_all
  · rw [if_neg hempty]
    exact Sieved.narrowing_byTest _ _

theorem narrowing_tagsPass (quoted : String → String) (allowedTags : List String)
    (matchMode : String) (stage : FilterStage) (level : String) :
    Sieved.Narrowing (tagsPass quoted allowedTags matchMode stage level : Stage Settings) := by
  unfold tagsPass
  by_cases hempty : allowedTags.isEmpty = true
  · rw [if_pos hempty]
    exact Sieved.narrowing_all
  · rw [if_neg hempty]
    exact Sieved.narrowing_byTest _ _

theorem narrowing_nativeToolsCapability (quoted : String → String) (ctx : FilterContext) :
    Sieved.Narrowing (nativeToolsCapability quoted ctx : Stage Settings) := by
  unfold nativeToolsCapability
  cases activeFamily ctx with
  | none => exact Sieved.narrowing_all
  | some family =>
      exact Sieved.Narrowing.ite 
        (fun candidates => candidates.any (ChannelModelsCandidate.supports family) = true)
        (Sieved.narrowing_byTest _ _) Sieved.narrowing_all

theorem narrowing_streamPolicy (ctx : FilterContext) :
    Sieved.Narrowing (streamPolicy ctx : Stage Settings) := by
  intro candidates
  unfold streamPolicy
  by_cases hstream : ctx.stream = true
  · rw [if_pos hstream]
    exact Sieved.narrowing_byTest _ _ _
  · rw [if_neg hstream]
    by_cases hnative : (candidates.any fun c => c.streamPolicy ≠ "require") = true
    · rw [if_pos hnative]
      exact Sieved.narrowing_byTest _ _ _
    · rw [if_neg hnative]
      by_cases hauto : supportsAutoAggregate ctx.apiFormat ctx.requestType = true
      · rw [if_pos hauto]
        exact Sieved.narrowing_all _
      · rw [if_neg hauto]
        exact Sieved.narrowing_byTest _ _ _

theorem narrowing_profileStages (quoted : String → String) (ctx : FilterContext) :
    Sieved.Narrowing (profileStages quoted ctx : Stage Settings) :=
  (((narrowing_allowlistPass _ _ _).andThen (narrowing_tagsPass _ _ _ _ _)).andThen
    (narrowing_allowlistPass _ _ _)).andThen (narrowing_tagsPass _ _ _ _ _)

theorem narrowing_filterPipeline (quoted : String → String) (ctx : FilterContext) :
    Sieved.Narrowing (filterPipeline quoted ctx : Stage Settings) :=
  ((narrowing_profileStages quoted ctx).andThen
    (narrowing_nativeToolsCapability quoted ctx)).andThen (narrowing_streamPolicy ctx)

theorem narrowing_applyProviderQuotaSelector (provider : Option ProviderQuotaStatus)
    (settings : QuotaEnforcementSettings) (isImageRequest : Bool) :
    Sieved.Narrowing
      (applyProviderQuotaSelector provider settings isImageRequest : Stage Settings) := by
  unfold applyProviderQuotaSelector
  cases provider with
  | none => exact Sieved.narrowing_all
  | some provider =>
      dsimp only
      by_cases hoff : (!settings.enabled || settings.mode = .dePrioritize) = true
      · rw [if_pos hoff]
        exact Sieved.narrowing_all
      · rw [if_neg hoff]
        exact Sieved.narrowing_byTest _ _

/-- What an allow-list lets through. -/
def onList (allowedIds : List String) (channelId : String) : Prop :=
  allowedIds = [] ∨ channelId ∈ allowedIds

theorem mem_allowlistPass {allowedIds : List String} {stage : FilterStage} {level : String}
    {candidates : List (ChannelModelsCandidate Settings)} {c : ChannelModelsCandidate Settings} :
    c ∈ (allowlistPass allowedIds stage level candidates).kept ↔
      c ∈ candidates ∧ onList allowedIds c.channelId := by
  unfold allowlistPass onList
  by_cases hempty : allowedIds = []
  · simp [hempty]
  · simp [hempty]

theorem mem_tagsPass {quoted : String → String} {allowedTags : List String} {matchMode : String}
    {stage : FilterStage} {level : String}
    {candidates : List (ChannelModelsCandidate Settings)} {c : ChannelModelsCandidate Settings} :
    c ∈ (tagsPass quoted allowedTags matchMode stage level candidates).kept ↔
      c ∈ candidates ∧ (allowedTags = [] ∨ matchChannelTags allowedTags matchMode c.tags = true) := by
  unfold tagsPass
  by_cases hempty : allowedTags = []
  · simp [hempty]
  · simp [hempty]

/-- The profiles let through what is on both lists and has the tags of both. -/
theorem mem_profileStages {quoted : String → String} {ctx : FilterContext}
    {candidates : List (ChannelModelsCandidate Settings)} {c : ChannelModelsCandidate Settings} :
    c ∈ (profileStages quoted ctx candidates).kept ↔
      c ∈ candidates ∧ onList ctx.projectChannelIds c.channelId ∧
        (ctx.projectChannelTags = [] ∨
          matchChannelTags ctx.projectChannelTags ctx.projectChannelTagsMatchMode c.tags = true) ∧
        onList ctx.keyChannelIds c.channelId ∧
        (ctx.keyChannelTags = [] ∨
          matchChannelTags ctx.keyChannelTags ctx.keyChannelTagsMatchMode c.tags = true) := by
  unfold profileStages
  simp only [Sieved.kept_andThen, mem_tagsPass, mem_allowlistPass, and_assoc]

/-- A survivor of the pipeline passed the profiles. -/
theorem mem_profileStages_of_filterPipeline {quoted : String → String} {ctx : FilterContext}
    {candidates : List (ChannelModelsCandidate Settings)} {c : ChannelModelsCandidate Settings}
    (h : c ∈ (filterPipeline quoted ctx candidates).kept) :
    c ∈ (profileStages quoted ctx candidates).kept := by
  have hstream : c ∈ (nativeToolsCapability quoted ctx (profileStages quoted ctx candidates).kept).kept :=
    (narrowing_streamPolicy ctx).mem h
  exact (narrowing_nativeToolsCapability quoted ctx).mem hstream

theorem mem_priorityGroups {candidates : List (ChannelModelsCandidate Settings)}
    {entry : Int × List (ChannelModelsCandidate Settings)} {c : ChannelModelsCandidate Settings}
    (hentry : entry ∈ priorityGroups candidates) (hc : c ∈ entry.2) : c ∈ candidates := by
  have hget := Keyed.get_of_mem (Keyed.sorted_fold _ _ _ _) hentry
  rw [Keyed.get_fold] at hget
  by_cases hempty : (candidates.filter fun c => c.priority = entry.1) = []
  · rw [if_pos hempty] at hget
    exact absurd hget (by simp)
  · rw [if_neg hempty] at hget
    rw [← Option.some.inj hget, List.foldl_append_eq_append] at hc
    have hfilter : c ∈ candidates ∧ c.priority = entry.1 := by simpa using hc
    exact hfilter.1

/-- The groups taken hold nothing that no group holds. -/
theorem mem_takeGroups
    {sort : σ → List (ChannelModelsCandidate Settings) →
      List (ChannelModelsCandidate Settings) × σ}
    (hsort : ∀ (s : σ) (group : List (ChannelModelsCandidate Settings)),
      (sort s group).1.Perm group)
    {groups : List (Int × List (ChannelModelsCandidate Settings))} {remaining : Nat} {s : σ}
    {c : ChannelModelsCandidate Settings} (h : c ∈ takeGroups sort remaining s groups) :
    ∃ entry ∈ groups, c ∈ entry.2 := by
  induction groups generalizing remaining s with
  | nil => exact absurd h List.not_mem_nil
  | cons entry groups ih =>
      have hlater : ∀ {remaining : Nat} {s : σ}, c ∈ takeGroups sort remaining s groups →
          ∃ other ∈ entry :: groups, c ∈ other.2 := by
        intro remaining s hc
        obtain ⟨other, hmem, hother⟩ := ih hc
        exact ⟨other, List.mem_cons_of_mem _ hmem, hother⟩
      have hfirst : c ∈ (sort s entry.2).1 → ∃ other ∈ entry :: groups, c ∈ other.2 := fun hc =>
        ⟨entry, List.mem_cons_self, (hsort s entry.2).mem_iff.mp hc⟩
      unfold takeGroups at h
      dsimp only at h
      by_cases hzero : remaining = 0
      · rw [if_pos hzero] at h
        exact absurd h List.not_mem_nil
      · rw [if_neg hzero] at h
        by_cases hfits : (sort s entry.2).1.length ≤ remaining
        · rw [if_pos hfits] at h
          rcases List.mem_append.mp h with hc | hc
          · exact hfirst hc
          · exact hlater hc
        · rw [if_neg hfits] at h
          exact hfirst (List.mem_of_mem_take h)

theorem mem_loadBalancedOrder {stage : LoadBalanceStage Settings σ} {model : String}
    {useStream : Bool} {quotaLimitType : String}
    {candidates : List (ChannelModelsCandidate Settings)} {c : ChannelModelsCandidate Settings}
    (h : c ∈ loadBalancedOrder stage model useStream quotaLimitType candidates) :
    c ∈ candidates := by
  unfold loadBalancedOrder at h
  by_cases hfew : candidates.length ≤ 1
  · rwa [if_pos hfew] at h
  · rw [if_neg hfew] at h
    obtain ⟨entry, hentry, hc⟩ := mem_takeGroups
      (fun s group => stage.sorter.perm s group model useStream quotaLimitType) h
    exact mem_priorityGroups hentry hc

theorem mem_balanced {loadBalance : Option (LoadBalanceStage Settings σ)} {model : String}
    {useStream : Bool} {quotaLimitType : String}
    {candidates : List (ChannelModelsCandidate Settings)} {c : ChannelModelsCandidate Settings}
    (h : c ∈ balanced loadBalance model useStream quotaLimitType candidates) : c ∈ candidates := by
  cases loadBalance with
  | none => exact h
  | some stage => exact mem_loadBalancedOrder h

/-- Whatever quota and load balancing do: what is selected passed the profiles. -/
theorem mem_of_selectCandidates {quoted : String → String} {engine : Pipeline.RegexEngine}
    {reader : ValueReader} {req : ProfiledRequest} {channels : List (ChannelSnapshot Settings)}
    {associations : AssociationSource} {profile : FilterContext} {nowRfc3339 : String}
    {quotaProvider : Option ProviderQuotaStatus} {quotaSettings : QuotaEnforcementSettings}
    {loadBalance : Option (LoadBalanceStage Settings σ)}
    {selected : List (ChannelModelsCandidate Settings)} {diagnostics : SelectionDiagnostics}
    (h : selectCandidates quoted engine reader req channels associations profile nowRfc3339
      quotaProvider quotaSettings loadBalance = .ok (selected, diagnostics))
    {c : ChannelModelsCandidate Settings} (hc : c ∈ selected) :
    ∃ resolved, select engine reader req.toCandidateRequest channels associations nowRfc3339 =
        .ok resolved ∧
      c ∈ (profileStages quoted profile resolved).kept := by
  unfold selectCandidates at h
  cases hselect : select engine reader req.toCandidateRequest channels associations nowRfc3339 with
  | error e =>
      rw [hselect] at h
      exact absurd h (by cases e; simp)
  | ok resolved =>
      rw [hselect] at h
      dsimp only at h
      refine ⟨resolved, rfl, mem_profileStages_of_filterPipeline ?_⟩
      generalize hadmitted : (filterPipeline quoted profile resolved).andThen
        (applyProviderQuotaSelector quotaProvider quotaSettings req.isImageRequest) = admitted at h
      have hmem : c ∈ admitted.kept := by
        split_ifs at h
        rw [← (Prod.mk.inj (Except.ok.inj h)).1] at hc
        exact mem_balanced hc
      rw [← hadmitted] at hmem
      exact (narrowing_applyProviderQuotaSelector quotaProvider quotaSettings
        req.isImageRequest).mem hmem

end Conduit.Orchestrator
