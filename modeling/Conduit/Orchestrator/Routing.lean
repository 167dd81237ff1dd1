import Conduit.Base.Rank
import Conduit.Base.FirstWins
import Conduit.Orchestrator.LoadBalancer
import Conduit.Orchestrator.Candidates
import Mathlib

/-!
# Route ordering

`resolve_ordered_candidates`: the load balancer orders the candidates of each
priority by its scores, a route affinity moves its target to the front, routes
without a healthy credential are dropped, and what remains is sorted by
priority and health and cut to the number of channels a request may try.
-/

namespace Conduit.Orchestrator

open Base Base.Text
open Pipeline (ConduitError PipelineCandidate Metadata ChannelConfig RetryableErrorPattern)

/-! ## Health -/

inductive RouteHealthStatus
  | healthy
  | degraded
  | unhealthy
  | unknown
deriving DecidableEq, Repr

structure RouteHealthTarget where
  channelId : String
  actualModel : String
  credentialIdentity : Option String
deriving DecidableEq, Repr

structure RouteHealthSignal where
  status : RouteHealthStatus
  averageLatencyMs : Option Nat
deriving DecidableEq, Repr

/-- `BTreeMap<RouteHealthTarget, RouteHealthSignal>` as its lookup function. -/
abbrev RouteHealthSignals := RouteHealthTarget → Option RouteHealthSignal

def RouteHealthSignals.status (signals : RouteHealthSignals) (target : RouteHealthTarget) :
    RouteHealthStatus :=
  (signals target).elim .unknown RouteHealthSignal.status

inductive LoadBalancerStrategy
  | adaptive
  | failover
  | circuitBreaker
deriving DecidableEq, Repr

def routeHealthRank : RouteHealthStatus → Nat
  | .healthy => 0
  | .unknown => 1
  | .degraded => 2
  | .unhealthy => 3

/-- Tuples compare from the left. -/
abbrev RouteSortKey := Int ×ₗ Nat ×ₗ Nat

/-- Only adaptive routing looks at the latency; an unknown one sorts last. -/
def routeHealthSortKey (strategy : LoadBalancerStrategy) (priority : Int)
    (signal : Option RouteHealthSignal) : RouteSortKey :=
  let status := signal.elim .unknown RouteHealthSignal.status
  let latencyRank :=
    if strategy = .adaptive then (signal.bind RouteHealthSignal.averageLatencyMs).getD u64Max else 0
  toLex (priority, toLex (routeHealthRank status, latencyRank))

/-! ## Credentials -/

/-- FNV-1a over the bytes of the text. -/
def fnv1a (text : String) : UInt64 :=
  text.toUTF8.data.toList.foldl (fun hash byte => (hash ^^^ byte.toUInt64) * 0x100000001b3)
    0xcbf29ce484222325

/-- The key of the highest score, the first among equals. -/
def rendezvousSelect (keys : List String) (seed : String) : Option String :=
  match keys with
  | [] => none
  | first :: rest =>
      let score (key : String) : UInt64 := fnv1a (seed ++ "|" ++ key)
      some (rest.foldl (fun best key => if score best < score key then key else best) first)

def selectTraceStickyCredential (enabledCredentials : List String)
    (activeCredential traceId : Option String) : Option String :=
  match traceId with
  | some trace =>
      if 1 < enabledCredentials.length then
        (rendezvousSelect enabledCredentials trace) <|> activeCredential
      else activeCredential
  | none => activeCredential

variable {Settings : Type}

def actualModelOf (candidate : ChannelModelsCandidate Settings) : String :=
  (candidate.models.head?.map ChannelModelEntry.actualModel).getD ""

/-- The credentials a request with this trace may use, the preferred one first. -/
def credentialChoices (candidate : ChannelModelsCandidate Settings) (traceId : Option String) :
    List (Option String) :=
  let preferred := selectTraceStickyCredential candidate.enabledCredentials
    candidate.activeCredential traceId
  let first := if preferred.isSome then [preferred] else []
  let choices := first ++ firstBy id first (candidate.enabledCredentials.map some)
  if choices.isEmpty then [none] else choices

/-- `credential_fingerprint` is a digest. -/
abbrev Fingerprint := String → String

def healthTarget (fingerprint : Fingerprint) (candidate : ChannelModelsCandidate Settings)
    (credential : Option String) : RouteHealthTarget where
  channelId := candidate.channelId
  actualModel := actualModelOf candidate
  credentialIdentity := credential.map fingerprint

/-- The credentials whose health is asked for. -/
def keyedCredentials (candidate : ChannelModelsCandidate Settings) : List (Option String) :=
  if candidate.enabledCredentials.isEmpty then [candidate.activeCredential]
  else candidate.enabledCredentials.map some

/-- The healthiest choice, the first among equals; never an unhealthy one. -/
def selectHealthyCredential (fingerprint : Fingerprint)
    (candidate : ChannelModelsCandidate Settings) (traceId : Option String)
    (signals : RouteHealthSignals) : Option (Option String) :=
  let status (credential : Option String) : RouteHealthStatus :=
    signals.status (healthTarget fingerprint candidate credential)
  let choices := (credentialChoices candidate traceId).filter fun c => status c ≠ .unhealthy
  (rank (fun c => routeHealthRank (status c)) choices).head?

/-! ## Affinity -/

structure RouteAffinityHint where
  keyClass : String
  channelId : String
  upstreamModelId : String
  upstreamApiFormat : String
  credentialIdentity : Option String
deriving DecidableEq, Repr

structure ResolvedRouteAffinity where
  index : Nat
  keyClass : String
  credential : Option String
deriving DecidableEq, Repr

def candidateApiFormat (candidate : ChannelModelsCandidate Settings) : String :=
  if candidate.endpoint.apiFormat = "" then candidate.apiFormat else candidate.endpoint.apiFormat

def affinityCredential (fingerprint : Fingerprint) (candidate : ChannelModelsCandidate Settings)
    (expectedIdentity : Option String) : Option (Option String) :=
  (keyedCredentials candidate).find? fun credential =>
    credential.map fingerprint = expectedIdentity

/-- The credential of a candidate that a hint names, if it is not unhealthy. -/
def hintedCredential (fingerprint : Fingerprint) (signals : RouteHealthSignals)
    (hint : RouteAffinityHint) (candidate : ChannelModelsCandidate Settings) :
    Option (Option String) :=
  if candidate.channelId ≠ hint.channelId ∨ actualModelOf candidate ≠ hint.upstreamModelId ∨
      candidateApiFormat candidate ≠ hint.upstreamApiFormat then none
  else
    match affinityCredential fingerprint candidate hint.credentialIdentity with
    | none => none
    | some credential =>
        if signals.status (healthTarget fingerprint candidate credential) = .unhealthy then none
        else some credential

/-- The first hint that resolves, at the first of the ordered candidates. -/
def resolveRouteAffinity (fingerprint : Fingerprint) (hints : List RouteAffinityHint)
    (resolved : List (ChannelModelsCandidate Settings)) (orderedIndices : List Nat)
    (signals : RouteHealthSignals) : Option ResolvedRouteAffinity :=
  hints.findSome? fun hint =>
    orderedIndices.findSome? fun index =>
      (resolved[index]?.bind (hintedCredential fingerprint signals hint)).map fun credential =>
        ⟨index, hint.keyClass, credential⟩

/-! ## Load balancing -/

/-- What the load balancer sees of a candidate. -/
structure RoutedCandidate extends Candidate where
  provider : String
  model : String
  theoreticalCostAccounting : Option String
  costEfficiencyScore : Int
deriving DecidableEq, Repr

/-- `DefaultCandidateProjector`: a candidate without a model is not projected. -/
def project (resolved : List (ChannelModelsCandidate Settings)) : List RoutedCandidate :=
  resolved.filterMap fun c =>
    c.models.head?.map fun model =>
      { id := c.channelId
        orderingWeight := c.orderingWeight
        provider := c.channelName
        model := model.actualModel
        theoreticalCostAccounting := c.theoreticalCostAccounting
        costEfficiencyScore := max 0 (min c.costEfficiencyScore 1000) }

/-- A scoring strategy that may look at all of a candidate. -/
structure RouteScoring (σ : Type) where
  score : σ → RoutedCandidate → Int
  recordSelection : σ → RoutedCandidate → σ

variable {σ : Type}

def ScoringStrategy.routed (strategy : ScoringStrategy σ) : RouteScoring σ where
  score s candidate := strategy.score s candidate.toCandidate
  recordSelection s candidate := strategy.recordSelection s candidate.toCandidate

/-- `WeightScoring`: the ordering weight, scaled to at most 100 for weights up to 100. -/
def weightScoring : ScoringStrategy Unit where
  score _ candidate := max candidate.orderingWeight 0 * 100 / 100
  recordSelection s _ := s

/-- `CostAwareScoring`, its weight clamped to a percentage. -/
def costAware (base : RouteScoring σ) (weightPercent : Int) : RouteScoring σ where
  score s candidate :=
    base.score s candidate +
      (candidate.costEfficiencyScore * max 0 (min weightPercent 100)).tdiv 100
  recordSelection := base.recordSelection

def rotateStickyScored (result : List ScoredCandidate) (sticky : Option String) :
    List ScoredCandidate :=
  match sticky with
  | some stickyId =>
      match result.findIdx? (·.candidate.id = stickyId) with
      | some pos => rotateLeft result pos
      | none => result
  | none => result

/-- `select_channels_with_tie_rotation` over all of a candidate; an entry
remembers its position among the candidates. -/
def selectRoutes (strategy : RouteScoring σ) (s : σ) (candidates : List RoutedCandidate)
    (policy : RetryPolicy) (sticky : Option String) (offset : Nat) : List ScoredCandidate × σ :=
  match candidates with
  | [] => ([], s)
  | _ :: _ =>
      let scored := candidates.zipIdx.map fun entry =>
        ⟨entry.1.toCandidate, strategy.score s entry.1, entry.2⟩
      let result := (rotateStickyScored (rotateTies (sortScored scored) offset) sticky).take
        (min policy.topK candidates.length)
      (result,
        match result.head?.bind fun selected => candidates[selected.inputIndex]? with
        | some selected => strategy.recordSelection s selected
        | none => s)

/-- The first candidate of the priority and id that is not ordered yet. -/
def nextIndex (resolved : List (ChannelModelsCandidate Settings)) (priority : Int) (id : String)
    (orderedIndices : List Nat) : Option Nat :=
  (resolved.zipIdx.find? fun entry =>
    entry.1.priority = priority && entry.1.channelId = id &&
      !orderedIndices.contains entry.2).map Prod.snd

/-- The loop that maps the selected ids back to candidates. -/
def orderSelected (resolved : List (ChannelModelsCandidate Settings)) (priority : Int) :
    List ScoredCandidate → List Nat → List Nat
  | [], orderedIndices => orderedIndices
  | selected :: rest, orderedIndices =>
      match nextIndex resolved priority selected.candidate.id orderedIndices with
      | none => orderSelected resolved priority rest orderedIndices
      | some index =>
          let orderedIndices := orderedIndices ++ [index]
          if resolved.length ≤ orderedIndices.length then orderedIndices
          else orderSelected resolved priority rest orderedIndices

section Loops

variable (strategy : RouteScoring σ) (policy : RetryPolicy) (sticky : Option String)
  (offset : Nat) (resolved : List (ChannelModelsCandidate Settings))

/-- The loop over the priorities. -/
def orderGroups : List Int → List Nat → σ → List Nat × σ
  | [], orderedIndices, s => (orderedIndices, s)
  | priority :: priorities, orderedIndices, s =>
      if resolved.length ≤ orderedIndices.length then (orderedIndices, s)
      else
        let group := resolved.filter fun candidate => candidate.priority = priority
        let (ordered, s) := selectRoutes strategy s (project group) policy sticky offset
        orderGroups priorities (orderSelected resolved priority ordered orderedIndices) s

/-- The distinct priorities, smallest first. -/
def priorities : List Int :=
  (resolved.map ChannelModelsCandidate.priority).dedup.insertionSort (· ≤ ·)

def loadBalanced (s : σ) : List Nat × σ :=
  orderGroups strategy policy sticky offset resolved (priorities resolved) [] s

end Loops

/-! ## The order of a request's routes -/

inductive OrchestratorStage
  | auth
  | quota
  | select
  | loadBalance
  | pipeline
  | persist
  | emit
deriving DecidableEq, Repr

structure OrchestratorError where
  failedStage : OrchestratorStage
  source : ConduitError
deriving DecidableEq, Repr

structure OrchestratorContext where
  stages : List OrchestratorStage
  metadata : Metadata

def OrchestratorContext.recordStage (ctx : OrchestratorContext) (stage : OrchestratorStage) :
    OrchestratorContext :=
  { ctx with stages := ctx.stages ++ [stage] }

def OrchestratorContext.insert (ctx : OrchestratorContext) (key value : String) :
    OrchestratorContext :=
  { ctx with metadata := ctx.metadata.insert key value }

inductive FilterStage
  | projectProfile
  | keyProfile
  | nativeToolsCapability
  | streamPolicy
  | quotaAdmission
  | pricingAdmission
  | routeHealth
deriving DecidableEq, Repr

structure SelectionRejection where
  stage : FilterStage
  channelId : String
  channelName : String
  detail : String
deriving DecidableEq, Repr

structure SelectedCandidateRef where
  channelId : String
  channelName : String
  priority : Int
  apiFormat : String
deriving DecidableEq, Repr

structure SelectionDiagnostics where
  selected : List SelectedCandidateRef
  rejected : List SelectionRejection
deriving DecidableEq, Repr

/-- An entry of `route_ordered_candidates`. -/
structure OrderedRoute where
  rank : Nat
  channelId : String
  channelName : String
  priority : Int
  orderingWeight : Int
  actualModel : Option String
  apiFormat : String
deriving DecidableEq, Repr

/-- The JSON texts in the metadata. -/
structure RouteCodec where
  parseHints : String → Option (List RouteAffinityHint)
  parseDiagnostics : String → Option SelectionDiagnostics
  diagnosticsText : SelectionDiagnostics → Option String
  orderedText : List OrderedRoute → Option String

/-- What a route takes from its channel's settings. -/
structure RouteSettings where
  channelConfig : ChannelConfig
  retryableStatusCodes : List Int
  retryableErrorPatterns : List RetryableErrorPattern

/-- The collaborators of `CommandOrchestrator` that order routes. -/
structure RouteOrchestrator (σ Settings : Type) where
  scoringStrategies : LoadBalancerStrategy → RouteScoring σ
  stickyProvider : Option String → Option String → Option String
  routeHealth : List RouteHealthTarget → Except ConduitError RouteHealthSignals
  fingerprint : Fingerprint
  codec : RouteCodec
  settings : Option Settings → RouteSettings

structure RouteRequest where
  requestId : String
  model : String
  loadBalanceStrategy : LoadBalancerStrategy
  retryPolicy : RetryPolicy
  costScoreWeight : Option Int
  traceId : Option String
  threadId : Option String
deriving DecidableEq, Repr

def RouteOrchestrator.scoring (orchestrator : RouteOrchestrator σ Settings)
    (request : RouteRequest) : RouteScoring σ :=
  let strategy := orchestrator.scoringStrategies request.loadBalanceStrategy
  match request.costScoreWeight with
  | some weight => if weight ≠ 0 then costAware strategy weight else strategy
  | none => strategy

/-- The request's sticky channel, or the provider's. -/
def RouteOrchestrator.sticky (orchestrator : RouteOrchestrator σ Settings)
    (ctx : OrchestratorContext) (request : RouteRequest) : Option String :=
  match (ctx.metadata "sticky_channel_id").filter fun value => trim value ≠ "" with
  | some channelId => some channelId
  | none => orchestrator.stickyProvider request.traceId request.threadId

def RouteRequest.offset (request : RouteRequest) : Nat :=
  (fnv1a ((request.traceId <|> request.threadId).getD request.requestId)).toNat

def requestRouteAffinityHints (codec : RouteCodec) (ctx : OrchestratorContext) :
    List RouteAffinityHint :=
  ((ctx.metadata "route_affinity_hints").bind codec.parseHints).getD []

/-- `remove` and `insert(0, ..)`. -/
def promote (affinity : Option ResolvedRouteAffinity) (orderedIndices : List Nat) : List Nat :=
  match affinity with
  | some affinity =>
      if orderedIndices.contains affinity.index then
        affinity.index :: orderedIndices.erase affinity.index
      else orderedIndices
  | none => orderedIndices

/-- The decision that is put on record, if any. -/
def affinityDecision (hints : List RouteAffinityHint) (affinity : Option ResolvedRouteAffinity) :
    Option String :=
  if affinity.isSome then some "applied"
  else if hints.isEmpty then none
  else some "stale_or_ineligible"

def recordAffinity (ctx : OrchestratorContext) (hints : List RouteAffinityHint)
    (affinity : Option ResolvedRouteAffinity) : OrchestratorContext :=
  let ctx := match affinity with
    | some affinity => ctx.insert "route_affinity_applied_class" affinity.keyClass
    | none => ctx
  match affinityDecision hints affinity with
  | some decision => ctx.insert "route_affinity_decision" decision
  | none => ctx

/-- The routes of a request once the load balancer and the affinity have spoken. -/
structure Routes (Settings : Type) where
  resolved : List (ChannelModelsCandidate Settings)
  fingerprint : Fingerprint
  signals : RouteHealthSignals
  traceId : Option String
  affinity : Option ResolvedRouteAffinity

namespace Routes

variable (routes : Routes Settings)

def selectedCredential (index : Nat) : Option (Option String) :=
  routes.resolved[index]?.bind fun candidate =>
    ((routes.affinity.filter fun affinity => affinity.index = index).map
        ResolvedRouteAffinity.credential) <|>
      selectHealthyCredential routes.fingerprint candidate routes.traceId routes.signals

def sortKey (strategy : LoadBalancerStrategy) (index : Nat) : RouteSortKey :=
  match routes.resolved[index]? with
  | some candidate =>
      routeHealthSortKey strategy candidate.priority
        (routes.signals (healthTarget routes.fingerprint candidate
          (routes.selectedCredential index).join))
  | none => toLex (0, toLex (0, 0))

def healthy (orderedIndices : List Nat) : List Nat :=
  orderedIndices.filter fun index => (routes.selectedCredential index).isSome

def healthExcluded (orderedIndices : List Nat) : List SelectionRejection :=
  (orderedIndices.filter fun index => (routes.selectedCredential index).isNone).filterMap
    fun index => routes.resolved[index]?.map fun candidate =>
      { stage := .routeHealth
        channelId := candidate.channelId
        channelName := candidate.channelName
        detail := "recent health marked actual model " ++ actualModelOf candidate ++ " unhealthy" }

end Routes

/-- A returned route: the candidate by its position, with its credential. -/
structure RoutedTarget where
  index : Nat
  credential : Option String
deriving DecidableEq, Repr

def pipelineCandidate (orchestrator : RouteOrchestrator σ Settings)
    (candidate : ChannelModelsCandidate Settings) (credential : Option String) :
    PipelineCandidate :=
  let given (text : String) : Option String := if text = "" then none else some text
  let settings := orchestrator.settings candidate.settings
  { id := candidate.channelId
    baseUrl := given candidate.endpoint.baseUrl <|> candidate.baseUrl
    credential
    credentialIdentity := credential.map orchestrator.fingerprint
    actualModel := candidate.models.head?.map ChannelModelEntry.actualModel
    apiFormat := candidateApiFormat candidate
    endpointPath := given candidate.endpoint.path
    endpointTransport := given candidate.endpoint.transport
    channelType := candidate.channelType
    channelConfig := settings.channelConfig
    retryableStatusCodes := settings.retryableStatusCodes
    retryableErrorPatterns := settings.retryableErrorPatterns }

def orderedSnapshot (resolved : List (ChannelModelsCandidate Settings)) (indices : List Nat) :
    List OrderedRoute :=
  (indices.filterMap fun index => resolved[index]?).zipIdx.map fun (candidate, rank) =>
    { rank := rank + 1
      channelId := candidate.channelId
      channelName := candidate.channelName
      priority := candidate.priority
      orderingWeight := candidate.orderingWeight
      actualModel := candidate.models.head?.map ChannelModelEntry.actualModel
      apiFormat := candidate.apiFormat }

/-- Reject the unhealthy routes in the diagnostics, and keep what is selected. -/
def recordExcluded (codec : RouteCodec) (ctx : OrchestratorContext)
    (resolved : List (ChannelModelsCandidate Settings)) (excluded : List SelectionRejection)
    (indices : List Nat) : OrchestratorContext :=
  if excluded.isEmpty then ctx
  else
    let diagnostics : SelectionDiagnostics :=
      ((ctx.metadata "route_selection_diagnostics").bind codec.parseDiagnostics).getD ⟨[], []⟩
    let kept := diagnostics.selected.filter fun selected =>
      indices.any fun index => resolved[index]?.any fun c => c.channelId = selected.channelId
    match codec.diagnosticsText ⟨kept, diagnostics.rejected ++ excluded⟩ with
    | some text => ctx.insert "route_selection_diagnostics" text
    | none => ctx

structure OrderedRoutes where
  targets : List RoutedTarget
  candidates : List PipelineCandidate

/-- The context and the scores as the call leaves them, and its answer. -/
structure RouteAnswer (σ : Type) where
  ctx : OrchestratorContext
  scores : σ
  decision : Option String
  result : Except OrchestratorError OrderedRoutes

section Resolve

variable (orchestrator : RouteOrchestrator σ Settings) (request : RouteRequest)
  (resolved : List (ChannelModelsCandidate Settings))

/-- The steps from the health signals on. -/
def orderHealthy (ctx : OrchestratorContext) (scores : σ) (orderedIndices : List Nat)
    (signals : RouteHealthSignals) : RouteAnswer σ :=
  let hints := requestRouteAffinityHints orchestrator.codec ctx
  let affinity :=
    resolveRouteAffinity orchestrator.fingerprint hints resolved orderedIndices signals
  let decision := affinityDecision hints affinity
  let ctx := recordAffinity ctx hints affinity
  let orderedIndices := promote affinity orderedIndices
  let routes : Routes Settings :=
    ⟨resolved, orchestrator.fingerprint, signals, request.traceId, affinity⟩
  let healthy := routes.healthy orderedIndices
  if healthy.isEmpty then
    ⟨ctx, scores, decision,
      .error ⟨.loadBalance, .new .upstream "all selected route targets are unhealthy"⟩⟩
  else
    let indices := rankTop (routes.sortKey request.loadBalanceStrategy) request.retryPolicy.topK healthy
    let ctx := recordExcluded orchestrator.codec ctx resolved
      (routes.healthExcluded orderedIndices) indices
    let targets := indices.filterMap fun index =>
      (routes.selectedCredential index).map fun credential => ⟨index, credential⟩
    let candidates := targets.filterMap fun target =>
      resolved[target.index]?.map fun candidate =>
        pipelineCandidate orchestrator candidate target.credential
    let ctx := ctx.insert "route_requested_model" request.model
    let ctx := match orchestrator.codec.orderedText (orderedSnapshot resolved indices) with
      | some text => ctx.insert "route_ordered_candidates" text
      | none => ctx
    ⟨ctx, scores, decision, .ok ⟨targets, candidates⟩⟩

def resolveOrderedCandidates (ctx : OrchestratorContext) (scores : σ) : RouteAnswer σ :=
  let ctx := ctx.recordStage .select
  if resolved.isEmpty then
    ⟨ctx, scores, none, .error ⟨.select, .new .notFound
      ("no candidates available for model " ++ request.model.quote)⟩⟩
  else
    let ctx := ctx.recordStage .loadBalance
    let (orderedIndices, scores) := loadBalanced (orchestrator.scoring request) request.retryPolicy
      (orchestrator.sticky ctx request) request.offset resolved scores
    if orderedIndices.isEmpty then
      ⟨ctx, scores, none,
        .error ⟨.loadBalance, .new .internal "load balancer selected no channel"⟩⟩
    else
      let healthTargets := (orderedIndices.filterMap fun index => resolved[index]?).flatMap
        fun candidate => (keyedCredentials candidate).map
          (healthTarget orchestrator.fingerprint candidate)
      match orchestrator.routeHealth healthTargets with
      | .error error => ⟨ctx, scores, none, .error ⟨.loadBalance, error⟩⟩
      | .ok signals => orderHealthy orchestrator request resolved ctx scores orderedIndices signals

end Resolve

end Conduit.Orchestrator
