import Mathlib

/-!
# Project access: the declared policy and the request-time resolver

Two implementations of "base plan plus grants minus blocks":

* `resolveProjectEntitlement` evaluates the override list as a set: any
  active block denies, otherwise the base plan or any active grant allows;
* `resolveEffectiveProjectAccess` collects the routes of the plan versions in
  force and then folds over the override rows in id order.

The second also honours the route selection of a plan version, which the
first knows nothing about.
-/

namespace Conduit.Access

/-- Instants, in any unit. -/
abbrev Instant := Int

/-- `(from IS NULL OR from <= now) AND (until IS NULL OR until > now)`. -/
def inWindow (fromAt untilAt : Option Instant) (now : Instant) : Bool :=
  fromAt.all (· ≤ now) && untilAt.all (now < ·)

/-! ## Rows -/

/-- Status of models, routes, deployments, channels and plans. -/
inductive EntityStatus
  | enabled
  | disabled
  | archived
deriving DecidableEq, Repr

inductive VersionStatus
  | draft
  | published
  | archived
deriving DecidableEq, Repr

/-- Status of profiles, grants and overrides; only `active` is ever asked for. -/
inductive ActivationStatus
  | active
  | inactive
deriving DecidableEq, Repr

inductive ProjectEntitlementEffect
  | grant
  | block
deriving DecidableEq, Repr

structure ProjectCommercialProfile where
  projectId : Int
  baseAccessPlanId : Option Int
  status : ActivationStatus
deriving DecidableEq, Repr

structure AccessPlan where
  id : Int
  status : EntityStatus
deriving DecidableEq, Repr

structure AccessPlanVersion where
  id : Int
  accessPlanId : Int
  version : Int
  status : VersionStatus
  effectiveStartAt : Option Instant
  effectiveEndAt : Option Instant
deriving DecidableEq, Repr

structure ProjectAccessGrant where
  id : Int
  projectId : Int
  accessPlanVersionId : Int
  status : ActivationStatus
  validFrom : Option Instant
  validUntil : Option Instant
deriving DecidableEq, Repr

structure AccessPlanItem where
  accessPlanVersionId : Int
  publicModelId : Int
deriving DecidableEq, Repr

structure AccessPlanRouteItem where
  accessPlanVersionId : Int
  modelRouteId : Int
deriving DecidableEq, Repr

structure ModelRoute where
  id : Int
  publicModelId : Int
  deploymentId : Int
  status : EntityStatus
deriving DecidableEq, Repr

structure UpstreamModelDeployment where
  id : Int
  channelId : Int
  upstreamModelId : String
  status : EntityStatus
deriving DecidableEq, Repr

structure Channel where
  id : Int
  status : EntityStatus
  deletedAt : Int
deriving DecidableEq, Repr

structure ProjectEntitlementOverride where
  id : Int
  projectId : Int
  publicModelId : Int
  effect : ProjectEntitlementEffect
  status : ActivationStatus
  validFrom : Option Instant
  validUntil : Option Instant
deriving DecidableEq, Repr

structure Model where
  id : Int
  modelId : String
  status : EntityStatus
  deletedAt : Int
deriving DecidableEq, Repr

/-- The tables the resolver reads, with the two keys of `models` and the one of
the overrides. -/
structure AccessDb where
  profiles : List ProjectCommercialProfile
  plans : List AccessPlan
  planVersions : List AccessPlanVersion
  grants : List ProjectAccessGrant
  planItems : List AccessPlanItem
  planRouteItems : List AccessPlanRouteItem
  routes : List ModelRoute
  deployments : List UpstreamModelDeployment
  channels : List Channel
  overrides : List ProjectEntitlementOverride
  models : List Model
  models_id : ∀ a ∈ models, ∀ b ∈ models, a.id = b.id → a = b
  models_by_model_id : ∀ a ∈ models, ∀ b ∈ models,
    a.modelId = b.modelId → a.deletedAt = b.deletedAt → a = b
  overrides_id : ∀ a ∈ overrides, ∀ b ∈ overrides, a.id = b.id → a = b

/-! ## The declared policy -/

def ProjectEntitlementOverride.isActiveAt (rule : ProjectEntitlementOverride) (at_ : Instant) :
    Bool :=
  rule.status = .active && inWindow rule.validFrom rule.validUntil at_

structure ProjectEntitlementDecision where
  publicModelId : Int
  allowed : Bool
  allowedByBasePlan : Bool
  activeGrantIds : List Int
  activeBlockIds : List Int
deriving DecidableEq, Repr

/-- Blocks always win over grants. -/
def resolveProjectEntitlement (publicModelId : Int) (basePlanModelIds : List Int)
    (overrides : List ProjectEntitlementOverride) (at_ : Instant) :
    ProjectEntitlementDecision :=
  let rules := overrides.filter fun rule =>
    rule.publicModelId = publicModelId && rule.isActiveAt at_
  let grants := (rules.filter (·.effect = .grant)).map (·.id)
  let blocks := (rules.filter (·.effect = .block)).map (·.id)
  let allowedByBasePlan := basePlanModelIds.contains publicModelId
  { publicModelId := publicModelId
    allowed := blocks.isEmpty && (allowedByBasePlan || !grants.isEmpty)
    allowedByBasePlan := allowedByBasePlan
    activeGrantIds := grants.insertionSort (· ≤ ·)
    activeBlockIds := blocks.insertionSort (· ≤ ·) }

/-! ## The request-time resolver -/

namespace AccessDb

variable (db : AccessDb)

/-- `p.status='enabled' AND v.status='published'` within the version's window. -/
def versionInForce (v : AccessPlanVersion) (now : Instant) : Bool :=
  v.status = .published && inWindow v.effectiveStartAt v.effectiveEndAt now &&
    db.plans.any fun p => p.id = v.accessPlanId && p.status = .enabled

/-- The newest version in force of the project's base plan. -/
def basePlanVersion (projectId : Int) (now : Instant) : Option Int :=
  match db.profiles.find? fun p => p.projectId = projectId && p.status = .active with
  | some profile =>
      match profile.baseAccessPlanId with
      | some planId =>
          ((db.planVersions.filter fun v => v.accessPlanId = planId && db.versionInForce v now)
            |>.insertionSort fun a b => b.version ≤ a.version).head?.map (·.id)
      | none => none
  | none => none

/-- The versions granted to the project, in grant order. -/
def grantedVersions (projectId : Int) (now : Instant) : List Int :=
  ((db.grants.insertionSort fun a b => a.id ≤ b.id).filter fun g =>
    g.projectId = projectId && g.status = .active && inWindow g.validFrom g.validUntil now &&
      db.planVersions.any fun v => v.id = g.accessPlanVersionId && db.versionInForce v now)
    |>.map (·.accessPlanVersionId)

/-- `sort_unstable` and `dedup`. -/
def resolvedVersions (projectId : Int) (now : Instant) : List Int :=
  (((db.basePlanVersion projectId now).toList ++ db.grantedVersions projectId now)
    |>.insertionSort (· ≤ ·)).dedup

def versionModelIds (versionId : Int) : List Int :=
  (db.planItems.filter (·.accessPlanVersionId = versionId)).map (·.publicModelId)

def versionRouteIds (versionId : Int) : List Int :=
  (db.planRouteItems.filter (·.accessPlanVersionId = versionId)).map (·.modelRouteId)

/-- One row of the route query. -/
structure RouteRow where
  routeId : Int
  channelId : Int
  upstreamModelId : String
deriving DecidableEq, Repr

/-- The enabled routes of a model over enabled deployments and enabled
channels that are not deleted, `ORDER BY d.channel_id, r.id`. -/
def enabledRoutes (modelId : Int) : List RouteRow :=
  (db.routes.filter fun r => r.publicModelId = modelId && r.status = .enabled)
    |>.flatMap (fun r =>
      (db.deployments.filter fun d => d.id = r.deploymentId && d.status = .enabled && db.channels.any
        fun c => c.id = d.channelId && c.status = .enabled && c.deletedAt = 0)
        |>.map fun d => ⟨r.id, d.channelId, d.upstreamModelId⟩)
    |>.insertionSort fun a b =>
      a.channelId < b.channelId ∨ (a.channelId = b.channelId ∧ a.routeId ≤ b.routeId)

end AccessDb

/-- The two maps under construction. A key is present exactly when its set
of channels is nonempty. -/
structure RouteMaps where
  routeIds : Int → Finset Int
  upstreamIds : Int → Int → Option String

namespace RouteMaps

def empty : RouteMaps := ⟨fun _ => ∅, fun _ _ => none⟩

/-- `entry(model).or_default()`, then the channel; the first upstream model of
a channel stays. -/
def addRoute (modelId : Int) (maps : RouteMaps) (row : AccessDb.RouteRow) : RouteMaps where
  routeIds := Function.update maps.routeIds modelId
    (insert row.channelId (maps.routeIds modelId))
  upstreamIds := Function.update maps.upstreamIds modelId
    (Function.update (maps.upstreamIds modelId) row.channelId
      ((maps.upstreamIds modelId row.channelId).or (some row.upstreamModelId)))

def addRoutes (modelId : Int) (maps : RouteMaps) (rows : List AccessDb.RouteRow) : RouteMaps :=
  rows.foldl (addRoute modelId) maps

def remove (maps : RouteMaps) (modelId : Int) : RouteMaps where
  routeIds := Function.update maps.routeIds modelId ∅
  upstreamIds := Function.update maps.upstreamIds modelId fun _ => none

end RouteMaps

namespace AccessDb

variable (db : AccessDb)

/-- The routes a version offers for a model: all of them when the version
selects none, else the selected ones. -/
def offeredRoutes (versionId modelId : Int) : List RouteRow :=
  (db.enabledRoutes modelId).filter fun row =>
    (db.versionRouteIds versionId).isEmpty || (db.versionRouteIds versionId).contains row.routeId

def applyVersion (maps : RouteMaps) (versionId : Int) : RouteMaps :=
  (db.versionModelIds versionId).foldl
    (fun maps modelId => maps.addRoutes modelId (db.offeredRoutes versionId modelId)) maps

def applyOverride (maps : RouteMaps) (row : ProjectEntitlementOverride) : RouteMaps :=
  match row.effect with
  | .block => maps.remove row.publicModelId
  | .grant => maps.addRoutes row.publicModelId (db.enabledRoutes row.publicModelId)

/-- The active overrides of a project, `ORDER BY id`. -/
def activeOverrides (projectId : Int) (now : Instant) : List ProjectEntitlementOverride :=
  (db.overrides.filter fun o => o.projectId = projectId && o.isActiveAt now)
    |>.insertionSort fun a b => a.id ≤ b.id

def resolveRouteMaps (projectId : Int) (now : Instant) : RouteMaps :=
  (db.activeOverrides projectId now).foldl db.applyOverride
    ((db.resolvedVersions projectId now).foldl db.applyVersion .empty)

/-- `SELECT id, model_id FROM models WHERE status='enabled' AND deleted_at=0`,
in id order. -/
def enabledModels : List Model :=
  (db.models.filter fun m => m.status = .enabled && m.deletedAt = 0)
    |>.insertionSort fun a b => a.id ≤ b.id

end AccessDb

structure EffectiveProjectAccess where
  routesByModel : String → Option (Finset Int)
  upstreamModelsByModel : String → Option (Int → Option String)
  priceMultiplier : Rat

/-- Models without routes are left out; of two models of one name the one
with the larger id would win. -/
def resolveEffectiveProjectAccess (db : AccessDb) (projectId : Int) (now : Instant) :
    EffectiveProjectAccess :=
  let maps := db.resolveRouteMaps projectId now
  let named := fun name => (db.enabledModels.filter fun m =>
    m.modelId = name && decide (maps.routeIds m.id).Nonempty).getLast?
  { routesByModel := fun name => (named name).map fun m => maps.routeIds m.id
    upstreamModelsByModel := fun name => (named name).map fun m => maps.upstreamIds m.id
    priceMultiplier := 1 }

/-- The models the project's plan versions list. -/
def AccessDb.planModelIds (db : AccessDb) (projectId : Int) (now : Instant) : List Int :=
  (db.resolvedVersions projectId now).flatMap db.versionModelIds

/-- The overrides of a project, active or not. -/
def AccessDb.overridesOf (db : AccessDb) (projectId : Int) : List ProjectEntitlementOverride :=
  db.overrides.filter (·.projectId = projectId)

end Conduit.Access
