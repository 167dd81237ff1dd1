import Conduit.Billing.Wallet

/-!
# Subscription periods

Assignment, refresh, pause, resume, cancellation, renewal and expiry of a
subscription, and `issue_period_buckets`, which issues the buckets of a
period and carries unused quota over from the previous one. Plans and access
plans live elsewhere; what an operation reads of them is its input. Access
grants are left out. Month arithmetic is the calendar library's: a
`Calendar` is any function that moves forward by a positive count.
-/

namespace Conduit.Billing

open Base Transaction

/-! ## Periods -/

/-- The instants of the time library and its month arithmetic. -/
structure Calendar where
  minInstant : Instant
  maxInstant : Instant
  addMonths : Instant → Nat → Option Instant
  addMonths_later : ∀ t n u, 0 < n → addMonths t n = some u → t < u

/-- `checked_add_signed`. -/
def Calendar.addSigned (cal : Calendar) (t : Instant) (d : Int) : Option Instant :=
  if cal.minInstant ≤ t + d ∧ t + d ≤ cal.maxInstant then some (t + d) else none

theorem Calendar.addSigned_eq_some {cal : Calendar} {t u : Instant} {d : Int}
    (h : cal.addSigned t d = some u) : u = t + d :=
  (Option.some.inj (Option.ite_none_right_eq_some.mp h).2).symm

def microsPerSecond : Int := 1000000

def microsPerDay : Int := 86400000000

def u32Max : Nat := 4294967295

def Calendar.nextPeriod (cal : Calendar) (start : Instant) (unit : IntervalUnit) (count : Nat) :
    Option Instant :=
  match unit with
  | .day => cal.addSigned start (count * microsPerDay)
  | .year => cal.addMonths start (min (count * 12) u32Max)
  | .month => cal.addMonths start count

theorem Calendar.nextPeriod_later (cal : Calendar) {start fin : Instant} {unit : IntervalUnit}
    {count : Nat} (hcount : 0 < count) (h : cal.nextPeriod start unit count = some fin) :
    start < fin := by
  cases unit with
  | day =>
      have hday : (0 : Int) < count * microsPerDay := by
        unfold microsPerDay
        omega
      rw [Calendar.addSigned_eq_some h]
      exact Int.lt_add_of_pos_right start hday
  | month => exact cal.addMonths_later start count fin hcount h
  | year =>
      refine cal.addMonths_later start _ fin ?_ h
      unfold u32Max
      omega

/-- The end of the period after `fin`: `positive_interval_count`, then
`next_period`. -/
def Calendar.following (cal : Calendar) (unit : IntervalUnit) (count : Int) (fin : Instant) :
    Except TxError Instant :=
  if 0 < count then
    match cal.nextPeriod fin unit count.toNat with
    | some next => .ok next
    | none => .error (.invalid "subscription period overflow")
  else .error (.invalid "intervalCount must be positive")

theorem Calendar.following_later (cal : Calendar) {unit : IntervalUnit} {count : Int}
    {fin next : Instant} (h : cal.following unit count fin = .ok next) : fin < next := by
  unfold following at h
  split at h
  · next hcount =>
      split at h
      · next hnext =>
          obtain rfl := Except.ok.inj h
          exact cal.nextPeriod_later (by omega) hnext
      · cases h
  · cases h

/-- A later end misses less time. -/
theorem missed_decreases {now fin next : Int} (hdue : fin ≤ now) (hlater : fin < next) :
    (now + 1 - next).toNat < (now + 1 - fin).toNat := by omega

/-- Step over missed periods until the current one ends after `now`. -/
def Calendar.catchUp (cal : Calendar) (unit : IntervalUnit) (count : Int) (now : Instant)
    (start fin : Instant) : Except TxError (Instant × Instant) :=
  if _ : fin ≤ now then
    match _ : cal.following unit count fin with
    | .ok next => cal.catchUp unit count now fin next
    | .error e => .error e
  else .ok (start, fin)
termination_by (now + 1 - fin).toNat
decreasing_by
  exact missed_decreases ‹fin ≤ now› (cal.following_later ‹cal.following unit count fin = .ok next›)

/-! ## Inputs -/

/-- A quota rule of a plan. -/
structure QuotaRule where
  id : Int
  ruleKey : String
  quotaClass : QuotaClass
  amountMicros : Int
  rolloverMode : RolloverMode
  rolloverCapMicros : Option Int
  carryDurationSeconds : Option Int
  accessPlanIds : List Int
  positive : 0 < amountMicros

/-- What a period reads of the access plans: the effective published version
of each enabled access plan and the models of each version. -/
structure Catalog where
  publishedVersions : List (Int × Int)
  planItems : List (Int × Int)

def Catalog.publishedVersion (c : Catalog) (accessPlanId : Int) : Option Int :=
  (c.publishedVersions.find? fun v => v.1 == accessPlanId).map Prod.snd

/-- The distinct models of some versions, in id order. -/
def Catalog.publicModelIds (c : Catalog) (versions : List Int) : List Int :=
  ((c.planItems.filter fun item => item.1 ∈ versions).map Prod.snd).dedup.insertionSort (· ≤ ·)

/-- What assignment reads of a plan. -/
structure PlanTerms where
  enabled : Bool
  intervalUnit : IntervalUnit
  intervalCount : Int
  accessPlanIds : List Int
  rules : List QuotaRule

/-- An assignment request with its lookups. -/
structure Assignment where
  request : AssignmentRequest
  assignmentKey : String
  userExists : Bool
  activeMember : Bool
  plan : Option PlanTerms
  catalog : Catalog

/-! ## Issuing a period -/

/-- The entitlement snapshot of a period; an existing one gets the new end. -/
def Db.upsertEntitlementSnapshot (db : Db) (subscriptionId : Nat) (periodStart periodEnd : Instant) :
    Nat × Db :=
  match db.entitlementSnapshots.selectOne fun s =>
      s.subscriptionId == subscriptionId && s.periodStart == periodStart with
  | some (id, _) => (id, { db with
      entitlementSnapshots := db.entitlementSnapshots.updateRow id
        fun s => { s with periodEnd } })
  | none => (db.entitlementSnapshots.length, { db with
      entitlementSnapshots := db.entitlementSnapshots.insertRow
        ⟨subscriptionId, periodStart, periodEnd⟩ })

/-- `materialize_entitlement_items`. -/
def Db.materializeEntitlementItems (db : Db) (snapshotId ruleId : Nat) : List Int → Db
  | [] => db
  | publicModelId :: rest =>
      let item : EntitlementItem := ⟨snapshotId, ruleId, publicModelId⟩
      (if db.entitlementItems.any (· == item) then db
        else { db with entitlementItems := db.entitlementItems.insertRow item }
      ).materializeEntitlementItems snapshotId ruleId rest

/-- The period a set of buckets is issued for. -/
structure Period where
  subscriptionId : Nat
  start : Instant
  fin : Instant
  status : BucketStatus

def ruleBucket (period : Period) (snapshotId ruleId : Nat) (rule : QuotaRuleSnapshot) : Bucket where
  subscriptionId := period.subscriptionId
  quotaRuleSnapshotId := ruleId
  entitlementSnapshotId := snapshotId
  quotaClass := rule.quotaClass
  periodStart := period.start
  periodEnd := period.fin
  expiresAt := period.fin
  carryoverExpiresAt := none
  sourceBucketId := none
  grantedMicros := rule.amountMicros
  consumedMicros := 0
  reservedMicros := 0
  rolloverMicros := 0
  status := period.status

/-- `INSERT … ON CONFLICT DO NOTHING`, under the two partial unique indexes. -/
def Db.insertBucket (db : Db) (b : Bucket) : Db :=
  match db.buckets.selectOne fun row =>
      row.subscriptionId == b.subscriptionId && row.quotaRuleSnapshotId == b.quotaRuleSnapshotId
        && row.periodStart == b.periodStart && row.sourceBucketId == b.sourceBucketId with
  | some _ => db
  | none => { db with buckets := db.buckets.insertRow b }

/-- The first loop of `issue_period_buckets`: one bucket for each rule. -/
def Db.issueRuleBuckets (db : Db) (catalog : Catalog) (period : Period) (snapshotId : Nat) :
    List (Nat × QuotaRuleSnapshot) → Db
  | [] => db
  | (ruleId, rule) :: rest =>
      ((db.materializeEntitlementItems snapshotId ruleId
          (catalog.publicModelIds rule.accessPlanVersions)).insertBucket
        (ruleBucket period snapshotId ruleId rule)).issueRuleBuckets catalog period snapshotId rest

def carryBucket (period : Period) (sourceId : Nat) (source : Bucket) (expiresAt : Instant)
    (carry : Int) : Bucket where
  subscriptionId := period.subscriptionId
  quotaRuleSnapshotId := source.quotaRuleSnapshotId
  entitlementSnapshotId := source.entitlementSnapshotId
  quotaClass := source.quotaClass
  periodStart := period.start
  periodEnd := period.fin
  expiresAt := expiresAt
  carryoverExpiresAt := some expiresAt
  sourceBucketId := some sourceId
  grantedMicros := carry
  consumedMicros := 0
  reservedMicros := 0
  rolloverMicros := carry
  status := period.status

/-- What a rule lets a bucket carry over. -/
def carryAmount (rule : QuotaRuleSnapshot) (source : Bucket) : Int :=
  min source.available (rule.rolloverCapMicros.getD 0)

/-- Carry unused quota of a source bucket over. -/
def carryOver (cal : Calendar) (period : Period) (now : Instant) (sourceId : Nat) (source : Bucket)
    (rule : QuotaRuleSnapshot) : Tx Unit :=
  if rule.rolloverMode = .capped ∧ 0 < source.available then do
    let expiresAt ← orAbort
      (cal.addSigned source.periodEnd (rule.carryDurationSeconds.getD 0 * microsPerSecond))
      (.invalid "carryover expiry overflow")
    if 0 < carryAmount rule source ∧ now < expiresAt then
      write fun db =>
        db.insertBucket (carryBucket period sourceId source expiresAt (carryAmount rule source))
    else pure ()
  else pure ()

/-- The source loop of `issue_period_buckets`: carry over, then close the
source. -/
def rolloverSources (cal : Calendar) (period : Period) (now : Instant) :
    List (Nat × Bucket) → Tx Unit
  | [] => pure ()
  | (sourceId, source) :: rest => do
    let db ← read
    let rule ← orAbort db.ruleSnapshots[source.quotaRuleSnapshotId]? (.storage "no rows returned")
    carryOver cal period now sourceId source rule
    write fun db => { db with
      buckets := db.buckets.updateRow sourceId
        fun row => { row with status := source.retire.status } }
    rolloverSources cal period now rest

/-- Roll over the current rule buckets of the period that started at
`sourceStart`, if the caller names one. -/
def rolloverFrom (cal : Calendar) (period : Period) (now : Instant) : Option Instant → Tx Unit
  | none => pure ()
  | some sourceStart => do
    let db ← read
    rolloverSources cal period now (db.buckets.selectWhere fun b =>
      b.subscriptionId == period.subscriptionId && b.periodStart == sourceStart
        && b.sourceBucketId == none && b.status.current)

/-- Retire the buckets of a subscription whose status is in `statuses` and
that are due. -/
def Db.retireBuckets (db : Db) (subscriptionId : Nat) (statuses : BucketStatus → Bool)
    (due : Bucket → Bool) : Db :=
  { db with
    buckets := db.buckets.updateWhere
      (fun b => b.subscriptionId == subscriptionId && statuses b.status && due b) Bucket.retire }

/-- `issue_period_buckets`. -/
def issuePeriodBuckets (cal : Calendar) (catalog : Catalog) (period : Period)
    (rolloverSourcePeriodStart : Option Instant) (now : Instant) : Tx Unit := do
  let db ← read
  let snapshot := db.upsertEntitlementSnapshot period.subscriptionId period.start period.fin
  let rules := db.ruleSnapshots.selectWhere fun r => r.subscriptionId == period.subscriptionId
  require (rules ≠ []) (.invalid "subscription has no quota rule snapshots")
  write fun _ => snapshot.2.issueRuleBuckets catalog period snapshot.1 rules
  rolloverFrom cal period now rolloverSourcePeriodStart
  write fun db => db.retireBuckets period.subscriptionId BucketStatus.current (·.expiresAt ≤ now)

/-! ## Lifecycle -/

def Db.updateSubscription (db : Db) (id : Nat) (f : Subscription → Subscription) : Db :=
  { db with subscriptions := db.subscriptions.updateRow id f }

def findSubscription (id : Nat) : Tx Subscription := do
  let db ← read
  orAbort db.subscriptions[id]? (.notFound s!"subscription {id}")

/-- Set the status of the matching buckets of a subscription. -/
def Db.setBuckets (db : Db) (subscriptionId : Nat) (where_ : Bucket → Bool) (status : BucketStatus) :
    Db :=
  { db with
    buckets := db.buckets.updateWhere (fun b => b.subscriptionId == subscriptionId && where_ b)
      fun b => { b with status } }

/-- Buckets of status `source` that have not expired become active, the
others are retired. -/
def Db.reviveBuckets (db : Db) (subscriptionId : Nat) (source : BucketStatus) (now : Instant) : Db :=
  (db.setBuckets subscriptionId (fun b => b.status == source && now < b.expiresAt) .active
    ).retireBuckets subscriptionId (· == source) (·.expiresAt ≤ now)

/-- `refresh_locked`. -/
def refreshLocked (cal : Calendar) (catalog : Catalog) (planEnabled : Bool) (id : Nat)
    (now : Instant) : Tx Unit := do
  let s ← findSubscription id
  require (s.status = .active ∨ s.status = .paused)
    (.invalid "only an active or paused subscription can refresh")
  require (planEnabled = true) (.invalid "subscription plan is not enabled")
  if now < s.currentPeriodEnd then pure ()
  else do
    let (start, fin) ← attempt
      (cal.catchUp s.intervalUnit s.intervalCount now s.currentPeriodStart s.currentPeriodEnd)
    issuePeriodBuckets cal catalog
      ⟨id, start, fin, if s.status = .paused then .paused else .active⟩
      (some s.currentPeriodStart) now
    write fun db => db.updateSubscription id fun s =>
      { s with currentPeriodStart := start, currentPeriodEnd := fin }

/-- The two statuses `set_inactive_locked` is called with. -/
inductive InactiveStatus
  | paused
  | expired
deriving DecidableEq, Repr

def InactiveStatus.status : InactiveStatus → SubscriptionStatus
  | paused => .paused
  | expired => .expired

def InactiveStatus.bucketStatus : InactiveStatus → BucketStatus
  | paused => .paused
  | expired => .expired

/-- `set_inactive_locked`. -/
def setInactiveLocked (id : Nat) (allowed : List SubscriptionStatus) (target : InactiveStatus)
    (disableAutoRenew : Bool) : Tx Unit := do
  let s ← findSubscription id
  if s.status = target.status then pure ()
  else do
    require (s.status ∈ allowed)
      (.invalid s!"subscription cannot transition from {s.status.text} to {target.status.text}")
    match target with
    | .expired => write fun db => db.retireBuckets id BucketStatus.current fun _ => true
    | .paused => write fun db => db.setBuckets id (fun b => b.status.current) .paused
    write fun db => db.updateSubscription id fun s => { s with
      status := target.status
      autoRenew := if disableAutoRenew then false else s.autoRenew }

/-- `reactivate_subscription`. -/
def reactivateSubscription (cal : Calendar) (catalog : Catalog) (planEnabled : Bool) (id : Nat)
    (source : InactiveStatus) (resetPeriod : Bool) (now : Instant) : Tx Unit := do
  let s ← findSubscription id
  require (planEnabled = true) (.invalid "subscription plan is not enabled")
  if s.status = .active then pure ()
  else do
    require (s.status = source.status)
      (.invalid s!"subscription cannot transition from {s.status.text} to active")
    if resetPeriod ∨ s.currentPeriodEnd ≤ now then do
      let fin ← attempt (cal.following s.intervalUnit s.intervalCount now)
      issuePeriodBuckets cal catalog ⟨id, now, fin, .active⟩
        (if source = .paused ∧ resetPeriod = false then some s.currentPeriodStart else none) now
      write fun db => db.updateSubscription id fun s =>
        { s with status := .active, currentPeriodStart := now, currentPeriodEnd := fin }
    else do
      write fun db => db.reviveBuckets id source.bucketStatus now
      write fun db => db.updateSubscription id fun s => { s with status := .active }

/-- `cancel_pending_locked`. -/
def cancelPendingLocked (id : Nat) (now : Instant) : Tx Unit := do
  let s ← findSubscription id
  if s.status = .cancelPending then pure ()
  else do
    require (s.status = .active ∨ s.status = .paused)
      (.invalid s!"subscription cannot transition from {s.status.text} to cancel_pending")
    if s.status = .paused then write fun db => db.reviveBuckets id .paused now else pure ()
    write fun db => db.updateSubscription id fun s =>
      { s with status := .cancelPending, autoRenew := false }

/-- `set_subscription_auto_renew`. -/
def setSubscriptionAutoRenew (id : Nat) (autoRenew : Bool) : Tx Unit := do
  let db ← read
  require (∃ s ∈ db.subscriptions[id]?, s.status = .active ∨ s.status = .paused)
    (.invalid "auto renewal can only be changed for an active or paused subscription")
  write fun db => db.updateSubscription id fun s => { s with autoRenew }

/-- `pause_user_subscription`. -/
def pauseUserSubscription (id : Nat) : Tx Unit :=
  setInactiveLocked id [.active] .paused false

/-- `resume_user_subscription`. -/
def resumeUserSubscription (cal : Calendar) (catalog : Catalog) (planEnabled : Bool) (id : Nat)
    (now : Instant) : Tx Unit :=
  reactivateSubscription cal catalog planEnabled id .paused false now

/-- `renew_user_subscription`. -/
def renewUserSubscription (cal : Calendar) (catalog : Catalog) (planEnabled : Bool) (id : Nat)
    (now : Instant) : Tx Unit :=
  reactivateSubscription cal catalog planEnabled id .expired true now

/-- One transaction of `process_due_subscriptions`, on whichever due row was
not locked: `dueAt` is the database clock, `now` the clock of the refresh. -/
def processDueSubscription (cal : Calendar) (catalog : Catalog) (planEnabled : Bool) (id : Nat)
    (dueAt now : Instant) : Tx Unit := do
  let s ← findSubscription id
  if s.status ≠ .expired ∧ s.currentPeriodEnd ≤ dueAt then
    if (s.status = .active ∨ s.status = .paused) ∧ s.autoRenew ∧ planEnabled then
      refreshLocked cal catalog planEnabled id now
    else setInactiveLocked id [.active, .paused, .cancelPending] .expired true
  else pure ()

/-! ## Assignment -/

def quotaRuleSnapshot (subscriptionId : Nat) (rule : QuotaRule) (versions : List Int) :
    QuotaRuleSnapshot where
  subscriptionId := subscriptionId
  ruleKey := rule.ruleKey
  quotaClass := rule.quotaClass
  amountMicros := rule.amountMicros
  rolloverMode := rule.rolloverMode
  rolloverCapMicros := rule.rolloverCapMicros
  carryDurationSeconds := rule.carryDurationSeconds
  accessPlanVersions := versions

/-- `published_access_version_snapshots`. -/
def publishedAccessVersions (catalog : Catalog) : List Int → Tx (List Int)
  | [] => pure []
  | accessPlanId :: rest => do
    let version ← orAbort (catalog.publishedVersion accessPlanId)
      (.notFound s!"enabled access plan {accessPlanId} with an effective published version")
    let versions ← publishedAccessVersions catalog rest
    pure (version :: versions)

/-- The loop of `snapshot_subscription_quota_rules`. -/
def snapshotQuotaRules (catalog : Catalog) (subscriptionId : Nat) : List QuotaRule → Tx Unit
  | [] => pure ()
  | rule :: rest => do
    require (rule.quotaClass = .general → rule.accessPlanIds = [])
      (.invalid s!"general quota rule {rule.id} unexpectedly has access plans")
    require (rule.quotaClass = .dedicated → rule.accessPlanIds ≠ [])
      (.invalid s!"dedicated quota rule {rule.id} has no access plans")
    let versions ← publishedAccessVersions catalog rule.accessPlanIds
    write fun db => { db with
      ruleSnapshots := db.ruleSnapshots.insertRow (quotaRuleSnapshot subscriptionId rule versions) }
    snapshotQuotaRules catalog subscriptionId rest

/-- `assign_user_subscription`. -/
def assignUserSubscription (cal : Calendar) (input : Assignment) (now : Instant) : Tx Unit := do
  let request := input.request
  let db ← read
  match db.subscriptions.selectOne fun s => s.assignmentKey == input.assignmentKey with
  | some (_, s) =>
    require (s.assignmentRequest = request)
      (.invalid "idempotencyKey was already used for a different subscription assignment")
  | none => do
    require (input.userExists = true) (.notFound s!"user {request.userId}")
    require (input.activeMember = true)
      (.invalid s!"user {request.userId} is not a member of active project {request.projectId}")
    let plan ← orAbort input.plan (.notFound s!"subscription plan {request.planId}")
    require (plan.enabled = true) (.invalid "subscription plan is not enabled")
    let unit := request.intervalUnit.getD plan.intervalUnit
    let count := request.intervalCount.getD plan.intervalCount
    let fin ← attempt (cal.following unit count now)
    require (∀ id ∈ plan.accessPlanIds, (input.catalog.publishedVersion id).isSome)
      (.invalid "every subscription access plan must have an effective published version")
    write fun db => { db with
      subscriptions := db.subscriptions.insertRow
        { userId := request.userId
          projectId := request.projectId
          planId := request.planId
          assignmentKey := input.assignmentKey
          assignmentRequest := request
          status := .active
          currentPeriodStart := now
          currentPeriodEnd := fin
          intervalUnit := unit
          intervalCount := count
          autoRenew := request.autoRenew } }
    require (plan.rules ≠ []) (.invalid "subscription plan has no quota rules")
    snapshotQuotaRules input.catalog db.subscriptions.length plan.rules
    issuePeriodBuckets cal input.catalog ⟨db.subscriptions.length, now, fin, .active⟩ none now

end Conduit.Billing
