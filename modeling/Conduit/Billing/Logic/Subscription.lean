import Conduit.Billing.Logic.Quota
import Conduit.Billing.Subscription

/-!
# Subscription periods keep the quota

Issuing a period inserts buckets and closes others, and pausing and resuming
only moves buckets that are still current; neither touches what a bucket has
consumed or reserved. `Reissue` is what any of these statements does. The one
composite step is carrying over: the carry bucket may be inserted because its
source is closed in the same transaction.
-/

namespace Conduit.Billing

open Base Transaction

/-- The tables that subscriptions do not touch. -/
def Db.money (db : Db) : Db :=
  { db with
    subscriptions := [], ruleSnapshots := [], entitlementSnapshots := [], entitlementItems := []
    buckets := [] }

/-- What subscription statements do. -/
structure Reissue (db db' : Db) : Prop where
  quota : Quota db'
  money : db'.money = db.money
  issued : Issued db.buckets db'.buckets
  grow : db.buckets.length ≤ db'.buckets.length
  reserved : ∀ (b : Nat) (row' : Bucket), db'.buckets[b]? = some row' →
    (∃ row, db.buckets[b]? = some row ∧ row'.reservedMicros = row.reservedMicros) ∨
      (db.buckets.length ≤ b ∧ row'.reservedMicros = 0)

namespace Reissue

variable {db db₁ db' : Db}

theorem refl (h : Quota db) : Reissue db db :=
  ⟨h, rfl, .refl _, Nat.le_refl _, fun _ row hrow => .inl ⟨row, hrow, rfl⟩⟩

theorem trans (h₁ : Reissue db db₁) (h₂ : Reissue db₁ db') : Reissue db db' where
  quota := h₂.quota
  money := h₂.money.trans h₁.money
  issued := h₁.issued.trans h₂.issued
  grow := Nat.le_trans h₁.grow h₂.grow
  reserved b row' hrow' := by
    rcases h₂.reserved b row' hrow' with ⟨row₁, hrow₁, heq₁⟩ | ⟨hnew, hzero⟩
    · rcases h₁.reserved b row₁ hrow₁ with ⟨row, hrow, heq⟩ | ⟨hnew, hzero⟩
      · exact .inl ⟨row, hrow, heq₁.trans heq⟩
      · exact .inr ⟨hnew, heq₁.trans hzero⟩
    · exact .inr ⟨Nat.le_trans h₁.grow hnew, hzero⟩

/-- Statements on the other subscription tables. -/
theorem frame (h : Quota db) (hbuckets : db'.buckets = db.buckets)
    (hrules : db'.ruleSnapshots = db.ruleSnapshots) (hmoney : db'.money = db.money) :
    Reissue db db' :=
  ⟨h.frame hbuckets hrules, hmoney, hbuckets ▸ .refl _, Nat.le_of_eq (by rw [hbuckets]),
    fun _ row hrow => .inl ⟨row, hbuckets ▸ hrow, rfl⟩⟩

theorem insertRow (h : Quota { db with buckets := db.buckets.insertRow row })
    (hreserved : row.reservedMicros = 0) :
    Reissue db { db with buckets := db.buckets.insertRow row } where
  quota := h
  money := rfl
  issued b old hold := ⟨old, Table.getElem?_insertRow_of_some row hold, .refl old⟩
  grow := by
    rw [Table.length_insertRow]
    omega
  reserved b row' hrow' := by
    rcases Table.getElem?_insertRow_cases hrow' with ⟨hb, rfl⟩ | hold
    · exact .inr ⟨Nat.le_of_eq hb.symm, hreserved⟩
    · exact .inl ⟨row', hold, rfl⟩

theorem updateWhere (h : Quota db) {p : Bucket → Bool} {f : Bucket → Bucket}
    (hsame : ∀ b, (f b).SameIssue b ∧ (f b).reservedMicros = b.reservedMicros)
    (hwithin : ∀ row carried, p row = true → row.Within carried → (f row).Within carried) :
    Reissue db { db with buckets := db.buckets.updateWhere p f } where
  quota := h.updateWhere (fun b => (hsame b).1) hwithin
  money := rfl
  issued b row hrow := by
    rw [Table.getElem?_updateWhere, hrow]
    refine ⟨if p row then f row else row, rfl, ?_⟩
    split
    · exact (hsame row).1
    · exact .refl row
  grow := Nat.le_of_eq (Table.length_updateWhere ..).symm
  reserved b row' hrow' := by
    obtain ⟨row, hrow, rfl⟩ := Table.getElem?_updateWhere_cases hrow'
    refine .inl ⟨row, hrow, ?_⟩
    split
    · exact (hsame row).2
    · rfl

end Reissue

/-! ## Statements on buckets -/

section Statements

variable {db : Db} (h : Quota db) (subscriptionId : Nat)

include h in
theorem reissue_retireBuckets (statuses : BucketStatus → Bool) (due : Bucket → Bool) :
    Reissue db (db.retireBuckets subscriptionId statuses due) :=
  .updateWhere h (fun _ => ⟨⟨rfl, rfl, rfl⟩, rfl⟩) fun _ _ _ hwithin => hwithin.retire

include h in
/-- Only current buckets may change to another status than draining or
expired. -/
theorem reissue_setBuckets (where_ : Bucket → Bool) (status : BucketStatus)
    (hstatus : status ≠ .expired) (hcurrent : ∀ b, where_ b = true → b.status.current = true) :
    Reissue db (db.setBuckets subscriptionId where_ status) :=
  .updateWhere h (fun _ => ⟨⟨rfl, rfl, rfl⟩, rfl⟩) fun row carried hmatch hwithin => by
    rw [Bool.and_eq_true] at hmatch
    exact hwithin.setStatus (hcurrent row hmatch.2) hstatus

include h in
/-- Reviving paused buckets. An expired one may have been carried over, and
no operation revives those. -/
theorem reissue_reviveBuckets (now : Instant) :
    Reissue db (db.reviveBuckets subscriptionId .paused now) := by
  have hcurrent : ∀ b : Bucket, (b.status == .paused && now < b.expiresAt : Bool) = true →
      b.status.current = true := by
    intro b hmatch
    rw [Bool.and_eq_true, beq_iff_eq] at hmatch
    rw [hmatch.1]
    rfl
  have hrevive := reissue_setBuckets h subscriptionId
    (fun b => b.status == .paused && now < b.expiresAt) .active (by simp) hcurrent
  exact hrevive.trans (reissue_retireBuckets hrevive.quota subscriptionId _ _)

end Statements

/-! ## Issuing a period -/

theorem insertBucket_cases (db : Db) (b : Bucket) :
    db.insertBucket b = db ∨ db.insertBucket b = { db with buckets := db.buckets.insertRow b } := by
  unfold Db.insertBucket
  split
  · exact .inl rfl
  · exact .inr rfl

theorem reissue_upsertEntitlementSnapshot {db : Db} (h : Quota db) (subscriptionId : Nat)
    (periodStart periodEnd : Instant) :
    Reissue db (db.upsertEntitlementSnapshot subscriptionId periodStart periodEnd).2 := by
  unfold Db.upsertEntitlementSnapshot
  split
  · exact .frame h rfl rfl rfl
  · exact .frame h rfl rfl rfl

theorem reissue_materializeEntitlementItems (snapshotId ruleId : Nat) (publicModelIds : List Int) :
    ∀ db : Db, Quota db →
      Reissue db (db.materializeEntitlementItems snapshotId ruleId publicModelIds) := by
  induction publicModelIds with
  | nil => exact fun db h => .refl h
  | cons publicModelId rest ih =>
      intro db h
      unfold Db.materializeEntitlementItems
      dsimp only
      split
      · exact ih db h
      · next hnew =>
          have hstep : Reissue db { db with
              entitlementItems := db.entitlementItems.insertRow
                ⟨snapshotId, ruleId, publicModelId⟩ } := .frame h rfl rfl rfl
          exact hstep.trans (ih _ hstep.quota)

/-- One bucket for each rule, granted the rule's amount. -/
theorem reissue_issueRuleBuckets (catalog : Catalog) (period : Period) (snapshotId : Nat)
    (rules : List (Nat × QuotaRuleSnapshot)) :
    ∀ db : Db, Quota db → (∀ entry ∈ rules, 0 ≤ entry.2.amountMicros) →
      Reissue db (db.issueRuleBuckets catalog period snapshotId rules) := by
  induction rules with
  | nil => exact fun db h _ => .refl h
  | cons entry rest ih =>
      intro db h hamounts
      have hitems := reissue_materializeEntitlementItems snapshotId entry.1
        (catalog.publicModelIds entry.2.accessPlanVersions) db h
      have hbucket : Reissue db ((db.materializeEntitlementItems snapshotId entry.1
          (catalog.publicModelIds entry.2.accessPlanVersions)).insertBucket
            (ruleBucket period snapshotId entry.1 entry.2)) := by
        refine hitems.trans ?_
        rcases insertBucket_cases (db.materializeEntitlementItems snapshotId entry.1
          (catalog.publicModelIds entry.2.accessPlanVersions))
            (ruleBucket period snapshotId entry.1 entry.2) with heq | heq
        · rw [heq]
          exact .refl hitems.quota
        · rw [heq]
          refine .insertRow (hitems.quota.insertRow rfl rfl ?_ ?_) rfl
          · exact hamounts entry List.mem_cons_self
          · intro b hsource
            exact absurd hsource (by simp [ruleBucket])
      exact hbucket.trans (ih _ hbucket.quota fun other hmem =>
        hamounts other (List.mem_cons_of_mem entry hmem))

/-! ## Carrying over -/

/-- Closing a fetched source. -/
theorem reissue_closeSource {db : Db} (h : Quota db) {sourceId : Nat} {source : Bucket}
    (hsource : db.buckets[sourceId]? = some source) :
    Reissue db { db with
      buckets := db.buckets.updateRow sourceId
        fun row => { row with status := source.retire.status } } where
  quota := h.updateRow (fun _ => ⟨rfl, rfl, rfl⟩) fun row hrow hwithin => by
    obtain rfl := Option.some.inj (hrow.symm.trans hsource)
    exact hwithin.retire
  money := rfl
  issued := .updateRow _ _ fun _ => ⟨rfl, rfl, rfl⟩
  grow := Nat.le_of_eq (Table.length_updateRow ..).symm
  reserved b row' hrow' := by
    rcases Table.getElem?_updateRow_cases hrow' with ⟨rfl, row, hrow, rfl⟩ | ⟨_, hrow⟩
    · exact .inl ⟨row, hrow, rfl⟩
    · exact .inl ⟨row', hrow, rfl⟩

theorem Bucket.retire_closed (b : Bucket) : b.retire.status.current = false := by
  unfold retire
  dsimp only
  split <;> rfl

/-- Carrying over from a current source and closing it. The carry is at most
what the source had left, and the closed source never gets another one. -/
theorem reissue_carrySource {db : Db} (h : Quota db) {period : Period} {sourceId : Nat}
    {source : Bucket} {rule : QuotaRuleSnapshot} {expiresAt : Instant}
    (hsource : db.buckets[sourceId]? = some source) (hcurrent : source.status.current = true)
    (hrule : db.ruleSnapshots[source.quotaRuleSnapshotId]? = some rule)
    (hpos : 0 < carryAmount rule source) :
    Reissue db { db with
      buckets := (db.buckets.updateRow sourceId
        fun row => { row with status := source.retire.status }).insertRow
          (carryBucket period sourceId source expiresAt (carryAmount rule source)) } := by
  have hclose := reissue_closeSource h hsource
  have hclosed := Table.getElem?_updateRow_self
    (fun row : Bucket => { row with status := source.retire.status }) hsource
  have havailable := (h.within sourceId source hsource).available_eq hcurrent
  have hle : carryAmount rule source ≤ source.available := Int.min_le_left ..
  refine hclose.trans (.insertRow (hclose.quota.insertRow rfl rfl (Int.le_of_lt hpos) ?_) rfl)
  intro b hb
  obtain rfl := Option.some.inj hb
  refine ⟨⟨hpos, ⟨_, hclosed, rfl⟩, rule, hrule, Int.min_le_right ..⟩, ?_, ?_⟩
  · intro i other hother
    rcases Table.getElem?_updateRow_cases hother with ⟨_, old, hold, rfl⟩ | ⟨_, hold⟩
    · have hnot : old.sourceBucketId ≠ some sourceId := h.not_carried hsource hcurrent hold
      exact hnot
    · exact h.not_carried hsource hcurrent hold
  · intro row hrow
    obtain rfl := Option.some.inj (hclosed.symm.trans hrow)
    refine ⟨source.retire_closed, ?_⟩
    show source.consumedMicros + source.reservedMicros + carryAmount rule source ≤
      source.grantedMicros
    omega

/-- One round of the source loop. -/
theorem reissue_rolloverSource {cal : Calendar} {db db₁ : Db} {period : Period} {now : Instant}
    {sourceId : Nat} {source : Bucket} {rule : QuotaRuleSnapshot} {u : Unit} (h : Quota db)
    (hsource : db.buckets[sourceId]? = some source) (hcurrent : source.status.current = true)
    (hrule : db.ruleSnapshots[source.quotaRuleSnapshotId]? = some rule)
    (hcommit : Commits (carryOver cal period now sourceId source rule) db u db₁) :
    Reissue db { db₁ with
      buckets := db₁.buckets.updateRow sourceId
        fun row => { row with status := source.retire.status } } ∧
      ∀ i, i ≠ sourceId → i < db.buckets.length →
        (db₁.buckets.updateRow sourceId
          fun row => { row with status := source.retire.status })[i]? = db.buckets[i]? := by
  have hnothing : Reissue db { db with
      buckets := db.buckets.updateRow sourceId
        fun row => { row with status := source.retire.status } } ∧
      ∀ i, i ≠ sourceId → i < db.buckets.length →
        (db.buckets.updateRow sourceId
          fun row => { row with status := source.retire.status })[i]? = db.buckets[i]? :=
    ⟨reissue_closeSource h hsource,
      fun i hne _ => Table.getElem?_updateRow_ne _ _ (Ne.symm hne)⟩
  simp only [carryOver, commits_ite, commits_bind, commits_orAbort, commits_write,
    commits_pure] at hcommit
  rcases hcommit with ⟨_, expiresAt, _, ⟨_, rfl⟩, ⟨⟨hpos, _⟩, rfl⟩ | ⟨_, _, rfl⟩⟩ | ⟨_, _, rfl⟩
  · rcases insertBucket_cases db
      (carryBucket period sourceId source expiresAt (carryAmount rule source)) with heq | heq
    · rw [heq]
      exact hnothing
    · rw [heq]
      have hlt := Table.getElem?_lt hsource
      dsimp only
      rw [Table.updateRow_insertRow _ _ hlt]
      refine ⟨reissue_carrySource h hsource hcurrent hrule hpos, fun i hne hi => ?_⟩
      rw [Table.getElem?_insertRow, Table.length_updateRow, if_neg (Nat.ne_of_lt hi)]
      exact Table.getElem?_updateRow_ne _ _ (Ne.symm hne)
  · exact hnothing
  · exact hnothing

theorem reissue_rolloverSources {cal : Calendar} {period : Period} {now : Instant}
    (rows : List (Nat × Bucket)) :
    ∀ (db : Db) (u : Unit) (db' : Db),
      Commits (rolloverSources cal period now rows) db u db' → Quota db →
      Table.Fetched db.buckets rows → (∀ entry ∈ rows, entry.2.status.current = true) →
      Reissue db db' := by
  induction rows with
  | nil =>
      intro db u db' hcommit h _ _
      obtain ⟨_, rfl⟩ := commits_pure.mp hcommit
      exact .refl h
  | cons entry rest ih =>
      intro db u db' hcommit h hfetched hcurrent
      simp only [rolloverSources, commits_bind, commits_read, commits_orAbort,
        commits_write] at hcommit
      obtain ⟨_, _, ⟨rfl, rfl⟩, rule, _, ⟨hrule, rfl⟩, _, db₁, hcarry, _, _, rfl, hloop⟩ := hcommit
      obtain ⟨hstep, hothers⟩ := reissue_rolloverSource h hfetched.head
        (hcurrent entry List.mem_cons_self) hrule hcarry
      exact hstep.trans (ih _ u db' hloop hstep.quota (hfetched.tail hothers) fun other hmem =>
        hcurrent other (List.mem_cons_of_mem entry hmem))

/-- `issue_period_buckets`. -/
theorem reissue_issuePeriodBuckets {cal : Calendar} {catalog : Catalog} {period : Period}
    {sourceStart : Option Instant} {now : Instant} {db db' : Db} {u : Unit} (h : Quota db)
    (hcommit : Commits (issuePeriodBuckets cal catalog period sourceStart now) db u db') :
    Reissue db db' := by
  simp only [issuePeriodBuckets, commits_bind, commits_read, commits_require,
    commits_write] at hcommit
  obtain ⟨_, _, ⟨rfl, rfl⟩, _, _, ⟨_, rfl⟩, _, _, rfl, _, db₁, hrollover, rfl⟩ := hcommit
  have hsnapshot := reissue_upsertEntitlementSnapshot h period.subscriptionId period.start period.fin
  have hissue := hsnapshot.trans (reissue_issueRuleBuckets catalog period
    (db.upsertEntitlementSnapshot period.subscriptionId period.start period.fin).1
    (db.ruleSnapshots.selectWhere fun r => r.subscriptionId == period.subscriptionId) _
    hsnapshot.quota fun entry hmem => h.ruleAmount entry.1 entry.2 (Table.mem_selectWhere.mp hmem).1)
  have hroll : Reissue db db₁ := by
    cases sourceStart with
    | none =>
        obtain ⟨_, rfl⟩ := commits_pure.mp hrollover
        exact hissue
    | some start =>
        simp only [rolloverFrom, commits_bind, commits_read] at hrollover
        obtain ⟨_, _, ⟨rfl, rfl⟩, hloop⟩ := hrollover
        refine hissue.trans (reissue_rolloverSources _ _ u _ hloop hissue.quota
          (Table.fetched_selectWhere ..) fun entry hmem => ?_)
        have hmatch := (Table.mem_selectWhere.mp hmem).2
        simp only [Bool.and_eq_true] at hmatch
        exact hmatch.2
  exact hroll.trans (reissue_retireBuckets hroll.quota ..)

/-! ## Lifecycle -/

/-- A subscription statement, from any state that keeps the quota. -/
def Reissues (db db' : Db) : Prop := Quota db → Reissue db db'

instance : Std.Refl Reissues := ⟨fun _ h => .refl h⟩

instance : IsTrans Db Reissues := ⟨fun _ _ _ h₁ h₂ h => (h₁ h).trans (h₂ (h₁ h).quota)⟩

theorem updateSubscription_steps (id : Nat) (f : Subscription → Subscription) :
    Steps (ε := TxError) Reissues (write fun db => db.updateSubscription id f) :=
  .write fun _ h => .frame h rfl rfl rfl

theorem findSubscription_steps (id : Nat) : Steps Reissues (findSubscription id) :=
  .bind .read fun _ => .orAbort

theorem issuePeriodBuckets_steps (cal : Calendar) (catalog : Catalog) (period : Period)
    (sourceStart : Option Instant) (now : Instant) :
    Steps Reissues (issuePeriodBuckets cal catalog period sourceStart now) :=
  fun _ _ _ hcommit h => reissue_issuePeriodBuckets h hcommit

theorem refreshLocked_steps (cal : Calendar) (catalog : Catalog) (planEnabled : Bool) (id : Nat)
    (now : Instant) : Steps Reissues (refreshLocked cal catalog planEnabled id now) := by
  refine .bind (findSubscription_steps id) fun s => .bind .require fun _ => .bind .require fun _ =>
    .ite (fun _ => .pure) fun _ => .bind .attempt fun period => ?_
  exact .bind (issuePeriodBuckets_steps _ _ _ _ _) fun _ => updateSubscription_steps _ _

theorem setInactiveLocked_steps (id : Nat) (allowed : List SubscriptionStatus)
    (target : InactiveStatus) (disableAutoRenew : Bool) :
    Steps Reissues (setInactiveLocked id allowed target disableAutoRenew) := by
  refine .bind (findSubscription_steps id) fun s => .ite (fun _ => .pure) fun _ =>
    .bind .require fun _ => ?_
  cases target with
  | expired =>
      refine .bind (.write fun db h => reissue_retireBuckets h id _ _) fun _ => ?_
      exact updateSubscription_steps _ _
  | paused =>
      refine .bind (.write fun db h => reissue_setBuckets h id _ _ (by simp) fun _ hc => hc) fun _ => ?_
      exact updateSubscription_steps _ _

/-- Renewing an expired subscription always issues a new period, so its old
buckets stay closed. -/
theorem reactivateSubscription_steps (cal : Calendar) (catalog : Catalog) (planEnabled : Bool)
    (id : Nat) {source : InactiveStatus} {resetPeriod : Bool} (now : Instant)
    (hreset : source = .expired → resetPeriod = true) :
    Steps Reissues (reactivateSubscription cal catalog planEnabled id source resetPeriod now) := by
  refine .bind (findSubscription_steps id) fun s => .bind .require fun _ => .ite (fun _ => .pure)
    fun _ => .bind .require fun _ => .ite (fun _ => ?_) fun hkeep => ?_
  · refine .bind .attempt fun fin => .bind (issuePeriodBuckets_steps _ _ _ _ _) fun _ => ?_
    exact updateSubscription_steps _ _
  · cases source with
    | expired => exact absurd (.inl (hreset rfl)) hkeep
    | paused =>
        refine .bind (.write fun db h => reissue_reviveBuckets h id now) fun _ => ?_
        exact updateSubscription_steps _ _

theorem cancelPendingLocked_steps (id : Nat) (now : Instant) :
    Steps Reissues (cancelPendingLocked id now) := by
  refine .bind (findSubscription_steps id) fun s => .ite (fun _ => .pure) fun _ =>
    .bind .require fun _ => .ite (fun _ => ?_) fun _ => ?_
  · refine .bind (.write fun db h => reissue_reviveBuckets h id now) fun _ => ?_
    exact updateSubscription_steps _ _
  · exact updateSubscription_steps _ _

theorem setSubscriptionAutoRenew_steps (id : Nat) (autoRenew : Bool) :
    Steps Reissues (setSubscriptionAutoRenew id autoRenew) :=
  .bind .read fun _ => .bind .require fun _ => updateSubscription_steps _ _

theorem processDueSubscription_steps (cal : Calendar) (catalog : Catalog) (planEnabled : Bool)
    (id : Nat) (dueAt now : Instant) :
    Steps Reissues (processDueSubscription cal catalog planEnabled id dueAt now) := by
  refine .bind (findSubscription_steps id) fun s => .ite (fun _ => .ite (fun _ => ?_) fun _ => ?_)
    fun _ => .pure
  · exact refreshLocked_steps cal catalog planEnabled id now
  · exact setInactiveLocked_steps id _ .expired true

/-! ## Assignment -/

theorem publishedAccessVersions_steps (catalog : Catalog) (accessPlanIds : List Int) :
    Steps Reissues (publishedAccessVersions catalog accessPlanIds) := by
  induction accessPlanIds with
  | nil => exact .pure
  | cons accessPlanId rest ih =>
      exact .bind .orAbort fun _ => .bind ih fun _ => .pure

theorem snapshotQuotaRules_steps (catalog : Catalog) (subscriptionId : Nat)
    (rules : List QuotaRule) : Steps Reissues (snapshotQuotaRules catalog subscriptionId rules) := by
  induction rules with
  | nil => exact .pure
  | cons rule rest ih =>
      refine .bind .require fun _ => .bind .require fun _ =>
        .bind (publishedAccessVersions_steps catalog rule.accessPlanIds) fun versions =>
          .bind (.write fun db h => ?_) fun _ => ih
      exact ⟨h.insertRule (Int.le_of_lt rule.positive), rfl, .refl _, Nat.le_refl _,
        fun _ row hrow => .inl ⟨row, hrow, rfl⟩⟩

theorem assignUserSubscription_steps (cal : Calendar) (input : Assignment) (now : Instant) :
    Steps Reissues (assignUserSubscription cal input now) := by
  refine .bind .read fun db => ?_
  split
  · exact .require
  · refine .bind .require fun _ => .bind .require fun _ => .bind .orAbort fun plan =>
      .bind .require fun _ => .bind .attempt fun fin => .bind .require fun _ =>
        .bind (.write fun db h => .frame h rfl rfl rfl) fun _ => .bind .require fun _ => ?_
    exact .bind (snapshotQuotaRules_steps _ _ _) fun _ => issuePeriodBuckets_steps _ _ _ _ _

end Conduit.Billing
