import Conduit.Billing.Subscription

/-!
# The periods of a subscription

The current period and the interval fix all later boundaries (`boundary`). A
refresh steps over missed periods, so it always leaves two consecutive
boundaries, and after a successful one those around its clock; these are
unique, so it does not matter when or how often a subscription was refreshed
before.
-/

namespace Conduit.Billing

open Base Transaction

/-! ## Boundaries -/

/-- The start and the end of the current period and the ends of the ones after
it, as far as the calendar goes. -/
def Subscription.boundary (cal : Calendar) (s : Subscription) : Nat → Option Instant
  | 0 => some s.currentPeriodStart
  | 1 => some s.currentPeriodEnd
  | k + 2 => (s.boundary cal (k + 1)).bind fun b => cal.nextPeriod b s.intervalUnit s.intervalCount.toNat

/-- Two consecutive boundaries. -/
def Subscription.IsPeriod (cal : Calendar) (s : Subscription) (k : Nat) (start fin : Instant) : Prop :=
  s.boundary cal k = some start ∧ s.boundary cal (k + 1) = some fin

section Boundary

variable {cal : Calendar} {s : Subscription}

theorem Calendar.following_of_pos {unit : IntervalUnit} {count : Int} (hcount : 0 < count)
    (fin : Instant) :
    cal.following unit count fin =
      match cal.nextPeriod fin unit count.toNat with
      | some next => .ok next
      | none => .error (.invalid "subscription period overflow") := if_pos hcount

theorem IsPeriod.later (hcount : 0 < s.intervalCount) (hperiod : s.currentPeriodStart < s.currentPeriodEnd)
    {k : Nat} {start fin : Instant} (h : s.IsPeriod cal k start fin) : start < fin := by
  obtain ⟨hstart, hfin⟩ := h
  cases k with
  | zero =>
      rw [← Option.some.inj hstart, ← Option.some.inj hfin]
      exact hperiod
  | succ k =>
      unfold Subscription.boundary at hfin
      rw [hstart] at hfin
      exact cal.nextPeriod_later (by omega) hfin

/-- Boundaries of the same subscription come in their order. -/
theorem boundary_lt (hcount : 0 < s.intervalCount) (hperiod : s.currentPeriodStart < s.currentPeriodEnd)
    {j k : Nat} (hlt : j < k) {b c : Instant} (hb : s.boundary cal j = some b)
    (hc : s.boundary cal k = some c) : b < c := by
  induction k generalizing c with
  | zero => omega
  | succ k ih =>
      have hbefore : ∃ a : Instant, s.boundary cal k = some a := by
        cases k with
        | zero => exact ⟨_, rfl⟩
        | succ k =>
            unfold Subscription.boundary at hc
            obtain ⟨a, ha, -⟩ := Option.bind_eq_some_iff.mp hc
            exact ⟨a, ha⟩
      obtain ⟨a, ha⟩ := hbefore
      have hstep : a < c := IsPeriod.later hcount hperiod ⟨ha, hc⟩
      rcases Nat.lt_succ_iff_lt_or_eq.mp hlt with hearlier | rfl
      · exact (ih hearlier ha).trans hstep
      · rwa [← Option.some.inj (ha.symm.trans hb)]

/-- One period holds an instant. -/
theorem IsPeriod.unique (hcount : 0 < s.intervalCount)
    (hperiod : s.currentPeriodStart < s.currentPeriodEnd) {j k : Nat}
    {start fin start' fin' now : Instant} (h : s.IsPeriod cal j start fin)
    (h' : s.IsPeriod cal k start' fin') (hnow : start ≤ now ∧ now < fin)
    (hnow' : start' ≤ now ∧ now < fin') : start = start' ∧ fin = fin' := by
  have hle : ∀ {i m : Nat} {b c b' c' : Instant}, s.IsPeriod cal i b c → s.IsPeriod cal m b' c' →
      now < c → b' ≤ now → m ≤ i := by
    intro i m b c b' c' hi hm hc hb'
    by_contra hlt
    have hcb : c ≤ b' := by
      rcases Nat.lt_or_eq_of_le (show i + 1 ≤ m by omega) with hlater | rfl
      · exact le_of_lt (boundary_lt hcount hperiod hlater hi.2 hm.1)
      · exact le_of_eq (Option.some.inj (hi.2.symm.trans hm.1))
    exact absurd (hc.trans_le (hcb.trans hb')) (lt_irrefl now)
  obtain rfl : j = k := le_antisymm (hle h' h hnow'.2 hnow.1) (hle h h' hnow.2 hnow'.1)
  exact ⟨Option.some.inj (h.1.symm.trans h'.1), Option.some.inj (h.2.symm.trans h'.2)⟩

/-- Stepping over missed periods ends at the period around `now`. -/
theorem catchUp_isPeriod (hcount : 0 < s.intervalCount) {now start fin start' fin' : Instant} {k : Nat}
    (h : s.IsPeriod cal k start fin) (hstart : start ≤ now)
    (hrun : cal.catchUp s.intervalUnit s.intervalCount now start fin = .ok (start', fin')) :
    ∃ j, s.IsPeriod cal j start' fin' ∧ start' ≤ now ∧ now < fin' := by
  induction hmissed : (now + 1 - fin).toNat using Nat.strong_induction_on generalizing start fin k with
  | _ missed ih =>
      unfold Calendar.catchUp at hrun
      by_cases hdue : fin ≤ now
      · rw [dif_pos hdue] at hrun
        split at hrun
        · next next hnext =>
            have hadjoin : s.IsPeriod cal (k + 1) fin next := by
              refine ⟨h.2, ?_⟩
              unfold Subscription.boundary
              rw [h.2, Option.bind_some]
              rw [Calendar.following_of_pos hcount] at hnext
              split at hnext
              · next b hb => rw [hb, Except.ok.inj hnext]
              · cases hnext
            have hdecrease := missed_decreases hdue (cal.following_later hnext)
            exact ih _ (hmissed ▸ hdecrease) hadjoin hdue hrun rfl
        · cases hrun
      · rw [dif_neg hdue] at hrun
        obtain ⟨rfl, rfl⟩ := Prod.mk.inj (Except.ok.inj hrun)
        exact ⟨k, h, hstart, not_le.mp hdue⟩

/-- It fails for the calendar's bounds only. -/
theorem catchUp_error (hcount : 0 < s.intervalCount) {now start fin : Instant} {e : TxError}
    (hrun : cal.catchUp s.intervalUnit s.intervalCount now start fin = .error e) :
    e = .invalid "subscription period overflow" := by
  induction hmissed : (now + 1 - fin).toNat using Nat.strong_induction_on generalizing start fin with
  | _ missed ih =>
      unfold Calendar.catchUp at hrun
      by_cases hdue : fin ≤ now
      · rw [dif_pos hdue] at hrun
        split at hrun
        · next next hnext =>
            have hdecrease := missed_decreases hdue (cal.following_later hnext)
            exact ih _ (hmissed ▸ hdecrease) hrun rfl
        · next e' hnext =>
            rw [Calendar.following_of_pos hcount] at hnext
            split at hnext
            · cases hnext
            · rw [← Except.error.inj hrun, ← Except.error.inj hnext]
      · rw [dif_neg hdue] at hrun
        cases hrun

end Boundary

/-! ## Refreshing -/

/-- Statements that leave the subscriptions alone. -/
def SameSubscriptions (db db' : Db) : Prop := db'.subscriptions = db.subscriptions

instance : Std.Refl SameSubscriptions := ⟨fun _ => rfl⟩

instance : IsTrans Db SameSubscriptions := ⟨fun _ _ _ h₁ h₂ => h₂.trans h₁⟩

theorem insertBucket_subscriptions (db : Db) (b : Bucket) :
    (db.insertBucket b).subscriptions = db.subscriptions := by
  unfold Db.insertBucket
  split
  · rfl
  · rfl

theorem materializeEntitlementItems_subscriptions (snapshotId ruleId : Nat) (ids : List Int) (db : Db) :
    (db.materializeEntitlementItems snapshotId ruleId ids).subscriptions = db.subscriptions := by
  induction ids generalizing db with
  | nil => rfl
  | cons publicModelId ids ih =>
      unfold Db.materializeEntitlementItems
      rw [ih]
      split_ifs
      · rfl
      · rfl

theorem issueRuleBuckets_subscriptions (catalog : Catalog) (period : Period) (snapshotId : Nat)
    (rules : List (Nat × QuotaRuleSnapshot)) (db : Db) :
    (db.issueRuleBuckets catalog period snapshotId rules).subscriptions = db.subscriptions := by
  induction rules generalizing db with
  | nil => rfl
  | cons rule rules ih =>
      unfold Db.issueRuleBuckets
      rw [ih, insertBucket_subscriptions, materializeEntitlementItems_subscriptions]

theorem upsertEntitlementSnapshot_subscriptions (db : Db) (subscriptionId : Nat)
    (periodStart periodEnd : Instant) :
    (db.upsertEntitlementSnapshot subscriptionId periodStart periodEnd).2.subscriptions =
      db.subscriptions := by
  unfold Db.upsertEntitlementSnapshot
  split
  · rfl
  · rfl

theorem carryOver_subscriptions (cal : Calendar) (period : Period) (now : Instant) (sourceId : Nat)
    (source : Bucket) (rule : QuotaRuleSnapshot) :
    Steps SameSubscriptions (carryOver cal period now sourceId source rule) := by
  unfold carryOver
  refine .ite (fun _ => .bind .orAbort fun expiresAt => ?_) fun _ => .pure
  exact .ite (fun _ => .write fun db => insertBucket_subscriptions db _) fun _ => .pure

theorem rolloverSources_subscriptions (cal : Calendar) (period : Period) (now : Instant)
    (rows : List (Nat × Bucket)) : Steps SameSubscriptions (rolloverSources cal period now rows) := by
  induction rows with
  | nil => exact .pure
  | cons row rows ih =>
      unfold rolloverSources
      exact .bind .read fun _ => .bind .orAbort fun _ => .bind (carryOver_subscriptions _ _ _ _ _ _) fun _ =>
        .bind (.write fun _ => rfl) fun _ => ih

theorem issuePeriodBuckets_subscriptions (cal : Calendar) (catalog : Catalog) (period : Period)
    (sourceStart : Option Instant) (now : Instant) :
    Steps SameSubscriptions (issuePeriodBuckets cal catalog period sourceStart now) := by
  intro db u db' hcommit
  simp only [issuePeriodBuckets, commits_bind, commits_read, commits_require,
    commits_write] at hcommit
  obtain ⟨_, _, ⟨rfl, rfl⟩, _, _, ⟨_, rfl⟩, _, _, rfl, _, db₁, hrollover, rfl⟩ := hcommit
  have hroll : Steps SameSubscriptions (rolloverFrom cal period now sourceStart) := by
    cases sourceStart with
    | none => exact .pure
    | some start => exact .bind .read fun _ => rolloverSources_subscriptions _ _ _ _
  refine (hroll _ _ _ hrollover).trans ?_
  rw [issueRuleBuckets_subscriptions, upsertEntitlementSnapshot_subscriptions]

section Refresh

variable {cal : Calendar} {catalog : Catalog} {planEnabled : Bool} {id : Nat} {now : Instant}
  {db db' : Db} {s : Subscription}

def Subscription.withPeriod (s : Subscription) (start fin : Instant) : Subscription :=
  { s with currentPeriodStart := start, currentPeriodEnd := fin }

/-- What a refresh does: nothing before the end of the period, else it moves
the row to the period it caught up with. -/
theorem commits_refreshLocked (hrow : db.subscriptions[id]? = some s) {u : Unit}
    (h : Commits (refreshLocked cal catalog planEnabled id now) db u db') :
    (now < s.currentPeriodEnd ∧ db' = db) ∨
      (s.currentPeriodEnd ≤ now ∧ ∃ start fin : Instant,
        cal.catchUp s.intervalUnit s.intervalCount now s.currentPeriodStart s.currentPeriodEnd =
          .ok (start, fin) ∧ db'.subscriptions[id]? = some (s.withPeriod start fin)) := by
  simp only [refreshLocked, findSubscription, commits_bind, commits_read, commits_orAbort,
    commits_require, commits_ite, commits_pure, commits_attempt, commits_write] at h
  obtain ⟨_, _, ⟨_, _, ⟨rfl, rfl⟩, hfound, rfl⟩, _, _, ⟨_, rfl⟩, _, _, ⟨_, rfl⟩, h⟩ := h
  obtain rfl := Option.some.inj (hrow.symm.trans hfound)
  rcases h with ⟨hearly, _, rfl⟩ | ⟨hdue, ⟨start, fin⟩, _, ⟨hcatch, rfl⟩, _, db₁, hissue, rfl⟩
  · exact .inl ⟨hearly, rfl⟩
  · refine .inr ⟨not_lt.mp hdue, start, fin, hcatch, ?_⟩
    have hsame : db₁.subscriptions = db.subscriptions :=
      issuePeriodBuckets_subscriptions _ _ _ _ _ _ _ _ hissue
    show (db₁.subscriptions.updateRow id _)[id]? = _
    rw [hsame]
    exact Table.getElem?_updateRow_self _ hrow

/-- Why a refresh of an active or paused subscription of an enabled plan can
fail. -/
def RefreshFailure (e : TxError) : Prop :=
  e = .invalid "subscription period overflow" ∨ e = .invalid "carryover expiry overflow" ∨
    e = .invalid "subscription has no quota rule snapshots" ∨ e = .storage "no rows returned"

theorem carryOver_errors (cal : Calendar) (period : Period) (now : Instant) (sourceId : Nat)
    (source : Bucket) (rule : QuotaRuleSnapshot) :
    Errors RefreshFailure (carryOver cal period now sourceId source rule) := by
  unfold carryOver
  refine .ite (fun _ => .bind (.orAbort (.inr (.inl rfl))) fun expiresAt => ?_) fun _ => .pure
  exact .ite (fun _ => .write) fun _ => .pure

theorem rolloverSources_errors (cal : Calendar) (period : Period) (now : Instant)
    (rows : List (Nat × Bucket)) : Errors RefreshFailure (rolloverSources cal period now rows) := by
  induction rows with
  | nil => exact .pure
  | cons row rows ih =>
      unfold rolloverSources
      exact .bind .read fun _ => .bind (.orAbort (.inr (.inr (.inr rfl)))) fun _ =>
        .bind (carryOver_errors _ _ _ _ _ _) fun _ => .bind .write fun _ => ih

theorem issuePeriodBuckets_errors (cal : Calendar) (catalog : Catalog) (period : Period)
    (sourceStart : Option Instant) (now : Instant) :
    Errors RefreshFailure (issuePeriodBuckets cal catalog period sourceStart now) := by
  refine .bind .read fun db => .bind (.require fun _ => .inr (.inr (.inl rfl))) fun _ =>
    .bind .write fun _ => .bind ?_ fun _ => .write
  cases sourceStart with
  | none => exact .pure
  | some start => exact .bind .read fun _ => rolloverSources_errors _ _ _ _

theorem refreshLocked_error (hcount : 0 < s.intervalCount) (hrow : db.subscriptions[id]? = some s)
    (hstatus : s.status = .active ∨ s.status = .paused) {e : TxError}
    (h : refreshLocked cal catalog true id now db = .error e) : RefreshFailure e := by
  have hfound : Commits (findSubscription id) db s db := by
    simp [findSubscription, hrow]
  unfold refreshLocked at h
  rw [run_bind hfound] at h
  refine Errors.bind (.require fun hn => absurd hstatus hn) (fun _ => ?_) db e h
  refine .bind (.require fun hn => absurd rfl hn) fun _ => ?_
  refine .ite (fun _ => .pure) fun _ => .bind (.attempt fun e he => .inl (catchUp_error hcount he))
    fun _ => .bind (issuePeriodBuckets_errors _ _ _ _ _) fun _ => .write

end Refresh

/-! ## Runs -/

/-- A refresh with its clock and what it reads. -/
structure RefreshCall where
  catalog : Catalog
  planEnabled : Bool
  now : Instant

def RefreshCall.run (cal : Calendar) (id : Nat) (call : RefreshCall) : Tx Unit :=
  refreshLocked cal call.catalog call.planEnabled id call.now

/-- Refreshes one after the other, each committed or rolled back. -/
def refreshAll (cal : Calendar) (id : Nat) (db : Db) (calls : List RefreshCall) : Db :=
  calls.foldl (fun db call => (call.run cal id).commit db) db

/-- The row has a period that has begun. -/
def AtPeriod (cal : Calendar) (s : Subscription) (id : Nat) (now : Instant) (db : Db) : Prop :=
  ∃ (k : Nat) (start fin : Instant), db.subscriptions[id]? = some (s.withPeriod start fin) ∧
    s.IsPeriod cal k start fin ∧ start ≤ now

/-- The row has the period around an instant. -/
def InForce (cal : Calendar) (s : Subscription) (id : Nat) (now : Instant) (db : Db) : Prop :=
  ∃ (k : Nat) (start fin : Instant), db.subscriptions[id]? = some (s.withPeriod start fin) ∧
    s.IsPeriod cal k start fin ∧ start ≤ now ∧ now < fin

section Runs

variable {cal : Calendar} {s : Subscription} {id : Nat} {db db' : Db}

/-- One refresh, from a period that has begun. -/
theorem inForce_of_commits (hcount : 0 < s.intervalCount) {call : RefreshCall} {before : Instant}
    (hbefore : before ≤ call.now) (hdb : AtPeriod cal s id before db) {u : Unit}
    (h : Commits (call.run cal id) db u db') : InForce cal s id call.now db' := by
  obtain ⟨k, start, fin, hrow, hperiod, hstart⟩ := hdb
  rcases commits_refreshLocked hrow h with ⟨hearly, rfl⟩ | ⟨hdue, start', fin', hcatch, hrow'⟩
  · exact ⟨k, start, fin, hrow, hperiod, hstart.trans hbefore, hearly⟩
  · obtain ⟨j, hperiod', hnow⟩ := catchUp_isPeriod hcount hperiod (hstart.trans hbefore) hcatch
    exact ⟨j, start', fin', hrow', hperiod', hnow⟩

theorem atPeriod_commit (hcount : 0 < s.intervalCount) {call : RefreshCall} {before : Instant}
    (hbefore : before ≤ call.now) (hdb : AtPeriod cal s id before db) :
    AtPeriod cal s id call.now ((call.run cal id).commit db) := by
  rcases commit_cases (call.run cal id) db with ⟨u, hcommits⟩ | hsame
  · obtain ⟨k, start, fin, hrow, hperiod, hstart, -⟩ := inForce_of_commits hcount hbefore hdb hcommits
    exact ⟨k, start, fin, hrow, hperiod, hstart⟩
  · obtain ⟨k, start, fin, hrow, hperiod, hstart⟩ := hdb
    exact ⟨k, start, fin, by rwa [hsame], hperiod, hstart.trans hbefore⟩

/-- Any refreshes in the order of their clocks. -/
theorem atPeriod_refreshAll (hcount : 0 < s.intervalCount) {calls : List RefreshCall}
    {before now : Instant} (hordered : (calls.map RefreshCall.now).Pairwise (· ≤ ·))
    (hbefore : ∀ call ∈ calls, before ≤ call.now) (hnow : ∀ call ∈ calls, call.now ≤ now)
    (hle : before ≤ now) (hdb : AtPeriod cal s id before db) :
    AtPeriod cal s id now (refreshAll cal id db calls) := by
  induction calls generalizing db before with
  | nil =>
      obtain ⟨k, start, fin, hrow, hperiod, hstart⟩ := hdb
      exact ⟨k, start, fin, hrow, hperiod, hstart.trans hle⟩
  | cons call calls ih =>
      obtain ⟨hfirst, hrest⟩ := List.pairwise_cons.mp hordered
      refine ih hrest (fun later hmem => hfirst _ (List.mem_map_of_mem hmem))
        (fun later hmem => hnow later (List.mem_cons_of_mem _ hmem)) (hnow call List.mem_cons_self)
        (atPeriod_commit hcount (hbefore call List.mem_cons_self) hdb)

end Runs

end Conduit.Billing
