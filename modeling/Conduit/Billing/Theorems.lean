import Conduit.Billing.Logic.Outbox

/-!
# What holds of every billing run

Wallet snapshots are exact and cover what is reserved, buckets never give out
more than they were granted, quota is carried over at most once, a code is
redeemed at most as often as its batch allows, and a usage log is charged at
most once however its settlements interleave.
-/

namespace Conduit.Billing

open Base Transaction

section Runs

variable (cal : Calendar) (projects : List (Int × WalletStatus))

/-! ## Wallets -/

/-- A wallet's balance is the sum of its ledger entries, its reserved credit
is what the credit allocations of its live reservations hold, and the balance
covers it. -/
theorem wallet_snapshots : (billing cal projects).Invariant fun db =>
    ∀ (w : Nat) (row : Wallet), db.wallets[w]? = some row →
      row.creditBalanceMicros = db.ledgerSum w ∧ row.creditReservedMicros = db.creditHeld w ∧
      0 ≤ row.creditReservedMicros ∧ row.creditReservedMicros ≤ row.creditBalanceMicros := by
  intro db hreach w row hrow
  have hsound := (sound_inductive cal projects).invariant db hreach
  have hreserved := hsound.books.accounted.reserved w row hrow
  have hnonneg := hsound.books.accounted.creditHeld_nonneg w
  exact ⟨hsound.books.accounted.balance w row hrow, hreserved, by omega,
    (hsound.books.solvent w row hrow).1⟩

/-! ## Buckets -/

/-- What the allocations of `reserved` reservations hold of a bucket. -/
def Db.reservedHeld (db : Db) (bucketId : Nat) : Int :=
  db.allocations.total fun a =>
    if a.source = .subscriptionBucket bucketId ∧
        (db.reservations[a.reservationId]?).map Reservation.status = some .reserved then
      a.reservedMicros - a.capturedMicros - a.releasedMicros
    else 0

/-- Between transactions only `reserved` reservations hold allowance. -/
theorem Books.drained {db : Db} (h : Books db) {i : Nat} {a : Allocation} {r : Reservation}
    (ha : db.allocations[i]? = some a) (hr : db.reservations[a.reservationId]? = some r)
    (hstatus : r.status ≠ .reserved) : a.Drained := by
  refine h.accounted.settled i a r ha hr ?_
  have hidle := h.idle _ r hr
  cases hs : r.status <;> simp_all [ReservationStatus.holding]

theorem Books.bucketHeld_eq {db : Db} (h : Books db) (bucketId : Nat) :
    db.bucketHeld bucketId = db.reservedHeld bucketId := by
  refine Table.total_congr fun i a ha => ?_
  unfold bucketHold
  by_cases hsource : a.source = .subscriptionBucket bucketId
  · rw [if_pos hsource]
    have hr := List.getElem?_eq_getElem (h.accounted.allocationReservation i a ha)
    by_cases hstatus : (db.reservations[a.reservationId]?).map Reservation.status = some .reserved
    · rw [if_pos ⟨hsource, hstatus⟩]
    · rw [if_neg fun hc => hstatus hc.2]
      have hdrained : a.capturedMicros + a.releasedMicros = a.reservedMicros :=
        h.drained ha hr fun hreserved => hstatus (by rw [hr]; simp [hreserved])
      omega
  · rw [if_neg hsource, if_neg fun hc => hsource hc.1]

/-- Buckets never give out more than they were granted, and their reserved
amounts are what live reservations hold; an allocation gives out at most what
it reserved, and all of it once its reservation is final. No clamp acts: what
an allocation holds is never negative and never more than its bucket has
reserved. -/
theorem bucket_accounting : (billing cal projects).Invariant fun db =>
    (∀ (b : Nat) (row : Bucket), db.buckets[b]? = some row →
      row.consumedMicros + row.reservedMicros ≤ row.grantedMicros ∧
      row.reservedMicros = db.reservedHeld b ∧
      (row.status = .expired → row.reservedMicros = 0)) ∧
    (∀ (i : Nat) (a : Allocation), db.allocations[i]? = some a →
      a.capturedMicros + a.releasedMicros ≤ a.reservedMicros ∧
      (∀ r, db.reservations[a.reservationId]? = some r → r.status ≠ .reserved →
        a.capturedMicros + a.releasedMicros = a.reservedMicros) ∧
      a.outstanding = a.reservedMicros - a.capturedMicros - a.releasedMicros ∧
      (∀ (b : Nat) (row : Bucket), a.source = .subscriptionBucket b → db.buckets[b]? = some row →
        a.outstanding ≤ row.reservedMicros)) := by
  intro db hreach
  have hbooks := ((sound_inductive cal projects).invariant db hreach).books
  refine ⟨fun b row hrow => ?_, fun i a ha => ?_⟩
  · have hwithin := hbooks.quota.within b row hrow
    have hspent := hwithin.spent
    have hcarried : 0 ≤ db.carried b := Table.total_nonneg fun c carry hc => by
      split
      · next hsource => exact Int.le_of_lt (hbooks.quota.carry c b carry hc hsource).positive
      · exact Int.le_refl 0
    refine ⟨by omega, ?_, hwithin.expired⟩
    rw [← hbooks.bucketHeld_eq]
    exact hbooks.accounted.bucket b row hrow
  · have hsound := hbooks.accounted.sound i a ha
    refine ⟨hsound.within, fun r hr hstatus => hbooks.drained ha hr hstatus, hsound.outstanding_eq,
      fun b row hsource hrow => ?_⟩
    rw [hbooks.accounted.bucket b row hrow]
    exact hbooks.accounted.outstanding_le_bucketHeld ha hsource

/-! ## Rollover -/

/-- What a bucket has consumed and what was carried over from it never exceed
its grant; each carry is within its rule's cap and the only one of its source
and period; and a bucket that was carried over is never eligible again. -/
theorem rollover_bounded : (billing cal projects).Invariant fun db =>
    ∀ (b : Nat) (row : Bucket), db.buckets[b]? = some row →
      row.consumedMicros + db.carried b ≤ row.grantedMicros ∧
      ∀ (c : Nat) (carry : Bucket), db.buckets[c]? = some carry → carry.sourceBucketId = some b →
        (∃ rule, db.ruleSnapshots[row.quotaRuleSnapshotId]? = some rule ∧
          carry.grantedMicros ≤ rule.rolloverCapMicros.getD 0) ∧
        (∀ (d : Nat) (other : Bucket), db.buckets[d]? = some other →
          other.sourceBucketId = some b → other.periodStart = carry.periodStart → d = c) ∧
        ∀ ops projectId userId publicModelId instant,
          ∀ entry ∈ ((billing cal projects).run db ops).eligibleBuckets projectId userId
            publicModelId instant, entry.1 ≠ b := by
  intro db hreach b row hrow
  have hsound := (sound_inductive cal projects).invariant db hreach
  have hquota := hsound.books.quota
  have hwithin := hquota.within b row hrow
  have hspent := hwithin.spent
  have hreserved := hwithin.reserved_nonneg
  refine ⟨by omega, fun c carry hc hsource => ⟨?_, ?_, ?_⟩⟩
  · obtain ⟨source, hs, hrule⟩ := (hquota.carry c b carry hc hsource).source
    obtain rfl := Option.some.inj (hs.symm.trans hrow)
    rw [hrule]
    exact (hquota.carry c b carry hc hsource).capped
  · intro d other hd hother _
    exact hquota.carryUnique d c b other carry hd hc hother hsource
  · rintro ops projectId userId publicModelId instant entry hmem rfl
    -- the carry is still there, so its source is not current
    have hadvance := hsound.run cal projects ops
    obtain ⟨carry', hc', hsame⟩ := hadvance.issued c carry hc
    obtain ⟨hentry, heligible⟩ := mem_eligibleBuckets.mp hmem
    have hcurrent : entry.2.status.current = true := by
      rw [eligible_active heligible]
      rfl
    exact hadvance.sound.books.quota.not_carried hentry hcurrent hc' (hsame.source.trans hsource)

/-! ## Redemption codes -/

/-- Receipts of a user for a code. -/
def Db.userRedemptions (db : Db) (codeId : Nat) (userId : Int) : Nat :=
  db.receipts.countWhere fun r => r.codeId == codeId && r.userId == userId

/-- The counts of one code: at most as many receipts as the batch allows, one
for each user; credit of one amount for each receipt; and redeemed exactly
when used up and not revoked. -/
structure Db.CodeBounded (db : Db) (codeId : Nat) (code : RedemptionCode) (batch : RedemptionBatch) :
    Prop where
  within : (db.redemptionCount codeId : Int) ≤ batch.maxRedemptions
  once : ∀ userId, db.userRedemptions codeId userId ≤ 1
  credited : db.redemptionCredited codeId = batch.amountMicros * db.redemptionCount codeId
  redeemed : code.status = .redeemed ↔
    (db.redemptionCount codeId : Int) = batch.maxRedemptions ∧ code.revokedAt = none
  revoked : code.status = .revoked ↔ code.revokedAt ≠ none

/-- A code that is not active gets no receipt in any later state. -/
theorem no_new_receipt {db : Db} {codeId : Nat} {code : RedemptionCode} (ops : List Op) :
    Sound db → db.codes[codeId]? = some code → code.status ≠ .active →
      ((billing cal projects).run db ops).redemptionCount codeId = db.redemptionCount codeId := by
  induction ops generalizing db with
  | nil => exact fun _ _ _ => rfl
  | cons op ops ih =>
      intro h hcode hstatus
      have hstep := h.step cal op
      obtain ⟨code', hcode', _, _, hfinal⟩ := hstep.retained.codes codeId code hcode
      obtain rfl := hfinal hstatus
      refine (ih hstep.sound hcode' hstatus).trans ?_
      by_contra hnew
      obtain ⟨_, _, other, _, _, hother, _, hactive, _⟩ := h.new_receipt hnew
      obtain rfl := Option.some.inj (hother.symm.trans hcode)
      exact hstatus hactive

theorem Sound.codeBounded {db : Db} (h : Sound db) {codeId : Nat} {code : RedemptionCode}
    {batch : RedemptionBatch} (hcode : db.codes[codeId]? = some code)
    (hbatch : db.batches[code.batchId]? = some batch) : db.CodeBounded codeId code batch := by
  have hbounded := h.redemptions.bounded codeId code batch hcode hbatch
  have hrevoked : code.status = .revoked ↔ code.revokedAt ≠ none := by
    rw [← hbounded.revoked, Option.isSome_iff_ne_none]
  refine ⟨hbounded.within, fun userId => Table.countWhere_le_one ?_,
    h.redemptions.credited codeId code batch hcode hbatch, ?_, hrevoked⟩
  · intro i j x y hx hy hmatch_x hmatch_y
    simp only [Bool.and_eq_true, beq_iff_eq] at hmatch_x hmatch_y
    exact h.redemptions.receiptUnique i j x y hx hy (hmatch_x.1.trans hmatch_y.1.symm)
      (hmatch_x.2.trans hmatch_y.2.symm)
  · rw [← hbounded.redeemed]
    constructor
    · intro hredeemed
      refine ⟨hredeemed, ?_⟩
      by_contra hne
      have := hrevoked.mpr hne
      rw [hredeemed] at this
      exact absurd this (by simp)
    · exact And.left

/-- Bounded redemption: the counts of every code, in every reachable state; a
new receipt only from redeeming an active code before it expires, so none
once the code is revoked; and the same receipt again for the same user and
project, without a change, in every later state. -/
theorem redemption_bounded : (billing cal projects).Invariant fun db =>
    ∀ (codeId : Nat) (code : RedemptionCode), db.codes[codeId]? = some code →
      ∃ batch, db.batches[code.batchId]? = some batch ∧ db.CodeBounded codeId code batch ∧
      (∀ op : Op, (op.apply cal db).redemptionCount codeId ≠ db.redemptionCount codeId →
        code.status = .active ∧ ∃ input now, op = .redeemCode input now ∧ batch.expired now = false) ∧
      (∀ ops : List Op, code.status ≠ .active →
        ((billing cal projects).run db ops).redemptionCount codeId = db.redemptionCount codeId) ∧
      ∀ (i : Nat) (receipt : RedemptionReceipt), db.receipts[i]? = some receipt →
        receipt.codeId = codeId → ∀ (input : Redeem) (now : Instant) (ops : List Op), input.digest = some code.codeDigest →
          input.userId = receipt.userId → input.projectId = receipt.projectId →
            input.actorMatches = true → input.activeMember = true →
              Commits (redeemCode input now) ((billing cal projects).run db ops) receipt
                ((billing cal projects).run db ops) := by
  intro db hreach codeId code hcode
  have h := (sound_inductive cal projects).invariant db hreach
  obtain ⟨batch, hbatch⟩ : ∃ batch, db.batches[code.batchId]? = some batch :=
    ⟨_, List.getElem?_eq_getElem (h.redemptions.codeBatch codeId code hcode)⟩
  refine ⟨batch, hbatch, h.codeBounded hcode hbatch, fun op hnew => ?_,
    fun ops hstatus => no_new_receipt cal projects ops h hcode hstatus, ?_⟩
  · obtain ⟨input, now, other, otherBatch, rfl, hother, hotherBatch, hactive, hexpired⟩ :=
      h.new_receipt hnew
    obtain rfl := Option.some.inj (hother.symm.trans hcode)
    obtain rfl := Option.some.inj (hotherBatch.symm.trans hbatch)
    exact ⟨hactive, input, now, rfl, hexpired⟩
  · rintro i receipt hreceipt rfl input now ops hdigest huser hproject hactor hmember
    have hlater := h.run cal projects ops
    obtain ⟨code', hcode', _, hsame, _⟩ := hlater.retained.codes receipt.codeId code hcode
    exact hlater.sound.redemptions.replay (hlater.retained.receipts i receipt hreceipt) hcode'
      (hdigest.trans (by rw [hsame])) huser hproject hactor hmember

/-! ## Exactly-once charging -/

/-- Settlements of a usage log. -/
def Db.settlementsOf (db : Db) (usageLogId : Int) : Nat :=
  db.settlements.countWhere fun s =>
    (db.chargeEvents[s.chargeEventId]?).any fun e => e.usageLogId == usageLogId

/-- `usage_charge` debits of a usage log. -/
def Db.debitsOf (db : Db) (usageLogId : Int) : Nat :=
  db.ledger.countWhere fun e => e.entryType == .usageCharge && e.reference == .usageLog usageLogId

theorem Charges.settlementsOf_le_one {db : Db} (h : Charges db) (usageLogId : Int) :
    db.settlementsOf usageLogId ≤ 1 := by
  refine Table.countWhere_le_one fun i j s t hs ht hs_log ht_log => ?_
  simp only [Option.any_eq_true, beq_iff_eq] at hs_log ht_log
  obtain ⟨x, hx, hx_log⟩ := hs_log
  obtain ⟨y, hy, hy_log⟩ := ht_log
  have hevent := h.eventUnique _ _ x y hx hy (hx_log.trans hy_log.symm)
  exact h.settlementUnique i j s t hs ht hevent

theorem Charges.debitsOf_le_one {db : Db} (h : Charges db) (usageLogId : Int) :
    db.debitsOf usageLogId ≤ 1 := by
  refine Table.countWhere_le_one fun i j e f he hf he_log hf_log => ?_
  simp only [Bool.and_eq_true, beq_iff_eq] at he_log hf_log
  exact h.debitUnique i j e f usageLogId he hf he_log.2 hf_log.2

/-- However live callers, workers, reconcilers and crashes interleave, a usage
log gets at most one settlement and one debit, and a completed outbox row has
its charge event. -/
theorem charged_exactly_once : (settling cal projects).Invariant fun σ =>
    (∀ usageLogId, σ.db.settlementsOf usageLogId ≤ 1 ∧ σ.db.debitsOf usageLogId ≤ 1) ∧
    ∀ (i : Nat) (row : OutboxRow), σ.outbox[i]? = some row → row.status = .completed →
      σ.db.Charged row.usageLogId := by
  intro σ hreach
  have h := (acknowledged_inductive cal projects).invariant σ hreach
  refine ⟨fun usageLogId => ⟨?_, ?_⟩, h.covered⟩
  · exact h.sound.charges.settlementsOf_le_one usageLogId
  · exact h.sound.charges.debitsOf_le_one usageLogId

/-! ## Keys of retried settlements -/

/-- No key, or the key of a reservation that capture accepts. -/
def Db.acceptsKey (db : Db) : Option String → Bool
  | none => true
  | some key =>
    match db.reservationByKey key with
    | none => false
    | some (_, r, _) => r.status.open_

namespace Settler

/-- A pending row of an uncharged usage log whose reservation is of the same
project, user and model. -/
structure Billable (σ : Settler) (row : OutboxRow) (log : UsageLog) (key : String)
    (expected : Option RequestIdentity) (r : Reservation) : Prop where
  pending : row.status = .pending
  reservationKey : row.reservationKey = some key
  found : σ.findById row.usageLogId = some log
  uncharged : ¬ σ.db.Charged log.id
  reservation : ∃ id wallet, σ.db.reservationByKey key = some (id, r, wallet) ∧
    wallet.projectId = log.projectId
  identity : r.identityMismatch expected = false

/-- The pass goes on to settle the row with no key or an acceptable one. -/
def SettlesLive (σ : Settler) (row : OutboxRow) (log : UsageLog) (pass : Pass)
    (around : Surroundings) : Prop :=
  ∃ key, (σ.execute around
      (.reconcile { pass with pending := (row.usageLogId, row.reservationKey) :: pass.pending })).2 =
        some (.settle ⟨log, key⟩ (.reconciler pass)) ∧ σ.db.acceptsKey key = true

end Settler

/-- The reconciler settles a billable row with an acceptable key or none if
and only if its reservation is not captured, fully or in part. -/
theorem retried_key_live_iff : (settling cal projects).Invariant fun σ =>
    ∀ (row : OutboxRow) (log : UsageLog) (key : String) (r : Reservation) (pass : Pass)
      (around : Surroundings), row ∈ σ.outbox → around.delivery = .answered →
        σ.Billable row log key around.facts.request r →
          (σ.SettlesLive row log pass around ↔
            r.status ≠ .captured ∧ r.status ≠ .partiallyCaptured) := by
  intro σ hreach row log key r pass around _ hanswered hbillable
  have h := (acknowledged_inductive cal projects).invariant σ hreach
  obtain ⟨id, wallet, hbyKey, hproject⟩ := hbillable.reservation
  have hr : σ.db.reservations[id]? = some r := by
    unfold Db.reservationByKey at hbyKey
    split at hbyKey
    · exact absurd hbyKey (by simp)
    · next id' r' hone =>
        obtain ⟨w, _, heq⟩ := Option.map_eq_some_iff.mp hbyKey
        simp only [Prod.mk.injEq] at heq
        obtain ⟨rfl, rfl, rfl⟩ := heq
        exact (Table.selectOne_some hone).1
  have hidle : r.status ≠ .capturing := h.sound.books.idle id r hr
  have heffective : σ.db.effectiveReservationKey log around.facts.request (some key) =
      .ok (if r.status.gone then none else some key) := by
    unfold Db.effectiveReservationKey
    dsimp only
    rw [hbyKey]
    dsimp only
    rw [if_neg (not_not_intro hproject), if_neg (by rw [hbillable.identity]; simp)]
    split <;> rfl
  have hnext : (σ.execute around
      (.reconcile { pass with pending := (row.usageLogId, row.reservationKey) :: pass.pending })).2 =
        some (.settle ⟨log, if r.status.gone then none else some key⟩ (.reconciler pass)) := by
    unfold Settler.execute
    dsimp only
    rw [if_neg (not_not_intro hanswered), hbillable.found, hbillable.reservationKey]
    dsimp only
    rw [heffective]
  unfold Settler.SettlesLive
  rw [hnext]
  have haccepts : σ.db.acceptsKey (if r.status.gone then none else some key) = true ↔
      r.status.gone = true ∨ r.status.open_ = true := by
    by_cases hgone : r.status.gone = true
    · simp [hgone, Db.acceptsKey]
    · simp [hgone, Db.acceptsKey, hbyKey]
  constructor
  · rintro ⟨used, hused, hok⟩
    obtain rfl : _ = used := by simpa using hused
    rw [haccepts] at hok
    cases hs : r.status <;> simp_all [ReservationStatus.gone, ReservationStatus.open_]
  · rintro ⟨hcaptured, hpartial⟩
    refine ⟨_, rfl, haccepts.mpr ?_⟩
    cases hs : r.status <;> simp_all [ReservationStatus.gone, ReservationStatus.open_]

end Runs

/-! ## Two usage logs under one request key -/

/-- The request found, its user and model known, and a price. -/
def answered (now amount : Int) : Surroundings :=
  ⟨now, ⟨some ⟨some 7, some 9⟩, some (.ok amount)⟩, .answered, true⟩

/-- A funded reservation and two usage logs of its request. The worker
settles the first; the process dies once the row of the second is there. -/
def sharedKeyRun : List Settler.Action :=
  [.billing (.grantProjectCredit true ⟨1, 1000, "grant", by decide⟩),
    .billing (.reserveRequest .hardEnforce 900 0 ⟨"key", 1, "model", some 7, .priced 9 (.ok 300)⟩),
    .record ⟨1, 5, 1, 10⟩, .record ⟨2, 5, 1, 10⟩,
    .settleUsage 1 (some "key") true, .execute 0 (answered 20 200), .execute 0 (answered 20 200),
    .receive, .execute 0 (answered 20 200), .execute 0 (answered 20 200),
    .settleUsage 2 (some "key") true, .execute 0 (answered 30 200), .dropTask 0]

def sharedKey : Settler :=
  (settling thirtyDays [(1, .active)]).run (settling thirtyDays [(1, .active)]).init sharedKeyRun

def sharedKeyReservation : Reservation :=
  ⟨0, 7, 9, "key", 300, .captured, 900, some 200⟩

theorem sharedKey_billable :
    sharedKey.Billable (OutboxRow.new 2 (some "key") 30) ⟨2, 5, 1, 10⟩ "key"
      (answered 90 200).facts.request sharedKeyReservation where
  pending := rfl
  reservationKey := rfl
  found := by decide
  uncharged := by
    rintro ⟨i, x, hx, hlog⟩
    have hevents : sharedKey.db.chargeEvents = [⟨1, 5, some 9, .settled⟩] := by decide
    rw [hevents] at hx
    rcases i with _ | i
    · obtain rfl := Option.some.inj hx
      exact absurd hlog (by decide)
    · exact absurd hx (by simp)
  reservation := ⟨0, ⟨1, .active, 800, 0⟩, by decide, rfl⟩
  identity := by decide

/-- The second usage log is retried with the captured key. -/
theorem captured_key_retried :
    ¬ (settling thirtyDays [(1, .active)]).Invariant fun σ =>
      ∀ (row : OutboxRow) (log : UsageLog) (key : String) (r : Reservation) (pass : Pass)
        (around : Surroundings), row ∈ σ.outbox → around.delivery = .answered →
          σ.Billable row log key around.facts.request r → σ.SettlesLive row log pass around := by
  intro h
  obtain ⟨key, hnext, haccepts⟩ := h sharedKey ⟨sharedKeyRun, rfl⟩ (OutboxRow.new 2 (some "key") 30)
    ⟨2, 5, 1, 10⟩ "key" sharedKeyReservation ⟨100, [], 0⟩ (answered 90 200) (by decide) rfl
    sharedKey_billable
  have hretried : (sharedKey.execute (answered 90 200) (.reconcile ⟨100, [(2, some "key")], 0⟩)).2 =
      some (.settle ⟨⟨2, 5, 1, 10⟩, some "key"⟩ (.reconciler ⟨100, [], 0⟩)) := by decide
  have hdead : sharedKey.db.acceptsKey (some "key") = false := by decide
  obtain rfl : some "key" = key := by simpa using hretried.symm.trans hnext
  rw [hdead] at haccepts
  exact Bool.false_ne_true haccepts

/-- The criterion at the second usage log. -/
theorem retried_key_live_iff_sharedKey :
    ¬ sharedKey.SettlesLive (OutboxRow.new 2 (some "key") 30) ⟨2, 5, 1, 10⟩ ⟨100, [], 0⟩
      (answered 90 200) := by
  have hiff := retried_key_live_iff thirtyDays [(1, .active)] sharedKey ⟨sharedKeyRun, rfl⟩
    (OutboxRow.new 2 (some "key") 30) ⟨2, 5, 1, 10⟩ "key" sharedKeyReservation ⟨100, [], 0⟩
    (answered 90 200) (by decide) rfl sharedKey_billable
  exact fun hlive => (hiff.mp hlive).1 rfl

end Conduit.Billing
