import Conduit.Billing.Logic.Accounting
import Conduit.Billing.Settlement

/-!
# What reserving and settling leave alone

Reserving, releasing, expiring and funding touch wallets, reservations,
allocations and buckets and nothing else. Settling adds, once for each usage
log, a charge event and at most one settlement and one debit: `Recorded`.
Both hold from any state, so the histories of charges and redemptions need
nothing of the books.
-/

namespace Conduit.Billing

open Base Transaction

/-- The tables that reserving and releasing do not touch. -/
def Db.outside (db : Db) : Db :=
  { db with wallets := [], reservations := [], allocations := [], buckets := [] }

/-- The columns of a bucket that no update touches. -/
structure Bucket.SameIssue (b' b : Bucket) : Prop where
  source : b'.sourceBucketId = b.sourceBucketId
  rule : b'.quotaRuleSnapshotId = b.quotaRuleSnapshotId
  granted : b'.grantedMicros = b.grantedMicros

theorem Bucket.SameIssue.refl (b : Bucket) : b.SameIssue b := ⟨rfl, rfl, rfl⟩

/-- Buckets stay, and what they were issued for stays. -/
def Issued (buckets buckets' : Table Bucket) : Prop :=
  ∀ (b : Nat) (row : Bucket), buckets[b]? = some row →
    ∃ row', buckets'[b]? = some row' ∧ row'.SameIssue row

theorem Issued.refl (buckets : Table Bucket) : Issued buckets buckets :=
  fun _ row hrow => ⟨row, hrow, .refl row⟩

theorem Issued.trans {t₁ t₂ t₃ : Table Bucket} (h₁ : Issued t₁ t₂) (h₂ : Issued t₂ t₃) :
    Issued t₁ t₃ := by
  intro b row hrow
  obtain ⟨row₁, hrow₁, hsource₁, hrule₁, hgranted₁⟩ := h₁ b row hrow
  obtain ⟨row₂, hrow₂, hsource₂, hrule₂, hgranted₂⟩ := h₂ b row₁ hrow₁
  exact ⟨row₂, hrow₂, hsource₂.trans hsource₁, hrule₂.trans hrule₁, hgranted₂.trans hgranted₁⟩

theorem Issued.updateRow (buckets : Table Bucket) (id : Nat) {f : Bucket → Bucket}
    (hsame : ∀ b, (f b).SameIssue b) : Issued buckets (buckets.updateRow id f) := by
  intro b row hrow
  by_cases hb : id = b
  · subst hb
    exact ⟨f row, Table.getElem?_updateRow_self f hrow, hsame row⟩
  · exact ⟨row, (Table.getElem?_updateRow_ne buckets f hb).trans hrow, .refl row⟩

/-- What moving funds leaves alone. -/
structure Moves (db db' : Db) : Prop where
  outside : db'.outside = db.outside
  issued : Issued db.buckets db'.buckets

theorem Moves.of_eq {db db' : Db} (houtside : db'.outside = db.outside)
    (hbuckets : db'.buckets = db.buckets) : Moves db db' :=
  ⟨houtside, hbuckets ▸ Issued.refl _⟩

instance : Std.Refl Moves := ⟨fun _ => .of_eq rfl rfl⟩

instance : IsTrans Db Moves :=
  ⟨fun _ _ _ h₁ h₂ => ⟨h₂.outside.trans h₁.outside, h₁.issued.trans h₂.issued⟩⟩

theorem Moves.trans {db₁ db₂ db₃ : Db} (h₁ : Moves db₁ db₂) (h₂ : Moves db₂ db₃) : Moves db₁ db₃ :=
  IsTrans.trans _ _ _ h₁ h₂

theorem Moves.ruleSnapshots {db db' : Db} (h : Moves db db') :
    db'.ruleSnapshots = db.ruleSnapshots := by
  have hrules := congrArg Db.ruleSnapshots h.outside
  exact hrules

/-! ## Giving funds back -/

theorem moves_updateReservation (db : Db) (id : Nat) (f : Reservation → Reservation) :
    Moves db (db.updateReservation id f) := by
  unfold Db.updateReservation
  split
  · exact .of_eq rfl rfl
  · split
    · exact .of_eq rfl rfl
    · exact .of_eq rfl rfl

theorem moves_drainAllocation (db : Db) (id : Nat) (a : Allocation) (take : Int) :
    Moves db (db.drainAllocation id a take) := by
  refine ⟨rfl, ?_⟩
  unfold Db.drainAllocation
  split
  · exact .updateRow _ _ fun _ => ⟨rfl, rfl, rfl⟩
  · exact .refl _

theorem moves_releaseAllocations (rows : List (Nat × Allocation)) :
    ∀ db : Db, Moves db (db.releaseAllocations rows) := by
  induction rows with
  | nil => exact fun db => .of_eq rfl rfl
  | cons entry rest ih => exact fun db => (moves_drainAllocation db entry.1 entry.2 0).trans (ih _)

theorem moves_closeReservation (db : Db) (id : Nat) (r : Reservation)
    (status : ReservationStatus) : Moves db (db.closeReservation id r status) := by
  unfold Db.closeReservation
  refine Moves.trans ?_ (moves_updateReservation _ id _)
  split
  · exact moves_releaseAllocations _ db
  · exact .of_eq rfl rfl

theorem moves_expireFetched (rows : List (Nat × Reservation)) :
    ∀ (db : Db) (released : Int), Moves db (db.expireFetched rows released).1 := by
  induction rows with
  | nil => exact fun db _ => .of_eq rfl rfl
  | cons entry rest ih =>
      intro db released
      exact (moves_closeReservation db entry.1 entry.2 .expired).trans (ih _ _)

theorem moves_expireWalletReservations (db : Db) (walletId : Nat) (now : Instant) :
    Moves db (db.expireWalletReservations walletId now).1 :=
  moves_expireFetched _ db 0

theorem moves_releaseRequest (db : Db) (key : String) : Moves db (db.releaseRequest key) := by
  unfold Db.releaseRequest
  split
  · exact .of_eq rfl rfl
  · split
    · exact moves_closeReservation db _ _ _
    · exact .of_eq rfl rfl

/-! ## Reserving -/

theorem reserveAllocation_moves (reservationId : Nat) (source : AllocationSource) (delta : Int) :
    Steps Moves (reserveAllocation reservationId source delta) := by
  exact .ite (fun _ => .pure) fun _ => .bind .read fun _ => .bind .orAbort fun _ =>
    .bind .require fun _ => .write fun _ => .of_eq rfl rfl

theorem insertAllocation_moves (a : Allocation) : Steps Moves (insertAllocation a) :=
  .bind .read fun _ => .bind .require fun _ => .bind (.write fun _ => .of_eq rfl rfl) fun _ =>
    reserveAllocation_moves a.reservationId a.source a.reservedMicros

theorem upsertAllocation_moves (a : Allocation) : Steps Moves (upsertAllocation a) := by
  refine .bind .read fun db => ?_
  split
  · exact insertAllocation_moves a
  · exact .bind .orAbort fun _ => .bind (.write fun _ => .of_eq rfl rfl) fun _ =>
      reserveAllocation_moves a.reservationId a.source a.reservedMicros

theorem reserveBuckets_moves (reservationId : Nat) (rows : List (Nat × Bucket)) :
    ∀ remaining, Steps Moves (reserveBuckets reservationId rows remaining) := by
  induction rows with
  | nil => exact fun _ => .pure
  | cons entry rest ih =>
      intro remaining
      refine .ite (fun _ => .pure) fun _ => .ite (fun _ => ih remaining) fun _ => ?_
      exact .bind (.bind (.write fun _ => ⟨rfl, .updateRow _ _ fun _ => ⟨rfl, rfl, rfl⟩⟩) fun _ =>
        insertAllocation_moves _) fun _ => ih _

theorem moves_insertWallet (db : Db) (projectId : Int) : Moves db (db.insertWallet projectId) := by
  unfold Db.insertWallet
  split
  · exact .of_eq rfl rfl
  · exact .of_eq rfl rfl

theorem reserveFunds_moves (mode : EnforcementMode) (now : Instant) (input : AdmissionInput)
    (wallet : LockedWallet) (r : Reservation) :
    Steps Moves (reserveFunds mode now input wallet r) := by
  refine .bind .read fun db => .ite (fun _ => .ite (fun _ => .abort) fun _ => ?_) fun _ => ?_
  · exact .bind (.write fun _ => .of_eq rfl rfl) fun _ => .pure
  · exact .bind (.write fun _ => .of_eq rfl rfl) fun _ => .bind (reserveBuckets_moves _ _ _) fun remaining =>
      .bind (.ite (fun _ => insertAllocation_moves _) fun _ => .pure) fun _ => .pure

theorem reserveAmount_moves (mode : EnforcementMode) (ttl : Nat) (now : Instant)
    (input : AdmissionInput) (userId publicModelId amountMicros : Int) :
    Steps Moves (reserveAmount mode ttl now input userId publicModelId amountMicros) := by
  intro db key db' hcommit
  simp only [reserveAmount, commits_bind, commits_read] at hcommit
  obtain ⟨_, _, ⟨rfl, rfl⟩, hcommit⟩ := hcommit
  split at hcommit
  · simp only [repeatedKey, commits_bind, commits_require, commits_pure] at hcommit
    obtain ⟨_, _, ⟨_, rfl⟩, _, _, ⟨_, rfl⟩, _, _, ⟨_, rfl⟩, _, _, ⟨_, rfl⟩, _, rfl⟩ := hcommit
    exact Std.Refl.refl _
  · simp only [commits_bind, commits_read, commits_write] at hcommit
    obtain ⟨locked, db₁, hlock, _, _, ⟨rfl, rfl⟩, _, _, rfl, hcommit⟩ := hcommit
    have hlocked : Moves db db₁ := by
      refine Steps.bind .read (fun db => ?_) db locked db₁ hlock
      split
      · exact .pure
      · exact .bind (.write fun db => moves_insertWallet db input.projectId) fun _ =>
          .bind .read fun _ => .orAbort
    refine (hlocked.trans (moves_expireWalletReservations db₁ locked.id now)).trans ?_
    rcases commits_ite.mp hcommit with ⟨_, hshadow⟩ | ⟨_, hfunds⟩
    · simp only [commits_bind, commits_write, commits_pure] at hshadow
      obtain ⟨_, _, rfl, _, rfl⟩ := hshadow
      exact .of_eq rfl rfl
    · exact reserveFunds_moves mode now input _ _ _ key db' hfunds

theorem commits_fitMicros {db db' : Db} {amount : Except TxError Int} {message : String}
    {micros : Int} (h : Commits (fitMicros amount message) db micros db') :
    db = db' ∧ 0 ≤ micros ∧ micros ≤ i64Max := by
  cases amount with
  | error e => exact absurd h commits_abort
  | ok amount =>
      simp only [fitMicros, commits_bind, commits_orAbort, commits_pure] at h
      obtain ⟨n, _, ⟨hfits, rfl⟩, rfl, rfl⟩ := h
      obtain ⟨rfl, _, hmax⟩ := toI64_eq_some hfits
      have hpos : 0 ≤ i64Max := by unfold i64Max; omega
      exact ⟨rfl, by omega, by omega⟩

theorem reserveRequest_moves (mode : EnforcementMode) (ttl : Nat) (now : Instant)
    (input : AdmissionInput) : Steps Moves (reserveRequest mode ttl now input) := by
  unfold reserveRequest
  split
  · exact .pure
  · exact .ite (fun _ => .abort) fun _ => .pure
  · exact .ite (fun _ => .abort) fun _ => .pure
  · refine .bind (fun db micros db' hfits => ?_) fun micros =>
      .ite (fun _ => .pure) fun _ => reserveAmount_moves mode ttl now input _ _ micros
    obtain ⟨rfl, _⟩ := commits_fitMicros hfits
    exact Std.Refl.refl db

/-! ## Funding -/

theorem moves_captureAllocations (rows : List (Nat × Allocation)) :
    ∀ (db : Db) (f : Funding), Moves db (db.captureAllocations rows f).1 := by
  induction rows with
  | nil => exact fun db _ => .of_eq rfl rfl
  | cons entry rest ih =>
      exact fun db f => (moves_drainAllocation db entry.1 entry.2 _).trans (ih _ _)

theorem recordOverage_moves (reservation : Option Nat) (source : AllocationSource) (amount : Int)
    (allocationClass : AllocationClass) (expiresAt : Option Instant) :
    Steps Moves (recordOverage reservation source amount allocationClass expiresAt) := by
  cases reservation with
  | none => exact .pure
  | some id => exact upsertAllocation_moves _

theorem overageBuckets_moves (reservation : Option Nat) (rows : List (Nat × Bucket)) :
    ∀ f, Steps Moves (overageBuckets reservation rows f) := by
  induction rows with
  | nil => exact fun _ => .pure
  | cons entry rest ih =>
      intro f
      refine .ite (fun _ => .pure) fun _ => .ite (fun _ => ih f) fun _ => ?_
      exact .bind (.bind (recordOverage_moves _ _ _ _ _) fun _ =>
        .write fun _ => ⟨rfl, .updateRow _ _ fun _ => ⟨rfl, rfl, rfl⟩⟩) fun _ => ih _

theorem fundOverage_moves (log : UsageLog) (userId publicModelId : Int)
    (wallet : Option LockedWallet) (reservation : Option Nat) (f : Funding) :
    Steps Moves (fundOverage log userId publicModelId wallet reservation f) := by
  refine .ite (fun _ => .bind .read fun db => .bind (overageBuckets_moves _ _ _) fun f =>
    .ite (fun _ => ?_) fun _ => .pure) fun _ => .pure
  cases wallet with
  | none => exact .pure
  | some w =>
      exact .bind (.ite (fun _ => recordOverage_moves _ _ _ _ _) fun _ => .pure) fun _ => .pure

theorem captureReservation_moves (key : Option String) (wallet : Option LockedWallet)
    (userId publicModelId : Int) (now : Instant) :
    Steps Moves (captureReservation key wallet userId publicModelId now) := by
  unfold captureReservation
  split
  · exact .bind (.bind .read fun db => .bind .orAbort fun found => .bind .require fun _ =>
      .bind .require fun _ => .bind .require fun _ => .bind .require fun _ =>
        .bind (.write fun db => moves_updateReservation db _ _) fun _ => .pure) fun _ => .pure
  · exact .abort
  · exact .pure

/-! ## Settling -/

/-- The tables without the history of charges. -/
def Db.uncharged (db : Db) : Db := { db with ledger := [], chargeEvents := [], settlements := [] }

/-- The rows that settling a usage log adds. -/
structure Recorded (log : UsageLog) (db db' : Db) : Prop where
  fresh : db.chargeEventOf log.id = none
  event : ∃ e, e.usageLogId = log.id ∧ db'.chargeEvents = db.chargeEvents.insertRow e
  settlement : db'.settlements = db.settlements ∨
    ∃ s, s.chargeEventId = db.chargeEvents.length ∧ db'.settlements = db.settlements.insertRow s
  debit : db'.ledger = db.ledger ∨
    ∃ walletId amount, db'.ledger = db.ledger.insertRow (usageCharge walletId log.id amount)
  outside : db'.outside.uncharged = db.outside.uncharged
  issued : Issued db.buckets db'.buckets

theorem debitCredit_record {wallet : Option LockedWallet} {usageLogId amount : Int} {db db' : Db}
    {u : Unit} (hcommit : Commits (debitCredit wallet usageLogId amount) db u db') :
    (db'.ledger = db.ledger ∨
      ∃ walletId amount, db'.ledger = db.ledger.insertRow (usageCharge walletId usageLogId amount)) ∧
    { db'.outside with ledger := [] } = { db.outside with ledger := [] } ∧ db'.buckets = db.buckets := by
  rcases commits_ite.mp hcommit with ⟨_, hdebit⟩ | ⟨_, hnone⟩
  · simp only [commits_bind, commits_orAbort, commits_pure] at hdebit
    obtain ⟨locked, _, ⟨_, rfl⟩, _, _, hinsert, _, rfl⟩ := hdebit
    obtain ⟨_, _, _, _, _, _, heq⟩ := commits_insertLedgerEntry hinsert
    rw [heq]
    exact ⟨.inr ⟨locked.id, amount, rfl⟩, rfl, rfl⟩
  · obtain ⟨_, rfl⟩ := commits_pure.mp hnone
    exact ⟨.inl rfl, rfl, rfl⟩

theorem finish_moves {captured : Option CapturingReservation} {funding : SettlementFunding}
    {db db' : Db} {u : Unit}
    (hcommit : Commits (match captured with
      | some c => write fun db => db.finishReservationCapture c.id funding
      | none => pure () : Tx Unit) db u db') : Moves db db' := by
  cases captured with
  | none =>
      obtain ⟨_, rfl⟩ := commits_pure.mp hcommit
      exact .of_eq rfl rfl
  | some c =>
      rw [← commits_write.mp hcommit]
      exact moves_updateReservation db c.id _

/-- The transaction of `settle_usage` records a new event or does nothing. -/
theorem settleCharge_record {log : UsageLog} {userId publicModelId amountMicros : Int}
    {key : Option String} {now : Instant} {db db' : Db} {u : Unit}
    (hcommit : Commits (settleCharge log userId publicModelId amountMicros key now) db u db') :
    (db' = db ∧ (db.chargeEventOf log.id).isSome = true) ∨ Recorded log db db' := by
  simp only [settleCharge, commits_bind, commits_read] at hcommit
  obtain ⟨_, _, ⟨rfl, rfl⟩, hcommit⟩ := hcommit
  split at hcommit
  · next hsome =>
      obtain ⟨_, rfl⟩ := commits_pure.mp hcommit
      exact .inl ⟨rfl, by rw [hsome]; rfl⟩
  · next hnone =>
      simp only [commits_bind, commits_write] at hcommit
      obtain ⟨_, _, rfl, captured, db₂, hcapture, funding, db₃, hsettle, hfinish⟩ := hcommit
      simp only [settlePersistedAllocations, commits_bind, commits_read, commits_write,
        commits_pure] at hsettle
      obtain ⟨_, _, ⟨rfl, rfl⟩, _, _, rfl, f, db₄, hfund, _, db₅, hdebit, _, _, rfl, _, rfl⟩ :=
        hsettle
      have hcapture_moves := captureReservation_moves key _ userId publicModelId now _ _ _ hcapture
      have hown := moves_captureAllocations
        (db₂.captureOrder (captured.map CapturingReservation.id)) db₂ ⟨max amountMicros 0, 0, 0⟩
      have hfunded := fundOverage_moves log userId publicModelId _ _ _ _ _ _ hfund
      obtain ⟨hledger, hrest, hbuckets⟩ := debitCredit_record hdebit
      have hmoves := (hcapture_moves.trans hown).trans hfunded
      have h₄ := hmoves.outside
      have hledger₄ := congrArg Db.ledger h₄
      have hevents₄ := congrArg Db.chargeEvents h₄
      have hsettlements₄ := congrArg Db.settlements h₄
      have huncharged₄ := congrArg Db.uncharged h₄
      have hevents₅ := congrArg Db.chargeEvents hrest
      have hsettlements₅ := congrArg Db.settlements hrest
      have huncharged₅ := congrArg Db.uncharged hrest
      have hfinish_moves := finish_moves hfinish
      have hfinal := hfinish_moves.outside
      have hledger' := congrArg Db.ledger hfinal
      have hevents' := congrArg Db.chargeEvents hfinal
      have hsettlements' := congrArg Db.settlements hfinal
      have huncharged' := congrArg Db.uncharged hfinal
      have hevents := (hevents'.trans (congrArg (fun t => Table.updateRow t _ _)
        (hevents₅.trans hevents₄))).trans (Table.updateRow_insertRow_self ..)
      have hsettlements := hsettlements'.trans
        (congrArg (fun t => Table.insertRow t _) (hsettlements₅.trans hsettlements₄))
      refine .inr ⟨hnone, ⟨_, ?_, hevents⟩, .inr ⟨_, ?_, hsettlements⟩, ?_, ?_, ?_⟩
      · rfl
      · rfl
      · have hsame : db'.ledger = db₅.ledger := hledger'
        have hsame₄ : db₄.ledger = db.ledger := hledger₄
        rw [hsame, ← hsame₄]
        exact hledger
      · exact huncharged'.trans (huncharged₅.trans huncharged₄)
      · exact (hbuckets ▸ hmoves.issued).trans hfinish_moves.issued

/-- `settle_usage` records one event, or there already is one. -/
theorem settleUsage_record {log : UsageLog} {facts : ChargeFacts} {key : Option String}
    {now : Instant} {db db' : Db} {u : Unit}
    (hcommit : Commits (settleUsage log facts key now) db u db') :
    (db' = db ∧ (db.chargeEventOf log.id).isSome = true) ∨ Recorded log db db' := by
  have hunsettled : ∀ publicModelId status, db.recordUnsettled log publicModelId status = db' →
      (db' = db ∧ (db.chargeEventOf log.id).isSome = true) ∨ Recorded log db db' := by
    rintro publicModelId status rfl
    unfold Db.recordUnsettled
    split
    · next hsome => exact .inl ⟨rfl, by rw [hsome]; rfl⟩
    · next hnone => exact .inr ⟨hnone, ⟨_, rfl, rfl⟩, .inl rfl, .inl rfl, rfl, .refl _⟩
  unfold settleUsage at hcommit
  split at hcommit
  · exact hunsettled _ _ (commits_write.mp hcommit)
  · exact hunsettled _ _ (commits_write.mp hcommit)
  · exact hunsettled _ _ (commits_write.mp hcommit)
  · split at hcommit
    · exact hunsettled _ _ (commits_write.mp hcommit)
    · obtain ⟨micros, _, hfits, hcommit⟩ := commits_bind.mp hcommit
      obtain ⟨rfl, _⟩ := commits_fitMicros hfits
      exact settleCharge_record hcommit

end Conduit.Billing
