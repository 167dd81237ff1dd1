import Conduit.Billing.Reservation

/-!
# Settling a usage log

The synchronous `settle_usage`. The insert of the charge event is the
exactly-once gate; after it the charge is funded from the reservation's own
allocations, then from eligible buckets, then from project credit, and what
is left is the shortfall. The lookups before the transaction (request,
API key owner, model, price) are inputs.
-/

namespace Conduit.Billing

open Base Transaction

/-- The columns of a usage log that settlement reads. -/
structure UsageLog where
  id : Int
  requestId : Int
  projectId : Int
  createdAt : Instant
deriving DecidableEq, Repr

/-- A row of the request lookup. -/
structure RequestIdentity where
  userId : Option Int
  publicModelId : Option Int
deriving DecidableEq, Repr

/-- What the lookups of one settlement found: the request, and the published
price applied to the usage (`none` when there is no published price). -/
structure ChargeFacts where
  request : Option RequestIdentity
  charge : Option (Except TxError Int)

structure SettlementFunding where
  fundedMicros : Int
  shortfallMicros : Int
deriving DecidableEq, Repr

/-! ## Charge events -/

def Db.chargeEventOf (db : Db) (usageLogId : Int) : Option (Nat × ChargeEvent) :=
  db.chargeEvents.selectOne fun e => e.usageLogId == usageLogId

/-- `record_unsettled`: an event and nothing else, unless there is one. -/
def Db.recordUnsettled (db : Db) (log : UsageLog) (publicModelId : Option Int)
    (status : ChargeEventStatus) : Db :=
  match db.chargeEventOf log.id with
  | some _ => db
  | none =>
    { db with chargeEvents := db.chargeEvents.insertRow ⟨log.id, log.requestId, publicModelId, status⟩ }

/-! ## Capturing the reservation -/

structure CapturingReservation where
  id : Nat
  releasedCreditMicros : Int
deriving DecidableEq, Repr

/-- `begin_pg_reservation_capture`. -/
def beginReservationCapture (key : String) (walletId : Nat) (userId publicModelId : Int)
    (now : Instant) : Tx CapturingReservation := do
  let db ← read
  let (id, r) ← orAbort (db.reservations.selectOne fun r => r.requestId == key)
    (.rejected s!"reservation capture rejected: request key '{key}' was not found")
  require (r.walletId = walletId)
    (.rejected "reservation capture rejected: request key belongs to another project wallet")
  require (r.userId = userId ∧ r.publicModelId = publicModelId)
    (.rejected "reservation capture rejected: request key belongs to another user or public model")
  require (r.status.open_)
    (.rejected s!"reservation capture rejected: request key is already finalized with status '{r.status.text}'")
  require (now < r.expiresAt)
    (.rejected "reservation capture rejected: request key reservation has expired")
  write fun db => db.updateReservation id fun row => { row with status := .capturing }
  pure ⟨id, 0⟩

/-- Capture under the wallet lock, if a key is given. -/
def captureReservation (key : Option String) (wallet : Option LockedWallet)
    (userId publicModelId : Int) (now : Instant) : Tx (Option CapturingReservation) :=
  match key, wallet with
  | some key, some wallet => do
      let captured ← beginReservationCapture key wallet.id userId publicModelId now
      pure (some captured)
  | some _, none => abort (.rejected "reservation capture rejected: project wallet not found")
  | none, _ => pure none

def SettlementFunding.status (f : SettlementFunding) : ReservationStatus :=
  if f.shortfallMicros = 0 then .captured
  else if 0 < f.fundedMicros then .partiallyCaptured
  else .captureFailed

/-- `finish_pg_reservation_capture`. -/
def Db.finishReservationCapture (db : Db) (id : Nat) (f : SettlementFunding) : Db :=
  db.updateReservation id fun row =>
    { row with status := f.status, settledAmountMicros := some f.fundedMicros }

/-! ## Funding -/

/-- The running amounts of `settle_persisted_allocations`. -/
structure Funding where
  remaining : Int
  subscriptionAmount : Int
  creditAmount : Int
deriving DecidableEq, Repr

/-- Take an amount from a source. -/
def Funding.take (f : Funding) (source : AllocationSource) (amount : Int) : Funding :=
  match source with
  | .subscriptionBucket _ =>
      ⟨f.remaining - amount, f.subscriptionAmount + amount, f.creditAmount⟩
  | .projectCredit _ =>
      ⟨f.remaining - amount, f.subscriptionAmount, f.creditAmount + amount⟩

def AllocationClass.rank : AllocationClass → Nat
  | dedicated => 0
  | general | projectCredit => 1

/-- `expires_at_snapshot NULLS LAST, id`. -/
def expiryOrder : Option Instant × Nat → Option Instant × Nat → Prop
  | (some t, i), (some u, j) => t < u ∨ t = u ∧ i ≤ j
  | (some _, _), (none, _) => True
  | (none, _), (some _, _) => False
  | (none, i), (none, j) => i ≤ j

instance : DecidableRel expiryOrder
  | (some t, i), (some u, j) => inferInstanceAs (Decidable (t < u ∨ t = u ∧ i ≤ j))
  | (some _, _), (none, _) => inferInstanceAs (Decidable True)
  | (none, _), (some _, _) => inferInstanceAs (Decidable False)
  | (none, i), (none, j) => inferInstanceAs (Decidable (i ≤ j))

/-- Dedicated allocations first, then by expiry, then by id. -/
def allocationOrder (x y : Nat × Allocation) : Prop :=
  x.2.allocationClass.rank < y.2.allocationClass.rank ∨
    x.2.allocationClass.rank = y.2.allocationClass.rank ∧
      expiryOrder (x.2.expiresAtSnapshot, x.1) (y.2.expiresAtSnapshot, y.1)

instance : DecidableRel allocationOrder :=
  fun _ _ => inferInstanceAs (Decidable (_ ∨ _ ∧ _))

/-- The allocations of the captured reservation in funding order. -/
def Db.captureOrder (db : Db) (reservation : Option Nat) : List (Nat × Allocation) :=
  match reservation with
  | none => []
  | some id => (db.allocationsOf id).insertionSort allocationOrder

/-- Settle the reservation's own allocations: take from each what is still
needed and release the rest of it. -/
def Db.captureAllocations (db : Db) : List (Nat × Allocation) → Funding → Db × Funding
  | [], f => (db, f)
  | (id, a) :: rest, f =>
      (db.drainAllocation id a (min f.remaining a.outstanding)).captureAllocations rest
        (f.take a.source (min f.remaining a.outstanding))

def Db.consumeBucket (db : Db) (bucketId : Nat) (amount : Int) : Db :=
  { db with
    buckets := db.buckets.updateRow bucketId
      fun row => { row with consumedMicros := row.consumedMicros + amount } }

/-- Under a reservation, record overage as reserved and captured at once. -/
def recordOverage (reservation : Option Nat) (source : AllocationSource) (amount : Int)
    (allocationClass : AllocationClass) (expiresAt : Option Instant) : Tx Unit :=
  match reservation with
  | some reservationId =>
      upsertAllocation
        { reservationId
          source
          reservedMicros := amount
          capturedMicros := amount
          releasedMicros := 0
          allocationClass
          expiresAtSnapshot := expiresAt }
  | none => pure ()

/-- Take `amount` of an eligible bucket. -/
def consumeOverage (reservation : Option Nat) (bucketId : Nat) (b : Bucket) (amount : Int) :
    Tx Unit := do
  recordOverage reservation (.subscriptionBucket bucketId) amount b.quotaClass.allocationClass
    (some b.expiresAt)
  write fun db => db.consumeBucket bucketId amount

/-- The overage loop over the eligible buckets. -/
def overageBuckets (reservation : Option Nat) : List (Nat × Bucket) → Funding → Tx Funding
  | [], f => pure f
  | (bucketId, b) :: rest, f =>
      if f.remaining = 0 then pure f
      else if min f.remaining b.available = 0 then overageBuckets reservation rest f
      else do
        consumeOverage reservation bucketId b (min f.remaining b.available)
        overageBuckets reservation rest
          (f.take (.subscriptionBucket bucketId) (min f.remaining b.available))

def recordCredit (reservation : Option Nat) (walletId : Nat) (amount : Int) : Tx Unit :=
  if 0 < amount then
    recordOverage reservation (.projectCredit walletId) amount .projectCredit none
  else pure ()

/-- The overage on project credit, from the wallet as it was locked. -/
def overageCredit (reservation : Option Nat) (wallet : Option LockedWallet) (f : Funding) :
    Tx Funding :=
  match wallet with
  | none => pure f
  | some wallet => do
    recordCredit reservation wallet.id (min f.remaining wallet.availableCredit)
    pure (f.take (.projectCredit wallet.id) (min f.remaining wallet.availableCredit))

/-- Both overage loops, if the allocations did not cover the charge. -/
def fundOverage (log : UsageLog) (userId publicModelId : Int) (wallet : Option LockedWallet)
    (reservation : Option Nat) (f : Funding) : Tx Funding :=
  if 0 < f.remaining then do
    let db ← read
    let buckets := db.eligibleBuckets log.projectId userId publicModelId log.createdAt
    let f ← overageBuckets reservation buckets f
    if 0 < f.remaining then overageCredit reservation wallet f else pure f
  else pure f

/-- The debit of a usage log. -/
def usageCharge (walletId : Nat) (usageLogId amount : Int) : LedgerEntry where
  walletId := walletId
  amountMicros := -amount
  entryType := .usageCharge
  reference := .usageLog usageLogId
  idempotencyKey := s!"usage-charge:{usageLogId}"

def debitCredit (wallet : Option LockedWallet) (usageLogId amount : Int) : Tx Unit :=
  if 0 < amount then do
    let wallet ← orAbort wallet (.rejected "project wallet disappeared")
    let _ ← insertLedgerEntry (usageCharge wallet.id usageLogId amount)
    pure ()
  else pure ()

/-- `settle_persisted_allocations`. -/
def settlePersistedAllocations (eventId : Nat) (log : UsageLog) (userId publicModelId : Int)
    (wallet : Option LockedWallet) (amountMicros : Int) (reservation : Option Nat) :
    Tx SettlementFunding := do
  let db ← read
  let captured := db.captureAllocations (db.captureOrder reservation) ⟨max amountMicros 0, 0, 0⟩
  write fun _ => captured.1
  let f ← fundOverage log userId publicModelId wallet reservation captured.2
  debitCredit wallet log.id f.creditAmount
  let status := if f.remaining = 0 then .settled else .insufficientFunds
  let settlement : ChargeSettlement :=
    { chargeEventId := eventId
      userId
      walletId := wallet.map LockedWallet.id
      amountMicros
      subscriptionAmountMicros := f.subscriptionAmount
      creditAmountMicros := f.creditAmount
      status }
  write fun db => { db with
    settlements := db.settlements.insertRow settlement
    chargeEvents := db.chargeEvents.updateRow eventId fun e => { e with status } }
  pure ⟨satSub amountMicros f.remaining, f.remaining⟩

/-! ## The transaction -/

/-- The transaction of `settle_usage`. -/
def settleCharge (log : UsageLog) (userId publicModelId amountMicros : Int)
    (key : Option String) (now : Instant) : Tx Unit := do
  let db ← read
  match db.chargeEventOf log.id with
  | some _ => pure ()
  | none => do
    write fun db => { db with
      chargeEvents := db.chargeEvents.insertRow ⟨log.id, log.requestId, some publicModelId, .calculated⟩ }
    let locked := db.lockProjectWallet log.projectId
    let reservation ← captureReservation key locked userId publicModelId now
    let wallet := locked.map fun w => match reservation with
      | some c => { w with
          creditReservedMicros := satSub w.creditReservedMicros c.releasedCreditMicros }
      | none => w
    let funding ← settlePersistedAllocations db.chargeEvents.length log userId publicModelId wallet
      amountMicros (reservation.map CapturingReservation.id)
    match reservation with
    | some c => write fun db => db.finishReservationCapture c.id funding
    | none => pure ()

/-- `settle_usage` without the queue. -/
def settleUsage (log : UsageLog) (facts : ChargeFacts) (key : Option String) (now : Instant) :
    Tx Unit :=
  match facts.request with
  | none => write fun db => db.recordUnsettled log none .notBillable
  | some ⟨_, none⟩ => write fun db => db.recordUnsettled log none .unpriced
  | some ⟨none, some publicModelId⟩ =>
      write fun db => db.recordUnsettled log (some publicModelId) .notBillable
  | some ⟨some userId, some publicModelId⟩ =>
    match facts.charge with
    | none => write fun db => db.recordUnsettled log (some publicModelId) .unpriced
    | some charge => do
      let amountMicros ← fitMicros charge "retail charge does not fit i64 micros"
      settleCharge log userId publicModelId amountMicros key now

end Conduit.Billing
