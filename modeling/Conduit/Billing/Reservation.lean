import Conduit.Billing.Wallet

/-!
# Reserving, releasing and expiring

`reserve_request`, `release_request` and `expire_pg_wallet_reservations`.
A reservation takes its funds from the eligible buckets in order and the rest
from project credit; releasing or expiring it gives everything back. The
lookups before the transaction (API key owner, retail price, estimate) are
inputs. Reservation events are left out: nothing here reads them.
-/

namespace Conduit.Billing

open Base Transaction

inductive EnforcementMode
  | shadow
  | softEnforce
  | hardEnforce
deriving DecidableEq, Repr

/-- The published retail price of a model, applied to the estimate. The
amount is in micros before it is fitted into an `i64`. -/
inductive RetailQuote
  | noModel
  | noPrice
  | priced (publicModelId : Int) (amount : Except TxError Int)

/-- `BillingAdmissionInput` with its lookups; `userId` is the owner of the
API key, if there is one. -/
structure AdmissionInput where
  requestKey : String
  projectId : Int
  publicModel : String
  userId : Option Int
  quote : RetailQuote

/-! ## Giving funds back -/

def Db.allocationsOf (db : Db) (reservationId : Nat) : List (Nat × Allocation) :=
  db.allocations.selectWhere fun a => a.reservationId == reservationId

/-- Release fetched allocations one by one. -/
def Db.releaseAllocations (db : Db) : List (Nat × Allocation) → Db
  | [] => db
  | (id, a) :: rest => (db.drainAllocation id a 0).releaseAllocations rest

/-- The credit that fetched allocations give back, added to `released`. -/
def releasedCredit (rows : List (Nat × Allocation)) (released : Int) : Int :=
  rows.foldl (fun released (_, a) =>
    if a.source.isCredit then satAdd released a.outstanding else released) released

/-- Give back what a fetched reservation holds and set its final status. Only
a `reserved` one has allocations. -/
def Db.closeReservation (db : Db) (id : Nat) (r : Reservation) (status : ReservationStatus) : Db :=
  (if r.status = .reserved then db.releaseAllocations (db.allocationsOf id) else db).updateReservation
    id fun row => { row with status }

/-- The loop of `expire_pg_wallet_reservations`; returns the released credit. -/
def Db.expireFetched (db : Db) : List (Nat × Reservation) → Int → Db × Int
  | [], released => (db, released)
  | (id, r) :: rest, released =>
      (db.closeReservation id r .expired).expireFetched rest
        (if r.status = .reserved then releasedCredit (db.allocationsOf id) released else released)

/-- `expire_pg_wallet_reservations`. -/
def Db.expireWalletReservations (db : Db) (walletId : Nat) (now : Instant) : Db × Int :=
  db.expireFetched
    (db.reservations.selectWhere fun r =>
      r.walletId == walletId && r.status.open_ && r.expiresAt ≤ now) 0

/-- The reservation of a request key joined with its wallet. -/
def Db.reservationByKey (db : Db) (key : String) : Option (Nat × Reservation × Wallet) :=
  match db.reservations.selectOne fun r => r.requestId == key with
  | none => none
  | some (id, r) => db.wallets[r.walletId]?.map fun w => (id, r, w)

/-- `release_request`. -/
def Db.releaseRequest (db : Db) (key : String) : Db :=
  match db.reservationByKey key with
  | none => db
  | some (id, r, _) => if r.status.open_ then db.closeReservation id r .released else db

/-! ## Eligible buckets -/

/-- The `WHERE` clause of the bucket query that admission and overage share. -/
def Db.eligible (db : Db) (projectId userId publicModelId : Int) (instant : Instant)
    (b : Bucket) : Bool :=
  b.status == .active && b.periodStart ≤ instant && instant < b.expiresAt
    && (match db.subscriptions[b.subscriptionId]? with
      | some s => s.projectId == projectId && s.userId == userId
          && (s.status == .active || s.status == .cancelPending)
      | none => false)
    && b.entitlementSnapshotId < db.entitlementSnapshots.length
    && (b.quotaClass == .general || db.entitlementItems.any fun item =>
        item.snapshotId == b.entitlementSnapshotId
          && item.quotaRuleSnapshotId == b.quotaRuleSnapshotId
          && item.publicModelId == publicModelId)

def QuotaClass.rank : QuotaClass → Nat
  | dedicated => 0
  | general => 1

/-- Dedicated buckets first, then by expiry, then by id. -/
def bucketOrder (x y : Nat × Bucket) : Prop :=
  x.2.quotaClass.rank < y.2.quotaClass.rank ∨ x.2.quotaClass.rank = y.2.quotaClass.rank ∧
    (x.2.expiresAt < y.2.expiresAt ∨ x.2.expiresAt = y.2.expiresAt ∧ x.1 ≤ y.1)

instance : DecidableRel bucketOrder :=
  fun _ _ => inferInstanceAs (Decidable (_ ∨ _ ∧ (_ ∨ _ ∧ _)))

def Db.eligibleBuckets (db : Db) (projectId userId publicModelId : Int) (instant : Instant) :
    List (Nat × Bucket) :=
  (db.buckets.selectWhere (db.eligible projectId userId publicModelId instant)).insertionSort
    bucketOrder

/-! ## Reserving -/

/-- Reserve `take` of a bucket and record the allocation. -/
def reserveBucket (reservationId bucketId : Nat) (b : Bucket) (take : Int) : Tx Unit := do
  write fun db => { db with
    buckets := db.buckets.updateRow bucketId
      fun row => { row with reservedMicros := row.reservedMicros + take } }
  insertAllocation
    { reservationId
      source := .subscriptionBucket bucketId
      reservedMicros := take
      capturedMicros := 0
      releasedMicros := 0
      allocationClass := b.quotaClass.allocationClass
      expiresAtSnapshot := some b.expiresAt }

/-- The allocation loop; returns what the buckets could not cover. -/
def reserveBuckets (reservationId : Nat) : List (Nat × Bucket) → Int → Tx Int
  | [], remaining => pure remaining
  | (bucketId, b) :: rest, remaining =>
      if remaining = 0 then pure remaining
      else if min remaining b.available = 0 then reserveBuckets reservationId rest remaining
      else do
        reserveBucket reservationId bucketId b (min remaining b.available)
        reserveBuckets reservationId rest (remaining - min remaining b.available)

def reserveRemainder (reservationId walletId : Nat) (remaining : Int) : Tx Unit :=
  if 0 < remaining then
    insertAllocation
      { reservationId
        source := .projectCredit walletId
        reservedMicros := remaining
        capturedMicros := 0
        releasedMicros := 0
        allocationClass := .projectCredit
        expiresAtSnapshot := none }
  else pure ()

/-- The saturating sum of what the buckets have available. -/
def subscriptionAvailable (buckets : List (Nat × Bucket)) : Int :=
  (buckets.map fun (_, b) => b.available).foldl satAdd 0

def lockOrCreateWallet (projectId : Int) : Tx LockedWallet := do
  let db ← read
  match db.lockProjectWallet projectId with
  | some wallet => pure wallet
  | none =>
    write fun db => db.insertWallet projectId
    let db ← read
    orAbort (db.lockProjectWallet projectId) (.rejected "project wallet could not be created")

/-- What a request key that is already reserved gets. -/
def repeatedKey (input : AdmissionInput) (userId publicModelId : Int) (now : Instant)
    (r : Reservation) (wallet : Wallet) : Tx (Option String) := do
  require (wallet.projectId = input.projectId)
    (.rejected "billing admission rejected: request key belongs to another project wallet")
  require (r.userId = userId ∧ r.publicModelId = publicModelId)
    (.rejected "billing admission rejected: request key belongs to another user or public model")
  require (r.status.open_)
    (.rejected s!"billing admission rejected: request key is already finalized with status '{r.status.text}'")
  require (now < r.expiresAt)
    (.rejected "billing admission rejected: request key reservation has expired")
  pure (some input.requestKey)

/-- Reserve funds under the wallet lock, once the wallet's expired
reservations are closed. -/
def reserveFunds (mode : EnforcementMode) (now : Instant) (input : AdmissionInput)
    (wallet : LockedWallet) (r : Reservation) : Tx (Option String) := do
  let db ← read
  let buckets := db.eligibleBuckets input.projectId r.userId r.publicModelId now
  let available := satAdd (subscriptionAvailable buckets) wallet.availableCredit
  if available < r.amountMicros then
    if mode = .hardEnforce then
      abort (.rejected s!"insufficient balance: estimated charge {r.amountMicros} micros, available {available} micros")
    else do
      write fun db => db.insertReservation { r with status := .softInsufficient }
      pure none
  else do
    write fun db => db.insertReservation r
    let remaining ← reserveBuckets db.reservations.length buckets r.amountMicros
    reserveRemainder db.reservations.length wallet.id remaining
    pure (some input.requestKey)

/-- The transaction of `reserve_request`. -/
def reserveAmount (mode : EnforcementMode) (ttl : Nat) (now : Instant) (input : AdmissionInput)
    (userId publicModelId amountMicros : Int) : Tx (Option String) := do
  let db ← read
  match db.reservationByKey input.requestKey with
  | some (_, r, wallet) => repeatedKey input userId publicModelId now r wallet
  | none => do
    let locked ← lockOrCreateWallet input.projectId
    let db ← read
    let expired := db.expireWalletReservations locked.id now
    write fun _ => expired.1
    let wallet := { locked with
      creditReservedMicros := satSub locked.creditReservedMicros expired.2 }
    let reservation : Reservation :=
      { walletId := wallet.id
        userId
        publicModelId
        requestId := input.requestKey
        amountMicros
        status := .reserved
        expiresAt := now + ttl
        settledAmountMicros := none }
    if mode = .shadow then do
      write fun db => db.insertReservation { reservation with status := .shadowReserved }
      pure (some input.requestKey)
    else reserveFunds mode now input wallet reservation

/-- A computed amount as nonnegative `i64` micros. -/
def fitMicros (amount : Except TxError Int) (message : String) : Tx Int :=
  match amount with
  | .error e => abort e
  | .ok amount => do
    let micros ← orAbort (toI64 amount) (.rejected message)
    pure (max micros 0)

/-- `reserve_request`. -/
def reserveRequest (mode : EnforcementMode) (ttl : Nat) (now : Instant) (input : AdmissionInput) :
    Tx (Option String) :=
  match input.userId, input.quote with
  | none, _ => pure none
  | some _, .noPrice =>
      if mode = .hardEnforce then
        abort (.rejected s!"billing admission rejected: model '{input.publicModel}' has no published retail price")
      else pure none
  | some _, .noModel =>
      if mode = .hardEnforce then
        abort (.rejected s!"billing admission rejected: public model '{input.publicModel}' has no retail identity")
      else pure none
  | some userId, .priced publicModelId amount => do
      let amountMicros ← fitMicros amount "retail reservation does not fit in i64 micros"
      if amountMicros = 0 then pure none
      else reserveAmount mode ttl now input userId publicModelId amountMicros

end Conduit.Billing
