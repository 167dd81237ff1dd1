import Conduit.Billing.Schema

/-!
# Wallet statements and their triggers

The statements on wallets, ledger, reservations and allocations, each with
the trigger that keeps the wallet's two snapshot columns. Statements that
cannot fail are functions on `Db`; the others are transactions that abort
where a unique index, a `RAISE EXCEPTION` or a BIGINT overflow would. The
other CHECK constraints are not modelled as guards: the invariants show that
they never fire.
-/

namespace Conduit.Billing

open Base Transaction

/-- A BIGINT result. -/
def bigint (n : Int) : Tx Int := orAbort (toI64 n) (.storage "bigint out of range")

/-! ## Wallets and ledger -/

/-- The wallet row as read under `FOR UPDATE`. -/
structure LockedWallet where
  id : Nat
  creditBalanceMicros : Int
  creditReservedMicros : Int
deriving DecidableEq, Repr

def LockedWallet.availableCredit (w : LockedWallet) : Int :=
  max (satSub w.creditBalanceMicros w.creditReservedMicros) 0

/-- `lock_project_wallet`: the active wallet of a project. -/
def Db.lockProjectWallet (db : Db) (projectId : Int) : Option LockedWallet :=
  (db.wallets.selectOne fun w => w.projectId == projectId && w.status == .active).map
    fun (id, w) => ⟨id, w.creditBalanceMicros, w.creditReservedMicros⟩

/-- The wallet of a project in any status. -/
def Db.projectWallet (db : Db) (projectId : Int) : Option (Nat × Wallet) :=
  db.wallets.selectOne fun w => w.projectId == projectId

/-- `INSERT INTO project_wallets … ON CONFLICT(project_id,currency) DO NOTHING`. -/
def Db.insertWallet (db : Db) (projectId : Int) : Db :=
  match db.projectWallet projectId with
  | some _ => db
  | none => { db with wallets := db.wallets.insertRow ⟨projectId, .active, 0, 0⟩ }

/-- An insert into the ledger and its trigger
`conduit_project_wallet_apply_ledger_entry`. -/
def insertLedgerEntry (entry : LedgerEntry) : Tx Nat := do
  let db ← read
  require (db.ledger.selectOne fun e => e.idempotencyKey == entry.idempotencyKey).isNone
    (.storage "duplicate ledger idempotency key")
  let wallet ← orAbort db.wallets[entry.walletId]?
    (.storage s!"project wallet {entry.walletId} not found for ledger entry")
  let balance ← bigint (wallet.creditBalanceMicros + entry.amountMicros)
  write fun db => { db with
    ledger := db.ledger.insertRow entry
    wallets := db.wallets.updateRow entry.walletId
      fun w => { w with creditBalanceMicros := balance } }
  pure db.ledger.length

/-! ## Reservations -/

def Db.insertReservation (db : Db) (r : Reservation) : Db :=
  { db with reservations := db.reservations.insertRow r }

/-- The credit the allocations of a reservation hold, as the release trigger
sums it. -/
def Db.reservationCredit (db : Db) (id : Nat) : Int :=
  db.allocations.total fun a =>
    if a.reservationId = id ∧ a.source.isCredit then a.reservedMicros else 0

def Db.reserveCredit (db : Db) (walletId : Nat) (delta : Int) : Db :=
  { db with
    wallets := db.wallets.updateRow walletId
      fun w => { w with creditReservedMicros := w.creditReservedMicros + delta } }

/-- An update of a reservation's status and its trigger
`conduit_project_wallet_release_reservation`. -/
def Db.updateReservation (db : Db) (id : Nat) (f : Reservation → Reservation) : Db :=
  let updated := { db with reservations := db.reservations.updateRow id f }
  match db.reservations[id]? with
  | none => updated
  | some r =>
    if r.status.live ∧ ¬ (f r).status.live ∧ 0 < db.reservationCredit id then
      updated.reserveCredit (f r).walletId (-db.reservationCredit id)
    else updated

/-! ## Allocations -/

/-- What an allocation still holds. -/
def Allocation.outstanding (a : Allocation) : Int :=
  max (satSub (satSub a.reservedMicros a.capturedMicros) a.releasedMicros) 0

def Db.allocationOf (db : Db) (reservationId : Nat) (source : AllocationSource) :
    Option (Nat × Allocation) :=
  db.allocations.selectOne fun a => a.reservationId == reservationId && a.source == source

/-- `conduit_project_wallet_reserve_allocation`, run with the change of
`reserved_micros`. -/
def reserveAllocation (reservationId : Nat) (source : AllocationSource) (delta : Int) : Tx Unit :=
  if source.isCredit = false ∨ delta = 0 then pure ()
  else do
    let db ← read
    let reservation ← orAbort (db.reservations[reservationId]?.filter fun r => r.status.live)
      (.storage s!"active reservation {reservationId} not found for project-credit allocation")
    require (reservation.walletId < db.wallets.length)
      (.storage s!"project wallet {reservation.walletId} not found for reservation allocation")
    write fun db => db.reserveCredit reservation.walletId delta

def insertAllocation (a : Allocation) : Tx Unit := do
  let db ← read
  require (db.allocationOf a.reservationId a.source).isNone
    (.storage "duplicate reservation allocation source")
  write fun db => { db with allocations := db.allocations.insertRow a }
  reserveAllocation a.reservationId a.source a.reservedMicros

/-- `INSERT … ON CONFLICT(reservation_id,source_type,source_id) DO UPDATE`:
adds to the reserved and captured amounts of an existing row. -/
def upsertAllocation (a : Allocation) : Tx Unit := do
  let db ← read
  match db.allocationOf a.reservationId a.source with
  | none => insertAllocation a
  | some (id, old) =>
    let reserved ← bigint (old.reservedMicros + a.reservedMicros)
    write fun db => { db with allocations := db.allocations.updateRow id fun row =>
      { row with reservedMicros := reserved, capturedMicros := row.capturedMicros + a.capturedMicros } }
    reserveAllocation a.reservationId a.source a.reservedMicros

/-! ## Buckets -/

/-- Give back what an allocation held and consume `take` of it. A draining
bucket that holds nothing any more is expired. -/
def Bucket.drain (outstanding take : Int) (b : Bucket) : Bucket :=
  let reserved := max (b.reservedMicros - outstanding) 0
  { b with
    reservedMicros := reserved
    consumedMicros := b.consumedMicros + take
    status := if b.status = .draining ∧ reserved = 0 then .expired else b.status }

/-- `status IN ('active','paused')`. -/
def BucketStatus.current : BucketStatus → Bool
  | active | paused => true
  | draining | expired => false

/-- `CASE WHEN reserved_micros>0 THEN 'draining' ELSE 'expired' END`. -/
def Bucket.retire (b : Bucket) : Bucket :=
  { b with status := if 0 < b.reservedMicros then .draining else .expired }

/-- Settle a fetched allocation: `take` of what it holds is captured and the
rest is released. Releasing all of it is `take = 0`. -/
def Db.drainAllocation (db : Db) (id : Nat) (a : Allocation) (take : Int) : Db :=
  { db with
    buckets := match a.source with
      | .subscriptionBucket bucketId =>
          db.buckets.updateRow bucketId (Bucket.drain a.outstanding take)
      | .projectCredit _ => db.buckets
    allocations := db.allocations.updateRow id fun row => { row with
      capturedMicros := row.capturedMicros + take
      releasedMicros := row.releasedMicros + satSub a.outstanding take } }

end Conduit.Billing
