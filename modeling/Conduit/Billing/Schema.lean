import Conduit.Base.Saturating
import Conduit.Base.Table
import Conduit.Base.Transaction

/-!
# Billing tables

The rows of the wallet, subscription, settlement and redemption tables, and
`Db`, all of them together. Ids of these tables are row positions; ids that
come from elsewhere (projects, users, models, usage logs) are `Int`s.
Amounts are in micros. Currency columns are pinned to one code by CHECK
constraints and are left out, as are JSON snapshots and timestamps nothing
here reads.
-/

namespace Conduit.Billing

open Base

/-- Instants in microseconds. -/
abbrev Instant := Int

inductive TxError
  | rejected (message : String)
  | invalid (message : String)
  | notFound (message : String)
  | unavailable
  | redemptionCodeUnavailable
  | storage (message : String)
deriving DecidableEq, Repr

/-! ## Wallets and reservations -/

inductive WalletStatus
  | active
  | suspended
deriving DecidableEq, Repr

/-- `project_wallets`, with the two snapshot columns the triggers maintain. -/
structure Wallet where
  projectId : Int
  status : WalletStatus
  creditBalanceMicros : Int
  creditReservedMicros : Int
deriving DecidableEq, Repr

inductive LedgerEntryType
  | usageCharge
  | adminGrant
  | redemption
deriving DecidableEq, Repr

/-- `reference_type` and `reference_id` of a ledger entry. -/
inductive LedgerReference
  | usageLog (usageLogId : Int)
  | project (projectId : Int)
  | creditRedemptionCode (codeId : Nat)
deriving DecidableEq, Repr

/-- `project_credit_ledger_entries`: append-only. -/
structure LedgerEntry where
  walletId : Nat
  amountMicros : Int
  entryType : LedgerEntryType
  reference : LedgerReference
  idempotencyKey : String
deriving DecidableEq, Repr

inductive ReservationStatus
  | reserved
  | shadowReserved
  | softInsufficient
  | capturing
  | captured
  | partiallyCaptured
  | captureFailed
  | released
  | expired
deriving DecidableEq, Repr

namespace ReservationStatus

/-- The text of a status in error messages. -/
def text : ReservationStatus → String
  | reserved => "reserved"
  | shadowReserved => "shadow_reserved"
  | softInsufficient => "soft_insufficient"
  | capturing => "capturing"
  | captured => "captured"
  | partiallyCaptured => "partially_captured"
  | captureFailed => "capture_failed"
  | released => "released"
  | expired => "expired"

/-- `IN ('reserved','shadow_reserved')`: may still be released or captured. -/
def open_ : ReservationStatus → Bool
  | reserved | shadowReserved => true
  | _ => false

/-- `IN ('reserved','shadow_reserved','capturing')`: counted in the wallet's
reserved snapshot. -/
def live : ReservationStatus → Bool
  | reserved | shadowReserved | capturing => true
  | _ => false

/-- Holds allowance: the bucket counters include its outstanding amounts. -/
def holding : ReservationStatus → Bool
  | reserved | capturing => true
  | _ => false

end ReservationStatus

/-- `project_wallet_reservations`. -/
structure Reservation where
  walletId : Nat
  userId : Int
  publicModelId : Int
  requestId : String
  amountMicros : Int
  status : ReservationStatus
  expiresAt : Instant
  settledAmountMicros : Option Int
deriving DecidableEq, Repr

inductive QuotaClass
  | general
  | dedicated
deriving DecidableEq, Repr

/-- `source_type` and `source_id` of an allocation. -/
inductive AllocationSource
  | subscriptionBucket (bucketId : Nat)
  | projectCredit (walletId : Nat)
deriving DecidableEq, Repr

inductive AllocationClass
  | general
  | dedicated
  | projectCredit
deriving DecidableEq, Repr

def QuotaClass.allocationClass : QuotaClass → AllocationClass
  | general => .general
  | dedicated => .dedicated

def AllocationSource.isCredit : AllocationSource → Bool
  | projectCredit _ => true
  | subscriptionBucket _ => false

/-- `project_wallet_reservation_allocations`; `amount_micros` always equals
`reserved_micros` (a CHECK) and is left out. -/
structure Allocation where
  reservationId : Nat
  source : AllocationSource
  reservedMicros : Int
  capturedMicros : Int
  releasedMicros : Int
  allocationClass : AllocationClass
  expiresAtSnapshot : Option Instant
deriving DecidableEq, Repr

/-! ## Subscriptions -/

inductive SubscriptionStatus
  | active
  | paused
  | cancelPending
  | expired
deriving DecidableEq, Repr

def SubscriptionStatus.text : SubscriptionStatus → String
  | active => "active"
  | paused => "paused"
  | cancelPending => "cancel_pending"
  | expired => "expired"

inductive IntervalUnit
  | day
  | month
  | year
deriving DecidableEq, Repr

/-- What an assignment asked for, compared on a replay of its key. -/
structure AssignmentRequest where
  userId : Int
  planId : Int
  projectId : Int
  autoRenew : Bool
  intervalUnit : Option IntervalUnit
  intervalCount : Option Int
deriving DecidableEq, Repr

/-- `user_subscriptions` joined with its `user_subscription_projects` row. -/
structure Subscription where
  userId : Int
  projectId : Int
  planId : Int
  assignmentKey : String
  assignmentRequest : AssignmentRequest
  status : SubscriptionStatus
  currentPeriodStart : Instant
  currentPeriodEnd : Instant
  intervalUnit : IntervalUnit
  intervalCount : Int
  autoRenew : Bool
deriving DecidableEq, Repr

inductive RolloverMode
  | none
  | capped
deriving DecidableEq, Repr

/-- `user_subscription_quota_rule_snapshots`: written once at assignment. -/
structure QuotaRuleSnapshot where
  subscriptionId : Nat
  ruleKey : String
  quotaClass : QuotaClass
  amountMicros : Int
  rolloverMode : RolloverMode
  rolloverCapMicros : Option Int
  carryDurationSeconds : Option Int
  accessPlanVersions : List Int
deriving DecidableEq, Repr

/-- `subscription_entitlement_snapshots`. -/
structure EntitlementSnapshot where
  subscriptionId : Nat
  periodStart : Instant
  periodEnd : Instant
deriving DecidableEq, Repr

/-- `subscription_entitlement_snapshot_items`. -/
structure EntitlementItem where
  snapshotId : Nat
  quotaRuleSnapshotId : Nat
  publicModelId : Int
deriving DecidableEq, Repr

inductive BucketStatus
  | active
  | paused
  | draining
  | expired
deriving DecidableEq, Repr

/-- `subscription_allowance_buckets`. -/
structure Bucket where
  subscriptionId : Nat
  quotaRuleSnapshotId : Nat
  entitlementSnapshotId : Nat
  quotaClass : QuotaClass
  periodStart : Instant
  periodEnd : Instant
  expiresAt : Instant
  carryoverExpiresAt : Option Instant
  sourceBucketId : Option Nat
  grantedMicros : Int
  consumedMicros : Int
  reservedMicros : Int
  rolloverMicros : Int
  status : BucketStatus
deriving DecidableEq, Repr

/-- `GREATEST(granted_micros-consumed_micros-reserved_micros,0)`. -/
def Bucket.available (b : Bucket) : Int :=
  max (b.grantedMicros - b.consumedMicros - b.reservedMicros) 0

/-! ## Settlement -/

inductive ChargeEventStatus
  | calculated
  | settled
  | insufficientFunds
  | notBillable
  | unpriced
deriving DecidableEq, Repr

/-- `customer_charge_events`. -/
structure ChargeEvent where
  usageLogId : Int
  requestId : Int
  publicModelId : Option Int
  status : ChargeEventStatus
deriving DecidableEq, Repr

/-- `charge_settlements`. -/
structure ChargeSettlement where
  chargeEventId : Nat
  userId : Int
  walletId : Option Nat
  amountMicros : Int
  subscriptionAmountMicros : Int
  creditAmountMicros : Int
  status : ChargeEventStatus
deriving DecidableEq, Repr

/-! ## Redemption codes -/

/-- `credit_redemption_batches`: append-only. -/
structure RedemptionBatch where
  amountMicros : Int
  quantity : Int
  maxRedemptions : Int
  expiresAt : Option Instant
deriving DecidableEq, Repr

inductive RedemptionCodeStatus
  | active
  | redeemed
  | revoked
deriving DecidableEq, Repr

/-- `credit_redemption_codes`. -/
structure RedemptionCode where
  batchId : Nat
  codeDigest : String
  status : RedemptionCodeStatus
  redeemedAt : Option Instant
  revokedAt : Option Instant
deriving DecidableEq, Repr

/-- `credit_redemption_receipts`: append-only. -/
structure RedemptionReceipt where
  codeId : Nat
  projectId : Int
  userId : Int
  walletId : Nat
  ledgerEntryId : Nat
  amountMicros : Int
  redeemedAt : Instant
deriving DecidableEq, Repr

/-! ## The database -/

structure Db where
  wallets : Table Wallet
  ledger : Table LedgerEntry
  reservations : Table Reservation
  allocations : Table Allocation
  subscriptions : Table Subscription
  ruleSnapshots : Table QuotaRuleSnapshot
  entitlementSnapshots : Table EntitlementSnapshot
  entitlementItems : Table EntitlementItem
  buckets : Table Bucket
  chargeEvents : Table ChargeEvent
  settlements : Table ChargeSettlement
  batches : Table RedemptionBatch
  codes : Table RedemptionCode
  receipts : Table RedemptionReceipt
deriving DecidableEq, Repr

/-- No row but wallets that hold nothing, one for each listed project. -/
def Db.fresh (projects : List (Int × WalletStatus)) : Db where
  wallets := projects.map fun (projectId, status) => ⟨projectId, status, 0, 0⟩
  ledger := []
  reservations := []
  allocations := []
  subscriptions := []
  ruleSnapshots := []
  entitlementSnapshots := []
  entitlementItems := []
  buckets := []
  chargeEvents := []
  settlements := []
  batches := []
  codes := []
  receipts := []

/-- A transaction on the billing tables. -/
abbrev Tx := Transaction Db TxError

end Conduit.Billing
