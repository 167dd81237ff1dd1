import Conduit.Base.TSys
import Conduit.Billing.Credit
import Conduit.Billing.Settlement
import Conduit.Billing.Subscription

/-!
# The billing system

Every operation is one transaction and takes its clocks, keys, amounts and
lookups from its caller, so a run is a list of operations with any of these.
A failed operation leaves the database alone. Runs start from wallets that
hold nothing.
-/

namespace Conduit.Billing

open Base Transaction

inductive Op
  | reserveRequest (mode : EnforcementMode) (ttl : Nat) (now : Instant) (input : AdmissionInput)
  | releaseRequest (key : String)
  | settleUsage (log : UsageLog) (facts : ChargeFacts) (key : Option String) (now : Instant)
  | expireWalletReservations (walletId : Nat) (now : Instant)
  | grantProjectCredit (projectExists : Bool) (grant : CreditGrant)
  | createCodes (now : Instant) (input : NewCodes)
  | revokeCode (codeId : Nat) (now : Instant)
  | redeemCode (input : Redeem) (now : Instant)
  | assignUserSubscription (input : Assignment) (now : Instant)
  | refreshSubscription (catalog : Catalog) (planEnabled : Bool) (id : Nat) (now : Instant)
  | pauseUserSubscription (id : Nat)
  | resumeUserSubscription (catalog : Catalog) (planEnabled : Bool) (id : Nat) (now : Instant)
  | cancelUserSubscription (id : Nat) (now : Instant)
  | renewUserSubscription (catalog : Catalog) (planEnabled : Bool) (id : Nat) (now : Instant)
  | setSubscriptionAutoRenew (id : Nat) (autoRenew : Bool)
  | processDueSubscription (catalog : Catalog) (planEnabled : Bool) (id : Nat)
      (dueAt now : Instant)

def Op.apply (cal : Calendar) (db : Db) : Op → Db
  | reserveRequest mode ttl now input => (Billing.reserveRequest mode ttl now input).commit db
  | releaseRequest key => db.releaseRequest key
  | settleUsage log facts key now => (Billing.settleUsage log facts key now).commit db
  | expireWalletReservations walletId now => (db.expireWalletReservations walletId now).1
  | grantProjectCredit projectExists grant =>
      (Billing.grantProjectCredit projectExists grant).commit db
  | createCodes now input => (Billing.createCodes now input).commit db
  | revokeCode codeId now => (Billing.revokeCode codeId now).commit db
  | redeemCode input now => (Billing.redeemCode input now).commit db
  | assignUserSubscription input now =>
      (Billing.assignUserSubscription cal input now).commit db
  | refreshSubscription catalog planEnabled id now =>
      (refreshLocked cal catalog planEnabled id now).commit db
  | pauseUserSubscription id => (Billing.pauseUserSubscription id).commit db
  | resumeUserSubscription catalog planEnabled id now =>
      (Billing.resumeUserSubscription cal catalog planEnabled id now).commit db
  | cancelUserSubscription id now => (cancelPendingLocked id now).commit db
  | renewUserSubscription catalog planEnabled id now =>
      (Billing.renewUserSubscription cal catalog planEnabled id now).commit db
  | setSubscriptionAutoRenew id autoRenew =>
      (Billing.setSubscriptionAutoRenew id autoRenew).commit db
  | processDueSubscription catalog planEnabled id dueAt now =>
      (Billing.processDueSubscription cal catalog planEnabled id dueAt now).commit db

/-- A calendar with months of thirty days, for concrete runs. -/
def thirtyDays : Calendar where
  minInstant := -microsPerDay * 100000000
  maxInstant := microsPerDay * 100000000
  addMonths t n := some (t + n * (30 * microsPerDay))
  addMonths_later := by
    intro t n u hn hu
    obtain rfl := Option.some.inj hu
    have hmonths : (0 : Int) < n * (30 * microsPerDay) := by
      unfold microsPerDay
      omega
    exact Int.lt_add_of_pos_right t hmonths

/-- The billing system over the wallets of some projects. -/
def billing (cal : Calendar) (projects : List (Int × WalletStatus)) : TSys Db Op where
  init := Db.fresh projects
  step := Op.apply cal

end Conduit.Billing
