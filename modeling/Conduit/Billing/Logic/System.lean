import Conduit.Billing.Logic.Charge
import Conduit.Billing.Logic.Redemption
import Conduit.Billing.Logic.Settlement
import Conduit.Billing.Logic.Subscription
import Conduit.Billing.System

/-!
# The invariant of the billing system

`Sound` puts books, redemptions and charges together; every operation keeps
it, so it holds in every reachable state.
-/

namespace Conduit.Billing

open Base Transaction

structure Sound (db : Db) : Prop where
  books : Books db
  redemptions : Redemptions db
  charges : Charges db

/-- The tables of which the histories of redemptions and charges are made. -/
def Db.history (db : Db) : Table LedgerEntry × Table ChargeEvent × Table ChargeSettlement ×
    Table RedemptionBatch × Table RedemptionCode × Table RedemptionReceipt :=
  (db.ledger, db.chargeEvents, db.settlements, db.batches, db.codes, db.receipts)

/-- What any operation does: it keeps the invariant, and issued buckets,
redemption history and charge events stay. -/
structure Advance (db db' : Db) : Prop where
  sound : Sound db'
  issued : Issued db.buckets db'.buckets
  retained : Retained db db'
  charged : ∀ usageLogId, db.Charged usageLogId → db'.Charged usageLogId

theorem Advance.refl {db : Db} (h : Sound db) : Advance db db :=
  ⟨h, .refl _, Std.Refl.refl db, fun _ hcharged => hcharged⟩

theorem Advance.trans {db₁ db₂ db₃ : Db} (h₁ : Advance db₁ db₂) (h₂ : Advance db₂ db₃) :
    Advance db₁ db₃ :=
  ⟨h₂.sound, h₁.issued.trans h₂.issued, IsTrans.trans _ _ _ h₁.retained h₂.retained,
    fun usageLogId hcharged => h₂.charged usageLogId (h₁.charged usageLogId hcharged)⟩

namespace Sound

variable {db db' : Db}

theorem of_history (h : Sound db) (hbooks : Books db') (hissued : Issued db.buckets db'.buckets)
    (hhistory : db'.history = db.history) : Advance db db' := by
  simp only [Db.history, Prod.mk.injEq] at hhistory
  obtain ⟨hledger, hevents, hsettlements, hbatches, hcodes, hreceipts⟩ := hhistory
  exact ⟨⟨hbooks, h.redemptions.frame hbatches hcodes hreceipts (.inl hledger),
    h.charges.frame hevents hsettlements (.inl hledger)⟩, hissued,
    .of_eq hbatches hcodes hreceipts, fun usageLogId ⟨i, x, hx, hlog⟩ => ⟨i, x, hevents ▸ hx, hlog⟩⟩

/-- Operations that move funds between tables outside the histories. -/
theorem moves (h : Sound db) (hbooks : Books db') (hmoves : Moves db db') : Advance db db' := by
  have hhistory := congrArg Db.history hmoves.outside
  exact h.of_history hbooks hmoves.issued hhistory

theorem reissue (h : Sound db) (hreissue : Reissue db db') : Advance db db' := by
  have hmoney := hreissue.money
  have hwallets := congrArg Db.wallets hmoney
  have hledger := congrArg Db.ledger hmoney
  have hreservations := congrArg Db.reservations hmoney
  have hallocations := congrArg Db.allocations hmoney
  have hhistory := congrArg Db.history hmoney
  refine h.of_history ⟨?_, hreissue.quota, ?_, ?_⟩ hreissue.issued hhistory
  · exact h.books.accounted.frame hwallets hledger hreservations hallocations hreissue.grow
      hreissue.reserved
  · intro w row hrow
    have hsame : db'.wallets = db.wallets := hwallets
    exact h.books.solvent w row (hsame ▸ hrow)
  · intro i r hr
    have hsame : db'.reservations = db.reservations := hreservations
    exact h.books.idle i r (hsame ▸ hr)

/-- A transaction advances if each of its commits does. -/
theorem commit {α : Type} {t : Tx α} (h : Sound db)
    (ht : ∀ a db', Commits t db a db' → Advance db db') : Advance db (t.commit db) := by
  rcases commit_cases t db with ⟨a, hcommit⟩ | heq
  · exact ht a _ hcommit
  · rw [heq]
    exact .refl h

/-- A subscription operation. -/
theorem subscription {α : Type} (h : Sound db) {t : Tx α} (ht : Steps Reissues t) :
    Advance db (t.commit db) :=
  h.reissue (ht.commit db h.books.quota)

theorem settleUsage (h : Sound db) (log : UsageLog) (facts : ChargeFacts) (key : Option String)
    (now : Instant) : Advance db ((Billing.settleUsage log facts key now).commit db) := by
  refine h.commit fun u db' hcommit => ?_
  have hbooks := settleUsage_keeps log facts key now db u db' h.books hcommit
  rcases settleUsage_record hcommit with ⟨rfl, _⟩ | hrecord
  · exact .refl h
  · have hbatches := congrArg Db.batches hrecord.outside
    have hcodes := congrArg Db.codes hrecord.outside
    have hreceipts := congrArg Db.receipts hrecord.outside
    refine ⟨⟨hbooks, h.redemptions.frame hbatches hcodes hreceipts ?_, h.charges.recorded hrecord⟩,
      hrecord.issued, .of_eq hbatches hcodes hreceipts, hrecord.charged.2⟩
    rcases hrecord.debit with hledger | ⟨walletId, amount, hledger⟩
    · exact .inl hledger
    · exact .inr ⟨_, fun codeId href => by simp [usageCharge] at href, hledger⟩

theorem grantProjectCredit (h : Sound db) (projectExists : Bool) (grant : CreditGrant) :
    Advance db ((Billing.grantProjectCredit projectExists grant).commit db) := by
  refine h.commit fun u db' hcommit => ?_
  have hbooks := grantProjectCredit_keeps projectExists grant db u db' h.books hcommit
  rcases commits_grantProjectCredit hcommit with rfl | ⟨walletId, id, hinsert⟩
  · exact .refl h
  · obtain ⟨_, _, _, _, _, _, hentry⟩ := commits_insertLedgerEntry hinsert
    rw [insertWallet_eq] at hentry
    rw [hentry] at hbooks ⊢
    refine ⟨⟨hbooks, h.redemptions.frame rfl rfl rfl (.inr ⟨_, fun codeId href => ?_, rfl⟩),
      h.charges.frame rfl rfl (.inr ⟨_, fun usageLogId href => ?_, rfl⟩)⟩, .refl _,
      .of_eq rfl rfl rfl, fun _ hcharged => hcharged⟩
    · simp [adminGrant] at href
    · simp [adminGrant] at href

theorem createCodes (h : Sound db) (now : Instant) (input : NewCodes) :
    Advance db ((Billing.createCodes now input).commit db) := by
  refine h.commit fun u db' hcommit => ?_
  have hredemptions := h.redemptions.createCodes hcommit
  have hretained := createCodes_retained now input db u db' hcommit
  have hbooks := createCodes_keeps now input db u db' h.books hcommit
  rw [createCodes_eq hcommit] at hbooks hredemptions hretained ⊢
  exact ⟨⟨hbooks, hredemptions, h.charges.frame rfl rfl (.inl rfl)⟩, .refl _, hretained,
    fun _ hcharged => hcharged⟩

theorem revokeCode (h : Sound db) (codeId : Nat) (now : Instant) :
    Advance db ((Billing.revokeCode codeId now).commit db) := by
  refine h.commit fun u db' hcommit => ?_
  have hredemptions := h.redemptions.revokeCode hcommit
  have hretained := revokeCode_retained codeId now db u db' hcommit
  have hbooks := revokeCode_keeps codeId now db u db' h.books hcommit
  obtain ⟨code, _, _, rfl⟩ := commits_revokeCode hcommit
  exact ⟨⟨hbooks, hredemptions, h.charges.frame rfl rfl (.inl rfl)⟩, .refl _, hretained,
    fun _ hcharged => hcharged⟩

theorem redeemCode (h : Sound db) (input : Redeem) (now : Instant) :
    Advance db ((Billing.redeemCode input now).commit db) := by
  refine h.commit fun receipt db' hcommit => ?_
  have hredemptions := h.redemptions.redeemCode hcommit
  have hretained := redeemCode_retained input now db receipt db' hcommit
  have hbooks := h.books.redeemCode (fun i b hb => (h.redemptions.batch i b hb).1) hcommit
  obtain ⟨codeId, code, batch, _, _, ⟨_, _, rfl⟩ | ⟨_, _, _, _, hfirst⟩⟩ := commits_redeemCode hcommit
  · exact .refl h
  · obtain ⟨_, hevents, hsettlements, hbuckets, walletId, hledger⟩ := hfirst.ledger
    refine ⟨⟨hbooks, hredemptions, h.charges.frame hevents hsettlements ?_⟩,
      hbuckets ▸ .refl _, hretained, fun usageLogId ⟨i, x, hx, hlog⟩ => ⟨i, x, hevents ▸ hx, hlog⟩⟩
    exact .inr ⟨_, fun usageLogId href => by simp [redemptionCredit] at href, hledger⟩

/-- Every operation advances. -/
theorem step (h : Sound db) (cal : Calendar) (op : Op) : Advance db (op.apply cal db) := by
  cases op with
  | reserveRequest mode ttl now input =>
      exact h.moves ((reserveRequest_keeps mode ttl now input).commit h.books)
        ((reserveRequest_moves mode ttl now input).commit db)
  | releaseRequest key => exact h.moves (h.books.releaseRequest key) (moves_releaseRequest db key)
  | settleUsage log facts key now => exact h.settleUsage log facts key now
  | expireWalletReservations walletId now =>
      exact h.moves (h.books.expireWalletReservations walletId now).1
        (moves_expireWalletReservations db walletId now)
  | grantProjectCredit projectExists grant => exact h.grantProjectCredit projectExists grant
  | createCodes now input => exact h.createCodes now input
  | revokeCode codeId now => exact h.revokeCode codeId now
  | redeemCode input now => exact h.redeemCode input now
  | assignUserSubscription input now =>
      exact h.subscription (assignUserSubscription_steps cal input now)
  | refreshSubscription catalog planEnabled id now =>
      exact h.subscription (refreshLocked_steps cal catalog planEnabled id now)
  | pauseUserSubscription id =>
      exact h.subscription (setInactiveLocked_steps id [.active] .paused false)
  | resumeUserSubscription catalog planEnabled id now =>
      exact h.subscription (reactivateSubscription_steps cal catalog planEnabled id now (by simp))
  | cancelUserSubscription id now => exact h.subscription (cancelPendingLocked_steps id now)
  | renewUserSubscription catalog planEnabled id now =>
      exact h.subscription (reactivateSubscription_steps cal catalog planEnabled id now fun _ => rfl)
  | setSubscriptionAutoRenew id autoRenew =>
      exact h.subscription (setSubscriptionAutoRenew_steps id autoRenew)
  | processDueSubscription catalog planEnabled id dueAt now =>
      exact h.subscription (processDueSubscription_steps cal catalog planEnabled id dueAt now)

end Sound

/-! ## Reachable states -/

/-- Empty wallets are sound. -/
theorem sound_fresh (projects : List (Int × WalletStatus)) : Sound (Db.fresh projects) := by
  have hwallet : ∀ (w : Nat) (row : Wallet), (Db.fresh projects).wallets[w]? = some row →
      row.creditBalanceMicros = 0 ∧ row.creditReservedMicros = 0 := by
    intro w row hrow
    obtain ⟨project, _, rfl⟩ := List.mem_map.mp (List.mem_of_getElem? hrow)
    exact ⟨rfl, rfl⟩
  have hbooks : Books (Db.fresh projects) :=
    { accounted :=
        { balance := fun w row hrow => (hwallet w row hrow).1
          reserved := fun w row hrow => (hwallet w row hrow).2
          bucket := fun _ _ hrow => absurd hrow (by simp [Db.fresh])
          sound := fun _ _ ha => absurd ha (by simp [Db.fresh])
          settled := fun _ _ _ ha => absurd ha (by simp [Db.fresh])
          entryWallet := fun _ _ he => absurd he (by simp [Db.fresh])
          reservationWallet := fun _ _ hr => absurd hr (by simp [Db.fresh])
          allocationReservation := fun _ _ ha => absurd ha (by simp [Db.fresh])
          allocationBucket := fun _ _ _ ha => absurd ha (by simp [Db.fresh]) }
      quota :=
        { within := fun _ _ hrow => absurd hrow (by simp [Db.fresh])
          carry := fun _ _ _ hrow => absurd hrow (by simp [Db.fresh])
          carryUnique := fun _ _ _ _ _ hx => absurd hx (by simp [Db.fresh])
          ruleAmount := fun _ _ hrule => absurd hrule (by simp [Db.fresh]) }
      solvent := by
        intro w row hrow
        obtain ⟨hbalance, hreserved⟩ := hwallet w row hrow
        rw [hbalance, hreserved]
        exact ⟨Int.le_refl 0, by decide⟩
      idle := fun _ _ hr => absurd hr (by simp [Db.fresh]) }
  have hredemptions : Redemptions (Db.fresh projects) :=
    { batch := fun _ _ hb => absurd hb (by simp [Db.fresh])
      codeBatch := fun _ _ hc => absurd hc (by simp [Db.fresh])
      digest := fun _ _ _ _ hc => absurd hc (by simp [Db.fresh])
      receiptCode := fun _ _ hr => absurd hr (by simp [Db.fresh])
      receiptUnique := fun _ _ _ _ hr => absurd hr (by simp [Db.fresh])
      entryCode := fun _ _ _ he => absurd he (by simp [Db.fresh])
      credited := fun _ _ _ hc => absurd hc (by simp [Db.fresh])
      bounded := fun _ _ _ hc => absurd hc (by simp [Db.fresh]) }
  have hcharges : Charges (Db.fresh projects) :=
    { eventUnique := fun _ _ _ _ hx => absurd hx (by simp [Db.fresh])
      settlementEvent := fun _ _ hs => absurd hs (by simp [Db.fresh])
      settlementUnique := fun _ _ _ _ hs => absurd hs (by simp [Db.fresh])
      debitEvent := fun _ _ _ he => absurd he (by simp [Db.fresh])
      debitUnique := fun _ _ _ _ _ he => absurd he (by simp [Db.fresh]) }
  exact ⟨hbooks, hredemptions, hcharges⟩

theorem sound_inductive (cal : Calendar) (projects : List (Int × WalletStatus)) :
    (billing cal projects).Inductive Sound where
  init := sound_fresh projects
  step _ op h := (h.step cal op).sound

/-- Every run from a sound state advances. -/
theorem Sound.run (cal : Calendar) (projects : List (Int × WalletStatus)) (ops : List Op) :
    ∀ db, Sound db → Advance db ((billing cal projects).run db ops) := by
  induction ops with
  | nil => exact fun _ h => .refl h
  | cons op ops ih =>
      intro db h
      have hstep := h.step cal op
      exact hstep.trans (ih (op.apply cal db) hstep.sound)

/-- Only redemptions add receipts. -/
theorem Sound.receipts_step {db : Db} (h : Sound db) (cal : Calendar) (op : Op) :
    (∃ input now, op = .redeemCode input now) ∨ (op.apply cal db).receipts = db.receipts := by
  have hmoves : ∀ {db' : Db}, Moves db db' → db'.receipts = db.receipts := by
    intro db' hmoves
    have hreceipts := congrArg Db.receipts hmoves.outside
    exact hreceipts
  have hreissue : ∀ {α : Type} {t : Tx α}, Steps Reissues t →
      (t.commit db).receipts = db.receipts := by
    intro α t ht
    have hreceipts := congrArg Db.receipts (ht.commit db h.books.quota).money
    exact hreceipts
  have hcommit : ∀ {α : Type} (t : Tx α),
      (∀ a db', Commits t db a db' → db'.receipts = db.receipts) →
        (t.commit db).receipts = db.receipts := by
    intro α t ht
    rcases commit_cases t db with ⟨a, hc⟩ | heq
    · exact ht a _ hc
    · rw [heq]
  cases op with
  | reserveRequest mode ttl now input =>
      exact .inr (hmoves ((reserveRequest_moves mode ttl now input).commit db))
  | releaseRequest key => exact .inr (hmoves (moves_releaseRequest db key))
  | settleUsage log facts key now =>
      refine .inr (hcommit _ fun u db' hc => ?_)
      rcases settleUsage_record hc with ⟨rfl, _⟩ | hrecord
      · rfl
      · have hreceipts := congrArg Db.receipts hrecord.outside
        exact hreceipts
  | expireWalletReservations walletId now =>
      exact .inr (hmoves (moves_expireWalletReservations db walletId now))
  | grantProjectCredit projectExists grant =>
      refine .inr (hcommit _ fun u db' hc => ?_)
      rcases commits_grantProjectCredit hc with rfl | ⟨walletId, id, hinsert⟩
      · rfl
      · obtain ⟨_, _, _, _, _, _, heq⟩ := commits_insertLedgerEntry hinsert
        rw [heq, insertWallet_eq]
  | createCodes now input =>
      refine .inr (hcommit _ fun u db' hc => ?_)
      rw [createCodes_eq hc]
  | revokeCode codeId now =>
      refine .inr (hcommit _ fun u db' hc => ?_)
      obtain ⟨_, _, _, rfl⟩ := commits_revokeCode hc
      rfl
  | redeemCode input now => exact .inl ⟨input, now, rfl⟩
  | assignUserSubscription input now => exact .inr (hreissue (assignUserSubscription_steps cal input now))
  | refreshSubscription catalog planEnabled id now =>
      exact .inr (hreissue (refreshLocked_steps cal catalog planEnabled id now))
  | pauseUserSubscription id =>
      exact .inr (hreissue (setInactiveLocked_steps id [.active] .paused false))
  | resumeUserSubscription catalog planEnabled id now =>
      exact .inr (hreissue (reactivateSubscription_steps cal catalog planEnabled id now (by simp)))
  | cancelUserSubscription id now => exact .inr (hreissue (cancelPendingLocked_steps id now))
  | renewUserSubscription catalog planEnabled id now =>
      exact .inr (hreissue
        (reactivateSubscription_steps cal catalog planEnabled id now fun _ => rfl))
  | setSubscriptionAutoRenew id autoRenew =>
      exact .inr (hreissue (setSubscriptionAutoRenew_steps id autoRenew))
  | processDueSubscription catalog planEnabled id dueAt now =>
      exact .inr (hreissue (processDueSubscription_steps cal catalog planEnabled id dueAt now))

/-- A new receipt of a code comes from redeeming it active and unexpired. -/
theorem Sound.new_receipt {db : Db} (h : Sound db) {cal : Calendar} {op : Op} {codeId : Nat}
    (hnew : (op.apply cal db).redemptionCount codeId ≠ db.redemptionCount codeId) :
    ∃ input now code batch, op = .redeemCode input now ∧ db.codes[codeId]? = some code ∧
      db.batches[code.batchId]? = some batch ∧ code.status = .active ∧
      batch.expired now = false := by
  rcases h.receipts_step cal op with ⟨input, now, rfl⟩ | hsame
  · rcases commit_cases (Billing.redeemCode input now) db with ⟨receipt, hcommit⟩ | heq
    · obtain ⟨code, batch, hcode, hbatch, hactive, hexpired⟩ := redeemCode_new hcommit hnew
      exact ⟨input, now, code, batch, rfl, hcode, hbatch, hactive, hexpired⟩
    · exact absurd (congrArg (fun d => Db.redemptionCount d codeId) heq) hnew
  · unfold Db.redemptionCount at hnew
    rw [hsame] at hnew
    exact absurd rfl hnew

end Conduit.Billing
