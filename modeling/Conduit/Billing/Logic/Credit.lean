import Conduit.Billing.Credit
import Conduit.Billing.Logic.Admission

/-!
# Grants and redemptions keep the books

A grant and a first redemption each add one credit entry to the ledger, after
creating the wallet if the project has none; a repeated grant and a replayed
redemption change nothing.
-/

namespace Conduit.Billing

open Base Transaction

/-! ## Adding credit -/

theorem Books.insertLedgerEntry {db db' : Db} {entry : LedgerEntry} {id : Nat} (h : Books db)
    (hcommit : Commits (insertLedgerEntry entry) db id db') (h0 : 0 ≤ entry.amountMicros) :
    Books db' := by
  have haccounted := h.accounted.insertLedgerEntry hcommit
  obtain ⟨_, wallet, hwallet, _, hmax, _, heq⟩ := commits_insertLedgerEntry hcommit
  refine ⟨haccounted, ?_, ?_, ?_⟩
  · rw [heq]
    exact h.quota.frame rfl rfl
  · rw [heq]
    intro w row hrow
    rcases Table.getElem?_updateRow_cases hrow with ⟨_, old, hold, rfl⟩ | ⟨_, hold⟩
    · obtain rfl := Option.some.inj (hold.symm.trans hwallet)
      have hsolvent := h.solvent _ old hold
      refine ⟨?_, hmax⟩
      show old.creditReservedMicros ≤ old.creditBalanceMicros + entry.amountMicros
      omega
    · exact h.solvent w row hold
  · rw [heq]
    exact h.idle

/-- What a committed grant does: nothing if its key was used, else one credit
entry. -/
theorem commits_grantProjectCredit {db db' : Db} {projectExists : Bool} {grant : CreditGrant}
    {u : Unit} (h : Commits (grantProjectCredit projectExists grant) db u db') :
    db' = db ∨ ∃ walletId id, Commits (insertLedgerEntry (adminGrant walletId grant))
      (db.insertWallet grant.projectId) id db' := by
  simp only [grantProjectCredit, commits_bind, commits_require, commits_read] at h
  obtain ⟨_, _, ⟨_, rfl⟩, _, _, ⟨rfl, rfl⟩, h⟩ := h
  split at h
  · obtain ⟨_, rfl⟩ := commits_require.mp h
    exact .inl rfl
  · simp only [commits_bind, commits_write, commits_read, commits_orAbort, commits_pure] at h
    obtain ⟨_, _, rfl, _, _, ⟨rfl, rfl⟩, ⟨walletId, wallet⟩, _, ⟨_, rfl⟩, id, _, hinsert, _, rfl⟩ := h
    exact .inr ⟨walletId, id, hinsert⟩

theorem grantProjectCredit_keeps (projectExists : Bool) (grant : CreditGrant) :
    Keeps Books (grantProjectCredit projectExists grant) := by
  intro db u db' h hcommit
  rcases commits_grantProjectCredit hcommit with rfl | ⟨walletId, id, hinsert⟩
  · exact h
  · exact (h.insertWallet grant.projectId).insertLedgerEntry hinsert (Int.le_of_lt grant.positive)

/-! ## Codes -/

theorem commits_revokeCode {db db' : Db} {codeId : Nat} {now : Instant} {u : Unit}
    (h : Commits (revokeCode codeId now) db u db') :
    ∃ code, db.codes[codeId]? = some code ∧ code.status = .active ∧
      db' = { db with
        codes := db.codes.updateRow codeId
          fun c => { c with status := .revoked, revokedAt := some now } } := by
  simp only [revokeCode, commits_bind, commits_read, commits_orAbort, commits_require,
    commits_write] at h
  obtain ⟨_, _, ⟨rfl, rfl⟩, code, _, ⟨hcode, rfl⟩, batch, _, ⟨_, rfl⟩, _, _, ⟨hactive, rfl⟩, rfl⟩ := h
  exact ⟨code, hcode, hactive.1, rfl⟩

theorem revokeCode_keeps (codeId : Nat) (now : Instant) : Keeps Books (revokeCode codeId now) := by
  intro db u db' h hcommit
  obtain ⟨code, _, _, rfl⟩ := commits_revokeCode hcommit
  exact h.frame rfl rfl rfl rfl rfl rfl

/-- Inserting the codes of a batch touches no other table. -/
theorem insertCodes_codes (batchId : Nat) (digests : List String) :
    Steps (fun db db' : Db => db' = { db with codes := db'.codes }) (insertCodes batchId digests) := by
  induction digests with
  | nil =>
      intro db u db' h
      obtain ⟨_, rfl⟩ := commits_pure.mp h
      rfl
  | cons digest rest ih =>
      intro db u db' h
      simp only [insertCodes, commits_bind, commits_read, commits_require, commits_write] at h
      obtain ⟨_, _, ⟨rfl, rfl⟩, _, _, ⟨_, rfl⟩, _, _, rfl, hrest⟩ := h
      have hstep := ih _ u db' hrest
      exact hstep

theorem commits_createCodes {db db' : Db} {now : Instant} {input : NewCodes} {u : Unit}
    (h : Commits (createCodes now input) db u db') :
    ∃ batch, 0 < batch.amountMicros ∧ 1 ≤ batch.maxRedemptions ∧
      Commits (insertCodes db.batches.length input.digests)
        { db with batches := db.batches.insertRow batch } u db' := by
  simp only [createCodes, commits_bind, commits_read, commits_require, commits_write] at h
  obtain ⟨_, _, ⟨_, rfl⟩, _, _, ⟨hlimit, rfl⟩, _, _, ⟨hamount, rfl⟩, _, _, ⟨_, rfl⟩, _, _, ⟨_, rfl⟩,
    _, _, ⟨rfl, rfl⟩, _, _, rfl, hinsert⟩ := h
  exact ⟨_, hamount.1, hlimit.1, hinsert⟩

/-- Creating codes touches no table but batches and codes. -/
theorem createCodes_eq {db db' : Db} {now : Instant} {input : NewCodes} {u : Unit}
    (h : Commits (createCodes now input) db u db') :
    db' = { db with batches := db'.batches, codes := db'.codes } := by
  obtain ⟨batch, _, _, hinsert⟩ := commits_createCodes h
  have heq := insertCodes_codes _ _ _ _ _ hinsert
  have hbatches : db'.batches = db.batches.insertRow batch := by rw [heq]
  rw [hbatches]
  exact heq

theorem createCodes_keeps (now : Instant) (input : NewCodes) :
    Keeps Books (createCodes now input) := by
  intro db u db' h hcommit
  rw [createCodes_eq hcommit]
  exact h.frame rfl rfl rfl rfl rfl rfl

/-! ## Redemptions -/

/-- The rows that a first redemption adds: a credit entry, its receipt, and
the final status once the code is used up. -/
structure FirstRedemption (input : Redeem) (codeId : Nat) (batch : RedemptionBatch) (now : Instant)
    (db : Db) (receipt : RedemptionReceipt) (db' : Db) : Prop where
  credit : ∃ walletId id db₁,
    Commits (insertLedgerEntry (redemptionCredit walletId codeId input.userId batch.amountMicros))
      (db.insertWallet input.projectId) id db₁ ∧
    db' = { db₁ with receipts := db'.receipts, codes := db'.codes }
  code : receipt.codeId = codeId
  user : receipt.userId = input.userId
  receipts : db'.receipts = db.receipts.insertRow receipt
  codes : db'.codes = if (db.redemptionCount codeId : Int) + 1 = batch.maxRedemptions then
      db.codes.updateRow codeId fun c => { c with status := .redeemed, redeemedAt := some now }
    else db.codes

theorem insertWallet_eq (db : Db) (projectId : Int) :
    db.insertWallet projectId = { db with wallets := (db.insertWallet projectId).wallets } := by
  unfold Db.insertWallet
  split
  · rfl
  · rfl

theorem commits_redeemFirst {db db' : Db} {input : Redeem} {codeId : Nat} {batch : RedemptionBatch}
    {now : Instant} {receipt : RedemptionReceipt}
    (h : Commits (redeemFirst input codeId batch now) db receipt db') :
    FirstRedemption input codeId batch now db receipt db' := by
  simp only [redeemFirst, commits_bind, commits_write, commits_read, commits_orAbort,
    commits_require] at h
  obtain ⟨_, _, rfl, _, _, ⟨rfl, rfl⟩, ⟨walletId, wallet⟩, _, ⟨_, rfl⟩, _, _, ⟨_, rfl⟩, id, db₁,
    hinsert, _, _, rfl, h⟩ := h
  obtain ⟨_, _, _, _, _, _, heq⟩ := commits_insertLedgerEntry hinsert
  have hcount : (db.insertWallet input.projectId).redemptionCount codeId =
      db.redemptionCount codeId := by
    rw [insertWallet_eq]
    rfl
  have hreceipts : db₁.receipts = db.receipts := by rw [heq, insertWallet_eq]
  have hcodes : db₁.codes = db.codes := by rw [heq, insertWallet_eq]
  rw [hcount] at h
  rcases commits_ite.mp h with ⟨hlast, h⟩ | ⟨hmore, h⟩
  · simp only [commits_bind, commits_write, commits_pure] at h
    obtain ⟨_, _, rfl, rfl, rfl⟩ := h
    refine ⟨⟨walletId, id, db₁, hinsert, rfl⟩, rfl, rfl, ?_, ?_⟩
    · rw [← hreceipts]
    · rw [if_pos hlast, ← hcodes]
  · obtain ⟨rfl, rfl⟩ := commits_pure.mp h
    refine ⟨⟨walletId, id, db₁, hinsert, rfl⟩, rfl, rfl, ?_, ?_⟩
    · rw [← hreceipts]
    · rw [if_neg hmore, ← hcodes]

/-- What a committed redemption does: it replays a receipt or redeems an
active, unexpired code that has a redemption left. -/
theorem commits_redeemCode {db db' : Db} {input : Redeem} {now : Instant}
    {receipt : RedemptionReceipt} (h : Commits (redeemCode input now) db receipt db') :
    ∃ codeId code batch, db.codes[codeId]? = some code ∧
      db.batches[code.batchId]? = some batch ∧
      ((∃ i, db.receiptOf codeId input.userId = some (i, receipt) ∧ db' = db) ∨
        (db.receiptOf codeId input.userId = none ∧ code.status = .active ∧
          batch.expired now = false ∧ (db.redemptionCount codeId : Int) < batch.maxRedemptions ∧
          FirstRedemption input codeId batch now db receipt db')) := by
  simp only [redeemCode, commits_bind, commits_require, commits_orAbort, commits_read] at h
  obtain ⟨_, _, ⟨_, rfl⟩, digest, _, ⟨_, rfl⟩, _, _, ⟨_, rfl⟩, _, _, ⟨rfl, rfl⟩, ⟨codeId, code⟩, _,
    ⟨hcode, rfl⟩, batch, _, ⟨hbatch, rfl⟩, h⟩ := h
  refine ⟨codeId, code, batch, (Table.selectOne_some hcode).1, hbatch, ?_⟩
  split at h
  · next i old hreplay =>
      simp only [commits_bind, commits_require, commits_pure] at h
      obtain ⟨_, _, ⟨_, rfl⟩, rfl, rfl⟩ := h
      exact .inl ⟨i, hreplay, rfl⟩
  · next hnone =>
      simp only [commits_bind, commits_require] at h
      obtain ⟨_, _, ⟨hopen, rfl⟩, _, _, ⟨hleft, rfl⟩, h⟩ := h
      exact .inr ⟨hnone, hopen.1, hopen.2, hleft, commits_redeemFirst h⟩

/-- A redemption keeps the books when batches are worth something. -/
theorem Books.redeemCode {db db' : Db} {input : Redeem} {now : Instant}
    {receipt : RedemptionReceipt} (h : Books db)
    (hbatches : ∀ (i : Nat) (b : RedemptionBatch), db.batches[i]? = some b → 0 < b.amountMicros)
    (hcommit : Commits (redeemCode input now) db receipt db') : Books db' := by
  obtain ⟨codeId, code, batch, _, hbatch, ⟨_, _, rfl⟩ | ⟨_, _, _, _, hfirst⟩⟩ :=
    commits_redeemCode hcommit
  · exact h
  · obtain ⟨walletId, id, db₁, hinsert, heq⟩ := hfirst.credit
    have hbooks := (h.insertWallet input.projectId).insertLedgerEntry hinsert
      (Int.le_of_lt (hbatches _ batch hbatch))
    rw [heq]
    exact hbooks.frame rfl rfl rfl rfl rfl rfl

end Conduit.Billing
