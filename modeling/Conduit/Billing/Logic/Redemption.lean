import Conduit.Billing.Logic.Credit

/-!
# Bounded redemption

`Redemptions`: a code has at most as many receipts as its batch allows, each
user at most one of them, the ledger credit of the code is its amount once
for each receipt, and the code is redeemed exactly when it is used up.
Receipts and batches are append-only, and a code that is not active never
changes again: `Retained`.
-/

namespace Conduit.Billing

open Base Transaction

/-- The ledger credit that came from a code. -/
def Db.redemptionCredited (db : Db) (codeId : Nat) : Int :=
  db.ledger.total fun e => if e.reference = .creditRedemptionCode codeId then e.amountMicros else 0

/-- A code after `count` of `limit` redemptions. -/
structure RedemptionCode.Bounded (c : RedemptionCode) (limit count : Int) : Prop where
  within : count ≤ limit
  redeemed : c.status = .redeemed ↔ count = limit
  revoked : c.revokedAt.isSome = true ↔ c.status = .revoked

structure Redemptions (db : Db) : Prop where
  batch : ∀ (i : Nat) (b : RedemptionBatch), db.batches[i]? = some b →
    0 < b.amountMicros ∧ 1 ≤ b.maxRedemptions
  codeBatch : ∀ (i : Nat) (c : RedemptionCode), db.codes[i]? = some c →
    c.batchId < db.batches.length
  digest : ∀ (i j : Nat) (c d : RedemptionCode), db.codes[i]? = some c → db.codes[j]? = some d →
    c.codeDigest = d.codeDigest → i = j
  receiptCode : ∀ (i : Nat) (r : RedemptionReceipt), db.receipts[i]? = some r →
    r.codeId < db.codes.length
  receiptUnique : ∀ (i j : Nat) (r q : RedemptionReceipt), db.receipts[i]? = some r →
    db.receipts[j]? = some q → r.codeId = q.codeId → r.userId = q.userId → i = j
  entryCode : ∀ (i codeId : Nat) (e : LedgerEntry), db.ledger[i]? = some e →
    e.reference = .creditRedemptionCode codeId → codeId < db.codes.length
  credited : ∀ (i : Nat) (c : RedemptionCode) (b : RedemptionBatch), db.codes[i]? = some c →
    db.batches[c.batchId]? = some b →
      db.redemptionCredited i = b.amountMicros * db.redemptionCount i
  bounded : ∀ (i : Nat) (c : RedemptionCode) (b : RedemptionBatch), db.codes[i]? = some c →
    db.batches[c.batchId]? = some b → c.Bounded b.maxRedemptions (db.redemptionCount i)

namespace Redemptions

variable {db : Db}

theorem count_new (h : Redemptions db) {codeId : Nat} (hnew : db.codes.length ≤ codeId) :
    db.redemptionCount codeId = 0 := by
  refine Table.countWhere_eq_zero.mpr fun i r hr => beq_eq_false_iff_ne.mpr fun heq => ?_
  have hlt := h.receiptCode i r hr
  omega

theorem credited_new (h : Redemptions db) {codeId : Nat} (hnew : db.codes.length ≤ codeId) :
    db.redemptionCredited codeId = 0 := by
  refine Table.total_eq_zero fun i e he => if_neg fun href => ?_
  have hlt := h.entryCode i codeId e he href
  omega

/-- Statements on other tables, and ledger entries that are no redemptions. -/
theorem frame {db' : Db} (h : Redemptions db) (hbatches : db'.batches = db.batches)
    (hcodes : db'.codes = db.codes) (hreceipts : db'.receipts = db.receipts)
    (hledger : db'.ledger = db.ledger ∨ ∃ e, (∀ codeId, e.reference ≠ .creditRedemptionCode codeId) ∧
      db'.ledger = db.ledger.insertRow e) : Redemptions db' := by
  have hcount : ∀ codeId, db'.redemptionCount codeId = db.redemptionCount codeId := by
    intro codeId
    unfold Db.redemptionCount
    rw [hreceipts]
  have hcredited : ∀ codeId, db'.redemptionCredited codeId = db.redemptionCredited codeId := by
    intro codeId
    unfold Db.redemptionCredited
    rcases hledger with heq | ⟨e, href, heq⟩
    · rw [heq]
    · rw [heq, Table.total_insertRow, if_neg (href codeId), Int.add_zero]
  have hentry : ∀ (i codeId : Nat) (e : LedgerEntry), db'.ledger[i]? = some e →
      e.reference = .creditRedemptionCode codeId → codeId < db.codes.length := by
    intro i codeId e he href
    rcases hledger with heq | ⟨new, hnew, heq⟩
    · exact h.entryCode i codeId e (heq ▸ he) href
    · rw [heq] at he
      rcases Table.getElem?_insertRow_cases he with ⟨_, rfl⟩ | hold
      · exact absurd href (hnew codeId)
      · exact h.entryCode i codeId e hold href
  exact
    { batch := hbatches ▸ h.batch
      codeBatch := by
        rw [hbatches, hcodes]
        exact h.codeBatch
      digest := hcodes ▸ h.digest
      receiptCode := by
        rw [hreceipts, hcodes]
        exact h.receiptCode
      receiptUnique := hreceipts ▸ h.receiptUnique
      entryCode := by
        rw [hcodes]
        exact hentry
      credited := by
        rw [hbatches, hcodes]
        intro i c b hc hb
        rw [hcredited, hcount]
        exact h.credited i c b hc hb
      bounded := by
        rw [hbatches, hcodes]
        intro i c b hc hb
        rw [hcount]
        exact h.bounded i c b hc hb }

/-! ## New codes -/

theorem insertBatch (h : Redemptions db) {b : RedemptionBatch}
    (hb : 0 < b.amountMicros ∧ 1 ≤ b.maxRedemptions) :
    Redemptions { db with batches := db.batches.insertRow b } := by
  have hold : ∀ (i : Nat) (c : RedemptionCode) (x : RedemptionBatch), db.codes[i]? = some c →
      (db.batches.insertRow b)[c.batchId]? = some x → db.batches[c.batchId]? = some x := by
    intro i c x hc hx
    rcases Table.getElem?_insertRow_cases hx with ⟨heq, _⟩ | hx
    · exact absurd heq (Nat.ne_of_lt (h.codeBatch i c hc))
    · exact hx
  exact
    { batch := by
        intro i x hx
        rcases Table.getElem?_insertRow_cases hx with ⟨_, rfl⟩ | hx
        · exact hb
        · exact h.batch i x hx
      codeBatch := by
        intro i c hc
        rw [Table.length_insertRow]
        exact Nat.lt_succ_of_lt (h.codeBatch i c hc)
      digest := h.digest
      receiptCode := h.receiptCode
      receiptUnique := h.receiptUnique
      entryCode := h.entryCode
      credited := fun i c x hc hx => h.credited i c x hc (hold i c x hc hx)
      bounded := fun i c x hc hx => h.bounded i c x hc (hold i c x hc hx) }

/-- A new code has no receipts yet. -/
theorem insertCode (h : Redemptions db) {batchId : Nat} {codeDigest : String}
    (hbatch : batchId < db.batches.length)
    (hdigest : ∀ (i : Nat) (c : RedemptionCode), db.codes[i]? = some c → c.codeDigest ≠ codeDigest) :
    Redemptions { db with
      codes := db.codes.insertRow ⟨batchId, codeDigest, .active, none, none⟩ } where
  batch := h.batch
  codeBatch i c hc := by
    rcases Table.getElem?_insertRow_cases hc with ⟨_, rfl⟩ | hc
    · exact hbatch
    · exact h.codeBatch i c hc
  digest i j c d hc hd heq := by
    rcases Table.getElem?_insertRow_cases hc with ⟨hi, rfl⟩ | hc_old
    · rcases Table.getElem?_insertRow_cases hd with ⟨hj, _⟩ | hd_old
      · exact hi.trans hj.symm
      · exact absurd heq.symm (hdigest j d hd_old)
    · rcases Table.getElem?_insertRow_cases hd with ⟨_, rfl⟩ | hd_old
      · exact absurd heq (hdigest i c hc_old)
      · exact h.digest i j c d hc_old hd_old heq
  receiptCode i r hr := by
    rw [Table.length_insertRow]
    exact Nat.lt_succ_of_lt (h.receiptCode i r hr)
  receiptUnique := h.receiptUnique
  entryCode i codeId e he href := by
    rw [Table.length_insertRow]
    exact Nat.lt_succ_of_lt (h.entryCode i codeId e he href)
  credited i c b hc hb := by
    rcases Table.getElem?_insertRow_cases hc with ⟨hi, rfl⟩ | hc
    · have hcredited : Db.redemptionCredited { db with
          codes := db.codes.insertRow ⟨batchId, codeDigest, .active, none, none⟩ } i = 0 :=
        h.credited_new (Nat.le_of_eq hi.symm)
      have hcount : Db.redemptionCount { db with
          codes := db.codes.insertRow ⟨batchId, codeDigest, .active, none, none⟩ } i = 0 :=
        h.count_new (Nat.le_of_eq hi.symm)
      rw [hcredited, hcount]
      simp
    · exact h.credited i c b hc hb
  bounded i c b hc hb := by
    rcases Table.getElem?_insertRow_cases hc with ⟨hi, rfl⟩ | hc
    · have hcount : Db.redemptionCount { db with
          codes := db.codes.insertRow ⟨batchId, codeDigest, .active, none, none⟩ } i = 0 :=
        h.count_new (Nat.le_of_eq hi.symm)
      have hlimit := (h.batch _ b hb).2
      rw [hcount]
      refine ⟨by omega, ⟨fun hc => ?_, fun hc => ?_⟩, by simp⟩
      · exact absurd hc (by simp)
      · omega
    · exact h.bounded i c b hc hb

theorem insertCodes {db' : Db} {batchId : Nat} {digests : List String} {u : Unit}
    (h : Redemptions db) (hbatch : batchId < db.batches.length)
    (hcommit : Commits (insertCodes batchId digests) db u db') : Redemptions db' := by
  induction digests generalizing db with
  | nil =>
      obtain ⟨_, rfl⟩ := commits_pure.mp hcommit
      exact h
  | cons digest rest ih =>
      simp only [Billing.insertCodes, commits_bind, commits_read, commits_require,
        commits_write] at hcommit
      obtain ⟨_, _, ⟨rfl, rfl⟩, _, _, ⟨hfresh, rfl⟩, _, _, rfl, hrest⟩ := hcommit
      refine ih (h.insertCode hbatch fun i c hc heq => ?_) hbatch hrest
      have hnone := Table.selectOne_none (Option.isNone_iff_eq_none.mp hfresh) hc
      exact absurd heq (beq_eq_false_iff_ne.mp hnone)

theorem createCodes {db' : Db} {now : Instant} {input : NewCodes} {u : Unit} (h : Redemptions db)
    (hcommit : Commits (createCodes now input) db u db') : Redemptions db' := by
  obtain ⟨batch, hamount, hlimit, hinsert⟩ := commits_createCodes hcommit
  refine (h.insertBatch ⟨hamount, hlimit⟩).insertCodes ?_ hinsert
  rw [Table.length_insertRow]
  exact Nat.lt_succ_self _

/-! ## Revoking -/

/-- Revoking an active code, which has a redemption left. -/
theorem revokeCode {db' : Db} {codeId : Nat} {now : Instant} {u : Unit} (h : Redemptions db)
    (hcommit : Commits (revokeCode codeId now) db u db') : Redemptions db' := by
  obtain ⟨code, hcode, hactive, rfl⟩ := commits_revokeCode hcommit
  -- a code found afterwards keeps batch and digest of the one before
  have hold : ∀ (i : Nat) (c : RedemptionCode), (db.codes.updateRow codeId fun c =>
      { c with status := .revoked, revokedAt := some now })[i]? = some c →
      ∃ x, db.codes[i]? = some x ∧ c.batchId = x.batchId ∧ c.codeDigest = x.codeDigest ∧
        (c = x ∨ x.status = .active ∧ c.status = .revoked ∧ c.revokedAt = some now) := by
    intro i c hc
    rcases Table.getElem?_updateRow_cases hc with ⟨rfl, x, hx, rfl⟩ | ⟨_, hx⟩
    · obtain rfl := Option.some.inj (hx.symm.trans hcode)
      exact ⟨x, hx, rfl, rfl, .inr ⟨hactive, rfl, rfl⟩⟩
    · exact ⟨c, hx, rfl, rfl, .inl rfl⟩
  exact
    { batch := h.batch
      codeBatch := by
        intro i c hc
        obtain ⟨x, hx, hbatch, _⟩ := hold i c hc
        rw [hbatch]
        exact h.codeBatch i x hx
      digest := by
        intro i j c d hc hd heq
        obtain ⟨x, hx, _, hxdigest, _⟩ := hold i c hc
        obtain ⟨y, hy, _, hydigest, _⟩ := hold j d hd
        exact h.digest i j x y hx hy (hxdigest.symm.trans (heq.trans hydigest))
      receiptCode := by
        intro i r hr
        rw [Table.length_updateRow]
        exact h.receiptCode i r hr
      receiptUnique := h.receiptUnique
      entryCode := by
        intro i id e he href
        rw [Table.length_updateRow]
        exact h.entryCode i id e he href
      credited := by
        intro i c b hc hb
        obtain ⟨x, hx, hbatch, _⟩ := hold i c hc
        exact h.credited i x b hx (hbatch ▸ hb)
      bounded := by
        intro i c b hc hb
        obtain ⟨x, hx, hbatch, _, hstatus⟩ := hold i c hc
        have hbounded := h.bounded i x b hx (hbatch ▸ hb)
        rcases hstatus with rfl | ⟨hx_active, hrevoked, hat⟩
        · exact hbounded
        · have hopen : (db.redemptionCount i : Int) ≠ b.maxRedemptions := by
            rw [Ne, ← hbounded.redeemed, hx_active]
            simp
          exact ⟨hbounded.within, iff_of_false (by rw [hrevoked]; simp) hopen,
            by simp [hrevoked, hat]⟩ }

end Redemptions

/-! ## Redeeming -/

namespace FirstRedemption

variable {input : Redeem} {codeId : Nat} {batch : RedemptionBatch} {now : Instant}
  {receipt : RedemptionReceipt} {db db' : Db}
  (hfirst : FirstRedemption input codeId batch now db receipt db')

include hfirst

/-- Only the redeemed code can change, to redeemed with its last redemption;
every code keeps its batch and digest. -/
theorem code_cases {i : Nat} {c : RedemptionCode} (hc : db'.codes[i]? = some c) :
    ∃ x, db.codes[i]? = some x ∧ c.batchId = x.batchId ∧ c.codeDigest = x.codeDigest ∧
      c.revokedAt = x.revokedAt ∧
      ((i = codeId ∧ (db.redemptionCount codeId : Int) + 1 = batch.maxRedemptions ∧
          c.status = .redeemed) ∨
        (c = x ∧ (i = codeId → (db.redemptionCount codeId : Int) + 1 ≠ batch.maxRedemptions))) := by
  rw [hfirst.codes] at hc
  split at hc
  · next hlast =>
      rcases Table.getElem?_updateRow_cases hc with ⟨rfl, x, hx, rfl⟩ | ⟨hne, hx⟩
      · exact ⟨x, hx, rfl, rfl, rfl, .inl ⟨rfl, hlast, rfl⟩⟩
      · exact ⟨c, hx, rfl, rfl, rfl, .inr ⟨rfl, fun heq => absurd heq.symm hne⟩⟩
  · next hmore => exact ⟨c, hc, rfl, rfl, rfl, .inr ⟨rfl, fun _ => hmore⟩⟩

theorem codes_length : db'.codes.length = db.codes.length := by
  rw [hfirst.codes]
  split
  · exact Table.length_updateRow ..
  · rfl

/-- What a first redemption adds to the ledger. -/
theorem ledger :
    db'.batches = db.batches ∧ db'.chargeEvents = db.chargeEvents ∧
      db'.settlements = db.settlements ∧ db'.buckets = db.buckets ∧ ∃ walletId, db'.ledger =
      db.ledger.insertRow (redemptionCredit walletId codeId input.userId batch.amountMicros) := by
  obtain ⟨walletId, id, db₁, hinsert, heq⟩ := hfirst.credit
  obtain ⟨_, _, _, _, _, _, hdb₁⟩ := commits_insertLedgerEntry hinsert
  rw [heq, hdb₁, insertWallet_eq]
  exact ⟨rfl, rfl, rfl, rfl, walletId, rfl⟩

theorem count (i : Nat) :
    db'.redemptionCount i = db.redemptionCount i + if codeId = i then 1 else 0 := by
  unfold Db.redemptionCount
  rw [hfirst.receipts, Table.countWhere_insertRow, hfirst.code]
  simp

end FirstRedemption

namespace Redemptions

variable {db : Db}

/-- A first redemption adds one receipt and one credit entry to its code,
and uses the code up with the last one. -/
theorem firstRedemption {db' : Db} {input : Redeem} {codeId : Nat} {code : RedemptionCode}
    {batch : RedemptionBatch} {now : Instant} {receipt : RedemptionReceipt} (h : Redemptions db)
    (hcode : db.codes[codeId]? = some code) (hbatch : db.batches[code.batchId]? = some batch)
    (hnone : db.receiptOf codeId input.userId = none) (hactive : code.status = .active)
    (hleft : (db.redemptionCount codeId : Int) < batch.maxRedemptions)
    (hfirst : FirstRedemption input codeId batch now db receipt db') : Redemptions db' := by
  obtain ⟨hbatches, _, _, _, walletId, hledger⟩ := hfirst.ledger
  have hlt := Table.getElem?_lt hcode
  exact
    { batch := hbatches ▸ h.batch
      codeBatch := by
        intro i c hc
        obtain ⟨x, hx, hsame, _⟩ := hfirst.code_cases hc
        rw [hbatches, hsame]
        exact h.codeBatch i x hx
      digest := by
        intro i j c d hc hd heq
        obtain ⟨x, hx, _, hxdigest, _⟩ := hfirst.code_cases hc
        obtain ⟨y, hy, _, hydigest, _⟩ := hfirst.code_cases hd
        exact h.digest i j x y hx hy (hxdigest.symm.trans (heq.trans hydigest))
      receiptCode := by
        intro i r hr
        rw [hfirst.codes_length]
        rw [hfirst.receipts] at hr
        rcases Table.getElem?_insertRow_cases hr with ⟨_, rfl⟩ | hr
        · rw [hfirst.code]
          exact hlt
        · exact h.receiptCode i r hr
      receiptUnique := by
        -- the user had no receipt of this code
        have hfresh : ∀ (i : Nat) (r : RedemptionReceipt), db.receipts[i]? = some r →
            r.codeId = receipt.codeId → r.userId ≠ receipt.userId := by
          intro i r hr hcodeId huser
          have hmatch := Table.selectOne_none hnone hr
          rw [hcodeId, huser, hfirst.code, hfirst.user] at hmatch
          exact absurd hmatch (by simp)
        intro i j r q hr hq hcodeId huser
        rw [hfirst.receipts] at hr hq
        rcases Table.getElem?_insertRow_cases hr with ⟨hi, rfl⟩ | hr_old
        · rcases Table.getElem?_insertRow_cases hq with ⟨hj, _⟩ | hq_old
          · exact hi.trans hj.symm
          · exact absurd huser.symm (hfresh j q hq_old hcodeId.symm)
        · rcases Table.getElem?_insertRow_cases hq with ⟨_, rfl⟩ | hq_old
          · exact absurd huser (hfresh i r hr_old hcodeId)
          · exact h.receiptUnique i j r q hr_old hq_old hcodeId huser
      entryCode := by
        intro i id e he href
        rw [hfirst.codes_length]
        rw [hledger] at he
        rcases Table.getElem?_insertRow_cases he with ⟨_, rfl⟩ | he
        · rw [← LedgerReference.creditRedemptionCode.inj href]
          exact hlt
        · exact h.entryCode i id e he href
      credited := by
        intro i c b hc hb
        obtain ⟨x, hx, hsame, _⟩ := hfirst.code_cases hc
        rw [hbatches, hsame] at hb
        have hold := h.credited i x b hx hb
        rw [hfirst.count i]
        unfold Db.redemptionCredited at hold ⊢
        rw [hledger, Table.total_insertRow, hold]
        by_cases hi : codeId = i
        · subst hi
          obtain rfl := Option.some.inj (hx.symm.trans hcode)
          obtain rfl := Option.some.inj (hb.symm.trans hbatch)
          have hself : (redemptionCredit walletId codeId input.userId b.amountMicros).reference =
              .creditRedemptionCode codeId := rfl
          rw [if_pos rfl, if_pos hself]
          show _ + b.amountMicros = _
          push_cast
          ring
        · have hother : (redemptionCredit walletId codeId input.userId batch.amountMicros).reference ≠
              .creditRedemptionCode i := fun href => hi (LedgerReference.creditRedemptionCode.inj href)
          rw [if_neg hother, if_neg hi]
          simp
      bounded := by
        intro i c b hc hb
        obtain ⟨x, hx, hsame, _, hrevoked, hstatus⟩ := hfirst.code_cases hc
        rw [hbatches, hsame] at hb
        have hold := h.bounded i x b hx hb
        rw [hfirst.count i]
        by_cases hi : codeId = i
        · subst hi
          obtain rfl := Option.some.inj (hx.symm.trans hcode)
          obtain rfl := Option.some.inj (hb.symm.trans hbatch)
          rw [if_pos rfl]
          push_cast
          have hnot_revoked : ¬ x.revokedAt.isSome = true := by
            rw [hold.revoked, hactive]
            simp
          rcases hstatus with ⟨_, hlast, hredeemed⟩ | ⟨rfl, hmore⟩
          · refine ⟨by omega, iff_of_true hredeemed hlast, ?_⟩
            rw [hrevoked, hredeemed]
            exact iff_of_false hnot_revoked (by simp)
          · refine ⟨by omega, iff_of_false ?_ (hmore rfl), hold.revoked⟩
            rw [hactive]
            simp
        · rw [if_neg hi, Nat.add_zero]
          rcases hstatus with ⟨heq, _⟩ | ⟨rfl, _⟩
          · exact absurd heq.symm hi
          · exact hold }

theorem redeemCode {db' : Db} {input : Redeem} {now : Instant} {receipt : RedemptionReceipt}
    (h : Redemptions db) (hcommit : Commits (redeemCode input now) db receipt db') :
    Redemptions db' := by
  obtain ⟨codeId, code, batch, hcode, hbatch, ⟨_, _, rfl⟩ | ⟨hnone, hactive, _, hleft, hfirst⟩⟩ :=
    commits_redeemCode hcommit
  · exact h
  · exact h.firstRedemption hcode hbatch hnone hactive hleft hfirst

end Redemptions

/-! ## History -/

/-- Receipts and batches are append-only, and a code that is not active never
changes again. -/
structure Retained (db db' : Db) : Prop where
  receipts : ∀ (i : Nat) (r : RedemptionReceipt), db.receipts[i]? = some r → db'.receipts[i]? = some r
  batches : ∀ (i : Nat) (b : RedemptionBatch), db.batches[i]? = some b → db'.batches[i]? = some b
  codes : ∀ (i : Nat) (c : RedemptionCode), db.codes[i]? = some c → ∃ c', db'.codes[i]? = some c' ∧
    c'.batchId = c.batchId ∧ c'.codeDigest = c.codeDigest ∧ (c.status ≠ .active → c' = c)

theorem Retained.of_eq {db db' : Db} (hbatches : db'.batches = db.batches)
    (hcodes : db'.codes = db.codes) (hreceipts : db'.receipts = db.receipts) : Retained db db' where
  receipts _ _ hr := hreceipts ▸ hr
  batches _ _ hb := hbatches ▸ hb
  codes _ c hc := ⟨c, hcodes ▸ hc, rfl, rfl, fun _ => rfl⟩

instance : Std.Refl Retained := ⟨fun _ => .of_eq rfl rfl rfl⟩

instance : IsTrans Db Retained where
  trans _ _ _ h₁ h₂ :=
    { receipts := fun i r hr => h₂.receipts i r (h₁.receipts i r hr)
      batches := fun i b hb => h₂.batches i b (h₁.batches i b hb)
      codes := by
        intro i c hc
        obtain ⟨c₁, hc₁, hbatch₁, hdigest₁, hfinal₁⟩ := h₁.codes i c hc
        obtain ⟨c₂, hc₂, hbatch₂, hdigest₂, hfinal₂⟩ := h₂.codes i c₁ hc₁
        refine ⟨c₂, hc₂, hbatch₂.trans hbatch₁, hdigest₂.trans hdigest₁, fun hstatus => ?_⟩
        obtain rfl := hfinal₁ hstatus
        exact hfinal₂ hstatus }

theorem insertCodes_retained (batchId : Nat) (digests : List String) :
    Steps Retained (insertCodes batchId digests) := by
  induction digests with
  | nil => exact .pure
  | cons digest rest ih =>
      refine .bind .read fun db => .bind .require fun _ => .bind (.write fun db => ?_) fun _ => ih
      exact
        { receipts := fun _ _ hr => hr
          batches := fun _ _ hb => hb
          codes := fun _ c hc => ⟨c, Table.getElem?_insertRow_of_some _ hc, rfl, rfl, fun _ => rfl⟩ }

theorem createCodes_retained (now : Instant) (input : NewCodes) :
    Steps Retained (createCodes now input) := by
  refine .bind .require fun _ => .bind .require fun _ => .bind .require fun _ => .bind .require
    fun _ => .bind .require fun _ => .bind .read fun db => .bind (.write fun db => ?_) fun _ =>
      insertCodes_retained _ _
  exact
    { receipts := fun _ _ hr => hr
      batches := fun _ _ hb => Table.getElem?_insertRow_of_some _ hb
      codes := fun _ c hc => ⟨c, hc, rfl, rfl, fun _ => rfl⟩ }

theorem revokeCode_retained (codeId : Nat) (now : Instant) :
    Steps Retained (revokeCode codeId now) := by
  intro db u db' h
  obtain ⟨code, hcode, hactive, rfl⟩ := commits_revokeCode h
  refine ⟨fun _ _ hr => hr, fun _ _ hb => hb, fun i c hc => ?_⟩
  by_cases hi : codeId = i
  · subst hi
    obtain rfl := Option.some.inj (hc.symm.trans hcode)
    exact ⟨_, Table.getElem?_updateRow_self _ hc, rfl, rfl, fun hne => absurd hactive hne⟩
  · exact ⟨c, (Table.getElem?_updateRow_ne _ _ hi).trans hc, rfl, rfl, fun _ => rfl⟩

theorem redeemCode_retained (input : Redeem) (now : Instant) :
    Steps Retained (redeemCode input now) := by
  intro db receipt db' h
  obtain ⟨codeId, code, batch, hcode, _, ⟨_, _, rfl⟩ | ⟨_, hactive, _, _, hfirst⟩⟩ :=
    commits_redeemCode h
  · exact Std.Refl.refl _
  · refine ⟨fun i r hr => ?_, fun i b hb => hfirst.ledger.1 ▸ hb, fun i c hc => ?_⟩
    · rw [hfirst.receipts]
      exact Table.getElem?_insertRow_of_some _ hr
    · rw [hfirst.codes]
      split
      · by_cases hi : codeId = i
        · subst hi
          obtain rfl := Option.some.inj (hc.symm.trans hcode)
          exact ⟨_, Table.getElem?_updateRow_self _ hc, rfl, rfl, fun hne => absurd hactive hne⟩
        · exact ⟨c, (Table.getElem?_updateRow_ne _ _ hi).trans hc, rfl, rfl, fun _ => rfl⟩
      · exact ⟨c, hc, rfl, rfl, fun _ => rfl⟩

/-- A new receipt is of an active, unexpired code. -/
theorem redeemCode_new {db db' : Db} {input : Redeem} {now : Instant} {receipt : RedemptionReceipt}
    (h : Commits (redeemCode input now) db receipt db') {i : Nat}
    (hnew : db'.redemptionCount i ≠ db.redemptionCount i) :
    ∃ c b, db.codes[i]? = some c ∧ db.batches[c.batchId]? = some b ∧ c.status = .active ∧
      b.expired now = false := by
  obtain ⟨codeId, code, batch, hcode, hbatch, ⟨_, _, rfl⟩ | ⟨_, hactive, hexpired, _, hfirst⟩⟩ :=
    commits_redeemCode h
  · exact absurd rfl hnew
  · by_cases hi : codeId = i
    · subst hi
      exact ⟨code, batch, hcode, hbatch, hactive, hexpired⟩
    · rw [hfirst.count i, if_neg hi] at hnew
      exact absurd rfl hnew

/-- The user of a receipt gets it again, whatever became of the code. -/
theorem Redemptions.replay {db : Db} (h : Redemptions db) {i : Nat} {receipt : RedemptionReceipt}
    {code : RedemptionCode} {input : Redeem} {now : Instant} (hreceipt : db.receipts[i]? = some receipt)
    (hcode : db.codes[receipt.codeId]? = some code) (hdigest : input.digest = some code.codeDigest)
    (huser : input.userId = receipt.userId) (hproject : input.projectId = receipt.projectId)
    (hactor : input.actorMatches = true) (hmember : input.activeMember = true) :
    Commits (Billing.redeemCode input now) db receipt db := by
  have hfound : db.codes.selectOne (fun c => c.codeDigest == code.codeDigest) =
      some (receipt.codeId, code) :=
    Table.selectOne_of_unique hcode (by simp) fun j c hc hmatch =>
      h.digest j receipt.codeId c code hc hcode (beq_iff_eq.mp hmatch)
  obtain ⟨batch, hbatch⟩ : ∃ batch, db.codeBatch code = some batch :=
    ⟨_, List.getElem?_eq_getElem (h.codeBatch _ code hcode)⟩
  have hreplay : db.receiptOf receipt.codeId input.userId = some (i, receipt) := by
    refine Table.selectOne_of_unique hreceipt (by simp [huser]) fun j r hr hmatch => ?_
    simp only [Bool.and_eq_true, beq_iff_eq] at hmatch
    exact h.receiptUnique j i r receipt hr hreceipt hmatch.1 (hmatch.2.trans huser)
  simp only [Billing.redeemCode, commits_bind, commits_require, commits_orAbort, commits_read]
  refine ⟨(), db, ⟨hactor, rfl⟩, code.codeDigest, db, ⟨hdigest, rfl⟩, (), db, ⟨hmember, rfl⟩, db, db,
    ⟨rfl, rfl⟩, (receipt.codeId, code), db, ⟨hfound, rfl⟩, batch, db, ⟨hbatch, rfl⟩, ?_⟩
  dsimp only
  rw [hreplay]
  simp only [commits_bind, commits_require, commits_pure]
  exact ⟨(), db, ⟨hproject.symm, rfl⟩, trivial, rfl⟩

end Conduit.Billing
