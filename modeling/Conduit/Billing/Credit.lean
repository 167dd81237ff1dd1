import Conduit.Billing.Wallet

/-!
# Granting and redeeming credit

`grant_project_credit` and the redemption codes: `create_codes`,
`revoke_code` and `redeem_code`. Membership, actor and the digest of the
entered code are inputs of a redemption. Audit rows are left out.
-/

namespace Conduit.Billing

open Base Transaction

/-! ## Admin grants -/

/-- A validated `GrantProjectCreditInput`. -/
structure CreditGrant where
  projectId : Int
  amountMicros : Int
  idempotencyKey : String
  positive : 0 < amountMicros

/-- The ledger entry of an idempotency key joined with its wallet. -/
def Db.ledgerEntryByKey (db : Db) (key : String) : Option (LedgerEntry × Wallet) :=
  match db.ledger.selectOne fun e => e.idempotencyKey == key with
  | none => none
  | some (_, e) => db.wallets[e.walletId]?.map fun w => (e, w)

def adminGrant (walletId : Nat) (grant : CreditGrant) : LedgerEntry where
  walletId := walletId
  amountMicros := grant.amountMicros
  entryType := .adminGrant
  reference := .project grant.projectId
  idempotencyKey := grant.idempotencyKey

/-- `grant_project_credit`. -/
def grantProjectCredit (projectExists : Bool) (grant : CreditGrant) : Tx Unit := do
  require (projectExists = true) (.notFound s!"project {grant.projectId}")
  let db ← read
  match db.ledgerEntryByKey grant.idempotencyKey with
  | some (e, w) =>
    require (w.projectId = grant.projectId ∧ e.amountMicros = grant.amountMicros)
      (.invalid "idempotencyKey was already used for a different Project credit grant")
  | none => do
    write fun db => db.insertWallet grant.projectId
    let db ← read
    let (walletId, _) ← orAbort (db.projectWallet grant.projectId) (.storage "no rows returned")
    let _ ← insertLedgerEntry (adminGrant walletId grant)
    pure ()

/-! ## Redemption codes -/

def maxCreditRedemptionQuantity : Nat := 1000

def maxCreditRedemptionsPerCode : Int := 100000

/-- `CreateCreditRedemptionCodesInput` with the digests of the generated codes. -/
structure NewCodes where
  amountMicros : Int
  maxRedemptions : Int
  expiresAt : Option Instant
  digests : List String

/-- Insert the codes of a batch one by one. -/
def insertCodes (batchId : Nat) : List String → Tx Unit
  | [] => pure ()
  | digest :: rest => do
    let db ← read
    require (db.codes.selectOne fun c => c.codeDigest == digest).isNone
      (.storage "credit redemption storage operation failed")
    write fun db => { db with codes := db.codes.insertRow ⟨batchId, digest, .active, none, none⟩ }
    insertCodes batchId rest

/-- `create_codes`. -/
def createCodes (now : Instant) (input : NewCodes) : Tx Unit := do
  require (1 ≤ input.digests.length ∧ input.digests.length ≤ maxCreditRedemptionQuantity)
    (.invalid s!"quantity must be between 1 and {maxCreditRedemptionQuantity}")
  require (1 ≤ input.maxRedemptions ∧ input.maxRedemptions ≤ maxCreditRedemptionsPerCode)
    (.invalid s!"maxRedemptions must be between 1 and {maxCreditRedemptionsPerCode}")
  require (0 < input.amountMicros ∧ input.amountMicros ≤ i64Max)
    (.invalid "amount must fit the credit ledger range")
  require (input.amountMicros * input.digests.length * input.maxRedemptions ≤ i64Max)
    (.invalid "total redemption value must fit the credit ledger range")
  require (∀ t ∈ input.expiresAt, now < t) (.invalid "expiresAt must be in the future")
  let db ← read
  write fun db => { db with
    batches := db.batches.insertRow
      ⟨input.amountMicros, input.digests.length, input.maxRedemptions, input.expiresAt⟩ }
  insertCodes db.batches.length input.digests

/-- A code joined with its batch. -/
def Db.codeBatch (db : Db) (code : RedemptionCode) : Option RedemptionBatch :=
  db.batches[code.batchId]?

def RedemptionBatch.expired (b : RedemptionBatch) (now : Instant) : Bool :=
  match b.expiresAt with
  | some t => t ≤ now
  | none => false

/-- `revoke_code`, at the wall clock read under the code lock. -/
def revokeCode (codeId : Nat) (now : Instant) : Tx Unit := do
  let db ← read
  let code ← orAbort db.codes[codeId]? (.notFound "credit redemption code")
  let batch ← orAbort (db.codeBatch code) (.notFound "credit redemption code")
  require (code.status = .active ∧ batch.expired now = false)
    (.invalid "credit redemption code is not active")
  write fun db => { db with
    codes := db.codes.updateRow codeId
      fun c => { c with status := .revoked, revokedAt := some now } }

/-- The input of a redemption: `digest` is `none` when the entered code is
malformed. -/
structure Redeem where
  userId : Int
  projectId : Int
  actorMatches : Bool
  activeMember : Bool
  digest : Option String
deriving DecidableEq, Repr

def Db.receiptOf (db : Db) (codeId : Nat) (userId : Int) : Option (Nat × RedemptionReceipt) :=
  db.receipts.selectOne fun r => r.codeId == codeId && r.userId == userId

def Db.redemptionCount (db : Db) (codeId : Nat) : Nat :=
  db.receipts.countWhere fun r => r.codeId == codeId

def redemptionCredit (walletId codeId : Nat) (userId amount : Int) : LedgerEntry where
  walletId := walletId
  amountMicros := amount
  entryType := .redemption
  reference := .creditRedemptionCode codeId
  idempotencyKey := s!"credit-redemption:{codeId}:{userId}"

/-- The writes of a first redemption. -/
def redeemFirst (input : Redeem) (codeId : Nat) (batch : RedemptionBatch) (now : Instant) :
    Tx RedemptionReceipt := do
  write fun db => db.insertWallet input.projectId
  let db ← read
  let (walletId, wallet) ← orAbort (db.projectWallet input.projectId)
    (.storage "credit redemption storage operation failed")
  require (wallet.status = .active) .unavailable
  let ledgerEntryId ← insertLedgerEntry
    (redemptionCredit walletId codeId input.userId batch.amountMicros)
  let receipt : RedemptionReceipt :=
    { codeId
      projectId := input.projectId
      userId := input.userId
      walletId
      ledgerEntryId
      amountMicros := batch.amountMicros
      redeemedAt := now }
  write fun db => { db with receipts := db.receipts.insertRow receipt }
  if (db.redemptionCount codeId : Int) + 1 = batch.maxRedemptions then
    write fun db => { db with
      codes := db.codes.updateRow codeId
        fun c => { c with status := .redeemed, redeemedAt := some now } }
  else pure ()
  pure receipt

/-- `redeem_code`, at the wall clock read under the code lock. -/
def redeemCode (input : Redeem) (now : Instant) : Tx RedemptionReceipt := do
  require (input.actorMatches = true)
    (.invalid "authenticated actor does not match redemption user")
  let digest ← orAbort input.digest .redemptionCodeUnavailable
  require (input.activeMember = true)
    (.invalid "authenticated user is not an active member of the selected project")
  let db ← read
  let (codeId, code) ← orAbort (db.codes.selectOne fun c => c.codeDigest == digest)
    .redemptionCodeUnavailable
  let batch ← orAbort (db.codeBatch code) .redemptionCodeUnavailable
  -- a replay comes before the status and expiry checks
  match db.receiptOf codeId input.userId with
  | some (_, receipt) => do
    require (receipt.projectId = input.projectId) .redemptionCodeUnavailable
    pure receipt
  | none => do
    require (code.status = .active ∧ batch.expired now = false) .redemptionCodeUnavailable
    require ((db.redemptionCount codeId : Int) < batch.maxRedemptions) .redemptionCodeUnavailable
    redeemFirst input codeId batch now

end Conduit.Billing
