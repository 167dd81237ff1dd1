import Conduit.Billing.Reservation

/-!
# The books

`Accounted`: every stored counter is the sum it stands for. A wallet's
balance is the sum of its ledger entries, its reserved credit the sum of what
the credit allocations of its live reservations hold, a bucket's reserved
amount the sum of what its allocations still hold; an allocation never gives
out more than it holds, and one whose reservation no longer holds allowance
has given out all of it. Each statement of the code keeps this, and a change
of a sum is always the change of one summand.
-/

namespace Conduit.Billing

open Base Transaction

/-! ## Sums -/

def Db.ledgerSum (db : Db) (walletId : Nat) : Int :=
  db.ledger.total fun e => if e.walletId = walletId then e.amountMicros else 0

/-- An allocation of this reservation and source holds credit of the wallet. -/
def holdsCredit (reservations : Table Reservation) (walletId reservationId : Nat)
    (source : AllocationSource) : Bool :=
  source.isCredit && match reservations[reservationId]? with
    | some r => r.status.live && r.walletId == walletId
    | none => false

/-- The credit that an allocation holds of a wallet. -/
def creditHold (reservations : Table Reservation) (walletId : Nat) (a : Allocation) : Int :=
  if holdsCredit reservations walletId a.reservationId a.source then a.reservedMicros else 0

def Db.creditHeld (db : Db) (walletId : Nat) : Int :=
  db.allocations.total (creditHold db.reservations walletId)

/-- What an allocation still holds of a bucket. -/
def bucketHold (bucketId : Nat) (a : Allocation) : Int :=
  if a.source = .subscriptionBucket bucketId then
    a.reservedMicros - a.capturedMicros - a.releasedMicros
  else 0

def Db.bucketHeld (db : Db) (bucketId : Nat) : Int := db.allocations.total (bucketHold bucketId)

/-! ## Allocations -/

/-- Project credit does not expire and allowances do. -/
def Allocation.Dated (a : Allocation) : Prop :=
  a.allocationClass = .projectCredit ↔ a.expiresAtSnapshot = none

/-- An allocation never gives out more than it holds, and its class says whether it expires. -/
structure Allocation.Sound (a : Allocation) : Prop where
  captured_nonneg : 0 ≤ a.capturedMicros
  released_nonneg : 0 ≤ a.releasedMicros
  within : a.capturedMicros + a.releasedMicros ≤ a.reservedMicros
  bounded : a.reservedMicros ≤ i64Max
  dated : a.Dated

theorem Allocation.dated_bucket {a : Allocation} {class_ : QuotaClass} {expiresAt : Instant}
    (hclass : a.allocationClass = class_.allocationClass)
    (hexpiry : a.expiresAtSnapshot = some expiresAt) : a.Dated := by
  refine iff_of_false ?_ (hexpiry ▸ Option.some_ne_none expiresAt)
  rw [hclass]
  cases class_ <;> exact fun h => AllocationClass.noConfusion h

theorem Allocation.dated_credit {a : Allocation} (hclass : a.allocationClass = .projectCredit)
    (hexpiry : a.expiresAtSnapshot = none) : a.Dated := iff_of_true hclass hexpiry

/-- An allocation that has given out all it holds. -/
def Allocation.Drained (a : Allocation) : Prop :=
  a.capturedMicros + a.releasedMicros = a.reservedMicros

theorem Allocation.Sound.outstanding_eq {a : Allocation} (h : a.Sound) :
    a.outstanding = a.reservedMicros - a.capturedMicros - a.releasedMicros := by
  have hcaptured := h.captured_nonneg
  have hreleased := h.released_nonneg
  have hwithin := h.within
  have hbounded := h.bounded
  unfold outstanding satSub clampI64 i64Min i64Max at *
  omega

theorem Allocation.Sound.outstanding_nonneg {a : Allocation} (h : a.Sound) : 0 ≤ a.outstanding := by
  have hwithin := h.within
  rw [h.outstanding_eq]
  omega

theorem Allocation.Sound.outstanding_le {a : Allocation} (h : a.Sound) :
    a.outstanding ≤ a.reservedMicros := by
  have hcaptured := h.captured_nonneg
  have hreleased := h.released_nonneg
  rw [h.outstanding_eq]
  omega

/-- What is not taken of an outstanding amount is released exactly. -/
theorem Allocation.Sound.released_eq {a : Allocation} (h : a.Sound) {take : Int} (h0 : 0 ≤ take)
    (htake : take ≤ a.outstanding) : satSub a.outstanding take = a.outstanding - take := by
  have hle := h.outstanding_le
  have hbounded := h.bounded
  refine clampI64_eq ?_ ?_
  · unfold i64Min
    omega
  · omega

theorem Allocation.Sound.bucketHold_nonneg {a : Allocation} (h : a.Sound) (bucketId : Nat) :
    0 ≤ bucketHold bucketId a := by
  have hwithin := h.within
  unfold bucketHold
  split
  · omega
  · exact Int.le_refl 0

theorem creditHold_nonneg {reservations : Table Reservation} {a : Allocation} (h : a.Sound)
    (walletId : Nat) : 0 ≤ creditHold reservations walletId a := by
  have hcaptured := h.captured_nonneg
  have hreleased := h.released_nonneg
  have hwithin := h.within
  unfold creditHold
  split
  · omega
  · exact Int.le_refl 0

theorem holdsCredit_of_some {reservations : Table Reservation} {id : Nat} {r : Reservation}
    (hr : reservations[id]? = some r) (walletId : Nat) (source : AllocationSource) :
    holdsCredit reservations walletId id source =
      (source.isCredit && (r.status.live && r.walletId == walletId)) := by
  unfold holdsCredit
  rw [hr]

/-! ## The invariant -/

structure Accounted (db : Db) : Prop where
  balance : ∀ (w : Nat) (row : Wallet), db.wallets[w]? = some row →
    row.creditBalanceMicros = db.ledgerSum w
  reserved : ∀ (w : Nat) (row : Wallet), db.wallets[w]? = some row →
    row.creditReservedMicros = db.creditHeld w
  bucket : ∀ (b : Nat) (row : Bucket), db.buckets[b]? = some row →
    row.reservedMicros = db.bucketHeld b
  sound : ∀ (i : Nat) (a : Allocation), db.allocations[i]? = some a → a.Sound
  settled : ∀ (i : Nat) (a : Allocation) (r : Reservation), db.allocations[i]? = some a →
    db.reservations[a.reservationId]? = some r → r.status.holding = false → a.Drained
  entryWallet : ∀ (i : Nat) (e : LedgerEntry), db.ledger[i]? = some e →
    e.walletId < db.wallets.length
  reservationWallet : ∀ (i : Nat) (r : Reservation), db.reservations[i]? = some r →
    r.walletId < db.wallets.length
  allocationReservation : ∀ (i : Nat) (a : Allocation), db.allocations[i]? = some a →
    a.reservationId < db.reservations.length
  allocationBucket : ∀ (i : Nat) (a : Allocation) (b : Nat), db.allocations[i]? = some a →
    a.source = .subscriptionBucket b → b < db.buckets.length

namespace Accounted

variable {db : Db}

theorem creditHeld_nonneg (h : Accounted db) (w : Nat) : 0 ≤ db.creditHeld w :=
  Table.total_nonneg fun i a ha => creditHold_nonneg (h.sound i a ha) w

theorem reservationCredit_nonneg (h : Accounted db) (id : Nat) : 0 ≤ db.reservationCredit id := by
  refine Table.total_nonneg fun i a ha => ?_
  have hsound := h.sound i a ha
  have hcaptured := hsound.captured_nonneg
  have hreleased := hsound.released_nonneg
  have hwithin := hsound.within
  split
  · omega
  · exact Int.le_refl 0

/-- One allocation holds at most what its bucket has reserved. -/
theorem outstanding_le_bucketHeld (h : Accounted db) {i : Nat} {a : Allocation} {b : Nat}
    (ha : db.allocations[i]? = some a) (hsource : a.source = .subscriptionBucket b) :
    a.outstanding ≤ db.bucketHeld b := by
  have hle : bucketHold b a ≤ db.bucketHeld b :=
    Table.le_total (fun j x hx => (h.sound j x hx).bucketHold_nonneg b) ha
  rw [(h.sound i a ha).outstanding_eq]
  unfold bucketHold at hle
  rwa [if_pos hsource] at hle

/-- Nothing is held of a wallet that is not there yet. -/
theorem creditHeld_new (h : Accounted db) {w : Nat} (hw : db.wallets.length ≤ w) :
    db.creditHeld w = 0 := by
  refine Table.total_eq_zero fun i a ha => if_neg ?_
  unfold holdsCredit
  split
  · next r hr =>
      have hlt := h.reservationWallet _ r hr
      simp only [Bool.and_eq_true, beq_iff_eq]
      rintro ⟨_, _, heq⟩
      omega
  · simp

theorem ledgerSum_new (h : Accounted db) {w : Nat} (hw : db.wallets.length ≤ w) :
    db.ledgerSum w = 0 := by
  refine Table.total_eq_zero fun i e he => ?_
  have hlt := h.entryWallet i e he
  rw [if_neg]
  omega

theorem bucketHeld_new (h : Accounted db) {b : Nat} (hb : db.buckets.length ≤ b) :
    db.bucketHeld b = 0 := by
  refine Table.total_eq_zero fun i a ha => ?_
  unfold bucketHold
  rw [if_neg]
  intro hsource
  have hlt := h.allocationBucket i a b ha hsource
  omega

/-! ## Statements on other tables -/

/-- Wallets, ledger, reservations and allocations alone decide the books, and
of a bucket only what it has reserved. -/
theorem frame {db' : Db} (h : Accounted db) (hwallets : db'.wallets = db.wallets)
    (hledger : db'.ledger = db.ledger) (hreservations : db'.reservations = db.reservations)
    (hallocations : db'.allocations = db.allocations)
    (hlength : db.buckets.length ≤ db'.buckets.length)
    (hbuckets : ∀ (b : Nat) (row' : Bucket), db'.buckets[b]? = some row' →
      (∃ row, db.buckets[b]? = some row ∧ row'.reservedMicros = row.reservedMicros) ∨
        (db.buckets.length ≤ b ∧ row'.reservedMicros = 0)) :
    Accounted db' where
  balance w row hrow := by
    unfold Db.ledgerSum
    rw [hledger]
    exact h.balance w row (hwallets ▸ hrow)
  reserved w row hrow := by
    unfold Db.creditHeld
    rw [hallocations, hreservations]
    exact h.reserved w row (hwallets ▸ hrow)
  bucket b row' hrow := by
    have hheld : db'.bucketHeld b = db.bucketHeld b := by
      unfold Db.bucketHeld
      rw [hallocations]
    rcases hbuckets b row' hrow with ⟨row, hold, heq⟩ | ⟨hnew, hzero⟩
    · rw [heq, h.bucket b row hold, hheld]
    · rw [hzero, hheld, h.bucketHeld_new hnew]
  sound i a ha := h.sound i a (hallocations ▸ ha)
  settled i a r ha hr := h.settled i a r (hallocations ▸ ha) (hreservations ▸ hr)
  entryWallet i e he := hwallets ▸ h.entryWallet i e (hledger ▸ he)
  reservationWallet i r hr := hwallets ▸ h.reservationWallet i r (hreservations ▸ hr)
  allocationReservation i a ha := hreservations ▸ h.allocationReservation i a (hallocations ▸ ha)
  allocationBucket i a b ha hsource :=
    Nat.lt_of_lt_of_le (h.allocationBucket i a b (hallocations ▸ ha) hsource) hlength

/-- The same when the buckets stay as they are. -/
theorem frame_buckets {db' : Db} (h : Accounted db) (hwallets : db'.wallets = db.wallets)
    (hledger : db'.ledger = db.ledger) (hreservations : db'.reservations = db.reservations)
    (hallocations : db'.allocations = db.allocations) (hbuckets : db'.buckets = db.buckets) :
    Accounted db' :=
  h.frame hwallets hledger hreservations hallocations (Nat.le_of_eq (by rw [hbuckets]))
    fun _ row' hrow => .inl ⟨row', hbuckets ▸ hrow, rfl⟩

/-! ## Wallets and ledger -/

theorem insertWallet (h : Accounted db) (projectId : Int) : Accounted (db.insertWallet projectId) := by
  unfold Db.insertWallet
  split
  · exact h
  · have hgrow : ∀ n, n < db.wallets.length →
        n < (db.wallets.insertRow ⟨projectId, .active, 0, 0⟩).length := by
      intro n hn
      rw [Table.length_insertRow]
      omega
    exact
      { balance := by
          intro w row hrow
          rcases Table.getElem?_insertRow_cases hrow with ⟨hw, rfl⟩ | hold
          · exact (h.ledgerSum_new (Nat.le_of_eq hw.symm)).symm
          · exact h.balance w row hold
        reserved := by
          intro w row hrow
          rcases Table.getElem?_insertRow_cases hrow with ⟨hw, rfl⟩ | hold
          · exact (h.creditHeld_new (Nat.le_of_eq hw.symm)).symm
          · exact h.reserved w row hold
        bucket := h.bucket
        sound := h.sound
        settled := h.settled
        entryWallet := fun i e he => hgrow _ (h.entryWallet i e he)
        reservationWallet := fun i r hr => hgrow _ (h.reservationWallet i r hr)
        allocationReservation := h.allocationReservation
        allocationBucket := h.allocationBucket }

end Accounted

/-- What an insert into the ledger does. -/
theorem commits_insertLedgerEntry {db db' : Db} {entry : LedgerEntry} {id : Nat}
    (h : Commits (insertLedgerEntry entry) db id db') :
    (∀ (i : Nat) (e : LedgerEntry), db.ledger[i]? = some e →
      e.idempotencyKey ≠ entry.idempotencyKey) ∧
    ∃ wallet, db.wallets[entry.walletId]? = some wallet ∧
      i64Min ≤ wallet.creditBalanceMicros + entry.amountMicros ∧
      wallet.creditBalanceMicros + entry.amountMicros ≤ i64Max ∧
      id = db.ledger.length ∧
      db' = { db with
        ledger := db.ledger.insertRow entry
        wallets := db.wallets.updateRow entry.walletId fun w => { w with
          creditBalanceMicros := wallet.creditBalanceMicros + entry.amountMicros } } := by
  simp only [insertLedgerEntry, bigint, commits_bind, commits_read, commits_require,
    commits_orAbort, commits_write, commits_pure, and_assoc] at h
  obtain ⟨_, _, rfl, rfl, _, _, hkey, rfl, wallet, _, hwallet, rfl, balance, _, hbalance, rfl,
    _, _, rfl, rfl, rfl⟩ := h
  obtain ⟨rfl, hmin, hmax⟩ := toI64_eq_some hbalance
  refine ⟨fun i e he hdup => ?_, wallet, hwallet, hmin, hmax, rfl, rfl⟩
  have hnone := Table.selectOne_none (Option.isNone_iff_eq_none.mp hkey) he
  rw [beq_eq_false_iff_ne] at hnone
  exact hnone hdup

namespace Accounted

variable {db : Db}

theorem insertLedgerEntry (h : Accounted db) {db' : Db} {entry : LedgerEntry} {id : Nat}
    (hcommit : Commits (insertLedgerEntry entry) db id db') : Accounted db' := by
  obtain ⟨_, wallet, hwallet, _, _, _, rfl⟩ := commits_insertLedgerEntry hcommit
  have hsum : ∀ w, (db.ledger.insertRow entry).total
      (fun e => if e.walletId = w then e.amountMicros else 0) =
        db.ledgerSum w + if entry.walletId = w then entry.amountMicros else 0 :=
    fun w => Table.total_insertRow ..
  exact
    { balance := by
        intro w row hrow
        rcases Table.getElem?_updateRow_cases hrow with ⟨rfl, old, hold, rfl⟩ | ⟨hne, hold⟩
        · obtain rfl := Option.some.inj (hold.symm.trans hwallet)
          refine Eq.trans ?_ (hsum _).symm
          rw [if_pos rfl, ← h.balance _ old hold]
        · refine Eq.trans (h.balance w row hold) (Eq.trans ?_ (hsum w).symm)
          rw [if_neg hne, Int.add_zero]
      reserved := by
        intro w row hrow
        rcases Table.getElem?_updateRow_cases hrow with ⟨rfl, old, hold, rfl⟩ | ⟨_, hold⟩
        · exact h.reserved _ old hold
        · exact h.reserved w row hold
      bucket := h.bucket
      sound := h.sound
      settled := h.settled
      entryWallet := by
        intro i e he
        rw [Table.length_updateRow]
        rcases Table.getElem?_insertRow_cases he with ⟨_, rfl⟩ | hold
        · exact Table.getElem?_lt hwallet
        · exact h.entryWallet i e hold
      reservationWallet := by
        intro i r hr
        rw [Table.length_updateRow]
        exact h.reservationWallet i r hr
      allocationReservation := h.allocationReservation
      allocationBucket := h.allocationBucket }

/-! ## Reservations -/

/-- A new reservation has no allocations yet. -/
theorem insertReservation (h : Accounted db) {r : Reservation}
    (hwallet : r.walletId < db.wallets.length) : Accounted (db.insertReservation r) := by
  have hlookup : ∀ (i : Nat) (a : Allocation), db.allocations[i]? = some a →
      (db.reservations.insertRow r)[a.reservationId]? = db.reservations[a.reservationId]? := by
    intro i a ha
    rw [Table.getElem?_insertRow, if_neg (Nat.ne_of_lt (h.allocationReservation i a ha))]
  exact
    { balance := h.balance
      reserved := by
        intro w row hrow
        refine (h.reserved w row hrow).trans (Table.total_congr fun i a ha => ?_)
        show creditHold db.reservations w a = creditHold (db.reservations.insertRow r) w a
        unfold creditHold holdsCredit
        rw [hlookup i a ha]
      bucket := h.bucket
      sound := h.sound
      settled := by
        intro i a row ha hrow
        exact h.settled i a row ha (hlookup i a ha ▸ hrow)
      entryWallet := h.entryWallet
      reservationWallet := by
        intro i row hrow
        rcases Table.getElem?_insertRow_cases hrow with ⟨_, rfl⟩ | hold
        · exact hwallet
        · exact h.reservationWallet i row hold
      allocationReservation := by
        intro i a ha
        exact Nat.lt_of_lt_of_le (h.allocationReservation i a ha)
          (by rw [show (db.insertReservation r).reservations.length = _ from
            Table.length_insertRow ..]; omega)
      allocationBucket := h.allocationBucket }

end Accounted

/-- A reservation's allocations have given out all they hold. -/
def Db.Closed (db : Db) (id : Nat) : Prop :=
  ∀ (i : Nat) (a : Allocation), db.allocations[i]? = some a → a.reservationId = id → a.Drained

/-- What an update of a reservation does to the wallets: the release trigger
takes the reservation's credit off its wallet when it is no longer live. -/
theorem updateReservation_wallets {db : Db} {id : Nat} {f : Reservation → Reservation}
    {r : Reservation} (h : Accounted db) (hr : db.reservations[id]? = some r)
    (hwallet : (f r).walletId = r.walletId) {w : Nat} {row : Wallet}
    (hrow : (db.updateReservation id f).wallets[w]? = some row) :
    ∃ old, db.wallets[w]? = some old ∧ row.creditBalanceMicros = old.creditBalanceMicros ∧
      row.creditReservedMicros = old.creditReservedMicros -
        if r.status.live = true ∧ (f r).status.live = false ∧ r.walletId = w then
          db.reservationCredit id else 0 := by
  have hnonneg := h.reservationCredit_nonneg id
  unfold Db.updateReservation at hrow
  rw [hr] at hrow
  simp only at hrow
  split at hrow
  · next htrigger =>
      rw [hwallet] at hrow
      rcases Table.getElem?_updateRow_cases hrow with ⟨rfl, old, hold, rfl⟩ | ⟨hne, hold⟩
      · refine ⟨old, hold, rfl, ?_⟩
        rw [if_pos ⟨htrigger.1, by simpa using htrigger.2.1, rfl⟩]
        show old.creditReservedMicros + -db.reservationCredit id = _
        omega
      · refine ⟨row, hold, rfl, ?_⟩
        rw [if_neg fun hc => hne hc.2.2]
        omega
  · next htrigger =>
      refine ⟨row, hrow, rfl, ?_⟩
      by_cases hc : r.status.live = true ∧ (f r).status.live = false ∧ r.walletId = w
      · have hzero : ¬ 0 < db.reservationCredit id := fun hpos =>
          htrigger ⟨hc.1, by simp [hc.2.1], hpos⟩
        rw [if_pos hc]
        omega
      · rw [if_neg hc]
        omega

/-- An update of a reservation changes nothing but the row and the wallets. -/
theorem updateReservation_eq (db : Db) (id : Nat) (f : Reservation → Reservation) :
    db.updateReservation id f = { db with
      reservations := db.reservations.updateRow id f
      wallets := (db.updateReservation id f).wallets } := by
  unfold Db.updateReservation
  split
  · rfl
  · split
    · rfl
    · rfl

theorem updateReservation_wallets_length (db : Db) (id : Nat) (f : Reservation → Reservation) :
    (db.updateReservation id f).wallets.length = db.wallets.length := by
  unfold Db.updateReservation
  split
  · rfl
  · split
    · exact Table.length_updateRow ..
    · rfl

/-- The credit held of a wallet after a reservation's status changed. -/
theorem creditHeld_updateReservation {db : Db} {id : Nat} {f : Reservation → Reservation}
    {r : Reservation} (hr : db.reservations[id]? = some r) (hwallet : (f r).walletId = r.walletId)
    (hlive : (f r).status.live = true → r.status.live = true) (w : Nat) :
    db.allocations.total (creditHold (db.reservations.updateRow id f) w) = db.creditHeld w -
      if r.status.live = true ∧ (f r).status.live = false ∧ r.walletId = w then
        db.reservationCredit id else 0 := by
  have hother : ∀ a : Allocation, a.reservationId ≠ id →
      creditHold (db.reservations.updateRow id f) w a = creditHold db.reservations w a := by
    intro a ha
    unfold creditHold holdsCredit
    rw [Table.getElem?_updateRow_ne _ f (Ne.symm ha)]
  have hself : ∀ a : Allocation, a.reservationId = id →
      creditHold (db.reservations.updateRow id f) w a = creditHold db.reservations w a -
        if r.status.live = true ∧ (f r).status.live = false ∧ r.walletId = w then
          (if a.source.isCredit then a.reservedMicros else 0) else 0 := by
    intro a ha
    unfold creditHold
    rw [ha, holdsCredit_of_some hr, holdsCredit_of_some (Table.getElem?_updateRow_self f hr), hwallet]
    -- the status is live before, after, both or neither
    cases hbefore : r.status.live <;> cases hafter : (f r).status.live <;>
      cases a.source.isCredit <;> by_cases hw : r.walletId = w <;> simp_all
  by_cases hc : r.status.live = true ∧ (f r).status.live = false ∧ r.walletId = w
  · rw [if_pos hc]
    unfold Db.creditHeld Db.reservationCredit
    rw [← Table.total_sub]
    refine Table.total_congr fun i a _ => ?_
    by_cases ha : a.reservationId = id
    · rw [hself a ha, if_pos hc]
      simp [ha]
    · rw [hother a ha]
      simp [ha]
  · rw [if_neg hc, Int.sub_zero]
    refine Table.total_congr fun i a _ => ?_
    by_cases ha : a.reservationId = id
    · rw [hself a ha, if_neg hc, Int.sub_zero]
    · exact hother a ha

namespace Accounted

variable {db : Db}

/-- A status change keeps the books if it never revives a reservation and if
a reservation that stops holding allowance has given everything out. -/
theorem updateReservation (h : Accounted db) {id : Nat} {f : Reservation → Reservation}
    {r : Reservation} (hr : db.reservations[id]? = some r) (hwallet : (f r).walletId = r.walletId)
    (hlive : (f r).status.live = true → r.status.live = true)
    (hclosed : (f r).status.holding = false → db.Closed id) :
    Accounted (db.updateReservation id f) where
  balance w row hrow := by
    obtain ⟨old, hold, hbalance, _⟩ := updateReservation_wallets h hr hwallet hrow
    rw [updateReservation_eq]
    exact hbalance.trans (h.balance w old hold)
  reserved w row hrow := by
    obtain ⟨old, hold, _, hreserved⟩ := updateReservation_wallets h hr hwallet hrow
    rw [hreserved, h.reserved w old hold, updateReservation_eq]
    exact (creditHeld_updateReservation hr hwallet hlive w).symm
  bucket := by
    rw [updateReservation_eq]
    exact h.bucket
  sound := by
    rw [updateReservation_eq]
    exact h.sound
  settled := by
    rw [updateReservation_eq]
    intro i a row ha hrow hholding
    rcases Table.getElem?_updateRow_cases hrow with ⟨hid, old, hold, rfl⟩ | ⟨_, hold⟩
    · obtain rfl := Option.some.inj (hold.symm.trans hr)
      exact hclosed hholding i a ha hid.symm
    · exact h.settled i a row ha hold hholding
  entryWallet := by
    rw [updateReservation_eq]
    intro i e he
    exact (updateReservation_wallets_length db id f).symm ▸ h.entryWallet i e he
  reservationWallet := by
    rw [updateReservation_eq]
    intro i row hrow
    refine (updateReservation_wallets_length db id f).symm ▸ ?_
    rcases Table.getElem?_updateRow_cases hrow with ⟨_, old, hold, rfl⟩ | ⟨_, hold⟩
    · obtain rfl := Option.some.inj (hold.symm.trans hr)
      rw [hwallet]
      exact h.reservationWallet _ old hr
    · exact h.reservationWallet i row hold
  allocationReservation := by
    rw [updateReservation_eq]
    intro i a ha
    exact (Table.length_updateRow ..).symm ▸ h.allocationReservation i a ha
  allocationBucket := by
    rw [updateReservation_eq]
    exact h.allocationBucket

end Accounted

/-! ## Allocations -/

/-- The wallets after the reserve trigger ran with a change of `delta`. -/
structure CreditMoved (db : Db) (reservationId : Nat) (source : AllocationSource) (delta : Int)
    (wallets : Table Wallet) : Prop where
  length : wallets.length = db.wallets.length
  row : ∀ (w : Nat) (row : Wallet), wallets[w]? = some row → ∃ old, db.wallets[w]? = some old ∧
    row.creditBalanceMicros = old.creditBalanceMicros ∧
    row.creditReservedMicros = old.creditReservedMicros +
      if holdsCredit db.reservations w reservationId source then delta else 0

theorem commits_reserveAllocation {db db' : Db} {reservationId : Nat} {source : AllocationSource}
    {delta : Int} {u : Unit} (h : Commits (reserveAllocation reservationId source delta) db u db') :
    db' = { db with wallets := db'.wallets } ∧
      CreditMoved db reservationId source delta db'.wallets := by
  simp only [reserveAllocation, commits_ite, commits_pure, commits_bind, commits_read,
    commits_orAbort, commits_require, commits_write] at h
  rcases h with ⟨hnone, _, rfl⟩ | ⟨hsome, _, _, ⟨rfl, rfl⟩, r, _, ⟨hr, rfl⟩, _, _, ⟨_, rfl⟩, rfl⟩
  · refine ⟨rfl, rfl, fun w row hrow => ⟨row, hrow, rfl, ?_⟩⟩
    rcases hnone with hsource | hdelta
    · rw [if_neg]
      · omega
      · simp [holdsCredit, hsource]
    · rw [hdelta]
      split <;> omega
  · obtain ⟨hlookup, hlive⟩ := Option.filter_eq_some_iff.mp hr
    refine ⟨rfl, Table.length_updateRow .., fun w row hrow => ?_⟩
    have hcredit : source.isCredit = true := by
      rw [not_or] at hsome
      simpa using hsome.1
    rw [holdsCredit_of_some hlookup, hcredit, hlive]
    rcases Table.getElem?_updateRow_cases hrow with ⟨rfl, old, hold, rfl⟩ | ⟨hne, hold⟩
    · exact ⟨old, hold, rfl, by simp⟩
    · exact ⟨row, hold, rfl, by simp [hne]⟩

theorem commits_insertAllocation {db db' : Db} {a : Allocation} {u : Unit}
    (h : Commits (insertAllocation a) db u db') :
    db' = { db with allocations := db.allocations.insertRow a, wallets := db'.wallets } ∧
      CreditMoved db a.reservationId a.source a.reservedMicros db'.wallets := by
  simp only [insertAllocation, commits_bind, commits_read, commits_require, commits_write] at h
  obtain ⟨_, _, ⟨rfl, rfl⟩, _, _, ⟨_, rfl⟩, _, _, rfl, hreserve⟩ := h
  obtain ⟨heq, hmoved⟩ := commits_reserveAllocation hreserve
  exact ⟨heq, hmoved.length, hmoved.row⟩

/-- An allocation after more of its source was reserved and captured. -/
def Allocation.grow (a : Allocation) (reserved captured : Int) : Allocation :=
  { a with
    reservedMicros := a.reservedMicros + reserved
    capturedMicros := a.capturedMicros + captured }

/-- An upsert adds a row or lets one row of the same source grow. -/
theorem commits_upsertAllocation {db db' : Db} {a : Allocation} {u : Unit}
    (h : Commits (upsertAllocation a) db u db') :
    CreditMoved db a.reservationId a.source a.reservedMicros db'.wallets ∧
    (db' = { db with allocations := db.allocations.insertRow a, wallets := db'.wallets } ∨
    ∃ id old, db.allocations[id]? = some old ∧ old.reservationId = a.reservationId ∧
      old.source = a.source ∧ old.reservedMicros + a.reservedMicros ≤ i64Max ∧
      db' = { db with
        allocations := db.allocations.updateRow id
          fun row => { row with
            reservedMicros := old.reservedMicros + a.reservedMicros
            capturedMicros := row.capturedMicros + a.capturedMicros }
        wallets := db'.wallets }) := by
  simp only [upsertAllocation, commits_bind, commits_read] at h
  obtain ⟨_, _, ⟨rfl, rfl⟩, h⟩ := h
  split at h
  · obtain ⟨heq, hmoved⟩ := commits_insertAllocation h
    exact ⟨hmoved, .inl heq⟩
  · next id old hold =>
      simp only [bigint, commits_bind, commits_orAbort, commits_write] at h
      obtain ⟨reserved, _, ⟨hreserved, rfl⟩, _, _, rfl, hreserve⟩ := h
      obtain ⟨rfl, _, hmax⟩ := toI64_eq_some hreserved
      obtain ⟨heq, hmoved⟩ := commits_reserveAllocation hreserve
      obtain ⟨hrow, hmatch⟩ := Table.selectOne_some hold
      simp only [Bool.and_eq_true, beq_iff_eq] at hmatch
      exact ⟨⟨hmoved.length, hmoved.row⟩, .inr ⟨id, old, hrow, hmatch.1, hmatch.2, hmax, heq⟩⟩

namespace Accounted

variable {db : Db}

/-- Statements on allocations keep the books when every row stays in order
and each counter moves by as much as its sum. -/
theorem allocate {db' : Db} (h : Accounted db) (hledger : db'.ledger = db.ledger)
    (hreservations : db'.reservations = db.reservations)
    (hwallets : db'.wallets.length = db.wallets.length)
    (hbuckets : db'.buckets.length = db.buckets.length)
    (hrows : ∀ (i : Nat) (a : Allocation), db'.allocations[i]? = some a →
      a.Sound ∧ a.reservationId < db.reservations.length ∧
      (∀ b, a.source = .subscriptionBucket b → b < db.buckets.length) ∧
      ∀ r, db.reservations[a.reservationId]? = some r → r.status.holding = false → a.Drained)
    (hcredit : ∀ (w : Nat) (row' : Wallet), db'.wallets[w]? = some row' →
      ∃ row, db.wallets[w]? = some row ∧ row'.creditBalanceMicros = row.creditBalanceMicros ∧
        row'.creditReservedMicros - row.creditReservedMicros =
          db'.allocations.total (creditHold db.reservations w) - db.creditHeld w)
    (hbucket : ∀ (b : Nat) (row' : Bucket), db'.buckets[b]? = some row' →
      ∃ row, db.buckets[b]? = some row ∧
        row'.reservedMicros - row.reservedMicros = db'.bucketHeld b - db.bucketHeld b) :
    Accounted db' where
  balance w row' hrow := by
    obtain ⟨row, hold, hbalance, _⟩ := hcredit w row' hrow
    unfold Db.ledgerSum
    rw [hbalance, hledger]
    exact h.balance w row hold
  reserved w row' hrow := by
    obtain ⟨row, hold, _, hmoved⟩ := hcredit w row' hrow
    have hold' := h.reserved w row hold
    unfold Db.creditHeld at hold' hmoved ⊢
    rw [hreservations]
    omega
  bucket b row' hrow := by
    obtain ⟨row, hold, hmoved⟩ := hbucket b row' hrow
    have hold' := h.bucket b row hold
    omega
  sound i a ha := (hrows i a ha).1
  settled i a r ha hr hholding := (hrows i a ha).2.2.2 r (hreservations ▸ hr) hholding
  entryWallet i e he := hwallets ▸ h.entryWallet i e (hledger ▸ he)
  reservationWallet i r hr := hwallets ▸ h.reservationWallet i r (hreservations ▸ hr)
  allocationReservation i a ha := hreservations ▸ (hrows i a ha).2.1
  allocationBucket i a b ha hsource := hbuckets ▸ (hrows i a ha).2.2.1 b hsource

/-- What `allocate` asks of a row, for a row that was there. -/
theorem row (h : Accounted db) {i : Nat} {a : Allocation} (ha : db.allocations[i]? = some a) :
    a.Sound ∧ a.reservationId < db.reservations.length ∧
      (∀ b, a.source = .subscriptionBucket b → b < db.buckets.length) ∧
      ∀ r, db.reservations[a.reservationId]? = some r → r.status.holding = false → a.Drained :=
  ⟨h.sound i a ha, h.allocationReservation i a ha, fun b => h.allocationBucket i a b ha,
    fun r => h.settled i a r ha⟩

/-- Settling a fetched allocation gives out all it held. -/
theorem drainAllocation (h : Accounted db) {id : Nat} {a : Allocation}
    (ha : db.allocations[id]? = some a) {take : Int} (h0 : 0 ≤ take) (htake : take ≤ a.outstanding) :
    Accounted (db.drainAllocation id a take) := by
  have hsound := h.sound id a ha
  have hout := hsound.outstanding_eq
  have hreleased := hsound.released_eq h0 htake
  have hcaptured_nonneg := hsound.captured_nonneg
  have hreleased_nonneg := hsound.released_nonneg
  have hbounded := hsound.bounded
  refine h.allocate rfl rfl rfl ?_ ?_ ?_ ?_
  · unfold Db.drainAllocation
    split
    · exact Table.length_updateRow ..
    · rfl
  · intro i row hrow
    rcases Table.getElem?_updateRow_cases hrow with ⟨rfl, old, hold, rfl⟩ | ⟨_, hold⟩
    · obtain rfl := Option.some.inj (hold.symm.trans ha)
      rw [hreleased]
      refine ⟨⟨?_, ?_, ?_, hbounded, hsound.dated⟩, (h.row ha).2.1, (h.row ha).2.2.1, fun _ _ _ => ?_⟩
      · show 0 ≤ old.capturedMicros + take
        omega
      · show 0 ≤ old.releasedMicros + (old.outstanding - take)
        omega
      · show old.capturedMicros + take + (old.releasedMicros + (old.outstanding - take)) ≤
          old.reservedMicros
        omega
      · show old.capturedMicros + take + (old.releasedMicros + (old.outstanding - take)) =
          old.reservedMicros
        omega
    · exact h.row hold
  · intro w row hrow
    refine ⟨row, hrow, rfl, ?_⟩
    have hsame : (db.drainAllocation id a take).allocations.total (creditHold db.reservations w) =
        db.creditHeld w := Table.total_updateRow_of_eq fun _ _ => rfl
    omega
  · intro b row hrow
    have hheld : (db.drainAllocation id a take).bucketHeld b =
        db.bucketHeld b - if a.source = .subscriptionBucket b then a.outstanding else 0 := by
      refine (Table.total_updateRow _ _ ha).trans ?_
      show db.bucketHeld b + _ = _
      unfold bucketHold
      rw [hreleased]
      dsimp only
      split <;> omega
    rw [hheld]
    unfold Db.drainAllocation at hrow
    split at hrow
    · next bucketId hsource =>
        rcases Table.getElem?_updateRow_cases hrow with ⟨rfl, old, hold, rfl⟩ | ⟨hne, hold⟩
        · have hle := h.outstanding_le_bucketHeld ha hsource
          have hreserved := h.bucket _ old hold
          refine ⟨old, hold, ?_⟩
          rw [if_pos hsource]
          show max (old.reservedMicros - a.outstanding) 0 - old.reservedMicros = _
          omega
        · refine ⟨row, hold, ?_⟩
          rw [if_neg fun heq => hne (AllocationSource.subscriptionBucket.inj (hsource.symm.trans heq))]
          omega
    · next walletId hsource =>
        refine ⟨row, hrow, ?_⟩
        rw [if_neg fun heq => absurd (hsource.symm.trans heq) (by simp)]
        omega

/-- A new allocation of credit under a live reservation. -/
theorem insertCredit (h : Accounted db) {db' : Db} {a : Allocation} {u : Unit} {r : Reservation}
    (hcommit : Commits (insertAllocation a) db u db') (hsound : a.Sound)
    (hcredit : a.source.isCredit = true) (hr : db.reservations[a.reservationId]? = some r)
    (hholding : r.status.holding = true) : Accounted db' := by
  obtain ⟨heq, hmoved⟩ := commits_insertAllocation hcommit
  have hnobucket : ∀ b, a.source ≠ .subscriptionBucket b := by
    intro b hb
    rw [hb] at hcredit
    exact absurd hcredit (by simp [AllocationSource.isCredit])
  rw [heq]
  refine h.allocate rfl rfl hmoved.length rfl ?_ ?_ ?_
  · intro i row hrow
    rcases Table.getElem?_insertRow_cases hrow with ⟨_, rfl⟩ | hold
    · refine ⟨hsound, Table.getElem?_lt hr, fun b hb => absurd hb (hnobucket b), ?_⟩
      intro r' hr' hfalse
      obtain rfl := Option.some.inj (hr.symm.trans hr')
      exact absurd (hholding.symm.trans hfalse) (by simp)
    · exact h.row hold
  · intro w row hrow
    obtain ⟨old, hold, hbalance, hreserved⟩ := hmoved.row w row hrow
    refine ⟨old, hold, hbalance, ?_⟩
    show _ = (db.allocations.insertRow a).total _ - db.creditHeld w
    rw [Table.total_insertRow, hreserved]
    show _ = db.creditHeld w + creditHold db.reservations w a - db.creditHeld w
    unfold creditHold
    omega
  · intro b row hrow
    refine ⟨row, hrow, ?_⟩
    show _ = (db.allocations.insertRow a).total (bucketHold b) - db.bucketHeld b
    rw [Table.total_insertRow]
    show _ = db.bucketHeld b + bucketHold b a - db.bucketHeld b
    unfold bucketHold
    rw [if_neg (hnobucket b)]
    omega

end Accounted

/-- The allocation a reservation records for what it takes of a bucket. -/
def bucketAllocation (reservationId bucketId : Nat) (b : Bucket) (take : Int) : Allocation where
  reservationId := reservationId
  source := .subscriptionBucket bucketId
  reservedMicros := take
  capturedMicros := 0
  releasedMicros := 0
  allocationClass := b.quotaClass.allocationClass
  expiresAtSnapshot := some b.expiresAt

theorem commits_reserveBucket {db db' : Db} {reservationId bucketId : Nat} {b : Bucket} {take : Int}
    {u : Unit} (h : Commits (reserveBucket reservationId bucketId b take) db u db') :
    db' = { db with
      buckets := db.buckets.updateRow bucketId
        fun row => { row with reservedMicros := row.reservedMicros + take }
      allocations := db.allocations.insertRow (bucketAllocation reservationId bucketId b take)
      wallets := db'.wallets } ∧
    CreditMoved db reservationId (.subscriptionBucket bucketId) take db'.wallets := by
  simp only [reserveBucket, commits_bind, commits_write] at h
  obtain ⟨_, _, rfl, hinsert⟩ := h
  obtain ⟨heq, hmoved⟩ := commits_insertAllocation hinsert
  exact ⟨heq, hmoved.length, hmoved.row⟩

/-- Bucket allocations move no credit. -/
theorem CreditMoved.of_bucket {db : Db} {reservationId bucketId : Nat} {delta : Int}
    {wallets : Table Wallet}
    (h : CreditMoved db reservationId (.subscriptionBucket bucketId) delta wallets) {w : Nat}
    {row : Wallet} (hrow : wallets[w]? = some row) :
    ∃ old, db.wallets[w]? = some old ∧ row.creditBalanceMicros = old.creditBalanceMicros ∧
      row.creditReservedMicros = old.creditReservedMicros := by
  obtain ⟨old, hold, hbalance, hreserved⟩ := h.row w row hrow
  refine ⟨old, hold, hbalance, ?_⟩
  rw [hreserved, if_neg (by simp [holdsCredit, AllocationSource.isCredit]), Int.add_zero]

namespace Accounted

variable {db : Db}

/-- Taking from a bucket under a reservation that holds allowance. -/
theorem reserveBucket (h : Accounted db) {db' : Db} {reservationId bucketId : Nat} {b : Bucket}
    {take : Int} {u : Unit} {r : Reservation}
    (hcommit : Commits (reserveBucket reservationId bucketId b take) db u db') (h0 : 0 ≤ take)
    (hmax : take ≤ i64Max) (hbucket : bucketId < db.buckets.length)
    (hr : db.reservations[reservationId]? = some r) (hholding : r.status.holding = true) :
    Accounted db' := by
  obtain ⟨heq, hmoved⟩ := commits_reserveBucket hcommit
  rw [heq]
  refine h.allocate rfl rfl hmoved.length (Table.length_updateRow ..) ?_ ?_ ?_
  · intro i row hrow
    rcases Table.getElem?_insertRow_cases hrow with ⟨_, rfl⟩ | hold
    · refine ⟨⟨Int.le_refl 0, Int.le_refl 0, h0, hmax, Allocation.dated_bucket rfl rfl⟩,
        Table.getElem?_lt hr, ?_, ?_⟩
      · rintro _ ⟨⟩
        exact hbucket
      · intro r' hr' hfalse
        obtain rfl := Option.some.inj (hr.symm.trans hr')
        exact absurd (hholding.symm.trans hfalse) (by simp)
    · exact h.row hold
  · intro w row hrow
    obtain ⟨old, hold, hbalance, hreserved⟩ := hmoved.of_bucket hrow
    refine ⟨old, hold, hbalance, ?_⟩
    show _ = (db.allocations.insertRow (bucketAllocation ..)).total _ - db.creditHeld w
    rw [Table.total_insertRow, hreserved]
    show _ = db.creditHeld w + creditHold db.reservations w _ - db.creditHeld w
    unfold creditHold
    rw [if_neg (by simp [holdsCredit, bucketAllocation, AllocationSource.isCredit])]
    omega
  · intro c row hrow
    have hheld : (db.allocations.insertRow
        (bucketAllocation reservationId bucketId b take)).total (bucketHold c) =
          db.bucketHeld c + if bucketId = c then take else 0 := by
      rw [Table.total_insertRow]
      show db.bucketHeld c + _ = _
      unfold bucketHold bucketAllocation
      simp
    show ∃ old, _ ∧ _ = (db.allocations.insertRow _).total (bucketHold c) - db.bucketHeld c
    rw [hheld]
    rcases Table.getElem?_updateRow_cases hrow with ⟨rfl, old, hold, rfl⟩ | ⟨hne, hold⟩
    · refine ⟨old, hold, ?_⟩
      rw [if_pos rfl]
      show old.reservedMicros + take - old.reservedMicros = _
      omega
    · refine ⟨row, hold, ?_⟩
      rw [if_neg hne]
      omega

/-- Overage is reserved and captured at once, so it holds nothing of its
bucket. -/
theorem upsertAllocation (h : Accounted db) {db' : Db} {a : Allocation} {u : Unit}
    {r : Reservation} (hcommit : Commits (upsertAllocation a) db u db')
    (h0 : 0 ≤ a.reservedMicros) (hmax : a.reservedMicros ≤ i64Max)
    (hcaptured : a.capturedMicros = a.reservedMicros) (hreleased : a.releasedMicros = 0)
    (hdated : a.Dated) (hbucket : ∀ b, a.source = .subscriptionBucket b → b < db.buckets.length)
    (hr : db.reservations[a.reservationId]? = some r) (hholding : r.status.holding = true) :
    Accounted db' := by
  obtain ⟨hmoved, heq | ⟨id, old, hold, hid, hsource, hbounded, heq⟩⟩ :=
    commits_upsertAllocation hcommit
  · -- a new row
    rw [heq]
    refine h.allocate rfl rfl hmoved.length rfl ?_ ?_ ?_
    · intro i row hrow
      rcases Table.getElem?_insertRow_cases hrow with ⟨_, rfl⟩ | hrow
      · refine ⟨⟨?_, ?_, ?_, hmax, hdated⟩, Table.getElem?_lt hr, hbucket, fun _ _ _ => ?_⟩
        · omega
        · omega
        · omega
        · show _ + _ = _
          omega
      · exact h.row hrow
    · intro w row hrow
      obtain ⟨old, hold, hbalance, hreserved⟩ := hmoved.row w row hrow
      refine ⟨old, hold, hbalance, ?_⟩
      show _ = (db.allocations.insertRow a).total _ - db.creditHeld w
      rw [Table.total_insertRow, hreserved]
      show _ = db.creditHeld w + creditHold db.reservations w a - db.creditHeld w
      unfold creditHold
      omega
    · intro b row hrow
      refine ⟨row, hrow, ?_⟩
      show _ = (db.allocations.insertRow a).total (bucketHold b) - db.bucketHeld b
      rw [Table.total_insertRow]
      show _ = db.bucketHeld b + bucketHold b a - db.bucketHeld b
      unfold bucketHold
      split <;> omega
  · -- an existing row grows
    have hsound := h.sound id old hold
    have hcaptured_nonneg := hsound.captured_nonneg
    have hwithin := hsound.within
    rw [heq]
    refine h.allocate rfl rfl hmoved.length rfl ?_ ?_ ?_
    · intro i row hrow
      rcases Table.getElem?_updateRow_cases hrow with ⟨rfl, x, hx, rfl⟩ | ⟨_, hrow⟩
      · obtain rfl := Option.some.inj (hx.symm.trans hold)
        refine ⟨⟨?_, hsound.released_nonneg, ?_, hbounded, hsound.dated⟩, (h.row hx).2.1,
          (h.row hx).2.2.1, ?_⟩
        · show 0 ≤ x.capturedMicros + a.capturedMicros
          omega
        · show x.capturedMicros + a.capturedMicros + x.releasedMicros ≤
            x.reservedMicros + a.reservedMicros
          omega
        · intro r' hr' hfalse
          obtain rfl := Option.some.inj ((hid ▸ hr).symm.trans hr')
          exact absurd (hholding.symm.trans hfalse) (by simp)
      · exact h.row hrow
    · intro w row hrow
      obtain ⟨oldWallet, hwallet, hbalance, hreserved⟩ := hmoved.row w row hrow
      refine ⟨oldWallet, hwallet, hbalance, ?_⟩
      show _ = (db.allocations.updateRow id _).total _ - db.creditHeld w
      rw [Table.total_updateRow _ _ hold, hreserved]
      show _ = db.creditHeld w + (creditHold _ w _ - creditHold _ w old) - db.creditHeld w
      unfold creditHold
      dsimp only
      rw [← hid, ← hsource]
      split <;> omega
    · intro b row hrow
      refine ⟨row, hrow, ?_⟩
      show _ = (db.allocations.updateRow id _).total (bucketHold b) - db.bucketHeld b
      rw [Table.total_updateRow _ _ hold]
      show _ = db.bucketHeld b + (bucketHold b _ - bucketHold b old) - db.bucketHeld b
      unfold bucketHold
      dsimp only
      split <;> omega

end Accounted

end Conduit.Billing
