import Conduit.Billing.Logic.Frame
import Conduit.Billing.Logic.Quota

/-!
# Giving funds back keeps the books

Release, expiry and capture all settle a list of fetched allocations one by
one; `Drains` is that loop with any amounts taken, and what it keeps is
proved once. Closing a reservation is such a loop followed by a status
change.
-/

namespace Conduit.Billing

open Base Transaction

/-! ## Draining fetched allocations -/

/-- `db'` is `db` after each fetched allocation was settled, with some part of
what it held taken. -/
inductive Drains : Db → List (Nat × Allocation) → Db → Prop
  | nil (db : Db) : Drains db [] db
  | cons {db db' : Db} {id : Nat} {a : Allocation} {rest : List (Nat × Allocation)} {take : Int} :
      0 ≤ take → take ≤ a.outstanding → Drains (db.drainAllocation id a take) rest db' →
      Drains db ((id, a) :: rest) db'

namespace Drains

variable {db db' : Db} {rows : List (Nat × Allocation)}

theorem wallets (h : Drains db rows db') : db'.wallets = db.wallets := by
  induction h with
  | nil db => rfl
  | cons _ _ _ ih => exact ih

theorem reservations (h : Drains db rows db') : db'.reservations = db.reservations := by
  induction h with
  | nil db => rfl
  | cons _ _ _ ih => exact ih

/-- What allocations reserved, by reservation and source, is untouched. -/
theorem total (h : Drains db rows db') {f : Allocation → Int}
    (hf : ∀ (a : Allocation) (captured released : Int),
      f { a with capturedMicros := captured, releasedMicros := released } = f a) :
    db'.allocations.total f = db.allocations.total f := by
  induction h with
  | nil db => rfl
  | cons _ _ _ ih => exact ih.trans (Table.total_updateRow_of_eq fun x _ => hf x _ _)

theorem fetched_tail {id : Nat} {a : Allocation} {rest : List (Nat × Allocation)} {take : Int}
    (hfetched : Table.Fetched db.allocations ((id, a) :: rest)) :
    Table.Fetched (db.drainAllocation id a take).allocations rest :=
  hfetched.tail fun _ hne _ => Table.getElem?_updateRow_ne _ _ (Ne.symm hne)

theorem accounted (h : Drains db rows db') (hfetched : Table.Fetched db.allocations rows)
    (haccounted : Accounted db) : Accounted db' := by
  induction h with
  | nil db => exact haccounted
  | cons h0 htake _ ih =>
      exact ih (fetched_tail hfetched) (haccounted.drainAllocation hfetched.head h0 htake)

end Drains

theorem Quota.drainAllocation {db : Db} (h : Quota db) (haccounted : Accounted db) {id : Nat}
    {a : Allocation} (ha : db.allocations[id]? = some a) {take : Int} (h0 : 0 ≤ take)
    (htake : take ≤ a.outstanding) : Quota (db.drainAllocation id a take) := by
  cases hsource : a.source with
  | projectCredit walletId =>
      refine h.frame ?_ rfl
      unfold Db.drainAllocation
      rw [hsource]
  | subscriptionBucket bucketId =>
      have hupdate : Quota { db with
          buckets := db.buckets.updateRow bucketId (Bucket.drain a.outstanding take) } := by
        refine h.updateRow (fun _ => ⟨rfl, rfl, rfl⟩) fun row hrow hwithin => ?_
        refine hwithin.drain h0 htake ?_
        rw [haccounted.bucket bucketId row hrow]
        exact haccounted.outstanding_le_bucketHeld ha hsource
      refine hupdate.frame ?_ rfl
      unfold Db.drainAllocation
      rw [hsource]

namespace Drains

variable {db db' : Db} {rows : List (Nat × Allocation)}

theorem quota (h : Drains db rows db') (hfetched : Table.Fetched db.allocations rows)
    (haccounted : Accounted db) (hquota : Quota db) : Quota db' := by
  induction h with
  | nil db => exact hquota
  | cons h0 htake _ ih =>
      have hhead := hfetched.head
      exact ih (fetched_tail hfetched) (haccounted.drainAllocation hhead h0 htake)
        (hquota.drainAllocation haccounted hhead h0 htake)

/-- After the loop each allocation of the reservation has been settled,
unless the loop never fetched it. -/
theorem closed_of_fetched (h : Drains db rows db') {id : Nat}
    (hfetched : Table.Fetched db.allocations rows) (haccounted : Accounted db)
    (hothers : ∀ (i : Nat) (a : Allocation), db.allocations[i]? = some a → a.reservationId = id →
      i ∈ rows.map Prod.fst ∨ a.Drained) :
    db'.Closed id := by
  induction h with
  | nil db =>
      intro i a ha hid
      rcases hothers i a ha hid with hmem | hdrained
      · exact absurd hmem List.not_mem_nil
      · exact hdrained
  | @cons db db' entryId a rest take h0 htake hrest ih =>
      have hhead := hfetched.head
      have hsound := haccounted.sound entryId a hhead
      refine ih (fetched_tail hfetched) (haccounted.drainAllocation hhead h0 htake) ?_
      intro i row hrow hid
      rcases Table.getElem?_updateRow_cases hrow with ⟨rfl, old, hold, rfl⟩ | ⟨hne, hold⟩
      · obtain rfl := Option.some.inj (hold.symm.trans hhead)
        have hout := hsound.outstanding_eq
        refine .inr ?_
        show old.capturedMicros + take + (old.releasedMicros + satSub old.outstanding take) =
          old.reservedMicros
        rw [hsound.released_eq h0 htake]
        omega
      · rcases hothers i row hold hid with hmem | hdrained
        · rcases List.mem_cons.mp hmem with heq | hmem
          · exact absurd heq.symm hne
          · exact .inl hmem
        · exact .inr hdrained

/-- The allocations of a reservation, in any order, settle all of it. -/
theorem closed (h : Drains db rows db') {id : Nat} (hrows : rows.Perm (db.allocationsOf id))
    (haccounted : Accounted db) : db'.Closed id := by
  refine h.closed_of_fetched ((Table.fetched_selectWhere ..).perm hrows) haccounted ?_
  intro i a ha hid
  have hmem : (i, a) ∈ db.allocationsOf id :=
    Table.mem_selectWhere.mpr ⟨ha, by simpa using hid⟩
  exact .inl (List.mem_map_of_mem (hrows.mem_iff.mpr hmem))

end Drains

theorem outstanding_nonneg (a : Allocation) : 0 ≤ a.outstanding := Int.le_max_right ..

theorem drains_releaseAllocations (rows : List (Nat × Allocation)) :
    ∀ db : Db, Drains db rows (db.releaseAllocations rows) := by
  induction rows with
  | nil => exact fun db => .nil db
  | cons entry rest ih =>
      intro db
      exact .cons (Int.le_refl 0) (outstanding_nonneg entry.2) (ih _)

/-! ## Closing a reservation -/

theorem ReservationStatus.open_live {s : ReservationStatus} (h : s.open_ = true) : s.live = true := by
  cases s <;> simp_all [open_, live]

/-- Only a `reserved` or capturing reservation holds allowance. -/
theorem ReservationStatus.open_not_holding {s : ReservationStatus} (h : s.open_ = true)
    (hne : s ≠ .reserved) : s.holding = false := by
  cases s <;> simp_all [open_, holding]

section Close

variable {db : Db} {id : Nat} {r : Reservation} {status : ReservationStatus}

/-- The database between the release loop and the status change. -/
theorem closeReservation_drains (db : Db) (id : Nat) (r : Reservation) (status : ReservationStatus) :
    ∃ rows db₁, Drains db rows db₁ ∧
      (r.status = .reserved → rows = db.allocationsOf id) ∧ (r.status ≠ .reserved → rows = []) ∧
      db.closeReservation id r status = db₁.updateReservation id fun row => { row with status } := by
  by_cases hreserved : r.status = .reserved
  · refine ⟨_, _, drains_releaseAllocations (db.allocationsOf id) db, fun _ => rfl,
      fun hne => absurd hreserved hne, ?_⟩
    unfold Db.closeReservation
    rw [if_pos hreserved]
  · refine ⟨[], db, .nil db, fun h => absurd h hreserved, fun _ => rfl, ?_⟩
    unfold Db.closeReservation
    rw [if_neg hreserved]

/-- What closing a reservation of wallet `walletId` does. -/
structure Closing (walletId id : Nat) (status : ReservationStatus) (db db' : Db) : Prop where
  accounted : Accounted db'
  quota : Quota db'
  reservations : db'.reservations = db.reservations.updateRow id fun row => { row with status }
  walletCount : db'.wallets.length = db.wallets.length
  wallets : ∀ (w : Nat) (row' : Wallet), db'.wallets[w]? = some row' →
    ∃ row, db.wallets[w]? = some row ∧ row'.creditBalanceMicros = row.creditBalanceMicros ∧
      row'.creditReservedMicros =
        row.creditReservedMicros - if walletId = w then db.reservationCredit id else 0

/-- Closing an open reservation keeps books and quota, gives its credit back
to its wallet and changes nothing else. -/
theorem closeReservation_keeps (h : Accounted db) (hquota : Quota db)
    (hr : db.reservations[id]? = some r) (hopen : r.status.open_ = true)
    (hfinal : status.live = false) :
    Closing r.walletId id status db (db.closeReservation id r status) := by
  obtain ⟨rows, db₁, hdrains, hrows, hnone, heq⟩ := closeReservation_drains db id r status
  have hfetched : Table.Fetched db.allocations rows := by
    by_cases hreserved : r.status = .reserved
    · rw [hrows hreserved]
      exact Table.fetched_selectWhere ..
    · rw [hnone hreserved]
      exact ⟨List.nodup_nil, fun _ hmem => absurd hmem List.not_mem_nil⟩
  have haccounted := hdrains.accounted hfetched h
  have hr₁ : db₁.reservations[id]? = some r := hdrains.reservations ▸ hr
  have hclosed : db₁.Closed id := by
    by_cases hreserved : r.status = .reserved
    · exact hdrains.closed (hrows hreserved ▸ List.Perm.refl _) h
    · -- a shadow reservation never held anything
      intro i a ha hid
      exact haccounted.settled i a r ha (hid ▸ hr₁)
        (ReservationStatus.open_not_holding hopen hreserved)
  have hcredit : db₁.reservationCredit id = db.reservationCredit id :=
    hdrains.total fun _ _ _ => rfl
  rw [heq]
  refine ⟨?_, ?_, ?_, ?_, ?_⟩
  · refine haccounted.updateReservation hr₁ rfl (fun hlive => ?_) fun _ => hclosed
    rw [show status.live = true from hlive] at hfinal
    exact absurd hfinal (by simp)
  · rw [updateReservation_eq]
    exact (hdrains.quota hfetched h hquota).frame rfl rfl
  · rw [updateReservation_eq, ← hdrains.reservations]
  · rw [updateReservation_wallets_length, hdrains.wallets]
  · intro w row' hrow'
    obtain ⟨row, hrow, hbalance, hreserved⟩ := updateReservation_wallets haccounted hr₁ rfl hrow'
    refine ⟨row, hdrains.wallets ▸ hrow, hbalance, hreserved.trans ?_⟩
    rw [hcredit]
    have hlive := ReservationStatus.open_live hopen
    simp [hlive, hfinal]

end Close

/-! ## The books of a whole transaction -/

/-- Every wallet can cover what is reserved of it. -/
def Solvent (db : Db) : Prop :=
  ∀ (w : Nat) (row : Wallet), db.wallets[w]? = some row →
    row.creditReservedMicros ≤ row.creditBalanceMicros ∧ row.creditBalanceMicros ≤ i64Max

/-- No capture is under way. -/
def Idle (db : Db) : Prop :=
  ∀ (i : Nat) (r : Reservation), db.reservations[i]? = some r → r.status ≠ .capturing

/-- What holds between transactions. -/
structure Books (db : Db) : Prop where
  accounted : Accounted db
  quota : Quota db
  solvent : Solvent db
  idle : Idle db

theorem Books.frame {db db' : Db} (h : Books db) (hwallets : db'.wallets = db.wallets)
    (hledger : db'.ledger = db.ledger) (hreservations : db'.reservations = db.reservations)
    (hallocations : db'.allocations = db.allocations) (hbuckets : db'.buckets = db.buckets)
    (hrules : db'.ruleSnapshots = db.ruleSnapshots) : Books db' where
  accounted := h.accounted.frame_buckets hwallets hledger hreservations hallocations hbuckets
  quota := h.quota.frame hbuckets hrules
  solvent w row hrow := h.solvent w row (hwallets ▸ hrow)
  idle i r hr := h.idle i r (hreservations ▸ hr)

theorem Idle.updateRow {db db' : Db} (h : Idle db) {id : Nat} {status : ReservationStatus}
    (hreservations : db'.reservations = db.reservations.updateRow id fun row => { row with status })
    (hstatus : status ≠ .capturing) : Idle db' := by
  intro i r hr
  rw [hreservations] at hr
  rcases Table.getElem?_updateRow_cases hr with ⟨_, old, _, rfl⟩ | ⟨_, hold⟩
  · exact hstatus
  · exact h i r hold

theorem Idle.insertReservation {db : Db} (h : Idle db) {r : Reservation}
    (hstatus : r.status ≠ .capturing) : Idle (db.insertReservation r) := by
  intro i row hrow
  rcases Table.getElem?_insertRow_cases hrow with ⟨_, rfl⟩ | hold
  · exact hstatus
  · exact h i row hold

/-- Closing an open reservation keeps the books. -/
theorem Books.closeReservation {db : Db} (h : Books db) {id : Nat} {r : Reservation}
    {status : ReservationStatus} (hr : db.reservations[id]? = some r)
    (hopen : r.status.open_ = true) (hfinal : status.live = false) :
    Books (db.closeReservation id r status) := by
  have hclosing := closeReservation_keeps h.accounted h.quota hr hopen hfinal
  refine ⟨hclosing.accounted, hclosing.quota, fun w row' hrow' => ?_,
    h.idle.updateRow hclosing.reservations ?_⟩
  · obtain ⟨row, hrow, hbalance, hreserved⟩ := hclosing.wallets w row' hrow'
    have hsolvent := h.solvent w row hrow
    have hnonneg := h.accounted.reservationCredit_nonneg id
    rw [hbalance, hreserved]
    split <;> omega
  · rintro rfl
    exact absurd hfinal (by simp [ReservationStatus.live])

/-- `release_request`. -/
theorem Books.releaseRequest {db : Db} (h : Books db) (key : String) : Books (db.releaseRequest key) := by
  unfold Db.releaseRequest
  split
  · exact h
  · next id r wallet hfound =>
      split
      · next hopen =>
          refine h.closeReservation ?_ hopen rfl
          unfold Db.reservationByKey at hfound
          split at hfound
          · exact absurd hfound (by simp)
          · next id' r' hone =>
              obtain ⟨w, _, heq⟩ := Option.map_eq_some_iff.mp hfound
              obtain ⟨rfl, rfl, rfl⟩ := heq
              exact (Table.selectOne_some hone).1
      · exact h

/-! ## Expiry -/

/-- The credit an allocation still holds. -/
def creditOutstanding (a : Allocation) : Int := if a.source.isCredit then a.outstanding else 0

/-- The allocations of a reservation hold at most the credit they reserved. -/
theorem creditOutstanding_le {db : Db} (h : Accounted db) (id : Nat) :
    ((db.allocationsOf id).map fun entry => creditOutstanding entry.2).sum ≤
      db.reservationCredit id := by
  unfold Db.allocationsOf Db.reservationCredit
  rw [Table.total_selectWhere]
  refine Table.total_le fun i a ha => ?_
  have hle := (h.sound i a ha).outstanding_le
  by_cases hid : a.reservationId = id
  · by_cases hcredit : a.source.isCredit = true
    · simpa [creditOutstanding, hid, hcredit] using hle
    · simp [creditOutstanding, hid, hcredit]
  · simp [hid]

theorem releasedCredit_le (rows : List (Nat × Allocation)) : ∀ released : Int, 0 ≤ released →
    0 ≤ releasedCredit rows released ∧ releasedCredit rows released ≤
      released + (rows.map fun entry => creditOutstanding entry.2).sum := by
  induction rows with
  | nil =>
      intro released h0
      simpa [releasedCredit] using h0
  | cons entry rest ih =>
      intro released h0
      have hout := outstanding_nonneg entry.2
      have hstep : 0 ≤ (if entry.2.source.isCredit then satAdd released entry.2.outstanding
          else released) ∧
          (if entry.2.source.isCredit then satAdd released entry.2.outstanding else released) ≤
            released + creditOutstanding entry.2 := by
        unfold creditOutstanding satAdd clampI64 i64Min i64Max
        split <;> omega
      have hrest := ih _ hstep.1
      simp only [List.map_cons, List.sum_cons]
      refine ⟨hrest.1, hrest.2.trans ?_⟩
      have hbound := hstep.2
      omega

/-- What expiring reservations of a wallet did: balances stay, and the wallet's reserved credit dropped by at least what was counted
as released. -/
structure Expiry (walletId : Nat) (db db' : Db) (released released' : Int) : Prop where
  nonneg : 0 ≤ released'
  wallets : ∀ (w : Nat) (row' : Wallet), db'.wallets[w]? = some row' →
    ∃ row, db.wallets[w]? = some row ∧ row'.creditBalanceMicros = row.creditBalanceMicros ∧
      row'.creditReservedMicros ≤ row.creditReservedMicros ∧
      (w = walletId →
        row'.creditReservedMicros + released' ≤ row.creditReservedMicros + released)
  walletCount : db'.wallets.length = db.wallets.length

theorem Expiry.trans {walletId : Nat} {db₁ db₂ db₃ : Db} {n₁ n₂ n₃ : Int}
    (h₁ : Expiry walletId db₁ db₂ n₁ n₂) (h₂ : Expiry walletId db₂ db₃ n₂ n₃) :
    Expiry walletId db₁ db₃ n₁ n₃ where
  nonneg := h₂.nonneg
  wallets w row₃ hrow₃ := by
    obtain ⟨row₂, hrow₂, hbalance₂, hle₂, hself₂⟩ := h₂.wallets w row₃ hrow₃
    obtain ⟨row₁, hrow₁, hbalance₁, hle₁, hself₁⟩ := h₁.wallets w row₂ hrow₂
    refine ⟨row₁, hrow₁, hbalance₂.trans hbalance₁, hle₂.trans hle₁, fun hw => ?_⟩
    have := hself₁ hw
    have := hself₂ hw
    omega
  walletCount := h₂.walletCount.trans h₁.walletCount

/-- Expiring one fetched reservation. -/
theorem expiry_closeReservation {db : Db} (h : Books db) {id : Nat} {r : Reservation}
    (hr : db.reservations[id]? = some r) (hopen : r.status.open_ = true) {released : Int}
    (h0 : 0 ≤ released) :
    Expiry r.walletId db (db.closeReservation id r .expired) released
      (if r.status = .reserved then releasedCredit (db.allocationsOf id) released else released) := by
  have hclosing : Closing r.walletId id .expired db (db.closeReservation id r .expired) :=
    closeReservation_keeps h.accounted h.quota hr hopen rfl
  have hnonneg := h.accounted.reservationCredit_nonneg id
  have hreleased := releasedCredit_le (db.allocationsOf id) released h0
  have hcredit := creditOutstanding_le h.accounted id
  refine ⟨?_, fun w row' hrow' => ?_, hclosing.walletCount⟩
  · split
    · exact hreleased.1
    · exact h0
  · obtain ⟨row, hrow, hbalance, hreserved⟩ := hclosing.wallets w row' hrow'
    refine ⟨row, hrow, hbalance, ?_, ?_⟩
    · rw [hreserved]
      split <;> omega
    · rintro rfl
      rw [hreserved, if_pos rfl]
      split <;> omega

theorem expireFetched_keeps (walletId : Nat) (rows : List (Nat × Reservation)) :
    ∀ (db : Db) (released : Int), Books db → 0 ≤ released →
      Table.Fetched db.reservations rows →
      (∀ entry ∈ rows, entry.2.walletId = walletId ∧ entry.2.status.open_ = true) →
      Books (db.expireFetched rows released).1 ∧
        Expiry walletId db (db.expireFetched rows released).1 released
          (db.expireFetched rows released).2 := by
  induction rows with
  | nil =>
      intro db released h h0 _ _
      exact ⟨h, h0, fun w row hrow => ⟨row, hrow, rfl, Int.le_refl _, fun _ => Int.le_refl _⟩, rfl⟩
  | cons entry rest ih =>
      intro db released h h0 hfetched hopen
      obtain ⟨hwallet, hstatus⟩ := hopen entry List.mem_cons_self
      have hbooks : Books (db.closeReservation entry.1 entry.2 .expired) :=
        h.closeReservation hfetched.head hstatus rfl
      have hclosing : Closing _ _ .expired db (db.closeReservation entry.1 entry.2 .expired) :=
        closeReservation_keeps h.accounted h.quota hfetched.head hstatus rfl
      have hstep := expiry_closeReservation h hfetched.head hstatus h0
      have htail : Table.Fetched
          (db.closeReservation entry.1 entry.2 .expired).reservations rest := by
        refine hfetched.tail fun i hne _ => ?_
        rw [hclosing.reservations]
        exact Table.getElem?_updateRow_ne _ _ (Ne.symm hne)
      obtain ⟨hrest, hexpiry⟩ := ih _ _ hbooks hstep.nonneg htail
        fun other hmem => hopen other (List.mem_cons_of_mem _ hmem)
      exact ⟨hrest, (hwallet ▸ hstep).trans hexpiry⟩

/-- `expire_pg_wallet_reservations`. -/
theorem Books.expireWalletReservations {db : Db} (h : Books db) (walletId : Nat) (now : Instant) :
    Books (db.expireWalletReservations walletId now).1 ∧
      Expiry walletId db (db.expireWalletReservations walletId now).1 0
        (db.expireWalletReservations walletId now).2 := by
  refine expireFetched_keeps walletId _ db 0 h (Int.le_refl 0) (Table.fetched_selectWhere ..) ?_
  intro entry hmem
  have hmatch := (Table.mem_selectWhere.mp hmem).2
  simp only [Bool.and_eq_true, beq_iff_eq] at hmatch
  exact hmatch.1

end Conduit.Billing
