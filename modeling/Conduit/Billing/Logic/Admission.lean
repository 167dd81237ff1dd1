import Conduit.Billing.Logic.Reservation

/-!
# Reserving keeps the books

The bucket loop takes from each bucket at most what it has available, and
leaves at most what the buckets could not cover; the remainder is at most the
wallet's available credit, because admission compared the charge with both
and because the locally corrected reserved amount is never below the real
one.
-/

namespace Conduit.Billing

open Base Transaction

/-! ## Eligible buckets -/

section Eligible

variable {db : Db} {projectId userId publicModelId : Int} {instant : Instant}

theorem eligible_active {b : Bucket}
    (h : db.eligible projectId userId publicModelId instant b = true) : b.status = .active := by
  simp only [Db.eligible, Bool.and_eq_true, beq_iff_eq] at h
  exact h.1.1.1.1.1

theorem mem_eligibleBuckets {entry : Nat × Bucket} :
    entry ∈ db.eligibleBuckets projectId userId publicModelId instant ↔
      db.buckets[entry.1]? = some entry.2 ∧
        db.eligible projectId userId publicModelId instant entry.2 = true := by
  unfold Db.eligibleBuckets
  rw [List.mem_insertionSort]
  exact Table.mem_selectWhere

theorem fetched_eligibleBuckets :
    Table.Fetched db.buckets (db.eligibleBuckets projectId userId publicModelId instant) :=
  (Table.fetched_selectWhere ..).perm (List.perm_insertionSort ..)

theorem eligibleBuckets_active :
    ∀ entry ∈ db.eligibleBuckets projectId userId publicModelId instant, entry.2.status = .active :=
  fun _ hmem => eligible_active (mem_eligibleBuckets.mp hmem).2

end Eligible

/-! ## The bucket loop -/

/-- The wallets agree on their amounts. -/
def SameCredit (wallets' wallets : Table Wallet) : Prop :=
  ∀ (w : Nat) (row' : Wallet), wallets'[w]? = some row' → ∃ row, wallets[w]? = some row ∧
    row'.creditBalanceMicros = row.creditBalanceMicros ∧
    row'.creditReservedMicros = row.creditReservedMicros

theorem SameCredit.trans {w₁ w₂ w₃ : Table Wallet} (h₁ : SameCredit w₂ w₁)
    (h₂ : SameCredit w₃ w₂) : SameCredit w₃ w₁ := by
  intro w row₃ hrow₃
  obtain ⟨row₂, hrow₂, hbalance₂, hreserved₂⟩ := h₂ w row₃ hrow₃
  obtain ⟨row₁, hrow₁, hbalance₁, hreserved₁⟩ := h₁ w row₂ hrow₂
  exact ⟨row₁, hrow₁, hbalance₂.trans hbalance₁, hreserved₂.trans hreserved₁⟩

/-- What taking from buckets under a reservation does. -/
structure Taking (db db' : Db) : Prop where
  accounted : Accounted db'
  quota : Quota db'
  reservations : db'.reservations = db.reservations
  wallets : SameCredit db'.wallets db.wallets
  credit : ∀ id, db'.reservationCredit id = db.reservationCredit id

theorem Taking.refl {db : Db} (h : Accounted db) (hquota : Quota db) : Taking db db :=
  ⟨h, hquota, rfl, fun _ row hrow => ⟨row, hrow, rfl, rfl⟩, fun _ => rfl⟩

theorem Taking.trans {db₁ db₂ db₃ : Db} (h₁ : Taking db₁ db₂) (h₂ : Taking db₂ db₃) :
    Taking db₁ db₃ where
  accounted := h₂.accounted
  quota := h₂.quota
  reservations := h₂.reservations.trans h₁.reservations
  wallets := h₁.wallets.trans h₂.wallets
  credit id := (h₂.credit id).trans (h₁.credit id)

/-- Taking what is available of an active bucket. -/
theorem taking_reserveBucket {db db' : Db} {reservationId bucketId : Nat} {b : Bucket} {take : Int}
    {u : Unit} {r : Reservation} (h : Accounted db) (hquota : Quota db)
    (hcommit : Commits (reserveBucket reservationId bucketId b take) db u db')
    (hb : db.buckets[bucketId]? = some b) (hactive : b.status = .active) (h0 : 0 ≤ take)
    (hmax : take ≤ i64Max) (htake : take ≤ b.available)
    (hr : db.reservations[reservationId]? = some r) (hholding : r.status.holding = true) :
    Taking db db' := by
  obtain ⟨heq, hmoved⟩ := commits_reserveBucket hcommit
  have hcurrent : b.status.current = true := by rw [hactive]; rfl
  refine ⟨h.reserveBucket hcommit h0 hmax (Table.getElem?_lt hb) hr hholding, ?_, ?_,
    fun w row hrow => hmoved.of_bucket hrow, fun id => ?_⟩
  · have hupdate : Quota { db with
        buckets := db.buckets.updateRow bucketId
          fun row => { row with reservedMicros := row.reservedMicros + take } } := by
      refine hquota.updateRow (fun _ => ⟨rfl, rfl, rfl⟩) fun row hrow hwithin => ?_
      obtain rfl := Option.some.inj (hrow.symm.trans hb)
      exact hwithin.reserve hcurrent h0 htake
    rw [heq]
    exact hupdate.frame rfl rfl
  · rw [heq]
  · rw [heq]
    refine (Table.total_insertRow ..).trans ?_
    rw [if_neg (by simp [bucketAllocation, AllocationSource.isCredit]), Int.add_zero]
    rfl

theorem available_nonneg (b : Bucket) : 0 ≤ b.available := Int.le_max_right ..

/-- The allocation loop leaves at most what the buckets cannot cover. -/
theorem reserveBuckets_keeps {reservationId : Nat} {r : Reservation}
    (hholding : r.status.holding = true) (rows : List (Nat × Bucket)) :
    ∀ (db : Db) (remaining remaining' : Int) (db' : Db),
      Commits (reserveBuckets reservationId rows remaining) db remaining' db' →
      Accounted db → Quota db → db.reservations[reservationId]? = some r →
      Table.Fetched db.buckets rows → (∀ entry ∈ rows, entry.2.status = .active) →
      0 ≤ remaining → remaining ≤ i64Max →
      Taking db db' ∧ 0 ≤ remaining' ∧
        remaining' ≤ max 0 (remaining - (rows.map fun entry => entry.2.available).sum) := by
  induction rows with
  | nil =>
      intro db remaining remaining' db' hcommit h hquota _ _ _ h0 _
      obtain ⟨rfl, rfl⟩ := commits_pure.mp hcommit
      refine ⟨Taking.refl h hquota, h0, ?_⟩
      simp only [List.map_nil, List.sum_nil]
      omega
  | cons entry rest ih =>
      intro db remaining remaining' db' hcommit h hquota hr hfetched hactive h0 hmax
      have havailable := available_nonneg entry.2
      have hrest_nonneg : 0 ≤ (rest.map fun entry => entry.2.available).sum :=
        List.sum_nonneg fun n hn => by
          obtain ⟨other, _, rfl⟩ := List.mem_map.mp hn
          exact available_nonneg other.2
      have hrest_active := fun other hmem => hactive other (List.mem_cons_of_mem entry hmem)
      simp only [List.map_cons, List.sum_cons]
      unfold reserveBuckets at hcommit
      rcases commits_ite.mp hcommit with ⟨hzero, hdone⟩ | ⟨hpos, hcommit⟩
      · -- nothing is left to cover
        obtain ⟨rfl, rfl⟩ := commits_pure.mp hdone
        exact ⟨Taking.refl h hquota, h0, by omega⟩
      rcases commits_ite.mp hcommit with ⟨hnone, hskip⟩ | ⟨hsome, htake⟩
      · -- the bucket is empty
        obtain ⟨htaking, hnonneg, hle⟩ := ih db remaining remaining' db' hskip h hquota hr
          (hfetched.tail fun _ _ _ => rfl) hrest_active h0 hmax
        exact ⟨htaking, hnonneg, by omega⟩
      · obtain ⟨_, db₁, hreserve, hloop⟩ := commits_bind.mp htake
        have hstep := taking_reserveBucket h hquota hreserve hfetched.head
          (hactive entry List.mem_cons_self) (by omega) (by omega) (Int.min_le_right ..) hr hholding
        have htail : Table.Fetched db₁.buckets rest := by
          obtain ⟨heq, _⟩ := commits_reserveBucket hreserve
          rw [heq]
          exact hfetched.tail fun _ hne _ => Table.getElem?_updateRow_ne _ _ (Ne.symm hne)
        obtain ⟨htaking, hnonneg, hle⟩ := ih db₁ _ remaining' db' hloop hstep.accounted hstep.quota
          (hstep.reservations ▸ hr) htail hrest_active (by omega) (by omega)
        exact ⟨hstep.trans htaking, hnonneg, by omega⟩

/-- The saturating sum is at most the sum. -/
theorem subscriptionAvailable_le (rows : List (Nat × Bucket)) :
    0 ≤ subscriptionAvailable rows ∧
      subscriptionAvailable rows ≤ (rows.map fun entry => entry.2.available).sum := by
  have hsum := foldl_satAdd_le (rows.map fun entry => entry.2.available) (by
    intro n hn
    obtain ⟨entry, _, rfl⟩ := List.mem_map.mp hn
    exact available_nonneg entry.2) 0 (Int.le_refl 0)
  rwa [Int.zero_add] at hsum

/-! ## New reservations -/

theorem Books.insertWallet {db : Db} (h : Books db) (projectId : Int) :
    Books (db.insertWallet projectId) := by
  refine ⟨h.accounted.insertWallet projectId, ?_, ?_, ?_⟩
  · unfold Db.insertWallet
    split
    · exact h.quota
    · exact h.quota.frame rfl rfl
  · intro w row hrow
    unfold Db.insertWallet at hrow
    split at hrow
    · exact h.solvent w row hrow
    · rcases Table.getElem?_insertRow_cases hrow with ⟨_, rfl⟩ | hold
      · exact ⟨Int.le_refl 0, show (0 : Int) ≤ i64Max by decide⟩
      · exact h.solvent w row hold
  · unfold Db.insertWallet
    split
    · exact h.idle
    · exact h.idle

theorem Books.insertReservation {db : Db} (h : Books db) {r : Reservation}
    (hwallet : r.walletId < db.wallets.length) (hstatus : r.status ≠ .capturing) :
    Books (db.insertReservation r) :=
  ⟨h.accounted.insertReservation hwallet, h.quota.frame rfl rfl, h.solvent,
    h.idle.insertReservation hstatus⟩

/-- The credit allocation for the remainder, when the wallet can cover it. -/
theorem reserveRemainder_keeps {db db' : Db} {reservationId walletId : Nat} {remaining : Int}
    {u : Unit} {r : Reservation} (h : Books db)
    (hcommit : Commits (reserveRemainder reservationId walletId remaining) db u db')
    (hmax : remaining ≤ i64Max) (hr : db.reservations[reservationId]? = some r)
    (hholding : r.status.holding = true)
    (hcover : ∀ row, db.wallets[r.walletId]? = some row →
      row.creditReservedMicros + remaining ≤ row.creditBalanceMicros) : Books db' := by
  rcases commits_ite.mp hcommit with ⟨hpos, hinsert⟩ | ⟨_, hnone⟩
  · obtain ⟨heq, hmoved⟩ := commits_insertAllocation hinsert
    have haccounted := h.accounted.insertCredit hinsert
      ⟨Int.le_refl 0, Int.le_refl 0, Int.le_of_lt hpos, hmax, Allocation.dated_credit rfl rfl⟩
      rfl hr hholding
    refine ⟨haccounted, ?_, fun w row' hrow' => ?_, ?_⟩
    · rw [heq]
      exact h.quota.frame rfl rfl
    · obtain ⟨row, hrow, hbalance, hreserved⟩ := hmoved.row w row' hrow'
      have hsolvent := h.solvent w row hrow
      rw [hbalance, hreserved]
      split
      · next hholds =>
          rw [holdsCredit_of_some hr] at hholds
          simp only [Bool.and_eq_true, beq_iff_eq] at hholds
          exact ⟨hcover row (hholds.2.2 ▸ hrow), hsolvent.2⟩
      · exact ⟨by omega, hsolvent.2⟩
    · rw [heq]
      exact h.idle
  · rw [← (commits_pure.mp hnone).2]
    exact h

/-- Reserving under the wallet lock keeps the books: the remainder is within
the credit that the wallet has available. -/
theorem reserveFunds_keeps {db db' : Db} {mode : EnforcementMode} {now : Instant}
    {input : AdmissionInput} {wallet : LockedWallet} {r : Reservation} {key : Option String}
    (h : Books db) (hcommit : Commits (reserveFunds mode now input wallet r) db key db')
    (hwallet : r.walletId = wallet.id) (hstatus : r.status = .reserved)
    (h0 : 0 ≤ r.amountMicros) (hmax : r.amountMicros ≤ i64Max) {row : Wallet}
    (hrow : db.wallets[wallet.id]? = some row)
    (hcredit : wallet.availableCredit ≤ row.creditBalanceMicros - row.creditReservedMicros) :
    Books db' := by
  have hlength : r.walletId < db.wallets.length := hwallet ▸ Table.getElem?_lt hrow
  simp only [reserveFunds, commits_bind, commits_read] at hcommit
  obtain ⟨_, _, ⟨rfl, rfl⟩, hcommit⟩ := hcommit
  rcases commits_ite.mp hcommit with ⟨_, hcommit⟩ | ⟨henough, hcommit⟩
  · -- insufficient
    rcases commits_ite.mp hcommit with ⟨_, habort⟩ | ⟨_, hsoft⟩
    · exact absurd habort commits_abort
    · simp only [commits_bind, commits_write, commits_pure] at hsoft
      obtain ⟨_, _, rfl, _, rfl⟩ := hsoft
      exact h.insertReservation hlength (by simp)
  · simp only [commits_bind, commits_write, commits_pure] at hcommit
    obtain ⟨_, _, rfl, remaining, db₂, hloop, _, db₃, hremainder, _, rfl⟩ := hcommit
    have hholding : r.status.holding = true := by rw [hstatus]; rfl
    have hbooks₁ := h.insertReservation hlength (by rw [hstatus]; simp)
    have hr₁ := Table.getElem?_insertRow_self db.reservations r
    obtain ⟨htaking, hnonneg, hle⟩ := reserveBuckets_keeps hholding _ _ _ _ _ hloop
      hbooks₁.accounted hbooks₁.quota hr₁ fetched_eligibleBuckets eligibleBuckets_active h0 hmax
    have hbooks₂ : Books db₂ :=
      { accounted := htaking.accounted
        quota := htaking.quota
        solvent := by
          intro w row' hrow'
          obtain ⟨old, hold, hbalance, hreserved⟩ := htaking.wallets w row' hrow'
          rw [hbalance, hreserved]
          exact h.solvent w old hold
        idle := by
          intro i x hx
          exact hbooks₁.idle i x (htaking.reservations ▸ hx) }
    have hsum := subscriptionAvailable_le
      (db.eligibleBuckets input.projectId r.userId r.publicModelId now)
    have havailable : 0 ≤ wallet.availableCredit := Int.le_max_right ..
    -- admission compared the charge with everything that is available
    have hadmitted : r.amountMicros ≤ subscriptionAvailable
        (db.eligibleBuckets input.projectId r.userId r.publicModelId now) +
          wallet.availableCredit :=
      (Int.not_lt.mp henough).trans (clampI64_le (by unfold i64Min; omega))
    refine reserveRemainder_keeps hbooks₂ hremainder (by omega) (htaking.reservations ▸ hr₁) hholding ?_
    intro row₂ hrow₂
    obtain ⟨old, hold, hbalance, hreserved⟩ := htaking.wallets _ row₂ hrow₂
    obtain rfl := Option.some.inj ((hwallet ▸ hold).symm.trans hrow)
    omega

/-! ## The wallet lock -/

/-- A locked wallet shows its row. -/
structure LockedWallet.Shows (wallet : LockedWallet) (db : Db) (row : Wallet) : Prop where
  found : db.wallets[wallet.id]? = some row
  balance : wallet.creditBalanceMicros = row.creditBalanceMicros
  reserved : wallet.creditReservedMicros = row.creditReservedMicros

theorem lockProjectWallet_shows {db : Db} {projectId : Int} {wallet : LockedWallet}
    (h : db.lockProjectWallet projectId = some wallet) : ∃ row, wallet.Shows db row := by
  obtain ⟨⟨id, row⟩, hone, rfl⟩ := Option.map_eq_some_iff.mp h
  exact ⟨row, (Table.selectOne_some hone).1, rfl, rfl⟩

theorem lockOrCreateWallet_keeps {db db' : Db} {projectId : Int} {wallet : LockedWallet}
    (h : Books db) (hcommit : Commits (lockOrCreateWallet projectId) db wallet db') :
    Books db' ∧ ∃ row, wallet.Shows db' row := by
  simp only [lockOrCreateWallet, commits_bind, commits_read] at hcommit
  obtain ⟨_, _, ⟨rfl, rfl⟩, hcommit⟩ := hcommit
  split at hcommit
  · next locked hlocked =>
      obtain ⟨rfl, rfl⟩ := commits_pure.mp hcommit
      exact ⟨h, lockProjectWallet_shows hlocked⟩
  · simp only [commits_bind, commits_write, commits_read, commits_orAbort] at hcommit
    obtain ⟨_, _, rfl, _, _, ⟨rfl, rfl⟩, hlocked, rfl⟩ := hcommit
    exact ⟨h.insertWallet projectId, lockProjectWallet_shows hlocked⟩

/-- With credit counted as released taken off, a locked wallet never shows
more available than its row has. -/
theorem availableCredit_le {db : Db} (h : Books db) {wallet : LockedWallet} {w : Nat} {row row' : Wallet}
    {released : Int} (hrow' : db.wallets[w]? = some row')
    (hbalance : wallet.creditBalanceMicros = row.creditBalanceMicros)
    (hreserved : wallet.creditReservedMicros = satSub row.creditReservedMicros released)
    (hsame : row'.creditBalanceMicros = row.creditBalanceMicros)
    (hsolvent : row.creditReservedMicros ≤ row.creditBalanceMicros)
    (hreleased : row'.creditReservedMicros + released ≤ row.creditReservedMicros)
    (h0 : 0 ≤ released) :
    wallet.availableCredit ≤ row'.creditBalanceMicros - row'.creditReservedMicros := by
  have hsolvent' := h.solvent w row' hrow'
  have hnonneg : 0 ≤ row'.creditReservedMicros := by
    rw [h.accounted.reserved w row' hrow']
    exact h.accounted.creditHeld_nonneg w
  have hmin : i64Min ≤ 0 := by unfold i64Min; omega
  have hexact : satSub row.creditReservedMicros released = row.creditReservedMicros - released :=
    clampI64_eq (by omega) (by omega)
  unfold LockedWallet.availableCredit
  rw [hbalance, hreserved, hexact]
  have hclamp : satSub row.creditBalanceMicros (row.creditReservedMicros - released) =
      row.creditBalanceMicros - (row.creditReservedMicros - released) :=
    clampI64_eq (by omega) (by omega)
  rw [hclamp]
  omega

/-! ## `reserve_request` -/

theorem reserveAmount_keeps {mode : EnforcementMode} {ttl : Nat} {now : Instant}
    {input : AdmissionInput} {userId publicModelId amountMicros : Int} (h0 : 0 ≤ amountMicros)
    (hmax : amountMicros ≤ i64Max) :
    Keeps Books (reserveAmount mode ttl now input userId publicModelId amountMicros) := by
  intro db key db' h hcommit
  simp only [reserveAmount, commits_bind, commits_read] at hcommit
  obtain ⟨_, _, ⟨rfl, rfl⟩, hcommit⟩ := hcommit
  split at hcommit
  · -- the key is already reserved
    simp only [repeatedKey, commits_bind, commits_require, commits_pure] at hcommit
    obtain ⟨_, _, ⟨_, rfl⟩, _, _, ⟨_, rfl⟩, _, _, ⟨_, rfl⟩, _, _, ⟨_, rfl⟩, _, rfl⟩ := hcommit
    exact h
  · simp only [commits_bind, commits_read, commits_write] at hcommit
    obtain ⟨locked, db₁, hlock, _, _, ⟨rfl, rfl⟩, _, _, rfl, hcommit⟩ := hcommit
    obtain ⟨hbooks₁, row, hshows⟩ := lockOrCreateWallet_keeps h hlock
    obtain ⟨hbooks₂, hexpiry⟩ := hbooks₁.expireWalletReservations locked.id now
    have hlength : locked.id < (db₁.expireWalletReservations locked.id now).1.wallets.length := by
      rw [hexpiry.walletCount]
      exact Table.getElem?_lt hshows.found
    rcases commits_ite.mp hcommit with ⟨_, hshadow⟩ | ⟨_, hfunds⟩
    · simp only [commits_bind, commits_write, commits_pure] at hshadow
      obtain ⟨_, _, rfl, _, rfl⟩ := hshadow
      exact hbooks₂.insertReservation hlength (by simp)
    · have hrow' := List.getElem?_eq_getElem hlength
      obtain ⟨old, hold, hbalance, _, hself⟩ := hexpiry.wallets _ _ hrow'
      obtain rfl := Option.some.inj (hold.symm.trans hshows.found)
      refine reserveFunds_keeps hbooks₂ hfunds rfl rfl h0 hmax hrow' ?_
      refine availableCredit_le hbooks₂ hrow' hshows.balance
        (congrArg (fun n => satSub n _) hshows.reserved) hbalance
        (hbooks₁.solvent _ old hshows.found).1 ?_ hexpiry.nonneg
      have hreleased := hself rfl
      omega

/-- `reserve_request` keeps the books in every enforcement mode. -/
theorem reserveRequest_keeps (mode : EnforcementMode) (ttl : Nat) (now : Instant)
    (input : AdmissionInput) : Keeps Books (reserveRequest mode ttl now input) := by
  intro db key db' h hcommit
  unfold reserveRequest at hcommit
  split at hcommit
  · rw [← (commits_pure.mp hcommit).2]
    exact h
  · rcases commits_ite.mp hcommit with ⟨_, habort⟩ | ⟨_, hnone⟩
    · exact absurd habort commits_abort
    · rw [← (commits_pure.mp hnone).2]
      exact h
  · rcases commits_ite.mp hcommit with ⟨_, habort⟩ | ⟨_, hnone⟩
    · exact absurd habort commits_abort
    · rw [← (commits_pure.mp hnone).2]
      exact h
  · obtain ⟨micros, _, hfits, hcommit⟩ := commits_bind.mp hcommit
    obtain ⟨rfl, h0, hmax⟩ := commits_fitMicros hfits
    rcases commits_ite.mp hcommit with ⟨_, hnone⟩ | ⟨_, hreserve⟩
    · rw [← (commits_pure.mp hnone).2]
      exact h
    · exact reserveAmount_keeps h0 hmax db key db' h hreserve

end Conduit.Billing
