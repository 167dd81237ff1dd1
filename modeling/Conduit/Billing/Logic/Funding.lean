import Conduit.Billing.Logic.Admission

/-!
# Funding a charge

A charge is funded in three stages, and solvency follows from what each can
take of the wallet: the reservation's own allocations give at most the credit
that is reserved for them, the eligible buckets give none, and the overage is
at most what the wallet had available when it was locked. Reserving and
capturing the overage at once moves the reserved amount and the reservation's
own credit together, so the final status change takes both off again.
-/

namespace Conduit.Billing

open Base Transaction

/-! ## Own allocations -/

@[simp] theorem Funding.take_remaining (f : Funding) (source : AllocationSource) (n : Int) :
    (f.take source n).remaining = f.remaining - n := by
  cases source <;> rfl

@[simp] theorem Funding.take_creditAmount (f : Funding) (source : AllocationSource) (n : Int) :
    (f.take source n).creditAmount = f.creditAmount + if source.isCredit then n else 0 := by
  cases source <;> simp [Funding.take, AllocationSource.isCredit]

theorem drains_captureAllocations (rows : List (Nat × Allocation)) :
    ∀ (db : Db) (f : Funding), 0 ≤ f.remaining → Drains db rows (db.captureAllocations rows f).1 := by
  induction rows with
  | nil => exact fun db _ _ => .nil db
  | cons entry rest ih =>
      intro db f h0
      have hout := outstanding_nonneg entry.2
      have hrest : Drains _ rest ((db.drainAllocation entry.1 entry.2
          (min f.remaining entry.2.outstanding)).captureAllocations rest
            (f.take entry.2.source (min f.remaining entry.2.outstanding))).1 :=
        ih _ _ (by rw [Funding.take_remaining]; omega)
      exact .cons (by omega) (Int.min_le_right ..) hrest

/-- The credit taken is at most what the allocations held of it. -/
theorem captureAllocations_funding (rows : List (Nat × Allocation)) :
    ∀ (db : Db) (f : Funding), 0 ≤ f.remaining →
      0 ≤ (db.captureAllocations rows f).2.remaining ∧
      (db.captureAllocations rows f).2.remaining ≤ f.remaining ∧
      f.creditAmount ≤ (db.captureAllocations rows f).2.creditAmount ∧
      (db.captureAllocations rows f).2.creditAmount ≤
        f.creditAmount + (rows.map fun entry => creditOutstanding entry.2).sum := by
  induction rows with
  | nil =>
      intro db f h0
      simp [Db.captureAllocations, h0]
  | cons entry rest ih =>
      intro db f h0
      have hout := outstanding_nonneg entry.2
      have hrest := ih (db.drainAllocation entry.1 entry.2 (min f.remaining entry.2.outstanding))
        (f.take entry.2.source (min f.remaining entry.2.outstanding))
        (by rw [Funding.take_remaining]; omega)
      rw [Funding.take_remaining, Funding.take_creditAmount] at hrest
      obtain ⟨hnonneg, hle, hgrow, hbound⟩ := hrest
      simp only [List.map_cons, List.sum_cons]
      refine ⟨hnonneg, Int.le_trans hle (by omega), Int.le_trans ?_ hgrow, Int.le_trans hbound ?_⟩
      · split <;> omega
      · unfold creditOutstanding
        split <;> omega

theorem Drains.taking {db db' : Db} {rows : List (Nat × Allocation)} (hdrains : Drains db rows db')
    (hfetched : Table.Fetched db.allocations rows) (h : Accounted db) (hquota : Quota db) :
    Taking db db' where
  accounted := hdrains.accounted hfetched h
  quota := hdrains.quota hfetched h hquota
  reservations := hdrains.reservations
  wallets _ row hrow := ⟨row, hdrains.wallets ▸ hrow, rfl, rfl⟩
  credit _ := hdrains.total fun _ _ _ => rfl

/-- The credit reserved for the captured reservation. -/
def Db.ownCredit (db : Db) (own : Option Nat) : Int :=
  match own with
  | some id => db.reservationCredit id
  | none => 0

/-- The reservation's own allocations, settled in funding order. -/
theorem captureOwn_keeps {db : Db} (h : Accounted db) (hquota : Quota db) (own : Option Nat)
    {f : Funding} (h0 : 0 ≤ f.remaining) :
    Taking db (db.captureAllocations (db.captureOrder own) f).1 ∧
      (∀ id ∈ own, (db.captureAllocations (db.captureOrder own) f).1.Closed id) ∧
      (db.captureAllocations (db.captureOrder own) f).2.creditAmount ≤
        f.creditAmount + db.ownCredit own := by
  have hdrains := drains_captureAllocations (db.captureOrder own) db f h0
  have hfunding := (captureAllocations_funding (db.captureOrder own) db f h0).2.2.2
  cases own with
  | none =>
      refine ⟨hdrains.taking ⟨List.nodup_nil, fun _ hmem => absurd hmem List.not_mem_nil⟩ h hquota,
        fun id hid => absurd hid (by simp), hfunding⟩
  | some id =>
      have hperm : (db.captureOrder (some id)).Perm (db.allocationsOf id) :=
        List.perm_insertionSort ..
      refine ⟨hdrains.taking ((Table.fetched_selectWhere ..).perm hperm) h hquota, ?_, ?_⟩
      · intro own hown
        obtain rfl := Option.some.inj hown
        exact hdrains.closed hperm h
      · refine Int.le_trans hfunding (Int.add_le_add_left ?_ _)
        have hsum : ((db.captureOrder (some id)).map fun entry => creditOutstanding entry.2).sum =
            ((db.allocationsOf id).map fun entry => creditOutstanding entry.2).sum :=
          (hperm.map _).sum_eq
        rw [hsum]
        exact creditOutstanding_le h id

/-! ## Overage -/

theorem reservationCredit_upsertAllocation {db db' : Db} {a : Allocation} {u : Unit}
    (h : Commits (upsertAllocation a) db u db') (id : Nat) :
    db'.reservationCredit id = db.reservationCredit id +
      if a.reservationId = id ∧ a.source.isCredit = true then a.reservedMicros else 0 := by
  obtain ⟨_, heq | ⟨row, old, hold, hid, hsource, _, heq⟩⟩ := commits_upsertAllocation h
  · rw [heq]
    exact Table.total_insertRow ..
  · rw [heq]
    refine (Table.total_updateRow _ _ hold).trans ?_
    show db.reservationCredit id + _ = _
    dsimp only
    rw [hid, hsource]
    split <;> omega

/-- Overage leaves a settled reservation settled. -/
theorem closed_upsertAllocation {db db' : Db} {a : Allocation} {u : Unit} {id : Nat}
    (h : Commits (upsertAllocation a) db u db') (hclosed : db.Closed id)
    (hcaptured : a.capturedMicros = a.reservedMicros) (hreleased : a.releasedMicros = 0) :
    db'.Closed id := by
  obtain ⟨_, heq | ⟨row, old, hold, hid, hsource, _, heq⟩⟩ := commits_upsertAllocation h
  · rw [heq]
    intro i x hx hxid
    rcases Table.getElem?_insertRow_cases hx with ⟨_, rfl⟩ | hx
    · show _ + _ = _
      omega
    · exact hclosed i x hx hxid
  · rw [heq]
    intro i x hx hxid
    rcases Table.getElem?_updateRow_cases hx with ⟨_, y, hy, rfl⟩ | ⟨_, hx⟩
    · obtain rfl := Option.some.inj (hy.symm.trans hold)
      have hdrained : y.capturedMicros + y.releasedMicros = y.reservedMicros :=
        hclosed row y hy hxid
      show y.capturedMicros + a.capturedMicros + y.releasedMicros =
        y.reservedMicros + a.reservedMicros
      omega
    · exact hclosed i x hx hxid

/-- The reservation being captured, if there is one, belongs to the wallet. -/
def Capturing (db : Db) (own : Option Nat) (walletId : Nat) : Prop :=
  ∀ id ∈ own, ∃ r, db.reservations[id]? = some r ∧ r.status = .capturing ∧ r.walletId = walletId

/-- What overage on buckets does. -/
structure Overage (db db' : Db) : Prop extends Taking db db' where
  closed : ∀ id, db.Closed id → db'.Closed id

theorem Overage.trans {db₁ db₂ db₃ : Db} (h₁ : Overage db₁ db₂) (h₂ : Overage db₂ db₃) :
    Overage db₁ db₃ :=
  ⟨h₁.toTaking.trans h₂.toTaking, fun id hclosed => h₂.closed id (h₁.closed id hclosed)⟩

/-- Consuming what is available of an active bucket. -/
theorem taking_consumeBucket {db : Db} (h : Accounted db) (hquota : Quota db) {bucketId : Nat}
    {b : Bucket} {amount : Int} (hb : db.buckets[bucketId]? = some b) (hactive : b.status = .active)
    (h0 : 0 ≤ amount) (hamount : amount ≤ b.available) :
    Taking db (db.consumeBucket bucketId amount) := by
  have hcurrent : b.status.current = true := by rw [hactive]; rfl
  refine ⟨?_, ?_, rfl, fun _ row hrow => ⟨row, hrow, rfl, rfl⟩, fun _ => rfl⟩
  · refine h.frame rfl rfl rfl rfl (Nat.le_of_eq (Table.length_updateRow ..).symm) ?_
    intro c row' hrow'
    rcases Table.getElem?_updateRow_cases hrow' with ⟨rfl, row, hrow, rfl⟩ | ⟨_, hrow⟩
    · exact .inl ⟨row, hrow, rfl⟩
    · exact .inl ⟨row', hrow, rfl⟩
  · refine hquota.updateRow (fun _ => ⟨rfl, rfl, rfl⟩) fun row hrow hwithin => ?_
    obtain rfl := Option.some.inj (hrow.symm.trans hb)
    exact hwithin.consume hcurrent h0 hamount

theorem upsertAllocation_buckets {db db' : Db} {a : Allocation} {u : Unit}
    (h : Commits (upsertAllocation a) db u db') : db'.buckets = db.buckets := by
  obtain ⟨_, heq | ⟨_, _, _, _, _, _, heq⟩⟩ := commits_upsertAllocation h
  · rw [heq]
  · rw [heq]

theorem upsertAllocation_reservations {db db' : Db} {a : Allocation} {u : Unit}
    (h : Commits (upsertAllocation a) db u db') : db'.reservations = db.reservations := by
  obtain ⟨_, heq | ⟨_, _, _, _, _, _, heq⟩⟩ := commits_upsertAllocation h
  · rw [heq]
  · rw [heq]

theorem capturing_holding {r : Reservation} (h : r.status = .capturing) :
    r.status.holding = true := by rw [h]; rfl

theorem overage_consumeOverage {db db' : Db} {own : Option Nat} {walletId bucketId : Nat}
    {b : Bucket} {amount : Int} {u : Unit} (h : Accounted db) (hquota : Quota db)
    (hcapturing : Capturing db own walletId)
    (hcommit : Commits (consumeOverage own bucketId b amount) db u db')
    (hb : db.buckets[bucketId]? = some b) (hactive : b.status = .active) (h0 : 0 ≤ amount)
    (hmax : amount ≤ i64Max) (hamount : amount ≤ b.available) :
    Overage db db' ∧ db'.buckets = (db.consumeBucket bucketId amount).buckets := by
  cases own with
  | none =>
      simp only [consumeOverage, recordOverage, commits_bind, commits_pure, commits_write] at hcommit
      obtain ⟨_, _, ⟨_, rfl⟩, rfl⟩ := hcommit
      exact ⟨⟨taking_consumeBucket h hquota hb hactive h0 hamount, fun _ hclosed => hclosed⟩, rfl⟩
  | some id =>
      simp only [consumeOverage, recordOverage, commits_bind, commits_write] at hcommit
      obtain ⟨_, db₁, hupsert, rfl⟩ := hcommit
      obtain ⟨r, hr, hstatus, _⟩ := hcapturing id rfl
      have hbuckets := upsertAllocation_buckets hupsert
      have haccounted := h.upsertAllocation hupsert h0 hmax rfl rfl
        (Allocation.dated_bucket rfl rfl) (by rintro _ ⟨⟩; exact Table.getElem?_lt hb) hr (capturing_holding hstatus)
      have hquota₁ : Quota db₁ :=
        hquota.frame hbuckets (upsertAllocation_moves _ _ _ _ hupsert).ruleSnapshots
      have hupsertTaking : Taking db db₁ :=
        { accounted := haccounted
          quota := hquota₁
          reservations := upsertAllocation_reservations hupsert
          wallets := fun w row hrow => (commits_upsertAllocation hupsert).1.of_bucket hrow
          credit := fun other => by
            rw [reservationCredit_upsertAllocation hupsert,
              if_neg (by simp [AllocationSource.isCredit]), Int.add_zero] }
      have hconsume := taking_consumeBucket haccounted hquota₁ (hbuckets ▸ hb) hactive h0 hamount
      refine ⟨⟨hupsertTaking.trans hconsume, fun other hclosed => ?_⟩, ?_⟩
      · have hclosed₁ : db₁.Closed other := closed_upsertAllocation hupsert hclosed rfl rfl
        exact hclosed₁
      · show db₁.buckets.updateRow _ _ = _
        rw [hbuckets]
        rfl

/-- The overage loop takes no credit. -/
theorem overageBuckets_keeps {own : Option Nat} {walletId : Nat} (rows : List (Nat × Bucket)) :
    ∀ (db : Db) (f f' : Funding) (db' : Db), Commits (overageBuckets own rows f) db f' db' →
      Accounted db → Quota db → Capturing db own walletId → Table.Fetched db.buckets rows →
      (∀ entry ∈ rows, entry.2.status = .active) → 0 ≤ f.remaining → f.remaining ≤ i64Max →
      Overage db db' ∧ 0 ≤ f'.remaining ∧ f'.remaining ≤ f.remaining ∧
        f'.creditAmount = f.creditAmount := by
  induction rows with
  | nil =>
      intro db f f' db' hcommit h hquota _ _ _ h0 _
      obtain ⟨rfl, rfl⟩ := commits_pure.mp hcommit
      exact ⟨⟨Taking.refl h hquota, fun _ hclosed => hclosed⟩, h0, Int.le_refl _, rfl⟩
  | cons entry rest ih =>
      intro db f f' db' hcommit h hquota hcapturing hfetched hactive h0 hmax
      have havailable := available_nonneg entry.2
      have hrest_active := fun other hmem => hactive other (List.mem_cons_of_mem entry hmem)
      unfold overageBuckets at hcommit
      rcases commits_ite.mp hcommit with ⟨_, hdone⟩ | ⟨_, hcommit⟩
      · obtain ⟨rfl, rfl⟩ := commits_pure.mp hdone
        exact ⟨⟨Taking.refl h hquota, fun _ hclosed => hclosed⟩, h0, Int.le_refl _, rfl⟩
      rcases commits_ite.mp hcommit with ⟨_, hskip⟩ | ⟨_, htake⟩
      · exact ih db f f' db' hskip h hquota hcapturing (hfetched.tail fun _ _ _ => rfl) hrest_active
          h0 hmax
      · obtain ⟨_, db₁, hconsume, hloop⟩ := commits_bind.mp htake
        obtain ⟨hstep, hbuckets⟩ := overage_consumeOverage h hquota hcapturing hconsume hfetched.head
          (hactive entry List.mem_cons_self) (by omega) (by omega) (Int.min_le_right ..)
        have hcapturing₁ : Capturing db₁ own walletId := fun id hid =>
          hstep.reservations ▸ hcapturing id hid
        have htail : Table.Fetched db₁.buckets rest := by
          rw [hbuckets]
          exact hfetched.tail fun _ hne _ => Table.getElem?_updateRow_ne _ _ (Ne.symm hne)
        obtain ⟨hrest, hnonneg, hle, hcredit⟩ := ih db₁ _ f' db' hloop hstep.accounted hstep.quota
          hcapturing₁ htail hrest_active (by rw [Funding.take_remaining]; omega)
          (by rw [Funding.take_remaining]; omega)
        rw [Funding.take_remaining] at hle
        refine ⟨hstep.trans hrest, hnonneg, by omega, hcredit.trans ?_⟩
        simp [AllocationSource.isCredit]

/-! ## Funding as a whole -/

/-- What funding a charge did before the debit: the captured reservation is
settled, and its credit and the reserved amount of its wallet grew by the
same `extra`. -/
structure Funded (own : Option Nat) (walletId : Nat) (extra : Int) (db db' : Db) : Prop where
  accounted : Accounted db'
  quota : Quota db'
  reservations : db'.reservations = db.reservations
  wallets : ∀ (w : Nat) (row' : Wallet), db'.wallets[w]? = some row' →
    ∃ row, db.wallets[w]? = some row ∧ row'.creditBalanceMicros = row.creditBalanceMicros ∧
      row'.creditReservedMicros =
        row.creditReservedMicros + if own.isSome = true ∧ w = walletId then extra else 0
  credit : ∀ id ∈ own, db'.reservationCredit id = db.reservationCredit id + extra
  closed : ∀ id ∈ own, db'.Closed id

/-- Own allocations and buckets alone move no credit. -/
theorem Taking.funded {db db' : Db} (h : Taking db db') {own : Option Nat} (walletId : Nat)
    (hclosed : ∀ id ∈ own, db'.Closed id) : Funded own walletId 0 db db' where
  accounted := h.accounted
  quota := h.quota
  reservations := h.reservations
  wallets w row' hrow' := by
    obtain ⟨row, hrow, hbalance, hreserved⟩ := h.wallets w row' hrow'
    refine ⟨row, hrow, hbalance, ?_⟩
    rw [hreserved]
    split <;> omega
  credit id _ := by rw [h.credit id, Int.add_zero]
  closed := hclosed

/-- The credit stage adds at most what was available. -/
theorem overageCredit_keeps {db db₁ db' : Db} {own : Option Nat} {wallet : LockedWallet}
    {f f' : Funding} (htaking : Taking db db₁) (hclosed : ∀ id ∈ own, db₁.Closed id)
    (hcapturing : Capturing db own wallet.id)
    (hcommit : Commits (overageCredit own (some wallet) f) db₁ f' db') (h0 : 0 ≤ f.remaining)
    (hmax : f.remaining ≤ i64Max) :
    ∃ extra, 0 ≤ extra ∧ extra ≤ wallet.availableCredit ∧ 0 ≤ f'.remaining ∧
      f'.creditAmount = f.creditAmount + extra ∧ Funded own wallet.id extra db db' := by
  have havailable : 0 ≤ wallet.availableCredit := Int.le_max_right ..
  have hcapturing₁ : Capturing db₁ own wallet.id := fun id hid =>
    htaking.reservations ▸ hcapturing id hid
  refine ⟨min f.remaining wallet.availableCredit, by omega, Int.min_le_right .., ?_⟩
  cases own with
  | none =>
      simp only [overageCredit, recordCredit, recordOverage, commits_bind, commits_ite,
        commits_pure, ← or_and_right] at hcommit
      obtain ⟨_, _, ⟨_, _, rfl⟩, rfl, rfl⟩ := hcommit
      have hfunded : Funded none wallet.id 0 db db₁ := htaking.funded wallet.id hclosed
      refine ⟨?_, ?_, hfunded.accounted, hfunded.quota, hfunded.reservations, ?_,
        fun id hid => absurd hid (by simp), hclosed⟩
      · rw [Funding.take_remaining]
        omega
      · simp [AllocationSource.isCredit]
      · intro w row' hrow'
        obtain ⟨row, hrow, hbalance, hreserved⟩ := hfunded.wallets w row' hrow'
        exact ⟨row, hrow, hbalance, by simpa using hreserved⟩
  | some id =>
      simp only [overageCredit, recordCredit, recordOverage, commits_bind, commits_pure] at hcommit
      obtain ⟨_, db₂, hcommit, rfl, rfl⟩ := hcommit
      refine ⟨by rw [Funding.take_remaining]; omega, by simp [AllocationSource.isCredit], ?_⟩
      rcases commits_ite.mp hcommit with ⟨hpos, hupsert⟩ | ⟨hzero, hnone⟩
      · obtain ⟨r, hr, hstatus, hwallet⟩ := hcapturing₁ id rfl
        have hmoved := (commits_upsertAllocation hupsert).1
        exact
          { accounted := htaking.accounted.upsertAllocation hupsert (Int.le_of_lt hpos)
              (by dsimp only; omega) rfl rfl (Allocation.dated_credit rfl rfl) (by rintro _ ⟨⟩) hr
              (capturing_holding hstatus)
            quota := htaking.quota.frame (upsertAllocation_buckets hupsert)
              (upsertAllocation_moves _ _ _ _ hupsert).ruleSnapshots
            reservations := (upsertAllocation_reservations hupsert).trans htaking.reservations
            wallets := by
              intro w row' hrow'
              obtain ⟨row₁, hrow₁, hbalance₁, hreserved₁⟩ := hmoved.row w row' hrow'
              obtain ⟨row, hrow, hbalance, hreserved⟩ := htaking.wallets w row₁ hrow₁
              refine ⟨row, hrow, hbalance₁.trans hbalance, ?_⟩
              rw [hreserved₁, hreserved, holdsCredit_of_some hr, hwallet, hstatus]
              by_cases hw : w = wallet.id
              · simp [AllocationSource.isCredit, ReservationStatus.live, hw]
              · simp [hw, Ne.symm hw]
            credit := by
              intro own hown
              obtain rfl := Option.some.inj hown
              rw [reservationCredit_upsertAllocation hupsert, htaking.credit,
                if_pos ⟨rfl, rfl⟩]
            closed := fun own hown =>
              closed_upsertAllocation hupsert (hclosed own hown) rfl rfl }
      · obtain ⟨_, rfl⟩ := commits_pure.mp hnone
        have hamount : min f.remaining wallet.availableCredit = 0 := by omega
        rw [hamount]
        exact htaking.funded wallet.id hclosed

/-- The two overage stages after the own allocations. -/
theorem fundOverage_keeps {db db₁ db' : Db} {log : UsageLog} {userId publicModelId : Int}
    {own : Option Nat} {wallet : Option LockedWallet} {walletId : Nat} {f f' : Funding}
    (htaking : Taking db db₁) (hclosed : ∀ id ∈ own, db₁.Closed id)
    (hcapturing : Capturing db own walletId) (hwallet : ∀ w ∈ wallet, w.id = walletId)
    (hcommit : Commits (fundOverage log userId publicModelId wallet own f) db₁ f' db')
    (h0 : 0 ≤ f.remaining) (hmax : f.remaining ≤ i64Max) :
    ∃ extra, 0 ≤ extra ∧ (∀ w ∈ wallet, extra ≤ w.availableCredit) ∧
      f'.creditAmount = f.creditAmount + extra ∧ Funded own walletId extra db db' := by
  have havailable : ∀ w : LockedWallet, w ∈ wallet → 0 ≤ w.availableCredit :=
    fun _ _ => Int.le_max_right ..
  have hcapturing₁ : Capturing db₁ own walletId := fun id hid =>
    htaking.reservations ▸ hcapturing id hid
  rcases commits_ite.mp hcommit with ⟨_, hover⟩ | ⟨_, hnone⟩
  · simp only [commits_bind, commits_read] at hover
    obtain ⟨_, _, ⟨rfl, rfl⟩, f₂, db₂, hloop, hcredit⟩ := hover
    obtain ⟨hoverage, hnonneg, hle, hsame⟩ := overageBuckets_keeps _ _ _ _ _ hloop htaking.accounted
      htaking.quota hcapturing₁ fetched_eligibleBuckets eligibleBuckets_active h0 hmax
    have htaking₂ := htaking.trans hoverage.toTaking
    have hclosed₂ : ∀ id ∈ own, db₂.Closed id := fun id hid => hoverage.closed id (hclosed id hid)
    rcases commits_ite.mp hcredit with ⟨_, hcredit⟩ | ⟨_, hnone⟩
    · cases wallet with
      | none =>
          obtain ⟨rfl, rfl⟩ := commits_pure.mp hcredit
          exact ⟨0, Int.le_refl 0, havailable, by rw [hsame, Int.add_zero],
            htaking₂.funded walletId hclosed₂⟩
      | some locked =>
          obtain rfl := hwallet locked rfl
          obtain ⟨extra, hextra, hbound, _, hamount, hfunded⟩ :=
            overageCredit_keeps htaking₂ hclosed₂ hcapturing hcredit hnonneg (by omega)
          refine ⟨extra, hextra, fun w hw => ?_, hamount.trans (by rw [hsame]), hfunded⟩
          obtain rfl := Option.some.inj hw
          exact hbound
    · obtain ⟨rfl, rfl⟩ := commits_pure.mp hnone
      exact ⟨0, Int.le_refl 0, havailable, by rw [hsame, Int.add_zero],
        htaking₂.funded walletId hclosed₂⟩
  · obtain ⟨rfl, rfl⟩ := commits_pure.mp hnone
    exact ⟨0, Int.le_refl 0, havailable, (Int.add_zero _).symm, htaking.funded walletId hclosed⟩

/-! ## The debit -/

/-- A settled charge that is not yet taken off the reservation: the wallet
covers what is reserved of it once the captured reservation's credit is off. -/
structure Charged (own : Option Nat) (walletId : Nat) (db db' : Db) : Prop where
  accounted : Accounted db'
  quota : Quota db'
  reservations : db'.reservations = db.reservations
  closed : ∀ id ∈ own, db'.Closed id
  cover : ∀ (w : Nat) (row : Wallet), db'.wallets[w]? = some row →
    row.creditReservedMicros ≤ row.creditBalanceMicros +
        (if w = walletId then db'.ownCredit own else 0) ∧
      row.creditBalanceMicros ≤ i64Max

theorem Charged.frame {own : Option Nat} {walletId : Nat} {db db₁ db' : Db}
    (h : Charged own walletId db db₁) (hwallets : db'.wallets = db₁.wallets)
    (hledger : db'.ledger = db₁.ledger) (hreservations : db'.reservations = db₁.reservations)
    (hallocations : db'.allocations = db₁.allocations) (hbuckets : db'.buckets = db₁.buckets)
    (hrules : db'.ruleSnapshots = db₁.ruleSnapshots) : Charged own walletId db db' where
  accounted := h.accounted.frame_buckets hwallets hledger hreservations hallocations hbuckets
  quota := h.quota.frame hbuckets hrules
  reservations := hreservations.trans h.reservations
  closed id hid i a ha := h.closed id hid i a (hallocations ▸ ha)
  cover w row hrow := by
    have hcredit : db'.ownCredit own = db₁.ownCredit own := by
      unfold Db.ownCredit Db.reservationCredit
      rw [hallocations]
    rw [hcredit]
    exact h.cover w row (hwallets ▸ hrow)

/-- The debit takes from a wallet at most the credit of its own reservation
and what it had available. -/
theorem debitCredit_keeps {db db₁ db' : Db} {own : Option Nat} {wallet : Option LockedWallet}
    {walletId : Nat} {usageLogId amount extra : Int} {u : Unit} (hsolvent : Solvent db)
    (hfunded : Funded own walletId extra db db₁) (hwallet : ∀ w ∈ wallet, w.id = walletId)
    (havailable : ∀ (w : LockedWallet) (row : Wallet), w ∈ wallet →
      db.wallets[walletId]? = some row →
        w.availableCredit ≤ row.creditBalanceMicros - row.creditReservedMicros)
    (hextra : 0 ≤ extra) (hbound : ∀ w ∈ wallet, extra ≤ w.availableCredit)
    (hamount : extra ≤ amount) (hown : amount ≤ db.ownCredit own + extra)
    (hcommit : Commits (debitCredit wallet usageLogId amount) db₁ u db') :
    Charged own walletId db db' := by
  have hcredit : db₁.ownCredit own = db.ownCredit own + if own.isSome = true then extra else 0 := by
    cases own with
    | none => rfl
    | some id => exact hfunded.credit id rfl
  rcases commits_ite.mp hcommit with ⟨hpos, hdebit⟩ | ⟨hzero, hnone⟩
  · simp only [commits_bind, commits_orAbort, commits_pure] at hdebit
    obtain ⟨locked, _, ⟨hlocked, rfl⟩, _, _, hinsert, _, rfl⟩ := hdebit
    obtain ⟨_, old, hold, _, hmax, _, heq⟩ := commits_insertLedgerEntry hinsert
    have haccounted := hfunded.accounted.insertLedgerEntry hinsert
    obtain rfl := hwallet locked hlocked
    have hle := hbound locked hlocked
    rw [heq] at haccounted ⊢
    refine ⟨haccounted, hfunded.quota.frame rfl rfl, hfunded.reservations, hfunded.closed, ?_⟩
    intro w row' hrow'
    show _ ≤ _ + (if w = locked.id then db₁.ownCredit own else 0) ∧ _
    rw [hcredit]
    rcases Table.getElem?_updateRow_cases hrow' with ⟨rfl, mid, hmid, rfl⟩ | ⟨hne, hmid⟩
    · obtain rfl := Option.some.inj (hmid.symm.trans hold)
      obtain ⟨row, hrow, hbalance, hreserved⟩ := hfunded.wallets locked.id mid hmid
      have hfree := havailable locked row hlocked hrow
      refine ⟨?_, hmax⟩
      show mid.creditReservedMicros ≤ mid.creditBalanceMicros + -amount +
        if locked.id = locked.id then _ else 0
      rw [hreserved, hbalance, if_pos (Eq.refl locked.id)]
      by_cases hsome : own.isSome = true
      · rw [if_pos ⟨hsome, rfl⟩, if_pos hsome]
        omega
      · rw [if_neg fun hc => hsome hc.1, if_neg hsome]
        omega
    · obtain ⟨row, hrow, hbalance, hreserved⟩ := hfunded.wallets w row' hmid
      have hrow_solvent := hsolvent w row hrow
      have hother : ¬ w = locked.id := fun heq => hne heq.symm
      rw [if_neg hother]
      rw [if_neg fun hc => hother hc.2] at hreserved
      omega
  · obtain ⟨_, rfl⟩ := commits_pure.mp hnone
    refine ⟨hfunded.accounted, hfunded.quota, hfunded.reservations, hfunded.closed, ?_⟩
    intro w row' hrow'
    obtain ⟨row, hrow, hbalance, hreserved⟩ := hfunded.wallets w row' hrow'
    have hrow_solvent := hsolvent w row hrow
    have hextra_zero : extra = 0 := by omega
    have hown_nonneg : 0 ≤ db₁.ownCredit own := by
      cases own with
      | none => exact Int.le_refl 0
      | some id => exact hfunded.accounted.reservationCredit_nonneg id
    rw [hextra_zero] at hreserved
    split at hreserved <;> split <;> omega

end Conduit.Billing
