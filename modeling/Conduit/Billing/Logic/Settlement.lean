import Conduit.Billing.Logic.Funding

/-!
# Settling keeps the books

The transaction around the funding: the insert of the charge event, the
capture of the reservation, which turns it from open to capturing, and the
final status, which takes its credit off the wallet again.
-/

namespace Conduit.Billing

open Base Transaction

/-! ## Tables that settlement only adds to -/

theorem Books.recordUnsettled {db : Db} (h : Books db) (log : UsageLog)
    (publicModelId : Option Int) (status : ChargeEventStatus) :
    Books (db.recordUnsettled log publicModelId status) := by
  unfold Db.recordUnsettled
  split
  · exact h
  · exact h.frame rfl rfl rfl rfl rfl rfl

/-! ## Capturing the reservation -/

/-- Nothing captured yet, or an open reservation of the wallet that is now
capturing. -/
structure Captured (own : Option Nat) (walletId : Nat) (db db' : Db) : Prop where
  accounted : Accounted db'
  quota : Quota db'
  wallets : db'.wallets = db.wallets
  capturing : Capturing db' own walletId
  idle : ∀ (i : Nat) (r : Reservation), db'.reservations[i]? = some r → i ∉ own →
    r.status ≠ .capturing

/-- The release trigger does not fire when an open reservation is captured. -/
theorem updateReservation_capturing {db : Db} {id : Nat} {r : Reservation}
    (hr : db.reservations[id]? = some r) :
    (db.updateReservation id fun row => { row with status := .capturing }) =
      { db with
        reservations := db.reservations.updateRow id fun row => { row with status := .capturing } } := by
  unfold Db.updateReservation
  rw [hr]
  exact if_neg fun hc => hc.2.1 rfl

theorem commits_beginReservationCapture {db db' : Db} {key : String} {walletId : Nat}
    {userId publicModelId : Int} {now : Instant} {c : CapturingReservation}
    (h : Commits (beginReservationCapture key walletId userId publicModelId now) db c db') :
    ∃ r, db.reservations[c.id]? = some r ∧ r.requestId = key ∧ r.walletId = walletId ∧
      r.status.open_ = true ∧ c.releasedCreditMicros = 0 ∧
      db' = db.updateReservation c.id fun row => { row with status := .capturing } := by
  simp only [beginReservationCapture, commits_bind, commits_read, commits_orAbort, commits_require,
    commits_write, commits_pure] at h
  obtain ⟨_, _, ⟨rfl, rfl⟩, ⟨id, r⟩, _, ⟨hfound, rfl⟩, _, _, ⟨hwallet, rfl⟩, _, _, ⟨_, rfl⟩,
    _, _, ⟨hopen, rfl⟩, _, _, ⟨_, rfl⟩, _, _, rfl, rfl, rfl⟩ := h
  obtain ⟨hr, hkey⟩ := Table.selectOne_some hfound
  exact ⟨r, hr, beq_iff_eq.mp hkey, hwallet, hopen, rfl, rfl⟩

theorem captureReservation_keeps {db db' : Db} {key : Option String} {wallet : Option LockedWallet}
    {userId publicModelId : Int} {now : Instant} {captured : Option CapturingReservation}
    (h : Books db)
    (hcommit : Commits (captureReservation key wallet userId publicModelId now) db captured db') :
    (∀ c ∈ captured, c.releasedCreditMicros = 0) ∧
      Captured (captured.map CapturingReservation.id) (wallet.elim 0 LockedWallet.id) db db' := by
  unfold captureReservation at hcommit
  split at hcommit
  · next locked =>
      simp only [commits_bind, commits_pure] at hcommit
      obtain ⟨c, _, hbegin, rfl, rfl⟩ := hcommit
      obtain ⟨r, hr, _, hwallet, hopen, hreleased, rfl⟩ := commits_beginReservationCapture hbegin
      have haccounted : Accounted
          (db.updateReservation c.id fun row => { row with status := .capturing }) :=
        h.accounted.updateReservation hr rfl (fun _ => ReservationStatus.open_live hopen)
          fun hfalse => absurd hfalse (by simp [ReservationStatus.holding])
      rw [updateReservation_capturing hr] at haccounted ⊢
      refine ⟨?_, haccounted, h.quota.frame rfl rfl, rfl, ?_, ?_⟩
      · intro c' hc'
        obtain rfl := Option.some.inj hc'
        exact hreleased
      · intro id hid
        obtain rfl := Option.some.inj hid
        exact ⟨{ r with status := .capturing }, Table.getElem?_updateRow_self _ hr, rfl, hwallet⟩
      · intro i x hx hi
        rcases Table.getElem?_updateRow_cases hx with ⟨hid, _⟩ | ⟨_, hold⟩
        · exact absurd (congrArg some hid) hi
        · exact h.idle i x hold
  · exact absurd hcommit commits_abort
  · obtain ⟨rfl, rfl⟩ := commits_pure.mp hcommit
    exact ⟨fun c hc => absurd hc (by simp), h.accounted, h.quota, rfl,
      fun id hid => absurd hid (by simp), fun i r hr _ => h.idle i r hr⟩

/-! ## The final status -/

theorem SettlementFunding.status_final (f : SettlementFunding) :
    f.status.live = false ∧ f.status.holding = false ∧ f.status ≠ .capturing := by
  unfold status
  split
  · exact ⟨rfl, rfl, by simp⟩
  · split
    · exact ⟨rfl, rfl, by simp⟩
    · exact ⟨rfl, rfl, by simp⟩

/-- Finishing the capture takes the reservation's credit off its wallet. -/
theorem finishReservationCapture_keeps {db db₁ : Db} {id walletId : Nat} {f : SettlementFunding}
    (h : Charged (some id) walletId db db₁) (hcaptured : Capturing db (some id) walletId)
    (hidle : ∀ (i : Nat) (r : Reservation), db.reservations[i]? = some r → i ∉ some id →
      r.status ≠ .capturing) :
    Books (db₁.finishReservationCapture id f) := by
  obtain ⟨r, hr, hstatus, hwallet⟩ := hcaptured id rfl
  rw [← h.reservations] at hr
  obtain ⟨hlive, hholding, hfinal⟩ := f.status_final
  have hr_live : r.status.live = true := by rw [hstatus]; rfl
  refine ⟨?_, ?_, ?_, ?_⟩
  · refine h.accounted.updateReservation hr rfl (fun hc => ?_) fun _ => h.closed id rfl
    rw [show f.status.live = true from hc] at hlive
    exact absurd hlive (by simp)
  · unfold Db.finishReservationCapture
    rw [updateReservation_eq]
    exact h.quota.frame rfl rfl
  · intro w row' hrow'
    obtain ⟨row, hrow, hbalance, hreserved⟩ := updateReservation_wallets h.accounted hr rfl hrow'
    have hcover := h.cover w row hrow
    have hcredit : db₁.ownCredit (some id) = db₁.reservationCredit id := rfl
    rw [hbalance, hreserved]
    by_cases hw : w = walletId
    · rw [if_pos hw] at hcover
      rw [if_pos ⟨hr_live, hlive, hwallet.trans hw.symm⟩]
      omega
    · rw [if_neg hw] at hcover
      rw [if_neg fun hc => hw (hc.2.2.symm.trans hwallet)]
      omega
  · unfold Db.finishReservationCapture
    rw [updateReservation_eq]
    intro i x hx
    rcases Table.getElem?_updateRow_cases hx with ⟨_, old, _, rfl⟩ | ⟨hne, hold⟩
    · exact hfinal
    · refine hidle i x (h.reservations ▸ hold) fun hi => hne ?_
      exact Option.some.inj hi

/-! ## The transaction -/

/-- Funding a charge from the captured reservation, the buckets and the
wallet as it was locked. -/
theorem settlePersistedAllocations_keeps {db db' : Db} {eventId : Nat} {log : UsageLog}
    {userId publicModelId amountMicros : Int} {wallet : Option LockedWallet} {walletId : Nat}
    {own : Option Nat} {funding : SettlementFunding}
    (hcommit : Commits (settlePersistedAllocations eventId log userId publicModelId wallet
      amountMicros own) db funding db')
    (h : Accounted db) (hquota : Quota db)
    (hsolvent : Solvent db) (hcapturing : Capturing db own walletId)
    (hwallet : ∀ w ∈ wallet, w.id = walletId)
    (havailable : ∀ (w : LockedWallet) (row : Wallet), w ∈ wallet →
      db.wallets[walletId]? = some row →
        w.availableCredit ≤ row.creditBalanceMicros - row.creditReservedMicros)
    (hmax : amountMicros ≤ i64Max) : Charged own walletId db db' := by
  simp only [settlePersistedAllocations, commits_bind, commits_read, commits_write,
    commits_pure] at hcommit
  obtain ⟨_, _, ⟨rfl, rfl⟩, _, _, rfl, f, db₂, hfund, _, db₃, hdebit, _, _, rfl, _, rfl⟩ := hcommit
  have hzero : 0 ≤ max amountMicros 0 := Int.le_max_right ..
  have hbounded : max amountMicros 0 ≤ i64Max := by
    unfold i64Max at *
    omega
  have hown := captureOwn_keeps h hquota own (show 0 ≤ (Funding.mk (max amountMicros 0) 0 0).remaining
    from hzero)
  obtain ⟨htaking, hclosed, hcredit⟩ := hown
  obtain ⟨hremaining, hle, hgrow, _⟩ := captureAllocations_funding (db.captureOrder own) db
    ⟨max amountMicros 0, 0, 0⟩ hzero
  obtain ⟨extra, hextra, hbound, hamount, hfunded⟩ := fundOverage_keeps htaking hclosed hcapturing
    hwallet hfund hremaining (Int.le_trans hle hbounded)
  dsimp only at hcredit hgrow
  have hcharged : Charged own walletId db db₃ :=
    debitCredit_keeps hsolvent hfunded hwallet havailable hextra hbound (by omega) (by omega) hdebit
  exact hcharged.frame rfl rfl rfl rfl rfl rfl

/-- The wallet as it was locked never shows more than it has available. -/
theorem lockedWallet_available {db : Db} {projectId : Int} {captured : Option CapturingReservation}
    {w : LockedWallet} (h : Books db)
    (hw : w ∈ (db.lockProjectWallet projectId).map fun w => match captured with
      | some c => { w with
          creditReservedMicros := satSub w.creditReservedMicros c.releasedCreditMicros }
      | none => w)
    (hreleased : ∀ c ∈ captured, c.releasedCreditMicros = 0) :
    w.id = (db.lockProjectWallet projectId).elim 0 LockedWallet.id ∧
      ∀ row, db.wallets[(db.lockProjectWallet projectId).elim 0 LockedWallet.id]? = some row →
        w.availableCredit ≤ row.creditBalanceMicros - row.creditReservedMicros := by
  obtain ⟨locked, hlocked, rfl⟩ := Option.map_eq_some_iff.mp hw
  obtain ⟨row, hshows⟩ := lockProjectWallet_shows hlocked
  rw [hlocked]
  have hsolvent := h.solvent _ row hshows.found
  have hnonneg : 0 ≤ row.creditReservedMicros := by
    rw [h.accounted.reserved _ row hshows.found]
    exact h.accounted.creditHeld_nonneg _
  have hexact : satSub row.creditReservedMicros 0 = row.creditReservedMicros := by
    unfold satSub clampI64 i64Min
    omega
  have havailable : ∀ wallet : LockedWallet,
      wallet.creditBalanceMicros = row.creditBalanceMicros →
      wallet.creditReservedMicros = satSub row.creditReservedMicros 0 →
      wallet.availableCredit ≤ row.creditBalanceMicros - row.creditReservedMicros :=
    fun wallet hbalance hreserved => availableCredit_le h hshows.found hbalance hreserved rfl
      hsolvent.1 (Int.le_of_eq (Int.add_zero _)) (Int.le_refl 0)
  refine ⟨?_, fun row' hrow' => ?_⟩
  · cases captured with
    | none => rfl
    | some c => rfl
  · obtain rfl := Option.some.inj (hrow'.symm.trans hshows.found)
    cases captured with
    | none =>
        exact havailable locked hshows.balance (hshows.reserved.trans hexact.symm)
    | some c =>
        refine havailable _ hshows.balance ?_
        show satSub locked.creditReservedMicros c.releasedCreditMicros = _
        rw [hreleased c rfl, hshows.reserved]

theorem settleCharge_keeps {log : UsageLog} {userId publicModelId amountMicros : Int}
    {key : Option String} {now : Instant} (hmax : amountMicros ≤ i64Max) :
    Keeps Books (settleCharge log userId publicModelId amountMicros key now) := by
  intro db u db' h hcommit
  simp only [settleCharge, commits_bind, commits_read] at hcommit
  obtain ⟨_, _, ⟨rfl, rfl⟩, hcommit⟩ := hcommit
  split at hcommit
  · rw [← (commits_pure.mp hcommit).2]
    exact h
  · simp only [commits_bind, commits_write] at hcommit
    obtain ⟨_, _, rfl, captured, db₂, hcapture, funding, db₃, hsettle, hfinish⟩ := hcommit
    have hbooks₁ : Books { db with
        chargeEvents := db.chargeEvents.insertRow
          ⟨log.id, log.requestId, some publicModelId, .calculated⟩ } :=
      h.frame rfl rfl rfl rfl rfl rfl
    obtain ⟨hreleased, hcaptured⟩ := captureReservation_keeps hbooks₁ hcapture
    have hsolvent₂ : Solvent db₂ := fun w row hrow => h.solvent w row (hcaptured.wallets ▸ hrow)
    have hcharged := settlePersistedAllocations_keeps hsettle hcaptured.accounted hcaptured.quota
      hsolvent₂ hcaptured.capturing (fun w hw => (lockedWallet_available h hw hreleased).1)
      (fun w row hw hrow => (lockedWallet_available h hw hreleased).2 row (by
        rw [hcaptured.wallets] at hrow
        exact hrow)) hmax
    cases captured with
    | none =>
        rw [← (commits_pure.mp hfinish).2]
        exact
          { accounted := hcharged.accounted
            quota := hcharged.quota
            solvent := by
              intro w row hrow
              have hcover := hcharged.cover w row hrow
              have hnone : db₃.ownCredit (Option.map CapturingReservation.id none) = 0 := rfl
              rw [hnone, ite_self, Int.add_zero] at hcover
              exact hcover
            idle := by
              intro i r hr
              exact hcaptured.idle i r (hcharged.reservations ▸ hr) (by simp) }
    | some c =>
        rw [← commits_write.mp hfinish]
        exact finishReservationCapture_keeps hcharged hcaptured.capturing hcaptured.idle

/-- `settle_usage` keeps the books, whatever was reserved before. -/
theorem settleUsage_keeps (log : UsageLog) (facts : ChargeFacts) (key : Option String)
    (now : Instant) : Keeps Books (settleUsage log facts key now) := by
  intro db u db' h hcommit
  unfold settleUsage at hcommit
  split at hcommit
  · rw [← commits_write.mp hcommit]
    exact h.recordUnsettled ..
  · rw [← commits_write.mp hcommit]
    exact h.recordUnsettled ..
  · rw [← commits_write.mp hcommit]
    exact h.recordUnsettled ..
  · split at hcommit
    · rw [← commits_write.mp hcommit]
      exact h.recordUnsettled ..
    · obtain ⟨micros, _, hfits, hcommit⟩ := commits_bind.mp hcommit
      obtain ⟨rfl, _, hmax⟩ := commits_fitMicros hfits
      exact settleCharge_keeps hmax db u db' h hcommit

end Conduit.Billing
