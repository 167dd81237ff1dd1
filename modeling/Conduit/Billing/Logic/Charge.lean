import Conduit.Billing.Logic.Frame

/-!
# One charge for each usage log

`Charges`: a usage log has at most one charge event, an event at most one
settlement, and a debit of a usage log is the only one and has its event.
The insert of the event is the gate: a settlement that passes it meets a log
without event, hence without settlement and debit.
-/

namespace Conduit.Billing

open Base Transaction

structure Charges (db : Db) : Prop where
  eventUnique : ∀ (i j : Nat) (x y : ChargeEvent), db.chargeEvents[i]? = some x →
    db.chargeEvents[j]? = some y → x.usageLogId = y.usageLogId → i = j
  settlementEvent : ∀ (i : Nat) (s : ChargeSettlement), db.settlements[i]? = some s →
    s.chargeEventId < db.chargeEvents.length
  settlementUnique : ∀ (i j : Nat) (s t : ChargeSettlement), db.settlements[i]? = some s →
    db.settlements[j]? = some t → s.chargeEventId = t.chargeEventId → i = j
  debitEvent : ∀ (i : Nat) (e : LedgerEntry) (usageLogId : Int), db.ledger[i]? = some e →
    e.reference = .usageLog usageLogId →
      ∃ (j : Nat) (x : ChargeEvent), db.chargeEvents[j]? = some x ∧ x.usageLogId = usageLogId
  debitUnique : ∀ (i j : Nat) (e f : LedgerEntry) (usageLogId : Int), db.ledger[i]? = some e →
    db.ledger[j]? = some f → e.reference = .usageLog usageLogId →
      f.reference = .usageLog usageLogId → i = j

/-- A usage log has its charge event. -/
def Db.Charged (db : Db) (usageLogId : Int) : Prop :=
  ∃ (i : Nat) (x : ChargeEvent), db.chargeEvents[i]? = some x ∧ x.usageLogId = usageLogId

theorem Db.charged_of_chargeEventOf {db : Db} {usageLogId : Int}
    (h : (db.chargeEventOf usageLogId).isSome = true) : db.Charged usageLogId := by
  obtain ⟨entry, hentry⟩ := Option.isSome_iff_exists.mp h
  obtain ⟨hrow, hmatch⟩ := Table.selectOne_some hentry
  exact ⟨entry.1, entry.2, hrow, beq_iff_eq.mp hmatch⟩

/-- A recorded settlement charges its usage log and leaves the others charged. -/
theorem Recorded.charged {log : UsageLog} {db db' : Db} (h : Recorded log db db') :
    db'.Charged log.id ∧ ∀ usageLogId, db.Charged usageLogId → db'.Charged usageLogId := by
  obtain ⟨event, hevent, hevents⟩ := h.event
  unfold Db.Charged
  rw [hevents]
  refine ⟨⟨_, event, Table.getElem?_insertRow_self .., hevent⟩, fun usageLogId => ?_⟩
  rintro ⟨i, x, hx, hlog⟩
  exact ⟨i, x, Table.getElem?_insertRow_of_some event hx, hlog⟩

/-- `Ok` from the synchronous `settle_usage` means that there is an event. -/
theorem settleUsage_charged {log : UsageLog} {facts : ChargeFacts} {key : Option String}
    {now : Instant} {db db' : Db} {u : Unit}
    (hcommit : Commits (settleUsage log facts key now) db u db') : db'.Charged log.id := by
  rcases settleUsage_record hcommit with ⟨rfl, hsome⟩ | hrecord
  · exact Db.charged_of_chargeEventOf hsome
  · exact hrecord.charged.1

namespace Charges

variable {db db' : Db}

/-- Statements on other tables, and ledger entries that are no debits. -/
theorem frame (h : Charges db) (hevents : db'.chargeEvents = db.chargeEvents)
    (hsettlements : db'.settlements = db.settlements)
    (hledger : db'.ledger = db.ledger ∨ ∃ e, (∀ usageLogId, e.reference ≠ .usageLog usageLogId) ∧
      db'.ledger = db.ledger.insertRow e) : Charges db' := by
  have hold : ∀ (i : Nat) (e : LedgerEntry) (usageLogId : Int), db'.ledger[i]? = some e →
      e.reference = .usageLog usageLogId → db.ledger[i]? = some e := by
    intro i e usageLogId he href
    rcases hledger with heq | ⟨new, hnew, heq⟩
    · exact heq ▸ he
    · rw [heq] at he
      rcases Table.getElem?_insertRow_cases he with ⟨_, rfl⟩ | he
      · exact absurd href (hnew usageLogId)
      · exact he
  exact
    { eventUnique := hevents ▸ h.eventUnique
      settlementEvent := by
        rw [hevents, hsettlements]
        exact h.settlementEvent
      settlementUnique := hsettlements ▸ h.settlementUnique
      debitEvent := by
        rw [hevents]
        intro i e usageLogId he href
        exact h.debitEvent i e usageLogId (hold i e usageLogId he href) href
      debitUnique := by
        intro i j e f usageLogId he hf href href'
        exact h.debitUnique i j e f usageLogId (hold i e usageLogId he href)
          (hold j f usageLogId hf href') href href' }

/-- A recorded settlement is the first of its usage log. -/
theorem recorded (h : Charges db) {log : UsageLog} (hrecord : Recorded log db db') :
    Charges db' := by
  obtain ⟨event, hevent, hevents⟩ := hrecord.event
  have hfresh : ∀ (i : Nat) (x : ChargeEvent), db.chargeEvents[i]? = some x →
      x.usageLogId ≠ log.id := by
    intro i x hx
    exact beq_eq_false_iff_ne.mp (Table.selectOne_none hrecord.fresh hx)
  have hnodebit : ∀ (i : Nat) (e : LedgerEntry), db.ledger[i]? = some e →
      e.reference ≠ .usageLog log.id := by
    intro i e he href
    obtain ⟨j, x, hx, hlog⟩ := h.debitEvent i e log.id he href
    exact hfresh j x hx hlog
  -- a debit found afterwards is an old one or the new one of this log
  have hdebit : ∀ (i : Nat) (e : LedgerEntry) (usageLogId : Int), db'.ledger[i]? = some e →
      e.reference = .usageLog usageLogId →
        db.ledger[i]? = some e ∨ (i = db.ledger.length ∧ usageLogId = log.id) := by
    intro i e usageLogId he href
    rcases hrecord.debit with heq | ⟨walletId, amount, heq⟩
    · exact .inl (heq ▸ he)
    · rw [heq] at he
      rcases Table.getElem?_insertRow_cases he with ⟨hi, rfl⟩ | he
      · exact .inr ⟨hi, (LedgerReference.usageLog.inj href).symm⟩
      · exact .inl he
  exact
    { eventUnique := by
        intro i j x y hx hy heq
        rw [hevents] at hx hy
        rcases Table.getElem?_insertRow_cases hx with ⟨hi, rfl⟩ | hx_old
        · rcases Table.getElem?_insertRow_cases hy with ⟨hj, _⟩ | hy_old
          · exact hi.trans hj.symm
          · exact absurd (heq.symm.trans hevent) (hfresh j y hy_old)
        · rcases Table.getElem?_insertRow_cases hy with ⟨_, rfl⟩ | hy_old
          · exact absurd (heq.trans hevent) (hfresh i x hx_old)
          · exact h.eventUnique i j x y hx_old hy_old heq
      settlementEvent := by
        intro i s hs
        rw [hevents, Table.length_insertRow]
        rcases hrecord.settlement with heq | ⟨new, hnew, heq⟩
        · exact Nat.lt_succ_of_lt (h.settlementEvent i s (heq ▸ hs))
        · rw [heq] at hs
          rcases Table.getElem?_insertRow_cases hs with ⟨_, rfl⟩ | hs
          · rw [hnew]
            exact Nat.lt_succ_self _
          · exact Nat.lt_succ_of_lt (h.settlementEvent i s hs)
      settlementUnique := by
        intro i j s t hs ht heq
        rcases hrecord.settlement with hsame | ⟨new, hnew, hsame⟩
        · exact h.settlementUnique i j s t (hsame ▸ hs) (hsame ▸ ht) heq
        · rw [hsame] at hs ht
          rcases Table.getElem?_insertRow_cases hs with ⟨hi, rfl⟩ | hs_old
          · rcases Table.getElem?_insertRow_cases ht with ⟨hj, _⟩ | ht_old
            · exact hi.trans hj.symm
            · have hlt := h.settlementEvent j t ht_old
              omega
          · rcases Table.getElem?_insertRow_cases ht with ⟨_, rfl⟩ | ht_old
            · have hlt := h.settlementEvent i s hs_old
              omega
            · exact h.settlementUnique i j s t hs_old ht_old heq
      debitEvent := by
        intro i e usageLogId he href
        rw [hevents]
        rcases hdebit i e usageLogId he href with hold | ⟨_, rfl⟩
        · obtain ⟨j, x, hx, hlog⟩ := h.debitEvent i e usageLogId hold href
          exact ⟨j, x, Table.getElem?_insertRow_of_some event hx, hlog⟩
        · exact ⟨_, event, Table.getElem?_insertRow_self .., hevent⟩
      debitUnique := by
        intro i j e f usageLogId he hf href href'
        rcases hdebit i e usageLogId he href with hold | ⟨hi, rfl⟩
        · rcases hdebit j f usageLogId hf href' with hold' | ⟨_, rfl⟩
          · exact h.debitUnique i j e f usageLogId hold hold' href href'
          · exact absurd href (hnodebit i e hold)
        · rcases hdebit j f log.id hf href' with hold' | ⟨hj, _⟩
          · exact absurd href' (hnodebit j f hold')
          · exact hi.trans hj.symm }

end Charges

end Conduit.Billing
