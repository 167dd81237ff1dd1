import Conduit.Billing.Logic.Outbox
import Conduit.UsageRecovery.Handoff

/-!
# What a handoff does to the ledger

A handoff that commits either finds the usage log that the receipt of its key
is linked to and inserts nothing, or finds a receipt without a link and inserts
the usage log, its outbox row and the link. `Fenced` says that the receipts
know every usage log that was ever inserted for a key.
-/

namespace Conduit.UsageRecovery

open Base Base.Transaction
open Billing (Calendar Instant OutboxRow Settler UsageLog)
open Billing.Settler (Distinct RowsKept)

variable {Usage : Type} {l l' : Ledger Usage}

namespace Ledger

/-- The usage log that the receipt of a key is linked to. -/
def usageLogOf (l : Ledger Usage) (key : String) : Option Int :=
  (l.receipt key).bind Receipt.usageLogId

theorem usageLogOf_insertReceipt (l : Ledger Usage) (key hash : String) :
    (l.insertReceipt key hash).usageLogOf = l.usageLogOf := by
  funext other
  unfold insertReceipt
  by_cases hfound : (l.receipt key).isSome = true
  · rw [if_pos hfound]
  · rw [if_neg hfound]
    have hnone : l.receipt key = none := Option.not_isSome_iff_eq_none.mp hfound
    unfold usageLogOf receipt Table.insertRow
    rw [List.find?_append]
    cases hother : l.receipts.find? fun row => row.eventKey == other with
    | some row => rfl
    | none =>
        rw [Option.none_or, List.find?_singleton]
        split <;> rfl

theorem usageLogOf_setUsageLog {key : String} (hfound : (l.receipt key).isSome) (id : Int) :
    (l.setUsageLog key id).usageLogOf = Function.update l.usageLogOf key (some id) := by
  funext other
  have hfind : (l.setUsageLog key id).receipt other = (l.receipt other).map fun row =>
      if row.eventKey == key then { row with usageLogId := some id } else row := by
    unfold setUsageLog receipt Table.updateWhere
    rw [List.find?_map]
    congr 2
    funext row
    show ((if row.eventKey == key then { row with usageLogId := some id } else row).eventKey ==
      other) = (row.eventKey == other)
    split <;> rfl
  unfold usageLogOf
  rw [hfind]
  by_cases hkey : other = key
  · subst hkey
    obtain ⟨row, hrow⟩ := Option.isSome_iff_exists.mp hfound
    have hsame : (row.eventKey == other) = true :=
      List.find?_some (p := fun row : Receipt => row.eventKey == other) hrow
    rw [hrow, Function.update_self, Option.map_some, if_pos hsame]
    rfl
  · rw [Function.update_of_ne hkey]
    cases hrow : l.receipt other with
    | none => rfl
    | some row =>
        have hother : (row.eventKey == other) = true :=
          List.find?_some (p := fun row : Receipt => row.eventKey == other) hrow
        have hne : ¬ (row.eventKey == key) = true := by
          rw [beq_iff_eq] at hother ⊢
          rw [hother]
          exact hkey
        rw [Option.map_some, if_neg hne]

theorem usageLogOf_congr (h : l'.receipts = l.receipts) : l'.usageLogOf = l.usageLogOf := by
  funext key
  unfold usageLogOf receipt
  rw [h]

end Ledger

/-! ## The two ways to commit -/

/-- The usage log was inserted before. -/
structure HandedAgain (event : MeteredEvent Usage) (id : Int) (l l' : Ledger Usage) : Prop where
  linked : l.usageLogOf event.eventKey = some id
  links : l'.usageLogOf = l.usageLogOf
  settler : l'.settler = l.settler
  serial : l'.serial = l.serial
  metered : l'.metered = l.metered
  handedOff : l'.handedOff = event :: l.handedOff

structure HandedFirst (event : MeteredEvent Usage) (now : Instant) (l l' : Ledger Usage) :
    Prop where
  unlinked : l.usageLogOf event.eventKey = none
  links : l'.usageLogOf = Function.update l.usageLogOf event.eventKey (some l.serial)
  settler : ∃ log : UsageLog, log.id = l.serial ∧
    l'.settler = (l.settler.record log).insertOutbox l.serial event.reservationKey now
  serial : l'.serial = l.serial + 1
  metered : l'.metered = l.metered ++ [(event.eventKey, l.serial)]
  handedOff : l'.handedOff = event :: l.handedOff

variable {codec : Codec Usage} {input : UsageInput Usage}

theorem insertReceipt_frame (l : Ledger Usage) (key hash : String) :
    (l.insertReceipt key hash).settler = l.settler ∧ (l.insertReceipt key hash).serial = l.serial ∧
      (l.insertReceipt key hash).metered = l.metered ∧
      (l.insertReceipt key hash).handedOff = l.handedOff := by
  unfold Ledger.insertReceipt
  split <;> exact ⟨rfl, rfl, rfl, rfl⟩

theorem handoff_cases {now : Instant} {event : MeteredEvent Usage} {handed : Handed}
    (h : Commits (handoff codec input now event) l handed l') :
    (∃ id : Int, handed = .existing id ∧ HandedAgain event id l l') ∨
      (handed = .inserted l.serial ∧ HandedFirst event now l l') := by
  unfold handoff at h
  simp only [commits_bind, commits_write, commits_read, commits_orAbort, commits_require] at h
  obtain ⟨_, l₁, rfl, _, _, ⟨rfl, rfl⟩, receipt, _, ⟨hreceipt, rfl⟩, _, _, ⟨-, rfl⟩, h⟩ := h
  obtain ⟨hsettler, hserial, hmetered, hhandedOff⟩ :=
    insertReceipt_frame l event.eventKey (codec.payloadHash event)
  have hlinks := l.usageLogOf_insertReceipt event.eventKey (codec.payloadHash event)
  generalize l.insertReceipt event.eventKey (codec.payloadHash event) = l₁ at *
  have hlink : l.usageLogOf event.eventKey = receipt.usageLogId := by
    rw [← hlinks]
    unfold Ledger.usageLogOf
    rw [hreceipt]
    rfl
  cases hid : receipt.usageLogId with
  | some id =>
      rw [hid] at h
      simp only [commits_bind, commits_write, commits_require, commits_attempt, commits_pure] at h
      obtain ⟨_, _, ⟨-, rfl⟩, requestId, _, ⟨-, rfl⟩, _, _, rfl, _, _, rfl, rfl, rfl⟩ := h
      left
      refine ⟨id, rfl, hlink.trans hid, ?_, hsettler, hserial, hmetered, ?_⟩
      · rw [← hlinks]
        exact Ledger.usageLogOf_congr rfl
      · exact congrArg (event :: ·) hhandedOff
  | none =>
      rw [hid] at h
      simp only [commits_bind, commits_write, commits_attempt, commits_pure] at h
      obtain ⟨log, _, ⟨-, rfl⟩, _, _, rfl, _, _, rfl, _, _, rfl, requestId, _, ⟨-, rfl⟩,
        _, _, rfl, _, _, rfl, rfl, rfl⟩ := h
      right
      refine ⟨congrArg Handed.inserted hserial, hlink.trans hid, ?_,
        ⟨{ log with id := l₁.serial }, hserial, ?_⟩, congrArg (· + 1) hserial, ?_, ?_⟩
      · rw [← hlinks, ← hserial]
        exact Ledger.usageLogOf_setUsageLog (l := (l₁.insertUsage event.eventKey log).insertOutbox
          l₁.serial event.reservationKey now) (Option.isSome_iff_exists.mpr ⟨receipt, hreceipt⟩) _
      · rw [← hsettler, ← hserial]
        rfl
      · rw [← hmetered, ← hserial]
        rfl
      · exact congrArg (event :: ·) hhandedOff

/-! ## Receipts know what was inserted -/

namespace Ledger

structure Fenced (l : Ledger Usage) : Prop where
  once : (l.metered.map Prod.fst).Nodup
  linked : ∀ (key : String) (id : Int), (key, id) ∈ l.metered → l.usageLogOf key = some id
  handedOff : ∀ event ∈ l.handedOff, (l.usageLogOf event.eventKey).isSome
  outbox : Distinct l.settler.outbox

/-- Links are never changed, rows of the outbox never deleted, and commits
never forgotten. -/
structure Grows (l l' : Ledger Usage) : Prop where
  links : ∀ (key : String) (id : Int), l.usageLogOf key = some id → l'.usageLogOf key = some id
  metered : l.metered <+: l'.metered
  outbox : RowsKept l.settler.outbox l'.settler.outbox
  handedOff : ∀ event ∈ l.handedOff, event ∈ l'.handedOff

theorem Grows.refl (l : Ledger Usage) : l.Grows l :=
  ⟨fun _ _ h => h, List.prefix_rfl, .refl _, fun _ h => h⟩

theorem Grows.trans {l'' : Ledger Usage} (h : l.Grows l') (h' : l'.Grows l'') : l.Grows l'' where
  links key id hlink := h'.links key id (h.links key id hlink)
  metered := h.metered.trans h'.metered
  outbox := h.outbox.trans h'.outbox
  handedOff event hevent := h'.handedOff event (h.handedOff event hevent)

/-- A change beside the handoffs. -/
structure Aside (l l' : Ledger Usage) : Prop where
  receipts : l'.receipts = l.receipts
  metered : l'.metered = l.metered
  handedOff : l'.handedOff = l.handedOff
  outbox : RowsKept l.settler.outbox l'.settler.outbox

theorem Aside.refl (l : Ledger Usage) : l.Aside l := ⟨rfl, rfl, rfl, .refl _⟩

theorem Aside.grows (h : l.Aside l') : l.Grows l' where
  links key id hlink := by
    rw [usageLogOf_congr h.receipts]
    exact hlink
  metered := by rw [h.metered]
  outbox := h.outbox
  handedOff event hevent := by
    rw [h.handedOff]
    exact hevent

theorem Fenced.aside (hl : l.Fenced) (h : l.Aside l') : l'.Fenced where
  once := by
    rw [h.metered]
    exact hl.once
  linked := by
    rw [h.metered, usageLogOf_congr h.receipts]
    exact hl.linked
  handedOff := by
    rw [h.handedOff, usageLogOf_congr h.receipts]
    exact hl.handedOff
  outbox := h.outbox.distinct hl.outbox

end Ledger

theorem HandedAgain.grows {event : MeteredEvent Usage} {id : Int} (h : HandedAgain event id l l') :
    l.Grows l' where
  links key id hlink := by
    rw [h.links]
    exact hlink
  metered := by rw [h.metered]
  outbox := by
    rw [h.settler]
    exact .refl _
  handedOff other hother := by
    rw [h.handedOff]
    exact List.mem_cons_of_mem _ hother

theorem HandedFirst.grows {event : MeteredEvent Usage} {now : Instant}
    (h : HandedFirst event now l l') : l.Grows l' where
  links key id hlink := by
    have hne : key ≠ event.eventKey := by
      rintro rfl
      rw [h.unlinked] at hlink
      cases hlink
    rw [h.links, Function.update_of_ne hne]
    exact hlink
  metered := by
    rw [h.metered]
    exact List.prefix_append _ _
  outbox := by
    obtain ⟨log, -, hsettler⟩ := h.settler
    have hinsert := Settler.rowsKept_insertOutbox (l.settler.record log) l.serial
      event.reservationKey now
    rw [Settler.record_outbox] at hinsert
    rw [hsettler]
    exact hinsert
  handedOff other hother := by
    rw [h.handedOff]
    exact List.mem_cons_of_mem _ hother

theorem HandedAgain.fenced {event : MeteredEvent Usage} {id : Int} (h : HandedAgain event id l l')
    (hl : l.Fenced) : l'.Fenced where
  once := by
    rw [h.metered]
    exact hl.once
  linked := by
    rw [h.metered, h.links]
    exact hl.linked
  handedOff := by
    rw [h.handedOff, h.links]
    intro other hother
    rcases List.mem_cons.mp hother with rfl | hold
    · rw [h.linked]
      rfl
    · exact hl.handedOff other hold
  outbox := by
    rw [h.settler]
    exact hl.outbox

theorem HandedFirst.fenced {event : MeteredEvent Usage} {now : Instant}
    (h : HandedFirst event now l l') (hl : l.Fenced) : l'.Fenced where
  once := by
    -- a key that was metered before would have a link
    have hnew : event.eventKey ∉ l.metered.map Prod.fst := by
      intro hmem
      obtain ⟨⟨key, id⟩, hpair, hkey⟩ := List.mem_map.mp hmem
      have hlink := hl.linked key id hpair
      rw [show key = event.eventKey from hkey, h.unlinked] at hlink
      cases hlink
    rw [h.metered, List.map_append]
    exact List.nodup_append_comm.mp (List.nodup_cons.mpr ⟨hnew, hl.once⟩)
  linked key id hpair := by
    rw [h.metered] at hpair
    rcases List.mem_append.mp hpair with hold | hnew
    · exact h.grows.links key id (hl.linked key id hold)
    · obtain ⟨rfl, rfl⟩ := Prod.mk.inj (List.mem_singleton.mp hnew)
      rw [h.links, Function.update_self]
  handedOff other hother := by
    rw [h.handedOff] at hother
    rcases List.mem_cons.mp hother with rfl | hold
    · rw [h.links, Function.update_self]
      rfl
    · obtain ⟨id, hlink⟩ := Option.isSome_iff_exists.mp (hl.handedOff other hold)
      rw [h.grows.links other.eventKey id hlink]
      rfl
  outbox := h.grows.outbox.distinct hl.outbox

variable {now : Instant} {event : MeteredEvent Usage} {handed : Handed}

theorem handoff_grows (h : Commits (handoff codec input now event) l handed l') : l.Grows l' := by
  rcases handoff_cases h with ⟨id, -, hagain⟩ | ⟨-, hfirst⟩
  · exact hagain.grows
  · exact hfirst.grows

theorem handoff_fenced (h : Commits (handoff codec input now event) l handed l') (hl : l.Fenced) :
    l'.Fenced := by
  rcases handoff_cases h with ⟨id, -, hagain⟩ | ⟨-, hfirst⟩
  · exact hagain.fenced hl
  · exact hfirst.fenced hl

theorem handoff_mem (h : Commits (handoff codec input now event) l handed l') :
    event ∈ l'.handedOff := by
  rcases handoff_cases h with ⟨id, -, hagain⟩ | ⟨-, hfirst⟩
  · rw [hagain.handedOff]
    exact List.mem_cons_self
  · rw [hfirst.handedOff]
    exact List.mem_cons_self

/-- A key that was handed over has its usage log: nothing is inserted for it
any more, whatever the payload. -/
theorem Ledger.Fenced.handoff_again (hl : l.Fenced) {other : MeteredEvent Usage}
    (hother : other ∈ l.handedOff) (hkey : other.eventKey = event.eventKey)
    (h : Commits (handoff codec input now event) l handed l') :
    l'.metered = l.metered ∧ l'.settler = l.settler := by
  rcases handoff_cases h with ⟨id, -, hagain⟩ | ⟨-, hfirst⟩
  · exact ⟨hagain.metered, hagain.settler⟩
  · have hlink := hl.handedOff other hother
    rw [hkey, hfirst.unlinked] at hlink
    cases hlink

end Conduit.UsageRecovery
