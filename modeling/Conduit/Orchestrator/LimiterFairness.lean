import Conduit.Orchestrator.LimiterAccounting

/-!
# When the wait queue is first come, first served

The queue of a hard limiter is a counter, and a permit goes to whichever
caller asks first once one is free. So a run serves its callers in order of
arrival exactly when nobody asks out of turn while a permit is free
(`InTurn`): the state a caller finds decides, not what it is promised.
-/

namespace Conduit.Orchestrator

open Base

/-- Slot `i` is still waiting. -/
def World.Waiting (w : World) (i : Nat) : Prop :=
  ∃ h, w.slots[i]? = some h ∧ h.waiting = true

/-- A step from `w` to `w'` grants in order of arrival: a permit it issues
to a new arrival finds nobody waiting, and one it issues to a queue slot goes
to a waiting slot with no earlier one. -/
def GrantsInOrder (w w' : World) : Prop :=
  ∀ p, w'.permits[w.permits.length]? = some p →
    match p.promotedFrom with
    | none => ∀ i, ¬w.Waiting i
    | some i => w.Waiting i ∧ ∀ j, j < i → ¬w.Waiting j

/-- The caller of `a` does not ask out of turn: while a permit is free, a new
arrival asks only when the queue counter is zero, and a queue slot asks only
when it has not been released and every earlier slot still held has. -/
def InTurn (c : ChannelLimiterConfig) (w : World) : LimiterAction → Prop
  | .tryAcquire | .tryAcquireOrEnqueue _ =>
      w.limiter.active < c.maxConcurrent → w.limiter.queued = 0
  | .tryPromoteAt i _ =>
      w.limiter.active < c.maxConcurrent → ∀ h, w.slots[i]? = some h → h.held = true →
        h.slot.released = false ∧
          ∀ j h', j < i → w.slots[j]? = some h' → h'.held = true → h'.slot.released = true
  | _ => True

namespace Accounting

variable {c : ChannelLimiterConfig} {w : World}

/-- The flags on a slot tell whether it is waiting. -/
theorem waiting_iff (hw : Accounting c w) (i : Nat) :
    w.Waiting i ↔
      ∃ h, w.slots[i]? = some h ∧ h.held = true ∧ h.slot.released = false := by
  unfold World.Waiting SlotHandle.waiting
  refine exists_congr fun h => and_congr_right fun hget => ?_
  simp only [Bool.and_eq_true, Bool.not_eq_true']
  refine and_congr_right fun hheld => ?_
  rw [hw.slotFlag i h hget hheld]

/-- The queue counter tells whether anybody is waiting. -/
theorem queued_eq_zero_iff (hw : Accounting c w) :
    w.limiter.queued = 0 ↔ ∀ i, ¬w.Waiting i := by
  rw [hw.queued_eq]
  unfold World.waitingSlots
  rw [Table.countWhere_eq_zero]
  constructor
  · rintro h i ⟨x, hget, hwait⟩
    rw [h i x hget] at hwait
    exact absurd hwait (by simp)
  · intro h i x hget
    exact Bool.eq_false_iff.mpr fun hwait => h i ⟨x, hget, hwait⟩

end Accounting

/-! ## One step at a time -/

/-- A step that issues no permit grants in order. -/
theorem grantsInOrder_of_permits_length {w w' : World}
    (h : w'.permits.length = w.permits.length) : GrantsInOrder w w' := by
  intro p hp
  rw [List.getElem?_eq_none (Nat.le_of_eq h)] at hp
  exact absurd hp (by simp)

theorem grantsInOrder_arrival {w : World} (p : ChannelPermit) (s : ChannelLimiterState) :
    GrantsInOrder w (w.issuePermit p none s) ↔ ∀ i, ¬w.Waiting i := by
  have hnew := Table.getElem?_insertRow_self w.permits ⟨p, true, none⟩
  constructor
  · exact fun h => h _ hnew
  · intro h p' hp'
    obtain rfl := Option.some.inj (hnew.symm.trans hp')
    exact h

theorem grantsInOrder_promotion {w : World} (p : ChannelPermit) (i : Nat)
    (s : ChannelLimiterState) :
    GrantsInOrder w ((w.leaveSlot i s).issuePermit p (some i) s) ↔
      w.Waiting i ∧ ∀ j, j < i → ¬w.Waiting j := by
  have hnew := Table.getElem?_insertRow_self w.permits ⟨p, true, some i⟩
  constructor
  · exact fun h => h _ hnew
  · intro h p' hp'
    obtain rfl := Option.some.inj (hnew.symm.trans hp')
    exact h

namespace World

variable {c : ChannelLimiterConfig} {w : World}

/-- What an acquire call does: nothing to the permits while none is free, an
immediate admission otherwise. -/
theorem acquire_cases (hmode : c.mode = .hard) {a : LimiterAction}
    (ha : a = .tryAcquire ∨ ∃ nowMs, a = .tryAcquireOrEnqueue nowMs) :
    c.maxConcurrent ≤ w.limiter.active ∧ (w.step c a).permits = w.permits ∨
      w.limiter.active < c.maxConcurrent ∧
        ∃ s, w.step c a = w.issuePermit .new none s := by
  have hsize := ChannelLimiterConfig.queueSize_pos hmode
  rcases ChannelLimiterConfig.tryTakeFreeSlotHard_cases (c := c) w.limiter with
    ⟨h, hfull⟩ | ⟨h, hfree⟩
  · refine .inl ⟨hfull, ?_⟩
    rcases ha with rfl | ⟨nowMs, rfl⟩
    · simp only [step, ChannelLimiterConfig.tryAcquire, hmode,
        ChannelLimiterConfig.tryAcquireHard, h]
    · simp only [step, ChannelLimiterConfig.tryAcquireOrEnqueue, hmode, h,
        Nat.ne_of_gt hsize, if_false]
      rcases ChannelLimiterConfig.reserveQueueSlotLocked_cases (c := c) w.limiter with
        ⟨s', h', -⟩ | ⟨h', -⟩
      · rw [h']
      · rw [h']
        rfl
  · refine .inr ⟨hfree, ?_⟩
    rcases ha with rfl | ⟨nowMs, rfl⟩
    · simp only [step, ChannelLimiterConfig.tryAcquire, hmode,
        ChannelLimiterConfig.tryAcquireHard, h]
      exact ⟨_, rfl⟩
    · simp only [step, ChannelLimiterConfig.tryAcquireOrEnqueue, hmode, h]
      exact ⟨_, rfl⟩

/-- What a promotion attempt does: nothing to the permits, unless a permit
is free and the caller still owns its slot. -/
theorem promote_cases (w : World) (i : Nat) (nowMs : Option Nat) :
    (w.step c (.tryPromoteAt i nowMs)).permits = w.permits ∧
        (w.limiter.active < c.maxConcurrent → ∀ h, w.slots[i]? = some h → h.held = false) ∨
      ∃ h s, w.slots[i]? = some h ∧ h.held = true ∧ w.limiter.active < c.maxConcurrent ∧
        w.step c (.tryPromoteAt i nowMs) = (w.leaveSlot i s).issuePermit .new (some i) s := by
  cases hget : w.slots[i]? with
  | none => exact .inl ⟨by simp [step, withSlot, hget], fun _ h hh => absurd hh (by simp)⟩
  | some h =>
      cases hheld : h.held with
      | false =>
          refine .inl ⟨by simp [step, withSlot, hget, hheld], fun _ h' hh => ?_⟩
          rw [← Option.some.inj hh, hheld]
      | true =>
          rcases ChannelLimiterConfig.tryPromoteAt_cases (c := c) w.limiter h.slot nowMs with
            ⟨hp, hfull⟩ | ⟨waitMs, s', hp, hfree, -⟩
          · exact .inl ⟨by simp [step, withSlot, hget, hheld, hp],
              fun hfree => absurd hfree (by omega)⟩
          · exact .inr ⟨h, s', rfl, hheld, hfree, by simp [step, withSlot, hget, hheld, hp]⟩

/-- Only an acquire call or a promotion issues a permit. -/
theorem permits_length_of_other (w : World) {a : LimiterAction}
    (hacquire : a ≠ .tryAcquire) (henqueue : ∀ nowMs, a ≠ .tryAcquireOrEnqueue nowMs)
    (hpromote : ∀ i nowMs, a ≠ .tryPromoteAt i nowMs) :
    (w.step c a).permits.length = w.permits.length := by
  cases a with
  | tryAcquire => exact absurd rfl hacquire
  | tryAcquireOrEnqueue nowMs => exact absurd rfl (henqueue nowMs)
  | tryPromoteAt i nowMs => exact absurd rfl (hpromote i nowMs)
  | tryReserveQueueSlot =>
      simp only [step]
      split <;> rfl
  | stampEnqueuedAt i nowMs =>
      simp only [step, withSlot]
      split <;> [split; skip] <;> rfl
  | checkTimeout i nowMs queueTimeoutMs =>
      simp only [step, withSlot]
      split <;> [split <;> [split; skip]; skip] <;> rfl
  | releaseSlot i =>
      simp only [step, withSlot]
      split <;> [split; skip] <;> rfl
  | dropSlot i =>
      simp only [step, withSlot]
      split <;> [split; skip] <;> rfl
  | releasePermit i =>
      simp only [step, withPermit]
      split <;> [split; skip] <;> simp [leavePermit]
  | dropPermit i =>
      simp only [step, withPermit]
      split <;> [split; skip] <;> simp [leavePermit]

end World

namespace Accounting

variable {c : ChannelLimiterConfig} {w : World}

/-- A new arrival is served in order exactly when it arrives in turn. -/
theorem acquire_iff (hmode : c.mode = .hard) (hw : Accounting c w) {a : LimiterAction}
    (ha : a = .tryAcquire ∨ ∃ nowMs, a = .tryAcquireOrEnqueue nowMs) :
    GrantsInOrder w (w.step c a) ↔
      (w.limiter.active < c.maxConcurrent → w.limiter.queued = 0) := by
  rcases World.acquire_cases hmode ha with ⟨hfull, hsame⟩ | ⟨hfree, s, hstep⟩
  · exact iff_of_true (grantsInOrder_of_permits_length (by rw [hsame]))
      fun hfree => absurd hfree (by omega)
  · rw [hstep, grantsInOrder_arrival, ← hw.queued_eq_zero_iff]
    exact ⟨fun h _ => h, fun h => h hfree⟩

/-- A waiting caller is served in order exactly when it asks in turn. -/
theorem promote_iff (hw : Accounting c w) (i : Nat) (nowMs : Option Nat) :
    GrantsInOrder w (w.step c (.tryPromoteAt i nowMs)) ↔ InTurn c w (.tryPromoteAt i nowMs) := by
  rcases World.promote_cases (c := c) w i nowMs with
    ⟨hsame, hfree⟩ | ⟨h, s, hget, hheld, hfree, hstep⟩
  · refine iff_of_true (grantsInOrder_of_permits_length (by rw [hsame])) ?_
    intro hlt h hget hheld
    exact absurd hheld (by simp [hfree hlt h hget])
  · rw [hstep, grantsInOrder_promotion, hw.waiting_iff]
    constructor
    · rintro ⟨⟨h', hget', -, hreleased⟩, hfirst⟩ - h'' hget'' -
      obtain rfl : h' = h'' := Option.some.inj (hget'.symm.trans hget'')
      refine ⟨hreleased, fun j x hj hx hxheld => ?_⟩
      -- an earlier slot still held and not released would be waiting
      refine Bool.not_eq_false _ ▸ fun hnot => hfirst j hj ?_
      exact (hw.waiting_iff j).mpr ⟨x, hx, hxheld, hnot⟩
    · intro hturn
      obtain ⟨hreleased, hfirst⟩ := hturn hfree h hget hheld
      refine ⟨⟨h, hget, hheld, hreleased⟩, fun j hj hwait => ?_⟩
      obtain ⟨x, hx, hxheld, hnot⟩ := (hw.waiting_iff j).mp hwait
      exact absurd (hfirst j x hj hx hxheld) (by simp [hnot])

/-- A step grants in order exactly when its caller asks in turn. -/
theorem grantsInOrder_iff (hmode : c.mode = .hard) (hw : Accounting c w) (a : LimiterAction) :
    GrantsInOrder w (w.step c a) ↔ InTurn c w a := by
  cases a with
  | tryAcquire => exact hw.acquire_iff hmode (.inl rfl)
  | tryAcquireOrEnqueue nowMs => exact hw.acquire_iff hmode (.inr ⟨nowMs, rfl⟩)
  | tryPromoteAt i nowMs => exact hw.promote_iff i nowMs
  | _ =>
      exact iff_of_true
        (grantsInOrder_of_permits_length
          (w.permits_length_of_other (by simp) (by simp) (by simp))) trivial

end Accounting

/-! ## Runs -/

/-- A run of a hard limiter serves its callers in order of arrival exactly
when every caller asks in turn. -/
theorem served_in_order_iff_inTurn {c : ChannelLimiterConfig} (hmode : c.mode = .hard)
    (as : List LimiterAction) :
    (limiterSys c).Along (fun w a => GrantsInOrder w ((limiterSys c).step w a)) .init as ↔
      (limiterSys c).Along (InTurn c) .init as :=
  (accounting_inductive hmode).along_iff (fun _ a hw => hw.grantsInOrder_iff hmode a) as
    .init .initial

/-- The only waiting caller is promoted once the permit comes back. -/
theorem served_in_order_onePlace :
    (limiterSys onePlace).Along
      (fun w a => GrantsInOrder w ((limiterSys onePlace).step w a)) .init
      [.tryAcquireOrEnqueue 0, .tryAcquireOrEnqueue 1, .dropPermit 0,
        .tryPromoteAt 0 (some 2)] := by
  refine (served_in_order_iff_inTurn rfl _).mpr
    ⟨fun _ => rfl, fun hfree => absurd hfree (by decide), trivial, ?_, trivial⟩
  intro _ h hget _
  obtain rfl : (⟨⟨1, true, false⟩, true, false⟩ : SlotHandle) = h := Option.some.inj hget
  exact ⟨rfl, fun j _ hj => absurd hj (Nat.not_lt_zero j)⟩

/-- A new arrival takes the permit a waiting caller was queued for. -/
theorem arrival_overtakes_waiting_caller :
    onePlace.mode = .hard ∧
      ¬(limiterSys onePlace).Along
        (fun w a => GrantsInOrder w ((limiterSys onePlace).step w a)) .init
        [.tryAcquireOrEnqueue 0, .tryAcquireOrEnqueue 1, .dropPermit 0,
          .tryAcquireOrEnqueue 2] := by
  refine ⟨rfl, fun h => ?_⟩
  have hgrant := h.2.2.2.1 ⟨.new, true, none⟩ (by decide) 0
  exact hgrant ⟨⟨⟨1, true, false⟩, true, false⟩, by decide, by decide⟩

end Conduit.Orchestrator
