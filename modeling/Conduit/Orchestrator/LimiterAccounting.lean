import Conduit.Orchestrator.ChannelLimiter

/-!
# The limiter's counters count what they say

`active` is the number of permits out, `queued` the number of slots still
waiting, neither ever wraps, and `admitted` counts immediate admissions and
queue reservations. The carrying fact is about the flags, not the counters:
a slot its owner still holds is released exactly when it has timed out, and
a permit its owner still holds is not released (`Accounting.slotFlag`,
`Accounting.permitFlag`), so each way out of the queue decrements once.
-/

namespace Conduit.Orchestrator

open Base

namespace World

/-- Permits issued and not yet given back. -/
def livePermits (w : World) : Nat := w.permits.countWhere (·.held)

/-- Slots that are neither promoted nor timed out nor released. -/
def waitingSlots (w : World) : Nat := w.slots.countWhere SlotHandle.waiting

/-- Permits issued without waiting in the queue. -/
def immediateAdmissions (w : World) : Nat := w.permits.countWhere (·.promotedFrom.isNone)

end World

/-- The accounting invariant of hard mode. -/
structure Accounting (c : ChannelLimiterConfig) (w : World) : Prop where
  active_eq : w.limiter.active = w.livePermits
  active_le : w.limiter.active ≤ c.maxConcurrent
  queued_eq : w.limiter.queued = w.waitingSlots
  queued_le : w.limiter.queued ≤ c.queueSize
  admitted_eq :
    w.limiter.admitted = (w.immediateAdmissions + w.slots.length) % usizeModulus
  slotFlag : ∀ (i : Nat) (h : SlotHandle), w.slots[i]? = some h → h.held = true →
    h.slot.released = h.timedOut
  permitFlag : ∀ (i : Nat) (h : PermitHandle), w.permits[i]? = some h → h.held = true →
    h.permit.released = false

theorem fetchAdd_mod (n : Nat) : fetchAdd (n % usizeModulus) = (n + 1) % usizeModulus := by
  simp [fetchAdd]

/-! ## One step at a time -/

namespace Accounting

variable {c : ChannelLimiterConfig} {w : World}

theorem initial : Accounting c .init where
  active_eq := rfl
  active_le := Nat.zero_le _
  queued_eq := rfl
  queued_le := Nat.zero_le _
  admitted_eq := rfl
  slotFlag i h hget := absurd hget (by simp [World.init])
  permitFlag i h hget := absurd hget (by simp [World.init])

/-- A waiting slot is counted, so giving it up cannot wrap. -/
theorem queued_pos (hw : Accounting c w) {i : Nat} {h : SlotHandle}
    (hget : w.slots[i]? = some h) (hheld : h.held = true) (hreleased : h.slot.released = false) :
    0 < w.limiter.queued := by
  rw [hw.queued_eq]
  refine Nat.pos_of_ne_zero fun hzero => ?_
  have hflag := hw.slotFlag i h hget hheld
  have hnot := Table.countWhere_eq_zero.mp hzero i h hget
  rw [hreleased] at hflag
  simp [SlotHandle.waiting, hheld, ← hflag] at hnot

theorem active_pos (hw : Accounting c w) {i : Nat} {h : PermitHandle}
    (hget : w.permits[i]? = some h) (hheld : h.held = true) : 0 < w.limiter.active := by
  rw [hw.active_eq]
  refine Nat.pos_of_ne_zero fun hzero => ?_
  exact absurd hheld (by simp [Table.countWhere_eq_zero.mp hzero i h hget])

/-- The queue counter after a held slot stops waiting: the flag on the slot
and the history of the slot agree on whether it is still counted. -/
theorem queued_update (hw : Accounting c w) {i : Nat} {h : SlotHandle}
    {g : SlotHandle → SlotHandle} (hget : w.slots[i]? = some h) (hheld : h.held = true)
    (hg : (g h).waiting = false) :
    (if h.slot.released then w.limiter.queued else fetchSub w.limiter.queued) =
        (w.slots.updateRow i g).countWhere SlotHandle.waiting ∧
      (w.slots.updateRow i g).countWhere SlotHandle.waiting ≤ w.limiter.queued := by
  have hcount := Table.countWhere_updateRow g SlotHandle.waiting hget
  have hflag := hw.slotFlag i h hget hheld
  have hq := hw.queued_eq
  unfold World.waitingSlots at hq
  cases hreleased : h.slot.released with
  | true =>
      have hwait : h.waiting = false := by
        rw [hreleased] at hflag
        simp [SlotHandle.waiting, ← hflag]
      simp only [hwait, hg, Bool.false_eq_true, if_false, Nat.add_zero] at hcount
      simp only [if_true]
      omega
  | false =>
      have hwait : h.waiting = true := by
        rw [hreleased] at hflag
        simp [SlotHandle.waiting, hheld, ← hflag]
      have hpos := hw.queued_pos hget hheld hreleased
      simp only [hwait, hg, Bool.false_eq_true, if_true, if_false, Nat.add_zero] at hcount
      simp only [Bool.false_eq_true, if_false, fetchSub, Nat.ne_of_gt hpos]
      omega

theorem metrics (hw : Accounting c w) {s : ChannelLimiterState}
    (hs : SameCounts w.limiter s) : Accounting c { w with limiter := s } where
  active_eq := hs.active.trans hw.active_eq
  active_le := hs.active ▸ hw.active_le
  queued_eq := hs.queued.trans hw.queued_eq
  queued_le := hs.queued ▸ hw.queued_le
  admitted_eq := hs.admitted.trans hw.admitted_eq
  slotFlag := hw.slotFlag
  permitFlag := hw.permitFlag

/-- An immediate admission. -/
theorem admission (hw : Accounting c w) {s : ChannelLimiterState}
    (hfree : w.limiter.active < c.maxConcurrent)
    (hs : SameCounts { w.limiter with
      active := w.limiter.active + 1, admitted := fetchAdd w.limiter.admitted } s) :
    Accounting c (w.issuePermit .new none s) where
  active_eq := by
    have := hw.active_eq
    simpa [World.issuePermit, World.livePermits, hs.active] using this
  active_le := by
    show s.active ≤ _
    rw [hs.active]
    exact hfree
  queued_eq := hs.queued.trans hw.queued_eq
  queued_le := by
    show s.queued ≤ _
    rw [hs.queued]
    exact hw.queued_le
  admitted_eq := by
    show s.admitted = _
    rw [hs.admitted]
    show fetchAdd w.limiter.admitted = _
    rw [hw.admitted_eq, fetchAdd_mod]
    simp [World.issuePermit, World.immediateAdmissions, Nat.add_right_comm]
  slotFlag := hw.slotFlag
  permitFlag i h hget hheld := by
    rcases Table.getElem?_insertRow_cases hget with ⟨-, rfl⟩ | hold
    · rfl
    · exact hw.permitFlag i h hold hheld

/-- A queue reservation. -/
theorem enqueue (hw : Accounting c w) {s : ChannelLimiterState} {slot : ChannelQueueSlot}
    (hroom : w.limiter.queued < c.queueSize) (hnew : slot.released = false)
    (hs : SameCounts { w.limiter with
      queued := w.limiter.queued + 1, admitted := fetchAdd w.limiter.admitted } s) :
    Accounting c (w.issueSlot slot s) where
  active_eq := hs.active.trans hw.active_eq
  active_le := by
    show s.active ≤ _
    rw [hs.active]
    exact hw.active_le
  queued_eq := by
    have := hw.queued_eq
    simpa [World.issueSlot, World.waitingSlots, SlotHandle.waiting, hs.queued] using this
  queued_le := by
    show s.queued ≤ _
    rw [hs.queued]
    exact hroom
  admitted_eq := by
    show s.admitted = _
    rw [hs.admitted]
    show fetchAdd w.limiter.admitted = _
    rw [hw.admitted_eq, fetchAdd_mod]
    simp [World.issueSlot, World.immediateAdmissions, Nat.add_assoc]
  slotFlag i h hget hheld := by
    rcases Table.getElem?_insertRow_cases hget with ⟨-, rfl⟩ | hold
    · exact hnew
    · exact hw.slotFlag i h hold hheld
  permitFlag := hw.permitFlag

/-- The slots change at one key only, so the flags need checking there only. -/
theorem slotFlag_update (hw : Accounting c w) {i : Nat} {h : SlotHandle}
    {g : SlotHandle → SlotHandle} (hget : w.slots[i]? = some h)
    (hg : (g h).held = true → (g h).slot.released = (g h).timedOut) (j : Nat) (h' : SlotHandle)
    (hget' : (w.slots.updateRow i g)[j]? = some h') (hheld : h'.held = true) :
    h'.slot.released = h'.timedOut := by
  rcases Table.getElem?_updateRow_cases hget' with ⟨rfl, y, hy, rfl⟩ | ⟨-, hold⟩
  · obtain rfl : h = y := Option.some.inj (hget.symm.trans hy)
    exact hg hheld
  · exact hw.slotFlag j h' hold hheld

/-- A promotion moves one caller from the queue to the permits. -/
theorem promote (hw : Accounting c w) {i : Nat} {h : SlotHandle} {s : ChannelLimiterState}
    (hget : w.slots[i]? = some h) (hheld : h.held = true)
    (hfree : w.limiter.active < c.maxConcurrent)
    (hs : SameCounts { w.limiter with
      active := w.limiter.active + 1
      queued := if h.slot.released then w.limiter.queued else fetchSub w.limiter.queued } s) :
    Accounting c ((w.leaveSlot i s).issuePermit .new (some i) s) := by
  have hq := hw.queued_update (g := fun h => { h with held := false }) hget hheld
    (by simp [SlotHandle.waiting])
  exact
    { active_eq := by
        have := hw.active_eq
        simpa [World.issuePermit, World.leaveSlot, World.livePermits, hs.active] using this
      active_le := by
        show s.active ≤ _
        rw [hs.active]
        exact hfree
      queued_eq := hs.queued.trans hq.1
      queued_le := by
        show s.queued ≤ _
        rw [hs.queued]
        show (if h.slot.released then w.limiter.queued else fetchSub w.limiter.queued) ≤ _
        have := hw.queued_le
        omega
      admitted_eq := by
        show s.admitted = _
        rw [hs.admitted]
        show w.limiter.admitted = _
        rw [hw.admitted_eq]
        simp [World.issuePermit, World.leaveSlot, World.immediateAdmissions]
      slotFlag := hw.slotFlag_update hget (fun hfalse => absurd hfalse (by simp))
      permitFlag := fun j h' hget' hheld' => by
        rcases Table.getElem?_insertRow_cases hget' with ⟨-, rfl⟩ | hold
        · rfl
        · exact hw.permitFlag j h' hold hheld' }

/-- A slot that keeps its flags keeps its count. -/
theorem mark (hw : Accounting c w) {i : Nat} {h h' : SlotHandle}
    (hget : w.slots[i]? = some h) (hheld : h.held = true) (hheld' : h'.held = true)
    (hreleased : h'.slot.released = h.slot.released) (htimedOut : h'.timedOut = h.timedOut) :
    Accounting c { w with slots := w.slots.updateRow i fun _ => h' } where
  active_eq := hw.active_eq
  active_le := hw.active_le
  queued_eq := by
    have hcount := Table.countWhere_updateRow (fun _ => h') SlotHandle.waiting hget
    have hwait : h'.waiting = h.waiting := by
      simp [SlotHandle.waiting, hheld, hheld', htimedOut]
    rw [hwait] at hcount
    exact hw.queued_eq.trans (Nat.add_right_cancel hcount).symm
  queued_le := hw.queued_le
  admitted_eq := by
    rw [hw.admitted_eq]
    simp [World.immediateAdmissions]
  slotFlag := hw.slotFlag_update hget fun _ => by
    rw [hreleased, htimedOut, hw.slotFlag i h hget hheld]
  permitFlag := hw.permitFlag

/-- A slot that stops waiting, whatever happens to its owner. -/
theorem stopWaiting (hw : Accounting c w) {i : Nat} {h : SlotHandle}
    {g : SlotHandle → SlotHandle} {s : ChannelLimiterState}
    (hget : w.slots[i]? = some h) (hheld : h.held = true) (hwait : (g h).waiting = false)
    (hflag : (g h).held = true → (g h).slot.released = (g h).timedOut)
    (hs : SameCounts { w.limiter with
      queued := if h.slot.released then w.limiter.queued else fetchSub w.limiter.queued } s) :
    Accounting c { w with limiter := s, slots := w.slots.updateRow i g } := by
  have hq := hw.queued_update hget hheld hwait
  exact
    { active_eq := hs.active.trans hw.active_eq
      active_le := by
        show s.active ≤ _
        rw [hs.active]
        exact hw.active_le
      queued_eq := hs.queued.trans hq.1
      queued_le := by
        show s.queued ≤ _
        rw [hs.queued]
        show (if h.slot.released then w.limiter.queued else fetchSub w.limiter.queued) ≤ _
        have := hw.queued_le
        omega
      admitted_eq := by
        show s.admitted = _
        rw [hs.admitted]
        show w.limiter.admitted = _
        rw [hw.admitted_eq]
        simp [World.immediateAdmissions]
      slotFlag := hw.slotFlag_update hget hflag
      permitFlag := hw.permitFlag }

/-- A permit given back by its owner. -/
theorem giveBack (hw : Accounting c w) {i : Nat} {h : PermitHandle} {s : ChannelLimiterState}
    (hget : w.permits[i]? = some h) (hheld : h.held = true)
    (hs : SameCounts { w.limiter with
      active := if h.permit.released then w.limiter.active else fetchSub w.limiter.active } s) :
    Accounting c (w.leavePermit i s) := by
  have hpos := hw.active_pos hget hheld
  have hactive : s.active = w.limiter.active - 1 := by
    rw [hs.active]
    simp [hw.permitFlag i h hget hheld, fetchSub, Nat.ne_of_gt hpos]
  have hlive := Table.countWhere_updateRow (fun h => { h with held := false })
    (fun h : PermitHandle => h.held) hget
  have himmediate := Table.countWhere_updateRow (fun h => { h with held := false })
    (fun h : PermitHandle => h.promotedFrom.isNone) hget
  simp only [hheld, if_true, Bool.false_eq_true, if_false, Nat.add_zero] at hlive
  exact
    { active_eq := by
        have heq := hw.active_eq
        show s.active = (w.permits.updateRow i _).countWhere _
        unfold World.livePermits at heq
        omega
      active_le := by
        have := hw.active_le
        show s.active ≤ _
        omega
      queued_eq := hs.queued.trans hw.queued_eq
      queued_le := by
        show s.queued ≤ _
        rw [hs.queued]
        exact hw.queued_le
      admitted_eq := by
        show s.admitted = _
        rw [hs.admitted]
        show w.limiter.admitted = _
        rw [hw.admitted_eq]
        show (w.permits.countWhere _ + _) % _ = ((w.permits.updateRow i _).countWhere _ + _) % _
        rw [Nat.add_right_cancel himmediate]
        rfl
      slotFlag := hw.slotFlag
      permitFlag := fun j h' hget' hheld' => by
        rcases Table.getElem?_updateRow_cases hget' with ⟨rfl, y, hy, rfl⟩ | ⟨-, hold⟩
        · exact absurd hheld' (by simp)
        · exact hw.permitFlag j h' hold hheld' }

/-- Every effect of a step keeps the accounting. -/
theorem effect {w' : World} (hw : Accounting c w) (he : Effect c w w') : Accounting c w' := by
  cases he with
  | metrics s hs => exact hw.metrics hs
  | admission s hfree hs => exact hw.admission hfree hs
  | enqueue s slot hroom hnew hs => exact hw.enqueue hroom hnew hs
  | promote i h s hget hheld hfree hs => exact hw.promote hget hheld hfree hs
  | mark i h h' hget hheld hheld' hreleased htimedOut =>
      exact hw.mark hget hheld hheld' hreleased htimedOut
  | timeout i h h' s hget hheld hheld' hreleased htimedOut hs =>
      exact hw.stopWaiting hget hheld (by simp [SlotHandle.waiting, htimedOut])
        (fun _ => by rw [hreleased, htimedOut]) hs
  | leave i h s hget hheld hs =>
      exact hw.stopWaiting hget hheld (by simp [SlotHandle.waiting])
        (fun hfalse => absurd hfalse (by simp)) hs
  | giveBack i h s hget hheld hs => exact hw.giveBack hget hheld hs

end Accounting

/-- The accounting holds in every reachable state of a hard limiter. -/
theorem accounting_inductive {c : ChannelLimiterConfig} (hmode : c.mode = .hard) :
    (limiterSys c).Inductive (Accounting c) where
  init := .initial
  step w a hw := hw.effect (World.step_effect hmode w a)

/-! ## The accounting of a run -/

/-- After any run of a hard limiter the gauges equal the true counts and stay
within the configured bounds, no release can wrap a gauge, and `admitted`
counts immediate admissions and queue reservations. -/
theorem limiter_accounting {c : ChannelLimiterConfig} (hmode : c.mode = .hard)
    (as : List LimiterAction) :
    let w := (limiterSys c).run .init as
    w.limiter.active = w.livePermits ∧ w.limiter.active ≤ c.maxConcurrent ∧
      w.limiter.queued = w.waitingSlots ∧ w.limiter.queued ≤ c.queueSize ∧
      (∀ (i : Nat) (h : SlotHandle), w.slots[i]? = some h → h.held = true →
        h.slot.released = false → 0 < w.limiter.queued) ∧
      (∀ (i : Nat) (h : PermitHandle), w.permits[i]? = some h → h.held = true →
        h.permit.released = false ∧ 0 < w.limiter.active) ∧
      w.limiter.admitted = (w.immediateAdmissions + w.slots.length) % usizeModulus := by
  intro w
  have hw : Accounting c w := (accounting_inductive hmode).run as .init .initial
  exact ⟨hw.active_eq, hw.active_le, hw.queued_eq, hw.queued_le,
    fun i h => hw.queued_pos,
    fun i h hget hheld => ⟨hw.permitFlag i h hget hheld, hw.active_pos hget hheld⟩,
    hw.admitted_eq⟩

/-- One permit, one place in the queue, a timeout of five milliseconds. -/
def onePlace : ChannelLimiterConfig :=
  ⟨1, 1, 5, by decide, by decide⟩

/-- One caller is admitted, the next waits. -/
theorem limiter_accounting_onePlace :
    let w := (limiterSys onePlace).run .init [.tryAcquireOrEnqueue 0, .tryAcquireOrEnqueue 0]
    w.limiter.active = 1 ∧ w.limiter.queued = 1 ∧
      w.limiter.admitted = (w.immediateAdmissions + w.slots.length) % usizeModulus := by
  have h := limiter_accounting (c := onePlace) rfl
    [.tryAcquireOrEnqueue 0, .tryAcquireOrEnqueue 0]
  exact ⟨rfl, rfl, h.2.2.2.2.2.2⟩

/-- A caller still waiting is counted as admitted before any permit is issued
for it, and a slot whose wait has timed out can still be promoted. -/
theorem waiting_caller_counted_as_admitted :
    let queued := (limiterSys onePlace).run .init
      [.tryAcquireOrEnqueue 0, .tryAcquireOrEnqueue 0]
    let timedOut := (limiterSys onePlace).step queued (.checkTimeout 0 5 5)
    let promoted := (limiterSys onePlace).run timedOut [.dropPermit 0, .tryPromoteAt 0 none]
    onePlace.mode = .hard ∧ queued.limiter.admitted = 2 ∧ queued.permits.length = 1 ∧
      timedOut.slots.map (·.timedOut) = [true] ∧
      promoted.permits.map (·.promotedFrom) = [none, some 0] := by
  decide

end Conduit.Orchestrator
