import Conduit.Base.TSys
import Conduit.Base.Table

/-!
# The per-channel admission limiter

`ChannelLimiter` hands out permits up to `maxConcurrent`; in hard mode a
caller that finds none free may take one of `queueSize` places in the wait
queue and later try to promote itself. The limiter keeps counters only:
whether a place has been given back is a flag on the place.

* the functions of the source, one definition each, over an explicit
  `ChannelLimiterState`. A compare-and-swap loop is its successful round,
  so every body is one atomic step;
* `World`: the limiter together with every permit and queue slot it ever
  issued, and `limiterSys`, in which callers act on them in any order;
* `Effect`: everything one step can do to a `World`, and `step_effect`, from
  which the accounting and the fairness results are derived.
-/

namespace Conduit.Orchestrator

open Base

/-- `usize` counters wrap at this modulus. -/
def usizeModulus : Nat := 2 ^ 64

/-- `AtomicUsize::fetch_add(1)`. -/
def fetchAdd (n : Nat) : Nat := (n + 1) % usizeModulus

/-- `AtomicUsize::fetch_sub(1)`: wraps below zero. -/
def fetchSub (n : Nat) : Nat := if n = 0 then usizeModulus - 1 else n - 1

/-! ## Configuration and state -/

structure ChannelLimiterConfig where
  maxConcurrent : Nat
  queueSize : Nat
  queueTimeoutMs : Nat
  maxConcurrent_lt : maxConcurrent < usizeModulus
  queueSize_lt : queueSize < usizeModulus

inductive ChannelLimiterMode
  | soft
  | hard
deriving DecidableEq, Repr

/-- `queue_size == 0` selects soft mode. -/
def ChannelLimiterConfig.mode (c : ChannelLimiterConfig) : ChannelLimiterMode :=
  if c.queueSize = 0 then .soft else .hard

inductive ChannelLimiterError
  | channelQueueTimeout
  | queueFull
deriving DecidableEq, Repr

/-- The `Display` text of an error. -/
def ChannelLimiterError.message : ChannelLimiterError → String
  | .channelQueueTimeout => "channel queue timed out"
  | .queueFull => "channel queue is full"

structure ChannelLimiterState where
  active : Nat
  queued : Nat
  admitted : Nat
  rejected : Nat
  timeout : Nat
  lastWaitMs : Nat
deriving DecidableEq, Repr

def ChannelLimiterState.default : ChannelLimiterState := ⟨0, 0, 0, 0, 0, 0⟩

/-! ## Permits -/

structure ChannelPermit where
  released : Bool
deriving DecidableEq, Repr

namespace ChannelPermit

def new : ChannelPermit := ⟨false⟩

def releaseOnce (p : ChannelPermit) (s : ChannelLimiterState) :
    ChannelPermit × ChannelLimiterState :=
  if p.released then (p, s) else ({ released := true }, { s with active := fetchSub s.active })

def drop (p : ChannelPermit) (s : ChannelLimiterState) : ChannelLimiterState :=
  (p.releaseOnce s).2

/-- Takes the permit by value, so `Drop` runs after the explicit release. -/
def release (p : ChannelPermit) (s : ChannelLimiterState) : ChannelLimiterState :=
  let r := p.releaseOnce s
  r.1.drop r.2

end ChannelPermit

/-! ## Queue slots -/

structure ChannelQueueSlot where
  enqueuedAtMs : Nat
  stamped : Bool
  released : Bool
deriving DecidableEq, Repr

namespace ChannelQueueSlot

def new : ChannelQueueSlot := ⟨0, false, false⟩

def stampEnqueuedAt (slot : ChannelQueueSlot) (nowMs : Nat) : ChannelQueueSlot :=
  if slot.stamped then slot else { slot with enqueuedAtMs := nowMs, stamped := true }

def releaseOnce (slot : ChannelQueueSlot) (s : ChannelLimiterState) :
    ChannelQueueSlot × ChannelLimiterState :=
  if slot.released then (slot, s)
  else ({ slot with released := true }, { s with queued := fetchSub s.queued })

def drop (slot : ChannelQueueSlot) (s : ChannelLimiterState) : ChannelLimiterState :=
  (slot.releaseOnce s).2

/-- Takes the slot by value, so `Drop` runs after the explicit release. -/
def release (slot : ChannelQueueSlot) (s : ChannelLimiterState) : ChannelLimiterState :=
  let r := slot.releaseOnce s
  r.1.drop r.2

/-- Releases the slot once its wait has reached `queueTimeoutMs`; the caller
keeps the released slot. -/
def checkTimeout (slot : ChannelQueueSlot) (nowMs queueTimeoutMs : Nat)
    (s : ChannelLimiterState) :
    Option ChannelLimiterError × ChannelQueueSlot × ChannelLimiterState :=
  if queueTimeoutMs = 0 ∨ slot.stamped = false then (none, slot, s)
  else if nowMs - slot.enqueuedAtMs < queueTimeoutMs then (none, slot, s)
  else
    let r := slot.releaseOnce s
    (some .channelQueueTimeout, r.1, { r.2 with timeout := fetchAdd r.2.timeout })

end ChannelQueueSlot

inductive AcquireOutcome
  | admitted (permit : ChannelPermit)
  | queued (slot : ChannelQueueSlot)
deriving DecidableEq, Repr

/-! ## Acquiring -/

namespace ChannelLimiterConfig

variable (c : ChannelLimiterConfig) (s : ChannelLimiterState)

/-- Soft mode counts and never refuses. -/
def admitSoft : ChannelLimiterState :=
  { s with active := fetchAdd s.active, admitted := fetchAdd s.admitted }

def rejectQueueFull : ChannelLimiterState := { s with rejected := fetchAdd s.rejected }

def tryTakeFreeSlotHard : Option ChannelPermit × ChannelLimiterState :=
  if c.maxConcurrent ≤ s.active then (none, s)
  else (some .new, { s with active := s.active + 1, admitted := fetchAdd s.admitted })

/-- Promotion does not count an admission again. -/
def tryTakeFreeSlotHardForPromotion : Option ChannelPermit × ChannelLimiterState :=
  if c.maxConcurrent ≤ s.active then (none, s)
  else (some .new, { s with active := s.active + 1 })

def reserveQueueSlotLocked : Except ChannelLimiterError ChannelQueueSlot × ChannelLimiterState :=
  if c.queueSize ≤ s.queued then (.error .queueFull, rejectQueueFull s)
  else (.ok .new, { s with queued := s.queued + 1, admitted := fetchAdd s.admitted })

def tryAcquireHard : Except ChannelLimiterError ChannelPermit × ChannelLimiterState :=
  match c.tryTakeFreeSlotHard s with
  | (some permit, s') => (.ok permit, s')
  | (none, s') => (.error .queueFull, rejectQueueFull s')

def tryAcquire : Except ChannelLimiterError ChannelPermit × ChannelLimiterState :=
  match c.mode with
  | .soft => (.ok .new, admitSoft s)
  | .hard => c.tryAcquireHard s

def tryAcquireOrEnqueue (nowMs : Nat) :
    Except ChannelLimiterError AcquireOutcome × ChannelLimiterState :=
  match c.mode with
  | .soft => (.ok (.admitted .new), admitSoft s)
  | .hard =>
      match c.tryTakeFreeSlotHard s with
      | (some permit, s') => (.ok (.admitted permit), s')
      | (none, s') =>
          if c.queueSize = 0 then (.error .queueFull, rejectQueueFull s')
          else
            match c.reserveQueueSlotLocked s' with
            | (.ok slot, s'') => (.ok (.queued (slot.stampEnqueuedAt nowMs)), s'')
            | (.error e, s'') => (.error e, s'')

/-- The legacy entry point: a place in the queue with no stamp. -/
def tryReserveQueueSlot : Except ChannelLimiterError ChannelQueueSlot × ChannelLimiterState :=
  if c.queueSize = 0 then (.error .queueFull, rejectQueueFull s)
  else c.reserveQueueSlotLocked s

/-- On success the slot is consumed; on failure it is handed back. -/
def tryPromoteAt (slot : ChannelQueueSlot) (nowMs : Option Nat) :
    Except (ChannelQueueSlot × ChannelLimiterError) (ChannelPermit × Nat) ×
      ChannelLimiterState :=
  match c.tryTakeFreeSlotHardForPromotion s with
  | (some permit, s') =>
      match nowMs with
      | some now =>
          let observed := now - (if slot.stamped then slot.enqueuedAtMs else 0)
          (.ok (permit, observed), slot.release { s' with lastWaitMs := observed })
      | none => (.ok (permit, 0), slot.release s')
  | (none, s') => (.error (slot, .queueFull), s')

end ChannelLimiterConfig

/-! ## The limiter and its callers -/

/-- A permit ever issued: `held` until its owner releases or drops it,
`promotedFrom` the queue slot it was promoted from, if any. -/
structure PermitHandle where
  permit : ChannelPermit
  held : Bool
  promotedFrom : Option Nat
deriving DecidableEq, Repr

/-- A queue slot ever issued: `held` until it is promoted, released or
dropped, `timedOut` once `checkTimeout` has reported its timeout. -/
structure SlotHandle where
  slot : ChannelQueueSlot
  held : Bool
  timedOut : Bool
deriving DecidableEq, Repr

/-- A slot that is neither promoted nor timed out nor released. -/
def SlotHandle.waiting (h : SlotHandle) : Bool := h.held && !h.timedOut

/-- Slot ids follow the order in which the slots were issued. -/
structure World where
  limiter : ChannelLimiterState
  permits : Table PermitHandle
  slots : Table SlotHandle
deriving DecidableEq, Repr

inductive LimiterAction
  | tryAcquire
  | tryAcquireOrEnqueue (nowMs : Nat)
  | tryReserveQueueSlot
  | stampEnqueuedAt (slot nowMs : Nat)
  | tryPromoteAt (slot : Nat) (nowMs : Option Nat)
  | checkTimeout (slot nowMs queueTimeoutMs : Nat)
  | releaseSlot (slot : Nat)
  | dropSlot (slot : Nat)
  | releasePermit (permit : Nat)
  | dropPermit (permit : Nat)
deriving DecidableEq, Repr

namespace World

def init : World := ⟨.default, [], []⟩

def issuePermit (w : World) (permit : ChannelPermit) (promotedFrom : Option Nat)
    (s : ChannelLimiterState) : World :=
  { w with limiter := s, permits := w.permits.insertRow ⟨permit, true, promotedFrom⟩ }

def issueSlot (w : World) (slot : ChannelQueueSlot) (s : ChannelLimiterState) : World :=
  { w with limiter := s, slots := w.slots.insertRow ⟨slot, true, false⟩ }

/-- The owner of slot `i` gives it up. -/
def leaveSlot (w : World) (i : Nat) (s : ChannelLimiterState) : World :=
  { w with limiter := s, slots := w.slots.updateRow i fun h => { h with held := false } }

def leavePermit (w : World) (i : Nat) (s : ChannelLimiterState) : World :=
  { w with limiter := s, permits := w.permits.updateRow i fun h => { h with held := false } }

/-- A slot can be used only by a caller that still owns it. -/
def withSlot (w : World) (i : Nat) (f : SlotHandle → World) : World :=
  match w.slots[i]? with
  | some h => if h.held then f h else w
  | none => w

def withPermit (w : World) (i : Nat) (f : ChannelPermit → World) : World :=
  match w.permits[i]? with
  | some h => if h.held then f h.permit else w
  | none => w

def step (c : ChannelLimiterConfig) (w : World) : LimiterAction → World
  | .tryAcquire =>
      match c.tryAcquire w.limiter with
      | (.ok permit, s) => w.issuePermit permit none s
      | (.error _, s) => { w with limiter := s }
  | .tryAcquireOrEnqueue nowMs =>
      match c.tryAcquireOrEnqueue w.limiter nowMs with
      | (.ok (.admitted permit), s) => w.issuePermit permit none s
      | (.ok (.queued slot), s) => w.issueSlot slot s
      | (.error _, s) => { w with limiter := s }
  | .tryReserveQueueSlot =>
      match c.tryReserveQueueSlot w.limiter with
      | (.ok slot, s) => w.issueSlot slot s
      | (.error _, s) => { w with limiter := s }
  | .stampEnqueuedAt i nowMs =>
      w.withSlot i fun h =>
        { w with
          slots := w.slots.updateRow i fun _ => { h with slot := h.slot.stampEnqueuedAt nowMs } }
  | .tryPromoteAt i nowMs =>
      w.withSlot i fun h =>
        match c.tryPromoteAt w.limiter h.slot nowMs with
        | (.ok (permit, _), s) => (w.leaveSlot i s).issuePermit permit (some i) s
        | (.error _, s) => { w with limiter := s }
  | .checkTimeout i nowMs queueTimeoutMs =>
      w.withSlot i fun h =>
        match h.slot.checkTimeout nowMs queueTimeoutMs w.limiter with
        | (some _, slot, s) =>
            { w with
              limiter := s
              slots := w.slots.updateRow i fun _ => { h with slot := slot, timedOut := true } }
        | (none, slot, s) =>
            { w with
              limiter := s, slots := w.slots.updateRow i fun _ => { h with slot := slot } }
  | .releaseSlot i => w.withSlot i fun h => w.leaveSlot i (h.slot.release w.limiter)
  | .dropSlot i => w.withSlot i fun h => w.leaveSlot i (h.slot.drop w.limiter)
  | .releasePermit i => w.withPermit i fun permit => w.leavePermit i (permit.release w.limiter)
  | .dropPermit i => w.withPermit i fun permit => w.leavePermit i (permit.drop w.limiter)

end World

/-- The limiter with configuration `c` and any number of callers. -/
def limiterSys (c : ChannelLimiterConfig) : TSys World LimiterAction where
  init := .init
  step := World.step c

/-! ## What one step can do -/

/-- The counters a step may read: `rejected`, `timeout` and `lastWaitMs` are
written only. -/
structure SameCounts (s s' : ChannelLimiterState) : Prop where
  active : s'.active = s.active
  queued : s'.queued = s.queued
  admitted : s'.admitted = s.admitted

/-- The effects of a step in hard mode, with the guards under which they
happen. -/
inductive Effect (c : ChannelLimiterConfig) (w : World) : World → Prop
  | metrics (s : ChannelLimiterState) (hs : SameCounts w.limiter s) :
      Effect c w { w with limiter := s }
  | admission (s : ChannelLimiterState) (hfree : w.limiter.active < c.maxConcurrent)
      (hs : SameCounts { w.limiter with
        active := w.limiter.active + 1, admitted := fetchAdd w.limiter.admitted } s) :
      Effect c w (w.issuePermit .new none s)
  | enqueue (s : ChannelLimiterState) (slot : ChannelQueueSlot)
      (hroom : w.limiter.queued < c.queueSize) (hnew : slot.released = false)
      (hs : SameCounts { w.limiter with
        queued := w.limiter.queued + 1, admitted := fetchAdd w.limiter.admitted } s) :
      Effect c w (w.issueSlot slot s)
  | promote (i : Nat) (h : SlotHandle) (s : ChannelLimiterState)
      (hget : w.slots[i]? = some h) (hheld : h.held = true)
      (hfree : w.limiter.active < c.maxConcurrent)
      (hs : SameCounts { w.limiter with
        active := w.limiter.active + 1
        queued := if h.slot.released then w.limiter.queued else fetchSub w.limiter.queued } s) :
      Effect c w ((w.leaveSlot i s).issuePermit .new (some i) s)
  | mark (i : Nat) (h h' : SlotHandle) (hget : w.slots[i]? = some h)
      (hheld : h.held = true) (hheld' : h'.held = true)
      (hreleased : h'.slot.released = h.slot.released) (htimedOut : h'.timedOut = h.timedOut) :
      Effect c w { w with slots := w.slots.updateRow i fun _ => h' }
  | timeout (i : Nat) (h h' : SlotHandle) (s : ChannelLimiterState)
      (hget : w.slots[i]? = some h) (hheld : h.held = true) (hheld' : h'.held = true)
      (hreleased : h'.slot.released = true) (htimedOut : h'.timedOut = true)
      (hs : SameCounts { w.limiter with
        queued := if h.slot.released then w.limiter.queued else fetchSub w.limiter.queued } s) :
      Effect c w { w with limiter := s, slots := w.slots.updateRow i fun _ => h' }
  | leave (i : Nat) (h : SlotHandle) (s : ChannelLimiterState)
      (hget : w.slots[i]? = some h) (hheld : h.held = true)
      (hs : SameCounts { w.limiter with
        queued := if h.slot.released then w.limiter.queued else fetchSub w.limiter.queued } s) :
      Effect c w (w.leaveSlot i s)
  | giveBack (i : Nat) (h : PermitHandle) (s : ChannelLimiterState)
      (hget : w.permits[i]? = some h) (hheld : h.held = true)
      (hs : SameCounts { w.limiter with
        active := if h.permit.released then w.limiter.active else fetchSub w.limiter.active } s) :
      Effect c w (w.leavePermit i s)

namespace SameCounts

@[simp] theorem refl (s : ChannelLimiterState) : SameCounts s s := ⟨rfl, rfl, rfl⟩

end SameCounts

/-- `release` is one `releaseOnce`: the `Drop` behind it finds the flag set. -/
theorem ChannelQueueSlot.release_eq_drop (slot : ChannelQueueSlot) (s : ChannelLimiterState) :
    slot.release s = slot.drop s := by
  unfold release drop
  cases h : slot.released <;> simp [releaseOnce, h]

theorem ChannelPermit.release_eq_drop (p : ChannelPermit) (s : ChannelLimiterState) :
    p.release s = p.drop s := by
  unfold release drop
  cases h : p.released <;> simp [releaseOnce, h]

theorem ChannelQueueSlot.drop_counts (slot : ChannelQueueSlot) (s : ChannelLimiterState) :
    SameCounts { s with queued := if slot.released then s.queued else fetchSub s.queued }
      (slot.drop s) := by
  unfold drop releaseOnce
  cases h : slot.released <;> constructor <;> simp

theorem ChannelPermit.drop_counts (p : ChannelPermit) (s : ChannelLimiterState) :
    SameCounts { s with active := if p.released then s.active else fetchSub s.active }
      (p.drop s) := by
  unfold drop releaseOnce
  cases h : p.released <;> constructor <;> simp

theorem ChannelQueueSlot.stampEnqueuedAt_released (slot : ChannelQueueSlot) (nowMs : Nat) :
    (slot.stampEnqueuedAt nowMs).released = slot.released := by
  unfold stampEnqueuedAt
  split <;> rfl

/-- Either nothing happens, or the slot is released and the timeout reported. -/
theorem ChannelQueueSlot.checkTimeout_cases (slot : ChannelQueueSlot)
    (nowMs queueTimeoutMs : Nat) (s : ChannelLimiterState) :
    slot.checkTimeout nowMs queueTimeoutMs s = (none, slot, s) ∨
      ∃ slot' s', slot.checkTimeout nowMs queueTimeoutMs s =
          (some .channelQueueTimeout, slot', s') ∧ slot'.released = true ∧
        SameCounts { s with queued := if slot.released then s.queued else fetchSub s.queued }
          s' := by
  unfold checkTimeout
  split
  · exact .inl rfl
  · split
    · exact .inl rfl
    · refine .inr ⟨_, _, rfl, ?_, ?_⟩
      · unfold releaseOnce
        cases h : slot.released <;> simp [h]
      · have hd := slot.drop_counts s
        exact ⟨hd.active, hd.queued, hd.admitted⟩

namespace ChannelLimiterConfig

variable {c : ChannelLimiterConfig}

theorem queueSize_pos (hmode : c.mode = .hard) : 0 < c.queueSize := by
  unfold mode at hmode
  split at hmode
  · exact absurd hmode (by simp)
  · omega

theorem reserveQueueSlotLocked_cases (s : ChannelLimiterState) :
    (∃ s', c.reserveQueueSlotLocked s = (.error .queueFull, s') ∧ SameCounts s s') ∨
      (c.reserveQueueSlotLocked s = (.ok .new, { s with
        queued := s.queued + 1, admitted := fetchAdd s.admitted }) ∧ s.queued < c.queueSize) := by
  unfold reserveQueueSlotLocked
  split
  · exact .inl ⟨_, rfl, rfl, rfl, rfl⟩
  · exact .inr ⟨rfl, by omega⟩

theorem tryTakeFreeSlotHard_cases (s : ChannelLimiterState) :
    c.tryTakeFreeSlotHard s = (none, s) ∧ c.maxConcurrent ≤ s.active ∨
      c.tryTakeFreeSlotHard s = (some .new, { s with
        active := s.active + 1, admitted := fetchAdd s.admitted }) ∧
        s.active < c.maxConcurrent := by
  unfold tryTakeFreeSlotHard
  split
  · exact .inl ⟨rfl, by omega⟩
  · exact .inr ⟨rfl, by omega⟩

/-- Promotion takes a free permit and gives the place in the queue back, or
hands the slot back unchanged. -/
theorem tryPromoteAt_cases (s : ChannelLimiterState) (slot : ChannelQueueSlot)
    (nowMs : Option Nat) :
    c.tryPromoteAt s slot nowMs = (.error (slot, .queueFull), s) ∧
        c.maxConcurrent ≤ s.active ∨
      ∃ waitMs s', c.tryPromoteAt s slot nowMs = (.ok (.new, waitMs), s') ∧
        s.active < c.maxConcurrent ∧
        SameCounts { s with
          active := s.active + 1
          queued := if slot.released then s.queued else fetchSub s.queued } s' := by
  unfold tryPromoteAt tryTakeFreeSlotHardForPromotion
  split
  · next h =>
      split at h
      · exact absurd h (by simp)
      · obtain ⟨rfl, rfl⟩ := Prod.mk.inj h |>.imp_left Option.some.inj
        refine .inr ?_
        cases nowMs with
        | none =>
            refine ⟨_, _, rfl, by omega, ?_⟩
            rw [slot.release_eq_drop]
            have hd := slot.drop_counts { s with active := s.active + 1 }
            exact ⟨hd.active, hd.queued, hd.admitted⟩
        | some now =>
            refine ⟨_, _, rfl, by omega, ?_⟩
            rw [slot.release_eq_drop]
            have hd := slot.drop_counts { s with
              active := s.active + 1
              lastWaitMs := now - (if slot.stamped then slot.enqueuedAtMs else 0) }
            exact ⟨hd.active, hd.queued, hd.admitted⟩
  · next h =>
      split at h
      · next hle =>
          obtain ⟨-, rfl⟩ := Prod.mk.inj h
          exact .inl ⟨rfl, hle⟩
      · exact absurd h (by simp)

end ChannelLimiterConfig

namespace World

/-- A caller that does not own its slot does nothing. -/
theorem withSlot_cases (w : World) (i : Nat) (f : SlotHandle → World) :
    w.withSlot i f = w ∨
      ∃ h, w.slots[i]? = some h ∧ h.held = true ∧ w.withSlot i f = f h := by
  unfold withSlot
  cases hget : w.slots[i]? with
  | none => exact .inl rfl
  | some h =>
      cases hheld : h.held with
      | false => exact .inl (by simp [hheld])
      | true => exact .inr ⟨h, rfl, hheld, by simp [hheld]⟩

theorem withPermit_cases (w : World) (i : Nat) (f : ChannelPermit → World) :
    w.withPermit i f = w ∨
      ∃ h, w.permits[i]? = some h ∧ h.held = true ∧ w.withPermit i f = f h.permit := by
  unfold withPermit
  cases hget : w.permits[i]? with
  | none => exact .inl rfl
  | some h =>
      cases hheld : h.held with
      | false => exact .inl (by simp [hheld])
      | true => exact .inr ⟨h, rfl, hheld, by simp [hheld]⟩

variable {c : ChannelLimiterConfig}

theorem effect_refl (w : World) : Effect c w w := .metrics w.limiter (.refl _)

section Steps

attribute [local simp] step

theorem step_tryAcquire (hmode : c.mode = .hard) (w : World) :
    Effect c w (w.step c .tryAcquire) := by
  simp only [step, ChannelLimiterConfig.tryAcquire, hmode, ChannelLimiterConfig.tryAcquireHard]
  rcases ChannelLimiterConfig.tryTakeFreeSlotHard_cases (c := c) w.limiter with
    ⟨h, -⟩ | ⟨h, hfree⟩
  · rw [h]
    exact .metrics _ ⟨rfl, rfl, rfl⟩
  · rw [h]
    exact .admission _ hfree (.refl _)

theorem step_tryAcquireOrEnqueue (hmode : c.mode = .hard) (w : World) (nowMs : Nat) :
    Effect c w (w.step c (.tryAcquireOrEnqueue nowMs)) := by
  have hsize := ChannelLimiterConfig.queueSize_pos hmode
  simp only [step, ChannelLimiterConfig.tryAcquireOrEnqueue, hmode]
  rcases ChannelLimiterConfig.tryTakeFreeSlotHard_cases (c := c) w.limiter with
    ⟨h, -⟩ | ⟨h, hfree⟩
  · simp only [h, Nat.ne_of_gt hsize, if_false]
    rcases ChannelLimiterConfig.reserveQueueSlotLocked_cases (c := c) w.limiter with
      ⟨s', h', hs⟩ | ⟨h', hroom⟩
    · rw [h']
      exact .metrics _ hs
    · rw [h']
      exact .enqueue _ _ hroom (ChannelQueueSlot.stampEnqueuedAt_released _ _) (.refl _)
  · rw [h]
    exact .admission _ hfree (.refl _)

theorem step_tryReserveQueueSlot (hmode : c.mode = .hard) (w : World) :
    Effect c w (w.step c .tryReserveQueueSlot) := by
  have hsize := ChannelLimiterConfig.queueSize_pos hmode
  simp only [step, ChannelLimiterConfig.tryReserveQueueSlot, Nat.ne_of_gt hsize, if_false]
  rcases ChannelLimiterConfig.reserveQueueSlotLocked_cases (c := c) w.limiter with
    ⟨s', h', hs⟩ | ⟨h', hroom⟩
  · rw [h']
    exact .metrics _ hs
  · rw [h']
    exact .enqueue _ _ hroom rfl (.refl _)

theorem step_stampEnqueuedAt (w : World) (i nowMs : Nat) :
    Effect c w (w.step c (.stampEnqueuedAt i nowMs)) := by
  simp only [step]
  rcases w.withSlot_cases i _ with heq | ⟨h, hget, hheld, heq⟩
  · rw [heq]
    exact effect_refl w
  · rw [heq]
    exact .mark i h _ hget hheld hheld (ChannelQueueSlot.stampEnqueuedAt_released _ _) rfl

theorem step_tryPromoteAt (w : World) (i : Nat) (nowMs : Option Nat) :
    Effect c w (w.step c (.tryPromoteAt i nowMs)) := by
  simp only [step]
  rcases w.withSlot_cases i _ with heq | ⟨h, hget, hheld, heq⟩
  · rw [heq]
    exact effect_refl w
  · rw [heq]
    rcases ChannelLimiterConfig.tryPromoteAt_cases (c := c) w.limiter h.slot nowMs with
      ⟨hp, -⟩ | ⟨waitMs, s', hp, hfree, hs⟩
    · rw [hp]
      exact effect_refl w
    · rw [hp]
      exact .promote i h s' hget hheld hfree hs

theorem step_checkTimeout (w : World) (i nowMs queueTimeoutMs : Nat) :
    Effect c w (w.step c (.checkTimeout i nowMs queueTimeoutMs)) := by
  simp only [step]
  rcases w.withSlot_cases i _ with heq | ⟨h, hget, hheld, heq⟩
  · rw [heq]
    exact effect_refl w
  · rw [heq]
    rcases h.slot.checkTimeout_cases nowMs queueTimeoutMs w.limiter with
      hc | ⟨slot', s', hc, hreleased, hs⟩
    · rw [hc]
      exact .mark i h h hget hheld hheld rfl rfl
    · rw [hc]
      exact .timeout i h _ s' hget hheld hheld hreleased rfl hs

theorem step_dropSlot (w : World) (i : Nat) : Effect c w (w.step c (.dropSlot i)) := by
  simp only [step]
  rcases w.withSlot_cases i _ with heq | ⟨h, hget, hheld, heq⟩
  · rw [heq]
    exact effect_refl w
  · rw [heq]
    exact .leave i h _ hget hheld (h.slot.drop_counts _)

theorem step_dropPermit (w : World) (i : Nat) : Effect c w (w.step c (.dropPermit i)) := by
  simp only [step]
  rcases w.withPermit_cases i _ with heq | ⟨h, hget, hheld, heq⟩
  · rw [heq]
    exact effect_refl w
  · rw [heq]
    exact .giveBack i h _ hget hheld (h.permit.drop_counts _)

/-- Every step in hard mode has one of the effects. -/
theorem step_effect (hmode : c.mode = .hard) (w : World) (a : LimiterAction) :
    Effect c w (w.step c a) := by
  cases a with
  | tryAcquire => exact step_tryAcquire hmode w
  | tryAcquireOrEnqueue nowMs => exact step_tryAcquireOrEnqueue hmode w nowMs
  | tryReserveQueueSlot => exact step_tryReserveQueueSlot hmode w
  | stampEnqueuedAt i nowMs => exact step_stampEnqueuedAt w i nowMs
  | tryPromoteAt i nowMs => exact step_tryPromoteAt w i nowMs
  | checkTimeout i nowMs queueTimeoutMs => exact step_checkTimeout w i nowMs queueTimeoutMs
  | releaseSlot i =>
      simp only [step, ChannelQueueSlot.release_eq_drop]
      exact step_dropSlot w i
  | dropSlot i => exact step_dropSlot w i
  | releasePermit i =>
      simp only [step, ChannelPermit.release_eq_drop]
      exact step_dropPermit w i
  | dropPermit i => exact step_dropPermit w i

end Steps

end World

end Conduit.Orchestrator
