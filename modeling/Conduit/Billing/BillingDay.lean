import Conduit.Base.Gregorian
import Conduit.Billing.Periods

/-!
# The billing day

`chrono` is the calendar of the time library. A subscription is moved from one
boundary to the next, so a boundary in a short month takes later ones along:
the periods are sound whatever the dates, but the boundaries are the shifts of
the first one only where no boundary falls into a month longer than the one
before (up to the day).
-/

namespace Conduit.Billing

open Base Base.Gregorian Transaction

/-! ## The calendar of the time library -/

def i32Max : Nat := 2147483647

/-- The same time of another day. -/
def onDay (t : Instant) (day : Int) : Instant := day * microsPerDay + t % microsPerDay

def dayNumber (t : Instant) : Int := t / microsPerDay

theorem microsPerDay_pos : 0 < microsPerDay := by
  unfold microsPerDay
  omega

theorem dayNumber_onDay (t : Instant) (day : Int) : dayNumber (onDay t day) = day := by
  unfold dayNumber onDay microsPerDay
  omega

theorem onDay_onDay (t : Instant) (day other : Int) : onDay (onDay t day) other = onDay t other := by
  unfold onDay
  rw [Int.add_comm (day * _), Int.add_mul_emod_self_right, Int.emod_emod]

theorem onDay_dayNumber (t : Instant) : onDay t (dayNumber t) = t :=
  Int.ediv_mul_add_emod t microsPerDay

theorem onDay_lt {t : Instant} {day : Int} (h : dayNumber t < day) : t < onDay t day := by
  unfold dayNumber at h
  unfold onDay
  have hsplit : t / microsPerDay * microsPerDay + t % microsPerDay = t :=
    Int.ediv_mul_add_emod t microsPerDay
  have hday : t / microsPerDay * microsPerDay < day * microsPerDay :=
    (Int.mul_lt_mul_right microsPerDay_pos).mpr h
  calc t = t / microsPerDay * microsPerDay + t % microsPerDay := hsplit.symm
    _ < day * microsPerDay + t % microsPerDay := Int.add_lt_add_right hday _

theorem onDay_inj {t : Instant} {day other : Int} : onDay t day = onDay t other ↔ day = other := by
  refine ⟨fun h => ?_, fun h => h ▸ rfl⟩
  rw [← dayNumber_onDay t day, h, dayNumber_onDay]

/-- `checked_add_months`. -/
def checkedAddMonths (t : Instant) (count : Nat) : Option Instant :=
  if count ≤ i32Max ∧ (monthOf (dayNumber t) + count) / 12 ≤ maxYear then
    some (onDay t (addMonths (dayNumber t) count))
  else none

theorem checkedAddMonths_later (t : Instant) (count : Nat) (u : Instant) (hcount : 0 < count)
    (h : checkedAddMonths t count = some u) : t < u := by
  unfold checkedAddMonths at h
  split_ifs at h
  rw [← Option.some.inj h]
  exact onDay_lt (lt_addMonths (by omega))

/-- The calendar of the time library. -/
def chrono : Calendar where
  minInstant := yearStart minYear * microsPerDay
  maxInstant := yearStart (maxYear + 1) * microsPerDay - 1
  addMonths := checkedAddMonths
  addMonths_later := checkedAddMonths_later

/-! ## Shifts of the first boundary -/

/-- The months of an interval; `Months::new` takes a `u32`. -/
def Subscription.months (s : Subscription) : Nat :=
  match s.intervalUnit with
  | .day => 0
  | .month => s.intervalCount.toNat
  | .year => min (s.intervalCount.toNat * 12) u32Max

def Subscription.startDay (s : Subscription) : Int := dayNumber s.currentPeriodStart

/-- The start of the current period, shifted by some intervals at once. -/
def Subscription.shiftedStart (s : Subscription) (k : Nat) : Instant :=
  onDay s.currentPeriodStart (addMonths s.startDay (k * s.months))

/-- The calendar goes as far as this boundary. -/
def Subscription.Reaches (s : Subscription) (k : Nat) : Prop :=
  s.months ≤ i32Max ∧ (monthOf s.startDay + k * s.months) / 12 ≤ maxYear

/-- The current period is one interval long, and, up to the day of its start,
no later boundary falls into a longer month than the one before it. -/
def Subscription.NoLongerMonth (s : Subscription) : Prop :=
  s.intervalUnit ≠ .day → s.currentPeriodEnd = s.shiftedStart 1 ∧
    ∀ k : Nat, 1 ≤ k → s.Reaches (k + 1) →
      min (dayOf s.startDay) (monthLength (monthOf s.startDay + (k + 1 : Nat) * s.months)) ≤
        monthLength (monthOf s.startDay + k * s.months)

section Shifts

variable {s : Subscription}

theorem nextPeriod_months (hunit : s.intervalUnit ≠ .day) (t : Instant) :
    chrono.nextPeriod t s.intervalUnit s.intervalCount.toNat = checkedAddMonths t s.months := by
  unfold Calendar.nextPeriod Subscription.months
  cases hcase : s.intervalUnit with
  | day => exact absurd hcase hunit
  | month => rfl
  | year => rfl

theorem shiftedStart_zero : s.shiftedStart 0 = s.currentPeriodStart := by
  unfold Subscription.shiftedStart
  rw [show ((0 : Nat) : Int) * s.months = 0 from Int.zero_mul _, addMonths_zero]
  exact onDay_dayNumber _

/-- One interval more. -/
theorem nextPeriod_shiftedStart (hunit : s.intervalUnit ≠ .day) (k : Nat) (b : Instant) :
    chrono.nextPeriod (s.shiftedStart k) s.intervalUnit s.intervalCount.toNat = some b ↔
      s.Reaches (k + 1) ∧
        b = onDay s.currentPeriodStart (addMonths (addMonths s.startDay (k * s.months)) s.months) := by
  have hmonth : monthOf s.startDay + k * s.months + s.months =
      monthOf s.startDay + (k + 1 : Nat) * s.months := by
    push_cast
    ring
  rw [nextPeriod_months hunit]
  unfold checkedAddMonths Subscription.Reaches Subscription.shiftedStart
  rw [dayNumber_onDay, onDay_onDay, monthOf_addMonths, hmonth]
  by_cases hreach : s.months ≤ i32Max ∧
      (monthOf s.startDay + (k + 1 : Nat) * s.months) / 12 ≤ maxYear
  · rw [if_pos hreach, Option.some.injEq, and_iff_right hreach, eq_comm]
  · rw [if_neg hreach]
    exact iff_of_false (by simp) fun h => hreach h.1

/-- It is the shift by one more exactly if the month was long enough. -/
theorem nextShift_eq_iff (k : Nat) :
    onDay s.currentPeriodStart (addMonths (addMonths s.startDay (k * s.months)) s.months) =
        s.shiftedStart (k + 1) ↔
      min (dayOf s.startDay) (monthLength (monthOf s.startDay + (k + 1 : Nat) * s.months)) ≤
        monthLength (monthOf s.startDay + k * s.months) := by
  have hcount : ((k + 1 : Nat) : Int) * s.months = k * s.months + s.months := by
    push_cast
    ring
  unfold Subscription.shiftedStart
  rw [onDay_inj, hcount]
  exact addMonths_addMonths_eq_iff ..

theorem reaches_of_succ {k : Nat} (h : s.Reaches (k + 1)) : s.Reaches k := by
  obtain ⟨hmonths, hyear⟩ := h
  refine ⟨hmonths, le_trans (Int.ediv_le_ediv (by decide) ?_) hyear⟩
  push_cast
  nlinarith

/-- Every boundary is the shift of the first one. -/
theorem boundary_eq_shiftedStart (hunit : s.intervalUnit ≠ .day) (h : s.NoLongerMonth) (k : Nat)
    (b : Instant) (hb : s.boundary chrono k = some b) : b = s.shiftedStart k := by
  obtain ⟨hfirst, hlonger⟩ := h hunit
  induction k generalizing b with
  | zero => rw [shiftedStart_zero, ← Option.some.inj hb]
  | succ k ih =>
      cases k with
      | zero => rw [← hfirst, ← Option.some.inj hb]
      | succ k =>
          unfold Subscription.boundary at hb
          obtain ⟨a, ha, hnext⟩ := Option.bind_eq_some_iff.mp hb
          rw [ih a ha] at hnext
          obtain ⟨hreach, hshift⟩ := (nextPeriod_shiftedStart hunit (k + 1) b).mp hnext
          rw [hshift]
          exact (nextShift_eq_iff (k + 1)).mpr (hlonger (k + 1) (by omega) hreach)

/-- As far as the calendar goes, there is a boundary. -/
theorem boundary_of_reaches (hunit : s.intervalUnit ≠ .day)
    (hshift : ∀ (k : Nat) (b : Instant), s.boundary chrono k = some b → b = s.shiftedStart k)
    {k : Nat} (hk : 1 ≤ k) (hreach : s.Reaches k) : s.boundary chrono k = some (s.shiftedStart k) := by
  induction k with
  | zero => omega
  | succ k ih =>
      cases k with
      | zero => rw [← hshift 1 s.currentPeriodEnd rfl]; rfl
      | succ k =>
          have hnext := (nextPeriod_shiftedStart hunit (k + 1) _).mpr ⟨hreach, rfl⟩
          have hbound : s.boundary chrono (k + 2) = some (onDay s.currentPeriodStart
              (addMonths (addMonths s.startDay ((k + 1 : Nat) * s.months)) s.months)) := by
            unfold Subscription.boundary
            rw [ih (by omega) (reaches_of_succ hreach), Option.bind_some]
            exact hnext
          rw [hbound, hshift _ _ hbound]

theorem noLongerMonth_of_shifts
    (hshift : s.intervalUnit ≠ .day → ∀ (k : Nat) (b : Instant),
      s.boundary chrono k = some b → b = s.shiftedStart k) : s.NoLongerMonth := by
  intro hunit
  refine ⟨hshift hunit 1 _ rfl, fun k hk hreach => (nextShift_eq_iff k).mp ?_⟩
  have hbefore := boundary_of_reaches hunit (hshift hunit) hk (reaches_of_succ hreach)
  have hnext := (nextPeriod_shiftedStart hunit k _).mpr ⟨hreach, rfl⟩
  refine hshift hunit (k + 1) _ ?_
  obtain ⟨j, rfl⟩ : ∃ j, k = j + 1 := ⟨k - 1, by omega⟩
  unfold Subscription.boundary
  rw [hbefore, Option.bind_some]
  exact hnext

/-- A day that every month has is kept. -/
theorem noLongerMonth_of_day_le (hfirst : s.currentPeriodEnd = s.shiftedStart 1)
    (hday : dayOf s.startDay ≤ 28) : s.NoLongerMonth := by
  refine fun _ => ⟨hfirst, fun k _ _ => (min_le_left _ _).trans (hday.trans ?_)⟩
  exact (monthLength_bounds _).1

end Shifts

/-! ## The theorem -/

/-- Refreshes in the order of their clocks, from the start of the current
period on. -/
def InOrder (s : Subscription) (calls : List RefreshCall) : Prop :=
  (calls.map RefreshCall.now).Pairwise (· ≤ ·) ∧ ∀ call ∈ calls, s.currentPeriodStart ≤ call.now

/-- The periods of a subscription, over any refreshes: they are consecutive
boundaries throughout, a refresh that succeeds leaves the one around its clock,
whatever came before it, one that fails changes nothing, and boundaries keep
the day of the first one. -/
structure Subscription.PeriodsSound (s : Subscription) : Prop where
  consecutive : ∀ (db : Db) (id : Nat) (calls : List RefreshCall),
    db.subscriptions[id]? = some s → InOrder s calls →
    ∃ (k : Nat) (start fin : Instant),
      (refreshAll chrono id db calls).subscriptions[id]? = some (s.withPeriod start fin) ∧
        s.IsPeriod chrono k start fin
  inForce : ∀ (db db' : Db) (id : Nat) (calls : List RefreshCall) (call : RefreshCall),
    db.subscriptions[id]? = some s → InOrder s (calls ++ [call]) →
    Commits (call.run chrono id) (refreshAll chrono id db calls) () db' →
    InForce chrono s id call.now db'
  independent : ∀ (db db₁ db₂ : Db) (id : Nat) (calls others : List RefreshCall)
    (call other : RefreshCall), db.subscriptions[id]? = some s → call.now = other.now →
    InOrder s (calls ++ [call]) → InOrder s (others ++ [other]) →
    Commits (call.run chrono id) (refreshAll chrono id db calls) () db₁ →
    Commits (other.run chrono id) (refreshAll chrono id db others) () db₂ →
    db₁.subscriptions[id]? = db₂.subscriptions[id]?
  failed : ∀ (db : Db) (id : Nat) (calls : List RefreshCall) (catalog : Catalog) (now : Instant)
    (e : TxError), db.subscriptions[id]? = some s → InOrder s calls →
    refreshLocked chrono catalog true id now (refreshAll chrono id db calls) = .error e →
    RefreshFailure e ∧ (refreshLocked chrono catalog true id now).commit (refreshAll chrono id db calls) =
      refreshAll chrono id db calls
  billingDay : s.intervalUnit ≠ .day → ∀ (k : Nat) (b : Instant),
    s.boundary chrono k = some b → b = s.shiftedStart k

section Sound

variable {s : Subscription} {db : Db} {id : Nat} {calls : List RefreshCall}

theorem atPeriod_of_row (hrow : db.subscriptions[id]? = some s) :
    AtPeriod chrono s id s.currentPeriodStart db :=
  ⟨0, s.currentPeriodStart, s.currentPeriodEnd, hrow, ⟨rfl, rfl⟩, le_rfl⟩

/-- After any refreshes in order, the period is one that has begun. -/
theorem atPeriod_of_inOrder (hcount : 0 < s.intervalCount) {now : Instant}
    (hrow : db.subscriptions[id]? = some s) (horder : InOrder s calls)
    (hnow : ∀ call ∈ calls, call.now ≤ now) (hle : s.currentPeriodStart ≤ now) :
    AtPeriod chrono s id now (refreshAll chrono id db calls) :=
  atPeriod_refreshAll hcount horder.1 horder.2 hnow hle (atPeriod_of_row hrow)

theorem inForce_of_inOrder (hcount : 0 < s.intervalCount) {call : RefreshCall} {db' : Db}
    (hrow : db.subscriptions[id]? = some s) (horder : InOrder s (calls ++ [call]))
    (h : Commits (call.run chrono id) (refreshAll chrono id db calls) () db') :
    InForce chrono s id call.now db' := by
  obtain ⟨hsorted, hstart⟩ := horder
  rw [List.map_append, List.pairwise_append] at hsorted
  refine inForce_of_commits hcount le_rfl
    (atPeriod_of_inOrder hcount hrow ⟨hsorted.1, fun c hmem => hstart c (List.mem_append_left _ hmem)⟩
      (fun c hmem => ?_) (hstart call (List.mem_append_right _ (List.mem_singleton.mpr rfl)))) h
  exact hsorted.2.2 _ (List.mem_map_of_mem hmem) _ (List.mem_singleton.mpr rfl)

theorem exists_atPeriod (hcount : 0 < s.intervalCount) (hrow : db.subscriptions[id]? = some s)
    (horder : InOrder s calls) : ∃ now : Instant, AtPeriod chrono s id now (refreshAll chrono id db calls) := by
  rcases List.eq_nil_or_concat calls with rfl | ⟨earlier, last, rfl⟩
  · exact ⟨s.currentPeriodStart, atPeriod_of_row hrow⟩
  · obtain ⟨hsorted, hstart⟩ := horder
    refine ⟨last.now, atPeriod_of_inOrder hcount hrow ⟨hsorted, hstart⟩ (fun call hmem => ?_)
      (hstart last (by simp))⟩
    rw [List.concat_eq_append, List.map_append, List.pairwise_append] at hsorted
    rw [List.concat_eq_append] at hmem
    rcases List.mem_append.mp hmem with hearlier | hlast
    · exact hsorted.2.2 _ (List.mem_map_of_mem hearlier) _ (List.mem_singleton.mpr rfl)
    · rw [List.mem_singleton.mp hlast]

/-- The periods are sound exactly if no boundary takes a longer month's day
away. -/
theorem subscription_periods_sound_iff (s : Subscription) (hcount : 0 < s.intervalCount)
    (hperiod : s.currentPeriodStart < s.currentPeriodEnd)
    (hstatus : s.status = .active ∨ s.status = .paused) : s.PeriodsSound ↔ s.NoLongerMonth := by
  constructor
  · exact fun h => noLongerMonth_of_shifts h.billingDay
  · intro h
    refine ⟨?_, fun db db' id calls call hrow horder hcommits =>
      inForce_of_inOrder hcount hrow horder hcommits, ?_, ?_,
      fun hunit k b hb => boundary_eq_shiftedStart hunit h k b hb⟩
    · intro db id calls hrow horder
      obtain ⟨now, k, start, fin, hrow', hat, -⟩ := exists_atPeriod hcount hrow horder
      exact ⟨k, start, fin, hrow', hat⟩
    · -- both leave the one period around the same clock
      intro db db₁ db₂ id calls others call other hrow hnow horder horder' hcommits hcommits'
      obtain ⟨j, start, fin, hrow₁, hat, hin⟩ := inForce_of_inOrder hcount hrow horder hcommits
      obtain ⟨k, start', fin', hrow₂, hat', hin'⟩ := inForce_of_inOrder hcount hrow horder' hcommits'
      obtain ⟨rfl, rfl⟩ := IsPeriod.unique hcount hperiod hat hat' hin (hnow ▸ hin')
      rw [hrow₁, hrow₂]
    · intro db id calls catalog now e hrow horder herror
      obtain ⟨before, k, start, fin, hrow', -, -⟩ := exists_atPeriod hcount hrow horder
      refine ⟨refreshLocked_error (s := s.withPeriod start fin) hcount hrow' hstatus herror, ?_⟩
      unfold Transaction.commit
      rw [herror]

/-- A monthly subscription of the middle of a month. -/
def midMonthSubscription : Subscription where
  userId := 1
  projectId := 1
  planId := 1
  assignmentKey := "assignment"
  assignmentRequest := ⟨1, 1, 1, true, none, none⟩
  status := .active
  currentPeriodStart := ofMonth (12 * 2026) 15 * microsPerDay
  currentPeriodEnd := ofMonth (12 * 2026 + 1) 15 * microsPerDay
  intervalUnit := .month
  intervalCount := 1
  autoRenew := true

/-- One of the last day of January. -/
def lastDaySubscription : Subscription :=
  { midMonthSubscription with
    currentPeriodStart := ofMonth (12 * 2026) 31 * microsPerDay
    currentPeriodEnd := ofMonth (12 * 2026 + 1) 28 * microsPerDay }

theorem subscription_periods_sound_sample : midMonthSubscription.PeriodsSound :=
  (subscription_periods_sound_iff midMonthSubscription (by decide) (by decide) (.inl rfl)).mpr
    (noLongerMonth_of_day_le (by decide) (by decide))

/-- The boundaries of a subscription of 31 January: 28 February, then 28 March
and not 31 March. -/
theorem billing_day_lost :
    0 < lastDaySubscription.intervalCount ∧
      lastDaySubscription.currentPeriodStart < lastDaySubscription.currentPeriodEnd ∧
      lastDaySubscription.status = .active ∧ ¬ lastDaySubscription.PeriodsSound := by
  refine ⟨by decide, by decide, rfl, fun h => ?_⟩
  have hmarch := h.billingDay (by decide) 2 (ofMonth (12 * 2026 + 2) 28 * microsPerDay)
    (by decide)
  exact absurd hmarch (by decide)

end Sound

end Conduit.Billing
