import Conduit.Quota.Window

/-!
# Calendar windows tile time

Days and months of an offset tile the instants (`cells`). Wherever the code
makes a calendar window, it is a run of these cells that ends with the one of
`now`; and the dashboard's day and month are the same cells. What remains of a
window that counts a past duration is that its start has to be representable.
-/

namespace Conduit.Quota

open Base Base.Gregorian

theorem nanosPerDay_pos : 0 < nanosPerDay := by decide

/-- The days or the months of an offset. -/
def QuotaCalendarUnit.cells (unit : QuotaCalendarUnit) (offset : FixedOffset) : Tiling Int :=
  match unit with
  | .day => (Tiling.units.refine nanosPerDay nanosPerDay_pos).ahead offset.nanos
  | .month => (months.refine nanosPerDay nanosPerDay_pos).ahead offset.nanos

/-- The cells from one up to another. -/
def QuotaCalendarUnit.cellRun (unit : QuotaCalendarUnit) (offset : FixedOffset) (first next : Int) :
    QuotaWindow :=
  ⟨some ((unit.cells offset).start first), some ((unit.cells offset).start next), false⟩

section Cells

variable (unit : QuotaCalendarUnit) (offset : FixedOffset)

theorem contains_cellRun (first next t : Int) :
    (unit.cellRun offset first next).contains t = true ↔
      (unit.cells offset).start first ≤ t ∧ t < (unit.cells offset).start next := by
  unfold QuotaCalendarUnit.cellRun QuotaWindow.contains
  simp

/-- A window of one cell holds the instants of that cell. -/
theorem contains_cell (k t : Int) :
    (unit.cellRun offset k (k + 1)).contains t = true ↔ (unit.cells offset).index t = k := by
  rw [contains_cellRun, Tiling.index_eq_iff]

/-- A window of several is the union of theirs. -/
theorem contains_run (k t : Int) (n : Nat) :
    (unit.cellRun offset (k - n) (k + 1)).contains t = true ↔
      ∃ i ≤ n, (unit.cellRun offset (k - i) (k - i + 1)).contains t = true := by
  rw [contains_cellRun, Tiling.run_iff]
  exact exists_congr fun i => and_congr_right fun _ => (contains_cell unit offset (k - i) t).symm

end Cells

theorem start_day (offset : FixedOffset) (day : Int) :
    (QuotaCalendarUnit.day.cells offset).start day = day * nanosPerDay - offset.nanos := rfl

theorem start_month (offset : FixedOffset) (month : Int) :
    (QuotaCalendarUnit.month.cells offset).start month =
      monthStart month * nanosPerDay - offset.nanos := rfl

theorem index_day (offset : FixedOffset) (now : Int) :
    (QuotaCalendarUnit.day.cells offset).index now = localDay offset now := rfl

theorem index_month (offset : FixedOffset) (now : Int) :
    (QuotaCalendarUnit.month.cells offset).index now = monthOf (localDay offset now) := rfl

/-! ## The helpers -/

theorem FixedOffset.nanos_bounds (offset : FixedOffset) :
    -nanosPerDay < offset.nanos ∧ offset.nanos < nanosPerDay := by
  have := offset.above
  have := offset.below
  unfold nanos nanosPerDay nanosPerSecond
  omega

theorem fromYmdOpt_eq (month day : Int) :
    fromYmdOpt (month / 12) (month % 12 + 1) day =
      if minYear ≤ month / 12 ∧ month / 12 ≤ maxYear ∧ 1 ≤ day ∧ day ≤ monthLength month then
        some (ofMonth month day)
      else none := by
  have hindex : 12 * (month / 12) + (month % 12 + 1 - 1) = month := by omega
  unfold fromYmdOpt
  rw [hindex]
  refine if_congr ?_ rfl rfl
  omega

/-- The months with a midnight that is an instant. -/
def Dated (offset : FixedOffset) (month : Int) : Prop :=
  minYear ≤ month / 12 ∧ month / 12 ≤ maxYear ∧ InRange (monthStart month * nanosPerDay - offset.nanos)

instance (offset : FixedOffset) (month : Int) : Decidable (Dated offset month) := instDecidableAnd

section Helpers

variable {ε : Type} (e : ε) (offset : FixedOffset)

theorem localMonthStart_eq (month : Int) :
    localMonthStart e (month / 12) (month % 12 + 1) offset =
      if Dated offset month then .ok ((QuotaCalendarUnit.month.cells offset).start month)
      else .error e := by
  have hlength := monthLength_bounds month
  have hfirst : ofMonth month 1 = monthStart month := by
    unfold ofMonth
    omega
  unfold localMonthStart
  rw [fromYmdOpt_eq, hfirst]
  by_cases hyear : minYear ≤ month / 12 ∧ month / 12 ≤ maxYear
  · rw [if_pos ⟨hyear.1, hyear.2, le_rfl, by omega⟩, Outcome.okOr_some, Outcome.ok_bind]
    unfold fromLocalMidnight
    by_cases hrange : InRange (monthStart month * nanosPerDay - offset.nanos)
    · have hdated : Dated offset month := ⟨hyear.1, hyear.2, hrange⟩
      rw [if_pos hrange, if_pos hdated]
      rfl
    · have hundated : ¬ Dated offset month := fun h => hrange h.2.2
      rw [if_neg hrange, if_neg hundated]
      rfl
  · have hundated : ¬ Dated offset month := fun h => hyear ⟨h.1, h.2.1⟩
    rw [if_neg fun h => hyear ⟨h.1, h.2.1⟩, if_neg hundated]
    rfl

theorem localMidnight_eq {now : Int}
    (hyear : minYear ≤ monthOf (localDay offset now) / 12 ∧ monthOf (localDay offset now) / 12 ≤ maxYear)
    (hrange : InRange ((QuotaCalendarUnit.day.cells offset).start (localDay offset now))) :
    localMidnight e now offset = .ok ((QuotaCalendarUnit.day.cells offset).start (localDay offset now)) := by
  have hday := dayOf_bounds (localDay offset now)
  unfold localMidnight yearOfDay monthOfDay
  dsimp only
  rw [fromYmdOpt_eq, if_pos ⟨hyear.1, hyear.2, hday.1, hday.2⟩, Outcome.okOr_some, Outcome.ok_bind,
    ofMonth_monthOf]
  unfold fromLocalMidnight
  rw [start_day] at hrange
  rw [if_pos hrange]
  rfl

theorem checkedI32_eq {value : Int} (hlow : -i32Max - 1 ≤ value) (hhigh : value ≤ i32Max) :
    checkedI32 value = some value := if_pos ⟨hlow, hhigh⟩

/-- Shifting a month: what is out of the range of `i32` has no date either. -/
theorem shiftMonthsLocal_eq {month delta : Int} (hyear : minYear ≤ month / 12 ∧ month / 12 ≤ maxYear) :
    shiftMonthsLocal e (month / 12) (month % 12 + 1) delta offset =
      if Dated offset (month + delta) then .ok ((QuotaCalendarUnit.month.cells offset).start (month + delta))
      else .error e := by
  obtain ⟨hmin, hmax⟩ := hyear
  unfold minYear at hmin
  unfold maxYear at hmax
  have hindex : month / 12 * 12 + (month % 12 + 1 - 1) = month := by omega
  unfold shiftMonthsLocal
  rw [checkedI32_eq (by unfold i32Max; omega) (by unfold i32Max; omega), Option.bind_some, hindex,
    checkedI32_eq (by unfold i32Max; omega) (by unfold i32Max; omega), Option.bind_some]
  unfold checkedI32
  by_cases hfits : -i32Max - 1 ≤ month + delta ∧ month + delta ≤ i32Max
  · rw [if_pos hfits, Outcome.okOr_some, Outcome.ok_bind]
    exact localMonthStart_eq e offset (month + delta)
  · have hundated : ¬ Dated offset (month + delta) := by
      rintro ⟨hlow, hhigh, -⟩
      unfold minYear at hlow
      unfold maxYear at hhigh
      unfold i32Max at hfits
      omega
    rw [if_neg hfits, if_neg hundated]
    rfl

end Helpers

/-! ## Ranges -/

/-- The years from 1970 to 9999. -/
def InYears (now : Int) : Prop :=
  yearStart 1970 * nanosPerDay ≤ now ∧ now < yearStart 10000 * nanosPerDay

/-- The local date is far from both ends of the range of dates. -/
def Inside (offset : FixedOffset) (now : Int) : Prop :=
  yearStart 1969 ≤ localDay offset now ∧ localDay offset now < yearStart 10001

section Ranges

variable {offset : FixedOffset} {now : Int}

theorem inside_of_inYears (h : InYears now) : Inside offset now := by
  have hoffset := offset.nanos_bounds
  obtain ⟨hlow, hhigh⟩ := h
  have hfirst : yearStart 1969 < yearStart 1970 := by decide
  have hlast : yearStart 10000 < yearStart 10001 := by decide
  unfold Inside localDay
  unfold nanosPerDay at *
  omega

theorem month_bounds_of_inside (h : Inside offset now) :
    12 * 1969 ≤ monthOf (localDay offset now) ∧ monthOf (localDay offset now) < 12 * 10001 := by
  constructor
  · exact months.le_index_iff.mpr ((monthStart_january 1969).trans_le h.1)
  · exact months.index_lt_iff.mpr (h.2.trans_eq (monthStart_january 10001).symm)

theorem monthStart_mono {month other : Int} (h : month ≤ other) : monthStart month ≤ monthStart other :=
  months.start_strictMono.monotone h

/-- A month that is neither the first nor past the last has a midnight. -/
theorem dated_of_bounds {month : Int} (hlow : 12 * minYear < month) (hhigh : month < 12 * (maxYear + 1)) :
    Dated offset month := by
  have hoffset := offset.nanos_bounds
  have hmin : yearStart minYear + 28 ≤ monthStart month := by
    have hlength := monthLength_bounds (12 * minYear)
    have hsucc := monthStart_succ (12 * minYear)
    have hmono := monthStart_mono (show 12 * minYear + 1 ≤ month by omega)
    rw [monthStart_january] at hsucc
    omega
  have hmax : monthStart month + 28 ≤ yearStart (maxYear + 1) := by
    have hlength := monthLength_bounds month
    have hsucc := monthStart_succ month
    have hmono := monthStart_mono (show month + 1 ≤ 12 * (maxYear + 1) by omega)
    rw [monthStart_january] at hmono
    omega
  refine ⟨by omega, by omega, ?_⟩
  unfold InRange minUtc maxUtc
  unfold nanosPerDay at *
  omega

theorem inRange_day {day : Int} (hlow : yearStart 1969 ≤ day) (hhigh : day ≤ yearStart 10001) :
    InRange ((QuotaCalendarUnit.day.cells offset).start day) := by
  have hoffset := offset.nanos_bounds
  have hmin : yearStart minYear < yearStart 1969 := by decide
  have hmax : yearStart 10001 + 1 < yearStart (maxYear + 1) := by decide
  rw [start_day]
  unfold InRange minUtc maxUtc
  unfold nanosPerDay at *
  omega

end Ranges

/-- Some days after midnight is midnight again. -/
theorem addDuration_days {ε : Type} (offset : FixedOffset) (day count : Int) :
    (addDuration ((QuotaCalendarUnit.day.cells offset).start day) (count * nanosPerDay) : Outcome ε Int) =
      if InRange ((QuotaCalendarUnit.day.cells offset).start (day + count)) then
        .ok ((QuotaCalendarUnit.day.cells offset).start (day + count))
      else .overflow := by
  have hsum : (QuotaCalendarUnit.day.cells offset).start day + count * nanosPerDay =
      (QuotaCalendarUnit.day.cells offset).start (day + count) := by
    rw [start_day, start_day]
    unfold nanosPerDay
    omega
  unfold addDuration
  rw [hsum]

/-! ## The windows of the code -/

/-- The first cell of a window can be told: by an instant for days, which are
counted back from midnight, by a date for months. -/
def QuotaCalendarUnit.Starts (unit : QuotaCalendarUnit) (offset : FixedOffset) (first : Int) : Prop :=
  match unit with
  | .day => InRange ((QuotaCalendarUnit.day.cells offset).start first)
  | .month => Dated offset first

section Windows

variable {offset : FixedOffset} {now : Int}

theorem year_bounds_of_inside (h : Inside offset now) :
    minYear ≤ monthOf (localDay offset now) / 12 ∧ monthOf (localDay offset now) / 12 ≤ maxYear := by
  have := month_bounds_of_inside h
  unfold minYear maxYear
  omega

theorem windowInOffset_day (h : Inside offset now) (before : Nat) (window : QuotaWindow) :
    QuotaCalendarUnit.day.windowInOffset (before + 1) now offset = .ok window ↔
      QuotaCalendarUnit.day.Starts offset (localDay offset now - before) ∧
        window = QuotaCalendarUnit.day.cellRun offset (localDay offset now - before)
          (localDay offset now + 1) := by
  have hmidnight := localMidnight_eq QuotaError.invalidCalendarWindow offset
    (year_bounds_of_inside h) (inRange_day h.1 h.2.le)
  have hend := @inRange_day offset (localDay offset now + 1) (by have := h.1; omega) h.2
  unfold QuotaCalendarUnit.windowInOffset QuotaCalendarUnit.Starts QuotaCalendarUnit.cellRun
  rw [if_neg (Nat.succ_ne_zero before), hmidnight]
  simp only [Nat.add_sub_cancel, Outcome.ok_bind]
  rw [← Int.neg_mul, addDuration_days, ← Int.one_mul nanosPerDay, addDuration_days, if_pos hend,
    ← Int.sub_eq_add_neg]
  by_cases hrange : InRange ((QuotaCalendarUnit.day.cells offset).start (localDay offset now - before))
  · rw [if_pos hrange, and_iff_right hrange]
    show Outcome.ok _ = Outcome.ok window ↔ _
    rw [Outcome.ok.injEq, eq_comm]
  · rw [if_neg hrange]
    exact iff_of_false (fun heq => by cases heq) fun hboth => hrange hboth.1

theorem windowInOffset_month (h : Inside offset now) (before : Nat) (window : QuotaWindow) :
    QuotaCalendarUnit.month.windowInOffset (before + 1) now offset = .ok window ↔
      QuotaCalendarUnit.month.Starts offset (monthOf (localDay offset now) - before) ∧
        window = QuotaCalendarUnit.month.cellRun offset (monthOf (localDay offset now) - before)
          (monthOf (localDay offset now) + 1) := by
  have hmonth := month_bounds_of_inside h
  have hnext : Dated offset (monthOf (localDay offset now) + 1) :=
    dated_of_bounds (by unfold minYear; omega) (by unfold maxYear; omega)
  unfold QuotaCalendarUnit.windowInOffset QuotaCalendarUnit.Starts QuotaCalendarUnit.cellRun
  rw [if_neg (Nat.succ_ne_zero before)]
  dsimp only
  by_cases hfits : ((before + 1 : Nat) : Int) ≤ i32Max
  · rw [checkedI32_eq (by unfold i32Max; omega) hfits, Outcome.okOr_some, Outcome.ok_bind]
    unfold yearOfDay monthOfDay
    rw [shiftMonthsLocal_eq _ _ (year_bounds_of_inside h), shiftMonthsLocal_eq _ _ (year_bounds_of_inside h),
      show monthOf (localDay offset now) + -(((before + 1 : Nat) : Int) - 1) =
        monthOf (localDay offset now) - before by push_cast; omega]
    by_cases hdated : Dated offset (monthOf (localDay offset now) - before)
    · rw [if_pos hdated, if_pos hnext, and_iff_right hdated]
      show Outcome.ok _ = Outcome.ok window ↔ _
      rw [Outcome.ok.injEq, eq_comm]
    · rw [if_neg hdated]
      exact iff_of_false (fun heq => by cases heq) fun hboth => hdated hboth.1
  · have hundated : ¬ Dated offset (monthOf (localDay offset now) - before) := by
      rintro ⟨hlow, -, -⟩
      unfold minYear at hlow
      unfold i32Max at hfits
      omega
    have herror : checkedI32 ((before + 1 : Nat) : Int) = none := if_neg fun hboth => hfits hboth.2
    rw [herror]
    exact iff_of_false (fun heq => by cases heq) fun hboth => hundated hboth.1

/-- A window of some units is the run of cells that ends with the one of `now`. -/
theorem windowInOffset_eq_ok (h : Inside offset now) (unit : QuotaCalendarUnit) (before : Nat)
    (window : QuotaWindow) :
    unit.windowInOffset (before + 1) now offset = .ok window ↔
      unit.Starts offset ((unit.cells offset).index now - before) ∧
        window = unit.cellRun offset ((unit.cells offset).index now - before)
          ((unit.cells offset).index now + 1) := by
  cases unit with
  | day => exact windowInOffset_day h before window
  | month => exact windowInOffset_month h before window

end Windows

/-! ## The theorem -/

/-- The window that counts a past duration starts no earlier than time. -/
def Representable (now : Int) (period : QuotaPeriod) : Prop :=
  ∀ (unit : QuotaDurationUnit) (amount : Nat), period = .pastDuration unit amount →
    minUtc ≤ now - amount * unit.seconds * nanosPerSecond

/-- What windows of a calendar unit have to be at an instant: its own window
holds it and is the one cell of its index, other instants of that window have
the same one, the next one starts where it ends, and a window of some units is
the union of as many cells. -/
structure UnitWindowsSound (offset : FixedOffset) (now : Int) (unit : QuotaCalendarUnit) : Prop where
  current : ∃ window : QuotaWindow, unit.windowInOffset 1 now offset = .ok window ∧
    window = unit.cellRun offset ((unit.cells offset).index now) ((unit.cells offset).index now + 1) ∧
    window.contains now = true
  same : ∀ (t : Int) (window : QuotaWindow), InYears t →
    unit.windowInOffset 1 now offset = .ok window → window.contains t = true →
    unit.windowInOffset 1 t offset = .ok window
  adjoining : ∀ window : QuotaWindow, unit.windowInOffset 1 now offset = .ok window →
    ∃ (fin : Int) (next : QuotaWindow), window.fin = some fin ∧
      unit.windowInOffset 1 fin offset = .ok next ∧ next.start = some fin
  union : ∀ (before : Nat) (window : QuotaWindow),
    unit.windowInOffset (before + 1) now offset = .ok window → ∀ t : Int,
      window.contains t = true ↔ ∃ i ≤ before,
        (unit.cellRun offset ((unit.cells offset).index now - i)
          ((unit.cells offset).index now - i + 1)).contains t = true
  exists_window : ∀ before : Nat,
    minUtc + nanosPerDay ≤ (unit.cells offset).start ((unit.cells offset).index now - before) →
    ∃ window : QuotaWindow, unit.windowInOffset (before + 1) now offset = .ok window

/-- Calendar windows tile time, the dashboard has the same day and month, and
no accepted period leaves the range of dates. -/
structure WindowsSound (offset : FixedOffset) (now : Int) (period : QuotaPeriod) : Prop where
  units : ∀ unit : QuotaCalendarUnit, UnitWindowsSound offset now unit
  dashboard : ∃ periods : CalendarPeriods, getCalendarPeriods now offset = .ok periods ∧
    QuotaCalendarUnit.day.windowInOffset 1 now offset =
      .ok ⟨some periods.today.start, some periods.today.fin, false⟩ ∧
    QuotaCalendarUnit.month.windowInOffset 1 now offset =
      .ok ⟨some periods.thisMonth.start, some periods.thisMonth.fin, false⟩
  total : period.windowInOffset now offset ≠ .overflow

section Sound

variable {offset : FixedOffset} {now : Int}

theorem starts_of_inside (h : Inside offset now) (unit : QuotaCalendarUnit) :
    unit.Starts offset ((unit.cells offset).index now) := by
  have hmonth := month_bounds_of_inside h
  cases unit with
  | day => exact inRange_day h.1 h.2.le
  | month =>
      rw [index_month]
      exact dated_of_bounds (by unfold minYear; omega) (by unfold maxYear; omega)

/-- The window of an instant is its cell. -/
theorem windowInOffset_one (h : Inside offset now) (unit : QuotaCalendarUnit) (window : QuotaWindow) :
    unit.windowInOffset 1 now offset = .ok window ↔
      window = unit.cellRun offset ((unit.cells offset).index now)
        ((unit.cells offset).index now + 1) := by
  rw [windowInOffset_eq_ok h unit 0, Int.natCast_zero, Int.sub_zero]
  exact and_iff_right (starts_of_inside h unit)

theorem localDay_start_day (offset : FixedOffset) (day : Int) :
    localDay offset ((QuotaCalendarUnit.day.cells offset).start day) = day :=
  (QuotaCalendarUnit.day.cells offset).index_start day

theorem localDay_start_month (offset : FixedOffset) (month : Int) :
    localDay offset ((QuotaCalendarUnit.month.cells offset).start month) = monthStart month :=
  localDay_start_day offset (monthStart month)

/-- The end of a window of these years is a date as well. -/
theorem inside_end (h : InYears now) (unit : QuotaCalendarUnit) :
    Inside offset ((unit.cells offset).start ((unit.cells offset).index now + 1)) := by
  have hoffset := offset.nanos_bounds
  have hlow : yearStart 1969 ≤ localDay offset now := (inside_of_inYears h).1
  have hhigh : localDay offset now < yearStart 10000 + 1 := by
    have hend := h.2
    unfold localDay
    unfold nanosPerDay at *
    omega
  have hlast : yearStart 10000 + 31 < yearStart 10001 := by decide
  cases unit with
  | day =>
      unfold Inside
      rw [index_day, localDay_start_day]
      omega
  | month =>
      unfold Inside
      rw [index_month, localDay_start_month]
      have hmonth : monthOf (localDay offset now) < 12 * 10000 + 1 := by
        refine months.index_lt_iff.mpr ?_
        show localDay offset now < monthStart (12 * 10000 + 1)
        have hlength := monthLength_bounds (12 * 10000)
        rw [monthStart_succ, monthStart_january]
        omega
      have hend := monthStart_mono (show monthOf (localDay offset now) + 1 ≤ 12 * 10000 + 1 by omega)
      have hlength := monthLength_bounds (12 * 10000)
      rw [monthStart_succ (12 * 10000), monthStart_january] at hend
      exact ⟨hlow.trans (monthOf_lt_start _).le, by omega⟩

/-- A cell that starts a day after the first instant can be told. -/
theorem starts_of_le (h : Inside offset now) {unit : QuotaCalendarUnit} {before : Nat}
    (hstart : minUtc + nanosPerDay ≤
      (unit.cells offset).start ((unit.cells offset).index now - before)) :
    unit.Starts offset ((unit.cells offset).index now - before) := by
  cases unit with
  | day =>
      have hlast := (@inRange_day offset (localDay offset now) h.1 h.2.le).2
      have hmono := (QuotaCalendarUnit.day.cells offset).start_strictMono.monotone
        (show localDay offset now - before ≤ localDay offset now by omega)
      have hday := nanosPerDay_pos
      exact ⟨by omega, hmono.trans hlast⟩
  | month =>
      have hmonth := month_bounds_of_inside h
      have hoffset := offset.nanos_bounds
      rw [index_month, start_month] at hstart
      have hfirst : 12 * minYear < monthOf (localDay offset now) - before := by
        refine months.start_strictMono.lt_iff_lt.mp ?_
        show monthStart (12 * minYear) < monthStart _
        rw [monthStart_january]
        unfold minUtc at hstart
        unfold nanosPerDay at *
        omega
      rw [index_month]
      exact dated_of_bounds hfirst (by unfold maxYear; omega)

theorem unitWindowsSound (h : InYears now) (unit : QuotaCalendarUnit) :
    UnitWindowsSound offset now unit := by
  have hinside := @inside_of_inYears offset now h
  constructor
  · exact ⟨_, (windowInOffset_one hinside unit _).mpr rfl, rfl,
      (contains_cell unit offset _ now).mpr rfl⟩
  · intro t window ht hwindow hcontains
    obtain rfl := (windowInOffset_one hinside unit window).mp hwindow
    rw [windowInOffset_one (inside_of_inYears ht), (contains_cell unit offset _ t).mp hcontains]
  · intro window hwindow
    obtain rfl := (windowInOffset_one hinside unit window).mp hwindow
    refine ⟨_, _, rfl, (windowInOffset_one (inside_end h unit) unit _).mpr rfl, ?_⟩
    rw [Tiling.index_start]
    rfl
  · intro before window hwindow t
    rw [((windowInOffset_eq_ok hinside unit before window).mp hwindow).2]
    exact contains_run unit offset _ t before
  · intro before hstart
    exact ⟨_, (windowInOffset_eq_ok hinside unit before _).mpr ⟨starts_of_le hinside hstart, rfl⟩⟩

/-! ## The dashboard -/

theorem localDay_bounds_of_inYears (h : InYears now) :
    yearStart 1970 - 1 ≤ localDay offset now ∧ localDay offset now ≤ yearStart 10000 := by
  have hoffset := offset.nanos_bounds
  obtain ⟨hlow, hhigh⟩ := h
  unfold localDay
  unfold nanosPerDay at *
  omega

/-- Every period of the dashboard can be told in these years; its day and its
month are cells. -/
theorem getCalendarPeriods_ok (h : InYears now) :
    ∃ periods : CalendarPeriods, getCalendarPeriods now offset = .ok periods ∧
      periods.today = ⟨(QuotaCalendarUnit.day.cells offset).start (localDay offset now),
        (QuotaCalendarUnit.day.cells offset).start (localDay offset now + 1)⟩ ∧
      periods.thisMonth =
        ⟨(QuotaCalendarUnit.month.cells offset).start (monthOf (localDay offset now)),
          (QuotaCalendarUnit.month.cells offset).start (monthOf (localDay offset now) + 1)⟩ := by
  have hinside := @inside_of_inYears offset now h
  have hmonth := month_bounds_of_inside hinside
  have hyear := year_bounds_of_inside hinside
  obtain ⟨hlow, hhigh⟩ := @localDay_bounds_of_inYears offset now h
  have hfirst : yearStart 1969 + 14 < yearStart 1970 := by decide
  have hlast : yearStart 10000 + 8 < yearStart 10001 := by decide
  have hdated : Dated offset (monthOf (localDay offset now)) :=
    dated_of_bounds (by unfold minYear; omega) (by unfold maxYear; omega)
  have hnext : Dated offset (monthOf (localDay offset now) + 1) :=
    dated_of_bounds (by unfold minYear; omega) (by unfold maxYear; omega)
  have hweekday : 0 ≤ numDaysFromMonday (localDay offset now) ∧
      numDaysFromMonday (localDay offset now) < 7 := by
    unfold numDaysFromMonday
    omega
  generalize hday : localDay offset now = day at *
  generalize hcount : numDaysFromMonday day = count at *
  have htoday := localMidnight_eq CalendarError.invalidCalendarWindow offset (hday ▸ hyear)
    (inRange_day (hday ▸ hinside.1) (hday ▸ hinside.2.le))
  rw [hday] at htoday
  have hadd : ∀ from_ count : Int, yearStart 1969 ≤ from_ + count → from_ + count ≤ yearStart 10001 →
      (addDuration ((QuotaCalendarUnit.day.cells offset).start from_) (count * nanosPerDay) :
        Outcome CalendarError Int) =
        .ok ((QuotaCalendarUnit.day.cells offset).start (from_ + count)) := fun from_ count hmin hmax => by
    rw [addDuration_days, if_pos (inRange_day hmin hmax)]
  have htomorrow := hadd day 1 (by omega) (by omega)
  have hweek := hadd day (-count) (by omega) (by omega)
  have hweekEnd := hadd (day + -count) 7 (by omega) (by omega)
  have hlastWeek := hadd (day + -count) (-7) (by omega) (by omega)
  rw [Int.one_mul] at htomorrow
  unfold getCalendarPeriods yearOfDay monthOfDay
  dsimp only
  rw [hday, htoday, Outcome.ok_bind, htomorrow, Outcome.ok_bind, hcount, ← Int.neg_mul, hweek,
    Outcome.ok_bind, hweekEnd, Outcome.ok_bind, ← Int.neg_mul, hlastWeek, Outcome.ok_bind,
    localMonthStart_eq, if_pos hdated, Outcome.ok_bind, shiftMonthsLocal_eq _ _ hyear, if_pos hnext,
    Outcome.ok_bind]
  exact ⟨_, rfl, rfl, rfl⟩

theorem dashboard_ok (h : InYears now) :
    ∃ periods : CalendarPeriods, getCalendarPeriods now offset = .ok periods ∧
      QuotaCalendarUnit.day.windowInOffset 1 now offset =
        .ok ⟨some periods.today.start, some periods.today.fin, false⟩ ∧
      QuotaCalendarUnit.month.windowInOffset 1 now offset =
        .ok ⟨some periods.thisMonth.start, some periods.thisMonth.fin, false⟩ := by
  have hinside := @inside_of_inYears offset now h
  obtain ⟨periods, hperiods, htoday, hmonth⟩ := @getCalendarPeriods_ok offset now h
  refine ⟨periods, hperiods, (windowInOffset_one hinside .day _).mpr ?_,
    (windowInOffset_one hinside .month _).mpr ?_⟩
  · rw [htoday]
    rfl
  · rw [hmonth]
    rfl

/-! ## Accepted periods -/

/-- What the stored form of a period can become. -/
theorem fromCore_cases {core : ApiKeyQuotaPeriod} {period : QuotaPeriod}
    (h : QuotaPeriod.fromCore core = .ok period) :
    period = .allTime ∨
      (∃ (unit : QuotaDurationUnit) (amount : Nat), 0 < amount ∧ period = .pastDuration unit amount) ∨
        ∃ unit : QuotaCalendarUnit, period = .calendarDuration unit 1 := by
  unfold QuotaPeriod.fromCore at h
  split_ifs at h with hall hpast hcalendar
  · exact .inl (Except.ok.inj h).symm
  · cases hstored : core.pastDuration with
    | none =>
        rw [hstored] at h
        cases h
    | some past =>
        rw [hstored] at h
        dsimp only at h
        split_ifs at h with hamount
        · exact .inr (.inl ⟨_, _, by omega, (Except.ok.inj h).symm⟩)
        · exact .inr (.inl ⟨_, _, by omega, (Except.ok.inj h).symm⟩)
        · exact .inr (.inl ⟨_, _, by omega, (Except.ok.inj h).symm⟩)
  · cases hstored : core.calendarDuration with
    | none =>
        rw [hstored] at h
        cases h
    | some unit =>
        rw [hstored] at h
        dsimp only at h
        split_ifs at h
        · exact .inr (.inr ⟨_, (Except.ok.inj h).symm⟩)
        · exact .inr (.inr ⟨_, (Except.ok.inj h).symm⟩)

/-- An instant of these years minus a duration leaves the range only at its
beginning. -/
theorem pastDuration_overflow_iff (h : InYears now) (unit : QuotaDurationUnit) {amount : Nat}
    (hamount : 0 < amount) :
    (QuotaPeriod.pastDuration unit amount).windowInOffset now offset = .overflow ↔
      ¬ minUtc ≤ now - amount * unit.seconds * nanosPerSecond := by
  have hlast : yearStart 10000 < yearStart (maxYear + 1) := by decide
  have hduration : 0 ≤ (amount : Int) * unit.seconds * nanosPerSecond := by
    have hseconds : 0 ≤ unit.seconds := by cases unit <;> decide
    have hnanos : 0 ≤ nanosPerSecond := by decide
    positivity
  have hmax : now + -((amount : Int) * unit.seconds * nanosPerSecond) ≤ maxUtc := by
    have hend := h.2
    unfold maxUtc
    unfold nanosPerDay at *
    omega
  unfold QuotaPeriod.windowInOffset QuotaDurationUnit.duration
  dsimp only
  rw [if_neg (by omega), Outcome.ok_bind]
  unfold addDuration
  rw [Int.sub_eq_add_neg]
  by_cases hmin : minUtc ≤ now + -((amount : Int) * unit.seconds * nanosPerSecond)
  · have hrange : InRange (now + -((amount : Int) * unit.seconds * nanosPerSecond)) := ⟨hmin, hmax⟩
    rw [if_pos hrange]
    exact iff_of_false (fun heq => by cases heq) fun hnot => hnot hmin
  · have hrange : ¬ InRange (now + -((amount : Int) * unit.seconds * nanosPerSecond)) := fun hr => hmin hr.1
    rw [if_neg hrange]
    exact iff_of_true rfl hmin

/-- For every accepted period, the windows are sound exactly if a past duration
begins within the range of dates. -/
theorem quota_windows_sound_iff (offset : FixedOffset) (now : Int) (core : ApiKeyQuotaPeriod)
    (period : QuotaPeriod) (hnow : InYears now) (haccepted : QuotaPeriod.fromCore core = .ok period) :
    WindowsSound offset now period ↔ Representable now period := by
  constructor
  · rintro ⟨-, -, htotal⟩ unit amount rfl
    rcases fromCore_cases haccepted with heq | ⟨unit', amount', hamount, heq⟩ | ⟨unit', heq⟩
    · cases heq
    · obtain ⟨rfl, rfl⟩ := QuotaPeriod.pastDuration.inj heq
      by_contra hmin
      exact htotal ((pastDuration_overflow_iff hnow _ hamount).mpr hmin)
    · cases heq
  · intro hrepresentable
    refine ⟨fun unit => unitWindowsSound hnow unit, dashboard_ok hnow, ?_⟩
    rcases fromCore_cases haccepted with rfl | ⟨unit, amount, hamount, rfl⟩ | ⟨unit, rfl⟩
    · intro heq
      cases heq
    · intro hoverflow
      exact (pastDuration_overflow_iff hnow unit hamount).mp hoverflow (hrepresentable unit amount rfl)
    · intro hoverflow
      have hwindow := (windowInOffset_one (@inside_of_inYears offset now hnow) unit _).mpr rfl
      rw [show (QuotaPeriod.calendarDuration unit 1).windowInOffset now offset =
        unit.windowInOffset 1 now offset from rfl, hwindow] at hoverflow
      cases hoverflow

end Sound

theorem shanghai_above : (-86400 : Int) < 28800 := by decide

theorem shanghai_below : (28800 : Int) < 86400 := by decide

/-- Eight hours ahead. -/
def shanghai : FixedOffset := ⟨28800, shanghai_above, shanghai_below⟩

/-- Noon of 4 July 2026. -/
def sampleNow : Int := 20638 * nanosPerDay + 43200 * nanosPerSecond

theorem inYears_sampleNow : InYears sampleNow := by
  unfold InYears
  decide

theorem quota_windows_sound_sample :
    QuotaPeriod.fromCore ⟨"calendar_duration", none, some "month"⟩ = .ok (.calendarDuration .month 1) ∧
      WindowsSound shanghai sampleNow (.calendarDuration .month 1) := by
  have haccepted : QuotaPeriod.fromCore ⟨"calendar_duration", none, some "month"⟩ =
      .ok (.calendarDuration .month 1) := by
    simp [QuotaPeriod.fromCore]
  exact ⟨haccepted, (quota_windows_sound_iff shanghai sampleNow _ _ inYears_sampleNow haccepted).mpr
    fun unit amount heq => by cases heq⟩

/-- As many days as fit into a `u32` go back further than dates do. -/
theorem past_duration_overflows :
    InYears sampleNow ∧
      QuotaPeriod.fromCore ⟨"past_duration", some ⟨4294967295, "day"⟩, none⟩ =
        .ok (.pastDuration .day 4294967295) ∧
      ¬ WindowsSound shanghai sampleNow (.pastDuration .day 4294967295) := by
  refine ⟨inYears_sampleNow, by simp [QuotaPeriod.fromCore, u32Max], fun h => ?_⟩
  refine h.total ((pastDuration_overflow_iff inYears_sampleNow .day (by omega)).mpr ?_)
  unfold minUtc
  decide

end Conduit.Quota
