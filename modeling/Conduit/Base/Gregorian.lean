import Conduit.Base.Tiling

/-!
# The Gregorian calendar

Days are counted from 1 January 1970 and months from January of the year 0,
both over all integers. The months tile the days (`months`), so every day has
one month, and a day of the month is the distance from its start. Moving by
months keeps the day of the month unless the month is too short for it.
-/

namespace Base.Gregorian

/-! ## Years -/

def isLeap (year : Int) : Bool := year % 4 = 0 ∧ (year % 100 ≠ 0 ∨ year % 400 = 0)

/-- The day a year begins. -/
def yearStart (year : Int) : Int :=
  365 * year + (year + 3) / 4 - (year + 99) / 100 + (year + 399) / 400 - 719528

def leapDay (year : Int) : Int := if isLeap year then 1 else 0

theorem yearStart_succ (year : Int) : yearStart (year + 1) = yearStart year + 365 + leapDay year := by
  have hleap : isLeap year = true ↔ year % 4 = 0 ∧ (year % 100 ≠ 0 ∨ year % 400 = 0) := by
    unfold isLeap
    exact decide_eq_true_iff
  unfold yearStart leapDay
  by_cases h : isLeap year = true
  · rw [if_pos h]
    have := hleap.mp h
    omega
  · rw [if_neg h]
    have := mt hleap.mpr h
    omega

theorem leapDay_cases (year : Int) : leapDay year = 0 ∨ leapDay year = 1 := by
  unfold leapDay
  by_cases h : isLeap year = true
  · exact .inr (if_pos h)
  · exact .inl (if_neg h)

/-- The year of a day: 400 years are 146097 days, which is at most a year off. -/
def yearOf (day : Int) : Int :=
  let estimate := (day + 719528) * 400 / 146097
  if yearStart (estimate + 1) ≤ day then estimate + 1
  else if day < yearStart estimate then estimate - 1
  else estimate

/-- The years tile the days. -/
theorem yearOf_spec (day : Int) : yearStart (yearOf day) ≤ day ∧ day < yearStart (yearOf day + 1) := by
  unfold yearOf
  have hlow : (day + 719528) * 400 / 146097 * 146097 ≤ (day + 719528) * 400 :=
    Int.ediv_mul_le _ (by decide)
  have hhigh : (day + 719528) * 400 < ((day + 719528) * 400 / 146097 + 1) * 146097 :=
    Int.lt_ediv_add_one_mul_self _ (by decide)
  generalize (day + 719528) * 400 / 146097 = estimate at hlow hhigh
  dsimp only
  by_cases hlater : yearStart (estimate + 1) ≤ day
  · rw [if_pos hlater]
    refine ⟨hlater, ?_⟩
    unfold yearStart
    omega
  · rw [if_neg hlater]
    by_cases hearlier : day < yearStart estimate
    · rw [if_pos hearlier, Int.sub_add_cancel]
      refine ⟨?_, hearlier⟩
      unfold yearStart
      omega
    · rw [if_neg hearlier]
      exact ⟨not_lt.mp hearlier, not_le.mp hlater⟩

/-! ## Months -/

/-- Days of a year before its month, counted from 0. From March on, five
months are 153 days. -/
def daysBefore (leap month : Int) : Int :=
  if month < 2 then 31 * month else 59 + leap + (153 * (month - 2) + 2) / 5

def daysIn (leap month : Int) : Int :=
  if month = 1 then 28 + leap
  else if month = 3 ∨ month = 5 ∨ month = 8 ∨ month = 10 then 30
  else 31

/-- The month of a day of the year. -/
def monthInYear (leap day : Int) : Int :=
  if day < 31 then 0 else if day < 59 + leap then 1 else 2 + (5 * (day - 59 - leap) + 2) / 153

theorem monthInYear_spec {leap day : Int} (hlow : 0 ≤ day) (hhigh : day < 365 + leap) :
    0 ≤ monthInYear leap day ∧ monthInYear leap day < 12 ∧
      daysBefore leap (monthInYear leap day) ≤ day ∧
      day < daysBefore leap (monthInYear leap day) + daysIn leap (monthInYear leap day) := by
  unfold monthInYear daysBefore daysIn
  by_cases hjanuary : day < 31
  · simp [hjanuary, hlow]
  · by_cases hfebruary : day < 59 + leap
    · simp only [hjanuary, hfebruary, if_true, if_false]
      omega
    · simp only [hjanuary, hfebruary, if_false]
      generalize hquotient : (5 * (day - 59 - leap) + 2) / 153 = quotient
      split_ifs <;> omega

theorem daysBefore_succ {leap month : Int} (hlow : 0 ≤ month) (hhigh : month < 11) :
    daysBefore leap (month + 1) = daysBefore leap month + daysIn leap month := by
  unfold daysBefore daysIn
  interval_cases month <;> simp <;> omega

theorem daysBefore_december (leap : Int) : daysBefore leap 11 + daysIn leap 11 = 365 + leap := by
  have hbefore : daysBefore leap 11 = 334 + leap := by
    unfold daysBefore
    rw [if_neg (by omega)]
    omega
  rw [hbefore, show daysIn leap 11 = 31 from rfl]
  omega

/-- The day a month begins. -/
def monthStart (month : Int) : Int :=
  yearStart (month / 12) + daysBefore (leapDay (month / 12)) (month % 12)

theorem monthStart_january (year : Int) : monthStart (12 * year) = yearStart year := by
  have hyear : 12 * year / 12 = year := by omega
  have hmonth : 12 * year % 12 = 0 := by omega
  unfold monthStart daysBefore
  rw [hyear, hmonth, if_pos (by omega), Int.mul_zero, Int.add_zero]

def monthLength (month : Int) : Int := daysIn (leapDay (month / 12)) (month % 12)

theorem monthLength_bounds (month : Int) : 28 ≤ monthLength month ∧ monthLength month ≤ 31 := by
  have hleap := leapDay_cases (month / 12)
  unfold monthLength daysIn
  split_ifs <;> omega

/-- Within a year by the table, in December by the length of the year. -/
theorem monthStart_succ (month : Int) : monthStart (month + 1) = monthStart month + monthLength month := by
  unfold monthStart monthLength
  by_cases hlast : month % 12 = 11
  · have hyear : (month + 1) / 12 = month / 12 + 1 := by omega
    have hjanuary : (month + 1) % 12 = 0 := by omega
    have hzero : daysBefore (leapDay (month / 12 + 1)) 0 = 0 := by
      unfold daysBefore
      rw [if_pos (by omega), Int.mul_zero]
    rw [hyear, hjanuary, hlast, hzero, yearStart_succ]
    have := daysBefore_december (leapDay (month / 12))
    omega
  · have hyear : (month + 1) / 12 = month / 12 := by omega
    have hmonth : (month + 1) % 12 = month % 12 + 1 := by omega
    rw [hyear, hmonth, daysBefore_succ (by omega) (by omega)]
    omega

/-- The month of a day. -/
def monthOf (day : Int) : Int :=
  12 * yearOf day + monthInYear (leapDay (yearOf day)) (day - yearStart (yearOf day))

theorem monthOf_spec (day : Int) :
    monthStart (monthOf day) ≤ day ∧ day < monthStart (monthOf day) + monthLength (monthOf day) := by
  obtain ⟨hlow, hhigh⟩ := yearOf_spec day
  rw [yearStart_succ] at hhigh
  obtain ⟨hnonneg, hyear, hbefore, hafter⟩ :=
    monthInYear_spec (show 0 ≤ day - yearStart (yearOf day) by omega)
      (show day - yearStart (yearOf day) < 365 + leapDay (yearOf day) by omega)
  have hdiv : monthOf day / 12 = yearOf day := by
    unfold monthOf
    omega
  have hmod : monthOf day % 12 = monthInYear (leapDay (yearOf day)) (day - yearStart (yearOf day)) := by
    unfold monthOf
    omega
  unfold monthStart monthLength
  rw [hdiv, hmod]
  omega

theorem monthOf_start_le (day : Int) : monthStart (monthOf day) ≤ day := (monthOf_spec day).1

theorem monthOf_lt_start (day : Int) : day < monthStart (monthOf day + 1) := by
  rw [monthStart_succ]
  exact (monthOf_spec day).2

theorem monthStart_increasing (month : Int) : monthStart month < monthStart (month + 1) := by
  have := monthLength_bounds month
  rw [monthStart_succ]
  omega

/-- The months tile the days. -/
def months : Tiling Int where
  start := monthStart
  index := monthOf
  start_le := monthOf_start_le
  lt_start := monthOf_lt_start
  increasing := monthStart_increasing

/-- The years a date can have. -/
def minYear : Int := -262143

def maxYear : Int := 262142

/-! ## Days of the month -/

/-- Counted from 1. -/
def dayOf (day : Int) : Int := day - monthStart (monthOf day) + 1

theorem dayOf_bounds (day : Int) : 1 ≤ dayOf day ∧ dayOf day ≤ monthLength (monthOf day) := by
  have := monthOf_spec day
  unfold dayOf
  omega

/-- A day of a month that has it. -/
def ofMonth (month day : Int) : Int := monthStart month + day - 1

theorem ofMonth_monthOf (day : Int) : ofMonth (monthOf day) (dayOf day) = day := by
  unfold ofMonth dayOf
  omega

section OfMonth

variable {month day : Int} (hlow : 1 ≤ day) (hhigh : day ≤ monthLength month)

include hlow hhigh in
theorem monthOf_ofMonth : monthOf (ofMonth month day) = month := by
  refine months.index_eq_iff.mpr ?_
  show monthStart month ≤ ofMonth month day ∧ ofMonth month day < monthStart (month + 1)
  rw [monthStart_succ]
  unfold ofMonth
  omega

include hlow hhigh in
theorem dayOf_ofMonth : dayOf (ofMonth month day) = day := by
  unfold dayOf
  rw [monthOf_ofMonth hlow hhigh]
  unfold ofMonth
  omega

end OfMonth

/-! ## Moving by months -/

/-- The same day of a later month, or the last one if the month is shorter. -/
def addMonths (day count : Int) : Int :=
  ofMonth (monthOf day + count) (min (dayOf day) (monthLength (monthOf day + count)))

theorem clamped_bounds (day month : Int) :
    1 ≤ min (dayOf day) (monthLength month) ∧ min (dayOf day) (monthLength month) ≤ monthLength month := by
  have hday := dayOf_bounds day
  have hlength := monthLength_bounds month
  omega

@[simp] theorem monthOf_addMonths (day count : Int) : monthOf (addMonths day count) = monthOf day + count :=
  monthOf_ofMonth (clamped_bounds day _).1 (clamped_bounds day _).2

@[simp] theorem dayOf_addMonths (day count : Int) :
    dayOf (addMonths day count) = min (dayOf day) (monthLength (monthOf day + count)) :=
  dayOf_ofMonth (clamped_bounds day _).1 (clamped_bounds day _).2

theorem addMonths_zero (day : Int) : addMonths day 0 = day := by
  unfold addMonths
  rw [Int.add_zero, min_eq_left (dayOf_bounds day).2, ofMonth_monthOf]

/-- Days are told apart by their month and the day in it. -/
theorem eq_iff_month_day {day other : Int} :
    day = other ↔ monthOf day = monthOf other ∧ dayOf day = dayOf other := by
  refine ⟨fun h => h ▸ ⟨rfl, rfl⟩, fun ⟨hmonth, hday⟩ => ?_⟩
  rw [← ofMonth_monthOf day, ← ofMonth_monthOf other, hmonth, hday]

theorem lt_addMonths {day count : Int} (h : 0 < count) : day < addMonths day count := by
  have hmonth : monthOf day + 1 ≤ monthOf (addMonths day count) := by
    rw [monthOf_addMonths]
    omega
  exact (monthOf_lt_start day).trans_le (months.le_index_iff.mp hmonth)

/-- Two moves are one if the first month was long enough for what the second
one asks. -/
theorem addMonths_addMonths_eq_iff (day first second : Int) :
    addMonths (addMonths day first) second = addMonths day (first + second) ↔
      min (dayOf day) (monthLength (monthOf day + (first + second))) ≤
        monthLength (monthOf day + first) := by
  rw [eq_iff_month_day]
  simp only [monthOf_addMonths, dayOf_addMonths, Int.add_assoc, true_and]
  omega

end Base.Gregorian
