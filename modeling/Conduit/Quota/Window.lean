import Conduit.Base.Gregorian

/-!
# Quota windows

A quota counts the usage of a window: all of it, a past duration, or whole
calendar days or months in a fixed offset from UTC. The dashboard computes its
own periods with a copy of the same helpers. Instants are in nanoseconds; date
arithmetic that leaves the range of the time library panics (`overflow`),
unless the code asks for an option.
-/

namespace Conduit.Quota

open Base Base.Gregorian

def nanosPerSecond : Int := 1000000000

def nanosPerDay : Int := 86400000000000

def i32Max : Int := 2147483647

def u32Max : Int := 4294967295

/-- A result, an error, or a panic of the date arithmetic. -/
inductive Outcome (ε α : Type)
  | ok (value : α)
  | error (reason : ε)
  | overflow

namespace Outcome

variable {ε α β : Type}

def bind (x : Outcome ε α) (f : α → Outcome ε β) : Outcome ε β :=
  match x with
  | ok value => f value
  | error reason => error reason
  | overflow => overflow

instance : Monad (Outcome ε) where
  pure := ok
  bind := bind

@[simp] theorem ok_bind (value : α) (f : α → Outcome ε β) : (ok value >>= f) = f value := rfl

/-- `ok_or`. -/
def okOr (x : Option α) (reason : ε) : Outcome ε α :=
  match x with
  | some value => ok value
  | none => error reason

@[simp] theorem okOr_some (value : α) (reason : ε) : okOr (some value) reason = ok value := rfl

end Outcome

/-! ## Dates and instants -/

/-- An offset is less than a day. -/
structure FixedOffset where
  seconds : Int
  above : -86400 < seconds
  below : seconds < 86400

def FixedOffset.nanos (offset : FixedOffset) : Int := offset.seconds * nanosPerSecond

/-- `DateTime::MIN_UTC`. -/
def minUtc : Int := yearStart minYear * nanosPerDay

/-- `DateTime::MAX_UTC`. -/
def maxUtc : Int := yearStart (maxYear + 1) * nanosPerDay - 1

def InRange (t : Int) : Prop := minUtc ≤ t ∧ t ≤ maxUtc

instance (t : Int) : Decidable (InRange t) := instDecidableAnd

/-- A date and time plus a duration. -/
def addDuration {ε : Type} (t : Int) (duration : Int) : Outcome ε Int :=
  if InRange (t + duration) then .ok (t + duration) else .overflow

/-- The day an instant falls on in an offset. -/
def localDay (offset : FixedOffset) (now : Int) : Int := (now + offset.nanos) / nanosPerDay

def yearOfDay (day : Int) : Int := monthOf day / 12

/-- Counted from 1. -/
def monthOfDay (day : Int) : Int := monthOf day % 12 + 1

/-- `NaiveDate::from_ymd_opt`. -/
def fromYmdOpt (year month day : Int) : Option Int :=
  if minYear ≤ year ∧ year ≤ maxYear ∧ 1 ≤ month ∧ month ≤ 12 ∧ 1 ≤ day ∧
      day ≤ monthLength (12 * year + (month - 1)) then
    some (ofMonth (12 * year + (month - 1)) day)
  else none

/-- Midnight of a day, in an offset. -/
def fromLocalMidnight (offset : FixedOffset) (day : Int) : Option Int :=
  if InRange (day * nanosPerDay - offset.nanos) then some (day * nanosPerDay - offset.nanos) else none

section Helpers

/- The quota service and the usage service have the same helpers, each with its
own error. -/
variable {ε : Type} (invalidCalendarWindow : ε)

def localMidnight (now : Int) (offset : FixedOffset) : Outcome ε Int := do
  let day := localDay offset now
  let date ← .okOr (fromYmdOpt (yearOfDay day) (monthOfDay day) (dayOf day)) invalidCalendarWindow
  .okOr (fromLocalMidnight offset date) invalidCalendarWindow

def localMonthStart (year month : Int) (offset : FixedOffset) : Outcome ε Int := do
  let date ← .okOr (fromYmdOpt year month 1) invalidCalendarWindow
  .okOr (fromLocalMidnight offset date) invalidCalendarWindow

def checkedI32 (value : Int) : Option Int :=
  if -i32Max - 1 ≤ value ∧ value ≤ i32Max then some value else none

def shiftMonthsLocal (year month deltaMonths : Int) (offset : FixedOffset) : Outcome ε Int := do
  let months ← .okOr (((checkedI32 (year * 12)).bind fun m => checkedI32 (m + (month - 1))).bind
    fun m => checkedI32 (m + deltaMonths)) invalidCalendarWindow
  localMonthStart invalidCalendarWindow (months / 12) (months % 12 + 1) offset

end Helpers

/-! ## Windows -/

inductive QuotaError
  | invalidPeriodAmount
  | invalidCalendarWindow
  | invalidPeriod (message : String)
deriving DecidableEq, Repr

structure QuotaWindow where
  start : Option Int
  fin : Option Int
  endInclusive : Bool
deriving DecidableEq, Repr

def QuotaWindow.contains (window : QuotaWindow) (timestamp : Int) : Bool :=
  let afterStart := match window.start with
    | none => true
    | some start => decide (start ≤ timestamp)
  let beforeEnd := match window.fin with
    | none => true
    | some fin => if window.endInclusive then decide (timestamp ≤ fin) else decide (timestamp < fin)
  afterStart && beforeEnd

inductive QuotaDurationUnit
  | minute
  | hour
  | day
deriving DecidableEq, Repr

def QuotaDurationUnit.seconds : QuotaDurationUnit → Int
  | minute => 60
  | hour => 3600
  | day => 86400

def QuotaDurationUnit.duration (unit : QuotaDurationUnit) (amount : Nat) : Outcome QuotaError Int :=
  if amount = 0 then .error .invalidPeriodAmount
  else .ok (amount * unit.seconds * nanosPerSecond)

inductive QuotaCalendarUnit
  | day
  | month
deriving DecidableEq, Repr

def QuotaCalendarUnit.windowInOffset (unit : QuotaCalendarUnit) (amount : Nat) (now : Int)
    (offset : FixedOffset) : Outcome QuotaError QuotaWindow :=
  if amount = 0 then .error .invalidPeriodAmount
  else
    match unit with
    | .day => do
      let todayStart ← localMidnight .invalidCalendarWindow now offset
      let start ← addDuration todayStart (-((amount - 1 : Nat) * nanosPerDay))
      let fin ← addDuration todayStart nanosPerDay
      return ⟨some start, some fin, false⟩
    | .month => do
      let amount ← .okOr (checkedI32 amount) .invalidCalendarWindow
      let day := localDay offset now
      let start ← shiftMonthsLocal .invalidCalendarWindow (yearOfDay day) (monthOfDay day)
        (-(amount - 1)) offset
      let fin ← shiftMonthsLocal .invalidCalendarWindow (yearOfDay day) (monthOfDay day) 1 offset
      return ⟨some start, some fin, false⟩

inductive QuotaPeriod
  | allTime
  | pastDuration (unit : QuotaDurationUnit) (amount : Nat)
  | calendarDuration (unit : QuotaCalendarUnit) (amount : Nat)
deriving DecidableEq, Repr

def QuotaPeriod.windowInOffset (period : QuotaPeriod) (now : Int) (offset : FixedOffset) :
    Outcome QuotaError QuotaWindow :=
  match period with
  | .allTime => .ok ⟨none, some now, true⟩
  | .pastDuration unit amount => do
    let duration ← unit.duration amount
    let start ← addDuration now (-duration)
    return ⟨some start, some now, true⟩
  | .calendarDuration unit amount => unit.windowInOffset amount now offset

/-! ## The stored period -/

structure ApiKeyQuotaPastDuration where
  value : Int
  unit : String

/-- The period of an API key quota. -/
structure ApiKeyQuotaPeriod where
  type : String
  pastDuration : Option ApiKeyQuotaPastDuration
  calendarDuration : Option String

def QuotaPeriod.fromCore (period : ApiKeyQuotaPeriod) : Except QuotaError QuotaPeriod :=
  if period.type = "all_time" then .ok .allTime
  else if period.type = "past_duration" then
    match period.pastDuration with
    | none => .error (.invalidPeriod "pastDuration is required")
    | some past =>
        if past.value ≤ 0 ∨ u32Max < past.value then .error .invalidPeriodAmount
        else if past.unit = "minute" then .ok (.pastDuration .minute past.value.toNat)
        else if past.unit = "hour" then .ok (.pastDuration .hour past.value.toNat)
        else if past.unit = "day" then .ok (.pastDuration .day past.value.toNat)
        else .error (.invalidPeriod s!"unknown pastDuration.unit: {past.unit}")
  else if period.type = "calendar_duration" then
    match period.calendarDuration with
    | none => .error (.invalidPeriod "calendarDuration is required")
    | some unit =>
        if unit = "day" then .ok (.calendarDuration .day 1)
        else if unit = "month" then .ok (.calendarDuration .month 1)
        else .error (.invalidPeriod s!"unknown calendarDuration.unit: {unit}")
  else .error (.invalidPeriod s!"unknown period.type: {period.type}")

/-! ## The periods of the dashboard -/

structure CalendarPeriod where
  start : Int
  fin : Int
deriving DecidableEq, Repr

structure CalendarPeriods where
  today : CalendarPeriod
  thisWeek : CalendarPeriod
  lastWeek : CalendarPeriod
  thisMonth : CalendarPeriod
deriving DecidableEq, Repr

/-- `UsageServiceError::InvalidCalendarWindow`. -/
inductive CalendarError
  | invalidCalendarWindow
deriving DecidableEq, Repr

/-- The first day of the count is a Thursday. -/
def numDaysFromMonday (day : Int) : Int := (day + 3) % 7

def getCalendarPeriods (now : Int) (offset : FixedOffset) : Outcome CalendarError CalendarPeriods := do
  let day := localDay offset now
  let todayStart ← localMidnight .invalidCalendarWindow now offset
  let todayEnd ← addDuration todayStart nanosPerDay
  let thisWeekStart ← addDuration todayStart (-(numDaysFromMonday day * nanosPerDay))
  let thisWeekEnd ← addDuration thisWeekStart (7 * nanosPerDay)
  let lastWeekStart ← addDuration thisWeekStart (-(7 * nanosPerDay))
  let thisMonthStart ← localMonthStart .invalidCalendarWindow (yearOfDay day) (monthOfDay day) offset
  let thisMonthEnd ← shiftMonthsLocal .invalidCalendarWindow (yearOfDay day) (monthOfDay day) 1 offset
  return {
    today := ⟨todayStart, todayEnd⟩
    thisWeek := ⟨thisWeekStart, thisWeekEnd⟩
    lastWeek := ⟨lastWeekStart, thisWeekStart⟩
    thisMonth := ⟨thisMonthStart, thisMonthEnd⟩ }

end Conduit.Quota
