/-!
# The calendar

Dates of the Gregorian calendar, extended to all years, and days counted from 1 January 1970. Years
are reckoned from March, so that the leap day is the last day of a year.

* `Date` : a year, a month and a day.
* `Date.IsValid` : whether the calendar has a date.
* `Date.toDays`, `Date.ofDays` : dates as days since 1 January 1970.
* `weekday` : the day of the week, Sunday being day 0.
-/

namespace DocSite

/-- A day of a year. -/
structure Date where
  year : Int
  /-- The month, from one on. -/
  month : Nat
  /-- The day of the month, from one on. -/
  day : Nat
  deriving DecidableEq, Repr

/-- Whether a year has a leap day. -/
def isLeapYear (y : Int) : Bool := y % 4 = 0 && (y % 100 ≠ 0 || y % 400 = 0)

/-- The number of days of a month. -/
def daysInMonth (y : Int) (m : Nat) : Nat :=
  if m = 2 then (if isLeapYear y then 29 else 28)
  else if m = 4 ∨ m = 6 ∨ m = 9 ∨ m = 11 then 30
  else 31

/-- The days from 1 March of year 0 to 1 January 1970. -/
def epoch : Int := 719468

namespace Date

/-- Whether the calendar has a date. -/
def IsValid (d : Date) : Prop :=
  1 ≤ d.month ∧ d.month ≤ 12 ∧ 1 ≤ d.day ∧ d.day ≤ daysInMonth d.year d.month

instance (d : Date) : Decidable d.IsValid := by unfold IsValid; infer_instance

/-- The days from 1 March to a day of a month. -/
def sinceMarch (month day : Nat) : Int :=
  let m : Int := if 2 < month then month - 3 else month + 9
  (153 * m + 2) / 5 + day - 1

/-- The days from 1 January 1970 to a date. -/
def toDays (d : Date) : Int :=
  let y := if d.month ≤ 2 then d.year - 1 else d.year
  365 * y + y / 4 - y / 100 + y / 400 + sinceMarch d.month d.day - epoch

/-- The year, reckoned from March, within four hundred years from the days that passed in them. -/
def yearOfEra (days : Int) : Int :=
  let y := days / 365
  if 365 * y + y / 4 - y / 100 + y / 400 ≤ days then y else y - 1

/-- The date that is a number of days after 1 January 1970. -/
def ofDays (n : Int) : Date :=
  let days := n + epoch
  let era := days / 146097
  let inEra := days % 146097
  let y := yearOfEra inEra
  let inYear := inEra - (365 * y + y / 4 - y / 100)
  let m := (5 * inYear + 2) / 153
  let month := if m < 10 then m + 3 else m - 9
  { year := y + 400 * era + (if month ≤ 2 then 1 else 0)
    month := month.toNat
    day := (inYear - (153 * m + 2) / 5 + 1).toNat }

end Date

/-- The day of the week that is a number of days after 1 January 1970, Sunday being day 0. -/
def weekday (days : Int) : Nat := ((days + 4) % 7).toNat

end DocSite
