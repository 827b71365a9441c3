import DocSite.Text.Basic
import DocSite.Time.Calendar

/-!
# Instants

An instant is a number of seconds since 1970 in coordinated universal time, and nanoseconds. During
a leap second the nanoseconds of the second before it run on.

* `Instant` : a point in time.
* `Instant.compare` : the order of instants.
* `Instant.ofCivil?` : the instant that a date and a time of the day name.
* `Instant.dayText`, `Instant.timeText` : an instant in the form of mail headers.
-/

namespace DocSite

/-- A point in time. -/
structure Instant where
  /-- The seconds since 1970. -/
  seconds : Int
  /-- The nanoseconds of the second, a billion and more in a leap second. -/
  nanos : Nat := 0
  deriving DecidableEq, Repr

/-- A time of the day. -/
structure TimeOfDay where
  hour : Nat
  minute : Nat
  /-- The second, sixty in a leap second. -/
  second : Nat := 0
  nanos : Nat := 0
  deriving DecidableEq, Repr

namespace TimeOfDay

/-- Whether a day has the time. -/
def IsValid (t : TimeOfDay) : Prop :=
  t.hour < 24 ∧ t.minute < 60 ∧ t.second ≤ 60 ∧ t.nanos < 1000000000

instance (t : TimeOfDay) : Decidable t.IsValid := by unfold IsValid; infer_instance

/-- The seconds since the start of the day. A leap second counts as the second before it. -/
def toSeconds (t : TimeOfDay) : Nat := 3600 * t.hour + 60 * t.minute + min t.second 59

end TimeOfDay

namespace Instant

/-- The seconds of a day. -/
def secondsPerDay : Int := 86400

/-- The first and the last year with instants. -/
def firstYear : Int := -262143

/-- The last year with instants. -/
def lastYear : Int := 262142

/-- Whether there are instants on the day that is a number of days after 1 January 1970. -/
def hasDay (days : Int) : Bool :=
  (Date.mk firstYear 1 1).toDays ≤ days && days ≤ (Date.mk lastYear 12 31).toDays

/-- The instant that a date and a time of the day name at an offset, in seconds, from universal
time. There is none if the date or the time does not exist or lies outside the years of instants. -/
def ofCivil? (d : Date) (t : TimeOfDay) (offset : Int) : Option Instant :=
  let seconds := secondsPerDay * d.toDays + t.toSeconds - offset
  if d.IsValid ∧ t.IsValid ∧ hasDay d.toDays ∧ hasDay (seconds / secondsPerDay) then
    some ⟨seconds, t.nanos + (if t.second = 60 then 1000000000 else 0)⟩
  else none

/-- Whether an instant does not come before another one. -/
def notBefore (a b : Instant) : Bool :=
  b.seconds < a.seconds || (b.seconds = a.seconds && b.nanos ≤ a.nanos)

/-- The days from 1 January 1970 to an instant. -/
def days (i : Instant) : Int := i.seconds / secondsPerDay

/-- The seconds of its day that have passed at an instant. -/
def secondOfDay (i : Instant) : Nat := (i.seconds % secondsPerDay).toNat

/-! ### Texts -/

/-- The names of the days of the week, from Sunday on. -/
def weekdayNames : List Text :=
  ["Sun".toList, "Mon".toList, "Tue".toList, "Wed".toList, "Thu".toList, "Fri".toList,
   "Sat".toList]

/-- The names of the months. -/
def monthNames : List Text :=
  ["Jan".toList, "Feb".toList, "Mar".toList, "Apr".toList, "May".toList, "Jun".toList,
   "Jul".toList, "Aug".toList, "Sep".toList, "Oct".toList, "Nov".toList, "Dec".toList]

/-- A number in at least so many digits. -/
def padded (width n : Nat) : Text :=
  let digits := Text.ofNat n
  List.replicate (width - digits.length) '0' ++ digits

/-- A year: four digits, with a sign outside the years 0 to 9999. -/
def yearText (y : Int) : Text :=
  if y < 0 then '-' :: padded 4 y.natAbs
  else if 9999 < y then '+' :: padded 4 y.natAbs
  else padded 4 y.natAbs

/-- The day of an instant, such as `Sat, 01 Jun 2024`. -/
def dayText (i : Instant) : Text :=
  let d := Date.ofDays i.days
  weekdayNames.getD (weekday i.days) [] ++ ',' :: ' ' :: padded 2 d.day ++
    ' ' :: monthNames.getD (d.month - 1) [] ++ ' ' :: yearText d.year

/-- The time of the day of an instant, such as `18:30:00`. A leap second is second sixty. -/
def timeText (i : Instant) : Text :=
  let s := i.secondOfDay
  padded 2 (s / 3600) ++ ':' :: padded 2 (s / 60 % 60) ++
    ':' :: padded 2 (s % 60 + i.nanos / 1000000000)

/-- An instant in the form of mail headers, such as `Sat, 01 Jun 2024 18:30:00 GMT`. -/
def mailText (i : Instant) : Text := i.dayText ++ ' ' :: i.timeText ++ " GMT".toList

end Instant

end DocSite
