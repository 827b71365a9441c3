import DocSite.Proofs.Text.Numerals
import DocSite.Proofs.Text.Splitting
import DocSite.Proofs.Time.Calendar
import DocSite.Time.Instant

/-!
# Reading the time

The form of mail headers shows an instant to the second: what a clock shows of it can be read back
(`Clock.read?_mailText`), and instants look the same exactly if the clock does
(`Instant.mailText_eq_iff`). The day of the week says nothing that the date does not say, so it is
not read.

* `Instant.clock` : what a clock shows at an instant.
* `Clock.read?` : what a clock shows, from the form of mail headers.
* `Instant.instant_clock` : a clock shows an instant to the second.
-/

namespace DocSite

/-! ### Numerals -/

namespace Instant

theorem isDigit_of_mem_padded {width n : Nat} {c : Char} (h : c ∈ padded width n) :
    c.isDigit = true :=
  Text.isDigit_of_mem_zeros h

theorem toNat?_padded (width n : Nat) : Text.toNat? (padded width n) = some n :=
  Text.toNat?_zeros _ n

theorem not_mem_padded {width n : Nat} {c : Char} (hc : c.isDigit = false) :
    c ∉ padded width n := fun h => by
  rw [isDigit_of_mem_padded h] at hc
  cases hc

end Instant

/-- The year that four digits or more, with or without a sign, write. -/
def readYear? : Text → Option Int
  | '-' :: digits => (Text.toNat? digits).map fun n : Nat => -(n : Int)
  | '+' :: digits => (Text.toNat? digits).map fun n : Nat => (n : Int)
  | digits => (Text.toNat? digits).map fun n : Nat => (n : Int)

theorem readYear?_yearText (y : Int) : readYear? (Instant.yearText y) = some y := by
  unfold Instant.yearText
  split_ifs with hneg hlarge
  · have hy : -(y.natAbs : Int) = y := by omega
    rw [readYear?, Instant.toNat?_padded, Option.map_some, hy]
  · have hy : (y.natAbs : Int) = y := by omega
    rw [readYear?, Instant.toNat?_padded, Option.map_some, hy]
  · have hminus : ∀ digits, Instant.padded 4 y.natAbs ≠ '-' :: digits := fun digits h =>
      Instant.not_mem_padded (by decide) (h ▸ List.mem_cons_self)
    have hplus : ∀ digits, Instant.padded 4 y.natAbs ≠ '+' :: digits := fun digits h =>
      Instant.not_mem_padded (by decide) (h ▸ List.mem_cons_self)
    have hy : (y.natAbs : Int) = y := by omega
    rw [readYear?, Instant.toNat?_padded, Option.map_some, hy]
    · exact hminus
    · exact hplus

/-- The number of the month with a name, from one on. -/
def readMonth? (name : Text) : Option Nat := (Instant.monthNames.idxOf? name).map (· + 1)

theorem readMonth?_monthNames {m : Nat} (h : 1 ≤ m) (hle : m ≤ 12) :
    readMonth? (Instant.monthNames.getD (m - 1) []) = some m := by
  have hnames : ∀ k < 12, readMonth? (Instant.monthNames.getD k []) = some (k + 1) := by decide
  rw [hnames (m - 1) (by omega), Nat.sub_add_cancel h]

/-! ### Clocks -/

/-- What a clock shows. -/
structure Clock where
  /-- The whole minutes since 1970. -/
  minutes : Int
  /-- The second of the minute, sixty in a leap second. -/
  second : Nat
  deriving DecidableEq, Repr

/-- What a clock shows at an instant. -/
def Instant.clock (i : Instant) : Clock :=
  ⟨i.seconds / 60, (i.seconds % 60).toNat + i.nanos / 1000000000⟩

namespace Clock

/-- What a clock shows at a time of the day, from its form in mail headers. -/
def readTime? (days : Int) (s : Text) : Option Clock :=
  match s.splitOn ':' with
  | [hour, minute, second] => do
    let hour ← Text.toNat? hour
    let minute ← Text.toNat? minute
    let second ← Text.toNat? second
    return ⟨1440 * days + 60 * hour + minute, second⟩
  | _ => none

/-- What a clock shows, from the form of mail headers. -/
def read? (s : Text) : Option Clock :=
  match s.splitOn ' ' with
  | [_, day, month, year, time, zone] =>
    if zone = "GMT".toList then do
      let day ← Text.toNat? day
      let month ← readMonth? month
      let year ← readYear? year
      readTime? (Date.mk year month day).toDays time
    else none
  | _ => none

end Clock

namespace Instant

variable (i : Instant)

theorem timeText_eq_join : i.timeText = Text.join [':'] [padded 2 (i.secondOfDay / 3600),
    padded 2 (i.secondOfDay / 60 % 60),
    padded 2 (i.secondOfDay % 60 + i.nanos / 1000000000)] := by
  simp [timeText]

theorem readTime?_timeText : Clock.readTime? i.days i.timeText = some i.clock := by
  have hparts : ∀ part ∈ [padded 2 (i.secondOfDay / 3600), padded 2 (i.secondOfDay / 60 % 60),
      padded 2 (i.secondOfDay % 60 + i.nanos / 1000000000)], ':' ∉ part := by
    simp only [List.mem_cons, List.not_mem_nil, or_false]
    rintro part (rfl | rfl | rfl) <;> exact not_mem_padded (by decide)
  have hsplit : i.timeText.splitOn ':' = [padded 2 (i.secondOfDay / 3600),
      padded 2 (i.secondOfDay / 60 % 60),
      padded 2 (i.secondOfDay % 60 + i.nanos / 1000000000)] := by
    rw [timeText_eq_join]
    exact List.splitOn_intercalate ':' hparts (List.cons_ne_nil _ _)
  have hminutes : 1440 * i.days + 60 * (i.secondOfDay / 3600 : Nat) +
      (i.secondOfDay / 60 % 60 : Nat) = i.seconds / 60 := by
    unfold days secondOfDay secondsPerDay
    omega
  have hsecond : i.secondOfDay % 60 = (i.seconds % 60).toNat := by
    unfold secondOfDay secondsPerDay
    omega
  rw [Clock.readTime?, hsplit]
  simp only [toNat?_padded, Option.bind_eq_bind, Option.bind_some, hminutes, hsecond]
  rfl

/-- The parts of the form of mail headers. -/
def mailParts : List Text :=
  [weekdayNames.getD (weekday i.days) [] ++ [','], padded 2 (Date.ofDays i.days).day,
    monthNames.getD ((Date.ofDays i.days).month - 1) [], yearText (Date.ofDays i.days).year,
    i.timeText, "GMT".toList]

theorem mailText_eq_join : i.mailText = Text.join [' '] i.mailParts := by
  simp [mailText, dayText, mailParts]

theorem not_mem_getD {names : List Text} {c : Char} (h : ∀ name ∈ names, c ∉ name) (k : Nat) :
    c ∉ names.getD k [] := by
  rw [List.getD_eq_getElem?_getD]
  cases hname : names[k]? with
  | none => exact List.not_mem_nil
  | some name => exact h name (List.mem_of_getElem? hname)

theorem not_mem_yearText {c : Char} (hdigit : c.isDigit = false) (hminus : c ≠ '-')
    (hplus : c ≠ '+') (y : Int) : c ∉ yearText y := by
  have hdigits : c ∉ padded 4 y.natAbs := not_mem_padded hdigit
  unfold yearText
  split_ifs <;> simp [hdigits, hminus, hplus]

theorem blank_not_mem_timeText : ' ' ∉ i.timeText := by
  have hblank : ∀ n, ' ' ∉ padded 2 n := fun n => not_mem_padded (by decide)
  simp [timeText, hblank]

theorem blank_not_mem_mailParts : ∀ part ∈ i.mailParts, ' ' ∉ part := by
  have hweekday : ' ' ∉ weekdayNames.getD (weekday i.days) [] ++ [','] := by
    rw [List.mem_append, not_or]
    exact ⟨not_mem_getD (by decide) _, by decide⟩
  have hmonth : ' ' ∉ monthNames.getD ((Date.ofDays i.days).month - 1) [] :=
    not_mem_getD (by decide) _
  simp only [mailParts, List.mem_cons, List.not_mem_nil, or_false]
  rintro part (rfl | rfl | rfl | rfl | rfl | rfl)
  · exact hweekday
  · exact not_mem_padded (by decide)
  · exact hmonth
  · exact not_mem_yearText (by decide) (by decide) (by decide) _
  · exact i.blank_not_mem_timeText
  · decide

end Instant

open Instant in
/-- **What a clock shows is read back** from the form of mail headers. -/
theorem Clock.read?_mailText (i : Instant) : Clock.read? i.mailText = some i.clock := by
  have hsplit : i.mailText.splitOn ' ' = i.mailParts := by
    rw [i.mailText_eq_join]
    exact List.splitOn_intercalate ' ' i.blank_not_mem_mailParts (List.cons_ne_nil _ _)
  obtain ⟨hmonth, hmonth'⟩ := Date.month_ofDays i.days
  rw [Clock.read?, hsplit, mailParts]
  dsimp only
  rw [if_pos rfl]
  simp only [toNat?_padded, readMonth?_monthNames hmonth hmonth', readYear?_yearText,
    Option.bind_eq_bind, Option.bind_some]
  rw [Date.toDays_ofDays]
  exact i.readTime?_timeText

namespace Instant

/-- A leap second is the last of its minute, and is over after a second. -/
structure IsProper (i : Instant) : Prop where
  nanos_lt : i.nanos < 2000000000
  leap : 1000000000 ≤ i.nanos → i.seconds % 60 = 59

/-- An instant without the fraction of its second. -/
def wholeSecond (i : Instant) : Instant := ⟨i.seconds, i.nanos / 1000000000 * 1000000000⟩

theorem clock_wholeSecond (i : Instant) : i.wholeSecond.clock = i.clock := by
  rw [wholeSecond, clock, clock, Nat.mul_div_cancel _ (by decide)]

end Instant

/-- The instant at which the second begins that a clock shows. -/
def Clock.instant (c : Clock) : Instant :=
  ⟨60 * c.minutes + min c.second 59, (c.second - 59) * 1000000000⟩

namespace Instant

/-- A clock shows a proper instant to the second. -/
theorem instant_clock {i : Instant} (h : i.IsProper) : i.clock.instant = i.wholeSecond := by
  obtain ⟨hlt, hleap⟩ := h
  rw [clock, Clock.instant, wholeSecond, Instant.mk.injEq]
  by_cases hlong : 1000000000 ≤ i.nanos
  · have hlast : i.seconds % 60 = 59 := hleap hlong
    have hover : i.nanos / 1000000000 = 1 := by omega
    dsimp only
    omega
  · have hnone : i.nanos / 1000000000 = 0 := by omega
    dsimp only
    omega

/-- **Instants look the same in mail headers exactly if a clock shows the same.** -/
theorem mailText_eq_iff {a b : Instant} : a.mailText = b.mailText ↔ a.clock = b.clock := by
  constructor
  · intro h
    have hread := Clock.read?_mailText a
    rw [h, Clock.read?_mailText] at hread
    exact (Option.some.inj hread).symm
  · intro h
    obtain ⟨hminutes, hsecond⟩ := Clock.mk.inj h
    have hdays : a.days = b.days := by
      unfold days secondsPerDay
      omega
    have hhour : a.secondOfDay / 3600 = b.secondOfDay / 3600 := by
      unfold secondOfDay secondsPerDay
      omega
    have hminute : a.secondOfDay / 60 % 60 = b.secondOfDay / 60 % 60 := by
      unfold secondOfDay secondsPerDay
      omega
    have hclock : a.secondOfDay % 60 + a.nanos / 1000000000 =
        b.secondOfDay % 60 + b.nanos / 1000000000 := by
      unfold secondOfDay secondsPerDay
      omega
    rw [mailText, mailText, dayText, dayText, timeText, timeText, hdays, hhour, hminute, hclock]

end Instant

end DocSite
