import DocSite.Time.Calendar
import Mathlib.Algebra.BigOperators.Group.Finset.Basic
import Mathlib.Algebra.Order.BigOperators.Group.Finset
import Mathlib.Tactic.IntervalCases

/-!
# Counting days

From the year 0 on, the number of a day is a matter of counting: the days of the years that have
passed, the days of the months that have passed in its year, and the days of its month before it.
The calendar reckons years from March and multiplies, and comes to the same number.

* `Date.count` : the days from 1 January of the year 0 to a date.
* `Date.toDays_eq_count` : days since 1970 are days counted from the year 0, less a constant.
* `Date.count_lt` : a later date has a greater number.

A date comes before another one if its year does, or in the same year its month, or in the same
month its day; what has passed of a year or a month is less than the whole of it
(`sum_range_add_lt`), and so the order of dates is that of their numbers.
-/

namespace DocSite

open Finset

/-- How many leap days a year has. -/
def leapDay (y : Nat) : Nat := if isLeapYear y then 1 else 0

/-- The number of days of a year. -/
def daysInYear (y : Nat) : Nat := 365 + leapDay y

/-- The days of the years before a year, from the year 0 on. -/
def daysOfYears (y : Nat) : Nat := ∑ k ∈ range y, daysInYear k

/-- The days of the months of a year before a month. -/
def daysOfMonths (y m : Nat) : Nat := ∑ k ∈ range (m - 1), daysInMonth y (k + 1)

/-- The days from 1 January of the year 0 to a date. -/
def Date.count (y m d : Nat) : Nat := daysOfYears y + daysOfMonths y m + (d - 1)

/-! ### The calendar counts days -/

theorem isLeapYear_iff (y : Nat) :
    isLeapYear y = true ↔ y % 4 = 0 ∧ (y % 100 ≠ 0 ∨ y % 400 = 0) := by
  simp only [isLeapYear, Bool.and_eq_true, Bool.or_eq_true, decide_eq_true_eq]
  omega

/-- The leap days of the years from 1 to a year. -/
def leapDays (y : Int) : Int := y / 4 - y / 100 + y / 400

theorem leapDays_eq (y : Nat) : leapDays y = leapDays (y - 1) + leapDay y := by
  unfold leapDays leapDay
  split
  · rename_i hleap
    have := (isLeapYear_iff y).1 hleap
    omega
  · rename_i hleap
    have := mt (isLeapYear_iff y).2 hleap
    omega

theorem daysOfYears_eq (y : Nat) : (daysOfYears y : Int) = 365 * y + leapDays (y - 1) + 1 := by
  induction y with
  | zero => decide
  | succ y ih =>
    have hleap := leapDays_eq y
    rw [daysOfYears, sum_range_succ, ← daysOfYears, daysInYear]
    push_cast
    rw [ih, Int.add_sub_cancel]
    omega

theorem daysOfMonths_eq (y : Nat) {m : Nat} (h : 1 ≤ m) (hle : m ≤ 12) :
    daysOfMonths y m =
      if m ≤ 2 then 31 * (m - 1)
      else 59 + leapDay y + (153 * (m - 3) + 2) / 5 := by
  unfold daysOfMonths leapDay
  interval_cases m <;> simp [sum_range_succ, daysInMonth] <;> split <;> rfl

/-- The days since March are those of ten months and those since January, or the latter less the
days of January and February. -/
theorem sinceMarch_eq (y : Nat) {m d : Nat} (h : 1 ≤ m) (hle : m ≤ 12) (hd : 1 ≤ d) :
    Date.sinceMarch m d = daysOfMonths y m + (d - 1 : Nat) +
      if m ≤ 2 then 306 else -(59 + leapDay y : Int) := by
  unfold Date.sinceMarch
  rw [daysOfMonths_eq y h hle]
  dsimp only
  by_cases hfeb : m ≤ 2
  · rw [if_neg (by omega), if_pos hfeb, if_pos hfeb]
    omega
  · rw [if_pos (by omega), if_neg hfeb, if_neg hfeb]
    omega

/-- **Days are counted.** The days since 1970 are the days counted from the year 0, less those up to
1970. -/
theorem Date.toDays_eq_count {y m d : Nat} (h : 1 ≤ m) (hle : m ≤ 12) (hd : 1 ≤ d) :
    (Date.mk y m d).toDays = Date.count y m d - 719528 := by
  have hyears := daysOfYears_eq y
  have hleap := leapDays_eq y
  have htoDays : (Date.mk y m d).toDays = 365 * (if m ≤ 2 then (y : Int) - 1 else y) +
      leapDays (if m ≤ 2 then (y : Int) - 1 else y) + Date.sinceMarch m d - epoch := by
    unfold Date.toDays leapDays
    dsimp only
    omega
  rw [htoDays, sinceMarch_eq y h hle hd]
  unfold Date.count epoch
  by_cases hfeb : m ≤ 2
  · rw [if_pos hfeb, if_pos hfeb]
    omega
  · rw [if_neg hfeb, if_neg hfeb]
    omega

/-! ### The order of dates -/

/-- What has passed of a part, with the parts before it, is less than the parts up to a later
one. -/
theorem sum_range_add_lt {f : Nat → Nat} {k k' x : Nat} (hx : x < f k) (hk : k < k') :
    ∑ i ∈ range k, f i + x < ∑ i ∈ range k', f i :=
  calc ∑ i ∈ range k, f i + x < ∑ i ∈ range k, f i + f k := Nat.add_lt_add_left hx _
    _ = ∑ i ∈ range (k + 1), f i := (sum_range_succ f k).symm
    _ ≤ ∑ i ∈ range k', f i := sum_le_sum_of_subset (range_mono hk)

theorem daysOfMonths_thirteen (y : Nat) : daysOfMonths y 13 = daysInYear y := by
  unfold daysOfMonths daysInYear leapDay
  simp [sum_range_succ, daysInMonth]
  split <;> rfl

variable {y m d y' m' d' : Nat}

theorem daysOfMonths_add_lt (hd : d - 1 < daysInMonth y m) (h : 1 ≤ m) (hm : m < m') :
    daysOfMonths y m + (d - 1) < daysOfMonths y m' := by
  have hmonth : m - 1 + 1 = m := Nat.sub_add_cancel h
  exact sum_range_add_lt (by rwa [hmonth]) (by omega)

theorem Date.count_lt_daysOfYears (h : (Date.mk y m d).IsValid) (hy : y < y') :
    Date.count y m d < daysOfYears y' := by
  obtain ⟨hm, hm', hd, hd'⟩ := h
  dsimp only at hm hm' hd hd'
  have hpassed : daysOfMonths y m + (d - 1) < daysInYear y := by
    rw [← daysOfMonths_thirteen]
    exact daysOfMonths_add_lt (by omega) hm (by omega)
  rw [Date.count, Nat.add_assoc]
  exact sum_range_add_lt hpassed hy

/-- **A later date has a greater number.** -/
theorem Date.count_lt (h : (Date.mk y m d).IsValid) (h' : (Date.mk y' m' d').IsValid)
    (hlt : [y, m, d] < [y', m', d']) : Date.count y m d < Date.count y' m' d' := by
  simp only [List.cons_lt_cons_iff, List.not_lt_nil, and_false, or_false] at hlt
  rcases hlt with hyear | ⟨rfl, hmonth | ⟨rfl, hlater⟩⟩
  · have hbefore := Date.count_lt_daysOfYears h hyear
    unfold Date.count at hbefore ⊢
    omega
  · obtain ⟨hm, -, hd, hd'⟩ := h
    dsimp only at hm hd hd'
    have hday : d - 1 < daysInMonth y m := by omega
    have hpassed := daysOfMonths_add_lt hday hm hmonth
    unfold Date.count
    omega
  · obtain ⟨-, -, hd, -⟩ := h
    dsimp only at hd
    unfold Date.count
    omega

end DocSite
