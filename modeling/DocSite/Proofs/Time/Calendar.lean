import DocSite.Time.Calendar

/-!
# Days and dates

Every day has a date, and the date names the day. The year of a day, reckoned from March within four
hundred years, is the one that has begun and has not ended (`Date.yearOfEra_spec`); what is left are
the days of that year, and of those the months take off theirs.

* `Date.toDays_ofDays` : the date of a day names that day.
* `Date.month_ofDays` : its month is one of twelve.
* `Date.isValid_ofDays` : the calendar has it.
-/

namespace DocSite

namespace Date

/-- The days of whole years from March on, in four hundred years. -/
def beforeYear (y : Int) : Int := 365 * y + y / 4 - y / 100

/-- The year that a day is in has begun, and the day is one of its 366 days at most. -/
theorem yearOfEra_spec {days : Int} (h : 0 ≤ days) (hlt : days < 146097) :
    0 ≤ yearOfEra days ∧ yearOfEra days < 400 ∧ beforeYear (yearOfEra days) ≤ days ∧
      days ≤ beforeYear (yearOfEra days) + 365 := by
  unfold yearOfEra beforeYear
  dsimp only
  -- four hundred times 365 days are passed on the last day of the last year only
  have hyear : days / 365 / 400 = 0 ∨ days / 365 = 400 := by omega
  split
  · omega
  · rcases hyear with hzero | hlast
    · omega
    · omega

/-- The month, counted from March, that a day of a year is in. -/
def monthOfYear (inYear : Int) : Int := (5 * inYear + 2) / 153

theorem monthOfYear_spec {inYear : Int} (h : 0 ≤ inYear) (hle : inYear ≤ 365) :
    0 ≤ monthOfYear inYear ∧ monthOfYear inYear ≤ 11 ∧
      (153 * monthOfYear inYear + 2) / 5 ≤ inYear := by
  unfold monthOfYear
  omega

/-- The number of a month, from January on, that is counted from March. -/
def ofMarch (m : Int) : Nat := (if m < 10 then m + 3 else m - 9).toNat

theorem sinceMarch_ofMarch {m inYear : Int} (hm : 0 ≤ m) (hle : m ≤ 11)
    (h : (153 * m + 2) / 5 ≤ inYear) :
    sinceMarch (ofMarch m) (inYear - (153 * m + 2) / 5 + 1).toNat = inYear := by
  have hmonth : (if 2 < ofMarch m then (ofMarch m : Int) - 3 else ofMarch m + 9) = m := by
    unfold ofMarch
    split <;> split <;> omega
  unfold sinceMarch
  rw [hmonth]
  dsimp only
  omega

/-- The date of a day in a year that is reckoned from March. -/
def ofYear (year inYear : Int) : Date where
  year := year + (if ofMarch (monthOfYear inYear) ≤ 2 then 1 else 0)
  month := ofMarch (monthOfYear inYear)
  day := (inYear - (153 * monthOfYear inYear + 2) / 5 + 1).toNat

theorem toDays_ofYear (year : Int) {inYear : Int} (h : 0 ≤ inYear) (hle : inYear ≤ 365) :
    (ofYear year inYear).toDays =
      365 * year + year / 4 - year / 100 + year / 400 + inYear - epoch := by
  obtain ⟨hm, hm', hday⟩ := monthOfYear_spec h hle
  have hyear : (if (ofYear year inYear).month ≤ 2 then (ofYear year inYear).year - 1
      else (ofYear year inYear).year) = year := by
    unfold ofYear
    dsimp only
    split <;> omega
  unfold toDays
  rw [hyear]
  dsimp only [ofYear]
  rw [sinceMarch_ofMarch hm hm' hday]

theorem ofDays_eq (n : Int) :
    ofDays n = ofYear (yearOfEra ((n + epoch) % 146097) + 400 * ((n + epoch) / 146097))
      ((n + epoch) % 146097 - beforeYear (yearOfEra ((n + epoch) % 146097))) := by
  have hmonth : ∀ m : Int, ofMarch m ≤ 2 ↔ (if m < 10 then m + 3 else m - 9) ≤ 2 :=
    fun m => Int.toNat_le
  simp only [ofYear, hmonth]
  rfl

theorem inYear_spec (n : Int) :
    0 ≤ (n + epoch) % 146097 - beforeYear (yearOfEra ((n + epoch) % 146097)) ∧
      (n + epoch) % 146097 - beforeYear (yearOfEra ((n + epoch) % 146097)) ≤ 365 := by
  obtain ⟨-, -, hbegun, hended⟩ := yearOfEra_spec (Int.emod_nonneg (n + epoch) (by decide))
    (Int.emod_lt_of_pos (n + epoch) (by decide))
  omega

/-- The month of a day is one of twelve. -/
theorem month_ofDays (n : Int) : 1 ≤ (ofDays n).month ∧ (ofDays n).month ≤ 12 := by
  obtain ⟨hday, hday'⟩ := inYear_spec n
  obtain ⟨hm, hm', -⟩ := monthOfYear_spec hday hday'
  rw [ofDays_eq]
  unfold ofYear ofMarch
  dsimp only
  split <;> omega

/-- **The date of a day names that day.** -/
theorem toDays_ofDays (n : Int) : (ofDays n).toDays = n := by
  obtain ⟨hday, hday'⟩ := inYear_spec n
  obtain ⟨hy, hy', -⟩ := yearOfEra_spec (Int.emod_nonneg (n + epoch) (by decide))
    (Int.emod_lt_of_pos (n + epoch) (by decide))
  have hsplit := Int.emod_add_mul_ediv (n + epoch) 146097
  rw [ofDays_eq, toDays_ofYear _ hday hday']
  generalize (n + epoch) / 146097 = era at *
  generalize (n + epoch) % 146097 = inEra at *
  generalize yearOfEra inEra = y at *
  -- four hundred years are a whole number of days, so that only `y` counts
  have hfour : (y + 400 * era) / 4 = y / 4 + 100 * era := by omega
  have hhundred : (y + 400 * era) / 100 = y / 100 + 4 * era := by omega
  have hera : (y + 400 * era) / 400 = era := by omega
  rw [hfour, hhundred, hera]
  unfold beforeYear
  omega

/-! ### Dates that exist -/

/-- A day comes before the year after its own, which has a leap day more if it is the last of four
hundred years. -/
theorem lt_beforeYear_succ {days : Int} (h : 0 ≤ days) (hlt : days < 146097) :
    days < beforeYear (yearOfEra days + 1) + (yearOfEra days + 1) / 400 := by
  unfold yearOfEra beforeYear
  dsimp only
  split
  · omega
  · rw [Int.sub_add_cancel]
    omega

theorem isLeapYear_succ {y : Int} (h : 0 ≤ y) (hlt : y < 400) (era : Int)
    (hlong : beforeYear y + 365 < beforeYear (y + 1) + (y + 1) / 400) :
    isLeapYear (y + 400 * era + 1) = true := by
  unfold beforeYear at hlong
  simp only [isLeapYear, Bool.and_eq_true, Bool.or_eq_true, decide_eq_true_eq]
  omega

/-- No month but February has fewer days than the months reckoned from March take up. -/
theorem day_le_daysInMonth {m inYear : Int} (hm : 0 ≤ m) (hm' : m ≤ 10)
    (h : 5 * inYear + 2 < 153 * (m + 1)) (year : Int) :
    (inYear - (153 * m + 2) / 5 + 1).toNat ≤ daysInMonth year (ofMarch m) := by
  have hcases : m = 0 ∨ m = 1 ∨ m = 2 ∨ m = 3 ∨ m = 4 ∨ m = 5 ∨ m = 6 ∨ m = 7 ∨ m = 8 ∨ m = 9 ∨
      m = 10 := by omega
  rcases hcases with rfl | rfl | rfl | rfl | rfl | rfl | rfl | rfl | rfl | rfl | rfl <;>
    simp [daysInMonth, ofMarch] <;> omega

theorem isValid_ofYear {year inYear : Int} (h : 0 ≤ inYear) (hle : inYear ≤ 365)
    (hleap : inYear = 365 → isLeapYear (year + 1) = true) : (ofYear year inYear).IsValid := by
  obtain ⟨hm, hm', hday⟩ := monthOfYear_spec h hle
  have hlast : 5 * inYear + 2 < 153 * (monthOfYear inYear + 1) := by
    unfold monthOfYear
    omega
  have hmonth : 1 ≤ ofMarch (monthOfYear inYear) ∧ ofMarch (monthOfYear inYear) ≤ 12 := by
    unfold ofMarch
    split <;> omega
  refine ⟨hmonth.1, hmonth.2, ?_, ?_⟩
  · dsimp only [ofYear]
    omega
  · dsimp only [ofYear]
    generalize monthOfYear inYear = m at *
    by_cases hfeb : m = 11
    · subst hfeb
      by_cases hlong : inYear = 365
      · subst hlong
        simp [daysInMonth, ofMarch, hleap rfl]
      · have hshort : 28 ≤ daysInMonth (year + 1) 2 := by
          unfold daysInMonth
          split <;> split <;> omega
        simp [ofMarch]
        omega
    · exact day_le_daysInMonth hm (by omega) hlast _

/-- **The calendar has the date of a day.** -/
theorem isValid_ofDays (n : Int) : (ofDays n).IsValid := by
  obtain ⟨hday, hday'⟩ := inYear_spec n
  have hera := Int.emod_nonneg (n + epoch) (b := 146097) (by decide)
  have hera' := Int.emod_lt_of_pos (n + epoch) (b := 146097) (by decide)
  obtain ⟨hy, hy', -⟩ := yearOfEra_spec hera hera'
  rw [ofDays_eq]
  refine isValid_ofYear hday hday' fun hlong => isLeapYear_succ hy hy' _ ?_
  have hnext := lt_beforeYear_succ hera hera'
  omega

end Date

end DocSite
