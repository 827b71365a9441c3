import DocSite.Proofs.Text.Words
import DocSite.Proofs.Time.Clock
import DocSite.Time.Reader
import Mathlib.Algebra.Group.Nat.Defs

/-!
# Mail dates are read back

An instant in the form of mail headers is read back as the instant at which its second begins. The
parts of the form are read one after another: names of three letters, numbers of as many digits as
they are written in, and what stands between them. A year below a thousand is written in four
digits, so it is not taken for one of two or three.

* `Instant.number?_padded`, `Instant.nameIndex?_append` : a number and a name are read back.
* `Instant.ofMailDate?_mailText` : so is the whole form.
* `Instant.mail_date_is_read_back` : nothing that is tried before reads it in another way.
-/

namespace DocSite

namespace Instant

open Text (isBlankChar)

/-! ### Numbers -/

theorem number?_append {least most : Nat} {digits rest : Text}
    (hdigits : ∀ c ∈ digits, c.isDigit = true) (hleast : least ≤ digits.length)
    (hmost : digits.length ≤ most) (hrest : ∀ c ∈ rest.head?, c.isDigit = false) :
    number? least most (digits ++ rest) =
      some ((Nat.ofDigitChars 10 digits 0, digits.length), rest) := by
  have hstop : (rest.take (most - digits.length)).takeWhile Char.isDigit = [] := by
    cases rest with
    | nil => simp
    | cons c rest =>
      cases most - digits.length with
      | zero => rfl
      | succ k => simp [hrest c rfl]
  have htaken : ((digits ++ rest).take most).takeWhile Char.isDigit = digits := by
    rw [List.take_append, List.take_of_length_le hmost, List.takeWhile_append_of_pos hdigits, hstop,
      List.append_nil]
  rw [number?, htaken]
  simp [hleast]

theorem length_padded {width n : Nat} (hpos : 0 < width) (h : n < 10 ^ width) :
    (padded width n).length = width := by
  have hle : (Text.ofNat n).length ≤ width :=
    (Nat.length_toDigits_le_iff (by decide) hpos).2 h
  simp [padded]
  omega

theorem ofDigitChars_padded (width n : Nat) : Nat.ofDigitChars 10 (padded width n) 0 = n := by
  have hread := toNat?_padded width n
  rw [Text.toNat?] at hread
  split at hread
  · exact Option.some.inj hread
  · cases hread

/-- A padded number is read back, with the count of its digits. -/
theorem number?_padded {least most width n : Nat} {rest : Text} (hpos : 0 < width)
    (h : n < 10 ^ width) (hleast : least ≤ width) (hmost : width ≤ most)
    (hrest : ∀ c ∈ rest.head?, c.isDigit = false) :
    number? least most (padded width n ++ rest) = some ((n, width), rest) := by
  have hlength := length_padded hpos h
  rw [number?_append (fun _ => isDigit_of_mem_padded) (by omega) (by omega) hrest,
    ofDigitChars_padded, hlength]

theorem twoDigits?_padded {n : Nat} {rest : Text} (h : n < 100)
    (hrest : ∀ c ∈ rest.head?, c.isDigit = false) :
    twoDigits? (padded 2 n ++ rest) = some (n, rest) := by
  rw [twoDigits?, number?_padded (by decide) h (by decide) (by decide) hrest]
  rfl

theorem head?_padded (width n : Nat) :
    (padded width n).head?.any (fun c => !isBlankChar c) = true := by
  cases hdigits : padded width n with
  | nil => exact absurd (List.append_eq_nil_iff.1 hdigits).2 (Text.ofNat_ne_nil n)
  | cons c digits =>
    have hc : c.isDigit = true := isDigit_of_mem_padded (hdigits ▸ List.mem_cons_self)
    simp [Text.isBlankChar_of_isDigit hc]

theorem trimStart_padded (width n : Nat) (rest : Text) :
    Text.trimStart (padded width n ++ rest) = padded width n ++ rest :=
  Text.trimStart_append (head?_padded width n) rest

theorem mailYear_four (n : Nat) : mailYear n 4 = n := by
  simp [mailYear]

/-! ### Names -/

/-- A name of three letters is read as the first of the names that it is. -/
theorem nameIndex?_append {names : List Text} {name : Text} {k : Nat} (hlength : name.length = 3)
    (h : names.findIdx? (sameLetters name) = some k) (rest : Text) :
    nameIndex? names (name ++ rest) = some (k, rest) := by
  rw [nameIndex?, List.take_left' hlength, List.drop_left' hlength, h]
  rfl

theorem head?_weekdayNames {w : Nat} (h : w < 7) :
    (weekdayNames.getD w []).head?.any (fun c => !isBlankChar c) = true := by
  revert w
  decide

theorem mailWeekday?_append {w : Nat} (h : w < 7) (rest : Text) :
    mailWeekday? (Text.trimStart (weekdayNames.getD w [] ++ ',' :: rest)) =
      some (some w, rest) := by
  have hnames : ∀ w < 7, (weekdayNames.getD w []).length = 3 ∧
      weekdayNames.findIdx? (sameLetters (weekdayNames.getD w [])) = some w := by decide
  obtain ⟨hlength, hfind⟩ := hnames w h
  rw [Text.trimStart_append (head?_weekdayNames h), mailWeekday?, nameIndex?_append hlength hfind]
  rfl

theorem month_append {m : Nat} (h : m < 12) (rest : Text) :
    nameIndex? monthNames (monthNames.getD m [] ++ rest) = some (m, rest) := by
  have hnames : ∀ m < 12, (monthNames.getD m []).length = 3 ∧
      monthNames.findIdx? (sameLetters (monthNames.getD m [])) = some m := by decide
  obtain ⟨hlength, hfind⟩ := hnames m h
  exact nameIndex?_append hlength hfind rest

theorem head?_monthNames {m : Nat} (h : m < 12) :
    (monthNames.getD m []).head?.any (fun c => !isBlankChar c) = true := by
  revert m
  decide

theorem trimStart_blank {s : Text} (h : s.head?.any (fun c => !isBlankChar c) = true)
    (rest : Text) : Text.trimStart (' ' :: (s ++ rest)) = s ++ rest :=
  Text.trimStart_append h rest

theorem space?_append {s : Text} (h : s.head?.any (fun c => !isBlankChar c) = true)
    (rest : Text) : space? (' ' :: (s ++ rest)) = some (s ++ rest) := by
  rw [space?, trimStart_blank h]
  rfl

/-! ### The parts of the form -/

theorem number?_day {n : Nat} (h : n < 100) (rest : Text) :
    number? 1 2 (Text.trimStart (' ' :: (padded 2 n ++ ' ' :: rest))) =
      some ((n, 2), ' ' :: rest) := by
  rw [trimStart_blank (head?_padded _ _)]
  exact number?_padded (by decide) h (by decide) (by decide) (by simp)

/-- The year, of which any number of digits is read. -/
theorem number?_year {n : Nat} (h : n < 10000) (rest : Text) :
    number? 2 (padded 4 n ++ ' ' :: rest).length (padded 4 n ++ ' ' :: rest) =
      some ((n, 4), ' ' :: rest) := by
  have hfour : (padded 4 n).length = 4 := length_padded (by decide) h
  refine number?_padded (by decide) h (by decide) ?_ (by simp)
  rw [List.length_append, hfour]
  omega

theorem twoDigits?_colon {n : Nat} (h : n < 100) (rest : Text) :
    twoDigits? (padded 2 n ++ ':' :: rest) = some (n, ':' :: rest) :=
  twoDigits?_padded h (by simp)

theorem trimStart_colon (rest : Text) : Text.trimStart (':' :: rest) = ':' :: rest := rfl

theorem expect?_colon (rest : Text) : expect? ':' (Text.trimStart (':' :: rest)) = some rest := rfl

theorem mailSecond?_zone {n : Nat} (h : n < 100) :
    mailSecond? (':' :: (padded 2 n ++ " GMT".toList)) = some (n, " GMT".toList) := by
  rw [mailSecond?, trimStart_colon]
  exact twoDigits?_padded h (by simp)

theorem space?_zone : space? " GMT".toList = some "GMT".toList := by
  decide

theorem mailOffset?_zone : mailOffset? "GMT".toList = some (0, []) := by
  decide

/-! ### The whole form -/

theorem daysInMonth_le (y : Int) (m : Nat) : daysInMonth y m ≤ 31 := by
  unfold daysInMonth
  split_ifs <;> decide

theorem hasDay_iff {n : Int} : hasDay n = true ↔ -96465292 ≤ n ∧ n ≤ 95026236 := by
  have hfirst : (Date.mk firstYear 1 1).toDays = -96465292 := by decide
  have hlast : (Date.mk lastYear 12 31).toDays = 95026236 := by decide
  rw [hasDay, hfirst, hlast, Bool.and_eq_true, decide_eq_true_eq, decide_eq_true_eq]

theorem hasDay_of_year {n : Int} (h : 0 ≤ (Date.ofDays n).year)
    (h' : (Date.ofDays n).year ≤ 9999) : hasDay n = true := by
  have hdays := Date.toDays_ofDays n
  obtain ⟨-, hmonth, -, hday⟩ := Date.isValid_ofDays n
  generalize Date.ofDays n = d at *
  have hlength := daysInMonth_le d.year d.month
  have hsince : 0 ≤ Date.sinceMarch d.month d.day + 1 ∧
      Date.sinceMarch d.month d.day ≤ 400 := by
    unfold Date.sinceMarch
    dsimp only
    split_ifs <;> omega
  rw [hasDay_iff]
  unfold Date.toDays epoch at hdays
  dsimp only at hdays
  split_ifs at hdays <;> omega

variable {i : Instant}

theorem ofCivil?_ofDays (h : 0 ≤ (Date.ofDays i.days).year)
    (h' : (Date.ofDays i.days).year ≤ 9999) :
    ofCivil? (Date.ofDays i.days)
      ⟨i.secondOfDay / 3600, i.secondOfDay / 60 % 60, i.secondOfDay % 60, 0⟩ 0 =
        some ⟨i.seconds, 0⟩ := by
  have htime : (TimeOfDay.mk (i.secondOfDay / 3600) (i.secondOfDay / 60 % 60)
      (i.secondOfDay % 60) 0).toSeconds = i.secondOfDay := by
    unfold TimeOfDay.toSeconds
    dsimp only
    omega
  have hseconds : secondsPerDay * i.days + i.secondOfDay - 0 = i.seconds := by
    unfold days secondOfDay secondsPerDay
    omega
  have hvalid : (TimeOfDay.mk (i.secondOfDay / 3600) (i.secondOfDay / 60 % 60)
      (i.secondOfDay % 60) 0).IsValid := by
    unfold TimeOfDay.IsValid secondOfDay secondsPerDay
    dsimp only
    omega
  have hday := hasDay_of_year h h'
  have hleap : i.secondOfDay % 60 ≠ 60 := by omega
  rw [ofCivil?, Date.toDays_ofDays, htime, hseconds]
  rw [if_pos ⟨Date.isValid_ofDays i.days, hvalid, hday, hday⟩]
  simp [hleap]

theorem yearText_of_four {y : Int} (h : 0 ≤ y) (h' : y ≤ 9999) :
    yearText y = padded 4 y.natAbs := by
  unfold yearText
  rw [if_neg (by omega), if_neg (by omega)]

theorem mailText_eq (i : Instant) : i.mailText =
    weekdayNames.getD (weekday i.days) [] ++ ',' :: ' ' :: (padded 2 (Date.ofDays i.days).day ++
      ' ' :: (monthNames.getD ((Date.ofDays i.days).month - 1) [] ++
        ' ' :: (yearText (Date.ofDays i.days).year ++
          ' ' :: (padded 2 (i.secondOfDay / 3600) ++
            ':' :: (padded 2 (i.secondOfDay / 60 % 60) ++
              ':' :: (padded 2 (i.secondOfDay % 60 + i.nanos / 1000000000) ++
                " GMT".toList)))))) := by
  simp [mailText, dayText, timeText]

/-- **The form of mail headers is read back** as a mail date, without the fraction of the second. -/
theorem ofMailDate?_mailText (h : 0 ≤ (Date.ofDays i.days).year)
    (h' : (Date.ofDays i.days).year ≤ 9999) (hnanos : i.nanos < 1000000000) :
    ofMailDate? i.mailText = some ⟨i.seconds, 0⟩ := by
  have hcivil := ofCivil?_ofDays h h'
  have hdays := Date.toDays_ofDays i.days
  obtain ⟨hmonth, hmonth', -, hday⟩ := Date.isValid_ofDays i.days
  have hyear := yearText_of_four h h'
  rw [mailText_eq, hyear, Nat.div_eq_of_lt hnanos, Nat.add_zero]
  generalize Date.ofDays i.days = d at *
  have hw : weekday i.days < 7 := by
    unfold weekday
    omega
  have hlength := daysInMonth_le d.year d.month
  have hdate : (⟨(d.year.natAbs : Nat), d.month - 1 + 1, d.day⟩ : Date) = d := by
    rw [Int.natAbs_of_nonneg h, Nat.sub_add_cancel hmonth]
  have hsecond : i.secondOfDay < 86400 := by
    unfold secondOfDay secondsPerDay
    omega
  -- each part is read up to what stands after it
  refine Option.bind_eq_some_iff.2 ⟨_, mailWeekday?_append hw _, ?_⟩
  refine Option.bind_eq_some_iff.2 ⟨_, number?_day (by omega) _, ?_⟩
  refine Option.bind_eq_some_iff.2 ⟨_, space?_append (head?_monthNames (by omega)) _, ?_⟩
  refine Option.bind_eq_some_iff.2 ⟨_, month_append (by omega) _, ?_⟩
  refine Option.bind_eq_some_iff.2 ⟨_, space?_append (head?_padded _ _) _, ?_⟩
  refine Option.bind_eq_some_iff.2 ⟨_, number?_year (by omega) _, ?_⟩
  refine Option.bind_eq_some_iff.2 ⟨_, space?_append (head?_padded _ _) _, ?_⟩
  refine Option.bind_eq_some_iff.2 ⟨_, twoDigits?_colon (by omega) _, ?_⟩
  refine Option.bind_eq_some_iff.2 ⟨_, expect?_colon _, ?_⟩
  rw [trimStart_padded]
  refine Option.bind_eq_some_iff.2 ⟨_, twoDigits?_colon (by omega) _, ?_⟩
  refine Option.bind_eq_some_iff.2 ⟨_, mailSecond?_zone (by omega), ?_⟩
  refine Option.bind_eq_some_iff.2 ⟨_, space?_zone, ?_⟩
  refine Option.bind_eq_some_iff.2 ⟨_, mailOffset?_zone, ?_⟩
  simp only [mailYear_four, hdate]
  rw [if_pos ⟨rfl, rfl, by simp [hdays]⟩, hcivil]

/-! ### Texts of any kind -/

theorem trim_mailText (i : Instant) : i.mailText.trim = i.mailText := by
  have hw : weekday i.days < 7 := by
    unfold weekday
    omega
  have hstart : i.mailText.trimStart = i.mailText := by
    rw [mailText_eq]
    exact Text.trimStart_append (head?_weekdayNames hw) _
  have hend : i.mailText.trimEnd = i.mailText := by
    refine Text.trimEnd_eq_self fun c hc => ?_
    have hlast : i.mailText.getLast? = some 'T' := by
      rw [mailText, List.append_cons, List.getLast?_append]
      rfl
    rw [hlast] at hc
    obtain rfl := Option.some.inj hc
    decide
  rw [Text.trim, hstart, hend]

/-- A mail date starts with no digit, so it is no timestamp. -/
theorem ofTimestamp?_mailText (i : Instant) : ofTimestamp? i.mailText = none := by
  have hnames : ∀ w < 7, (weekdayNames.getD w []).head?.any (!·.isDigit) = true := by decide
  have hstart := hnames (weekday i.days) (by unfold weekday; omega)
  have hnumber : number? 4 4 i.mailText = none := by
    rw [mailText_eq]
    generalize weekdayNames.getD (weekday i.days) [] = name at *
    cases name with
    | nil => cases hstart
    | cons c name =>
      have hc : c.isDigit = false := by simpa using hstart
      simp [number?, hc]
  rw [ofTimestamp?, hnumber]
  rfl

/-- **A mail date is read back.** An instant of the years 0 to 9999 that is in no leap second, in
the form of mail headers, is read as the instant at which its second begins. The day of the week,
the day, the month and the year in that form are those of one day of the calendar. -/
theorem mail_date_is_read_back (i : Instant) (h : 0 ≤ (Date.ofDays i.days).year)
    (h' : (Date.ofDays i.days).year ≤ 9999) (hnanos : i.nanos < 1000000000) :
    read? i.mailText = some ⟨i.seconds, 0⟩ ∧
      ∃ d : Date, d.IsValid ∧ d.toDays = i.days ∧
        i.dayText = weekdayNames.getD (weekday d.toDays) [] ++ ',' :: ' ' :: padded 2 d.day ++
          ' ' :: monthNames.getD (d.month - 1) [] ++ ' ' :: padded 4 d.year.natAbs := by
  constructor
  · rw [read?, trim_mailText, ofTimestamp?_mailText, ofMailDate?_mailText h h' hnanos]
    rfl
  · refine ⟨Date.ofDays i.days, Date.isValid_ofDays _, Date.toDays_ofDays _, ?_⟩
    rw [dayText, yearText_of_four h h', Date.toDays_ofDays]

/-- The leap day of the year 96, just before its end. -/
theorem mail_date_is_read_back_leap_day :
    let i : Instant := ⟨-59132505601, 999999999⟩
    i.mailText = "Wed, 29 Feb 0096 23:59:59 GMT".toList ∧ 0 ≤ (Date.ofDays i.days).year ∧
      (Date.ofDays i.days).year ≤ 9999 ∧ i.nanos < 1000000000 ∧
      read? i.mailText = some ⟨-59132505601, 0⟩ :=
  ⟨by decide, by decide, by decide, by decide,
    (mail_date_is_read_back ⟨-59132505601, 999999999⟩ (by decide) (by decide) (by decide)).1⟩

end Instant

end DocSite
