import DocSite.Proofs.Time.DayCount
import DocSite.Proofs.Time.MailDate

/-!
# The forms of a date agree

A date and a time of the day are written in several forms, and five readers are tried on each. All
forms start with a date of four, two and two digits, which none of the readers takes for something
else: a mail date has at most two digits before a blank. So what follows the date decides
(`Instant.read?_dateText`): nothing, a time with or without seconds, or a time with an offset.

* `CivilTime` : a second of the years 0 to 9999, as a calendar and a clock show it.
* `CivilTime.seconds` : the seconds since 1970, by counting days.
* `CivilTime.seconds_lt` : a later date and time of the day is a later second.
* `CivilTime.forms_of_a_date_agree` : every form of a date is read as the second that it names, and
  a date that the calendar does not have is not read.
-/

namespace DocSite

/-! ### Dates and times of the day -/

/-- A second of the years 0 to 9999, as a calendar and a clock show it. -/
structure CivilTime where
  year : Nat
  month : Nat
  day : Nat
  hour : Nat
  minute : Nat
  second : Nat
  year_lt : year < 10000
  date_isValid : (Date.mk year month day).IsValid
  hour_lt : hour < 24
  minute_lt : minute < 60
  second_lt : second < 60

namespace CivilTime

variable (c : CivilTime)

/-- The date. -/
def date : Date := ⟨c.year, c.month, c.day⟩

/-- The number of the date, as days since 1970. -/
def days : Int := Date.count c.year c.month c.day - Date.count 1970 1 1

/-- The seconds from 1970 to the start of the day. -/
def midnight : Int := 86400 * c.days

/-- The seconds from 1970 to the start of the minute. -/
def minuteStart : Int := c.midnight + 3600 * c.hour + 60 * c.minute

/-- The seconds from 1970. -/
def seconds : Int := c.minuteStart + c.second

/-- The numbers of a date and a time, in the order in which they are compared. -/
def fields : List Nat := [c.year, c.month, c.day, c.hour, c.minute, c.second]

theorem count_1970 : Date.count 1970 1 1 = 719528 := by
  have h := Date.toDays_eq_count (y := 1970) (m := 1) (d := 1) (by decide) (by decide) (by decide)
  have hstart : (Date.mk (1970 : Nat) 1 1).toDays = 0 := by decide
  omega

theorem toDays_date : c.date.toDays = c.days := by
  obtain ⟨hm, hm', hd, -⟩ := c.date_isValid
  rw [days, count_1970]
  exact Date.toDays_eq_count hm hm' hd

/-- **A later date and time of the day is a later second.** -/
theorem seconds_lt {a b : CivilTime} (h : a.fields < b.fields) : a.seconds < b.seconds := by
  have ha := a.hour_lt
  have ha' := a.minute_lt
  have ha'' := a.second_lt
  simp only [fields, List.cons_lt_cons_iff, List.not_lt_nil, and_false, or_false] at h
  have hdate : [a.year, a.month, a.day] < [b.year, b.month, b.day] ∨
      Date.count a.year a.month a.day = Date.count b.year b.month b.day ∧
        [a.hour, a.minute, a.second] < [b.hour, b.minute, b.second] := by
    simp only [List.cons_lt_cons_iff, List.not_lt_nil, and_false, or_false]
    rcases h with hy | ⟨hy, hm | ⟨hm, hd | ⟨hd, htime⟩⟩⟩
    · exact .inl (.inl hy)
    · exact .inl (.inr ⟨hy, .inl hm⟩)
    · exact .inl (.inr ⟨hy, .inr ⟨hm, hd⟩⟩)
    · exact .inr ⟨by rw [hy, hm, hd], htime⟩
  unfold seconds minuteStart midnight days
  rcases hdate with hbefore | ⟨hsame, htime⟩
  · have hcount := Date.count_lt a.date_isValid b.date_isValid hbefore
    omega
  · simp only [List.cons_lt_cons_iff, List.not_lt_nil, and_false, or_false] at htime
    omega

end CivilTime

namespace Instant

/-! ### The forms -/

/-- A date in the form `2024-06-01`. -/
def dateText (y m d : Nat) : Text := padded 4 y ++ '-' :: (padded 2 m ++ '-' :: padded 2 d)

/-- An hour and a minute in the form `18:30`. -/
def minuteText (hour minute : Nat) : Text := padded 2 hour ++ ':' :: padded 2 minute

/-- A time of the day in the form `18:30:00`. -/
def secondText (hour minute second : Nat) : Text :=
  minuteText hour minute ++ ':' :: padded 2 second

/-- An offset from universal time in the form `+02:00`. -/
def offsetText (behind : Bool) (hours minutes : Nat) : Text :=
  (if behind then '-' else '+') :: minuteText hours minutes

/-- An offset from universal time, in seconds. -/
def offsetSeconds (behind : Bool) (hours minutes : Nat) : Int :=
  if behind then -(3600 * hours + 60 * minutes) else 3600 * hours + 60 * minutes

/-! ### What follows the date -/

/-- The instant that a timestamp names, from what follows its date. -/
def ofTimestampRest? (date : Date) (s : Text) : Option Instant := do
  let s ← (expect? 'T' s).or ((expect? 't' s).or (expect? ' ' s))
  let (hour, s) ← twoDigits? s
  let s ← expect? ':' s
  let (minute, s) ← twoDigits? s
  let s ← expect? ':' s
  let (second, s) ← twoDigits? s
  let (nanos?, s) ← fraction? s
  let (offset, s) ← timestampOffset? s
  if s = [] ∧ isOffset offset then
    ofCivil? date ⟨hour, minute, second, nanos?.getD 0⟩ offset
  else none

/-- The instant that a plain date with a time names, from what follows the date. -/
def ofPlainRest? (seconds : Bool) (date : Date) (s : Text) : Option Instant := do
  let (hour, s) ← plainNumber? s
  let s ← expect? ':' s
  let (minute, s) ← plainNumber? s
  let (second, s) ←
    if seconds then do plainNumber? (← expect? ':' s) else some (0, s)
  if s = [] then ofCivil? date ⟨hour, minute, second, 0⟩ 0 else none

theorem expect?_cons (c : Char) (rest : Text) : expect? c (c :: rest) = some rest := by
  rw [expect?, if_pos rfl]

variable {y m d : Nat} {rest : Text}

theorem dateText_append (y m d : Nat) (rest : Text) : dateText y m d ++ rest =
    padded 4 y ++ '-' :: (padded 2 m ++ '-' :: (padded 2 d ++ rest)) := by
  simp [dateText]

theorem ofTimestamp?_eq (s : Text) :
    ofTimestamp? s = (do
      let ((year, _), s) ← number? 4 4 s
      let s ← expect? '-' s
      let (month, s) ← twoDigits? s
      let s ← expect? '-' s
      let (day, s) ← twoDigits? s
      ofTimestampRest? ⟨year, month, day⟩ s) := rfl

theorem ofTimestamp?_dateText (hy : y < 10000) (hm : m < 100) (hd : d < 100)
    (hrest : ∀ c ∈ rest.head?, c.isDigit = false) :
    ofTimestamp? (dateText y m d ++ rest) = ofTimestampRest? ⟨y, m, d⟩ rest := by
  have hyear (tail : Text) : number? 4 4 (padded 4 y ++ '-' :: tail) = some ((y, 4), '-' :: tail) :=
    number?_padded (by decide) hy (by decide) (by decide) (by simp)
  have hmonth (tail : Text) : twoDigits? (padded 2 m ++ '-' :: tail) = some (m, '-' :: tail) :=
    twoDigits?_padded hm (by simp)
  rw [dateText_append, ofTimestamp?_eq]
  simp only [hyear, expect?_cons, hmonth, twoDigits?_padded hd hrest, Option.bind_eq_bind,
    Option.bind_some]

theorem plainNumber?_padded {n : Nat} (h : n < 100) (hrest : ∀ c ∈ rest.head?, c.isDigit = false) :
    plainNumber? (padded 2 n ++ rest) = some (n, rest) := by
  rw [plainNumber?, trimStart_padded,
    number?_padded (by decide) h (by decide) (by decide) hrest]
  rfl

theorem exists_digit_cons (width n : Nat) :
    ∃ c digits, padded width n = c :: digits ∧ c.isDigit = true := by
  cases hdigits : padded width n with
  | nil => exact absurd (List.append_eq_nil_iff.1 hdigits).2 (Text.ofNat_ne_nil n)
  | cons c digits =>
    exact ⟨c, digits, rfl, isDigit_of_mem_padded (hdigits ▸ List.mem_cons_self)⟩

theorem plainYear?_padded (hy : y < 10000) (hrest : ∀ c ∈ rest.head?, c.isDigit = false) :
    plainYear? (padded 4 y ++ rest) = some ((y : Int), rest) := by
  obtain ⟨c, digits, hdigits, hc⟩ := exists_digit_cons 4 y
  have hnumber : number? 1 4 (padded 4 y ++ rest) = some ((y, 4), rest) :=
    number?_padded (by decide) hy (by decide) (by decide) hrest
  rw [plainYear?, trimStart_padded]
  -- a digit is no sign
  split
  · rename_i hminus
    rw [hdigits] at hminus
    obtain rfl := (List.cons.inj hminus).1
    cases hc
  · rename_i hplus
    rw [hdigits] at hplus
    obtain rfl := (List.cons.inj hplus).1
    cases hc
  · rw [hnumber]
    rfl

theorem plainDay?_dateText (hy : y < 10000) (hm : m < 100) (hd : d < 100)
    (hrest : ∀ c ∈ rest.head?, c.isDigit = false) :
    plainDay? (dateText y m d ++ rest) = some (⟨y, m, d⟩, rest) := by
  have hyear (tail : Text) : plainYear? (padded 4 y ++ '-' :: tail) = some (↑y, '-' :: tail) :=
    plainYear?_padded hy (by simp)
  have hmonth (tail : Text) : plainNumber? (padded 2 m ++ '-' :: tail) = some (m, '-' :: tail) :=
    plainNumber?_padded hm (by simp)
  rw [dateText_append, plainDay?]
  simp only [hyear, expect?_cons, hmonth, plainNumber?_padded hd hrest, Option.bind_eq_bind,
    Option.bind_some]

theorem toLower_of_isDigit {c : Char} (h : c.isDigit = true) : c.toLower = c := by
  simp only [Char.isDigit, Bool.and_eq_true, decide_eq_true_eq] at h
  exact dif_neg fun ⟨hle, _⟩ => absurd (UInt32.le_trans hle h.2) (by decide)

theorem mailWeekday?_digit {c : Char} (hc : c.isDigit = true) (s : Text) :
    mailWeekday? (c :: s) = some (none, c :: s) := by
  have hnames : ∀ name ∈ weekdayNames, name.head?.any (fun c => !c.toLower.isDigit) = true := by
    decide
  have hnone : nameIndex? weekdayNames (c :: s) = none := by
    rw [nameIndex?, Option.map_eq_none_iff, List.findIdx?_eq_none_iff]
    intro name hname
    have hhead := hnames name hname
    refine decide_eq_false fun heq => ?_
    cases name with
    | nil => cases hhead
    | cons first name =>
      have hfirst : c.toLower = first.toLower := (List.cons.inj heq).1
      rw [List.head?_cons, Option.any_some, ← hfirst, toLower_of_isDigit hc, hc] at hhead
      cases hhead
  rw [mailWeekday?, hnone]

/-- A text that starts with three digits is no mail date. -/
theorem ofMailDate?_digits {a b c : Char} (ha : a.isDigit = true) (hb : b.isDigit = true)
    (hc : c.isDigit = true) (s : Text) : ofMailDate? (a :: b :: c :: s) = none := by
  have htrim : Text.trimStart (a :: b :: c :: s) = a :: b :: c :: s :=
    Text.trimStart_eq_self fun x hx => by
      obtain rfl := Option.some.inj hx
      exact Text.isBlankChar_of_isDigit ha
  have hweekday : mailWeekday? (Text.trimStart (a :: b :: c :: s)) =
      some (none, a :: b :: c :: s) := by
    rw [htrim, mailWeekday?_digit ha]
  have hday : number? 1 2 (Text.trimStart (a :: b :: c :: s)) =
      some ((Nat.ofDigitChars 10 [a, b] 0, 2), c :: s) := by
    rw [htrim]
    simp [number?, ha, hb]
  have hspace : space? (c :: s) = none := by
    rw [space?, if_neg (by simp [Text.isBlankChar_of_isDigit hc])]
  refine Option.bind_eq_none_iff.2 fun found hfound => ?_
  obtain rfl := Option.some.inj (hweekday.symm.trans hfound)
  refine Option.bind_eq_none_iff.2 fun found hfound => ?_
  obtain rfl := Option.some.inj (hday.symm.trans hfound)
  refine Option.bind_eq_none_iff.2 fun found hfound => ?_
  cases hspace.symm.trans hfound

/-! ### The whole form -/

theorem ofCivil?_eq_some (c : CivilTime) {hour minute second : Nat} {offset : Int}
    (hhour : hour < 24) (hminute : minute < 60) (hsecond : second < 60)
    (hlow : -86400 < offset) (hhigh : offset < 86400) :
    ofCivil? c.date ⟨hour, minute, second, 0⟩ offset =
      some ⟨c.midnight + 3600 * hour + 60 * minute + second - offset, 0⟩ := by
  have hcount := Date.count_lt_daysOfYears c.date_isValid c.year_lt
  have hyears := daysOfYears_eq 10000
  have htotal : leapDays ((10000 : Nat) - 1) = 2424 := by decide
  have hdays : -719528 ≤ c.days ∧ c.days ≤ 2932896 := by
    unfold CivilTime.days
    rw [CivilTime.count_1970]
    omega
  have htime : (TimeOfDay.mk hour minute second 0).toSeconds =
      3600 * hour + 60 * minute + second := by
    unfold TimeOfDay.toSeconds
    dsimp only
    omega
  have hvalid : (TimeOfDay.mk hour minute second 0).IsValid := by
    unfold TimeOfDay.IsValid
    dsimp only
    omega
  have hseconds : secondsPerDay * c.days + (3600 * hour + 60 * minute + second : Nat) - offset =
      c.midnight + 3600 * hour + 60 * minute + second - offset := by
    unfold CivilTime.midnight secondsPerDay
    omega
  have hday : hasDay c.days = true := hasDay_iff.2 (by omega)
  have hthen : hasDay ((c.midnight + 3600 * hour + 60 * minute + second - offset) /
      secondsPerDay) = true := by
    unfold CivilTime.midnight secondsPerDay
    exact hasDay_iff.2 (by omega)
  have hleap : second ≠ 60 := by omega
  rw [ofCivil?, CivilTime.toDays_date, htime, hseconds,
    if_pos ⟨c.date_isValid, hvalid, hday, hthen⟩]
  simp [hleap]

theorem ofCivil?_eq_none {date : Date} (h : ¬ date.IsValid) (t : TimeOfDay) (offset : Int) :
    ofCivil? date t offset = none := by
  rw [ofCivil?, if_neg fun hall => h hall.1]

theorem isBlankChar_of_mem_padded {width n : Nat} {c : Char} (h : c ∈ padded width n) :
    Text.isBlankChar c = false :=
  Text.isBlankChar_of_isDigit (isDigit_of_mem_padded h)

theorem trim_dateText (hlast : ∀ c ∈ rest.getLast?, Text.isBlankChar c = false) :
    Text.trim (dateText y m d ++ rest) = dateText y m d ++ rest := by
  refine Text.trim_eq_self (fun c hc => ?_) fun c hc => ?_
  · obtain ⟨first, digits, hdigits, hfirst⟩ := exists_digit_cons 4 y
    rw [dateText, hdigits] at hc
    obtain rfl := Option.some.inj hc
    exact Text.isBlankChar_of_isDigit hfirst
  · rw [List.getLast?_append] at hc
    rcases Option.or_eq_some_iff.1 hc with hrest | ⟨-, hdate⟩
    · exact hlast c hrest
    · have hmem : c ∈ dateText y m d := List.mem_of_getLast? hdate
      simp only [dateText, List.mem_append, List.mem_cons] at hmem
      rcases hmem with hyear | rfl | hmonth | rfl | hday
      · exact isBlankChar_of_mem_padded hyear
      · decide
      · exact isBlankChar_of_mem_padded hmonth
      · decide
      · exact isBlankChar_of_mem_padded hday

/-- **What follows the date decides** how a text that starts with a date is read. -/
theorem read?_dateText (hy : y < 10000) (hm : m < 100) (hd : d < 100)
    (hrest : ∀ c ∈ rest.head?, c.isDigit = false)
    (hlast : ∀ c ∈ rest.getLast?, Text.isBlankChar c = false) :
    read? (dateText y m d ++ rest) =
      (ofTimestampRest? ⟨y, m, d⟩ rest).or
        ((if rest = [] then ofCivil? ⟨y, m, d⟩ ⟨0, 0, 0, 0⟩ 0 else none).or
          ((ofPlainRest? true ⟨y, m, d⟩ rest).or (ofPlainRest? false ⟨y, m, d⟩ rest))) := by
  have hday := plainDay?_dateText hy hm hd hrest
  have hplain : ofPlainDate? (dateText y m d ++ rest) =
      if rest = [] then ofCivil? ⟨y, m, d⟩ ⟨0, 0, 0, 0⟩ 0 else none := by
    rw [ofPlainDate?, hday]
    rfl
  have htimed : ∀ seconds, ofPlainTime? seconds (dateText y m d ++ rest) =
      ofPlainRest? seconds ⟨y, m, d⟩ rest := fun seconds => by
    rw [ofPlainTime?, hday]
    rfl
  have hmail : ofMailDate? (dateText y m d ++ rest) = none := by
    have hlength : (padded 4 y).length = 4 := length_padded (by decide) hy
    match hyear : padded 4 y, hlength with
    | a :: b :: c :: digits, _ =>
      have hdigit : ∀ x ∈ a :: b :: c :: digits, x.isDigit = true := fun x hx =>
        isDigit_of_mem_padded (hyear ▸ hx)
      rw [dateText, hyear]
      exact ofMailDate?_digits (hdigit a (by simp)) (hdigit b (by simp)) (hdigit c (by simp)) _
  rw [read?, trim_dateText hlast, ofTimestamp?_dateText hy hm hd hrest, hmail, hplain, htimed,
    htimed]
  rfl

/-! ### What may follow a date -/

variable {date : Date} {hour minute second : Nat}

theorem isBlankChar_of_mem_secondText {c : Char} (h : c ∈ secondText hour minute second) :
    Text.isBlankChar c = false := by
  simp only [secondText, minuteText, List.mem_append, List.mem_cons] at h
  rcases h with (hhour | rfl | hminute) | rfl | hsecond
  · exact isBlankChar_of_mem_padded hhour
  · decide
  · exact isBlankChar_of_mem_padded hminute
  · decide
  · exact isBlankChar_of_mem_padded hsecond

theorem isBlankChar_of_mem_minuteText {c : Char} (h : c ∈ minuteText hour minute) :
    Text.isBlankChar c = false := by
  have hsecond : c ∈ secondText hour minute 0 := List.mem_append_left _ h
  exact isBlankChar_of_mem_secondText hsecond

theorem twoDigits?_end {n : Nat} (h : n < 100) : twoDigits? (padded 2 n) = some (n, []) := by
  rw [← List.append_nil (padded 2 n)]
  exact twoDigits?_padded h (by simp)

/-- A timestamp after its time, where nothing but an offset may stand. -/
theorem ofTimestampRest?_secondText {c : Char} {zone : Text} (hc : c = 'T' ∨ c = ' ')
    (hhour : hour < 100) (hminute : minute < 100) (hsecond : second < 100)
    (hdigit : ∀ c ∈ zone.head?, c.isDigit = false) (hpoint : '.' ∉ zone.head?) :
    ofTimestampRest? date (c :: (secondText hour minute second ++ zone)) =
      (timestampOffset? zone).bind fun (offset, s) =>
        if s = [] ∧ isOffset offset then ofCivil? date ⟨hour, minute, second, 0⟩ offset
        else none := by
  have hseparator : ∀ s : Text,
      (expect? 'T' (c :: s)).or ((expect? 't' (c :: s)).or (expect? ' ' (c :: s))) = some s := by
    rcases hc with rfl | rfl <;> intro s <;> rfl
  have hfraction : fraction? zone = some (none, zone) := by
    cases zone with
    | nil => rfl
    | cons z zone =>
      have hz : z ≠ '.' := fun hz => hpoint (by rw [hz]; rfl)
      simp [fraction?, hz]
  have htext : secondText hour minute second ++ zone =
      padded 2 hour ++ ':' :: (padded 2 minute ++ ':' :: (padded 2 second ++ zone)) := by
    simp [secondText, minuteText]
  rw [htext]
  rw [ofTimestampRest?]
  simp only [hseparator, twoDigits?_colon hhour, twoDigits?_colon hminute, expect?_cons,
    twoDigits?_padded hsecond hdigit, hfraction, Option.bind_eq_bind, Option.bind_some,
    Option.getD_none]

theorem ofTimestampRest?_minuteText (hhour : hour < 100) (hminute : minute < 100) :
    ofTimestampRest? date (' ' :: minuteText hour minute) = none := by
  have hblank (s : Text) :
      (expect? 'T' (' ' :: s)).or ((expect? 't' (' ' :: s)).or (expect? ' ' (' ' :: s))) = some s :=
    rfl
  have hcolon : expect? ':' [] = none := rfl
  rw [ofTimestampRest?, minuteText, hblank]
  simp only [twoDigits?_colon hhour, expect?_cons, twoDigits?_end hminute, hcolon,
    Option.bind_eq_bind, Option.bind_some, Option.bind_none]

theorem plainNumber?_blank {n : Nat} (h : n < 100) (hrest : ∀ c ∈ rest.head?, c.isDigit = false) :
    plainNumber? (' ' :: (padded 2 n ++ rest)) = some (n, rest) := by
  have hblank : plainNumber? (' ' :: (padded 2 n ++ rest)) = plainNumber? (padded 2 n ++ rest) := by
    rw [plainNumber?, plainNumber?, trimStart_blank (head?_padded _ _), trimStart_padded]
  rw [hblank, plainNumber?_padded h hrest]

theorem plainNumber?_end {n : Nat} (h : n < 100) : plainNumber? (padded 2 n) = some (n, []) := by
  rw [← List.append_nil (padded 2 n)]
  exact plainNumber?_padded h (by simp)

theorem plainNumber?_hour {n : Nat} (h : n < 100) (s : Text) :
    plainNumber? (' ' :: (padded 2 n ++ ':' :: s)) = some (n, ':' :: s) :=
  plainNumber?_blank h (by simp)

theorem ofPlainRest?_minuteText (hhour : hour < 100) (hminute : minute < 100) (seconds : Bool) :
    ofPlainRest? seconds date (' ' :: minuteText hour minute) =
      if seconds then none else ofCivil? date ⟨hour, minute, 0, 0⟩ 0 := by
  rw [ofPlainRest?, minuteText]
  simp only [plainNumber?_hour hhour, expect?_cons, plainNumber?_end hminute, Option.bind_eq_bind,
    Option.bind_some]
  cases seconds <;> rfl

theorem ofPlainRest?_secondText (hhour : hour < 100) (hminute : minute < 100)
    (hsecond : second < 100) :
    ofPlainRest? true date (' ' :: secondText hour minute second) =
      ofCivil? date ⟨hour, minute, second, 0⟩ 0 := by
  have htext : secondText hour minute second =
      padded 2 hour ++ ':' :: (padded 2 minute ++ ':' :: padded 2 second) := by
    simp [secondText, minuteText]
  rw [htext]
  have hminutes (tail : Text) :
      plainNumber? (padded 2 minute ++ ':' :: tail) = some (minute, ':' :: tail) :=
    plainNumber?_padded hminute (by simp)
  rw [ofPlainRest?]
  simp only [plainNumber?_hour hhour, expect?_cons, hminutes, plainNumber?_end hsecond, if_true,
    Option.bind_eq_bind, Option.bind_some]

theorem timestampOffset?_offsetText (behind : Bool) {hours minutes : Nat} (hhours : hours < 100)
    (hminutes : minutes < 60) :
    timestampOffset? (offsetText behind hours minutes) =
      some (offsetSeconds behind hours minutes, []) := by
  have hclock : hoursAndMinutes? true (minuteText hours minutes) =
      some ((3600 * hours + 60 * minutes : Int), []) := by
    have hend : twoDigits? (padded 2 minutes) = some (minutes, []) := twoDigits?_end (by omega)
    rw [hoursAndMinutes?, minuteText]
    simp only [twoDigits?_colon hhours, if_true, expect?_cons, hend, hminutes, Option.bind_eq_bind,
      Option.bind_some]
  cases behind with
  | false => exact hclock
  | true =>
    have hsigned : signedOffset? true true ('-' :: minuteText hours minutes) =
        (hoursAndMinutes? true (minuteText hours minutes)).map fun (n, rest) => (-n, rest) := rfl
    have hoffset : timestampOffset? ('-' :: minuteText hours minutes) =
        signedOffset? true true ('-' :: minuteText hours minutes) := rfl
    rw [offsetText, if_pos rfl, hoffset, hsigned, hclock]
    rfl

/-! ### Every form of a date -/

theorem isBlankChar_getLast?_cons (first : Char) {s : Text} (hne : s ≠ [])
    (h : ∀ c ∈ s, Text.isBlankChar c = false) :
    ∀ c ∈ (first :: s).getLast?, Text.isBlankChar c = false := fun c hc => by
  rw [List.getLast?_cons_of_ne_nil hne] at hc
  exact h c (List.mem_of_getLast? hc)

theorem minuteText_ne_nil (hour minute : Nat) : minuteText hour minute ≠ [] :=
  List.append_ne_nil_of_right_ne_nil _ (List.cons_ne_nil _ _)

theorem secondText_ne_nil (hour minute second : Nat) : secondText hour minute second ≠ [] :=
  List.append_ne_nil_of_right_ne_nil _ (List.cons_ne_nil _ _)

end Instant

namespace CivilTime

open Instant

variable (c : CivilTime)

/-- The date in the form `2024-06-01`. -/
def dayText : Text := dateText c.year c.month c.day

/-- The time of the day in the form `18:30`. -/
def shortText : Text := minuteText c.hour c.minute

/-- The time of the day in the form `18:30:00`. -/
def clockText : Text := secondText c.hour c.minute c.second

theorem clock_lt : c.hour < 100 ∧ c.minute < 100 ∧ c.second < 100 :=
  ⟨c.hour_lt.trans (by decide), c.minute_lt.trans (by decide), c.second_lt.trans (by decide)⟩

theorem read?_dayText {rest : Text} (hrest : ∀ c ∈ rest.head?, c.isDigit = false)
    (hlast : ∀ c ∈ rest.getLast?, Text.isBlankChar c = false) :
    read? (c.dayText ++ rest) =
      (ofTimestampRest? c.date rest).or
        ((if rest = [] then ofCivil? c.date ⟨0, 0, 0, 0⟩ 0 else none).or
          ((ofPlainRest? true c.date rest).or (ofPlainRest? false c.date rest))) := by
  obtain ⟨-, hmonth, -, hday⟩ := c.date_isValid
  dsimp only at hmonth hday
  have hlength := daysInMonth_le c.year c.month
  exact read?_dateText c.year_lt (by omega) (by omega) hrest hlast

theorem read?_date : read? c.dayText = some ⟨c.midnight, 0⟩ := by
  have hstamp : ofTimestampRest? c.date [] = none := rfl
  have hcivil : ofCivil? c.date ⟨0, 0, 0, 0⟩ 0 = some ⟨c.midnight, 0⟩ := by
    rw [ofCivil?_eq_some c (by decide) (by decide) (by decide) (by decide) (by decide)]
    simp
  rw [← List.append_nil c.dayText, c.read?_dayText (by simp) (by simp), hstamp, if_pos rfl, hcivil]
  rfl

theorem read?_minute : read? (c.dayText ++ ' ' :: c.shortText) = some ⟨c.minuteStart, 0⟩ := by
  obtain ⟨hhour, hminute, -⟩ := c.clock_lt
  have hlast : ∀ x ∈ (' ' :: c.shortText).getLast?, Text.isBlankChar x = false :=
    isBlankChar_getLast?_cons ' ' (minuteText_ne_nil c.hour c.minute)
      fun _ => isBlankChar_of_mem_minuteText
  have hstamp : ofTimestampRest? c.date (' ' :: c.shortText) = none :=
    ofTimestampRest?_minuteText hhour hminute
  have hplain : ∀ seconds, ofPlainRest? seconds c.date (' ' :: c.shortText) =
      if seconds then none else ofCivil? c.date ⟨c.hour, c.minute, 0, 0⟩ 0 :=
    ofPlainRest?_minuteText hhour hminute
  have hcivil : ofCivil? c.date ⟨c.hour, c.minute, 0, 0⟩ 0 = some ⟨c.minuteStart, 0⟩ := by
    rw [ofCivil?_eq_some c c.hour_lt c.minute_lt (by decide) (by decide) (by decide)]
    simp [minuteStart]
  rw [c.read?_dayText (by simp) hlast, hstamp, if_neg (List.cons_ne_nil _ _), hplain, hplain,
    hcivil]
  rfl

theorem ofCivil?_seconds {offset : Int} (hlow : -86400 < offset) (hhigh : offset < 86400) :
    ofCivil? c.date ⟨c.hour, c.minute, c.second, 0⟩ offset = some ⟨c.seconds - offset, 0⟩ :=
  ofCivil?_eq_some c c.hour_lt c.minute_lt c.second_lt hlow hhigh

theorem read?_second : read? (c.dayText ++ ' ' :: c.clockText) = some ⟨c.seconds, 0⟩ := by
  obtain ⟨hhour, hminute, hsecond⟩ := c.clock_lt
  have hlast : ∀ x ∈ (' ' :: c.clockText).getLast?, Text.isBlankChar x = false :=
    isBlankChar_getLast?_cons ' ' (secondText_ne_nil c.hour c.minute c.second)
      fun _ => isBlankChar_of_mem_secondText
  -- without an offset it is no timestamp
  have hstamp : ofTimestampRest? c.date (' ' :: c.clockText) = none := by
    rw [← List.append_nil c.clockText]
    exact ofTimestampRest?_secondText (.inr rfl) hhour hminute hsecond (by simp) (by simp)
  have hplain : ofPlainRest? true c.date (' ' :: c.clockText) =
      ofCivil? c.date ⟨c.hour, c.minute, c.second, 0⟩ 0 :=
    ofPlainRest?_secondText hhour hminute hsecond
  rw [c.read?_dayText (by simp) hlast, hstamp, if_neg (List.cons_ne_nil _ _), hplain,
    c.ofCivil?_seconds (by decide) (by decide), Int.sub_zero]
  rfl

theorem read?_timestamp {zone : Text} {offset : Int}
    (hzone : timestampOffset? zone = some (offset, []))
    (hlow : -86400 < offset) (hhigh : offset < 86400)
    (hdigit : ∀ c ∈ zone.head?, c.isDigit = false) (hpoint : '.' ∉ zone.head?)
    (hblank : ∀ c ∈ zone, Text.isBlankChar c = false) :
    read? (c.dayText ++ 'T' :: (c.clockText ++ zone)) = some ⟨c.seconds - offset, 0⟩ := by
  obtain ⟨hhour, hminute, hsecond⟩ := c.clock_lt
  have hlast : ∀ x ∈ ('T' :: (c.clockText ++ zone)).getLast?, Text.isBlankChar x = false :=
    isBlankChar_getLast?_cons 'T'
      (List.append_ne_nil_of_left_ne_nil (secondText_ne_nil c.hour c.minute c.second) zone)
      fun x hx => (List.mem_append.1 hx).elim isBlankChar_of_mem_secondText (hblank x)
  have hoffset : isOffset offset = true := by
    simp [isOffset, secondsPerDay, hlow, hhigh]
  have hstamp : ofTimestampRest? c.date ('T' :: (c.clockText ++ zone)) =
      some ⟨c.seconds - offset, 0⟩ := by
    rw [clockText, ofTimestampRest?_secondText (.inl rfl) hhour hminute hsecond hdigit hpoint,
      hzone, Option.bind_some]
    exact (if_pos ⟨rfl, hoffset⟩).trans (c.ofCivil?_seconds hlow hhigh)
  rw [c.read?_dayText (by simp) hlast, hstamp]
  rfl

theorem read?_universal : read? (c.dayText ++ 'T' :: (c.clockText ++ ['Z'])) =
    some ⟨c.seconds, 0⟩ := by
  have hzone : timestampOffset? ['Z'] = some (0, []) := rfl
  have h := c.read?_timestamp hzone (by decide) (by decide) (by simp) (by simp) (by simp; decide)
  rwa [Int.sub_zero] at h

theorem read?_offset (behind : Bool) {hours minutes : Nat} (hhours : hours < 24)
    (hminutes : minutes < 60) :
    read? (c.dayText ++ 'T' :: (c.clockText ++ offsetText behind hours minutes)) =
      some ⟨c.seconds - offsetSeconds behind hours minutes, 0⟩ := by
  have hzone := timestampOffset?_offsetText behind (hhours.trans (by decide)) hminutes
  have hoffset : -86400 < offsetSeconds behind hours minutes ∧
      offsetSeconds behind hours minutes < 86400 := by
    unfold offsetSeconds
    split <;> omega
  refine c.read?_timestamp hzone hoffset.1 hoffset.2 ?_ ?_ ?_
  · cases behind <;> simp [offsetText]
  · cases behind <;> simp [offsetText]
  · intro x hx
    rcases List.mem_cons.1 hx with rfl | hclock
    · cases behind <;> decide
    · exact isBlankChar_of_mem_minuteText hclock

theorem read?_invalid {y m d : Nat} (hy : y < 10000) (hm : m < 100) (hd : d < 100)
    (h : ¬ (Date.mk y m d).IsValid) : read? (dateText y m d) = none := by
  have hcivil := ofCivil?_eq_none h ⟨0, 0, 0, 0⟩ 0
  rw [← List.append_nil (dateText y m d), read?_dateText hy hm hd (by simp) (by simp), if_pos rfl,
    hcivil]
  rfl

/-- **The forms of a date agree.** A date of the years 0 to 9999 is read as the start of its day,
and with a time of the day as that second, whether a blank stands before the time, or a `T` before
it and a `Z` or an offset after it, which is then taken away; without seconds it is the start of the
minute. A later date and time of the day is a later second, so the one is not before the other in a
listing. A date that the calendar does not have is not read, and white space around a text does not
matter. -/
theorem forms_of_a_date_agree :
    (∀ c : CivilTime,
      read? c.dayText = some ⟨c.midnight, 0⟩ ∧
      read? (c.dayText ++ ' ' :: c.clockText) = some ⟨c.seconds, 0⟩ ∧
      read? (c.dayText ++ 'T' :: (c.clockText ++ ['Z'])) = some ⟨c.seconds, 0⟩ ∧
      read? (c.dayText ++ ' ' :: c.shortText) = some ⟨c.minuteStart, 0⟩ ∧
      ∀ behind hours minutes, hours < 24 → minutes < 60 →
        read? (c.dayText ++ 'T' :: (c.clockText ++ offsetText behind hours minutes)) =
          some ⟨c.seconds - offsetSeconds behind hours minutes, 0⟩) ∧
    (∀ a b : CivilTime, a.fields < b.fields →
      a.seconds < b.seconds ∧ notBefore ⟨a.seconds, 0⟩ ⟨b.seconds, 0⟩ = false) ∧
    (∀ y m d : Nat, y < 10000 → m < 100 → d < 100 → ¬ (Date.mk y m d).IsValid →
      read? (dateText y m d) = none) ∧
    ∀ before s after : Text, Text.isBlank before = true → Text.isBlank after = true →
      read? (before ++ s ++ after) = read? s := by
  refine ⟨fun c => ⟨c.read?_date, c.read?_second, c.read?_universal, c.read?_minute, ?_⟩,
    ?_, ?_, ?_⟩
  · intro behind hours minutes hhours hminutes
    exact c.read?_offset behind hhours hminutes
  · intro a b h
    have hlt := seconds_lt h
    refine ⟨hlt, ?_⟩
    simp [notBefore]
    omega
  · intro y m d hy hm hd h
    exact read?_invalid hy hm hd h
  · intro before s after hbefore hafter
    rw [read?, read?, Text.trim_append_blank hbefore hafter]

/-- The last second of a leap day, long before 1970. -/
def leapNight : CivilTime where
  year := 4
  month := 2
  day := 29
  hour := 23
  minute := 59
  second := 59
  year_lt := by decide
  date_isValid := by decide
  hour_lt := by decide
  minute_lt := by decide
  second_lt := by decide

/-- The second after it. -/
def springMorning : CivilTime where
  year := 4
  month := 3
  day := 1
  hour := 0
  minute := 0
  second := 0
  year_lt := by decide
  date_isValid := by decide
  hour_lt := by decide
  minute_lt := by decide
  second_lt := by decide

/-- An offset over the end of a leap day, the second after it, a leap day of a year that has none,
and white space around a date. -/
theorem forms_of_a_date_agree_leap_night :
    (read? "0004-02-29T23:59:59-05:30".toList = some ⟨-62035785001, 0⟩ ∧
      5 < 24 ∧ 30 < 60) ∧
    (leapNight.fields < springMorning.fields ∧ leapNight.seconds < springMorning.seconds) ∧
    (¬ (Date.mk (1900 : Nat) 2 29).IsValid ∧ read? "1900-02-29".toList = none) ∧
    Text.isBlank " \t".toList = true ∧ Text.isBlank "\n".toList = true ∧
      read? " \t0004-03-01\n".toList = read? "0004-03-01".toList := by
  obtain ⟨hforms, horder, hinvalid, hblank⟩ := forms_of_a_date_agree
  obtain ⟨-, -, -, -, hoffset⟩ := hforms leapNight
  have hdays : leapNight.days = -718008 := by
    rw [← toDays_date]
    decide
  have hseconds : leapNight.seconds - offsetSeconds true 5 30 = -62035785001 := by
    rw [seconds, minuteStart, midnight, hdays]
    decide
  have hread := hoffset true 5 30 (by decide) (by decide)
  rw [hseconds] at hread
  exact ⟨⟨hread, by decide, by decide⟩, ⟨by decide, (horder _ _ (by decide)).1⟩,
    ⟨by decide, hinvalid 1900 2 29 (by decide) (by decide) (by decide) (by decide)⟩, by decide,
    by decide, hblank " \t".toList "0004-03-01".toList "\n".toList (by decide) (by decide)⟩

end CivilTime

end DocSite
