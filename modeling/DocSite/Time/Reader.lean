import DocSite.Time.Instant

/-!
# Reading instants

Three kinds of text name an instant: timestamps (`2024-06-01T18:30:00+02:00`), mail dates
(`Sat, 01 Jun 2024 18:30:00 GMT`), and plain dates with or without a time (`2024-06-01 18:30`),
which are in universal time.

* `Instant.ofTimestamp?`, `Instant.ofMailDate?` : the first two kinds.
* `Instant.ofPlainDate?`, `Instant.ofPlainTime?` : plain dates without and with a time.
* `Instant.read?` : the instant that a text of any kind names.
-/

namespace DocSite

namespace Instant

/-! ### Parts -/

/-- A number of at least `least` and at most `most` digits at the start of a text, with the count of
its digits, and what follows it. -/
def number? (least most : Nat) (s : Text) : Option ((Nat × Nat) × Text) :=
  let digits := (s.take most).takeWhile Char.isDigit
  if least ≤ digits.length then
    some ((Nat.ofDigitChars 10 digits 0, digits.length), s.drop digits.length)
  else none

/-- A number of exactly two digits, and what follows it. -/
def twoDigits? (s : Text) : Option (Nat × Text) := (number? 2 2 s).map fun ((n, _), s) => (n, s)

/-- What follows a character at the start of a text. -/
def expect? (c : Char) : Text → Option Text
  | [] => none
  | d :: rest => if d = c then some rest else none

/-- What follows white space that must be there. -/
def space? (s : Text) : Option Text :=
  match s with
  | c :: _ => if Text.isBlankChar c then some s.trimStart else none
  | [] => none

/-- The nanoseconds after a point, none if there is no point, and what follows them. Digits after
the ninth place are dropped. -/
def fraction? (s : Text) : Option (Option Nat × Text) :=
  match s with
  | '.' :: rest => do
    let ((n, count), rest) ← number? 1 9 rest
    some (some (n * Nat.pow 10 (9 - count)), rest.dropWhile Char.isDigit)
  | _ => some (none, s)

/-- An offset from universal time in seconds, without its sign: two digits of hours, a colon if
there is one to be, and two digits of minutes. -/
def hoursAndMinutes? (colon : Bool) (s : Text) : Option (Int × Text) := do
  let (hours, s) ← twoDigits? s
  let s ← if colon then expect? ':' s else some s
  let (minutes, s) ← twoDigits? s
  if minutes < 60 then some (3600 * hours + 60 * minutes, s) else none

/-- An offset from universal time in seconds, with its sign. A true minus sign, which is no hyphen,
counts only where `typographic` allows it. -/
def signedOffset? (colon typographic : Bool) (s : Text) : Option (Int × Text) :=
  match s with
  | '+' :: rest => hoursAndMinutes? colon rest
  | '-' :: rest => (hoursAndMinutes? colon rest).map fun (n, rest) => (-n, rest)
  | '\u2212' :: rest =>
    if typographic then (hoursAndMinutes? colon rest).map fun (n, rest) => (-n, rest) else none
  | _ => none

/-- Whether an offset is less than a day. -/
def isOffset (offset : Int) : Bool := -secondsPerDay < offset && offset < secondsPerDay

/-! ### Timestamps -/

/-- The offset of a timestamp. -/
def timestampOffset? (s : Text) : Option (Int × Text) :=
  match s with
  | 'Z' :: rest => some (0, rest)
  | 'z' :: rest => some (0, rest)
  | _ => signedOffset? true true s

/-- The instant that a timestamp names: a date, a `T` or a blank, a time with seconds, and an
offset. -/
def ofTimestamp? (s : Text) : Option Instant := do
  let ((year, _), s) ← number? 4 4 s
  let s ← expect? '-' s
  let (month, s) ← twoDigits? s
  let s ← expect? '-' s
  let (day, s) ← twoDigits? s
  let s ← (expect? 'T' s).or ((expect? 't' s).or (expect? ' ' s))
  let (hour, s) ← twoDigits? s
  let s ← expect? ':' s
  let (minute, s) ← twoDigits? s
  let s ← expect? ':' s
  let (second, s) ← twoDigits? s
  let (nanos?, s) ← fraction? s
  let (offset, s) ← timestampOffset? s
  if s = [] ∧ isOffset offset then
    ofCivil? ⟨year, month, day⟩ ⟨hour, minute, second, nanos?.getD 0⟩ offset
  else none

/-! ### Mail dates -/

/-- Whether two texts are the same but for the case of ASCII letters. -/
def sameLetters (a b : Text) : Bool := a.map Char.toLower = b.map Char.toLower

/-- The position of the name in a list that starts a text, and what follows it. Names have three
letters, of either case. -/
def nameIndex? (names : List Text) (s : Text) : Option (Nat × Text) :=
  (names.findIdx? (sameLetters (s.take 3))).map fun i => (i, s.drop 3)

/-- The zones that mail dates name, with their hours from universal time. -/
def zones : List (Text × Int) :=
  [("gmt".toList, 0), ("ut".toList, 0), ("z".toList, 0), ("edt".toList, -4), ("est".toList, -5),
   ("cdt".toList, -5), ("cst".toList, -6), ("mdt".toList, -6), ("mst".toList, -7),
   ("pdt".toList, -7), ("pst".toList, -8)]

/-- The offset of a named zone. Any other single letter but `J` says nothing of the offset. -/
def zoneOffset? (name : Text) : Option Int :=
  match zones.find? fun (zone, _) => sameLetters zone name with
  | some (_, hours) => some (3600 * hours)
  | none =>
    match name with
    | [c] => if c = 'j' ∨ c = 'J' then none else some 0
    | _ => none

/-- The offset of a mail date. -/
def mailOffset? (s : Text) : Option (Int × Text) :=
  match s.takeWhile Char.isAlpha with
  | [] => signedOffset? false false s
  | name => (zoneOffset? name).map fun offset => (offset, s.drop name.length)

/-- What follows the parenthesis that closes `depth` open ones, where `escaped` says whether a
backslash stands before the text. -/
def closeComment? : (depth : Nat) → (escaped : Bool) → Text → Option Text
  | _, _, [] => none
  | depth, true, _ :: rest => closeComment? depth false rest
  | depth, false, c :: rest =>
    if c = '\\' then closeComment? depth true rest
    else if c = '(' then closeComment? (depth + 1) false rest
    else if c = ')' then (if depth = 1 then some rest else closeComment? (depth - 1) false rest)
    else closeComment? depth false rest

/-- What follows a comment in parentheses. -/
def comment? (s : Text) : Option Text :=
  match s.trimStart with
  | '(' :: rest => closeComment? 1 false rest
  | _ => none

/-- Whether a text holds comments alone. At most `n` of them are read. -/
def isComments : (n : Nat) → Text → Bool
  | 0, s => s = []
  | n + 1, s =>
    match comment? s with
    | some rest => isComments n rest
    | none => s = []

/-- The year that the digits of a mail date mean: two and three digits are of the twentieth century
or later, two digits below fifty of the next one. -/
def mailYear (n count : Nat) : Nat :=
  if count = 2 ∧ n < 50 then n + 2000
  else if count = 2 ∨ count = 3 then n + 1900
  else n

/-- The day of the week at the start of a mail date, none if there is none, and what follows it. -/
def mailWeekday? (s : Text) : Option (Option Nat × Text) :=
  match nameIndex? weekdayNames s with
  | some (w, rest) => (expect? ',' rest).map fun rest => (some w, rest)
  | none => some (none, s)

/-- The second of a mail date, zero if there is none, and what follows it. -/
def mailSecond? (s : Text) : Option (Nat × Text) :=
  match expect? ':' s.trimStart with
  | some rest => twoDigits? rest
  | none => some (0, s)

/-- The instant that a mail date names. The day of the week must be that of the date. -/
def ofMailDate? (s : Text) : Option Instant := do
  let (w, s) ← mailWeekday? s.trimStart
  let ((day, _), s) ← number? 1 2 s.trimStart
  let s ← space? s
  let (month, s) ← nameIndex? monthNames s
  let s ← space? s
  let ((n, count), s) ← number? 2 s.length s
  let s ← space? s
  let (hour, s) ← twoDigits? s
  let s ← expect? ':' s.trimStart
  let (minute, s) ← twoDigits? s.trimStart
  let (second, s) ← mailSecond? s
  let s ← space? s
  let (offset, s) ← mailOffset? s
  let date : Date := ⟨mailYear n count, month + 1, day⟩
  if isComments s.length s ∧ isOffset offset ∧ w.all (weekday date.toDays = ·) then
    ofCivil? date ⟨hour, minute, second, 0⟩ offset
  else none

/-! ### Plain dates -/

/-- A year: after a sign any number of digits, and at most four without one. -/
def plainYear? (s : Text) : Option (Int × Text) :=
  match s.trimStart with
  | '-' :: rest => (number? 1 rest.length rest).map fun ((n, _), rest) => (-n, rest)
  | '+' :: rest => (number? 1 rest.length rest).map fun ((n, _), rest) => (n, rest)
  | rest => (number? 1 4 rest).map fun ((n, _), rest) => (n, rest)

/-- One or two digits after white space. -/
def plainNumber? (s : Text) : Option (Nat × Text) :=
  (number? 1 2 s.trimStart).map fun ((n, _), s) => (n, s)

/-- A date at the start of a text, and what follows it. -/
def plainDay? (s : Text) : Option (Date × Text) := do
  let (year, s) ← plainYear? s
  let s ← expect? '-' s
  let (month, s) ← plainNumber? s
  let s ← expect? '-' s
  let (day, s) ← plainNumber? s
  some (⟨year, month, day⟩, s)

/-- The start of the day that a plain date names. -/
def ofPlainDate? (s : Text) : Option Instant := do
  let (date, s) ← plainDay? s
  if s = [] then ofCivil? date ⟨0, 0, 0, 0⟩ 0 else none

/-- The instant that a plain date with a time names, with seconds if `seconds` holds. -/
def ofPlainTime? (seconds : Bool) (s : Text) : Option Instant := do
  let (date, s) ← plainDay? s
  let (hour, s) ← plainNumber? s
  let s ← expect? ':' s
  let (minute, s) ← plainNumber? s
  let (second, s) ←
    if seconds then do plainNumber? (← expect? ':' s) else some (0, s)
  if s = [] then ofCivil? date ⟨hour, minute, second, 0⟩ 0 else none

/-- The instant that a text names. White space at its ends says nothing. -/
def read? (s : Text) : Option Instant :=
  let s := s.trim
  (ofTimestamp? s).or <| (ofMailDate? s).or <| (ofPlainDate? s).or <|
    (ofPlainTime? true s).or (ofPlainTime? false s)

end Instant

end DocSite
