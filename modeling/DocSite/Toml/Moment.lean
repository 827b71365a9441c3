import DocSite.Time.Reader

/-!
# Dates and times in TOML

A moment is a date, a time of the day, or both, and with both there may be an offset from universal
time.

* `Moment.read?` : the moment that a text names.
* `Moment.text` : a moment in its plain form.
-/

namespace DocSite

namespace Toml

/-- How far a time is from universal time. -/
inductive Offset where
  /-- Universal time itself. -/
  | zulu
  /-- A number of seconds. -/
  | seconds (n : Int)
  deriving DecidableEq, Repr

/-- A time of the day, to the minute or to the nanosecond. -/
structure Clock where
  hour : Nat
  minute : Nat
  second? : Option Nat
  /-- The nanoseconds, if a fraction of a second is written. -/
  nanos? : Option Nat
  deriving DecidableEq, Repr

/-- A date, a time of the day, or both. -/
structure Moment where
  date? : Option Date
  clock? : Option Clock
  offset? : Option Offset
  deriving DecidableEq, Repr

namespace Moment

open Instant (number? twoDigits? expect? fraction? signedOffset? padded)

/-- The date at the start of a text, and what follows it. -/
def dateAt? (s : Text) : Option (Date × Text) := do
  let ((year, _), s) ← number? 4 4 s
  let (month, s) ← expect? '-' s >>= twoDigits?
  let (day, s) ← expect? '-' s >>= twoDigits?
  let d : Date := ⟨year, month, day⟩
  if d.IsValid then some (d, s) else none

/-- The time of the day at the start of a text, and what follows it. -/
def clockAt? (s : Text) : Option (Clock × Text) := do
  let (hour, s) ← twoDigits? s
  let (minute, s) ← expect? ':' s >>= twoDigits?
  if 23 < hour ∨ 59 < minute then none
  match s with
  | ':' :: s => do
    let (second, s) ← twoDigits? s
    let (nanos?, s) ← fraction? s
    if 60 < second then none else some (⟨hour, minute, some second, nanos?⟩, s)
  | _ => some (⟨hour, minute, none, none⟩, s)

/-- The offset that is all of a text, or none if the text is empty. -/
def offsetIn? (s : Text) : Option (Option Offset) :=
  match s with
  | [] => some none
  | ['Z'] => some (some .zulu)
  | ['z'] => some (some .zulu)
  | _ => do
    let (n, rest) ← signedOffset? true false s
    if rest = [] ∧ Instant.isOffset n then some (some (.seconds n)) else none

/-- Whether a character stands between a date and a time. -/
def isSeparator (c : Char) : Bool := c = 'T' || c = 't' || c = ' '

/-- The moment that a text names. -/
def read? (s : Text) : Option Moment :=
  match dateAt? s with
  | some (d, []) => some ⟨some d, none, none⟩
  | some (d, c :: rest) =>
    if isSeparator c then do
      let (clock, rest) ← clockAt? rest
      some ⟨some d, some clock, ← offsetIn? rest⟩
    else none
  | none => do
    let (clock, rest) ← clockAt? s
    if rest = [] then some ⟨none, some clock, none⟩ else none

/-! ### Texts -/

/-- A date in digits. -/
def dateText (d : Date) : Text :=
  padded 4 d.year.toNat ++ '-' :: padded 2 d.month ++ '-' :: padded 2 d.day

/-- A fraction of a second and the point before it. Zeros at its end are left out, but not its only
digit. -/
def fractionText (nanos : Nat) : Text :=
  match Text.dropEndWhile (· = '0') (padded 9 nanos) with
  | [] => ".0".toList
  | digits => '.' :: digits

/-- A time of the day in digits. -/
def clockText (c : Clock) : Text :=
  padded 2 c.hour ++ ':' :: padded 2 c.minute ++
    match c.second? with
    | some second => ':' :: padded 2 second ++ (c.nanos?.map fractionText).getD []
    | none => []

/-- An offset: `Z`, or a sign, hours and minutes. -/
def offsetText : Offset → Text
  | .zulu => ['Z']
  | .seconds n =>
    (if n < 0 then '-' else '+') :: padded 2 (n.natAbs / 3600) ++
      ':' :: padded 2 (n.natAbs / 60 % 60)

/-- A moment in its plain form. -/
def text (m : Moment) : Text :=
  (m.date?.map dateText).getD [] ++
    (if m.date?.isSome && m.clock?.isSome then ['T'] else []) ++
    (m.clock?.map clockText).getD [] ++ (m.offset?.map offsetText).getD []

end Moment

end Toml

end DocSite
