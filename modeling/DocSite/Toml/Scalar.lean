import DocSite.Toml.Basic

/-!
# Scalars in TOML

A value without quotes and brackets is a word: a Boolean, a number, a date or a time.

* `Toml.numeral?`, `Toml.float?` : the float that a word writes.
* `Toml.scalar?` : the value that a word writes.
-/

namespace DocSite

namespace Toml

/-! ### Floats -/

/-- Whether a character starts an exponent. -/
def isExponentMark (c : Char) : Bool := c = 'e' || c = 'E'

/-- The exponent that a text writes. -/
def exponent? (s : Text) : Option Int := do
  let (negative, digits) := signed s
  let n : Int ← Text.toNat? digits
  some (if negative then -n else n)

/-- What stands before an exponent, and the exponent, if there is one. -/
def splitExponent (s : Text) : Text × Option Text :=
  match s.dropWhile (!isExponentMark ·) with
  | [] => (s, none)
  | _ :: rest => (s.takeWhile (!isExponentMark ·), some rest)

/-- What stands before a point, and what stands after it, if there is one. -/
def splitPoint (s : Text) : Text × Option Text :=
  match Text.splitFirst? '.' s with
  | some (before, after) => (before, some after)
  | none => (s, none)

/-- One digit at least, and nothing else. -/
def isDigits (s : Text) : Bool := s ≠ [] && s.all Char.isDigit

/-- The number with a point or an exponent that a word writes. A zero at its start is the only digit
before the point. -/
def numeral? (word : Text) : Option Numeral := do
  let (negative, number) := signed (← withoutUnderscores? Char.isDigit word)
  let (mantissa, exponentText?) := splitExponent number
  let (whole, fraction?) := splitPoint mantissa
  let exponent? ← match exponentText? with
    | some s => (Toml.exponent? s).map some
    | none => some none
  if isDigits whole && ((signed word).2.head? ≠ some '0' || whole.length = 1) &&
      fraction?.all isDigits && (fraction?.isSome || exponent?.isSome) then
    some { negative, whole, fraction?, exponent? }
  else none

/-- The float that a word writes. -/
def float? (word : Text) : Option Toml :=
  let (negative, rest) := signed word
  if rest = "inf".toList then some (.infinity negative)
  else if rest = "nan".toList then some .notANumber
  else (numeral? word).map .real

/-! ### Words -/

/-- A character of a word. -/
def isWordChar (c : Char) : Bool :=
  !(c = '=' || c = ',' || c = '[' || c = ']' || c = '\x7b' || c = '\x7d' || c = '#' ||
    c = '\r' || c = '\n' || c = ' ' || c = '\t')

/-- The value that a word writes. -/
def scalar? (word : Text) : Option Toml :=
  if word = "true".toList then some (.boolean true)
  else if word = "false".toList then some (.boolean false)
  else ((Integer.ofWord? word).map .integer).or
    ((float? word).or ((Moment.read? word).map .moment))

/-- The value that a word at the start of a text writes, and what follows it. A date and a time may
have one space between them. -/
def scalarAt? (s : Text) : Option (Toml × Text) :=
  let word := s.takeWhile isWordChar
  let rest := s.dropWhile isWordChar
  let long? : Option (Toml × Text) :=
    match rest with
    | ' ' :: time => do
      let m ← Moment.read? (word ++ ' ' :: time.takeWhile isWordChar)
      some (.moment m, time.dropWhile isWordChar)
    | _ => none
  long?.or ((scalar? word).map fun v => (v, rest))

end Toml

end DocSite
