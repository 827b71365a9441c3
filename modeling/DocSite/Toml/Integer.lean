import DocSite.Text.Basic

/-!
# Integers in TOML

An integer is kept as it is written. The form of a word tells that it is one; whether its text is a
number is asked only where its value is looked at, so a wrong digit in a value that nobody looks at
is no error.

* `Toml.withoutUnderscores?` : a word without the underscores between its digits.
* `Toml.Integer.ofWord?` : the integer that a word has the form of.
* `Toml.Integer.value?` : its value.
-/

namespace DocSite

namespace Toml

/-! ### Signs and underscores -/

/-- A text without a sign at its start, and whether the sign is a minus. -/
def signed (s : Text) : Bool × Text :=
  match s with
  | '-' :: rest => (true, rest)
  | '+' :: rest => (false, rest)
  | _ => (false, s)

/-- A digit of any base. -/
def isAnyDigit (c : Char) : Bool := (Text.hexDigit? c).isSome

/-- A text without its underscores. Each stands between two digits, but the first may stand after a
single character that is no digit, such as a sign. -/
def withoutUnderscores? (isDigit : Char → Bool) (s : Text) : Option Text :=
  let groups := s.splitOn '_'
  if groups.all (· ≠ []) && groups.tail.all (fun g => g.head?.any isDigit) &&
      groups.dropLast.all (fun g => g.length = 1 || g.getLast?.any isDigit) then
    some groups.flatten
  else none

/-! ### Integers -/

/-- An integer as it is written. -/
structure Integer where
  base : Nat
  /-- The sign and the digits, without underscores. -/
  text : Text
  deriving DecidableEq, Repr

namespace Integer

/-- Whether a text has the form of a decimal integer without a sign: digits that do not start with a
zero, or a zero alone. After an underscore anything may follow but the marks of a float. -/
def isDecimal (s : Text) : Bool :=
  match s.dropWhile Char.isDigit with
  | [] => s = ['0'] || (s ≠ [] && s.head? ≠ some '0')
  | c :: rest => c = '_' && s.head? ≠ some '0' && !rest.any fun c => c = '.' || c = 'e' || c = 'E'

/-- The integer that a word has the form of, in the decimal base. -/
def decimal? (word : Text) : Option Integer :=
  if isDecimal (signed word).2 then (withoutUnderscores? isAnyDigit word).map (⟨10, ·⟩) else none

/-- The number that a digit writes in a base. -/
def digit? (base : Nat) (c : Char) : Option Nat := (Text.hexDigit? c).filter (· < base)

/-- The integer whose digits follow the mark of a base. There may be none. -/
def inBase? (base : Nat) (s : Text) : Option Integer :=
  if s.all fun c => c = '_' || (digit? base c).isSome then
    if s = [] then some ⟨base, []⟩ else (withoutUnderscores? isAnyDigit s).map (⟨base, ·⟩)
  else none

/-- The integer that a word has the form of: decimal with or without a sign, or without one in
another base. -/
def ofWord? (word : Text) : Option Integer :=
  match word with
  | '0' :: 'x' :: rest => inBase? 16 rest
  | '0' :: 'o' :: rest => inBase? 8 rest
  | '0' :: 'b' :: rest => inBase? 2 rest
  | _ => decimal? word

/-- The value of an integer, none if its text is no number. -/
def value? (i : Integer) : Option Int := do
  let (negative, digits) := signed i.text
  if digits = [] then none
  let n ← digits.foldlM (fun n c => (digit? i.base c).map (i.base * n + ·)) 0
  some (if negative then -(n : Int) else n)

end Integer

end Toml

end DocSite
