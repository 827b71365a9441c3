import DocSite.DoublePrecision
import DocSite.Text.Basic

/-!
# Numerals

A numeral is a decimal number as it is written: digits, a point, an exponent.

* `Numeral.integer?` : the whole number that is written without a point and an exponent.
* `Numeral.mantissa`, `Numeral.scale` : the number itself, an integer times a power of ten.
* `Numeral.isTooLarge` : whether a number is beyond the double-precision format.
-/

namespace DocSite

/-- A number as it is written. -/
structure Numeral where
  /-- Whether a minus sign leads. -/
  negative : Bool
  /-- The digits before the point. -/
  whole : Text
  /-- The digits after the point, if there is one. -/
  fraction? : Option Text
  /-- The power of ten that an exponent names, if there is one. -/
  exponent? : Option Int
  deriving DecidableEq, Repr

namespace Numeral

/-- The digits after the point, none if there is no point. -/
def fraction (n : Numeral) : Text := n.fraction?.getD []

/-- The power of ten that an exponent names, zero if there is no exponent. -/
def exponent (n : Numeral) : Int := n.exponent?.getD 0

/-- The digits before and after the point, read as one number. -/
def digits (n : Numeral) : Nat := Nat.ofDigitChars 10 (n.whole ++ n.fraction) 0

/-- The digits with their sign. -/
def mantissa (n : Numeral) : Int := if n.negative then -n.digits else n.digits

/-- The power of ten that the digits are multiplied by. -/
def scale (n : Numeral) : Int := n.exponent - n.fraction.length

/-- The whole number that is written. A zero with a minus sign is none. -/
def integer? (n : Numeral) : Option Int :=
  if n.fraction?.isSome ∨ n.exponent?.isSome ∨ (n.negative ∧ n.digits = 0) then none
  else some n.mantissa

/-- Whether the number is too large for the double-precision format. The number of digits decides
all but the cases near the bound. -/
def isTooLarge (n : Numeral) : Bool :=
  let magnitude : Int := (Nat.toDigits 10 n.digits).length + n.scale
  if n.digits = 0 ∨ magnitude < 300 then false
  else if 320 < magnitude then true
  else if 0 ≤ n.scale then DoublePrecision.bound ≤ n.digits * Nat.pow 10 n.scale.toNat
  else DoublePrecision.bound * Nat.pow 10 (-n.scale).toNat ≤ n.digits

end Numeral

end DocSite
