import DocSite.Json.Basic
import DocSite.Numeral

/-!
# Numbers in JSON

A number is read by its leading digits: those that fit a word of 64 bits are taken, the others only
count as places. What is taken and the power of ten it is multiplied by are each rounded to double
precision before they are multiplied, so near the bound a number may be refused although it is below
the bound, or read although it is above it.

* `Numeral.leading` : the leading digits as one number, and its power of ten.
* `Numeral.isOutOfRange` : whether the number read in this way is beyond double precision.
* `Json.ofNumeral?` : the value of a numeral.
-/

namespace DocSite

namespace Numeral

/-- The number made of `n` and the leading digits that follow it, as far as it fits a word of 64
bits, and the digits that are left. -/
def takeDigits (n : Nat) : Text → Nat × Text
  | [] => (n, [])
  | c :: rest =>
    let m := Nat.ofDigitChars 10 [c] n
    if m < Nat.pow 2 64 then takeDigits m rest else (n, c :: rest)

/-- The number that the leading digits make, and the power of ten it is multiplied by. Digits before
and after the point are taken one after the other: if one before the point does not fit, one after
it may. -/
def leading (n : Numeral) : Nat × Int :=
  let (m, left) := takeDigits 0 n.whole
  let (m, dropped) := takeDigits m n.fraction
  (m, n.exponent + left.length + dropped.length - n.fraction.length)

/-- Whether the number is beyond double precision when it is read by its leading digits. -/
def isOutOfRange (n : Numeral) : Bool :=
  let (m, e) := n.leading
  if m = 0 ∨ e < 0 then false
  else if 308 < e then true
  else
    DoublePrecision.bound ≤ DoublePrecision.nearest m * DoublePrecision.nearest (Nat.pow 10 e.toNat)

end Numeral

namespace Json

/-- The value of a numeral: an integer if it is whole and fits 64 bits, with or without a sign. -/
def ofNumeral? (n : Numeral) : Option Json :=
  match n.integer?.filter fun i => -Int.pow 2 63 ≤ i ∧ i < Int.pow 2 64 with
  | some i => some (.integer i)
  | none => if n.isOutOfRange then none else some (.real n.mantissa n.scale)

end Json

end DocSite
