/-!
# Double precision

A whole number of the double-precision format has 53 binary digits and zeros after them.

* `DoublePrecision.nearest` : the number of the format nearest to a whole number.
* `DoublePrecision.bound` : the least number that is too large for the format.
-/

namespace DocSite

namespace DoublePrecision

/-- How many binary digits a number of the format has before the zeros at its end. -/
def precision : Nat := 53

/-- The whole number of the format nearest to `n`: of two equally near ones that whose last binary
digit is zero. Numbers too large for the format are rounded as if there were larger ones. -/
def nearest (n : Nat) : Nat :=
  let unit := Nat.pow 2 (n.log2 + 1 - precision)
  let q := n / unit
  let r := n % unit
  if unit < 2 * r ∨ (unit = 2 * r ∧ q % 2 = 1) then (q + 1) * unit else q * unit

/-- The least number that is too large for the format: half a unit above the largest one. -/
def bound : Nat := Nat.pow 2 1024 - Nat.pow 2 970

end DoublePrecision

end DocSite
