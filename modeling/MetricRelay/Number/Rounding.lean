import MetricRelay.Number.Binary64

/-!
# The nearest double

A ratio of natural numbers is rounded to the nearest double; halfway between two doubles the one
of even rank is taken, and past the greatest finite double the result is infinite.  A decimal
number is such a ratio, unless its power of ten alone decides that it is too large or too small.

Main definitions:

- `nearestRank`: the rank of the double nearest to a ratio.
- `ofDecimal`: the double nearest to `digits * 10 ^ exponent`.
-/

namespace MetricRelay

/-- The natural number nearest to `a / b`, an exact half going to the even one. -/
def roundHalfEven (a b : Nat) : Nat :=
  let q := a / b
  let r := a % b
  if 2 * r < b then q
  else if b < 2 * r then q + 1
  else q + q % 2

namespace Binary64

/-- How many binary digits the unit must be scaled up for the quotient of `num` units by `den` to
have fifty-three of them. -/
def excess (num den : Nat) : Nat :=
  Nat.log2 (num / den) - 52

/-- The rank of the double nearest to `num / den`, if there were doubles of any size. -/
def nearestRank (num den : Nat) : Nat :=
  let num := num * unitsPerOne
  let e := excess num den
  roundHalfEven num (den * Nat.pow 2 e) + e * Nat.pow 2 52

/-- The double nearest to `num / den`. -/
def ofRatio (negative : Bool) (num den : Nat) : Binary64 :=
  ofRank negative (nearestRank num den)

/-- The double nearest to `digits * 10 ^ exponent`.  An exponent above `400` makes any number too
large, and one that leaves a number below `10 ^ -400` makes it zero, so that no power of ten
larger than the number's own size is ever computed. -/
def ofDecimal (negative : Bool) (digits : Nat) (exponent : Int) : Binary64 :=
  if digits = 0 then zero negative
  else if 400 < exponent then .infinite negative
  else if exponent + Nat.log2 digits + 1 < -400 then zero negative
  else ofRatio negative (digits * Nat.pow 10 exponent.toNat) (Nat.pow 10 (-exponent).toNat)

end Binary64

end MetricRelay
