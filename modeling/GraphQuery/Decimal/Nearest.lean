/-!
# The double nearest to a fraction

Rounding a nonnegative fraction to a double, in exact arithmetic on natural numbers: the nearest
one, and of two equally near the one whose mantissa is even.

## Main definitions

* `Decimal`: a signed decimal `± coefficient · 10 ^ exponent`.
* `roundDiv`: a quotient rounded to the nearest natural number.
* `nearestBits`: the bits of the double nearest to a fraction.
* `Decimal.toFloat`: the double nearest to a decimal.
-/

namespace GraphQuery

/-- The decimal `coefficient · 10 ^ exponent`, with a sign that zero has as well. -/
structure Decimal where
  negative : Bool
  coefficient : Nat
  exponent : Int
deriving Repr, DecidableEq

namespace Decimal

/-- The number of decimal digits of a natural number. -/
def digitCount (n : Nat) : Nat := (Nat.toDigits 10 n).length

/-- The quotient rounded to the nearest natural number, a half to the even one. -/
def roundDiv (a b : Nat) : Nat :=
  let quotient := a / b
  let twice := 2 * (a % b)
  if twice < b || (twice == b && quotient % 2 == 0) then quotient else quotient + 1

/-- The greatest `e` with `2 ^ e ≤ num / den`, for positive `num` and `den`. -/
def floorLog2 (num den : Nat) : Int :=
  let e : Int := (num.log2 : Int) - den.log2
  let fits := if e ≥ 0 then den * Nat.pow 2 e.toNat ≤ num else den ≤ num * Nat.pow 2 (-e).toNat
  if fits then e else e - 1

/-- The bits of infinity. -/
def infinityBits : Nat := 0x7FF0000000000000

/-- The bits of the double nearest to `num / den`. The exponent field stands directly above the
mantissa field, so a mantissa that rounds up to the next power of two carries into it. -/
def nearestBits (num den : Nat) : Nat :=
  if num = 0 then 0
  else
    let q : Int := max (floorLog2 num den - 52) (-1074)
    let mantissa :=
      if q ≥ 0 then roundDiv num (den * Nat.pow 2 q.toNat)
      else roundDiv (num * Nat.pow 2 (-q).toNat) den
    let bits :=
      if mantissa < Nat.pow 2 52 then mantissa
      else (q + 1075).toNat * Nat.pow 2 52 + (mantissa - Nat.pow 2 52)
    min bits infinityBits

/-- The double of a sign and the bits of a magnitude. -/
def ofMagnitude (negative : Bool) (bits : Nat) : Float :=
  Float.ofBits (UInt64.ofNat (if negative then bits + Nat.pow 2 63 else bits))

/-- The double nearest to a decimal. Beyond the first and the last double the answer is infinity or
zero, whatever the digits are. -/
def toFloat (d : Decimal) : Float :=
  let order : Int := digitCount d.coefficient + d.exponent
  let bits :=
    if d.coefficient = 0 then 0
    else if order > 310 then infinityBits
    else if order < -330 then 0
    else if d.exponent ≥ 0 then nearestBits (d.coefficient * Nat.pow 10 d.exponent.toNat) 1
    else nearestBits d.coefficient (Nat.pow 10 (-d.exponent).toNat)
  ofMagnitude d.negative bits

/-- The double nearest to an integer. -/
def floatOfInt (i : Int) : Float := toFloat ⟨decide (i < 0), i.natAbs, 0⟩

/-- Two thirds of three are two, and a half goes to the even neighbour. -/
example : roundDiv 6 3 = 2 ∧ roundDiv 5 2 = 2 ∧ roundDiv 7 2 = 4 := by decide

end Decimal

end GraphQuery
