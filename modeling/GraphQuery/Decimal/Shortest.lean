import GraphQuery.Decimal.Nearest

/-!
# The shortest decimal that reads back

Among the decimals that round to a given positive double, the ones with the fewest digits, and
among those the nearest. All comparisons are between natural numbers.

## Main definitions

* `Decimal.Tie`: which of two equally near decimals is taken.
* `Decimal.Interval`: the fractions that round to a double.
* `Decimal.shortest`: the digits and the exponent.
-/

namespace GraphQuery.Decimal

/-- Which of two equally near decimals is taken: the greater, or the one with an even last digit. -/
inductive Tie where
  | up
  | even
deriving Repr, DecidableEq

/-- The fractions that round to one double: all between `low / den` and `high / den`, and these two
as well if `closed`. The double itself is `mid / den`. -/
structure Interval where
  low : Nat
  mid : Nat
  high : Nat
  den : Nat
  closed : Bool
deriving Repr, DecidableEq

/-- The interval of the double `m · 2 ^ q`. Below a power of two the doubles stand twice as
close. -/
def Interval.ofBinary (m : Nat) (q : Int) : Interval :=
  let below := if m = Nat.pow 2 52 ∧ q > -1074 then 1 else 2
  let e := q - 2
  let scale := if e ≥ 0 then Nat.pow 2 e.toNat else 1
  { low := (4 * m - below) * scale
    mid := 4 * m * scale
    high := (4 * m + 2) * scale
    den := if e ≥ 0 then 1 else Nat.pow 2 (-e).toNat
    closed := m % 2 == 0 }

/-- The greatest `e` with `10 ^ e ≤ num / den`, for positive `num` and `den`. -/
def floorLog10 (num den : Nat) : Int :=
  if den ≤ num then (digitCount (num / den) : Int) - 1
  else
    let d := digitCount (den / num)
    if den ≤ num * Nat.pow 10 (d - 1) then -((d : Int) - 1) else -(d : Int)

/-- The interval measured in units of `10 ^ k`. -/
def Interval.inUnits (i : Interval) (k : Int) : Interval :=
  if k ≥ 0 then { i with den := i.den * Nat.pow 10 k.toNat }
  else
    let a := Nat.pow 10 (-k).toNat
    { i with low := i.low * a, mid := i.mid * a, high := i.high * a }

/-- The natural number `c` lies in the interval. -/
def Interval.contains (i : Interval) (c : Nat) : Bool :=
  let x := c * i.den
  if i.closed then i.low ≤ x && x ≤ i.high else i.low < x && x < i.high

/-- The natural number in the interval that is nearest to its middle, if there is one. Only the two
neighbours of the middle need to be tried. -/
def Interval.nearest? (tie : Tie) (i : Interval) : Option Nat :=
  let below := i.mid / i.den
  let above := below + 1
  match i.contains below && below != 0, i.contains above with
  | true, true =>
    let twice := 2 * i.mid
    let half := (2 * below + 1) * i.den
    if twice < half then some below
    else if half < twice then some above
    else match tie with
      | .up => some above
      | .even => some (if below % 2 == 0 then below else above)
  | true, false => some below
  | false, true => some above
  | false, false => none

/-- Coefficient and exponent of the shortest decimal that rounds to `m · 2 ^ q`. Seventeen digits
always suffice. A neighbour that is itself a power of ten is written with a single digit. -/
def shortest (tie : Tie) (m : Nat) (q : Int) : Nat × Int :=
  let i := Interval.ofBinary m q
  let e := floorLog10 i.mid i.den
  let attempt (n : Nat) : Option (Nat × Int) :=
    let k := e - n
    ((i.inUnits k).nearest? tie).map fun c =>
      if c = Nat.pow 10 (n + 1) then (1, e + 1) else (c, k)
  ((List.range 17).findSome? attempt).getD
    (let j := i.inUnits (e - 16); (j.mid / j.den, e - 16))

end GraphQuery.Decimal
