import GraphQuery.Decimal.Shortest

/-!
# Writing doubles

The shortest digits of a double, laid out with or without an exponent. A layout says which
exponents are written positionally and how the parts look; each output format has its own.

## Main definitions

* `Decimal.Layout`: the decisions of a format.
* `Decimal.Layout.text`: a double in that format.
-/

namespace GraphQuery.Decimal

/-- How a format writes doubles. The order of a number is the exponent of its first digit. -/
structure Layout where
  /-- The least order written without an exponent, if there is one. -/
  least : Option Int
  /-- The greatest order written without an exponent, if there is one. -/
  greatest : Option Int
  /-- Whole numbers written without an exponent end in `.0`. -/
  pointZero : Bool
  /-- A positive exponent carries a plus sign. -/
  plusSign : Bool
  /-- Which of two equally near decimals is taken. -/
  tie : Tie
deriving Repr, DecidableEq

/-- A double by parts: its sign, and `mantissa · 2 ^ exponent` if it is finite. -/
inductive Parts where
  | nan
  | infinite (negative : Bool)
  | finite (negative : Bool) (mantissa : Nat) (exponent : Int)
deriving Repr, DecidableEq

/-- The parts of the double with the given bits. -/
def Parts.ofBits (bits : Nat) : Parts :=
  let negative := bits / Nat.pow 2 63 == 1
  let field : Nat := bits / Nat.pow 2 52 % Nat.pow 2 11
  let fraction : Nat := bits % Nat.pow 2 52
  if field = 2047 then if fraction = 0 then .infinite negative else .nan
  else if field = 0 then .finite negative fraction (-1074)
  else .finite negative (Nat.pow 2 52 + fraction) ((field : Int) - 1075)

namespace Layout

/-- The order is written without an exponent. -/
def isPositional (layout : Layout) (order : Int) : Bool :=
  layout.least.all (· ≤ order) && layout.greatest.all (order ≤ ·)

/-- The decimal `digits · 10 ^ k` without an exponent. -/
def positional (layout : Layout) (digits : List Char) (k : Int) : List Char :=
  let order := digits.length + k - 1
  if k ≥ 0 then
    digits ++ List.replicate k.toNat '0' ++ (if layout.pointZero then ['.', '0'] else [])
  else if order ≥ 0 then
    digits.take (order + 1).toNat ++ '.' :: digits.drop (order + 1).toNat
  else '0' :: '.' :: (List.replicate (-order - 1).toNat '0' ++ digits)

/-- The decimal `digits · 10 ^ k` with one digit before the point and an exponent. -/
def scientific (layout : Layout) (digits : List Char) (k : Int) : List Char :=
  let order := digits.length + k - 1
  let sign := if order < 0 then ['-'] else if layout.plusSign then ['+'] else []
  let exponent := 'e' :: (sign ++ Nat.toDigits 10 order.natAbs)
  match digits with
  | [] => exponent
  | [d] => d :: exponent
  | d :: ds => d :: '.' :: (ds ++ exponent)

/-- A positive coefficient and its exponent. -/
def digits (layout : Layout) (coefficient : Nat) (k : Int) : List Char :=
  let ds := Nat.toDigits 10 coefficient
  if layout.isPositional (ds.length + k - 1) then layout.positional ds k
  else layout.scientific ds k

/-- The magnitude `m · 2 ^ q`. Zero is always positional. -/
def magnitude (layout : Layout) (m : Nat) (q : Int) : List Char :=
  if m = 0 then layout.positional ['0'] 0
  else
    let (coefficient, k) := shortest layout.tie m q
    layout.digits coefficient k

/-- A double in the given format. -/
def text (layout : Layout) (x : Float) : String :=
  let signed (negative : Bool) (body : String) := if negative then "-" ++ body else body
  match Parts.ofBits x.toBits.toNat with
  | .nan => "NaN"
  | .infinite negative => signed negative "inf"
  | .finite negative m q => signed negative (String.ofList (layout.magnitude m q))

end Layout

end GraphQuery.Decimal
