import GraphQuery.Decimal.Nearest
import GraphQuery.Json.Basic
import GraphQuery.Reader.Basic
import GraphQuery.Text.Digit

/-!
# Reading JSON

A text is one value with blanks around it. Containers may stand inside one another to a fixed
depth. A number with a fraction or an exponent is read as a significand of 64 bits, scaled by a
power of ten in floating point; digits that no longer fit into the significand are dropped.

## Main definitions

* `Json.numberOf`: the value of a number as it is written.
* `Json.valueReader`: values with containers to a given depth.
* `Json.parse?`: a whole text.
-/

namespace GraphQuery.Json

open Reader

/-! ### Numbers -/

/-- Digits in front of which a number still fits into 64 bits, and those that are left. -/
def absorb (significand : Nat) : List Char → Nat × List Char
  | [] => (significand, [])
  | c :: cs =>
    let next := 10 * significand + (c.toNat - '0'.toNat)
    if next < Nat.pow 2 64 then absorb next cs else (significand, c :: cs)

/-- A power of ten as a float. -/
def powerOfTen (k : Nat) : Float := Decimal.toFloat ⟨false, 1, k⟩

/-- Divide by a power of ten, in steps that floats can hold. -/
def scaleDown (x : Float) (k : Nat) : Float :=
  if k ≤ 308 then x / powerOfTen k
  else if x == 0 then x
  else scaleDown (x / powerOfTen 308) (k - 308)
termination_by k

/-- A significand times a power of ten, unless it is too great. -/
def scale? (significand : Nat) (exponent : Int) : Option Float :=
  let x := Decimal.floatOfInt significand
  if exponent < 0 then some (scaleDown x (-exponent).toNat)
  else if exponent ≤ 308 then
    let y := x * powerOfTen exponent.toNat
    if y.isInf then none else some y
  else if x == 0 then some x
  else none

/-- The value of a number, unless it is too great. Whole numbers that fit into 64 bits stay
integers, except for a negative zero. -/
def numberOf (negative : Bool) (whole : List Char) (fraction : Option (List Char))
    (exponent : Option Int) : Option Json :=
  let signed (x : Float) : Json := .float (if negative then -x else x)
  let (significand, dropped) := absorb 0 whole
  if fraction.isNone && exponent.isNone && dropped.isEmpty then
    if !negative then some (.int significand)
    else if 0 < significand && significand ≤ Nat.pow 2 63 then some (.int (-significand))
    else some (signed (Decimal.floatOfInt significand))
  else
    let digits := fraction.getD []
    let (significand, ignored) := absorb significand digits
    let kept := digits.length - ignored.length
    (scale? significand (dropped.length - kept + exponent.getD 0)).map signed

/-- One or more digits. -/
def digits : Reader (List Char) := takeWhile1 Char.isDigit

/-- Digits without a zero in front of others. -/
def wholePart : Reader (List Char) :=
  filter digits fun ds => ds.length == 1 || ds.head? != some '0'

/-- The exponent mark, a sign or none, and digits. -/
def exponentPart : Reader Int := do
  let _ ← satisfy fun c => c == 'e' || c == 'E'
  let sign ← optional (satisfy fun c => c == '+' || c == '-')
  let ds ← commit digits
  return if sign == some '-' then -(Text.digitsValue ds : Int) else Text.digitsValue ds

/-- A number. -/
def numberReader : Reader Json := do
  let sign ← optional (char '-')
  let whole ← wholePart
  let fraction ← optional (do let _ ← char '.'; commit digits : Reader (List Char))
  let exponent ← optional exponentPart
  match numberOf sign.isSome whole fraction exponent with
  | some v => return v
  | none => refuse "number out of range"

/-! ### Strings -/

/-- The characters with an escape of one letter. -/
def ofShortEscape? (letter : Char) : Option Char :=
  if letter == '"' then some '"'
  else if letter == '\\' then some '\\'
  else if letter == '/' then some '/'
  else if letter == 'b' then some '\x08'
  else if letter == 'f' then some '\x0c'
  else if letter == 'n' then some '\n'
  else if letter == 'r' then some '\r'
  else if letter == 't' then some '\t'
  else none

/-- The code point of two surrogates. -/
def surrogatePair? (high low : Nat) : Option Nat :=
  if 0xD800 ≤ high && high < 0xDC00 && 0xDC00 ≤ low && low < 0xE000 then
    some (0x10000 + (high - 0xD800) * 0x400 + (low - 0xDC00))
  else none

/-- The inside of a string, from behind the opening quote, and what follows the closing one. -/
def stringBody : List Char → Option (List Char × List Char)
  | '\\' :: 'u' :: a :: b :: c :: d :: rest =>
    match Text.hexValue? a b c d with
    | none => none
    | some n =>
      match Text.charOfCode? n with
      | some ch => (stringBody rest).map fun (text, after) => (ch :: text, after)
      | none =>
        match rest with
        | '\\' :: 'u' :: e :: f :: g :: h :: rest =>
          match ((Text.hexValue? e f g h).bind (surrogatePair? n)).bind Text.charOfCode? with
          | some ch => (stringBody rest).map fun (text, after) => (ch :: text, after)
          | none => none
        | _ => none
  | '\\' :: letter :: rest =>
    match ofShortEscape? letter with
    | some ch => (stringBody rest).map fun (text, after) => (ch :: text, after)
    | none => none
  | c :: rest =>
    if c == '"' then some ([], rest)
    else if c == '\\' || c.toNat < 0x20 then none
    else (stringBody rest).map fun (text, after) => (c :: text, after)
  | [] => none

/-- A string in quotes. -/
def stringReader : Reader String := do
  let _ ← char '"'
  fun s => match stringBody s with
    | some (text, rest) => .done (String.ofList text) rest
    | none => .refused [⟨s, "invalid string"⟩]

/-! ### Values -/

/-- The blanks of JSON. -/
def isBlank (c : Char) : Bool := c == ' ' || c == '\t' || c == '\n' || c == '\r'

/-- Skip blanks. -/
def blanks : Reader Unit := fun s => .done () (s.dropWhile isBlank)

/-- The character `c` with blanks before and after it. -/
def mark (c : Char) : Reader Unit := do
  blanks
  let _ ← char c
  blanks

/-- Items between two marks, separated by commas. -/
def sequence {α : Type} (opening closing : Char) (item : Reader α) : Reader (List α) := do
  mark opening
  match ← optional (mark closing) with
  | some _ => return []
  | none =>
    let first ← item
    let others ← many (do mark ','; item : Reader α)
    mark closing
    return first :: others

/-- A name, a colon and a value. -/
def memberReader (value : Reader Json) : Reader (String × Json) := do
  let name ← stringReader
  mark ':'
  return (name, ← value)

/-- A word that stands for a value. -/
def wordReader (word : String) (v : Json) : Reader Json := do
  literal word.toList
  return v

/-- Values that hold no others. -/
def scalarReader : Reader Json :=
  oneOf
    [wordReader "null" .null, wordReader "true" (.bool true), wordReader "false" (.bool false),
      (do return .string (← stringReader) : Reader Json), numberReader]

/-- Values in which containers stand inside one another at most `depth` deep. -/
def valueReader : Nat → Reader Json
  | 0 => scalarReader
  | depth + 1 =>
    oneOf
      [(do return .array (← sequence '[' ']' (valueReader depth)) : Reader Json),
        (do
          let members ← sequence '\x7b' '\x7d' (memberReader (valueReader depth))
          return .object (members.foldl (fun all (name, v) => insert name v all) [])
          : Reader Json),
        scalarReader]

/-- How deep containers may stand inside one another. -/
def maxDepth : Nat := 127

/-- Reads a whole text as one value in which containers stand at most `depth` deep. -/
def parseWithin? (depth : Nat) (text : List Char) : Option Json :=
  match (do blanks; let v ← valueReader depth; blanks; return v : Reader Json) text with
  | .done v [] => some v
  | _ => none

/-- Reads a whole text as one value. -/
def parse? (text : List Char) : Option Json := parseWithin? maxDepth text

end GraphQuery.Json
