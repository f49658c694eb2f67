import GraphQuery.Decimal.Nearest
import GraphQuery.Reader.Basic
import GraphQuery.Text.Digit

/-!
# Lexemes

The smallest pieces that queries and schema definitions are made of: what may be skipped between
them, names, numerals and strings.

## Main definitions

* `Lexeme.skip`: what follows the blanks, commas and comments in front of a text.
* `Lexeme.token`: a reader with such things skipped on both sides.
* `Lexeme.name`, `Lexeme.keyword`: names and words.
* `Lexeme.Numeral`, `Lexeme.numeral`: the parts of a number as it is written.
* `Lexeme.string`, `Lexeme.blockString`: strings in quotes and descriptions in triple quotes.
-/

namespace GraphQuery.Lexeme

open Reader

/-! ### What is skipped -/

/-- Blanks between lexemes, and the comma, which has no meaning of its own. -/
def isSeparator (c : Char) : Bool :=
  c == ' ' || c == '\t' || c == '\r' || c == '\n' || c == ','

/-- The line goes on to a line feed, to a carriage return with a line feed, or to the end. -/
def closesLine : List Char → Bool
  | [] => true
  | c :: s => if c == '\n' then true else if c == '\r' then s.head? == some '\n' else closesLine s

mutual

/-- What follows the blanks, commas and comments in front. A comment whose line is broken off by a
carriage return alone is not a comment. -/
def skip : List Char → List Char
  | [] => []
  | c :: s =>
    if isSeparator c then skip s
    else if c == '#' && closesLine s then skipComment s
    else c :: s

/-- What follows the rest of a comment. -/
def skipComment : List Char → List Char
  | [] => []
  | c :: s => if c == '\n' || c == '\r' then skip s else skipComment s

end

/-- Skip blanks, commas and comments. -/
def ignored : Reader Unit := fun s => .done () (skip s)

/-- Read with `p`, skipping on both sides. -/
def token {α : Type} (p : Reader α) : Reader α := do
  ignored
  let a ← p
  ignored
  return a

/-- The character `c`, skipping on both sides. -/
def symbol (c : Char) : Reader Char := token (char c)

/-! ### Names -/

/-- Characters that may begin a name. -/
def isNameStart (c : Char) : Bool := c.isAlpha || c == '_'

/-- Characters that may stand in a name. -/
def isNameChar (c : Char) : Bool := c.isAlphanum || c == '_'

/-- Letters, digits and underscores, not beginning with a digit. -/
def name : Reader String := do
  let first ← takeWhile1 isNameStart
  let others ← takeWhile isNameChar
  return String.ofList (first ++ others)

/-- A name that is exactly `word`. -/
def keyword (word : String) : Reader String := filter name (· == word)

/-! ### Numerals -/

/-- A number as it is written. -/
structure Numeral where
  negative : Bool
  whole : List Char
  fraction : Option (List Char)
  /-- The exponent, with a flag for a minus sign. -/
  exponent : Option (Bool × List Char)
deriving Repr, DecidableEq

namespace Numeral

/-- Neither a fraction nor an exponent is written. -/
def isWhole (n : Numeral) : Bool := n.fraction.isNone && n.exponent.isNone

/-- The integer that the whole part denotes. -/
def toInt (n : Numeral) : Int :=
  let magnitude : Int := Text.digitsValue n.whole
  if n.negative then -magnitude else magnitude

/-- The decimal that the numeral denotes. -/
def toDecimal (n : Numeral) : Decimal :=
  let fraction := n.fraction.getD []
  let exponent : Int :=
    match n.exponent with
    | none => 0
    | some (false, digits) => Text.digitsValue digits
    | some (true, digits) => -(Text.digitsValue digits : Int)
  { negative := n.negative
    coefficient := Text.digitsValue (n.whole ++ fraction)
    exponent := exponent - fraction.length }

end Numeral

/-- One or more digits. -/
def digits : Reader (List Char) := takeWhile1 Char.isDigit

/-- A point and the digits after it. -/
def fractionPart : Reader (List Char) := do
  let _ ← char '.'
  digits

/-- The exponent mark, a sign or none, and digits. -/
def exponentPart : Reader (Bool × List Char) := do
  let _ ← satisfy fun c => c == 'e' || c == 'E'
  let sign ← optional (satisfy fun c => c == '+' || c == '-')
  let ds ← digits
  return (sign == some '-', ds)

/-- A number as it is written. -/
def numeral : Reader Numeral := do
  let sign ← optional (char '-')
  let whole ← digits
  let fraction ← optional fractionPart
  let exponent ← optional exponentPart
  return { negative := sign.isSome, whole, fraction, exponent }

/-! ### Strings -/

/-- The characters with an escape of one letter. -/
def shortEscape? (letter : Char) : Option Char :=
  if letter == '"' then some '"'
  else if letter == '\\' then some '\\'
  else if letter == '/' then some '/'
  else if letter == 'b' then some '\x08'
  else if letter == 'f' then some '\x0c'
  else if letter == 'n' then some '\n'
  else if letter == 'r' then some '\r'
  else if letter == 't' then some '\t'
  else none

/-- What reading the inside of a string comes to. -/
inductive StringReading where
  /-- The closing quote was found. -/
  | closed (text : List Char) (rest : List Char)
  /-- The escape at `place` does not name a character by its code point. -/
  | badCodePoint (place : List Char)
  /-- The escape at `place` does not exist. -/
  | badEscape (place : List Char)
  /-- The line or the text ends before the string does. -/
  | unterminated
deriving Repr, DecidableEq

/-- A character in front of what was read. -/
def StringReading.push (c : Char) : StringReading → StringReading
  | .closed text rest => .closed (c :: text) rest
  | other => other

/-- The inside of a string, from behind the opening quote. -/
def stringBody : List Char → StringReading
  | '\\' :: 'u' :: a :: b :: c :: d :: rest =>
    match (Text.hexValue? a b c d).bind Text.charOfCode? with
    | some ch => (stringBody rest).push ch
    | none => .badCodePoint ('\\' :: 'u' :: a :: b :: c :: d :: rest)
  | '\\' :: letter :: rest =>
    if letter == 'u' then .badCodePoint ('\\' :: letter :: rest)
    else match shortEscape? letter with
      | some ch => (stringBody rest).push ch
      | none => .badEscape ('\\' :: letter :: rest)
  | c :: rest =>
    if c == '"' then .closed [] rest
    else if c == '\\' then .badEscape (c :: rest)
    else if c == '\n' || c == '\r' then .unterminated
    else (stringBody rest).push c
  | [] => .unterminated

/-- A string in double quotes on one line. -/
def string : Reader String
  | [] => .declined [⟨[], unexpected⟩]
  | c :: body =>
    if c == '"' then
      match stringBody body with
      | .closed text rest => .done (String.ofList text) rest
      | .badCodePoint place => .refused [⟨place, "Invalid unicode escape in string"⟩]
      | .badEscape place => .refused [⟨place, "Invalid escape sequence in string"⟩]
      | .unterminated => .refused [⟨c :: body, "Unterminated string literal"⟩]
    else .declined [⟨c :: body, unexpected⟩]

/-- The characters before the first occurrence of `word`, and the text from there on. -/
def splitBefore? (word : List Char) : List Char → Option (List Char × List Char)
  | [] => if word.isEmpty then some ([], []) else none
  | c :: s =>
    if word.isPrefixOf (c :: s) then some ([], c :: s)
    else (splitBefore? word s).map fun (front, rest) => (c :: front, rest)

/-- Everything before the first occurrence of `word`. -/
def takeUntil (word : List Char) : Reader (List Char) := fun s =>
  match splitBefore? word s with
  | some (front, rest) => .done front rest
  | none => .declined [⟨s, unexpected⟩]

/-- Three double quotes. -/
def tripleQuote : List Char := ['"', '"', '"']

/-- A text between triple quotes, taken as it stands. -/
def blockString : Reader String := do
  literal tripleQuote
  let text ← expecting "Unterminated block string" (commit (takeUntil tripleQuote))
  literal tripleQuote
  return String.ofList text

end GraphQuery.Lexeme
