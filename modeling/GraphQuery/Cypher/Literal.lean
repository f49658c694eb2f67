import GraphQuery.Decimal.Layout

/-!
# Cypher literals

Constants and parameters as they stand in a statement.

## Main definitions

* `Cypher.quote`: a string in single quotes.
* `Cypher.Literal`: the constants and parameters.
* `Cypher.Literal.text`: their text.
-/

namespace GraphQuery.Cypher

/-- A character between single quotes: a quote or a backslash has a backslash before it. -/
def escape (c : Char) : List Char := if c == '\\' || c == '\'' then ['\\', c] else [c]

/-- A string in single quotes. -/
def quote (s : String) : String := String.ofList ('\'' :: (s.toList.flatMap escape ++ ['\'']))

/-- Texts with a separator between them. -/
def joinWith (separator : String) : List String → String
  | [] => ""
  | [t] => t
  | t :: ts => t ++ separator ++ joinWith separator ts

/-- A constant or a parameter. -/
inductive Literal where
  | null
  | boolean (b : Bool)
  | int (i : Int64)
  | float (x : Float)
  | string (s : String)
  | parameter (name : String)
  | list (items : List Literal)
deriving Repr, Inhabited

namespace Literal

/-- Floats always have a point or an exponent, and no exponent from 0.0001 up to 10 ^ 16. -/
def floatLayout : Decimal.Layout :=
  { least := some (-4), greatest := some 15, pointZero := true, plusSign := false, tie := .up }

mutual

/-- A literal in a statement. -/
def text : Literal → String
  | .null => "null"
  | .boolean b => if b then "true" else "false"
  | .int i => toString i.toInt
  | .float x => floatLayout.text x
  | .string s => quote s
  | .parameter name => "$" ++ name
  | .list items => "[" ++ joinWith ", " (texts items) ++ "]"

/-- Some literals. -/
def texts : List Literal → List String
  | [] => []
  | l :: ls => l.text :: texts ls

end

end Literal

end GraphQuery.Cypher
