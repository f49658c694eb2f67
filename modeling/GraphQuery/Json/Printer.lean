import GraphQuery.Decimal.Layout
import GraphQuery.Json.Basic

/-!
# Writing JSON

## Main definitions

* `Json.compact`: a value on one line, without blanks.
* `Json.pretty`: a value over several lines, indented by two blanks a level.
-/

namespace GraphQuery.Json

/-- Floats are positional from the fifth place after the point to the sixteenth before it. -/
def floatLayout : Decimal.Layout :=
  { least := some (-5), greatest := some 15, pointZero := true, plusSign := true, tie := .even }

/-- A float; one that is not finite has no JSON form and is written as null. -/
def floatText (x : Float) : String := if x.isFinite then floatLayout.text x else "null"

/-- The escapes with a letter of their own. -/
def shortEscape? (c : Char) : Option Char :=
  if c == '"' then some '"'
  else if c == '\\' then some '\\'
  else if c == '\x08' then some 'b'
  else if c == '\x0c' then some 'f'
  else if c == '\n' then some 'n'
  else if c == '\r' then some 'r'
  else if c == '\t' then some 't'
  else none

/-- How one character is written in a string: only quotes, backslashes and controls are escaped. -/
def escape (c : Char) : List Char :=
  match shortEscape? c with
  | some letter => ['\\', letter]
  | none =>
    if c.toNat < 0x20 then
      ['\\', 'u', '0', '0'] ++ Nat.toDigits 16 (c.toNat / 16) ++ Nat.toDigits 16 (c.toNat % 16)
    else [c]

/-- A string in quotes. -/
def stringText (s : String) : String :=
  String.ofList ('"' :: (s.toList.flatMap escape ++ ['"']))

mutual

/-- A value on one line, without blanks. -/
def compact : Json → String
  | .null => "null"
  | .bool b => if b then "true" else "false"
  | .int i => toString i
  | .float x => floatText x
  | .string s => stringText s
  | .array items => "[" ++ compactItems items ++ "]"
  | .object members => "\x7b" ++ compactMembers members ++ "\x7d"

/-- Items separated by commas. -/
def compactItems : List Json → String
  | [] => ""
  | [v] => v.compact
  | v :: vs => v.compact ++ "," ++ compactItems vs

/-- Members separated by commas. -/
def compactMembers : List (String × Json) → String
  | [] => ""
  | [(name, v)] => stringText name ++ ":" ++ v.compact
  | (name, v) :: rest => stringText name ++ ":" ++ v.compact ++ "," ++ compactMembers rest

end

/-- A line feed and the blanks of a level. -/
def lineBreak (level : Nat) : String := "\n" ++ String.ofList (List.replicate (2 * level) ' ')

mutual

/-- A value that begins on a line of the given level. -/
def prettyAt (level : Nat) : Json → String
  | .array [] => "[]"
  | .array items => "[" ++ prettyItems (level + 1) items ++ lineBreak level ++ "]"
  | .object [] => "\x7b\x7d"
  | .object members => "\x7b" ++ prettyMembers (level + 1) members ++ lineBreak level ++ "\x7d"
  | .null => "null"
  | .bool b => if b then "true" else "false"
  | .int i => toString i
  | .float x => floatText x
  | .string s => stringText s

/-- Items on lines of their own. -/
def prettyItems (level : Nat) : List Json → String
  | [] => ""
  | [v] => lineBreak level ++ v.prettyAt level
  | v :: vs => lineBreak level ++ v.prettyAt level ++ "," ++ prettyItems level vs

/-- Members on lines of their own. -/
def prettyMembers (level : Nat) : List (String × Json) → String
  | [] => ""
  | [(name, v)] => lineBreak level ++ stringText name ++ ": " ++ v.prettyAt level
  | (name, v) :: rest =>
    lineBreak level ++ stringText name ++ ": " ++ v.prettyAt level ++ "," ++
      prettyMembers level rest

end

/-- A value over several lines. -/
def pretty (v : Json) : String := v.prettyAt 0

end GraphQuery.Json
