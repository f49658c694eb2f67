import GraphQuery.Text.Extending
import GraphQuery.Text.Unprintable

/-!
# Quoted text

Text in double quotes, as it is shown in messages. Quotes and backslashes are escaped, a few
controls have short names, and a character that could not be seen is given by its code point.

## Main definitions

* `Text.Quoted.escape`: how one character is shown.
* `Text.Quoted.encode`: a text in quotes.
-/

namespace GraphQuery.Text.Quoted

/-- The escapes with a letter of their own. -/
def shortEscape? (c : Char) : Option Char :=
  if c == '\x00' then some '0'
  else if c == '\t' then some 't'
  else if c == '\r' then some 'r'
  else if c == '\n' then some 'n'
  else if c == '\\' then some '\\'
  else if c == '"' then some '"'
  else none

/-- The escape by code point, in lower-case hexadecimal digits between braces. -/
def codePoint (c : Char) : List Char :=
  ['\\', 'u', '\x7b'] ++ Nat.toDigits 16 c.toNat ++ ['\x7d']

/-- How one character is shown between quotes. -/
def escape (c : Char) : List Char :=
  match shortEscape? c with
  | some letter => ['\\', letter]
  | none => if isExtending c || isUnprintable c then codePoint c else [c]

/-- A text in double quotes. -/
def encode (s : List Char) : List Char := '"' :: (s.flatMap escape ++ ['"'])

end GraphQuery.Text.Quoted
