/-!
# Blanks and lines

The characters with the Unicode property `White_Space`, and the texts left after removing them at
an end.

## Main definitions

* `Text.isBlank`: the property.
* `Text.trimStart`, `Text.trimEnd`, `Text.trim`: remove blanks at one end or both.
* `Text.firstLine`: the characters before the first line feed.
-/

namespace GraphQuery.Text

/-- The characters with the property `White_Space`. -/
def isBlank (c : Char) : Bool :=
  let n := c.toNat
  (0x9 ≤ n && n ≤ 0xD) || n == 0x20 || n == 0x85 || n == 0xA0 || n == 0x1680
    || (0x2000 ≤ n && n ≤ 0x200A) || n == 0x2028 || n == 0x2029 || n == 0x202F || n == 0x205F
    || n == 0x3000

/-- Drop the blanks in front. -/
def trimStart (s : List Char) : List Char := s.dropWhile isBlank

/-- Drop the blanks at the end. -/
def trimEnd (s : List Char) : List Char := (s.reverse.dropWhile isBlank).reverse

/-- Drop the blanks at both ends. -/
def trim (s : List Char) : List Char := trimEnd (trimStart s)

/-- The characters before the first line feed. -/
def firstLine (s : List Char) : List Char := s.takeWhile (· != '\n')

end GraphQuery.Text
