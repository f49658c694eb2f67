/-!
# Positions in a YAML text

YAML gives meaning to columns and lines, so its readers carry their position along with the text
that is left.

## Main definitions

* `Yaml.isBlank`, `Yaml.isBreak`: what separates words and lines.
* `Yaml.Cursor`: a position, with `Cursor.advance` and `Cursor.breakLine`.
* `Yaml.isReadable`: the characters that a text may hold.
* `Yaml.isWordChar`: the characters of names.
-/

namespace GraphQuery.Yaml

/-- Blanks inside a line. -/
def isBlank (c : Char) : Bool := c == ' ' || c == '\t'

/-- What ends a line. -/
def isBreak (c : Char) : Bool :=
  c == '\n' || c == '\r' || c == '\u0085' || c == '\u2028' || c == '\u2029'

/-- What ends a word. -/
def isGap (c : Char) : Bool := isBlank c || isBreak c

/-- No word goes on here. -/
def startsGap : List Char → Bool
  | [] => true
  | c :: _ => isGap c

/-- A text may hold printable characters, tabs and line breaks. -/
def isReadable (c : Char) : Bool :=
  let n := c.toNat
  c == '\t' || c == '\n' || c == '\r' || n == 0x85 || 0x20 ≤ n && n ≤ 0x7E ||
    0xA0 ≤ n && n ≤ 0xFFFD || 0x10000 ≤ n

/-- The mark that may stand at the start of a line without being part of it. -/
def byteOrderMark : Char := '\ufeff'

/-- Characters of names and handles. -/
def isWordChar (c : Char) : Bool := c.isAlphanum || c == '_' || c == '-'

/-- What is left of a text, and where it stands. -/
structure Cursor where
  rest : List Char
  line : Nat := 0
  column : Nat := 0
  /-- How many bytes stand before, in UTF-8. -/
  offset : Nat := 0
deriving Repr, DecidableEq

namespace Cursor

/-- Go over some characters of a line. -/
def advance (p : Cursor) (count : Nat) : Cursor :=
  let bytes := (p.rest.take count).foldl (fun n c => n + c.utf8Size) 0
  { p with rest := p.rest.drop count, column := p.column + count, offset := p.offset + bytes }

/-- Go on to a later point of the same line. -/
def advanceTo (p : Cursor) (rest : List Char) : Cursor :=
  p.advance (p.rest.length - rest.length)

/-- Go over a line break, if there is one. A carriage return with a line feed is one line break.
Breaks are read as line feeds, apart from the two that have no other meaning. -/
def breakLine (p : Cursor) : List Char × Cursor :=
  match p.rest with
  | '\r' :: '\n' :: s => (['\n'], ⟨s, p.line + 1, 0, p.offset + 2⟩)
  | c :: s =>
    if isBreak c then
      ([if c == '\u2028' || c == '\u2029' then c else '\n'],
        ⟨s, p.line + 1, 0, p.offset + c.utf8Size⟩)
    else ([], p)
  | [] => ([], p)

/-- Go over characters of a line as long as `f` holds. -/
def skipWhile (p : Cursor) (f : Char → Bool) : Cursor := p.advance (p.rest.takeWhile f).length

/-- Go over the blanks of a line. -/
def skipBlanks (p : Cursor) : Cursor := p.skipWhile isBlank

/-- Go over the rest of a line. -/
def skipLine (p : Cursor) : Cursor := p.skipWhile fun c => !isBreak c

/-- Go over blanks and a comment; then the line has to end. -/
def endLine? (p : Cursor) : Option Cursor :=
  let p := p.skipBlanks
  let p := if p.rest.head? == some '#' then p.skipLine else p
  match p.rest with
  | [] => some p
  | c :: _ => if isBreak c then some p.breakLine.2 else none

/-- The first column holds a mark that begins or ends a document. -/
def atMarker (p : Cursor) : Bool :=
  p.column == 0 && match p.rest with
    | '-' :: '-' :: '-' :: s => startsGap s
    | '.' :: '.' :: '.' :: s => startsGap s
    | _ => false

end Cursor

end GraphQuery.Yaml
