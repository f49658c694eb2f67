import GraphQuery.Text.Digit
import GraphQuery.Yaml.Cursor

/-!
# Scalars of a YAML text

A scalar is written without quotes, in one of two kinds of quotes, or as a block of lines. In the
first three a line break counts as a space, and further ones as themselves.

## Main definitions

* `Yaml.Fold`: the blanks and line breaks between two words, and the text that they stand for.
* `Yaml.plainScalar?`, `Yaml.quotedScalar?`, `Yaml.blockScalar?`.
-/

namespace GraphQuery.Yaml

/-- What stands between two words of a scalar. -/
structure Fold where
  blanks : List Char := []
  /-- The line has ended. -/
  broken : Bool := false
  /-- The first line break, unless it is escaped. -/
  first : List Char := []
  more : List Char := []
deriving Repr, DecidableEq

/-- The text that blanks and line breaks stand for: blanks are kept, a single line break is a
space, and of several the first is dropped. -/
def Fold.text (f : Fold) : List Char :=
  if !f.broken then f.blanks
  else if f.first == ['\n'] then if f.more.isEmpty then [' '] else f.more
  else f.first ++ f.more

/-- Read blanks and line breaks. A tab in front of column `indent` of a further line is refused. -/
def fold? (indent : Nat) : (fuel : Nat) → Fold → Cursor → Option (Fold × Cursor)
  | 0, f, p => some (f, p)
  | n + 1, f, p =>
    match p.rest with
    | [] => some (f, p)
    | c :: _ =>
      if isBlank c then
        if f.broken && p.column < indent && c == '\t' then none
        else fold? indent n (if f.broken then f else { f with blanks := f.blanks ++ [c] })
          (p.advance 1)
      else if isBreak c then
        let (found, p) := p.breakLine
        if f.broken then fold? indent n { f with more := f.more ++ found } p
        else fold? indent n { f with blanks := [], broken := true, first := found } p
      else some (f, p)

/-! ### Plain scalars -/

/-- The characters that structure collections on one line. -/
def isFlowMark (c : Char) : Bool :=
  c == ',' || c == '[' || c == ']' || c == '\x7b' || c == '\x7d'

/-- A word of a plain scalar and what follows it. A colon ends it in front of a gap; inside a
collection on one line the marks of the collection end it too. -/
def plainWord? (flow : Bool) : List Char → Option (List Char × List Char)
  | [] => some ([], [])
  | c :: s =>
    if isGap c then some ([], c :: s)
    else if flow && c == ':' && s.head?.any (fun d => isFlowMark d || d == '?') then none
    else if c == ':' && startsGap s || flow && isFlowMark c then some ([], c :: s)
    else (plainWord? flow s).map fun (word, rest) => (c :: word, rest)

/-- The words of a plain scalar that has `text` so far. The answer says too whether its last line
has ended. -/
def plainWords? (flow : Bool) (indent : Nat) :
    (fuel : Nat) → (text : List Char) → Fold → Cursor → Option (List Char × Bool × Cursor)
  | 0, _, _, _ => none
  | n + 1, text, f, p => do
    if p.atMarker || p.rest.head? == some '#' then return (text, f.broken, p)
    let (word, rest) ← plainWord? flow p.rest
    if word.isEmpty then return (text, f.broken, p)
    let text := text ++ f.text ++ word
    let p := p.advanceTo rest
    if !p.rest.head?.any isGap then return (text, false, p)
    let (f, p) ← fold? indent p.rest.length {} p
    if !flow && p.column < indent then return (text, f.broken, p)
    plainWords? flow indent n text f p

/-- A plain scalar whose further lines start at column `indent` or later. -/
def plainScalar? (flow : Bool) (indent : Nat) (p : Cursor) : Option (List Char × Bool × Cursor) :=
  plainWords? flow indent (p.rest.length + 1) [] {} p

/-! ### Quoted scalars -/

/-- The character that a letter after a backslash stands for. -/
def escaped? : Char → Option Char
  | '0' => some '\x00'
  | 'a' => some '\x07'
  | 'b' => some '\x08'
  | 't' => some '\t'
  | '\t' => some '\t'
  | 'n' => some '\n'
  | 'v' => some '\x0b'
  | 'f' => some '\x0c'
  | 'r' => some '\r'
  | 'e' => some '\x1b'
  | ' ' => some ' '
  | '"' => some '"'
  | '/' => some '/'
  | '\\' => some '\\'
  | 'N' => some '\u0085'
  | '_' => some '\u00a0'
  | 'L' => some '\u2028'
  | 'P' => some '\u2029'
  | _ => none

/-- The character whose code point has these hexadecimal digits. -/
def charOfHex? (digits : List Char) : Option Char := do
  let values ← digits.mapM Text.hexDigit?
  Text.charOfCode? (values.foldl (fun n d => 16 * n + d) 0)

/-- A word inside single quotes and what follows it. Two quotes stand for one. -/
def singleWord : List Char → List Char × List Char
  | [] => ([], [])
  | '\'' :: '\'' :: s => let (word, rest) := singleWord s; ('\'' :: word, rest)
  | c :: s =>
    if c == '\'' || isGap c then ([], c :: s)
    else let (word, rest) := singleWord s; (c :: word, rest)

/-- A word inside double quotes and what follows it. An escaped line break ends it. -/
def doubleWord? : List Char → Option (List Char × List Char)
  | [] => some ([], [])
  | '\\' :: 'x' :: a :: b :: s => do
    let c ← charOfHex? [a, b]
    let (word, rest) ← doubleWord? s
    return (c :: word, rest)
  | '\\' :: 'u' :: a :: b :: c :: d :: s => do
    let c ← charOfHex? [a, b, c, d]
    let (word, rest) ← doubleWord? s
    return (c :: word, rest)
  | '\\' :: 'U' :: a :: b :: c :: d :: e :: f :: g :: h :: s => do
    let c ← charOfHex? [a, b, c, d, e, f, g, h]
    let (word, rest) ← doubleWord? s
    return (c :: word, rest)
  | '\\' :: e :: s =>
    if isBreak e then some ([], '\\' :: e :: s)
    else do
      let c ← escaped? e
      let (word, rest) ← doubleWord? s
      return (c :: word, rest)
  | c :: s =>
    if c == '"' || isGap c then some ([], c :: s)
    else (doubleWord? s).map fun (word, rest) => (c :: word, rest)

/-- The words up to the closing quote of a scalar that has `text` so far. -/
def quotedWords? (quote : Char) :
    (fuel : Nat) → (text : List Char) → Cursor → Option (List Char × Cursor)
  | 0, _, _ => none
  | n + 1, text, p => do
    if p.atMarker || p.rest.isEmpty then failure
    let (word, rest) ← if quote == '"' then doubleWord? p.rest else some (singleWord p.rest)
    let p := p.advanceTo rest
    let text := text ++ word
    if rest.head? == some quote then return (text, p.advance 1)
    let (f, p) ←
      if rest.head? == some '\\' then
        fold? 0 rest.length { broken := true } (p.advance 1).breakLine.2
      else fold? 0 rest.length {} p
    quotedWords? quote n (text ++ f.text) p

/-- A scalar in quotes, read from behind the opening quote. -/
def quotedScalar? (quote : Char) (p : Cursor) : Option (List Char × Cursor) :=
  quotedWords? quote (p.rest.length + 1) [] p

/-! ### Block scalars -/

/-- What becomes of the line breaks at the end of a block. -/
inductive Chomping where
  | strip
  | clip
  | keep
deriving Repr, DecidableEq

/-- The sign for what becomes of the last line breaks. -/
def chomping? (c : Char) : Option Chomping :=
  if c == '+' then some .keep else if c == '-' then some .strip else none

/-- The number for how deep a block is indented. -/
def increment? (c : Char) : Option Nat :=
  if c.isDigit && c != '0' then some (c.toNat - '0'.toNat) else none

/-- The signs behind the mark of a block, in any order. -/
def blockHeader? (p : Cursor) : Option (Chomping × Option Nat × Cursor) :=
  match p.rest with
  | [] => some (.clip, none, p)
  | c :: s =>
    match chomping? c, increment? c with
    | some chomping, _ =>
      match s.head?.bind increment? with
      | some k => some (chomping, some k, p.advance 2)
      | none => if s.head? == some '0' then none else some (chomping, none, p.advance 1)
    | none, some k =>
      match s.head?.bind chomping? with
      | some chomping => some (chomping, some k, p.advance 2)
      | none => some (.clip, some k, p.advance 1)
    | none, none => if c == '0' then none else some (.clip, none, p)

/-- Go over empty lines and the indentation behind them. The answer has the line breaks and the
deepest column that was reached. Tabs are no indentation. -/
def indentation? (indent : Option Nat) :
    (fuel : Nat) → (deepest : Nat) → (breaks : List Char) → Cursor →
      Option (Nat × List Char × Cursor)
  | 0, deepest, breaks, p => some (deepest, breaks, p)
  | n + 1, deepest, breaks, p =>
    let inside := indent.all fun k => p.column < k
    match p.rest with
    | [] => some (max deepest p.column, breaks, p)
    | c :: _ =>
      if inside && c == ' ' then indentation? indent n deepest breaks (p.advance 1)
      else if inside && c == '\t' then none
      else if isBreak c then
        let (found, q) := p.breakLine
        indentation? indent n (max deepest p.column) (breaks ++ found) q
      else some (max deepest p.column, breaks, p)

/-- The lines of a block whose text is `text` so far. `last` is the line break behind it, `empty`
those of the empty lines that follow, and `led` says that its last line starts with a blank. -/
def blockLines? (folded : Bool) (indent : Nat) :
    (fuel : Nat) → (text last empty : List Char) → (led : Bool) → Cursor →
      Option (List Char × List Char × List Char × Cursor)
  | 0, _, _, _, _, _ => none
  | n + 1, text, last, empty, led, p =>
    if p.column != indent || p.rest.isEmpty then some (text, last, empty, p)
    else do
      let leads := p.rest.head?.any isBlank
      let joint :=
        if folded && last == ['\n'] && !led && !leads then if empty.isEmpty then [' '] else []
        else last
      let line := p.rest.takeWhile fun c => !isBreak c
      let (last', p) := p.skipLine.breakLine
      let (_, empty', p) ← indentation? (some indent) p.rest.length 0 [] p
      blockLines? folded indent n (text ++ joint ++ empty ++ line) last' empty' leads p

/-- A block of lines, read from behind its mark, inside a collection at column `parent`. -/
def blockScalar? (folded : Bool) (parent : Int) (p : Cursor) : Option (List Char × Cursor) := do
  let (chomping, increment, p) ← blockHeader? p
  let p ← p.endLine?
  let least := (parent + 1).toNat
  let given := increment.map fun k => (max parent 0).toNat + k
  let (deepest, empty, p) ← indentation? given (p.rest.length + 1) 0 [] p
  let indent := given.getD (max (max deepest least) 1)
  let (text, last, empty, p) ← blockLines? folded indent (p.rest.length + 1) [] [] empty false p
  return match chomping with
    | .strip => (text, p)
    | .clip => (text ++ last, p)
    | .keep => (text ++ last ++ empty, p)

end GraphQuery.Yaml
