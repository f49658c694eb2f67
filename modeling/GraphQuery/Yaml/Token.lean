import GraphQuery.Yaml.Directive
import GraphQuery.Yaml.Scalar

/-!
# Tokens of a YAML text

Columns open and close collections, and a word turns out to be a key only when its colon is met.
Such a word is remembered as a pending key, and the colon puts the key token in front of it.

## Main definitions

* `Yaml.Style`: the ways to write a scalar.
* `Yaml.Token`: the pieces that nodes are made of.
* `Yaml.Scanner`: the state between two tokens.
* `Yaml.Token.scan?`: the tokens of a text.
-/

namespace GraphQuery.Yaml

/-- How a scalar is written. -/
inductive Style where
  | plain
  | quoted
  /-- A block that keeps its line breaks. -/
  | literal
  /-- A block whose line breaks are spaces. -/
  | folded
deriving Repr, DecidableEq, Inhabited

/-- The pieces that nodes are made of. -/
inductive Token where
  | directive (d : Directive)
  | documentStart
  | documentEnd
  | blockSequenceStart
  | blockMappingStart
  | blockEnd
  | flowSequenceStart
  | flowSequenceEnd
  | flowMappingStart
  | flowMappingEnd
  | blockEntry
  | flowEntry
  | key
  | value
  | reference (name : String)
  | anchor (name : String)
  | tag (t : Tag.Written)
  | scalar (style : Style) (text : String)
deriving Repr, DecidableEq

/-- The start of a token that is a key if a colon follows. -/
structure PendingKey where
  /-- How many tokens stand before it. -/
  number : Nat
  /-- It stands where only a key can stand. -/
  required : Bool
  line : Nat
  column : Nat
  offset : Nat
deriving Repr, DecidableEq

/-- The state between two tokens. -/
structure Scanner where
  cursor : Cursor
  tokens : List Token := []
  /-- The column of the innermost block collection. -/
  indent : Int := -1
  /-- The columns of the block collections around it, innermost first. -/
  outer : List Int := []
  /-- The pending key of each level of flow collections, innermost first, and of the block around
  them. -/
  keys : List (Option PendingKey) := [none]
  /-- A key may start here. -/
  keyAllowed : Bool := true
deriving Repr

namespace Scanner

/-- Inside a collection with brackets. -/
def inFlow (s : Scanner) : Bool := 1 < s.keys.length

/-- Add a token. -/
def push (s : Scanner) (t : Token) : Scanner := { s with tokens := s.tokens ++ [t] }

/-- Go over some characters. -/
def advance (s : Scanner) (count : Nat) : Scanner := { s with cursor := s.cursor.advance count }

/-- Go over blanks, comments, line breaks and a byte order mark at the start of a line. In a block a
key may start on a new line, and where a key may start a tab is no blank. -/
def skipIgnored : (fuel : Nat) → Scanner → Scanner
  | 0, s => s
  | n + 1, s =>
    match s.cursor.rest with
    | [] => s
    | c :: _ =>
      if c == ' ' || c == '\t' && (s.inFlow || !s.keyAllowed) ||
          c == byteOrderMark && s.cursor.column == 0 then
        skipIgnored n (s.advance 1)
      else if c == '#' then skipIgnored n { s with cursor := s.cursor.skipLine }
      else if isBreak c then
        skipIgnored n
          { s with cursor := s.cursor.breakLine.2, keyAllowed := s.keyAllowed || !s.inFlow }
      else s

/-! ### Pending keys -/

/-- A key stands on one line and has no more bytes than this. -/
def maxKeyLength : Nat := 1024

/-- Forget the pending keys whose colon can no longer come. -/
def dropStaleKeys? (s : Scanner) : Option Scanner := do
  let keys ← s.keys.mapM fun
    | none => some none
    | some k =>
      if k.line < s.cursor.line || k.offset + maxKeyLength < s.cursor.offset then
        if k.required then none else some none
      else some (some k)
  return { s with keys }

/-- Forget the innermost pending key. -/
def dropKey? (s : Scanner) : Option Scanner :=
  match s.keys with
  | some k :: keys => if k.required then none else some { s with keys := none :: keys }
  | _ => some s

/-- The next token may turn out to be a key. -/
def saveKey? (s : Scanner) : Option Scanner := do
  if !s.keyAllowed then return s
  let s ← s.dropKey?
  let k : PendingKey :=
    { number := s.tokens.length
      required := !s.inFlow && s.indent == s.cursor.column
      line := s.cursor.line
      column := s.cursor.column
      offset := s.cursor.offset }
  return { s with keys := some k :: s.keys.drop 1 }

/-! ### Indentation -/

/-- Open a block collection at a column that lies deeper, in front of token `number`. -/
def openBlock (s : Scanner) (column number : Nat) (t : Token) : Scanner :=
  if s.inFlow || column ≤ s.indent then s
  else
    { s with
      indent := column
      outer := s.indent :: s.outer
      tokens := s.tokens.take number ++ t :: s.tokens.drop number }

/-- The columns that are left when those deeper than `column` are closed, and how many are. -/
def closing (column : Int) : (indent : Int) → (outer : List Int) → Int × List Int × Nat
  | indent, [] => (indent, [], 0)
  | indent, i :: outer =>
    if indent ≤ column then (indent, i :: outer, 0)
    else
      let (indent', outer', count) := closing column i outer
      (indent', outer', count + 1)

/-- Close the block collections that lie deeper than a column. -/
def closeBlocks (s : Scanner) (column : Int) : Scanner :=
  if s.inFlow then s
  else
    let (indent, outer, count) := closing column s.indent s.outer
    { s with indent, outer, tokens := s.tokens ++ List.replicate count .blockEnd }

/-! ### Single tokens -/

/-- A mark at the border of documents. -/
def document? (s : Scanner) (t : Token) : Option Scanner := do
  let s ← (s.closeBlocks (-1)).dropKey?
  return { (s.push t).advance 3 with keyAllowed := false }

/-- A line that speaks about the document after it. -/
def directive? (s : Scanner) : Option Scanner := do
  let s ← (s.closeBlocks (-1)).dropKey?
  let (d, rest) ← Directive.read? (s.cursor.rest.drop 1)
  let cursor ← (s.cursor.advanceTo rest).endLine?
  return { s.push (.directive d) with cursor, keyAllowed := false }

/-- A bracket that opens a collection. -/
def openFlow? (s : Scanner) (t : Token) : Option Scanner := do
  let s ← s.saveKey?
  return { (s.push t).advance 1 with keys := none :: s.keys, keyAllowed := true }

/-- A bracket that closes a collection. -/
def closeFlow? (s : Scanner) (t : Token) : Option Scanner := do
  let s ← s.dropKey?
  let keys := if s.inFlow then s.keys.drop 1 else s.keys
  return { (s.push t).advance 1 with keys, keyAllowed := false }

/-- A comma between entries. -/
def flowEntry? (s : Scanner) : Option Scanner := do
  let s ← s.dropKey?
  return { (s.push .flowEntry).advance 1 with keyAllowed := true }

/-- A hyphen in front of an item. -/
def blockEntry? (s : Scanner) : Option Scanner := do
  if !s.inFlow && !s.keyAllowed then failure
  let s ← (s.openBlock s.cursor.column s.tokens.length .blockSequenceStart).dropKey?
  return { (s.push .blockEntry).advance 1 with keyAllowed := true }

/-- A question mark in front of a key. -/
def explicitKey? (s : Scanner) : Option Scanner := do
  if !s.inFlow && !s.keyAllowed then failure
  let s ← (s.openBlock s.cursor.column s.tokens.length .blockMappingStart).dropKey?
  return { (s.push .key).advance 1 with keyAllowed := !s.inFlow }

/-- A colon in front of a value. If a key is pending, its token comes in front of that key. -/
def value? (s : Scanner) : Option Scanner :=
  match s.keys with
  | some k :: keys =>
    let s :=
      { s with tokens := s.tokens.take k.number ++ Token.key :: s.tokens.drop k.number }
    let s := s.openBlock k.column k.number .blockMappingStart
    some { (s.push .value).advance 1 with keys := none :: keys, keyAllowed := false }
  | _ =>
    if !s.inFlow && !s.keyAllowed then none
    else
      let s := s.openBlock s.cursor.column s.tokens.length .blockMappingStart
      some { (s.push .value).advance 1 with keyAllowed := !s.inFlow }

/-- An anchor, or a reference to one. -/
def anchor? (s : Scanner) (token : String → Token) : Option Scanner := do
  let s ← s.saveKey?
  let name := (s.cursor.rest.drop 1).takeWhile isWordChar
  let p := s.cursor.advance (name.length + 1)
  if name.isEmpty then failure
  if !(startsGap p.rest || p.rest.head?.any ("?:,]\x7d%@\x60".toList.contains ·)) then failure
  return { s.push (token (String.ofList name)) with cursor := p, keyAllowed := false }

/-- A tag. -/
def tag? (s : Scanner) : Option Scanner := do
  let s ← s.saveKey?
  let (t, rest) ← Tag.written? s.cursor.rest
  if !(startsGap rest || s.inFlow && rest.head? == some ',') then failure
  return { s.push (.tag t) with cursor := s.cursor.advanceTo rest, keyAllowed := false }

/-- A block of lines. -/
def block? (s : Scanner) (folded : Bool) : Option Scanner := do
  let s ← s.dropKey?
  let (text, cursor) ← blockScalar? folded s.indent (s.cursor.advance 1)
  let style := if folded then Style.folded else .literal
  return { s.push (.scalar style (String.ofList text)) with cursor, keyAllowed := true }

/-- A scalar in quotes. -/
def quoted? (s : Scanner) (quote : Char) : Option Scanner := do
  let s ← s.saveKey?
  let (text, cursor) ← quotedScalar? quote (s.cursor.advance 1)
  return { s.push (.scalar .quoted (String.ofList text)) with cursor, keyAllowed := false }

/-- A scalar without quotes. -/
def plain? (s : Scanner) : Option Scanner := do
  let s ← s.saveKey?
  let (text, broken, cursor) ← plainScalar? s.inFlow (s.indent + 1).toNat s.cursor
  return { s.push (.scalar .plain (String.ofList text)) with cursor, keyAllowed := broken }

/-- Characters that begin something else than a plain scalar. -/
def isIndicator (c : Char) : Bool := "-?:,[]\x7b\x7d#&*!|>'\"%@\x60".toList.contains c

/-- The token that begins with `c`, which `rest` follows. -/
def token? (s : Scanner) (c : Char) (rest : List Char) : Option Scanner :=
  if s.cursor.column == 0 && c == '%' then s.directive?
  else if s.cursor.atMarker then s.document? (if c == '-' then .documentStart else .documentEnd)
  else if c == '[' then s.openFlow? .flowSequenceStart
  else if c == '\x7b' then s.openFlow? .flowMappingStart
  else if c == ']' then s.closeFlow? .flowSequenceEnd
  else if c == '\x7d' then s.closeFlow? .flowMappingEnd
  else if c == ',' then s.flowEntry?
  else if c == '-' && startsGap rest then s.blockEntry?
  else if c == '?' && (s.inFlow || startsGap rest) then s.explicitKey?
  else if c == ':' && (s.inFlow || startsGap rest) then s.value?
  else if c == '*' then s.anchor? .reference
  else if c == '&' then s.anchor? .anchor
  else if c == '!' then s.tag?
  else if (c == '|' || c == '>') && !s.inFlow then s.block? (c == '>')
  else if c == '\'' || c == '"' then s.quoted? c
  else if !(isIndicator c || isGap c) || c == '-' || !s.inFlow && (c == '?' || c == ':') then
    s.plain?
  else none

/-- All tokens from here on. -/
def run? : (fuel : Nat) → Scanner → Option (List Token)
  | 0, _ => none
  | n + 1, s => do
    let s := s.skipIgnored s.cursor.rest.length
    let s ← s.dropStaleKeys?
    let s := s.closeBlocks s.cursor.column
    match s.cursor.rest with
    | [] =>
      let s ← (s.closeBlocks (-1)).dropKey?
      return s.tokens
    | c :: rest => run? n (← s.token? c rest)

end Scanner

/-- The tokens of a text. -/
def Token.scan? (text : List Char) : Option (List Token) :=
  if text.all isReadable then
    Scanner.run? (text.length + 1) { cursor := ⟨text, 0, 0, 0⟩ }
  else none

end GraphQuery.Yaml
