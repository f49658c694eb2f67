import GraphQuery.Text.Digit
import GraphQuery.Yaml.Cursor

/-!
# Tags of a YAML text

A tag says what a node is. It is written in full between angle brackets, or as a handle that stands
for a known beginning and the rest. A tag is a sequence of bytes; here each byte is the character of
that code point, and a zero byte ends it.

## Main definitions

* `Yaml.Tag.handle?`, `Yaml.Tag.uri?`: the two parts of a tag as they are written.
* `Yaml.Tag.Written`, `Yaml.Tag.written?`: a tag before its handle is looked up.
* `Yaml.Tag.Handles`, `Yaml.Tag.Written.resolve?`: what handles stand for.
-/

namespace GraphQuery.Yaml.Tag

/-- A handle: a name after an exclamation mark, with or without one at its end. In a directive only
the bare mark does without. -/
def handle? (directive : Bool) : List Char → Option (List Char × List Char)
  | '!' :: s =>
    let name := s.takeWhile isWordChar
    match s.dropWhile isWordChar with
    | '!' :: rest => some ('!' :: name ++ ['!'], rest)
    | rest => if directive && !name.isEmpty then none else some ('!' :: name, rest)
  | _ => none

/-- Characters that stand for themselves. Between angle brackets and in directives, where `wide`
holds, there are a few more. -/
def isUriChar (wide : Bool) (c : Char) : Bool :=
  isWordChar c || ";/?:@&=+$.!~*'()".toList.contains c || wide && ",[]".toList.contains c

/-- How many bytes follow the first byte of a character. -/
def following? (byte : Nat) : Option Nat :=
  if byte < 0x80 then some 0
  else if byte < 0xC0 then none
  else if byte < 0xE0 then some 1
  else if byte < 0xF0 then some 2
  else if byte < 0xF8 then some 3
  else none

/-- How many bytes of the character at hand are to follow, of which `pending` were before. -/
def pending? (pending byte : Nat) : Option Nat :=
  if pending == 0 then following? byte
  else if 0x80 ≤ byte && byte < 0xC0 then some (pending - 1)
  else none

/-- The bytes of a tag and what follows it. A percent sign and two digits give a byte, and the bytes
of one character stand together. -/
def uri? (wide : Bool) (pending : Nat) : List Char → Option (List Char × List Char)
  | [] => if pending == 0 then some ([], []) else none
  | '%' :: a :: b :: s => do
    let byte := 16 * (← Text.hexDigit? a) + (← Text.hexDigit? b)
    let (bytes, rest) ← uri? wide (← pending? pending byte) s
    return (Char.ofNat byte :: bytes, rest)
  | c :: s =>
    if pending != 0 || c == '%' then none
    else if isUriChar wide c then (uri? wide 0 s).map fun (bytes, rest) => (c :: bytes, rest)
    else some ([], c :: s)

/-- The bytes up to a zero byte. -/
def untilZero (bytes : List Char) : String := String.ofList (bytes.takeWhile (· != '\x00'))

/-- The bytes of a tag, of which there has to be one at least. -/
def someUri? (wide : Bool) (text : List Char) : Option (String × List Char) := do
  let (bytes, rest) ← uri? wide 0 text
  if bytes.isEmpty then failure
  return (untilZero bytes, rest)

/-- A tag as it is written. A tag in full has no handle. -/
structure Written where
  handle : String
  suffix : String
deriving Repr, DecidableEq

/-- The tag that a text begins with. The bare mark is a tag in full. -/
def written? (text : List Char) : Option (Written × List Char) :=
  match text with
  | '!' :: '<' :: s => do
    match ← someUri? true s with
    | (suffix, '>' :: rest) => return ({ handle := "", suffix }, rest)
    | _ => failure
  | _ => do
    let (handle, rest) ← handle? false text
    if 1 < handle.length && handle.getLast? == some '!' then
      let (suffix, rest) ← someUri? false rest
      return ({ handle := String.ofList handle, suffix }, rest)
    else
      let (bytes, rest) ← uri? false 0 rest
      let suffix := untilZero (handle.drop 1 ++ bytes)
      return (if suffix.isEmpty then { handle := "", suffix := "!" }
        else { handle := "!", suffix }, rest)

/-- The handles that are known, each with the beginning that it stands for. -/
abbrev Handles := List (String × String)

/-- The beginning of the tags that every text knows. -/
def common : String := "tag:yaml.org,2002:"

/-- The handles that are known unless a directive says otherwise. -/
def defaults : Handles := [("!", "!"), ("!!", common)]

/-- The tag that is meant, if its handle is known. -/
def Written.resolve? (t : Written) (handles : Handles) : Option String :=
  if t.handle.isEmpty then some t.suffix
  else ((handles ++ defaults).lookup t.handle).map (· ++ t.suffix)

end GraphQuery.Yaml.Tag
