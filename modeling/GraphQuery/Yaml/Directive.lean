import GraphQuery.Yaml.Tag

/-!
# Directives of a YAML text

A directive is a line in front of a document. It gives the version of YAML, or says what a handle of
tags stands for.

## Main definitions

* `Yaml.Directive`: the two kinds of directives.
* `Yaml.Directive.read?`: the directive that a text begins with.
-/

namespace GraphQuery.Yaml

/-- A line that speaks about the document after it. -/
inductive Directive where
  /-- The version is a known one. -/
  | version
  /-- Tags with the handle begin with `meaning`. -/
  | handle (name meaning : String)
deriving Repr, DecidableEq

namespace Directive

/-- A part of a version has no more digits than this. -/
def maxDigits : Nat := 9

/-- A part of a version and what follows it. -/
def versionPart? (text : List Char) : Option (Nat × List Char) := do
  let digits := text.takeWhile Char.isDigit
  if digits.isEmpty || maxDigits < digits.length then failure
  return (Text.digitsValue digits, text.drop digits.length)

/-- A known version, 1.1 or 1.2. -/
def version? (text : List Char) : Option (Directive × List Char) := do
  let (major, rest) ← versionPart? text
  if rest.head? != some '.' then failure
  let (minor, rest) ← versionPart? (rest.drop 1)
  if major == 1 && (minor == 1 || minor == 2) then return (.version, rest) else failure

/-- A handle and what it stands for. -/
def handle? (text : List Char) : Option (Directive × List Char) := do
  let (name, rest) ← Tag.handle? true text
  if !rest.head?.any isBlank then failure
  let (meaning, rest) ← Tag.someUri? true (rest.dropWhile isBlank)
  if startsGap rest then return (.handle (String.ofList name) meaning, rest) else failure

/-- The directive that follows a percent sign. -/
def read? (text : List Char) : Option (Directive × List Char) :=
  let name := text.takeWhile isWordChar
  let rest := text.drop name.length
  if !startsGap rest then none
  else if name == "YAML".toList then version? (rest.dropWhile isBlank)
  else if name == "TAG".toList then handle? (rest.dropWhile isBlank)
  else none

end Directive

end GraphQuery.Yaml
