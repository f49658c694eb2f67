import GraphQuery.Settings.Source
import GraphQuery.Yaml.Document

/-!
# Settings in a file

A file of settings is a YAML text with one mapping. Keys that name no setting have no meaning, and a
setting may be given only once.

## Main definitions

* `Yaml.natural?`, `Yaml.flag?`: texts as numbers and truth values.
* `Overrides.ofNode?`: the settings of a mapping.
* `Settings.ofFile`: the settings of a file.
-/

namespace GraphQuery

namespace Yaml

/-- The value of a digit of a base up to sixteen. -/
def digit? (base : Nat) (c : Char) : Option Nat :=
  (Text.hexDigit? c).filter (· < base)

/-- The number with these digits, if it is small enough. -/
def number? (base : Nat) (digits : List Char) : Option Nat := do
  if digits.isEmpty then failure
  let values ← digits.mapM (digit? base)
  let n := values.foldl (fun n d => base * n + d) 0
  if n < numberLimit then return n else failure

/-- The base that a mark in front of digits stands for, and the digits. -/
def radix : List Char → Nat × List Char
  | '0' :: 'x' :: digits => (16, digits)
  | '0' :: 'o' :: digits => (8, digits)
  | '0' :: 'b' :: digits => (2, digits)
  | digits => (10, digits)

/-- A number without a sign. A decimal number has no zero in front. -/
def unsigned? (text : List Char) : Option Nat :=
  match radix text with
  | (10, '0' :: _ :: _) => none
  | (base, digits) => number? base digits

/-- A number, with or without a plus sign. -/
def natural? : List Char → Option Nat
  | '+' :: digits => unsigned? digits
  | digits => unsigned? digits

/-- A truth value. -/
def flag? (text : String) : Option Bool :=
  if ["true", "True", "TRUE"].contains text then some true
  else if ["false", "False", "FALSE"].contains text then some false
  else none

/-- The text of a scalar. -/
def Node.text? : Node → Option String
  | .scalar _ _ text => some text
  | _ => none

/-- The text of a scalar that may be read as a value of some kind: a plain one, or a block with the
tag of that kind. -/
def Node.value? (kind : String) : Node → Option String
  | .scalar .plain _ text => some text
  | .scalar .literal (some tag) text => if tag == Tag.common ++ kind then some text else none
  | _ => none

end Yaml

open Yaml

namespace Overrides

/-- Lay one entry of a mapping over the settings so far. -/
def add? (o : Overrides) (key : String) (value : Node) : Option Overrides :=
  match key with
  | "max_selection_depth" => do
    if o.maxDepth.isSome then failure
    return { o with maxDepth := some (← natural? (← value.value? "int").toList) }
  | "first_argument" => do
    if o.firstArgument.isSome then failure
    return { o with firstArgument := some (← value.text?) }
  | "offset_argument" => do
    if o.offsetArgument.isSome then failure
    return { o with offsetArgument := some (← value.text?) }
  | "implicit_field_filters" => do
    if o.implicitFilters.isSome then failure
    return { o with implicitFilters := some (← flag? (← value.value? "bool")) }
  | _ => some o

/-- The settings of a document: a mapping, or nothing at all. -/
def ofNode? (root : Option Node) : Option Overrides :=
  let known := (root.map Node.targets).getD []
  match root.map (Node.follow known) with
  | none => some {}
  | some (.mapping entries) =>
    entries.foldlM (fun o (key, value) => do
      o.add? (← (key.follow known).text?) (value.follow known)) {}
  | some (.scalar .plain _ "") => some {}
  | some _ => none

end Overrides

/-- The defaults with the settings of a file laid over them. `content` is the text of the file, or
why it cannot be read. -/
def Settings.ofFile (content : Except String String) : Except SettingsError Settings :=
  match content with
  | .error reason => .error (.unreadable "yaml_file" "file read failed" (.noFile reason))
  | .ok text =>
    match (Node.parse? text.toList).bind Overrides.ofNode? with
    | some o => ofOverrides o
    | none => .error (.unreadable "yaml_content" text .badContent)

end GraphQuery
