import GraphQuery.Language.Lexeme

/-!
# Type references

Types as they are written: a name, a list of a type, or a type that excludes null.

## Main definitions

* `TypeRef`: the three forms.
* `TypeRef.base`: the name inside.
* `TypeRef.text`, `TypeRef.reader`: writing and reading.
-/

namespace GraphQuery

/-- A type as it is written. -/
inductive TypeRef where
  | named (name : String)
  | list (inner : TypeRef)
  | nonNull (inner : TypeRef)
deriving Repr, DecidableEq, Inhabited

namespace TypeRef

/-- The name inside all lists and marks. -/
def base : TypeRef → String
  | .named name => name
  | .list inner => inner.base
  | .nonNull inner => inner.base

/-- A type as it is written, without blanks. -/
def text : TypeRef → String
  | .named name => name
  | .list inner => "[" ++ inner.text ++ "]"
  | .nonNull inner => inner.text ++ "!"

open Reader Lexeme

/-- A list type, with the type inside it read by `inner`. -/
def listReader (inner : Reader TypeRef) : Reader TypeRef := do
  let _ ← symbol '['
  let item ← commit inner
  let _ ← expecting "Expected `]` to close list type" (commit (symbol ']'))
  return .list item

/-- A type name. -/
def namedReader : Reader TypeRef := do
  return .named (← token name)

/-- A type, with the types inside it read by `inner`. -/
def readerStep (inner : Reader TypeRef) : Reader TypeRef := do
  let base ← oneOf [listReader inner, namedReader]
  match ← optional (symbol '!') with
  | some _ => return .nonNull base
  | none => return base

/-- Reads a type: a name or a type in brackets, each with an exclamation mark or without. -/
def reader : Reader TypeRef := nest readerStep

end TypeRef

end GraphQuery
