import GraphQuery.Language.Document

/-!
# Schema definitions

What a schema definition text declares: object types with their fields, enums, scalars, and the
schema block that names the root types. Descriptions are skipped.

## Main definitions

* `Directive`, `ArgumentDefinition`, `FieldDefinition`, `ObjectDefinition`, `EnumDefinition`,
  `SchemaBlock`, `Definition`.
* `SchemaBlock.queryType?`: the root type for queries.
* `Definition.reader`: one definition.
* `Definition.parseAll`: a whole text.
-/

namespace GraphQuery

/-- A directive and its arguments. -/
structure Directive where
  name : String
  arguments : List Argument
deriving Repr, Inhabited

/-- The first value given for an argument of a directive. -/
def Directive.argument? (d : Directive) (name : String) : Option Value :=
  Argument.find? name d.arguments

/-- An argument that a field takes. -/
structure ArgumentDefinition where
  name : String
  type : TypeRef
  default? : Option Value
deriving Repr, Inhabited

/-- A field of an object type. -/
structure FieldDefinition where
  name : String
  arguments : List ArgumentDefinition
  type : TypeRef
  directives : List Directive
deriving Repr, Inhabited

/-- An object type. -/
structure ObjectDefinition where
  name : String
  fields : List FieldDefinition
deriving Repr, Inhabited

/-- An enum and its values. -/
structure EnumDefinition where
  name : String
  values : List String
deriving Repr, DecidableEq, Inhabited

/-- The root types by kind of operation. -/
structure SchemaBlock where
  operations : List (OperationKind × String)
deriving Repr, DecidableEq, Inhabited

/-- The first root type given for queries. -/
def SchemaBlock.queryType? (b : SchemaBlock) : Option String :=
  (b.operations.find? (·.1 == .query)).map (·.2)

/-- One definition. -/
inductive Definition where
  | object (definition : ObjectDefinition)
  | enum (definition : EnumDefinition)
  | scalar (name : String)
  | schema (block : SchemaBlock)
deriving Repr, Inhabited

/-! ### Reading -/

open Reader Lexeme

/-- Skip a description, if there is one. -/
def skipDescription : Reader Unit := do
  let _ ← optional (token (oneOf [blockString, Lexeme.string]))

/-- A reader between two marks, each of which must be there. -/
def enclosed {α : Type} (opening : Reader Char) (inside : Reader α) (closing : Reader Char) :
    Reader α := do
  let _ ← opening
  let a ← inside
  let _ ← closing
  return a

/-- An at sign, a name, and perhaps arguments. -/
def Directive.reader : Reader Directive := do
  let _ ← symbol '@'
  let name ← expecting "Expected directive name" (commit Lexeme.name)
  let arguments ← optional (Argument.listReader true)
  return { name, arguments := arguments.getD [] }

/-- A name, a colon, a type, and perhaps a default. -/
def ArgumentDefinition.reader : Reader ArgumentDefinition := do
  skipDescription
  let name ← token Lexeme.name
  let _ ← expecting "Expected `:` after argument name" (commit (symbol ':'))
  let type ← expecting "Expected argument type" (commit TypeRef.reader)
  let default? ← optional defaultReader
  return { name, type, default? }

/-- One or more argument definitions between parentheses. -/
def ArgumentDefinition.listReader : Reader (List ArgumentDefinition) :=
  enclosed (symbol '(')
    (expecting "Argument definition list must not be empty"
      (commit (many1 ArgumentDefinition.reader)))
    (expecting "Expected `)` to close argument definitions" (commit (symbol ')')))

/-- A name, perhaps arguments, a colon, a type and directives. -/
def FieldDefinition.reader : Reader FieldDefinition := do
  skipDescription
  let name ← token Lexeme.name
  let arguments ← optional ArgumentDefinition.listReader
  let _ ← expecting "Expected `:` after field name" (commit (symbol ':'))
  let type ← expecting "Expected field type" (commit TypeRef.reader)
  let directives ← many Directive.reader
  return { name, arguments := arguments.getD [], type, directives }

/-- Refuse what object types may carry elsewhere but not here. -/
def refuseTypeExtras : Reader Unit := fun s =>
  if "implements".toList.isPrefixOf s || ['@'].isPrefixOf s then
    refuse "Interfaces and type directives are not supported" s
  else .done () s

/-- The name of an object type and its fields. -/
def ObjectDefinition.reader : Reader ObjectDefinition := do
  let name ← expecting "Expected type name" (commit (token Lexeme.name))
  refuseTypeExtras
  let fields ← enclosed
    (expecting "Expected `\x7b` after type name" (commit (symbol '\x7b')))
    (expecting "Expected field definitions" (commit (many1 FieldDefinition.reader)))
    (expecting "Expected `\x7d` to close type definition" (commit (symbol '\x7d')))
  return { name, fields }

/-- A value of an enum. -/
def EnumDefinition.valueReader : Reader String := do
  skipDescription
  token Lexeme.name

/-- The name of an enum and its values. -/
def EnumDefinition.reader : Reader EnumDefinition := do
  let name ← expecting "Expected enum name" (commit (token Lexeme.name))
  let values ← enclosed
    (expecting "Expected `\x7b` after enum name" (commit (symbol '\x7b')))
    (expecting "Expected enum values" (commit (many1 EnumDefinition.valueReader)))
    (expecting "Expected `\x7d` to close enum definition" (commit (symbol '\x7d')))
  return { name, values }

/-- A kind of operation, a colon and a type name. -/
def SchemaBlock.operationReader : Reader (OperationKind × String) := do
  let kind ← token OperationKind.reader
  let _ ← commit (symbol ':')
  let type ← commit (token Lexeme.name)
  return (kind, type)

/-- The root types between braces. -/
def SchemaBlock.reader : Reader SchemaBlock := do
  let operations ← enclosed
    (expecting "Expected `\x7b` after schema" (commit (symbol '\x7b')))
    (expecting "Expected operation type definitions" (commit (many1 SchemaBlock.operationReader)))
    (expecting "Expected `\x7d` to close schema definition" (commit (symbol '\x7d')))
  return { operations }

namespace Definition

/-- The cause noted where no definition begins. -/
def expected : String := "Expected a type, enum, scalar or schema definition"

/-- The words that introduce definitions which are not supported. -/
def unsupportedWords : List String := ["interface", "union", "input", "extend", "directive"]

/-- The reader for what follows the word that introduces a definition. -/
def bodyReader? (word : String) : Option (Reader Definition) :=
  if word == "type" then some (do return .object (← ObjectDefinition.reader))
  else if word == "enum" then some (do return .enum (← EnumDefinition.reader))
  else if word == "scalar" then
    some (do return .scalar (← expecting "Expected scalar name" (commit (token Lexeme.name))))
  else if word == "schema" then some (do return .schema (← SchemaBlock.reader))
  else none

/-- A word and the definition it introduces. Without a known word there is no definition here. -/
def undescribedReader : Reader Definition := fun s =>
  match token Lexeme.name s with
  | .done word rest =>
    match bodyReader? word with
    | some body => body rest
    | none =>
      if unsupportedWords.contains word then .refused [⟨s, "Unsupported schema definition"⟩]
      else .declined [⟨s, expected⟩]
  | .declined trail => .declined trail
  | .refused trail => .refused trail

/-- One definition, with or without a description. -/
def reader : Reader Definition := do
  skipDescription
  undescribedReader

/-- Reads a whole text as definitions. -/
def parseAll (text : List Char) : Except Trail (List Definition) :=
  match many reader text with
  | .done definitions rest =>
    match skip rest with
    | [] => .ok definitions
    | leftover => .error [⟨leftover, expected⟩]
  | .declined trail => .error trail
  | .refused trail => .error trail

end Definition

end GraphQuery
