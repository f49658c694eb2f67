import GraphQuery.Language.Selection
import GraphQuery.Language.TypeRef
import GraphQuery.Text.Blank

/-!
# Documents

A document is one operation: its kind, a name, the variables it declares and its selections. Only
read operations are accepted in the end; the others are read, so that they can be refused for what
they are.

## Main definitions

* `OperationKind`, `VariableDefinition`, `Document`.
* `Document.usedVariables`: the variables used in arguments, in order of first use.
* `Document.reader`: reads a document from the front of a text.
* `Document.parse`: reads a whole text as a read operation.
-/

namespace GraphQuery

/-- What an operation does. -/
inductive OperationKind where
  | query
  | mutation
  | subscription
deriving Repr, DecidableEq, Inhabited

namespace OperationKind

/-- The word that introduces an operation. -/
def word : OperationKind → String
  | .query => "query"
  | .mutation => "mutation"
  | .subscription => "subscription"

end OperationKind

/-- A declared variable, its type and its default. -/
structure VariableDefinition where
  name : String
  type : TypeRef
  default? : Option Value
deriving Repr, Inhabited

/-- One operation. -/
structure Document where
  kind : OperationKind
  name : Option String
  definitions : List VariableDefinition
  selections : List Selection
deriving Repr, Inhabited

namespace Document

/-- The first definition of a variable. -/
def definition? (d : Document) (name : String) : Option VariableDefinition :=
  d.definitions.find? (·.name == name)

/-- The variables used in arguments, each once, in order of first use. -/
def usedVariables (d : Document) : List String :=
  (Selection.varsOfAll d.selections).eraseDups

end Document

/-! ### Reading -/

open Reader Lexeme

/-- An equals sign and a constant. -/
def defaultReader : Reader Value := do
  let _ ← symbol '='
  expecting "Expected default value" (commit (token (Value.reader true)))

namespace VariableDefinition

/-- A variable, a colon, a type and perhaps a default. -/
def reader : Reader VariableDefinition := do
  let _ ← symbol '$'
  let name ← expecting "Expected variable name" (commit Lexeme.name)
  let _ ← expecting "Expected `:` after variable name" (commit (symbol ':'))
  let type ← expecting "Expected variable type" (commit TypeRef.reader)
  let default? ← optional defaultReader
  return { name, type, default? }

/-- One or more definitions between parentheses. -/
def listReader : Reader (List VariableDefinition) := do
  let _ ← symbol '('
  let definitions ←
    expecting "Variable definition list must not be empty" (commit (many1 reader))
  let _ ← expecting "Expected `)` to close variable definitions" (commit (symbol ')'))
  return definitions

end VariableDefinition

namespace OperationKind

/-- The word of one kind of operation. -/
def wordReader (kind : OperationKind) : Reader OperationKind := do
  let _ ← keyword kind.word
  return kind

/-- The word of any kind of operation. -/
def reader : Reader OperationKind :=
  oneOf [wordReader .query, wordReader .mutation, wordReader .subscription]

end OperationKind

namespace Document

/-- A bare selection set: a query without a name. -/
def shorthandReader : Reader Document := do
  let selections ← Selection.setReader
  return { kind := .query, name := none, definitions := [], selections }

/-- An operation that begins with its kind. -/
def operationReader : Reader Document := do
  let kind ← expecting "Expected `\x7b`, `query`, `mutation` or `subscription`"
    (token OperationKind.reader)
  let name ← optional (token Lexeme.name)
  let definitions ← optional VariableDefinition.listReader
  let selections ← expecting "Expected selection set" (commit Selection.setReader)
  return { kind, name, definitions := definitions.getD [], selections }

/-- One operation, from the front of a text. -/
def reader : Reader Document := do
  ignored
  let rest ← peek
  if rest.head? == some '\x7b' then shorthandReader else operationReader

/-- The causes for which operations that are not queries are refused. -/
def unsupported? : OperationKind → Option String
  | .query => none
  | .mutation => some "Mutations are not supported; only read queries can be translated"
  | .subscription => some "Subscriptions are not supported; only read queries can be translated"

/-- Reads a whole text as one query. Blanks of any kind may follow it. -/
def parse (text : List Char) : Except Trail Document :=
  match reader text with
  | .done document rest =>
    let leftover := Text.trim rest
    if leftover.isEmpty then
      match unsupported? document.kind with
      | none => .ok document
      | some cause => .error [⟨Text.trimStart text, cause⟩]
    else .error [⟨rest, "Unexpected tokens after operation"⟩, ⟨leftover, "Unparsed input"⟩]
  | .declined trail => .error trail
  | .refused trail => .error trail

end Document

end GraphQuery
