import GraphQuery.Compilation.Statement
import GraphQuery.Json.Basic
import GraphQuery.Language.Document
import GraphQuery.Reader.Message

/-!
# Compiled queries

A query together with the values of its variables becomes statements and parameters: one statement
for each root selection, and one parameter for each variable that is used.

## Main definitions

* `Value.toJson`: a constant as a parameter value.
* `Document.parameters`: the parameters of a query.
* `QueryError`, `CompiledQuery`.
* `Schema.compile`: what a query text is compiled to.
-/

namespace GraphQuery

namespace Value

mutual

/-- A constant as a parameter value. Floats without a JSON form become null. -/
def toJson : Value → Json
  | .int i => .int i.toInt
  | .float x => if x.isFinite then .float x else .null
  | .string s => .string s
  | .enum symbol => .string symbol
  | .boolean b => .bool b
  | .list items => .array (toJsonAll items)
  | .null => .null
  | .var _ => .null

/-- Some constants as parameter values. -/
def toJsonAll : List Value → List Json
  | [] => []
  | v :: vs => v.toJson :: toJsonAll vs

end

end Value

namespace Document

/-- The value of a variable: the one supplied, or else its default, or else null. -/
def parameter (d : Document) (supplied : List (String × Json)) (name : String) : Json :=
  match Json.get? supplied name with
  | some value => value
  | none => (((d.definition? name).bind (·.default?)).map Value.toJson).getD .null

/-- The variables that are used, each with its value, in order of first use. -/
def parameters (d : Document) (supplied : List (String × Json)) : List (String × Json) :=
  d.usedVariables.map fun name => (name, d.parameter supplied name)

/-- What is odd about the variables of a query: some are used without being declared, though others
are, and some are supplied but not used. -/
def variableEvents (d : Document) (supplied : List (String × Json)) : List Event :=
  let undeclared := d.usedVariables.filter fun name =>
    (d.definition? name).isNone && !d.definitions.isEmpty
  let unused := (supplied.map (·.1)).filter fun name => !d.usedVariables.contains name
  undeclared.map .undeclaredVariable ++ unused.map .unusedVariable

end Document

/-- Why a query is not compiled. -/
inductive QueryError where
  | rejected (trail : Trail)
  | compilation (error : CompileError)
deriving Repr

/-- The wording of an error. -/
def QueryError.message : QueryError → String
  | .rejected trail => "Query rejected: " ++ trail.summary
  | .compilation error => error.message

/-- The statements of a query and the parameters that they use. -/
structure CompiledQuery where
  statements : List String
  parameters : List (String × Json)
deriving Repr, Inhabited

namespace Schema

/-- The query of a text. -/
def readQuery (query : String) : Logged QueryError Document :=
  Logged.ofExcept ((Document.parse query.toList).mapError .rejected)

/-- What a query that has been read is compiled to. -/
def compileDocument (schema : Schema) (settings : Settings) (document : Document)
    (supplied : List (String × Json)) : Logged QueryError CompiledQuery := do
  let statements ←
    (Compilation.statements schema settings document.selections).mapError .compilation
  Logged.noteAll (document.variableEvents supplied)
  return { statements := statements.map (·.text), parameters := document.parameters supplied }

/-- What a query text is compiled to, with the values supplied for its variables. -/
def compile (schema : Schema) (settings : Settings) (query : String)
    (supplied : List (String × Json)) : Logged QueryError CompiledQuery := do
  let document ← readQuery query
  Logged.note (.compiling document.selections.length document.name)
  schema.compileDocument settings document supplied

/-- What a query text is compiled to with the default settings and no values. -/
def compileDefault (schema : Schema) (query : String) : Logged QueryError CompiledQuery := do
  let document ← readQuery query
  schema.compileDocument {} document []

end Schema

end GraphQuery
