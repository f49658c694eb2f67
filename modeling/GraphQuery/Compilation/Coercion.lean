import GraphQuery.Compilation.Error
import GraphQuery.Schema.Basic

/-!
# Values as literals

A value fits a kind if it can be written as a literal of that kind. Integers serve as floats and as
identifiers, a single value serves as a list of one, and a variable serves everywhere.

## Main definitions

* `Scalar.literal`: a value of a scalar.
* `Schema.literal`: a value of any kind, not null.
* `Schema.literal?`: a value of any kind; null stands for no literal at all.
-/

namespace GraphQuery

/-- A value of a scalar as a literal. Declared scalars are written like strings. -/
def Scalar.literal (scalar : Scalar) (value : Value) : Except CompileError Cypher.Literal :=
  match scalar, value with
  | .string, .string s => .ok (.string s)
  | .custom _, .string s => .ok (.string s)
  | .id, .string s => .ok (.string s)
  | .id, .int i => .ok (.string (toString i.toInt))
  | .int, .int i => .ok (.int i)
  | .float, .float x => .ok (.float x)
  | .float, .int i => .ok (.float (Decimal.floatOfInt i.toInt))
  | .boolean, .boolean b => .ok (.boolean b)
  | _, _ => .error (.typeMismatch (.scalar scalar) none value)

namespace Schema

/-- A symbol of an enum as a literal. -/
def enumLiteral (schema : Schema) (name : String) (value : Value) :
    Except CompileError Cypher.Literal :=
  match value with
  | .enum symbol =>
    match schema.enum? name with
    | none => .error (.unknownType name .enumArgument)
    | some type =>
      if type.contains symbol then .ok (.string symbol)
      else .error (.typeMismatch (.symbolOf name type.values) none value)
  | _ => .error (.typeMismatch (.enum name) none value)

/-- A value that is not null, as a literal of a kind. Inside a list null is kept. -/
def literal (schema : Schema) : Kind → Value → Except CompileError Cypher.Literal
  | .list inner, value =>
    match value with
    | .list items => do
      let literals ← items.mapM fun item =>
        match item with
        | .null => .ok .null
        | .var name => .ok (.parameter name)
        | _ => schema.literal inner item
      return .list literals
    | _ => do return .list [← schema.literal inner value]
  | .scalar scalar, value => scalar.literal value
  | .enum name, value => schema.enumLiteral name value
  | .entity name, value => .error (.typeMismatch (.leaf name) none value)

/-- A value as a literal of a kind. Null has none, and variables are never replaced by values. -/
def literal? (schema : Schema) (kind : Kind) (value : Value) :
    Except CompileError (Option Cypher.Literal) :=
  match value with
  | .null => .ok none
  | .var name => .ok (some (.parameter name))
  | _ => do return some (← schema.literal kind value)

end Schema

end GraphQuery
