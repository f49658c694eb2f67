import GraphQuery.Cypher.Literal
import GraphQuery.Language.Value
import GraphQuery.Schema.Kind

/-!
# Why a selection has no statement

## Main definitions

* `Expectation`: what a value should have been.
* `CompileError`, `CompileError.message`: the causes and their wording.
-/

namespace GraphQuery

/-- What a value should have been. -/
inductive Expectation where
  | scalar (scalar : Scalar)
  /-- Some value of an enum. -/
  | enum (name : String)
  /-- One of the values that an enum declares. -/
  | symbolOf (name : String) (values : List String)
  /-- A value, where an entity type was asked for. -/
  | leaf (entity : String)
  /-- A number of items. -/
  | pageBound
deriving Repr, DecidableEq

/-- The wording of an expectation. -/
def Expectation.text : Expectation → String
  | .scalar s => s.name
  | .enum name => "a value of enum " ++ name
  | .symbolOf name values =>
    "a value of enum " ++ name ++ " (" ++ Cypher.joinWith ", " values ++ ")"
  | .leaf entity => "a scalar, enum or list value (`" ++ entity ++ "` is an entity type)"
  | .pageBound => "a non-negative Int"

/-- The argument of a field. -/
structure ArgumentPlace where
  field : String
  argument : String
deriving Repr, DecidableEq

/-- Where a type was looked for. -/
inductive TypeUse where
  /-- Behind a root field that does not exist. -/
  | rootField (name root : String)
  /-- As the type that a root field leads to. -/
  | resultOf (type field : String)
  /-- As the type that a relation leads to. -/
  | targetOf (type field : String)
  /-- As the enum of an argument. -/
  | enumArgument
deriving Repr, DecidableEq

/-- The wording of a use. -/
def TypeUse.text : TypeUse → String
  | .rootField name root => "no root field `" ++ name ++ "` on " ++ root
  | .resultOf type field => "return type of " ++ type ++ "." ++ field
  | .targetOf type field => "target of " ++ type ++ "." ++ field
  | .enumArgument => "enum argument"

/-- Why a selection has no statement. -/
inductive CompileError where
  | unknownType (name : String) (use : TypeUse)
  | unknownField (type field : String)
  | unresolvedRelation (type field : String)
  | typeMismatch (expected : Expectation) (place : Option ArgumentPlace) (found : Value)
  | unknownArgument (field argument : String)
  | missingSelection (type field : String)
  | tooDeep (depth limit : Nat)
deriving Repr

namespace CompileError

/-- The wording of an error. -/
def message : CompileError → String
  | .unknownType name use => "Unknown type `" ++ name ++ "` (" ++ use.text ++ ")"
  | .unknownField type field => "Unknown field `" ++ field ++ "` on type `" ++ type ++ "`"
  | .unresolvedRelation type field =>
    "Field `" ++ type ++ "." ++ field ++
      "` is not a relationship and cannot have a sub-selection"
  | .typeMismatch expected place found =>
    let place := match place with
      | some p => " for " ++ p.field ++ "(" ++ p.argument ++ ")"
      | none => ""
    "Type mismatch: expected " ++ expected.text ++ place ++ ", found `" ++ found.text ++ "`"
  | .unknownArgument field argument =>
    "Unknown argument `" ++ argument ++ "` on field `" ++ field ++ "`"
  | .missingSelection type field =>
    "Field `" ++ type ++ "." ++ field ++ "` selects an entity and needs a sub-selection"
  | .tooDeep depth limit =>
    "Selection depth " ++ toString depth ++ " exceeds the maximum of " ++ toString limit

/-- A mismatch is said to stand at an argument. -/
def located (place : ArgumentPlace) : CompileError → CompileError
  | .typeMismatch expected _ found => .typeMismatch expected (some place) found
  | other => other

end CompileError

end GraphQuery
