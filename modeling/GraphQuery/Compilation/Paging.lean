import GraphQuery.Compilation.Error
import GraphQuery.Cypher.Page
import GraphQuery.Language.Selection
import GraphQuery.Schema.Basic
import GraphQuery.Settings.Basic

/-!
# The page that a selection asks for

## Main definitions

* `Paging.bound?`: a bound, supplied or by default.
* `Paging.ofSelection`: both bounds.
-/

namespace GraphQuery.Paging

open Cypher

/-- The value of an argument: the one supplied, or else the default of its declaration. -/
def value? (name : String) (field : Field) (selection : Selection) : Option Value :=
  (selection.argument? name).or ((field.argument? name).bind (·.default?))

/-- A bound given by a value: none if it is null, and otherwise a parameter or a number that is not
negative. -/
def ofValue (place : ArgumentPlace) (value : Value) : Except CompileError (Option Bound) :=
  match value with
  | .null => .ok none
  | .var name => .ok (some (.parameter name))
  | .int n =>
    if 0 ≤ n.toInt then .ok (some (.literal n))
    else .error (.typeMismatch .pageBound (some place) value)
  | _ => .error (.typeMismatch .pageBound (some place) value)

/-- The bound that an argument gives. -/
def bound? (name : String) (field : Field) (selection : Selection) :
    Except CompileError (Option Bound) :=
  match value? name field selection with
  | none => .ok none
  | some value => ofValue { field := field.name, argument := name } value

/-- The page that a selection asks for. -/
def ofSelection (settings : Settings) (field : Field) (selection : Selection) :
    Except CompileError Page := do
  let first ← bound? settings.firstArgument field selection
  let offset ← bound? settings.offsetArgument field selection
  return { first, offset }

end GraphQuery.Paging
