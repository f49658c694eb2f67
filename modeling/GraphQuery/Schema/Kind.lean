/-!
# Kinds

The shape of a field or an argument once its type name is known. Marks against null are gone.

## Main definitions

* `Scalar`, `Kind`: the shapes.
* `Kind.target?`: the entity type that a kind leads to.
* `Kind.text`: a kind as it is shown in messages.
-/

namespace GraphQuery

/-- The built-in scalars, and those that a schema declares. -/
inductive Scalar where
  | string
  | int
  | float
  | boolean
  | id
  | custom (name : String)
deriving Repr, DecidableEq, Inhabited

namespace Scalar

/-- The built-in scalar of a name. -/
def builtin? (name : String) : Option Scalar :=
  if name == "String" then some .string
  else if name == "Int" then some .int
  else if name == "Float" then some .float
  else if name == "Boolean" then some .boolean
  else if name == "ID" then some .id
  else none

/-- The name of a scalar. -/
def name : Scalar → String
  | .string => "String"
  | .int => "Int"
  | .float => "Float"
  | .boolean => "Boolean"
  | .id => "ID"
  | .custom name => name

end Scalar

/-- The shape of a field or an argument. -/
inductive Kind where
  | scalar (scalar : Scalar)
  | enum (name : String)
  | list (inner : Kind)
  | entity (name : String)
deriving Repr, DecidableEq, Inhabited

namespace Kind

/-- The entity type inside, looking through lists. -/
def target? : Kind → Option String
  | .entity name => some name
  | .list inner => inner.target?
  | .scalar _ => none
  | .enum _ => none

/-- The kind is a list. -/
def isList : Kind → Bool
  | .list _ => true
  | _ => false

/-- The kind leads to no entity type. -/
def isLeaf (k : Kind) : Bool := k.target?.isNone

/-- A kind as it is shown in messages. -/
def text : Kind → String
  | .scalar s => s.name
  | .enum name => name
  | .entity name => name
  | .list inner => "[" ++ inner.text ++ "]"

end Kind

end GraphQuery
