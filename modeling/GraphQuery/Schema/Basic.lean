import GraphQuery.Language.Value
import GraphQuery.Schema.Kind

/-!
# Schemas

The entity types of a graph with their properties and relations, and the root type whose fields
queries start from.

## Main definitions

* `Direction`, `Relation`: how a field follows the edges of the graph.
* `ArgumentDeclaration`, `Field`, `ObjectType`, `EnumType`: what a schema is made of.
* `Schema`: the root type, the entity types and the enums, each sorted by name.
-/

namespace GraphQuery

/-- Which end of an edge a relation starts from. -/
inductive Direction where
  | outgoing
  | incoming
deriving Repr, DecidableEq, Inhabited

namespace Direction

/-- The word for a direction. -/
def word : Direction → String
  | .outgoing => "OUT"
  | .incoming => "IN"

/-- Reads a direction, in any case of the letters. -/
def parse? (text : String) : Option Direction :=
  let letters := text.toList.map Char.toUpper
  if letters == ['O', 'U', 'T'] then some .outgoing
  else if letters == ['I', 'N'] then some .incoming
  else none

end Direction

/-- The edges that a field follows. -/
structure Relation where
  type : String
  direction : Direction
deriving Repr, DecidableEq, Inhabited

/-- An argument of a field. -/
structure ArgumentDeclaration where
  name : String
  kind : Kind
  default? : Option Value
deriving Repr, Inhabited

/-- A field; one that leads to an entity follows a relation, unless it belongs to the root type. -/
structure Field where
  name : String
  kind : Kind
  relation? : Option Relation
  arguments : List ArgumentDeclaration
deriving Repr, Inhabited

/-- The argument of a name. -/
def Field.argument? (f : Field) (name : String) : Option ArgumentDeclaration :=
  f.arguments.find? (·.name == name)

/-- An entity type, or the root type. -/
structure ObjectType where
  name : String
  fields : List Field
deriving Repr, Inhabited

/-- The field of a name. -/
def ObjectType.field? (t : ObjectType) (name : String) : Option Field :=
  t.fields.find? (·.name == name)

/-- An enum and its values. -/
structure EnumType where
  name : String
  values : List String
deriving Repr, DecidableEq, Inhabited

/-- The symbol is one of the values. -/
def EnumType.contains (e : EnumType) (symbol : String) : Bool := e.values.contains symbol

/-- The root type, and the entity types and enums in order of their names. -/
structure Schema where
  root : ObjectType
  types : List ObjectType
  enums : List EnumType
deriving Repr, Inhabited

namespace Schema

/-- The entity type of a name. -/
def type? (s : Schema) (name : String) : Option ObjectType := s.types.find? (·.name == name)

/-- The enum of a name. -/
def enum? (s : Schema) (name : String) : Option EnumType := s.enums.find? (·.name == name)

end Schema

end GraphQuery
