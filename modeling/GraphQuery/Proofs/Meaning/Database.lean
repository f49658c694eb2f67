import GraphQuery.Schema.Basic

/-!
# Property graphs

A finite graph whose nodes carry labels and properties, and whose edges have a type and a direction.
Statements are evaluated in it, and selections are read from it.

## Main definitions

* `Datum`: the values of properties and parameters.
* `Database`: a graph, with the database's notion of equal values.
* `Database.neighbours`: the nodes that a relation leads to, in order.
* `Answer`: the results of statements and of selections.
-/

namespace GraphQuery

/-- The values of properties and parameters. -/
inductive Datum where
  | null
  | boolean (b : Bool)
  | int (i : Int64)
  | float (x : Float)
  | string (s : String)
  | list (items : List Datum)
deriving Inhabited

/-- The values that are given for parameters. -/
abbrev Parameters := String → Datum

/-- The number that a parameter gives, if it is one. -/
def Parameters.number? (params : Parameters) (name : String) : Option Int :=
  match params name with
  | .int i => some i.toInt
  | _ => none

/-- An edge between two of `size` nodes. -/
structure Edge (size : Nat) where
  source : Fin size
  type : String
  target : Fin size

/-- A finite property graph. Nodes are numbered and edges are listed; this is the order in which
they are met. A property that a node does not have is null. -/
structure Database where
  size : Nat
  labels : Fin size → List String
  property : Fin size → String → Datum
  edges : List (Edge size)
  /-- The database takes an equality of these values to be true. -/
  equal : Datum → Datum → Bool

namespace Database

/-- The nodes of a graph. -/
abbrev Node (db : Database) := Fin db.size

variable (db : Database)

/-- The nodes in order. -/
def nodes : List db.Node := List.finRange db.size

/-- The node carries the label. -/
def hasLabel (label : String) (n : db.Node) : Bool := (db.labels n).contains label

/-- The end of an edge where a relation starts, and the end where it leads to. -/
def ends (direction : Direction) (e : Edge db.size) : db.Node × db.Node :=
  match direction with
  | .outgoing => (e.source, e.target)
  | .incoming => (e.target, e.source)

/-- The nodes that a relation leads to from a node, once for each edge. -/
def neighbours (relation : Relation) (n : db.Node) : List db.Node :=
  (db.edges.filter fun e => e.type == relation.type && (db.ends relation.direction e).1 == n).map
    fun e => (db.ends relation.direction e).2

end Database

/-- The results of statements and of selections. -/
inductive Answer where
  | datum (d : Datum)
  /-- The entries of a map, in order. -/
  | map (entries : List (String × Answer))
  | list (items : List Answer)
deriving Inhabited

/-- No result. -/
def Answer.null : Answer := .datum .null

end GraphQuery
