import GraphQuery.Cypher.Literal
import GraphQuery.Cypher.Page
import GraphQuery.Schema.Basic

/-!
# Cypher statements

A statement matches the nodes of a label, filters them, and returns for each a map of properties
and of related nodes. Related nodes are found by a pattern comprehension inside the map, so one
match is enough however deep the result is.

## Main definitions

* `Cypher.Equality`: a filter on a property.
* `Cypher.Pattern`: an edge from a bound node to a new one.
* `Cypher.Entry`, `Cypher.Comprehension`: the map that is returned.
* `Cypher.Statement`, `Cypher.Statement.text`: a statement and its text.
-/

namespace GraphQuery.Cypher

/-- A property has a value. -/
structure Equality where
  property : String
  value : Literal
deriving Repr, Inhabited

/-- A filter on the node that a variable is bound to. -/
def Equality.text (bound : String) (e : Equality) : String :=
  bound ++ "." ++ e.property ++ " = " ++ e.value.text

/-- The clause that requires all filters, if there are any. -/
def whereClause (bound : String) (filters : List Equality) : String :=
  if filters.isEmpty then ""
  else " WHERE " ++ joinWith " AND " (filters.map (Equality.text bound))

/-- An edge from the node of one variable to a node of a label, which a new variable is bound to. -/
structure Pattern where
  source : String
  relation : Relation
  bound : String
  label : String
deriving Repr, DecidableEq, Inhabited

/-- A pattern in a statement; the arrow shows the direction of the edge. -/
def Pattern.text (p : Pattern) : String :=
  let node := "(" ++ p.bound ++ ":" ++ p.label ++ ")"
  match p.relation.direction with
  | .outgoing => "(" ++ p.source ++ ")-[:" ++ p.relation.type ++ "]->" ++ node
  | .incoming => "(" ++ p.source ++ ")<-[:" ++ p.relation.type ++ "]-" ++ node

/-- What is kept of the list that a comprehension gives. -/
inductive Pick where
  /-- The first item. -/
  | single
  /-- A page of the items. -/
  | page (p : Page)
deriving Repr, DecidableEq, Inhabited

/-- What is put behind a comprehension. -/
def Pick.text : Pick → String
  | .single => "[0]"
  | .page p => p.slice?.getD ""

mutual

/-- An entry of a map. -/
inductive Entry where
  /-- The property of the node that has the name of the key. -/
  | property (key : String)
  /-- Related nodes. -/
  | related (key : String) (nodes : Comprehension)

/-- The nodes that match a pattern and pass some filters, each as a map. -/
inductive Comprehension where
  | mk (pattern : Pattern) (filters : List Equality) (entries : List Entry) (pick : Pick)

end

/-- A map in a statement. -/
def mapText (entries : List String) : String := "\x7b" ++ joinWith "," entries ++ "\x7d"

mutual

/-- An entry in a statement. -/
def Entry.text : Entry → String
  | .property key => "." ++ key
  | .related key nodes => key ++ ":" ++ nodes.text

/-- Some entries. -/
def Entry.texts : List Entry → List String
  | [] => []
  | e :: es => e.text :: Entry.texts es

/-- A comprehension in a statement. -/
def Comprehension.text : Comprehension → String
  | .mk pattern filters entries pick =>
    "[" ++ pattern.text ++ whereClause pattern.bound filters ++ " | " ++ pattern.bound ++ " " ++
      mapText (Entry.texts entries) ++ "]" ++ pick.text

end

/-- The nodes of a label that pass some filters, each as a map, and the page of them to return. -/
structure Statement where
  bound : String
  label : String
  filters : List Equality
  entries : List Entry
  page : Page

/-- The text of a statement. -/
def Statement.text (s : Statement) : String :=
  "MATCH (" ++ s.bound ++ ":" ++ s.label ++ ")" ++ whereClause s.bound s.filters ++ " RETURN " ++
    s.bound ++ " " ++ mapText (Entry.texts s.entries) ++ s.page.skipLimit

end GraphQuery.Cypher
