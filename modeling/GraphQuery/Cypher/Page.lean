/-!
# Pages

A page of a list: how many items to leave out and how many to take. A list inside a result is
sliced; the rows of a whole statement are skipped and limited.

## Main definitions

* `Cypher.Bound`, `Cypher.Page`: the page.
* `Cypher.Page.slice?`: the slice that is put behind a list.
* `Cypher.Page.skipLimit`: the clauses that are put behind a statement.
-/

namespace GraphQuery.Cypher

/-- A number of items, given directly or by a parameter. -/
inductive Bound where
  | literal (n : Int64)
  | parameter (name : String)
deriving Repr, DecidableEq, Inhabited

/-- A bound in a statement. -/
def Bound.text : Bound → String
  | .literal n => toString n.toInt
  | .parameter name => "$" ++ name

/-- How many items to take, and how many to leave out before them. -/
structure Page where
  first : Option Bound
  offset : Option Bound
deriving Repr, DecidableEq, Inhabited

namespace Page

/-- Nothing is left out. -/
def isWhole (p : Page) : Bool := p.first.isNone && p.offset.isNone

/-- Where a slice ends: the sum of both bounds if it is known and fits into 64 bits, and otherwise
the sum to be taken by the database. -/
def sliceEnd (first offset : Bound) : String :=
  let sum := offset.text ++ " + " ++ first.text
  match first, offset with
  | .literal f, .literal o =>
    let total := o.toInt + f.toInt
    if Int64.minValue.toInt ≤ total ∧ total ≤ Int64.maxValue.toInt then toString total else sum
  | _, _ => sum

/-- The slice that cuts a page out of a list, if anything is left out. -/
def slice? (p : Page) : Option String :=
  match p.first, p.offset with
  | none, none => none
  | none, some offset => some ("[" ++ offset.text ++ "..]")
  | some first, none => some ("[0.." ++ first.text ++ "]")
  | some first, some offset =>
    some ("[" ++ offset.text ++ ".." ++ sliceEnd first offset ++ "]")

/-- The clauses that cut a page out of the rows of a statement. -/
def skipLimit (p : Page) : String :=
  (match p.offset with
    | some offset => " SKIP " ++ offset.text
    | none => "") ++
  (match p.first with
    | some first => " LIMIT " ++ first.text
    | none => "")

end Page

end GraphQuery.Cypher
