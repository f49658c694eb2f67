import GraphQuery.Cypher.Statement
import GraphQuery.Proofs.Meaning.Database

/-!
# What statements evaluate to

Cypher statements, evaluated in a property graph. Variables are bound to nodes by patterns. A
pattern whose variable is bound already matches only the node that is bound there, so a variable
that is used twice constrains the second pattern.

Evaluation fails where a variable is used that is not bound, or where a page asks for something that
is no number of items.

## Main definitions

* `Cypher.Slice`: the slice behind a list, as a term.
* `Cypher.Environment`: the nodes that variables are bound to.
* `Cypher.Pattern.extend?`: what an edge that matches a pattern adds to an environment.
* `Cypher.Comprehension.eval`, `Cypher.Statement.eval`: evaluation.

## Main results

* `Cypher.Page.slice?_eq_text`: the text of a slice is that of the term that is evaluated.
-/

namespace GraphQuery.Cypher

/-! ### Slices -/

/-- An end of a slice: a number, a bound, or the sum of two bounds. -/
inductive Extent where
  | number (n : Int)
  | bound (b : Bound)
  | sum (a b : Bound)

/-- An end of a slice in a statement. -/
def Extent.text : Extent → String
  | .number n => toString n
  | .bound b => b.text
  | .sum a b => a.text ++ " + " ++ b.text

/-- The items of a list from a first end on, up to a second one if it is given. -/
structure Slice where
  start : Extent
  stop : Option Extent

/-- A slice in a statement. -/
def Slice.text (s : Slice) : String :=
  "[" ++ s.start.text ++ ".." ++ (s.stop.elim "" Extent.text) ++ "]"

namespace Page

/-- Where the slice of a page ends: the sum of its bounds, taken already if they are numbers and it
fits into 64 bits. -/
def stop (first offset : Bound) : Extent :=
  match first, offset with
  | .literal f, .literal o =>
    if Int64.minValue.toInt ≤ o.toInt + f.toInt ∧ o.toInt + f.toInt ≤ Int64.maxValue.toInt then
      .number (o.toInt + f.toInt)
    else .sum offset first
  | _, _ => .sum offset first

/-- The slice of a page, if anything is left out. -/
def toSlice? (p : Page) : Option Slice :=
  match p.first, p.offset with
  | none, none => none
  | none, some offset => some ⟨.bound offset, none⟩
  | some first, none => some ⟨.number 0, some (.bound first)⟩
  | some first, some offset => some ⟨.bound offset, some (stop first offset)⟩

theorem sliceEnd_eq_text (first offset : Bound) :
    sliceEnd first offset = (stop first offset).text := by
  cases first with
  | parameter name => rfl
  | literal f =>
    cases offset with
    | parameter name => rfl
    | literal o =>
      simp only [sliceEnd, stop]
      split <;> rfl

/-- The text of a slice is that of the term that is evaluated. -/
theorem slice?_eq_text (p : Page) : p.slice? = p.toSlice?.map Slice.text := by
  obtain ⟨_ | first, _ | offset⟩ := p
  · rfl
  · simp [slice?, toSlice?, Slice.text, Extent.text, String.append_assoc]
  · rfl
  · simp [slice?, toSlice?, Slice.text, Extent.text, sliceEnd_eq_text]

end Page

/-! ### Numbers of items -/

variable (params : Parameters)

/-- The number that a bound stands for. -/
def Bound.number? : Bound → Option Int
  | .literal n => some n.toInt
  | .parameter name => params.number? name

/-- The number that an end of a slice stands for. -/
def Extent.number? : Extent → Option Int
  | .number n => some n
  | .bound b => b.number? params
  | .sum a b => do return (← a.number? params) + (← b.number? params)

/-- The place in a list that a number stands for. Numbers below zero count from its end. -/
def place (length : Nat) (i : Int) : Nat := if i < 0 then (length + i).toNat else i.toNat

/-- The items of a list that a slice takes. -/
def Slice.cut {α : Type} (s : Slice) (items : List α) : Option (List α) := do
  let start ← s.start.number? params
  let stop ← match s.stop with
    | none => pure (items.length : Int)
    | some stop => stop.number? params
  return (items.take (place items.length stop)).drop (place items.length start)

/-- The number of rows that a clause asks for; there is none if it is below zero. -/
def Bound.count? (b : Bound) : Option Nat := do
  let n ← b.number? params
  if 0 ≤ n then return n.toNat else none

/-- The rows that are left by the clauses of a page: some are skipped, and of the others at most as
many as the limit are taken. -/
def Page.skipLimitRows {α : Type} (p : Page) (rows : List α) : Option (List α) := do
  let skip ← match p.offset with
    | none => pure 0
    | some offset => offset.count? params
  let limit ← match p.first with
    | none => pure rows.length
    | some first => first.count? params
  return (rows.drop skip).take limit

/-! ### Literals and filters -/

mutual

/-- The value of a literal. -/
def Literal.value : Literal → Datum
  | .null => .null
  | .boolean b => .boolean b
  | .int i => .int i
  | .float x => .float x
  | .string s => .string s
  | .parameter name => params name
  | .list items => .list (Literal.values items)

/-- The values of some literals. -/
def Literal.values : List Literal → List Datum
  | [] => []
  | l :: ls => l.value :: Literal.values ls

end

variable (db : Database)

/-- The nodes that variables are bound to, the latest binding first. -/
abbrev Environment := List (String × db.Node)

variable {db}

/-- The node that a variable is bound to has a property with the value of a filter. -/
def Equality.holds (env : Environment db) (name : String) (e : Equality) : Bool :=
  (env.lookup name).any fun n => db.equal (db.property n e.property) (e.value.value params)

/-! ### Patterns -/

/-- A variable of a pattern may stand for a node: it is not bound, or it is bound to this node. -/
def Environment.admits (env : Environment db) (name : String) (n : db.Node) : Bool :=
  (env.lookup name).all (· == n)

/-- What an edge adds to an environment, if it matches a pattern there. The variables of both ends
are looked at one after the other, so a pattern with one variable at both ends matches loops. -/
def Pattern.extend? (env : Environment db) (p : Pattern) (e : Edge db.size) :
    Option (Environment db) :=
  let (near, far) := db.ends p.relation.direction e
  if e.type == p.relation.type && env.admits p.source near
      && Environment.admits ((p.source, near) :: env) p.bound far && db.hasLabel p.label far then
    some ((p.bound, far) :: (p.source, near) :: env)
  else none

/-- The environments for the edges that match a pattern. -/
def Pattern.rows (env : Environment db) (p : Pattern) : List (Environment db) :=
  db.edges.filterMap (p.extend? env)

/-! ### Comprehensions and statements -/

/-- What is kept of a list. -/
def Pick.eval : Pick → List Answer → Option Answer
  | .single, items => some (items.head?.getD .null)
  | .page p, items =>
    match p.toSlice? with
    | none => some (.list items)
    | some slice => (slice.cut params items).map .list

mutual

/-- An entry of the map of a node. -/
def Entry.eval (env : Environment db) (n : db.Node) : Entry → Option (String × Answer)
  | .property key => some (key, .datum (db.property n key))
  | .related key nodes => do return (key, ← nodes.eval env)

/-- The entries of the map of a node. -/
def Entry.evalAll (env : Environment db) (n : db.Node) :
    List Entry → Option (List (String × Answer))
  | [] => some []
  | e :: es => do return (← e.eval env n) :: (← Entry.evalAll env n es)

/-- The maps of the nodes that match a pattern and pass the filters, or what is kept of them. -/
def Comprehension.eval (env : Environment db) : Comprehension → Option Answer
  | .mk pattern filters entries pick => do
    let rows := (pattern.rows env).filter fun row =>
      filters.all fun e => e.holds params row pattern.bound
    let items ← rows.mapM fun row => do
      let n ← row.lookup pattern.bound
      return .map (← Entry.evalAll row n entries)
    pick.eval params items

end

variable (db)

/-- The maps of the nodes that have the label and pass the filters, as far as they are on the page
that is asked for. -/
def Statement.eval (s : Statement) : Option (List Answer) := do
  let rows : List (Environment db) := (db.nodes.filter (db.hasLabel s.label)).map fun n =>
    [(s.bound, n)]
  let rows := rows.filter fun row => s.filters.all fun e => e.holds params row s.bound
  let rows ← s.page.skipLimitRows params rows
  rows.mapM fun row => do
    let n ← row.lookup s.bound
    return .map (← Entry.evalAll params row n s.entries)

end GraphQuery.Cypher
