import GraphQuery.Language.Selection
import GraphQuery.Proofs.Meaning.Database
import GraphQuery.Settings.Basic

/-!
# What selections ask for

Selections read directly from a property graph, without a statement: a root selection asks for nodes
of a type, a selection below it for a property of a node or for the nodes that a relation leads to.
No variables are involved but those that the query itself uses.

## Main definitions

* `Value.denote`: what an argument value stands for.
* `Selection.passes`: the filters that a selection puts on a node.
* `Selection.onPage`: the part of a list that a selection asks for.
* `Selection.read`, `Selection.readRoot`: what selections ask for.
-/

namespace GraphQuery

/-! ### Values -/

/-- What a value stands for at a kind: integers serve as floats and identifiers, enum symbols are
strings, a single value serves as a list of one. -/
def Value.denote (params : Parameters) : Kind → Value → Datum
  | _, .null => .null
  | _, .var name => params name
  | .list inner, .list items => .list (items.map (Value.denote params inner))
  | .list inner, value => .list [Value.denote params inner value]
  | .scalar .id, .int i => .string (toString i.toInt)
  | .scalar .float, .int i => .float (Decimal.floatOfInt i.toInt)
  | _, .int i => .int i
  | _, .float x => .float x
  | _, .string s => .string s
  | _, .boolean b => .boolean b
  | _, .enum symbol => .string symbol
  | _, .list _ => .null

namespace Selection

variable (settings : Settings) (params : Parameters) (db : Database)

/-! ### Filters -/

/-- A node has a property with the given value. Without a value, or with null, nothing is asked. -/
def satisfies (n : db.Node) (property : String) (kind : Kind) (value? : Option Value) : Bool :=
  match value? with
  | none => true
  | some .null => true
  | some value => db.equal (db.property n property) (value.denote params kind)

/-- A node passes the filters of a selection: those of the declared arguments of the field, and, if
the settings allow it, those on the other properties of the target. -/
def passes (field : Field) (target : ObjectType) (s : Selection) (n : db.Node) : Bool :=
  (field.arguments.all fun a =>
    settings.isPageArgument a.name ||
      satisfies params db n a.name a.kind ((s.argument? a.name).or a.default?)) &&
  (!settings.implicitFilters ||
    target.fields.all fun p =>
      !p.kind.isLeaf || settings.isPageArgument p.name || (field.argument? p.name).isSome ||
        satisfies params db n p.name p.kind (s.argument? p.name))

/-! ### Pages -/

/-- The number of items that an argument gives, if any: the value supplied, or else the default. -/
def count? (name : String) (field : Field) (s : Selection) : Option Nat :=
  match (s.argument? name).or ((field.argument? name).bind (·.default?)) with
  | some (.int n) => some n.toInt.toNat
  | some (.var x) => (params.number? x).map Int.toNat
  | _ => none

/-- The part of a list that a selection asks for: some items are dropped, then some are taken. -/
def onPage {α : Type} (field : Field) (s : Selection) (items : List α) : List α :=
  let rest := items.drop ((count? params settings.offsetArgument field s).getD 0)
  match count? params settings.firstArgument field s with
  | none => rest
  | some first => rest.take first

/-! ### Selections -/

variable (schema : Schema)

mutual

/-- What a selection asks for at a node of a type: the property that has the name of its key, or the
maps of the nodes that the relation of its field leads to, of which a field that is no list takes
the first. -/
def read (type : ObjectType) (n : db.Node) : Selection → Answer
  | ⟨aliasName, name, arguments, selections⟩ =>
    let s : Selection := ⟨aliasName, name, arguments, selections⟩
    match type.field? name with
    | none => .null
    | some field =>
      match field.relation?, field.kind.target?.bind schema.type? with
      | none, _ => .datum (db.property n s.key)
      | some relation, some target =>
        let found := (db.neighbours relation n).filter fun m =>
          db.hasLabel target.name m && passes settings params db field target s m
        let maps := found.map fun m => Answer.map (readAll target m selections)
        if field.kind.isList then .list (onPage settings params field s maps)
        else maps.head?.getD .null
      | some _, none => .null

/-- What some selections ask for at a node, each under its key. -/
def readAll (type : ObjectType) (n : db.Node) : List Selection → List (String × Answer)
  | [] => []
  | s :: ss => (s.key, read type n s) :: readAll type n ss

end

end Selection

end GraphQuery
