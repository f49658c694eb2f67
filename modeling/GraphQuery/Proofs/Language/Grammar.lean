import GraphQuery.Language.Document
import GraphQuery.Proofs.Language.Layout
import GraphQuery.Proofs.Language.Spelling

/-!
# The grammar of queries

Which tokens a query can be written with. The grammar is a relation, because a query can be written
in more than one way: a number or a string has several spellings, and a query without a name and
without variables needs no introduction. What stands between the tokens is a matter of layout.

A variable in an argument is one token with its dollar sign. In the definition of a variable the
dollar sign is a token of its own.

## Main definitions

* `Row`, `Grouped`, `OptionallyGrouped`: things one after the other, and one or more of them between
  brackets.
* `Value.Written`, `TypeRef.Written`, `Selection.Written`, `VariableDefinition.Written`,
  `Document.Written`: the tokens of each.
* `Document.Renders`: a text is a layout of the tokens of a query.
-/

namespace GraphQuery

open Lexeme

/-! ### Repetition -/

section Repetition

variable {α : Type}

/-- Things one after the other. -/
inductive Row (G : α → List Token → Prop) : List α → List Token → Prop
  | nil : Row G [] []
  | cons {a : α} {as : List α} {ts us : List Token} (ha : G a ts) (has : Row G as us) :
    Row G (a :: as) (ts ++ us)

/-- One or more things between two brackets. -/
inductive Grouped (opening closing : Char) (G : α → List Token → Prop) :
    List α → List Token → Prop
  | intro {a : α} {as : List α} {ts : List Token} (h : Row G (a :: as) ts) :
    Grouped opening closing G (a :: as) ([opening] :: (ts ++ [[closing]]))

/-- One or more things between two brackets, or nothing at all. -/
inductive OptionallyGrouped (opening closing : Char) (G : α → List Token → Prop) :
    List α → List Token → Prop
  | absent : OptionallyGrouped opening closing G [] []
  | present {as : List α} {ts : List Token} (h : Grouped opening closing G as ts) :
    OptionallyGrouped opening closing G as ts

end Repetition

/-! ### Values and types -/

/-- A value of one token. In a constant no variable may stand. Names that are reserved words are no
enum symbols, and the double that is nearest to a numeral must be finite. -/
inductive Value.Spelled (constant : Bool) : Value → Token → Prop
  | var {x : String} (hx : IsName x) (hconstant : constant = false) :
    Spelled constant (.var x) ('$' :: x.toList)
  | int {n : Numeral} {t : Token} {i : Int64} (ht : n.Spelled t) (hwhole : n.isWhole = true)
    (hi : i.toInt = n.toInt) : Spelled constant (.int i) t
  | float {n : Numeral} {t : Token} (ht : n.Spelled t) (hwhole : n.isWhole = false)
    (hfinite : n.toDecimal.toFloat.isFinite = true) :
    Spelled constant (.float n.toDecimal.toFloat) t
  | string {x : String} {written : List Char} (h : Spells x.toList written) :
    Spelled constant (.string x) ('"' :: (written ++ ['"']))
  | boolean (b : Bool) : Spelled constant (.boolean b) (if b then "true" else "false").toList
  | null : Spelled constant .null "null".toList
  | enum {x : String} (hx : IsName x) (hword : x ∉ ["true", "false", "null"]) :
    Spelled constant (.enum x) x.toList

/-- A value: one token, or values between brackets. -/
inductive Value.Written (constant : Bool) : Value → List Token → Prop
  | token {v : Value} {t : Token} (h : v.Spelled constant t) : Written constant v [t]
  | list {items : List Value} {ts : List Token} (h : Row (Written constant) items ts) :
    Written constant (.list items) (['['] :: (ts ++ [[']']]))

/-- A type: a name, or a type between brackets, each with one exclamation mark or none. -/
inductive TypeRef.Written : TypeRef → List Token → Prop
  | named {x : String} (hx : IsName x) : Written (.named x) [x.toList]
  | list {inner : TypeRef} {ts : List Token} (h : inner.Written ts) :
    Written (.list inner) (['['] :: (ts ++ [[']']]))
  | nonNull {inner : TypeRef} {ts : List Token} (h : inner.Written ts)
    (hinner : ∀ t, inner ≠ .nonNull t) : Written (.nonNull inner) (ts ++ [['!']])

/-! ### Selections -/

/-- An argument: a name, a colon and a value. -/
inductive Argument.Written (constant : Bool) : Argument → List Token → Prop
  | intro {x : String} {v : Value} {ts : List Token} (hx : IsName x) (hv : v.Written constant ts) :
    Written constant ⟨x, v⟩ (x.toList :: [':'] :: ts)

/-- The name of a field, with an alias and a colon before it if there is an alias. -/
inductive Selection.Named : Option String → String → List Token → Prop
  | plain {x : String} (hx : IsName x) : Named none x [x.toList]
  | aliased {key x : String} (hkey : IsName key) (hx : IsName x) :
    Named (some key) x [key.toList, [':'], x.toList]

/-- A selection: its name, its arguments and what is selected below it. -/
inductive Selection.Written : Selection → List Token → Prop
  | intro {aliasName : Option String} {name : String} {arguments : List Argument}
    {selections : List Selection} {ts us vs : List Token} (hname : Named aliasName name ts)
    (harguments : OptionallyGrouped '(' ')' (Argument.Written false) arguments us)
    (hselections : OptionallyGrouped '\x7b' '\x7d' Selection.Written selections vs) :
    Written ⟨aliasName, name, arguments, selections⟩ (ts ++ (us ++ vs))

/-! ### Queries -/

/-- The default of a variable: an equals sign and a constant, or nothing. -/
inductive VariableDefinition.DefaultWritten : Option Value → List Token → Prop
  | absent : DefaultWritten none []
  | present {v : Value} {ts : List Token} (h : v.Written true ts) :
    DefaultWritten (some v) (['='] :: ts)

/-- The definition of a variable: its name, a colon, its type and its default. -/
inductive VariableDefinition.Written : VariableDefinition → List Token → Prop
  | intro {x : String} {type : TypeRef} {default? : Option Value} {ts us : List Token}
    (hx : IsName x) (htype : type.Written ts) (hdefault : DefaultWritten default? us) :
    Written ⟨x, type, default?⟩ (['$'] :: x.toList :: [':'] :: (ts ++ us))

/-- The name of an operation, or nothing. -/
inductive Document.Named : Option String → List Token → Prop
  | absent : Named none []
  | present {x : String} (hx : IsName x) : Named (some x) [x.toList]

/-- A query: selections alone, or the word for a query with a name and definitions of variables,
each of which may be missing, before the selections. -/
inductive Document.Written : Document → List Token → Prop
  | shorthand {selections : List Selection} {ts : List Token}
    (h : Grouped '\x7b' '\x7d' Selection.Written selections ts) :
    Written ⟨.query, none, [], selections⟩ ts
  | operation {name : Option String} {definitions : List VariableDefinition}
    {selections : List Selection} {ts us vs : List Token} (hname : Named name ts)
    (hdefinitions : OptionallyGrouped '(' ')' VariableDefinition.Written definitions us)
    (h : Grouped '\x7b' '\x7d' Selection.Written selections vs) :
    Written ⟨.query, name, definitions, selections⟩ ("query".toList :: (ts ++ (us ++ vs)))

/-- The text is a layout of tokens that the query can be written with. -/
def Document.Renders (d : Document) (text : List Char) : Prop :=
  ∃ ts, d.Written ts ∧ Spans ts text []

end GraphQuery
