import GraphQuery.Proofs.Language.Names

/-!
# What holds of every document

The rest of the program relies on what a document looks like and never checks it again: names are
names wherever they stand, enum symbols are not reserved words, floats are finite, defaults hold no
variables, and no type excludes null twice. All this is read off the tokens that a document is
written with, so it holds for mutations and subscriptions as well, although these are refused later.

The parts of a document are reached along its own structure. A value contains the items of its
lists, a type the types inside it, and a document selects what stands below its root selections.

## Main definitions

* `Value.Contains`, `TypeRef.Contains`: something stands in a value or a type, at any depth.
* `Value.Regular`, `TypeRef.Regular`, `Selection.Regular`, `VariableDefinition.Regular`,
  `Document.Regular`: what holds of each.

## Main results

* `Value.Contains.exists_written`, `TypeRef.Contains.exists_written`: what stands in something
  written is written itself.
* `Document.regular_of_reader`: what holds of every document that is read, and of what is left.
-/

namespace GraphQuery

open Reader Lexeme

/-! ### Values -/

namespace Value

/-- A value stands in another one: it is the other, or it stands in an item of a list. -/
inductive Contains : Value → Value → Prop
  | self (v : Value) : Contains v v
  | item {items : List Value} {v w : Value} (hv : v ∈ items) (hw : v.Contains w) :
    Contains (.list items) w

/-- Variables and enum symbols in the value are names, no enum symbol is a reserved word, and all
floats are finite. -/
structure Regular (v : Value) : Prop where
  vars : ∀ x, v.Contains (.var x) → IsName x
  enums : ∀ x, v.Contains (.enum x) → IsName x ∧ x ∉ ["true", "false", "null"]
  floats : ∀ x, v.Contains (.float x) → x.isFinite = true

variable {constant : Bool} {v w : Value} {ts : List Token}

/-- What stands in a value that is written is written itself. -/
theorem Contains.exists_written (h : v.Contains w) (hv : v.Written constant ts) :
    ∃ us, w.Written constant us := by
  induction h generalizing ts with
  | self v => exact ⟨ts, hv⟩
  | item hitem _ ih =>
    cases hv with
    | token hspelled => cases hspelled
    | list hrow =>
      obtain ⟨us, hwritten⟩ := hrow.exists_of_mem hitem
      exact ih hwritten

theorem Written.regular (hv : v.Written constant ts) : v.Regular where
  vars x hx := by
    obtain ⟨_, hwritten⟩ := hx.exists_written hv
    cases hwritten with
    | token hspelled =>
      cases hspelled with
      | var hname => exact hname
  enums x hx := by
    obtain ⟨_, hwritten⟩ := hx.exists_written hv
    cases hwritten with
    | token hspelled =>
      cases hspelled with
      | enum hname hword => exact ⟨hname, hword⟩
  floats x hx := by
    obtain ⟨_, hwritten⟩ := hx.exists_written hv
    cases hwritten with
    | token hspelled =>
      cases hspelled with
      | float _ _ hfinite => exact hfinite

/-- No variable stands in a constant, at any depth. -/
theorem Written.not_contains_var (hv : v.Written true ts) (x : String) : ¬ v.Contains (.var x) := by
  intro hx
  obtain ⟨_, hwritten⟩ := hx.exists_written hv
  cases hwritten with
  | token hspelled =>
    cases hspelled with
    | var _ hconstant => cases hconstant

end Value

/-! ### Types -/

namespace TypeRef

/-- A type stands in another one: it is the other, or it stands in what the other is made from. -/
inductive Contains : TypeRef → TypeRef → Prop
  | self (t : TypeRef) : Contains t t
  | list {inner t : TypeRef} (h : inner.Contains t) : Contains (.list inner) t
  | nonNull {inner t : TypeRef} (h : inner.Contains t) : Contains (.nonNull inner) t

/-- The name in the type is a name, and null is not excluded twice in a row. -/
structure Regular (t : TypeRef) : Prop where
  names : ∀ x, t.Contains (.named x) → IsName x
  single : ∀ u, ¬ t.Contains (.nonNull (.nonNull u))

variable {t u : TypeRef} {ts : List Token}

/-- What stands in a type that is written is written itself. -/
theorem Contains.exists_written (h : t.Contains u) (ht : t.Written ts) : ∃ us, u.Written us := by
  induction h generalizing ts with
  | self t => exact ⟨ts, ht⟩
  | list _ ih =>
    cases ht with
    | list hinner => exact ih hinner
  | nonNull _ ih =>
    cases ht with
    | nonNull hinner => exact ih hinner

theorem Written.regular (ht : t.Written ts) : t.Regular where
  names x hx := by
    obtain ⟨_, hwritten⟩ := hx.exists_written ht
    cases hwritten with
    | named hname => exact hname
  single u hu := by
    obtain ⟨_, hwritten⟩ := hu.exists_written ht
    cases hwritten with
    | nonNull _ hinner => exact hinner u rfl

end TypeRef

/-! ### Selections -/

/-- The alias, the name and the names of the arguments are names, and the values of the arguments
are regular. What is selected below is not looked at. -/
structure Selection.Regular (s : Selection) : Prop where
  aliasName : ∀ x ∈ s.aliasName, IsName x
  name : IsName s.name
  arguments : ∀ a ∈ s.arguments, IsName a.name ∧ a.value.Regular

theorem Selection.Named.isName {aliasName : Option String} {x : String} {ts : List Token}
    (h : Selection.Named aliasName x ts) : (∀ y ∈ aliasName, IsName y) ∧ IsName x := by
  cases h with
  | plain hx => exact ⟨(fun y hy => by cases hy), hx⟩
  | aliased hkey hx =>
    refine ⟨?_, hx⟩
    rintro _ ⟨⟩
    exact hkey

theorem Selection.Written.regular {s : Selection} {ts : List Token} (h : s.Written ts) :
    s.Regular := by
  cases h with
  | intro hnamed harguments _ =>
    refine ⟨hnamed.isName.1, hnamed.isName.2, fun a ha => ?_⟩
    obtain ⟨us, hargument⟩ := harguments.exists_of_mem ha
    cases hargument with
    | intro hx hv => exact ⟨hx, hv.regular⟩

/-! ### Definitions of variables -/

/-- The name of the variable is a name, its type is regular, and so is its default, in which no
variable stands. -/
structure VariableDefinition.Regular (d : VariableDefinition) : Prop where
  name : IsName d.name
  type : d.type.Regular
  default : ∀ v ∈ d.default?, v.Regular ∧ ∀ x, ¬ v.Contains (.var x)

theorem VariableDefinition.Written.regular {d : VariableDefinition} {ts : List Token}
    (h : d.Written ts) : d.Regular := by
  cases h with
  | intro hx htype hdefault =>
    refine ⟨hx, htype.regular, fun v hv => ?_⟩
    cases hdefault with
    | absent => cases hv
    | present hwritten =>
      cases hv
      exact ⟨hwritten.regular, hwritten.not_contains_var⟩

/-! ### Documents -/

namespace Document

/-- Something is selected, the name of the operation is a name, and all selections at any depth and
all definitions of variables are regular. -/
structure Regular (d : Document) : Prop where
  selects : d.selections ≠ []
  name : ∀ x ∈ d.name, IsName x
  selections : ∀ s, d.Selects s → s.Regular
  definitions : ∀ v ∈ d.definitions, v.Regular

variable {d : Document} {s : Selection} {ts : List Token}

theorem Named.isName {name : Option String} (h : Named name ts) : ∀ x ∈ name, IsName x := by
  cases h with
  | absent => exact fun x hx => by cases hx
  | present hx =>
    rintro _ ⟨⟩
    exact hx

theorem Written.regular (hd : d.Written ts) : d.Regular := by
  have hselections (s : Selection) (hs : d.Selects s) : s.Regular := by
    obtain ⟨_, hwritten⟩ := hs.exists_written hd
    exact hwritten.regular
  cases hd with
  | shorthand h =>
    refine ⟨?_, (fun x hx => by cases hx), hselections, List.forall_mem_nil _⟩
    cases h
    exact List.cons_ne_nil _ _
  | operation hname hdefinitions h =>
    refine ⟨?_, hname.isName, hselections, fun v hv => ?_⟩
    · cases h
      exact List.cons_ne_nil _ _
    · obtain ⟨_, hwritten⟩ := hdefinitions.exists_of_mem hv
      exact hwritten.regular

/-- Of what kind an operation is does not matter for what it selects. -/
theorem Selects.with_kind (kind : OperationKind) (hs : d.Selects s) :
    Selects { d with kind } s := by
  induction hs with
  | root hs => exact .root hs
  | nested _ hs ih => exact .nested ih hs

/-- Every document that is read is regular. What is left is the end of the text, and nothing that is
ignored stands in front of it. -/
theorem regular_of_reader {text rest : List Char} (h : reader text = .done d rest) :
    d.Regular ∧ rest <:+ text ∧ ∀ s, ¬ Ignored rest s := by
  -- The grammar is one of queries. Other operations differ from them in the first word only.
  obtain ⟨_, hwritten⟩ := exists_written_of_reader h
  obtain ⟨_, -, hspans⟩ := reads_reader text d rest h
  obtain ⟨hselects, hname, hselections, hdefinitions⟩ := hwritten.regular
  refine ⟨⟨hselects, hname, fun s hs => hselections s (hs.with_kind .query), hdefinitions⟩,
    hspans.suffix, fun s => ?_⟩
  exact not_ignored_of_skip_eq_self (skip_eq_self_of_reader h)

/-- A mutation with a default for its variable, which stands in a list. -/
def naming : Document :=
  ⟨.mutation, some "M",
    [⟨"x", .list (.nonNull (.named "T")), some (.list [.enum "A", .int 1])⟩],
    [⟨some "k", "f", [⟨"a", .list [.var "x"]⟩], []⟩]⟩

/-- A comma and a comment are skipped behind the mutation, and the text goes on. -/
theorem regular_of_reader_naming :
    reader "mutation M($x:[T!]=[A 1])\x7bk:f(a:[$x])\x7d,#\n!".toList = .done naming ['!'] ∧
      naming.Regular ∧ ['!'] <:+ "mutation M($x:[T!]=[A 1])\x7bk:f(a:[$x])\x7d,#\n!".toList ∧
      ∀ s, ¬ Ignored ['!'] s := by
  have hread :
      reader "mutation M($x:[T!]=[A 1])\x7bk:f(a:[$x])\x7d,#\n!".toList = .done naming ['!'] := by
    simp only [String.reduceToList]
    rfl
  exact ⟨hread, regular_of_reader hread⟩

end Document

end GraphQuery
