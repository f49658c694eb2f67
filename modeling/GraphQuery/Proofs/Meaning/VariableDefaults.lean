import GraphQuery.Proofs.Compilation.Coercion
import GraphQuery.Proofs.Compilation.Reordering
import GraphQuery.Proofs.Language.Constant
import GraphQuery.Proofs.Meaning.Preservation

/-!
# Defaults of variables

A constant reaches the database in two ways. Written at an argument it is coerced to the kind of the
argument, and the statement holds the coerced value. As the default of a variable it becomes a
parameter; the argument is not known there, and the value stays as it was written.

Both ways lead to the same value exactly if there is nothing to coerce: no integer stands for an
identifier and no single value for a list, at any depth. Floats are left out, as they are wherever
literals are read.

## Main definitions

* `Json.datum?`: the value that a parameter has in the database.
* `Value.toDatum`: a value as it is written.
* `Value.isUncoerced`: the value needs no coercion at a kind.

## Main results

* `Value.datum?_toJson`: a constant is delivered as it is written.
* `Schema.toDatum_eq_value_iff`: its literal has the same value exactly if nothing is coerced.
* `Document.default_means_inline_iff`: so a default means the same as the constant at the argument.
-/

namespace GraphQuery

open Cypher Lexeme

/-! ### Parameters in the database -/

namespace Json

mutual

/-- The value that a parameter has in the database. Integers have 64 bits there, and objects are not
among the values of properties. -/
def datum? : Json → Option Datum
  | .null => some .null
  | .bool b => some (.boolean b)
  | .int i =>
    if Int64.minValue.toInt ≤ i ∧ i ≤ Int64.maxValue.toInt then some (.int (Int64.ofInt i))
    else none
  | .float x => some (.float x)
  | .string s => some (.string s)
  | .array items => (data? items).map Datum.list
  | .object _ => none

/-- The values that the items of a parameter have in the database. -/
def data? : List Json → Option (List Datum)
  | [] => some []
  | j :: js => (datum? j).bind fun d => (data? js).map (d :: ·)

end

theorem datum?_int (i : Int64) : (int i.toInt).datum? = some (.int i) := by
  rw [datum?, if_pos ⟨i.minValue_le_toInt, i.toInt_le⟩, Int64.ofInt_toInt]

end Json

/-! ### Values without a kind -/

namespace Value

mutual

/-- A value as it is written, without regard to a kind. Only finite floats can be delivered, and a
variable has no value of its own. -/
def toDatum : Value → Datum
  | .int i => .int i
  | .float x => if x.isFinite then .float x else .null
  | .string s => .string s
  | .enum symbol => .string symbol
  | .boolean b => .boolean b
  | .list items => .list (toData items)
  | .null => .null
  | .var _ => .null

/-- Some values as they are written. -/
def toData : List Value → List Datum
  | [] => []
  | v :: vs => v.toDatum :: toData vs

end

theorem toData_eq_map (vs : List Value) : toData vs = vs.map toDatum := by
  induction vs with
  | nil => rfl
  | cons v vs ih => rw [toData, List.map_cons, ih]

mutual

/-- A constant is delivered as it is written. -/
theorem datum?_toJson (v : Value) : v.toJson.datum? = some v.toDatum := by
  cases v with
  | int i => exact Json.datum?_int i
  | float x =>
    rw [toJson, toDatum]
    split_ifs <;> rfl
  | list items => rw [toJson, Json.datum?, data?_toJsonAll items, toDatum, Option.map_some]
  | _ => rfl

theorem data?_toJsonAll (vs : List Value) : Json.data? (toJsonAll vs) = some (toData vs) := by
  cases vs with
  | nil => rfl
  | cons v vs =>
    rw [toJsonAll, Json.data?, datum?_toJson v, data?_toJsonAll vs, toData, Option.bind_some,
      Option.map_some]

end

/-- The value needs no coercion at a kind, or is not accepted there. -/
def isUncoerced : Kind → Value → Bool
  | _, .null => true
  | .list inner, .list items => items.all (isUncoerced inner)
  | .list _, _ => false
  | .scalar .id, .int _ => false
  | _, _ => true

end Value

/-! ### Values at a kind -/

theorem map_eq_map_iff_all {α β γ : Type} {f : α → γ} {g : β → γ} {p : α → Bool} {as : List α}
    {bs : List β} (h : List.Forall₂ (fun a b => f a = g b ↔ p a = true) as bs) :
    as.map f = bs.map g ↔ as.all p = true := by
  induction h with
  | nil => simp
  | cons hfirst _ ih =>
    rw [List.map_cons, List.map_cons, List.cons.injEq, List.all_cons, Bool.and_eq_true, hfirst, ih]

namespace Schema

variable {schema : Schema} {params : Parameters}

theorem toDatum_eq_value_iff_of_scalar {scalar : Scalar} {v : Value} {l : Literal}
    (hscalar : scalar ≠ .float) (h : scalar.literal v = .ok l) :
    v.toDatum = l.value params ↔ v.isUncoerced (.scalar scalar) = true := by
  unfold Scalar.literal at h
  -- Only an integer at an identifier is changed.
  split at h <;> cases h <;>
    first | contradiction | simp [Value.toDatum, Literal.value, Value.isUncoerced]

/-- The literal of a constant has the value that was written exactly if nothing is coerced. -/
theorem toDatum_eq_value_iff {kind : Kind} {v : Value} {l? : Option Literal}
    (hkind : ¬ Kind.Contains (.scalar .float) kind) (hv : v.IsConstant)
    (h : schema.literal? kind v = .ok l?) :
    v.toDatum = (l?.getD .null).value params ↔ v.isUncoerced kind = true := by
  refine literal_induction (motive := fun kind v l => ¬ Kind.Contains (.scalar .float) kind →
    v.IsConstant → (v.toDatum = l.value params ↔ v.isUncoerced kind = true))
    ?_ ?_ ?_ ?_ ?_ ?_ h hkind hv
  · intro kind _ _
    simp [Value.toDatum, Literal.value, Value.isUncoerced]
  · intro kind name _ hv
    cases hv
  · intro scalar v l hl hkind _
    apply toDatum_eq_value_iff_of_scalar _ hl
    rintro rfl
    exact hkind .self
  · intro name symbol type _ _ _ _
    simp [Value.toDatum, Literal.value, Value.isUncoerced]
  · -- Both lists are compared item by item, and each item decides for itself.
    intro inner items literals hall hkind hitems
    have hinner := forall₂_imp_of_mem hall fun item hitem l _ hl =>
      hl (fun hinner => hkind (.list hinner)) (Value.isConstant_list_iff.1 hitems item hitem)
    rw [Value.toDatum, Literal.value, Datum.list.injEq, Value.toData_eq_map, Literal.values_eq_map,
      Value.isUncoerced]
    exact map_eq_map_iff_all hinner
  · -- A single value is written without brackets, so it is never the list that it stands for.
    intro inner v l hnull _ hlist _ _ hv
    cases v with
    | null => exact absurd rfl hnull
    | var x => cases hv
    | list items => exact absurd rfl (hlist items)
    | float x =>
      rw [Value.toDatum]
      split_ifs <;> simp [Literal.value, Value.isUncoerced]
    | _ => simp [Value.toDatum, Literal.value, Value.isUncoerced]

end Schema

/-! ### Defaults -/

namespace Document

variable {schema : Schema} {kind : Kind} {v : Value} {l : Literal} {d : Document}
  {supplied : List (String × Json)} {x : String} {definition : VariableDefinition}

/-- A variable for which nothing is supplied has its default as a parameter. -/
theorem get?_parameters_of_default (hused : x ∈ d.usedVariables)
    (hdefinition : d.definition? x = some definition) (hdefault : definition.default? = some v)
    (hsupplied : Json.get? supplied x = none) :
    Json.get? (d.parameters supplied) x = some v.toJson := by
  rw [Document.get?_parameters, if_pos hused, parameter, hsupplied]
  simp [hdefinition, hdefault]

/-- The default of a variable is always delivered. With the variable at the argument the statement
has the same value there as with the constant itself, exactly if the constant needs no coercion. -/
theorem default_means_inline_iff (hkind : ¬ Kind.Contains (.scalar .float) kind)
    (hv : v.IsConstant) (hl : schema.literal? kind v = .ok (some l)) (hused : x ∈ d.usedVariables)
    (hdefinition : d.definition? x = some definition) (hdefault : definition.default? = some v)
    (hsupplied : Json.get? supplied x = none) :
    ∃ bound datum, schema.literal? kind (.var x) = .ok (some bound) ∧
      (Json.get? (d.parameters supplied) x).bind Json.datum? = some datum ∧
      ∀ params : Parameters, params x = datum →
        ((Literal.read? l.text).map (Literal.value params) = some (bound.value params) ↔
          v.isUncoerced kind = true) := by
  refine ⟨.parameter x, v.toDatum, Schema.literal?_eq_ok_iff.2 (.var x), ?_, ?_⟩
  · rw [get?_parameters_of_default hused hdefinition hdefault hsupplied, Option.bind_some,
      Value.datum?_toJson]
  · intro params hparams
    -- A constant has no variables, so its literal is read back from the text.
    have hnames : ∀ y ∈ v.vars, IsName y := by
      rw [show v.vars = [] from hv]
      exact fun y hy => absurd hy List.not_mem_nil
    have hread : Literal.read? l.text = some l :=
      (Schema.readable_of_literal? hkind hnames hl).read?_text
    rw [hread, Option.map_some, Option.some.injEq, Literal.value, hparams, eq_comm]
    exact Schema.toDatum_eq_value_iff hkind hv hl

/-- Books are found by an identifier, or by lists of identifiers. -/
def booksText : String :=
  "type Query \x7bbook(id: ID): Book books(ids: [[ID]]): [Book]\x7d " ++
    "type Book \x7bid: ID name: String\x7d"

/-- The identifiers are strings inside lists, one is null, and one list is empty. -/
def shelves : Value := .list [.list [.string "7", .null], .list []]

/-- The text of a query for the books with these identifiers. -/
def shelvesQuery : String :=
  "query($ids: [[ID]] = [[\"7\", null], []]) \x7bbooks(ids: $ids) \x7bname\x7d\x7d"

/-- The document of that text. -/
def shelvesDocument : Document :=
  ⟨.query, none, [⟨"ids", .list (.list (.named "ID")), some shelves⟩],
    [⟨none, "books", [⟨"ids", .var "ids"⟩], [⟨none, "name", [], []⟩]⟩]⟩

/-- Without anything to coerce, the default means the same as the constant. -/
theorem default_means_inline_iff_shelves :
    ∃ schema d bound datum, (Schema.load booksText).result = .ok schema ∧
      ((schema.root.field? "books").bind fun field => (field.argument? "ids").map (·.kind)) =
        some (.list (.list (.scalar .id))) ∧
      Document.parse shelvesQuery.toList = .ok d ∧
      schema.literal? (.list (.list (.scalar .id))) (.var "ids") = .ok (some bound) ∧
      (Json.get? (d.parameters []) "ids").bind Json.datum? = some datum ∧
      ∀ params : Parameters, params "ids" = datum →
        (Literal.read? "[['7', null], []]").map (Literal.value params) =
          some (bound.value params) := by
  have hparse : Document.parse shelvesQuery.toList = .ok shelvesDocument := by
    simp only [shelvesQuery, String.reduceToList]
    rfl
  have hsome : ((Schema.load booksText).result.toOption.bind fun schema =>
      (schema.root.field? "books").bind fun field => (field.argument? "ids").map (·.kind)) =
      some (.list (.list (.scalar .id))) := by decide +kernel
  obtain ⟨schema, hschema, hargument⟩ := Option.bind_eq_some_iff.1 hsome
  have hkind : ¬ Kind.Contains (.scalar .float) (.list (.list (.scalar .id))) := by
    intro h
    cases h with
    | list h =>
      cases h with
      | list h => cases h
  have hliteral : schema.literal? (.list (.list (.scalar .id))) shelves =
      .ok (some (.list [.list [.string "7", .null], .list []])) := rfl
  have hconstant : shelves.IsConstant := rfl
  have hused : "ids" ∈ shelvesDocument.usedVariables := by decide
  have hsupplied : Json.get? [] "ids" = none := rfl
  obtain ⟨bound, datum, hbound, hdatum, hsame⟩ :=
    default_means_inline_iff hkind hconstant hliteral hused rfl rfl hsupplied
  refine ⟨schema, _, bound, datum, toOption_eq_some_iff.1 hschema, hargument, hparse, hbound,
    hdatum, ?_⟩
  intro params hparams
  exact (hsame params hparams).2 rfl

/-- The text of a query for one book, whose identifier is written as an integer. -/
def bookQuery : String := "query($id: ID = 7) \x7bbook(id: $id) \x7bname\x7d\x7d"

/-- An integer at an identifier is a string in the statement, but as the default of a variable it
stays an integer. -/
theorem default_differs_from_inline :
    ∃ schema d l, (Schema.load booksText).result = .ok schema ∧
      ((schema.root.field? "book").bind fun field => (field.argument? "id").map (·.kind)) =
        some (.scalar .id) ∧
      Document.parse bookQuery.toList = .ok d ∧
      (d.definition? "id").bind (·.default?) = some (.int 7) ∧
      schema.literal? (.scalar .id) (.int 7) = .ok (some l) ∧ l.text = "'7'" ∧
      d.parameters [] = [("id", .int 7)] ∧
      ∀ params : Parameters, (Literal.read? l.text).map (Literal.value params) ≠
        (Json.get? (d.parameters []) "id").bind Json.datum? := by
  have hparse : Document.parse bookQuery.toList =
      .ok ⟨.query, none, [⟨"id", .named "ID", some (.int 7)⟩],
        [⟨none, "book", [⟨"id", .var "id"⟩], [⟨none, "name", [], []⟩]⟩]⟩ := by
    simp only [bookQuery, String.reduceToList]
    rfl
  have hsome : ((Schema.load booksText).result.toOption.bind fun schema =>
      (schema.root.field? "book").bind fun field => (field.argument? "id").map (·.kind)) =
      some (.scalar .id) := by decide +kernel
  obtain ⟨schema, hschema, hargument⟩ := Option.bind_eq_some_iff.1 hsome
  refine ⟨schema, _, .string "7", toOption_eq_some_iff.1 hschema, hargument, hparse, rfl, rfl, rfl,
    rfl, ?_⟩
  intro params h
  have hread : Literal.read? (Literal.string "7").text = some (.string "7") :=
    (Literal.Readable.string "7").read?_text
  rw [hread] at h
  cases h

end Document

end GraphQuery
