import GraphQuery.Proofs.Compilation.Result
import GraphQuery.Proofs.Cypher.LiteralReader
import GraphQuery.Proofs.Schema.Resolution

/-!
# Values are read back

A value that is accepted at a kind is coerced to it, and the literal in the statement is the coerced
value. Kinds and values nest independently of each other: a single value serves as a list of lists,
and the items of a list may be null or variables.

What the reader of literals makes of the text is therefore the coerced value, and two values have
the same text only if they are coerced to the same. Floats are left out: the reader knows neither
points nor exponents.

## Main definitions

* `Value.coerce`: a value, coerced to a kind.

## Main results

* `Schema.getD_of_literal?`: the literal of an accepted value is the coerced value.
* `Schema.readable_of_literal?`: without floats it can be read.
* `Schema.values_read_back`: the text of an accepted value is read as the coerced value.
-/

namespace GraphQuery

open Cypher Lexeme

/-- A value coerced to a kind: integers serve as floats and identifiers, enum symbols are strings,
and a single value serves as a list of one. Null and variables stay as they are at every kind. -/
def Value.coerce : Kind → Value → Literal
  | _, .null => .null
  | _, .var name => .parameter name
  | .list inner, .list items => .list (items.map (Value.coerce inner))
  | .list inner, value => .list [Value.coerce inner value]
  | .scalar .id, .int i => .string (toString i.toInt)
  | .scalar .float, .int i => .float (Decimal.floatOfInt i.toInt)
  | _, .int i => .int i
  | _, .float x => .float x
  | _, .string s => .string s
  | _, .boolean b => .boolean b
  | _, .enum symbol => .string symbol
  | _, .list _ => .null

theorem Value.coerce_single {v : Value} (inner : Kind) (hnull : v ≠ .null)
    (hvar : ∀ x, v ≠ .var x) (hlist : ∀ items, v ≠ .list items) :
    v.coerce (.list inner) = .list [v.coerce inner] := by
  cases v with
  | null => exact absurd rfl hnull
  | var x => exact absurd rfl (hvar x)
  | list items => exact absurd rfl (hlist items)
  | _ => simp [coerce]

namespace Schema

variable {schema : Schema} {kind : Kind} {v : Value}

/-! ### Literals are coerced values -/

theorem eq_coerce_of_scalarLiteral {scalar : Scalar} {l : Literal}
    (h : scalar.literal v = .ok l) : l = v.coerce (.scalar scalar) := by
  unfold Scalar.literal at h
  split at h <;> cases h <;> simp [Value.coerce]

/-- The literal of an accepted value is the coerced value. -/
theorem getD_of_literal? {l? : Option Literal} (h : schema.literal? kind v = .ok l?) :
    l?.getD .null = v.coerce kind := by
  refine literal_induction (motive := fun kind v l => l = v.coerce kind) ?_ ?_ ?_ ?_ ?_ ?_ h
  · exact fun kind => by rw [Value.coerce]
  · exact fun kind name => by rw [Value.coerce]
  · exact fun _ _ _ hl => eq_coerce_of_scalarLiteral hl
  · exact fun name symbol _ _ _ => by simp [Value.coerce]
  · intro inner items literals hall
    have hmap : literals.map id = items.map (Value.coerce inner) := map_eq_map_of_forall₂ hall
    rw [Value.coerce, ← hmap, List.map_id]
  · intro inner v l hnull hvar hlist hl
    rw [Value.coerce_single inner hnull hvar hlist, hl]

/-- Only null has no literal. -/
theorem literal?_eq_none_iff : schema.literal? kind v = .ok none ↔ v = .null := by
  rw [literal?_eq_ok_iff]
  constructor
  · intro h
    cases h
    rfl
  · rintro rfl
    exact .null

/-- A literal is null only inside a list. -/
theorem ne_null_of_literal? {l : Literal} (h : schema.literal? kind v = .ok (some l)) :
    l ≠ .null := by
  have hnull : l = .null → v = .null := by
    refine literal_induction (motive := fun _ v l => l = .null → v = .null) ?_ ?_ ?_ ?_ ?_ ?_ h
    · exact fun _ _ => rfl
    · exact fun _ _ hl => by cases hl
    · intro scalar v l hl
      rintro rfl
      unfold Scalar.literal at hl
      split at hl <;> cases hl
    · exact fun _ _ _ _ _ hl => by cases hl
    · exact fun _ _ _ _ hl => by cases hl
    · exact fun _ _ _ _ _ _ _ hl => by cases hl
  intro hl
  rw [literal?_eq_none_iff.2 (hnull hl)] at h
  cases h

/-! ### Literals can be read -/

theorem readable_of_scalarLiteral {scalar : Scalar} {l : Literal} (hscalar : scalar ≠ .float)
    (h : scalar.literal v = .ok l) : l.Readable := by
  unfold Scalar.literal at h
  split at h <;> cases h <;> first | contradiction | constructor

/-- Without floats the literal of an accepted value can be read. -/
theorem readable_of_literal? {l? : Option Literal} (hkind : ¬ Kind.Contains (.scalar .float) kind)
    (hv : ∀ x ∈ v.vars, IsName x) (h : schema.literal? kind v = .ok l?) :
    (l?.getD .null).Readable := by
  refine literal_induction (motive := fun kind v l => ¬ Kind.Contains (.scalar .float) kind →
    (∀ x ∈ v.vars, IsName x) → l.Readable) ?_ ?_ ?_ ?_ ?_ ?_ h hkind hv
  · exact fun _ _ _ => .null
  · exact fun _ name _ hv => .parameter (hv name (by simp [Value.vars]))
  · intro scalar v l hl hkind _
    apply readable_of_scalarLiteral _ hl
    rintro rfl
    exact hkind .self
  · exact fun _ symbol _ _ _ _ _ => .string symbol
  · intro inner items literals hall hkind hitems
    apply Literal.Readable.list
    intro l hl
    obtain ⟨item, hitem, hreadable⟩ := exists_left_of_mem hall hl
    apply hreadable (fun hinner => hkind (.list hinner))
    intro x hx
    apply hitems
    rw [Value.vars, Value.mem_varsOfAll]
    exact ⟨item, hitem, hx⟩
  · intro inner v l _ _ _ hreadable hkind hv
    apply Literal.Readable.list
    rw [List.forall_mem_singleton]
    exact hreadable (fun hinner => hkind (.list hinner)) hv

/-- The text of an accepted value is read as the coerced value, and no value but null has no text.
Two accepted values have the same text exactly if they are coerced to the same. -/
theorem values_read_back (schema : Schema) (hkind : ¬ Kind.Contains (.scalar .float) kind)
    (hv : ∀ x ∈ v.vars, IsName x) :
    (schema.literal? kind v = .ok none ↔ v = .null) ∧
      (∀ l, schema.literal? kind v = .ok (some l) → Literal.read? l.text = some (v.coerce kind)) ∧
      ∀ w l? m?, (∀ x ∈ w.vars, IsName x) → schema.literal? kind v = .ok l? →
        schema.literal? kind w = .ok m? →
        (l?.map Literal.text = m?.map Literal.text ↔ v.coerce kind = w.coerce kind) := by
  refine ⟨literal?_eq_none_iff, ?_, ?_⟩
  · intro l hl
    have hreadable : l.Readable := readable_of_literal? hkind hv hl
    rw [hreadable.read?_text, ← getD_of_literal? hl, Option.getD_some]
  · intro w l? m? hw hl hm
    rw [← getD_of_literal? hl, ← getD_of_literal? hm]
    cases l? with
    | none =>
      cases m? with
      | none => simp
      | some m => simp [(ne_null_of_literal? hm).symm]
    | some l =>
      cases m? with
      | none => simp [ne_null_of_literal? hl]
      | some m =>
        rw [Option.map_some, Option.map_some, Option.some.injEq, Option.getD_some, Option.getD_some]
        exact (readable_of_literal? hkind hv hl).text_inj (readable_of_literal? hkind hw hm)

/-- Single values among lists, null, variables, and a string that looks like the end of a list. -/
def tangledIds : Value :=
  .list [.null, .var "ids", .int (-7), .list [.string "a\\', ['", .null, .var "x"], .list []]

/-- The text of these values at lists of lists of identifiers. -/
def tangledText : String := "[null, $ids, ['-7'], ['a\\\\\\', [\\'', null, $x], []]"

theorem values_read_back_tangled :
    ¬ Kind.Contains (.scalar .float) (.list (.list (.scalar .id))) ∧
      (∀ x ∈ tangledIds.vars, IsName x) ∧
      ((default : Schema).literal? (.list (.list (.scalar .id))) tangledIds).toOption.map
        (Option.map Literal.text) = some (some tangledText) ∧
      Literal.read? tangledText = some (tangledIds.coerce (.list (.list (.scalar .id)))) := by
  have hkind : ¬ Kind.Contains (.scalar .float) (.list (.list (.scalar .id))) := by
    intro h
    cases h with
    | list h =>
      cases h with
      | list h => cases h
  have hnames : ∀ x ∈ tangledIds.vars, IsName x := by
    have hvars : tangledIds.vars = ["ids", "x"] := rfl
    rw [hvars, List.forall_mem_cons, List.forall_mem_singleton]
    exact ⟨isName_of_toList rfl rfl rfl, isName_of_toList rfl rfl rfl⟩
  have hsome : ((default : Schema).literal? (.list (.list (.scalar .id))) tangledIds).toOption.map
      (Option.map Literal.text) = some (some tangledText) := by decide +kernel
  obtain ⟨l?, hl, hl?⟩ := Option.map_eq_some_iff.1 hsome
  obtain ⟨l, rfl, htext⟩ := Option.map_eq_some_iff.1 hl?
  have hread := (values_read_back default hkind hnames).2.1 l (toOption_eq_some_iff.1 hl)
  rw [htext] at hread
  exact ⟨hkind, hnames, hsome, hread⟩

end Schema

end GraphQuery
