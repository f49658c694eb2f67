import GraphQuery.Proofs.Compilation.Candidates
import GraphQuery.Proofs.Compilation.Capture
import GraphQuery.Proofs.Cypher.Skeleton
import GraphQuery.Proofs.Schema.Resolution

/-!
# Statements have plain names

The names in a statement come from the schema and from the selection, or are made from such names
and digits. A schema that loads has plain names, those of relations apart, which are given as
strings.

## Main definitions

* `Schema.Plain`: types, fields and arguments have plain names.
* `Schema.RelationsPlain`: so have the relations.

## Main results

* `Schema.plain_of_load`: a schema that loads has plain names.
* `Scope.isPlain_fresh`: a new variable has a plain name.
* `Compilation.plain_of_statement`: the statement of a plain selection is plain.
-/

namespace GraphQuery

open Cypher

/-! ### Schemas -/

/-- A field and its arguments have plain names, and so have the variables in the defaults. -/
structure Field.Plain (f : Field) : Prop where
  name : IsPlain f.name
  arguments : ∀ a ∈ f.arguments, IsPlain a.name ∧ ∀ v ∈ a.default?, v.Plain

/-- A type and its fields have plain names. -/
structure ObjectType.Plain (t : ObjectType) : Prop where
  name : IsPlain t.name
  fields : ∀ f ∈ t.fields, f.Plain

namespace Schema

/-- The types of a schema have plain names. -/
structure Plain (schema : Schema) : Prop where
  root : schema.root.Plain
  types : ∀ t ∈ schema.types, t.Plain

/-- The relations of a schema have plain names. -/
def RelationsPlain (schema : Schema) : Prop :=
  ∀ t ∈ schema.types, ∀ f ∈ t.fields, ∀ r ∈ f.relation?, IsPlain r.type

instance (schema : Schema) : Decidable schema.RelationsPlain :=
  decidable_of_iff ((schema.types.all fun t => t.fields.all fun f =>
    f.relation?.all fun r => decide (IsPlain r.type)) = true)
    (by simp [RelationsPlain, Option.all_eq_true])

end Schema

namespace Declarations

variable {d : Declarations}

theorem FieldOk.plain {isRoot : Bool} {type : String} {definition : FieldDefinition} {f : Field}
    (h : FieldOk d isRoot type definition f) (hdefinition : definition.Plain) : f.Plain where
  name := h.name_eq ▸ hdefinition.name
  arguments := by
    intro a ha
    obtain ⟨hall, -, -⟩ := arguments_eq_ok h.arguments_eq
    obtain ⟨b, hb, hname, hdefault, -, -⟩ := exists_left_of_mem hall ha
    have hplain := hdefinition.arguments b hb
    exact ⟨hname ▸ hplain.name, hdefault ▸ hplain.default⟩

theorem ObjectOk.plain {definition : ObjectDefinition} {type : ObjectType}
    (h : ObjectOk d definition type) (hdefinition : definition.Plain) : type.Plain where
  name := h.name_eq ▸ hdefinition.name
  fields := by
    intro f hf
    obtain ⟨b, hb, hfield⟩ := exists_left_of_mem h.fields_ok hf
    exact hfield.plain (hdefinition.fields b hb)

end Declarations

namespace Schema

/-- A schema that loads has plain names. -/
theorem plain_of_load {text : String} {schema : Schema} (h : (load text).result = .ok schema) :
    schema.Plain := by
  obtain ⟨definitions, hparse, hresolve, -⟩ := load_eq_ok h
  obtain ⟨d, types, hassembled⟩ := resolve_eq_ok_iff.1 hresolve
  have hfrom := hassembled.resolvedFrom
  have hplain : ∀ o ∈ d.objects, o.Plain := fun o ho =>
    Definition.plain_of_parseAll hparse (.object o) (hassembled.mem_objects_iff.1 ho)
  constructor
  · obtain ⟨definition, hmem, hok⟩ := hfrom.exists_root
    exact hok.plain (hplain definition hmem)
  · intro t ht
    obtain ⟨-, definition, hmem, hok⟩ := hfrom.exists_definition t ht
    exact hok.plain (hplain definition hmem)

/-! ### Literals -/

variable {schema : Schema}

theorem plain_of_scalarLiteral {scalar : Scalar} {v : Value} {l : Literal}
    (h : scalar.literal v = .ok l) : l.Plain := by
  unfold Scalar.literal at h
  split at h <;> cases h <;> trivial

/-- The parameters in a literal are the variables in the value. -/
theorem plain_of_literal? {kind : Kind} {v : Value} {l? : Option Literal} (hv : v.Plain)
    (h : schema.literal? kind v = .ok l?) : (l?.getD .null).Plain := by
  refine literal_induction (motive := fun _ v l => v.Plain → l.Plain) ?_ ?_ ?_ ?_ ?_ ?_ h hv
  · exact fun _ _ => trivial
  · exact fun _ name hname => hname name (by simp [Value.vars])
  · exact fun _ _ _ hl _ => plain_of_scalarLiteral hl
  · exact fun _ _ _ _ _ _ => trivial
  · intro inner items literals hall hitems
    refine Literal.allPlain_iff.2 fun l hl => ?_
    obtain ⟨item, hitem, hplain⟩ := exists_left_of_mem hall hl
    exact hplain (Value.plain_list_iff.1 hitems item hitem)
  · exact fun _ _ _ _ _ _ hplain hv => ⟨hplain hv, trivial⟩

end Schema

/-! ### Filters and pages -/

section Arguments

variable {schema : Schema} {settings : Settings} {field : Field} {target : ObjectType}
  {s : Selection}

theorem Filter.plain_of_equality? {c : Candidate} {e : Equality} (hname : IsPlain c.name)
    (hvalue : ∀ v ∈ c.value? s, v.Plain) (h : equality? schema field s c = .ok (some e)) :
    e.Plain := by
  unfold equality? at h
  split at h
  · cases h
  · next v hv =>
    obtain ⟨l?, hl, hsome⟩ := map_eq_ok_iff.1 h
    obtain ⟨l, rfl, rfl⟩ := Option.map_eq_some_iff.1 hsome
    exact ⟨hname, Schema.plain_of_literal? (hvalue v hv) (mapError_eq_ok_iff.1 hl)⟩

theorem Filter.plain_of_ofSelection {bound : String} {filters : List Equality}
    (hnodup : (target.fields.map (·.name)).Nodup) (hfield : field.Plain) (htarget : target.Plain)
    (hs : s.Plain) (h : (ofSelection schema settings bound field target s).result = .ok filters) :
    ∀ e ∈ filters, e.Plain := by
  obtain ⟨-, found, hall, rfl⟩ := ofSelection_eq_ok_iff.1 h
  intro e he
  obtain ⟨c, hc, heq⟩ := exists_left_of_mem hall (List.reduceOption_mem_iff.1 he)
  rcases (Candidate.mem_all_iff hnodup).1 hc with
    ⟨a, ha, -, rfl⟩ | ⟨-, p, hp, -, -, -, rfl⟩
  · obtain ⟨hname, hdefault⟩ := hfield.arguments a ha
    exact plain_of_equality? hname (hs.argument?_or hdefault) heq
  · have hdefault : ∀ v ∈ (Candidate.ofProperty p).default?, v.Plain := by
      intro v hv
      cases hv
    exact plain_of_equality? (htarget.fields p hp).name (hs.argument?_or hdefault) heq

theorem Paging.plain_of_bound? {name : String} {b : Bound} (hfield : field.Plain) (hs : s.Plain)
    (h : bound? name field s = .ok (some b)) : b.Plain := by
  have hdefault : ∀ v ∈ (field.argument? name).bind (·.default?), v.Plain := by
    intro v hv
    obtain ⟨a, ha, hv⟩ := Option.bind_eq_some_iff.1 hv
    exact (hfield.arguments a (List.mem_of_find?_eq_some ha)).2 v hv
  have hvalue : ∀ v ∈ value? name field s, v.Plain := hs.argument?_or hdefault
  have hbound := bound?_eq_ok_iff.1 h
  generalize value? name field s = v? at hvalue hbound
  cases hbound with
  | var x => exact hvalue _ rfl x (by simp [Value.vars])
  | int => trivial

theorem Paging.plain_of_ofSelection {page : Page} (hfield : field.Plain) (hs : s.Plain)
    (h : ofSelection settings field s = .ok page) : page.Plain := by
  obtain ⟨hfirst, hoffset⟩ := ofSelection_eq_ok_iff.1 h
  constructor
  · intro b hb
    exact plain_of_bound? hfield hs (by rw [hfirst, hb])
  · intro b hb
    exact plain_of_bound? hfield hs (by rw [hoffset, hb])

end Arguments

/-! ### Entries and statements -/

/-- A new variable has a plain name. -/
theorem Scope.isPlain_fresh {base : String} (s : Scope) (h : IsPlain base) :
    IsPlain (s.fresh base) := by
  by_cases hmem : base ∈ s.bound
  · -- The number behind the name is written in digits.
    obtain ⟨k, -, heq⟩ := fresh_of_mem hmem
    rw [heq]
    refine h.append fun c hc => ?_
    have hdigit : c ∈ Nat.toDigits 10 k := by simpa using hc
    have hc := Nat.isDigit_of_mem_toDigits (by decide) (by decide) hdigit
    simp [Lexeme.isNameChar, Char.isAlphanum, hc]
  · rwa [fresh_of_notMem hmem]

namespace Compilation

variable {schema : Schema} {settings : Settings} {scope : Scope}

theorem plain_of_entry (hschema : schema.Plain) (hwell : schema.WellFormed)
    (hrelations : schema.RelationsPlain) {s : Selection} (hs : s.Plain) {e : Entry}
    (hentity : scope.entity ∈ schema.types) (hvariable : IsPlain scope.variableName)
    (h : (entry schema settings scope s).result = .ok e) : e.Plain := by
  induction s using Selection.inductionOn generalizing scope e with
  | step s ih =>
    cases entry_eq_ok_iff.1 h with
    | property => exact hs.key
    | @related field relation name target inner filters page map hfield hrelation _ hname htarget
        hinner hfilters hpage hmap =>
      -- Names come from the scope, the type at hand, the type that is led to and the selection.
      have hmem : field ∈ scope.entity.fields := List.mem_of_find?_eq_some hfield
      obtain ⟨htype, -⟩ := Schema.mem_of_type? htarget
      have hfieldPlain := (hschema.types scope.entity hentity).fields field hmem
      have htargetPlain := hschema.types target htype
      have hfresh := scope.isPlain_fresh (hs.key.append htargetPlain.name)
      have hrelationPlain := hrelations scope.entity hentity field hmem relation hrelation
      have hfiltersPlain := Filter.plain_of_ofSelection (hwell.nodup_fields target htype)
        hfieldPlain htargetPlain hs hfilters
      have hpagePlain := Paging.plain_of_ofSelection hfieldPlain hs hpage
      refine ⟨hs.key, ⟨hvariable, hrelationPlain, hfresh, htargetPlain.name⟩, hfiltersPlain, ?_, ?_⟩
      · obtain ⟨-, rfl⟩ := Scope.enter_eq_ok_iff.1 hinner
        refine Entry.allPlain_iff.2 fun e he => ?_
        obtain ⟨t, ht, hte⟩ := exists_left_of_mem hmap he
        exact ih t ht (hs.selections t ht) htype hfresh hte
      · unfold kept
        split
        · exact hpagePlain
        · trivial

/-- The statement of a plain selection is plain. -/
theorem plain_of_statement (hschema : schema.Plain) (hwell : schema.WellFormed)
    (hrelations : schema.RelationsPlain) {s : Selection} (hs : s.Plain) {stmt : Statement}
    (h : (statement schema settings s).result = .ok stmt) : stmt.Plain := by
  obtain @⟨field, name, target, filters, page, map, hfield, hname, htarget, hbelow, hfilters, hpage,
    hmap⟩ := statement_eq_ok_iff.1 h
  obtain ⟨htype, -⟩ := Schema.mem_of_type? htarget
  have hfieldPlain := hschema.root.fields field (List.mem_of_find?_eq_some hfield)
  have htargetPlain := hschema.types target htype
  have hfiltersPlain := Filter.plain_of_ofSelection (hwell.nodup_fields target htype)
    hfieldPlain htargetPlain hs hfilters
  refine ⟨hs.key, htargetPlain.name, hfiltersPlain, fun e he => ?_,
    Paging.plain_of_ofSelection hfieldPlain hs hpage⟩
  obtain ⟨t, ht, hte⟩ := exists_left_of_mem hmap he
  exact plain_of_entry hschema hwell hrelations (hs.selections t ht) htype hs.key hte

end Compilation

end GraphQuery
