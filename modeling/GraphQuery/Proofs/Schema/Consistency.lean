import GraphQuery.Proofs.Language.Constant
import GraphQuery.Proofs.Schema.Resolution

/-!
# A schema that loads is consistent

Loading checks a schema in several passes: names are taken while definitions are collected, types
are looked up and relations are checked while objects are resolved, and defaults are tried at the
end. This file puts together what the passes guarantee about the whole schema.

Names are counted once, while definitions are collected: every name that is taken belongs to one
object, enum or scalar. Resolution and sorting only rearrange objects and enums, so their names
still differ in the schema.

## Main definitions

* `Declarations.Distinct`: the names that are taken are those of the types, each once.
* `Schema.Consistent`: what holds of every schema that loads.

## Main results

* `Declarations.Distinct.add`, `Declarations.Distinct.collect`: collecting definitions keeps names
  apart.
* `Schema.AssembledFrom.perm_names`: the names of a schema are those of its definitions.
* `Schema.consistent_of_load`: a schema that loads is consistent.
-/

namespace GraphQuery

/-! ### Lists of named things -/

section Named

variable {α : Type} {name : α → String}

theorem perm_insertByName (item : α) (items : List α) :
    (insertByName name item items).Perm (item :: items) := by
  induction items with
  | nil => exact .refl _
  | cons other rest ih =>
    rw [insertByName]
    split
    · exact .refl _
    · exact (ih.cons other).trans (.swap item other rest)

theorem perm_sortByName (items : List α) : (sortByName name items).Perm items := by
  induction items with
  | nil => exact .refl _
  | cons item items ih => exact (perm_insertByName item _).trans (ih.cons item)

/-- Where names differ, a thing is found under its own name. -/
theorem find?_of_nodup {items : List α} (hnodup : (items.map name).Nodup) {a : α}
    (ha : a ∈ items) : items.find? (name · == name a) = some a := by
  induction items with
  | nil => cases ha
  | cons b items ih =>
    rw [List.map_cons, List.nodup_cons] at hnodup
    rcases List.mem_cons.1 ha with rfl | ha
    · simp
    · have hne : name b ≠ name a := fun heq => hnodup.1 (heq ▸ List.mem_map_of_mem ha)
      rw [List.find?_cons_of_neg (by simpa using hne)]
      exact ih hnodup.2 ha

/-- Where names differ, the thing that is found under a name and those of other names are all. -/
theorem perm_cons_filter {items : List α} (hnodup : (items.map name).Nodup) {wanted : String}
    {a : α} (hfind : items.find? (name · == wanted) = some a) :
    (a :: items.filter (name · != wanted)).Perm items := by
  induction items with
  | nil => cases hfind
  | cons b items ih =>
    rw [List.map_cons, List.nodup_cons] at hnodup
    by_cases hb : name b = wanted
    · -- The first one is found, and no other has its name.
      rw [List.find?_cons_of_pos (by simpa using hb)] at hfind
      cases hfind
      have hothers : ∀ c ∈ items, (name c != wanted) = true := by
        intro c hc
        have hne : name c ≠ wanted := fun heq =>
          hnodup.1 (hb.trans heq.symm ▸ List.mem_map_of_mem hc)
        simpa using hne
      rw [List.filter_cons_of_neg (by simpa using hb), List.filter_eq_self.2 hothers]
    · rw [List.find?_cons_of_neg (by simpa using hb)] at hfind
      rw [List.filter_cons_of_pos (by simpa using hb)]
      exact (List.Perm.swap _ _ _).trans ((ih hnodup.2 hfind).cons b)

end Named

theorem nodup_of_firstRepeated? {seen values : List String}
    (h : firstRepeated? seen values = none) : values.Nodup ∧ ∀ v ∈ values, v ∉ seen := by
  induction values generalizing seen with
  | nil => exact ⟨.nil, fun v hv => by cases hv⟩
  | cons value rest ih =>
    rw [firstRepeated?] at h
    split_ifs at h with hseen
    obtain ⟨hnodup, hnew⟩ := ih h
    exact Declarations.distinct_cons (by simpa using hseen) hnodup hnew

/-! ### Collecting definitions -/

namespace Declarations

variable {d d' : Declarations}

/-- The names that are taken are those of the types that are declared, each once. None is built in,
and no enum has a value twice. -/
structure Distinct (d : Declarations) : Prop where
  perm : d.names.Perm (d.objects.map (·.name) ++ d.enums.map (·.name) ++ d.scalars)
  nodup : d.names.Nodup
  builtin : ∀ name ∈ d.names, Scalar.builtin? name = none
  values : ∀ e ∈ d.enums, e.values.Nodup

theorem Distinct.empty : ({} : Declarations).Distinct where
  perm := .refl _
  nodup := .nil
  builtin := fun name hname => by cases hname
  values := fun e he => by cases he

theorem nodup_append_singleton {names : List String} {name : String} (h : names.Nodup)
    (hnew : name ∉ names) : (names ++ [name]).Nodup := by
  refine List.nodup_append.2 ⟨h, List.nodup_singleton _, ?_⟩
  rintro a ha b hb rfl
  exact hnew (List.mem_singleton.1 hb ▸ ha)

theorem perm_append_singleton (front back : List String) (name : String) :
    (front ++ back ++ [name]).Perm (front ++ [name] ++ back) := by
  rw [List.append_assoc, List.append_assoc]
  exact List.perm_append_comm.append_left front

theorem forall_mem_append_singleton {names : List String} {name : String} {P : String → Prop}
    (h : ∀ n ∈ names, P n) (hname : P name) : ∀ n ∈ names ++ [name], P n := by
  intro n hn
  rcases List.mem_append.1 hn with hn | hn
  · exact h n hn
  · exact List.mem_singleton.1 hn ▸ hname

/-- One more definition keeps names apart. -/
theorem Distinct.add (h : d.Distinct) {definition : Definition}
    (hadd : (d.add definition).result = .ok d') : d'.Distinct := by
  cases add_eq_ok hadd with
  | @object o hbuiltin hnew =>
    refine ⟨?_, nodup_append_singleton h.nodup hnew, forall_mem_append_singleton h.builtin hbuiltin,
      h.values⟩
    rw [List.map_append, List.map_singleton, List.append_assoc]
    refine (h.perm.append_right _).trans ?_
    rw [List.append_assoc (d.objects.map _)]
    exact perm_append_singleton _ _ _
  | @enum e hbuiltin hnew hvalues =>
    refine ⟨?_, nodup_append_singleton h.nodup hnew, forall_mem_append_singleton h.builtin hbuiltin,
      ?_⟩
    · rw [List.map_append, List.map_singleton, ← List.append_assoc]
      exact (h.perm.append_right _).trans (perm_append_singleton _ _ _)
    · intro other hother
      rcases List.mem_append.1 hother with hother | hother
      · exact h.values other hother
      · rw [List.mem_singleton.1 hother]
        exact (nodup_of_firstRepeated? hvalues).1
  | @scalar name hbuiltin hnew =>
    refine ⟨?_, nodup_append_singleton h.nodup hnew, forall_mem_append_singleton h.builtin hbuiltin,
      h.values⟩
    rw [← List.append_assoc]
    exact h.perm.append_right _
  | schema => exact ⟨h.perm, h.nodup, h.builtin, h.values⟩

/-- Collecting definitions keeps names apart. -/
theorem Distinct.collect (h : d.Distinct) {definitions : List Definition}
    (hcollect : (d.collect definitions).result = .ok d') : d'.Distinct := by
  induction definitions generalizing d with
  | nil =>
    cases hcollect
    exact h
  | cons definition rest ih =>
    rw [Declarations.collect, Logged.result_bind, bind_eq_ok_iff] at hcollect
    obtain ⟨d₁, hadd, hrest⟩ := hcollect
    exact ih (h.add hadd) hrest

/-- Objects and enums have different names. -/
theorem Distinct.nodup_objects_enums (h : d.Distinct) :
    (d.objects.map (·.name) ++ d.enums.map (·.name)).Nodup :=
  (List.nodup_append.1 (h.perm.nodup_iff.1 h.nodup)).1

theorem Distinct.builtin_of_mem (h : d.Distinct) {name : String}
    (hname : name ∈ d.objects.map (·.name) ++ d.enums.map (·.name)) :
    Scalar.builtin? name = none :=
  h.builtin name (h.perm.mem_iff.2 (List.mem_append_left _ hname))

/-! ### Relations and defaults of fields -/

/-- The type of a relation is not empty. -/
theorem type_ne_of_relation {directive : Directive} {r : Relation}
    (h : relation directive = .ok r) : r.type ≠ "" := by
  simp only [relation, Bind.bind, Except.bind, pure, Except.pure] at h
  split at h
  · cases h
  · split at h
    · split_ifs at h with hempty
      -- The direction does not change the type.
      split at h
      · cases h
        simpa using hempty
      · split at h
        · cases h
          simpa using hempty
        · cases h
    · cases h

theorem type_ne_of_relation? {type field : String} {found r? : Option Relation}
    {directives : List Directive} (hfound : ∀ r ∈ found, r.type ≠ "")
    (h : relation? type field found directives = .ok r?) : ∀ r ∈ r?, r.type ≠ "" := by
  induction directives generalizing found with
  | nil =>
    cases h
    exact hfound
  | cons directive rest ih =>
    rw [relation?] at h
    split_ifs at h
    obtain ⟨r, hr, hrest⟩ := bind_eq_ok_iff.1 h
    refine ih ?_ hrest
    rintro r' hr'
    cases hr'
    exact type_ne_of_relation (mapError_eq_ok_iff.1 hr)

/-- The defaults of a field satisfy what the defaults of its definition satisfy. -/
theorem FieldOk.defaults {V : Value → Prop} {isRoot : Bool} {type : String}
    {definition : FieldDefinition} {f : Field} (h : FieldOk d isRoot type definition f)
    (hdefinition : definition.DefaultsAre V) : ∀ a ∈ f.arguments, ∀ v ∈ a.default?, V v := by
  intro a ha
  obtain ⟨hall, -, -⟩ := arguments_eq_ok h.arguments_eq
  obtain ⟨b, hb, -, hdefault, -, -⟩ := exists_left_of_mem hall ha
  exact hdefault ▸ hdefinition b hb

end Declarations

/-! ### Schemas -/

namespace Schema

open Declarations

variable {schema : Schema} {d : Declarations} {definitions : List Definition}
  {types : List ObjectType}

namespace AssembledFrom

theorem distinct (h : schema.AssembledFrom definitions d types) : d.Distinct :=
  Distinct.empty.collect h.collected

theorem map_name_types (h : schema.AssembledFrom definitions d types) :
    types.map (·.name) = d.objects.map (·.name) :=
  map_eq_map_of_forall₂ (h.objects_ok.imp fun _ _ hobject => hobject.name_eq)

/-- The root and the other types are the types that objects were resolved to. -/
theorem perm_types (h : schema.AssembledFrom definitions d types) :
    (schema.root :: schema.types).Perm types := by
  have hnodup : (types.map (·.name)).Nodup := by
    rw [h.map_name_types]
    exact (List.nodup_append.1 h.distinct.nodup_objects_enums).1
  rw [h.types_eq]
  exact ((perm_sortByName _).cons _).trans (perm_cons_filter hnodup h.root_eq)

/-- The names of a schema are those of the objects and enums that were declared. -/
theorem perm_names (h : schema.AssembledFrom definitions d types) :
    ((schema.root :: schema.types).map (·.name) ++ schema.enums.map (·.name)).Perm
      (d.objects.map (·.name) ++ d.enums.map (·.name)) := by
  rw [← h.map_name_types, h.enums_eq]
  exact (h.perm_types.map _).append ((perm_sortByName _).map _)

/-- A field of a type of the schema comes from a definition, which has passed its checks. -/
theorem exists_fieldOk (h : schema.AssembledFrom definitions d types) {t : ObjectType}
    (ht : t ∈ schema.root :: schema.types) {f : Field} (hf : f ∈ t.fields) :
    ∃ o, .object o ∈ definitions ∧
      ∃ fd ∈ o.fields, FieldOk d (t.name == d.root) t.name fd f := by
  obtain ⟨o, ho, hobject⟩ := exists_left_of_mem h.objects_ok (h.perm_types.mem_iff.1 ht)
  obtain ⟨fd, hfd, hfield⟩ := exists_left_of_mem hobject.fields_ok hf
  rw [hobject.name_eq]
  exact ⟨o, h.mem_objects_iff.1 ho, fd, hfd, hfield⟩

theorem nodup_fields (h : schema.AssembledFrom definitions d types) {t : ObjectType}
    (ht : t ∈ schema.root :: schema.types) : (t.fields.map (·.name)).Nodup := by
  obtain ⟨o, -, hobject⟩ := exists_left_of_mem h.objects_ok (h.perm_types.mem_iff.1 ht)
  rw [hobject.map_name_fields]
  exact hobject.nodup

end AssembledFrom

theorem forM_eq_ok_iff {ε α : Type} {f : α → Except ε Unit} {as : List α} :
    as.forM f = .ok () ↔ ∀ a ∈ as, f a = .ok () := by
  induction as with
  | nil => simp [pure, Except.pure]
  | cons a as ih =>
    rw [List.forall_mem_cons, ← ih]
    change Except.bind (f a) (fun _ => as.forM f) = _ ↔ _
    rw [bind_eq_ok_iff]
    exact ⟨fun ⟨_, ha, has⟩ => ⟨ha, has⟩, fun ⟨ha, has⟩ => ⟨(), ha, has⟩⟩

/-- Where defaults pass their check, each has a literal at the kind of its argument, or is null. -/
theorem exists_literal?_of_checkDefaults (h : schema.checkDefaults = .ok ()) {t : ObjectType}
    (ht : t ∈ schema.root :: schema.types) {f : Field} (hf : f ∈ t.fields)
    {a : ArgumentDeclaration} (ha : a ∈ f.arguments) :
    ∀ v ∈ a.default?, ∃ l?, schema.literal? a.kind v = .ok l? := by
  intro v hv
  rw [checkDefaults, forM_eq_ok_iff] at h
  have hchecked := forM_eq_ok_iff.1 (forM_eq_ok_iff.1 (h t ht) f hf) a ha
  rw [checkDefault, Option.mem_def.1 hv] at hchecked
  cases hliteral : schema.literal? a.kind v with
  | ok l? => exact ⟨l?, rfl⟩
  | error e => simp [hliteral] at hchecked

/-- What holds of every schema that loads. Here the types are the entity types; the root type is
apart from them. -/
structure Consistent (schema : Schema) : Prop where
  /-- Entities in the kinds of fields are types, and never the root. -/
  entity_known : ∀ t ∈ schema.root :: schema.types, ∀ f ∈ t.fields, ∀ name,
    Kind.Contains (.entity name) f.kind →
      name ∈ schema.types.map (·.name) ∧ name ≠ schema.root.name
  /-- Enums in the kinds of fields and arguments are enums of the schema. -/
  enum_known : ∀ t ∈ schema.root :: schema.types, ∀ f ∈ t.fields,
    ∀ kind ∈ f.kind :: f.arguments.map (·.kind), ∀ name, Kind.Contains (.enum name) kind →
      name ∈ schema.enums.map (·.name)
  /-- Types and enums are found under their own names. -/
  type_found : ∀ t ∈ schema.types, schema.type? t.name = some t
  enum_found : ∀ e ∈ schema.enums, schema.enum? e.name = some e
  /-- The names of objects and enums differ, and none is that of a built-in scalar. -/
  nodup_names : ((schema.root :: schema.types).map (·.name) ++ schema.enums.map (·.name)).Nodup
  builtin_names : ∀ name ∈ (schema.root :: schema.types).map (·.name) ++ schema.enums.map (·.name),
    Scalar.builtin? name = none
  /-- Root fields lead to entities and follow no relation. -/
  root_field : ∀ f ∈ schema.root.fields, f.kind.IsObjectValued ∧ f.relation? = none
  /-- Other fields follow a relation exactly if they lead to entities, and it has a type. -/
  relation_iff : ∀ t ∈ schema.types, ∀ f ∈ t.fields,
    f.relation?.isSome = true ↔ f.kind.IsObjectValued
  relation_type : ∀ t ∈ schema.types, ∀ f ∈ t.fields, ∀ r ∈ f.relation?, r.type ≠ ""
  /-- Fields of a type, arguments of a field and values of an enum differ. -/
  nodup_fields : ∀ t ∈ schema.root :: schema.types, (t.fields.map (·.name)).Nodup
  nodup_arguments : ∀ t ∈ schema.root :: schema.types, ∀ f ∈ t.fields,
    (f.arguments.map (·.name)).Nodup
  nodup_values : ∀ e ∈ schema.enums, e.values.Nodup
  /-- Arguments have no entities in their kinds; a default has no variable in it and is accepted at
  the kind of its argument. -/
  argument_leaf : ∀ t ∈ schema.root :: schema.types, ∀ f ∈ t.fields, ∀ a ∈ f.arguments,
    ¬ a.kind.IsObjectValued
  default_constant : ∀ t ∈ schema.root :: schema.types, ∀ f ∈ t.fields, ∀ a ∈ f.arguments,
    ∀ v ∈ a.default?, v.IsConstant
  default_accepted : ∀ t ∈ schema.root :: schema.types, ∀ f ∈ t.fields, ∀ a ∈ f.arguments,
    ∀ v ∈ a.default?, ∃ l?, schema.literal? a.kind v = .ok l?

namespace AssembledFrom

variable {t : ObjectType} {f : Field}

theorem nodup_names (h : schema.AssembledFrom definitions d types) :
    ((schema.root :: schema.types).map (·.name) ++ schema.enums.map (·.name)).Nodup :=
  h.perm_names.nodup_iff.2 h.distinct.nodup_objects_enums

theorem entity_known (h : schema.AssembledFrom definitions d types)
    (ht : t ∈ schema.root :: schema.types) (hf : f ∈ t.fields) {name : String}
    (hname : Kind.Contains (.entity name) f.kind) :
    name ∈ schema.types.map (·.name) ∧ name ≠ schema.root.name := by
  obtain ⟨-, -, fd, -, hfield⟩ := h.exists_fieldOk ht hf
  rw [Kind.contains_entity_iff] at hname
  have hne : name ≠ schema.root.name := by
    rintro rfl
    rw [h.root_name] at hname
    exact (checkRelation_eq_ok_iff.1 hfield.relation_ok).2 hname
  -- Every object that is declared is the root or becomes a type.
  obtain ⟨object, hobject, rfl⟩ := exists_object_of_kind hfield.kind_eq hname
  have hmem : object.name ∈ (schema.root :: schema.types).map (·.name) := by
    rw [(h.perm_types.map _).mem_iff, h.map_name_types]
    exact List.mem_map_of_mem hobject
  exact ⟨(List.mem_cons.1 hmem).resolve_left hne, hne⟩

theorem enum_known (h : schema.AssembledFrom definitions d types)
    (ht : t ∈ schema.root :: schema.types) (hf : f ∈ t.fields) {kind : Kind}
    (hkind : kind ∈ f.kind :: f.arguments.map (·.kind)) {name : String}
    (hname : Kind.Contains (.enum name) kind) : name ∈ schema.enums.map (·.name) := by
  obtain ⟨-, -, fd, -, hfield⟩ := h.exists_fieldOk ht hf
  have hresolved : ∃ ref, d.kind (t.name ++ "." ++ fd.name) ref = .ok kind := by
    rcases List.mem_cons.1 hkind with rfl | hkind
    · exact ⟨fd.type, hfield.kind_eq⟩
    · obtain ⟨a, ha, rfl⟩ := List.mem_map.1 hkind
      obtain ⟨hall, -, -⟩ := arguments_eq_ok hfield.arguments_eq
      obtain ⟨b, -, -, -, -, hb⟩ := exists_left_of_mem hall ha
      exact ⟨b.type, hb⟩
  obtain ⟨ref, href⟩ := hresolved
  obtain ⟨e, he, rfl⟩ := exists_enum_of_kind href hname
  rw [h.enums_eq]
  exact List.mem_map_of_mem (mem_sortByName.2 he)

/-- The check that a relation passes, by whether the type is the root. -/
theorem relation_ok (h : schema.AssembledFrom definitions d types)
    (ht : t ∈ schema.root :: schema.types) (hf : f ∈ t.fields) :
    if t.name = schema.root.name then f.kind.IsObjectValued ∧ f.relation? = none
    else (f.relation?.isSome = true ↔ f.kind.IsObjectValued) := by
  obtain ⟨-, -, fd, -, hfield⟩ := h.exists_fieldOk ht hf
  have hcheck := (checkRelation_eq_ok_iff.1 hfield.relation_ok).1
  simp only [beq_iff_eq, ← h.root_name] at hcheck
  simp only [Kind.isObjectValued_iff]
  split_ifs at hcheck ⊢
  · exact hcheck
  · rw [hcheck]

theorem name_ne_root (h : schema.AssembledFrom definitions d types) (ht : t ∈ schema.types) :
    t.name ≠ schema.root.name := by
  rw [h.root_name]
  exact (h.mem_types_iff.1 ht).2

theorem relation_type (h : schema.AssembledFrom definitions d types)
    (ht : t ∈ schema.root :: schema.types) (hf : f ∈ t.fields) :
    ∀ r ∈ f.relation?, r.type ≠ "" := by
  obtain ⟨-, -, fd, -, hfield⟩ := h.exists_fieldOk ht hf
  exact type_ne_of_relation? (fun r hr => by cases hr) hfield.relation_eq

theorem nodup_arguments (h : schema.AssembledFrom definitions d types)
    (ht : t ∈ schema.root :: schema.types) (hf : f ∈ t.fields) :
    (f.arguments.map (·.name)).Nodup := by
  obtain ⟨-, -, fd, -, hfield⟩ := h.exists_fieldOk ht hf
  obtain ⟨hall, hnodup, -⟩ := arguments_eq_ok hfield.arguments_eq
  rw [map_eq_map_of_forall₂ (hall.imp fun _ _ ha => ha.1)]
  exact hnodup

theorem argument_leaf (h : schema.AssembledFrom definitions d types)
    (ht : t ∈ schema.root :: schema.types) (hf : f ∈ t.fields) {a : ArgumentDeclaration}
    (ha : a ∈ f.arguments) : ¬ a.kind.IsObjectValued := by
  obtain ⟨-, -, fd, -, hfield⟩ := h.exists_fieldOk ht hf
  obtain ⟨hall, -, -⟩ := arguments_eq_ok hfield.arguments_eq
  obtain ⟨b, -, -, -, hleaf, -⟩ := exists_left_of_mem hall ha
  rw [Kind.isObjectValued_iff, Bool.not_eq_true, Option.isSome_eq_false_iff]
  exact hleaf

/-- A default satisfies whatever the defaults of the definitions satisfy. -/
theorem default_of_definitions {V : Value → Prop} (h : schema.AssembledFrom definitions d types)
    (hdefinitions : ∀ definition ∈ definitions, definition.DefaultsAre V)
    (ht : t ∈ schema.root :: schema.types) (hf : f ∈ t.fields) {a : ArgumentDeclaration}
    (ha : a ∈ f.arguments) : ∀ v ∈ a.default?, V v := by
  obtain ⟨o, ho, fd, hfd, hfield⟩ := h.exists_fieldOk ht hf
  exact hfield.defaults (hdefinitions _ ho fd hfd) a ha

end AssembledFrom

/-- The defaults of a schema that loads hold no variables. -/
theorem default_isConstant_of_load {text : String} (h : (load text).result = .ok schema)
    {t : ObjectType} (ht : t ∈ schema.root :: schema.types) {f : Field} (hf : f ∈ t.fields)
    {a : ArgumentDeclaration} (ha : a ∈ f.arguments) : ∀ v ∈ a.default?, v.IsConstant := by
  obtain ⟨definitions, hparse, hresolve, -⟩ := load_eq_ok h
  obtain ⟨d, types, hok⟩ := resolve_eq_ok_iff.1 hresolve
  have hdefaults := Definition.defaultsAre_of_parseAll Value.yields_constantReader hparse
  exact hok.default_of_definitions hdefaults ht hf ha

/-- A schema that loads is consistent. -/
theorem consistent_of_load {text : String} (h : (load text).result = .ok schema) :
    schema.Consistent := by
  obtain ⟨definitions, -, hresolve, hdefaults⟩ := load_eq_ok h
  obtain ⟨d, types, hok⟩ := resolve_eq_ok_iff.1 hresolve
  have hnodup := List.nodup_append.1 hok.nodup_names
  exact {
    entity_known := fun t ht f hf name hname => hok.entity_known ht hf hname
    enum_known := fun t ht f hf kind hkind name hname => hok.enum_known ht hf hkind hname
    type_found := fun t ht => find?_of_nodup (List.nodup_cons.1 hnodup.1).2 ht
    enum_found := fun e he => find?_of_nodup hnodup.2.1 he
    nodup_names := hok.nodup_names
    builtin_names := fun name hname =>
      hok.distinct.builtin_of_mem (hok.perm_names.mem_iff.1 hname)
    root_field := by
      intro f hf
      have hrelation := hok.relation_ok List.mem_cons_self hf
      rwa [if_pos rfl] at hrelation
    relation_iff := by
      intro t ht f hf
      have hrelation := hok.relation_ok (List.mem_cons_of_mem _ ht) hf
      rwa [if_neg (hok.name_ne_root ht)] at hrelation
    relation_type := fun t ht f hf => hok.relation_type (List.mem_cons_of_mem _ ht) hf
    nodup_fields := fun t ht => hok.nodup_fields ht
    nodup_arguments := fun t ht f hf => hok.nodup_arguments ht hf
    nodup_values := by
      intro e he
      rw [hok.enums_eq, mem_sortByName] at he
      exact hok.distinct.values e he
    argument_leaf := fun t ht f hf a ha => hok.argument_leaf ht hf ha
    default_constant := fun t ht f hf a ha => default_isConstant_of_load h ht hf ha
    default_accepted := fun t ht f hf a ha => exists_literal?_of_checkDefaults hdefaults ht hf ha }

/-- The text of a schema with a root of another name, an enum and a default that is a list. -/
def filmsText : String :=
  "schema \x7bquery: Root\x7d enum Genre \x7bDRAMA COMEDY\x7d " ++
  "type Root \x7bfilms(genre: [Genre] = [DRAMA, null]): [Film!]!\x7d " ++
  "type Film \x7bgenre: Genre sequel: Film @relation(name: \"NEXT\")\x7d"

/-- In such a schema a list of a value and null is a default for a list of an enum. -/
theorem consistent_of_load_films :
    ∃ schema, (load filmsText).result = .ok schema ∧ schema.root.name = "Root" ∧
      schema.types.map (·.name) = ["Film"] ∧ schema.enums = [⟨"Genre", ["DRAMA", "COMEDY"]⟩] ∧
      schema.Consistent := by
  have hsome : (load filmsText).result.toOption.map (fun schema =>
      (schema.root.name, schema.types.map (·.name), schema.enums)) =
      some ("Root", ["Film"], [⟨"Genre", ["DRAMA", "COMEDY"]⟩]) := by
    decide +kernel
  obtain ⟨schema, hschema, heq⟩ := Option.map_eq_some_iff.1 hsome
  simp only [Prod.mk.injEq] at heq
  obtain ⟨hroot, htypes, henums⟩ := heq
  have hload := toOption_eq_some_iff.1 hschema
  exact ⟨schema, hload, hroot, htypes, henums, consistent_of_load hload⟩

end Schema

end GraphQuery
