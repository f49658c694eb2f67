import Mathlib.Data.List.Nodup
import GraphQuery.Proofs.Compilation.Result
import GraphQuery.Schema.Resolution

/-!
# What a schema that loads guarantees

Resolution checks the definitions one after the other. Where it succeeds, each part of the schema
comes from a definition that passed its checks; the inversions of this file say which. From them the
facts follow that compilation relies on: names are unambiguous, and every relation and every root
field leads to a type of the schema.

## Main definitions

* `Kind.Contains`, `Kind.IsObjectValued`: what occurs in a kind, at any depth of lists.
* `Declarations.Added`: what one more definition can do to the declarations.
* `Declarations.FieldOk`: what has been checked where a field is resolved.
* `Schema.AssembledFrom`: a schema with the declarations and types it is put together from.
* `Schema.WellFormed`: what compilation relies on.

## Main results

* `Declarations.fields_eq_ok`, `Declarations.arguments_eq_ok`: the parts of a type come from its
  definition, and their names differ.
* `Schema.resolve_eq_ok_iff`: when definitions are resolved to a schema.
* `Schema.wellFormed_of_load`: a schema that loads is well-formed.
-/

namespace GraphQuery

/-! ### Sorting by name -/

section SortByName

variable {α : Type} {name : α → String}

theorem mem_insertByName {item a : α} {items : List α} :
    a ∈ insertByName name item items ↔ a = item ∨ a ∈ items := by
  induction items with
  | nil => simp [insertByName]
  | cons other rest ih =>
    rw [insertByName]
    split
    · simp
    · simp [ih, or_left_comm]

theorem mem_sortByName {a : α} {items : List α} : a ∈ sortByName name items ↔ a ∈ items := by
  unfold sortByName
  induction items with
  | nil => simp
  | cons item items ih => rw [List.foldr_cons, mem_insertByName, ih, List.mem_cons]

end SortByName

/-! ### Kinds -/

namespace Kind

/-- A kind occurs in another one: it is this kind, or occurs in what it is a list of. -/
inductive Contains (k : Kind) : Kind → Prop
  | self : Contains k k
  | list {inner : Kind} (h : Contains k inner) : Contains k (.list inner)

theorem contains_entity_iff {kind : Kind} {name : String} :
    Contains (.entity name) kind ↔ kind.target? = some name := by
  induction kind with
  | list inner ih =>
    rw [target?, ← ih]
    exact ⟨fun | .list h => h, .list⟩
  | entity other =>
    rw [target?, Option.some.injEq]
    exact ⟨fun | .self => rfl, fun | rfl => .self⟩
  | scalar scalar => exact ⟨nofun, nofun⟩
  | enum other => exact ⟨nofun, nofun⟩

/-- The kind leads to an entity, perhaps through lists. -/
def IsObjectValued (kind : Kind) : Prop := ∃ name, Contains (.entity name) kind

theorem isObjectValued_iff {kind : Kind} : kind.IsObjectValued ↔ kind.target?.isSome = true := by
  simp only [IsObjectValued, contains_entity_iff, Option.isSome_iff_exists]

end Kind

namespace Declarations

variable {d d' : Declarations}

/-! ### Collecting definitions -/

/-- The object types of a list of definitions. -/
def objectsOf (definitions : List Definition) : List ObjectDefinition :=
  definitions.filterMap fun
    | .object object => some object
    | _ => none

/-- What is taken from definitions of one sort only stands for one of the definitions. -/
theorem mem_filterMap_iff {definitions : List Definition} {α : Type}
    {f : Definition → Option α} {g : α → Definition} {a : α}
    (h : ∀ definition, f definition = some a ↔ definition = g a) :
    a ∈ definitions.filterMap f ↔ g a ∈ definitions := by
  simp only [List.mem_filterMap, h, exists_eq_right]

theorem mem_objectsOf_iff {definitions : List Definition} {o : ObjectDefinition} :
    o ∈ objectsOf definitions ↔ .object o ∈ definitions := by
  apply mem_filterMap_iff
  intro definition
  cases definition <;> simp

theorem declare_eq_ok_iff {name : String} :
    d.declare name = .ok d' ↔
      ((Scalar.builtin? name).isNone ∧ name ∉ d.names) ∧
        d' = { d with names := d.names ++ [name] } := by
  unfold declare
  split
  · next h =>
    simp only [reduceCtorEq, false_iff, not_and]
    rintro ⟨hbuiltin, hnew⟩
    simp [Option.isNone_iff_eq_none.1 hbuiltin, hnew] at h
  · next h =>
    simp only [Bool.or_eq_true, not_or, Bool.not_eq_true, Option.isSome_eq_false_iff,
      List.contains_eq_mem, decide_eq_false_iff_not] at h
    simp [h, eq_comm]

/-- What one more definition adds. A type takes a name that is neither built in nor taken, the
values of an enum differ, and there is one schema block at most. -/
inductive Added (d : Declarations) : Definition → Declarations → Prop
  | object {o : ObjectDefinition} (hbuiltin : Scalar.builtin? o.name = none)
      (hnew : o.name ∉ d.names) :
      Added d (.object o) { d with names := d.names ++ [o.name], objects := d.objects ++ [o] }
  | enum {e : EnumDefinition} (hbuiltin : Scalar.builtin? e.name = none) (hnew : e.name ∉ d.names)
      (hvalues : firstRepeated? [] e.values = none) :
      Added d (.enum e)
        { d with names := d.names ++ [e.name], enums := d.enums ++ [⟨e.name, e.values⟩] }
  | scalar {name : String} (hbuiltin : Scalar.builtin? name = none) (hnew : name ∉ d.names) :
      Added d (.scalar name) { d with names := d.names ++ [name], scalars := d.scalars ++ [name] }
  | schema {block : SchemaBlock} (hblock : d.block = none) :
      Added d (.schema block) { d with block := some block }

theorem add_eq_ok {definition : Definition} (h : (d.add definition).result = .ok d') :
    Added d definition d' := by
  cases definition with
  | object object =>
    simp only [add, Logged.result_bind, Logged.result_ofExcept, Logged.result_pure,
      bind_eq_ok_iff, declare_eq_ok_iff] at h
    obtain ⟨_, ⟨⟨hbuiltin, hnew⟩, rfl⟩, h⟩ := h
    cases h
    exact .object (by simpa using hbuiltin) hnew
  | enum enum =>
    simp only [add, Logged.result_bind, Logged.result_ofExcept, bind_eq_ok_iff,
      declare_eq_ok_iff] at h
    obtain ⟨_, ⟨⟨hbuiltin, hnew⟩, rfl⟩, h⟩ := h
    split at h
    · cases h
    · next hvalues =>
      cases h
      exact .enum (by simpa using hbuiltin) hnew hvalues
  | scalar name =>
    simp only [add, Logged.result_bind, Logged.result_ofExcept, Logged.result_pure,
      bind_eq_ok_iff, declare_eq_ok_iff] at h
    obtain ⟨_, ⟨⟨hbuiltin, hnew⟩, rfl⟩, h⟩ := h
    cases h
    exact .scalar (by simpa using hbuiltin) hnew
  | schema block =>
    rw [add, Logged.result_ite] at h
    split at h
    · cases h
    · next hblock =>
      cases h
      exact .schema (by simpa using hblock)

theorem objects_add {definition : Definition} (h : (d.add definition).result = .ok d') :
    d'.objects = d.objects ++ objectsOf [definition] := by
  cases add_eq_ok h with
  | object => rfl
  | _ => exact (List.append_nil _).symm

/-- The object types that are collected are those of the definitions, in order. -/
theorem objects_collect {definitions : List Definition}
    (h : (d.collect definitions).result = .ok d') :
    d'.objects = d.objects ++ objectsOf definitions := by
  induction definitions generalizing d with
  | nil =>
    cases h
    exact (List.append_nil _).symm
  | cons definition rest ih =>
    rw [collect, Logged.result_bind, bind_eq_ok_iff] at h
    obtain ⟨d₁, hadd, hrest⟩ := h
    rw [ih hrest, objects_add hadd, List.append_assoc, objectsOf, objectsOf, objectsOf,
      ← List.filterMap_append, List.singleton_append]

/-! ### Kinds of type references -/

/-- The kind of a name is a scalar, or an enum or an entity that is declared under this name. -/
theorem namedKind?_eq_some {name : String} {k : Kind} (h : d.namedKind? name = some k) :
    (∃ scalar, k = .scalar scalar) ∨ (k = .enum name ∧ ∃ e ∈ d.enums, e.name = name) ∨
      (k = .entity name ∧ ∃ o ∈ d.objects, o.name = name) := by
  unfold namedKind? at h
  split at h
  · next scalar _ =>
    cases h
    exact .inl ⟨scalar, rfl⟩
  · split_ifs at h with hscalar henum hobject
    · cases h
      exact .inl ⟨.custom name, rfl⟩
    · cases h
      exact .inr (.inl ⟨rfl, by simpa using henum⟩)
    · cases h
      exact .inr (.inr ⟨rfl, by simpa using hobject⟩)

/-- What occurs in the kind of a type reference is a list, or the kind of the name inside. -/
theorem isList_or_namedKind?_of_contains {place : String} {ref : TypeRef} {kind k : Kind}
    (h : d.kind place ref = .ok kind) (hk : Kind.Contains k kind) :
    k.isList = true ∨ d.namedKind? ref.base = some k := by
  induction ref generalizing kind with
  | named name =>
    unfold Declarations.kind at h
    split at h
    · next found hfound =>
      cases h
      cases hk with
      | self => exact .inr hfound
      | list =>
        -- The kind of a name is no list, so nothing else occurs in it.
        rcases namedKind?_eq_some hfound with ⟨_, hkind⟩ | ⟨hkind, -⟩ | ⟨hkind, -⟩ <;> cases hkind
    · cases h
  | list inner ih =>
    simp only [Declarations.kind, Bind.bind, bind_eq_ok_iff, pure, Except.pure] at h
    obtain ⟨found, hfound, h⟩ := h
    cases h
    cases hk with
    | self => exact .inl rfl
    | list hk => exact ih hfound hk
  | nonNull inner ih => exact ih h hk

/-- An enum that occurs in a kind is declared. -/
theorem exists_enum_of_kind {place : String} {ref : TypeRef} {kind : Kind}
    (h : d.kind place ref = .ok kind) {name : String} (hk : Kind.Contains (.enum name) kind) :
    ∃ e ∈ d.enums, e.name = name := by
  have hnamed := (isList_or_namedKind?_of_contains h hk).resolve_left (by simp [Kind.isList])
  rcases namedKind?_eq_some hnamed with ⟨_, hkind⟩ | ⟨hkind, henum⟩ | ⟨hkind, -⟩
  · cases hkind
  · cases hkind
    exact henum
  · cases hkind

/-- A kind that leads to an entity leads to a declared object type. -/
theorem exists_object_of_kind {place : String} {ref : TypeRef} {kind : Kind}
    (h : d.kind place ref = .ok kind) {name : String} (hname : kind.target? = some name) :
    ∃ object ∈ d.objects, object.name = name := by
  have hk := Kind.contains_entity_iff.2 hname
  have hnamed := (isList_or_namedKind?_of_contains h hk).resolve_left (by simp [Kind.isList])
  rcases namedKind?_eq_some hnamed with ⟨_, hkind⟩ | ⟨hkind, -⟩ | ⟨hkind, hobject⟩
  · cases hkind
  · cases hkind
  · cases hkind
    exact hobject

/-! ### Arguments and fields -/

/-- A name in front of names that differ from it, from one another and from those before. -/
theorem distinct_cons {name : String} {names seen : List String} (hseen : name ∉ seen)
    (hnodup : names.Nodup) (hnew : ∀ n ∈ names, n ∉ seen ++ [name]) :
    (name :: names).Nodup ∧ ∀ n ∈ name :: names, n ∉ seen := by
  refine ⟨List.nodup_cons.2 ⟨fun hmem => hnew name hmem (by simp), hnodup⟩, ?_⟩
  intro n hn
  rcases List.mem_cons.1 hn with rfl | hn
  · exact hseen
  · exact fun hmem => hnew n hn (List.mem_append_left _ hmem)

/-- The arguments of a field come from their definitions: the kinds are leaves, and the names differ
from one another and from those before. -/
theorem arguments_eq_ok {type field : String} {seen : List String}
    {definitions : List ArgumentDefinition} {arguments : List ArgumentDeclaration}
    (h : d.arguments type field seen definitions = .ok arguments) :
    List.Forall₂ (fun definition a => a.name = definition.name ∧
        a.default? = definition.default? ∧ a.kind.isLeaf = true ∧
          d.kind (type ++ "." ++ field) definition.type = .ok a.kind) definitions arguments ∧
      (definitions.map (·.name)).Nodup ∧ ∀ n ∈ definitions.map (·.name), n ∉ seen := by
  induction definitions generalizing seen arguments with
  | nil =>
    cases h
    exact ⟨.nil, by simp⟩
  | cons definition rest ih =>
    simp only [Declarations.arguments, Bind.bind, pure, Except.pure] at h
    split_ifs at h with hseen
    · cases h
    · obtain ⟨kind, hkind, h⟩ := bind_eq_ok_iff.1 h
      split_ifs at h with hleaf
      · cases h
      · obtain ⟨others, hothers, h⟩ := bind_eq_ok_iff.1 h
        cases h
        obtain ⟨hall, hnodup, hnew⟩ := ih hothers
        exact ⟨.cons ⟨rfl, rfl, by simpa using hleaf, hkind⟩ hall,
          distinct_cons (by simpa using hseen) hnodup hnew⟩

/-- Where a relation passes its check: a root field leads to an entity and has none, another field
has one exactly if it leads to an entity, and the root type is never led to. -/
theorem checkRelation_eq_ok_iff {isRoot : Bool} {type field : String} {kind : Kind}
    {relation : Option Relation} :
    d.checkRelation isRoot type field kind relation = .ok () ↔
      (if isRoot then kind.target?.isSome ∧ relation = none
        else relation.isSome = kind.target?.isSome) ∧ kind.target? ≠ some d.root := by
  simp only [checkRelation, Bind.bind, pure, Except.pure]
  cases isRoot <;> cases kind.target? <;> cases relation <;> simp [Except.bind]

/-- What has been checked where a field is resolved. -/
structure FieldOk (d : Declarations) (isRoot : Bool) (type : String)
    (definition : FieldDefinition) (f : Field) : Prop where
  name_eq : f.name = definition.name
  kind_eq : d.kind (type ++ "." ++ definition.name) definition.type = .ok f.kind
  relation_eq : relation? type definition.name none definition.directives = .ok f.relation?
  relation_ok : d.checkRelation isRoot type definition.name f.kind f.relation? = .ok ()
  arguments_eq : d.arguments type definition.name [] definition.arguments = .ok f.arguments

theorem field_eq_ok {isRoot : Bool} {type : String} {definition : FieldDefinition} {f : Field}
    (h : d.field isRoot type definition = .ok f) : FieldOk d isRoot type definition f := by
  simp only [Declarations.field, Bind.bind, bind_eq_ok_iff, pure, Except.pure] at h
  obtain ⟨kind, hkind, relation, hrelation, _, hcheck, arguments, harguments, h⟩ := h
  cases h
  exact ⟨rfl, hkind, hrelation, hcheck, harguments⟩

/-- The fields of a type come from their definitions, and their names differ. -/
theorem fields_eq_ok {isRoot : Bool} {type : String} {seen : List String}
    {definitions : List FieldDefinition} {fields : List Field}
    (h : d.fields isRoot type seen definitions = .ok fields) :
    List.Forall₂ (FieldOk d isRoot type) definitions fields ∧
      (definitions.map (·.name)).Nodup ∧ ∀ n ∈ definitions.map (·.name), n ∉ seen := by
  induction definitions generalizing seen fields with
  | nil =>
    cases h
    exact ⟨.nil, by simp⟩
  | cons definition rest ih =>
    simp only [Declarations.fields, Bind.bind, pure, Except.pure] at h
    split_ifs at h with hseen
    · cases h
    · simp only [bind_eq_ok_iff] at h
      obtain ⟨first, hfirst, others, hothers, h⟩ := h
      cases h
      obtain ⟨hall, hnodup, hnew⟩ := ih hothers
      exact ⟨.cons (field_eq_ok hfirst) hall, distinct_cons (by simpa using hseen) hnodup hnew⟩

/-- What has been checked where an object type is resolved. -/
structure ObjectOk (d : Declarations) (definition : ObjectDefinition) (type : ObjectType) :
    Prop where
  name_eq : type.name = definition.name
  fields_ok : List.Forall₂ (FieldOk d (definition.name == d.root) definition.name)
    definition.fields type.fields
  nodup : (definition.fields.map (·.name)).Nodup

theorem object_eq_ok {definition : ObjectDefinition} {type : ObjectType}
    (h : d.object definition = .ok type) : ObjectOk d definition type := by
  simp only [Declarations.object, Bind.bind, bind_eq_ok_iff, pure, Except.pure] at h
  obtain ⟨fields, hfields, h⟩ := h
  cases h
  obtain ⟨hall, hnodup, -⟩ := fields_eq_ok hfields
  exact ⟨rfl, hall, hnodup⟩

theorem ObjectOk.map_name_fields {definition : ObjectDefinition} {type : ObjectType}
    (h : ObjectOk d definition type) :
    type.fields.map (·.name) = definition.fields.map (·.name) :=
  map_eq_map_of_forall₂ (h.fields_ok.imp fun _ _ hfield => hfield.name_eq)

end Declarations

namespace Schema

/-! ### Schemas -/

open Declarations

/-- A schema and the declarations that it was resolved from: each type comes from the definition of
an object, that of the root having its name. -/
structure ResolvedFrom (schema : Schema) (d : Declarations) : Prop where
  exists_root : ∃ definition ∈ d.objects, ObjectOk d definition schema.root
  root_name : schema.root.name = d.root
  exists_definition : ∀ t ∈ schema.types, t.name ≠ d.root ∧ ∃ definition ∈ d.objects,
    ObjectOk d definition t
  exists_type : ∀ definition ∈ d.objects, definition.name ≠ d.root →
    ∃ t ∈ schema.types, t.name = definition.name

/-- What a schema is put together from: definitions are collected, each object among them becomes a
type, one of these is the root, and the other types and the enums stand in order of their names. -/
structure AssembledFrom (schema : Schema) (definitions : List Definition) (d : Declarations)
    (types : List ObjectType) : Prop where
  collected : (({} : Declarations).collect definitions).result = .ok d
  resolved : List.Forall₂ (fun o t => d.object o = .ok t) d.objects types
  root_eq : types.find? (·.name == d.root) = some schema.root
  types_eq : schema.types = sortByName (·.name) (types.filter (·.name != d.root))
  enums_eq : schema.enums = sortByName (·.name) d.enums

/-- Resolving comes to a schema exactly if the schema is put together from the definitions. -/
theorem resolve_eq_ok_iff {definitions : List Definition} {schema : Schema} :
    (resolve definitions).result = .ok schema ↔
      ∃ d types, schema.AssembledFrom definitions d types := by
  simp only [resolve, Logged.result_bind, bind_eq_ok_iff, Logged.result_ofExcept, mapM_eq_ok_iff]
  constructor
  · rintro ⟨d, hcollect, types, htypes, h⟩
    split at h
    · next root hroot =>
      cases h
      exact ⟨d, types, hcollect, htypes, hroot, rfl, rfl⟩
    · cases h
  · rintro ⟨d, types, hcollect, htypes, hroot, hothers, henums⟩
    refine ⟨d, hcollect, types, htypes, ?_⟩
    rw [hroot, ← hothers, ← henums]
    rfl

namespace AssembledFrom

variable {schema : Schema} {definitions : List Definition} {d : Declarations}
  {types : List ObjectType}

theorem mem_objects_iff (h : schema.AssembledFrom definitions d types) {o : ObjectDefinition} :
    o ∈ d.objects ↔ .object o ∈ definitions := by
  rw [objects_collect h.collected, List.nil_append, mem_objectsOf_iff]

theorem objects_ok (h : schema.AssembledFrom definitions d types) :
    List.Forall₂ (ObjectOk d) d.objects types :=
  h.resolved.imp fun _ _ => object_eq_ok

theorem root_name (h : schema.AssembledFrom definitions d types) : schema.root.name = d.root := by
  simpa using List.find?_some h.root_eq

theorem mem_types_iff (h : schema.AssembledFrom definitions d types) {t : ObjectType} :
    t ∈ schema.types ↔ t ∈ types ∧ t.name ≠ d.root := by
  rw [h.types_eq, mem_sortByName, List.mem_filter, bne_iff_ne]

theorem resolvedFrom (h : schema.AssembledFrom definitions d types) : schema.ResolvedFrom d where
  exists_root := exists_left_of_mem h.objects_ok (List.mem_of_find?_eq_some h.root_eq)
  root_name := h.root_name
  exists_definition := by
    intro t ht
    obtain ⟨hmem, hne⟩ := h.mem_types_iff.1 ht
    exact ⟨hne, exists_left_of_mem h.objects_ok hmem⟩
  exists_type := by
    intro definition hmem hne
    obtain ⟨t, ht, hobject⟩ := exists_left_of_mem h.objects_ok.flip hmem
    have hname : t.name = definition.name := hobject.name_eq
    exact ⟨t, h.mem_types_iff.2 ⟨ht, hname ▸ hne⟩, hname⟩

end AssembledFrom

/-- What compilation relies on: a type has no two fields of one name, and every root field and every
relation leads to a type of the schema. -/
structure WellFormed (schema : Schema) : Prop where
  nodup_fields : ∀ t ∈ schema.types, (t.fields.map (·.name)).Nodup
  root_target : ∀ f ∈ schema.root.fields,
    ∃ name target, f.kind.target? = some name ∧ schema.type? name = some target
  relation_target : ∀ t ∈ schema.types, ∀ f ∈ t.fields, f.relation?.isSome = true →
    ∃ name target, f.kind.target? = some name ∧ schema.type? name = some target

namespace ResolvedFrom

variable {schema : Schema} {d : Declarations}

theorem exists_target (h : schema.ResolvedFrom d) {isRoot : Bool} {type : String}
    {definition : FieldDefinition} {f : Field} (hf : FieldOk d isRoot type definition f)
    (hsome : f.kind.target?.isSome = true) :
    ∃ name target, f.kind.target? = some name ∧ schema.type? name = some target := by
  obtain ⟨name, hname⟩ := Option.isSome_iff_exists.1 hsome
  obtain ⟨object, hobject, rfl⟩ := exists_object_of_kind hf.kind_eq hname
  -- The check of relations excludes the root, and all other objects become types.
  have hne : object.name ≠ d.root := by
    rintro heq
    exact (checkRelation_eq_ok_iff.1 hf.relation_ok).2 (hname.trans (congrArg some heq))
  obtain ⟨t, ht, htname⟩ := h.exists_type object hobject hne
  have hfound : (schema.type? object.name).isSome = true := by
    simpa [type?, List.find?_isSome] using ⟨t, ht, htname⟩
  obtain ⟨target, htarget⟩ := Option.isSome_iff_exists.1 hfound
  exact ⟨object.name, target, hname, htarget⟩

theorem wellFormed (h : schema.ResolvedFrom d) : schema.WellFormed where
  nodup_fields := by
    intro t ht
    obtain ⟨-, definition, -, hok⟩ := h.exists_definition t ht
    rw [hok.map_name_fields]
    exact hok.nodup
  root_target := by
    intro f hf
    obtain ⟨definition, -, hok⟩ := h.exists_root
    obtain ⟨fd, -, hfield⟩ := exists_left_of_mem hok.fields_ok hf
    have hroot : (definition.name == d.root) = true := by
      simpa [← hok.name_eq] using h.root_name
    have hrelation := checkRelation_eq_ok_iff.1 hfield.relation_ok
    rw [if_pos hroot] at hrelation
    exact h.exists_target hfield hrelation.1.1
  relation_target := by
    intro t ht f hf hsome
    obtain ⟨hne, definition, -, hok⟩ := h.exists_definition t ht
    obtain ⟨fd, -, hfield⟩ := exists_left_of_mem hok.fields_ok hf
    have hroot : ¬ (definition.name == d.root) = true := by
      simpa [← hok.name_eq] using hne
    have hrelation := checkRelation_eq_ok_iff.1 hfield.relation_ok
    rw [if_neg hroot] at hrelation
    exact h.exists_target hfield (hrelation.1 ▸ hsome)

end ResolvedFrom

theorem load_eq_ok {text : String} {schema : Schema} (h : (load text).result = .ok schema) :
    ∃ definitions, Definition.parseAll text.toList = .ok definitions ∧
      (resolve definitions).result = .ok schema ∧ schema.checkDefaults = .ok () := by
  simp only [load, Logged.result_bind, bind_eq_ok_iff, Logged.result_ofExcept,
    Logged.result_note, Logged.result_pure, mapError_eq_ok_iff] at h
  obtain ⟨definitions, hparse, resolved, hresolve, _, hdefaults, _, _, h⟩ := h
  cases h
  exact ⟨definitions, hparse, hresolve, hdefaults⟩

theorem exists_assembledFrom_of_load {text : String} {schema : Schema}
    (h : (load text).result = .ok schema) :
    ∃ definitions d types, schema.AssembledFrom definitions d types := by
  obtain ⟨definitions, -, hresolve, -⟩ := load_eq_ok h
  exact ⟨definitions, resolve_eq_ok_iff.1 hresolve⟩

/-- A schema that loads is well-formed. -/
theorem wellFormed_of_load {text : String} {schema : Schema}
    (h : (load text).result = .ok schema) : schema.WellFormed := by
  obtain ⟨definitions, d, types, hfrom⟩ := exists_assembledFrom_of_load h
  exact hfrom.resolvedFrom.wellFormed

theorem mem_of_type? {schema : Schema} {name : String} {target : ObjectType}
    (h : schema.type? name = some target) : target ∈ schema.types ∧ target.name = name :=
  ⟨List.mem_of_find?_eq_some h, by simpa using List.find?_some h⟩

/-- The text of a schema in which people know one another. -/
def peopleText : String :=
  "type Query \x7b people(name: String): [Person] \x7d " ++
  "type Person \x7b name: String friends(since: Int = 0): [Person] " ++
    "@relation(name: \"KNOWS\", direction: OUT) \x7d"

end Schema

end GraphQuery
