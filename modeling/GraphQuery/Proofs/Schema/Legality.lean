import GraphQuery.Proofs.Compilation.Validity
import GraphQuery.Proofs.Schema.Order

/-!
# Which definitions declare a schema

A judgement on definitions that does not mention resolution: what a type reference stands for among
them, what relation a field declares, and which fields and arguments an object may have. Definitions
declare a schema exactly if they are legal in this sense, and nothing of them is lost in it.

## Main definitions

* `TypeRef.Denotes`: the kind that a type reference stands for.
* `Directive.Declares`, `Directive.AllDeclare`: the relation that directives declare.
* `ObjectDefinition.Becomes`: a type says what the definition of an object says.
* `Definition.AllLegal`: nothing is wrong with definitions.
* `Schema.Presents`: a schema says what definitions say.

## Main results

* `Declarations.kind_eq_ok_iff`, `Declarations.relation?_eq_ok_iff`: how kinds and relations are
  found.
* `Declarations.exists_object`: a legal object is resolved.
* `Declarations.becomes_of_objectOk`: it is resolved to a type that says the same.
* `Schema.allLegal_iff_exists_declaredBy`: which definitions declare a schema, and what is in it.
-/

namespace GraphQuery

open Declarations

/-! ### What definitions say -/

/-- The kind that a type reference stands for among definitions. Marks against null are dropped. -/
inductive TypeRef.Denotes (definitions : List Definition) : TypeRef → Kind → Prop
  | builtin {name : String} {scalar : Scalar} (h : Scalar.builtin? name = some scalar) :
      Denotes definitions (.named name) (.scalar scalar)
  | scalar {name : String} (h : .scalar name ∈ definitions) :
      Denotes definitions (.named name) (.scalar (.custom name))
  | enum {e : EnumDefinition} (h : .enum e ∈ definitions) :
      Denotes definitions (.named e.name) (.enum e.name)
  | object {o : ObjectDefinition} (h : .object o ∈ definitions) :
      Denotes definitions (.named o.name) (.entity o.name)
  | list {inner : TypeRef} {kind : Kind} (h : Denotes definitions inner kind) :
      Denotes definitions (.list inner) (.list kind)
  | nonNull {inner : TypeRef} {kind : Kind} (h : Denotes definitions inner kind) :
      Denotes definitions (.nonNull inner) kind

/-- The direction that a directive gives: its word, in any case of the letters, as a string or a
symbol. Without one it is outgoing. -/
inductive Directive.GivesDirection (directive : Directive) : Direction → Prop
  | absent (h : directive.argument? "direction" = none) : GivesDirection directive .outgoing
  | string {text : String} {direction : Direction}
      (h : directive.argument? "direction" = some (.string text))
      (hword : text.toList.map Char.toUpper = direction.word.toList) :
      GivesDirection directive direction
  | symbol {text : String} {direction : Direction}
      (h : directive.argument? "direction" = some (.enum text))
      (hword : text.toList.map Char.toUpper = direction.word.toList) :
      GivesDirection directive direction

/-- A directive declares a relation: it has a name, perhaps a direction, and nothing else. -/
structure Directive.Declares (directive : Directive) (r : Relation) : Prop where
  name_eq : directive.name = "relation"
  known : ∀ a ∈ directive.arguments, a.name = "name" ∨ a.name = "direction"
  type_eq : directive.argument? "name" = some (.string r.type)
  type_ne : r.type ≠ ""
  direction : directive.GivesDirection r.direction

/-- What the directives of a field declare: one relation, or none if there are no directives. -/
inductive Directive.AllDeclare : List Directive → Option Relation → Prop
  | none : AllDeclare [] none
  | one {directive : Directive} {r : Relation} (h : directive.Declares r) :
      AllDeclare [directive] (some r)

/-- An argument says what its definition says. -/
structure ArgumentDefinition.Becomes (definitions : List Definition) (a : ArgumentDefinition)
    (b : ArgumentDeclaration) : Prop where
  name_eq : b.name = a.name
  kind : a.type.Denotes definitions b.kind
  default_eq : b.default? = a.default?

/-- A field says what its definition says, its arguments in the same order. -/
structure FieldDefinition.Becomes (definitions : List Definition) (f : FieldDefinition)
    (g : Field) : Prop where
  name_eq : g.name = f.name
  kind : f.type.Denotes definitions g.kind
  relation : Directive.AllDeclare f.directives g.relation?
  arguments : List.Forall₂ (ArgumentDefinition.Becomes definitions) f.arguments g.arguments

/-- A type says what the definition of an object says, its fields in the same order. -/
structure ObjectDefinition.Becomes (definitions : List Definition) (o : ObjectDefinition)
    (t : ObjectType) : Prop where
  name_eq : t.name = o.name
  fields : List.Forall₂ (FieldDefinition.Becomes definitions) o.fields t.fields

/-- The name of the root type: what the schema block names first for queries, or `Query`. -/
def Declarations.rootName (definitions : List Definition) : String :=
  ((blocksOf definitions).head?.bind (·.queryType?)).getD "Query"

@[simp]
theorem Declarations.root_ofDefinitions {definitions : List Definition} :
    (ofDefinitions definitions).root = rootName definitions := rfl

/-! ### What definitions may say -/

/-- A value may be given at a kind, where the enums are those of the definitions. -/
def Value.Fits (definitions : List Definition) (kind : Kind) (v : Value) : Prop :=
  Schema.Admits ⟨default, [], enumsOf definitions⟩ kind v

/-- An argument has no entities in its kind, and its default fits. -/
def ArgumentDefinition.Legal (definitions : List Definition) (a : ArgumentDefinition) : Prop :=
  ∃ kind, a.type.Denotes definitions kind ∧ ¬ kind.IsObjectValued ∧
    ∀ v ∈ a.default?, v.Fits definitions kind

/-- A field may have a kind and a relation. Root fields lead to entities and follow no relation;
other fields follow a relation exactly if they lead to an entity; none leads to the root. -/
structure FieldDefinition.LegalAs (definitions : List Definition) (isRoot : Bool)
    (f : FieldDefinition) (kind : Kind) (relation? : Option Relation) : Prop where
  kind_eq : f.type.Denotes definitions kind
  relation_eq : Directive.AllDeclare f.directives relation?
  root : isRoot = true → kind.IsObjectValued ∧ relation? = none
  other : isRoot = false → (relation?.isSome = true ↔ kind.IsObjectValued)
  target : ¬ Kind.Contains (.entity (rootName definitions)) kind
  nodup : (f.arguments.map (·.name)).Nodup
  arguments : ∀ a ∈ f.arguments, a.Legal definitions

/-- The fields of an object have different names, and each is legal. -/
structure ObjectDefinition.Legal (definitions : List Definition) (o : ObjectDefinition) :
    Prop where
  nodup : (o.fields.map (·.name)).Nodup
  fields : ∀ f ∈ o.fields, ∃ kind relation?,
    f.LegalAs definitions (o.name == rootName definitions) kind relation?

/-- Nothing is wrong with definitions: none is in the way of another, the root is among them, and
objects are legal. -/
structure Definition.AllLegal (definitions : List Definition) : Prop where
  collectable : Collectable definitions
  root : ∃ o, .object o ∈ definitions ∧ o.name = rootName definitions
  objects : ∀ o, .object o ∈ definitions → o.Legal definitions

/-- A schema says what definitions say, and nothing else: its types are the objects and its enums
the enums, and the root is the one of that name. -/
structure Schema.Presents (schema : Schema) (definitions : List Definition) : Prop where
  root_name : schema.root.name = rootName definitions
  types : ∃ types, List.Forall₂ (ObjectDefinition.Becomes definitions) (objectsOf definitions)
    types ∧ (schema.root :: schema.types).Perm types
  enums : schema.enums.Perm (enumsOf definitions)

namespace Declarations

variable {definitions : List Definition}

/-! ### Kinds -/

theorem denotes_of_namedKind? {name : String} {kind : Kind}
    (h : (ofDefinitions definitions).namedKind? name = some kind) :
    (TypeRef.named name).Denotes definitions kind := by
  unfold namedKind? at h
  split at h
  · next scalar hscalar =>
    cases h
    exact .builtin hscalar
  · split_ifs at h with hscalar henum hobject
    · cases h
      exact .scalar (mem_scalarsOf_iff.1 (by simpa using hscalar))
    · cases h
      obtain ⟨e, he, rfl⟩ : ∃ e ∈ enumsOf definitions, e.name = name := by simpa using henum
      exact .enum (mem_enumsOf_iff.1 he)
    · cases h
      obtain ⟨o, ho, rfl⟩ : ∃ o ∈ objectsOf definitions, o.name = name := by simpa using hobject
      exact .object (mem_objectsOf_iff.1 ho)

/-- A name is looked up in the definitions, where it stands for one thing. -/
theorem namedKind?_eq_some_iff (h : Collectable definitions) {name : String} {kind : Kind} :
    (ofDefinitions definitions).namedKind? name = some kind ↔
      (TypeRef.named name).Denotes definitions kind := by
  refine ⟨denotes_of_namedKind?, fun hdenotes => ?_⟩
  have hnodup := h.distinct.perm.nodup_iff.1 h.distinct.nodup
  obtain ⟨hothers, -, hscalars⟩ := List.nodup_append.1 hnodup
  obtain ⟨-, -, henums⟩ := List.nodup_append.1 hothers
  have hbuiltin {n : String} (hn : n ∈ (objectsOf definitions).map (·.name) ++
      (enumsOf definitions).map (·.name) ++ scalarsOf definitions) : Scalar.builtin? n = none :=
    h.distinct.builtin n (h.distinct.perm.mem_iff.2 hn)
  -- A name that is looked up late is none of those that are looked up before.
  cases hdenotes with
  | builtin hscalar => simp only [namedKind?, hscalar]
  | scalar hmem =>
    rw [← mem_scalarsOf_iff] at hmem
    simp [namedKind?, hbuiltin (List.mem_append_right _ hmem), hmem]
  | @enum e hmem =>
    have hname : e.name ∈ (enumsOf definitions).map (·.name) :=
      List.mem_map.2 ⟨⟨e.name, e.values⟩, mem_enumsOf_iff.2 hmem, rfl⟩
    have hothersName := List.mem_append_right ((objectsOf definitions).map (·.name)) hname
    have hscalar : e.name ∉ scalarsOf definitions := fun hs => hscalars _ hothersName _ hs rfl
    have hfound : ∃ e' ∈ enumsOf definitions, e'.name = e.name := List.mem_map.1 hname
    simp [namedKind?, hbuiltin (List.mem_append_left _ hothersName), hscalar, hfound]
  | @object o hmem =>
    have hname : o.name ∈ (objectsOf definitions).map (·.name) :=
      List.mem_map_of_mem (mem_objectsOf_iff.2 hmem)
    have hothersName := List.mem_append_left ((enumsOf definitions).map (·.name)) hname
    have hscalar : o.name ∉ scalarsOf definitions := fun hs => hscalars _ hothersName _ hs rfl
    have henum : ∀ e ∈ enumsOf definitions, e.name ≠ o.name := fun e he heq =>
      henums _ hname _ (List.mem_map_of_mem he) heq.symm
    have hfound : ∃ o' ∈ objectsOf definitions, o'.name = o.name := List.mem_map.1 hname
    simpa [namedKind?, hbuiltin (List.mem_append_left _ hothersName), hscalar, hfound] using henum

/-- The kind of a type reference is the one it stands for. -/
theorem kind_eq_ok_iff (h : Collectable definitions) {place : String} {ref : TypeRef}
    {kind : Kind} :
    (ofDefinitions definitions).kind place ref = .ok kind ↔ ref.Denotes definitions kind := by
  induction ref generalizing kind with
  | named name =>
    rw [← namedKind?_eq_some_iff h, Declarations.kind]
    cases (ofDefinitions definitions).namedKind? name <;> simp
  | list inner ih =>
    simp only [Declarations.kind, Bind.bind, bind_eq_ok_iff, pure, Except.pure, ih]
    constructor
    · rintro ⟨found, hfound, ⟨⟩⟩
      exact .list hfound
    · intro hdenotes
      cases hdenotes with
      | list hfound => exact ⟨_, hfound, rfl⟩
  | nonNull inner ih =>
    rw [Declarations.kind, ih]
    refine ⟨.nonNull, fun hdenotes => ?_⟩
    cases hdenotes with
    | nonNull hinner => exact hinner

/-! ### Relations -/

theorem parse?_eq_some_iff {text : String} {direction : Direction} :
    Direction.parse? text = some direction ↔
      text.toList.map Char.toUpper = direction.word.toList := by
  simp only [Direction.parse?, beq_iff_eq]
  by_cases hout : text.toList.map Char.toUpper = ['O', 'U', 'T']
  · cases direction <;> simp [hout, Direction.word]
  · cases direction <;> simp [hout, Direction.word]

theorem unexpected?_eq_none_iff {directive : Directive} :
    directive.arguments.find? (fun a => a.name != "name" && a.name != "direction") = none ↔
      ∀ a ∈ directive.arguments, a.name = "name" ∨ a.name = "direction" := by
  rw [List.find?_eq_none]
  refine forall₂_congr fun a _ => ?_
  by_cases hname : a.name = "name" <;> simp [hname]

/-- A directive off which a relation is read declares it. -/
theorem declares_of_relation {directive : Directive} {r : Relation}
    (hname : directive.name = "relation") (h : relation directive = .ok r) :
    directive.Declares r := by
  simp only [relation, Bind.bind, Except.bind, pure, Except.pure] at h
  split at h
  · cases h
  next hnone =>
  have hknown := unexpected?_eq_none_iff.1 (Option.eq_none_iff_forall_ne_some.2 hnone)
  split at h
  swap
  · cases h
  next name htype =>
  split_ifs at h with hempty
  have hne : name ≠ "" := by simpa using hempty
  cases hgiven : directive.argument? "direction" with
  | none =>
    rw [hgiven] at h
    cases h
    exact ⟨hname, hknown, htype, hne, .absent hgiven⟩
  | some value =>
    -- Only strings and symbols are read as directions.
    rw [hgiven] at h
    cases value with
    | string text =>
      cases hparse : Direction.parse? text with
      | none => simp [hparse] at h
      | some direction =>
        simp only [if_true, hparse] at h
        cases h
        exact ⟨hname, hknown, htype, hne, .string hgiven (parse?_eq_some_iff.1 hparse)⟩
    | enum text =>
      cases hparse : Direction.parse? text with
      | none => simp [hparse] at h
      | some direction =>
        simp only [if_true, hparse] at h
        cases h
        exact ⟨hname, hknown, htype, hne, .symbol hgiven (parse?_eq_some_iff.1 hparse)⟩
    | _ => simp at h

/-- The relation that a directive declares is read off it. -/
theorem relation_of_declares {directive : Directive} {r : Relation} (h : directive.Declares r) :
    relation directive = .ok r := by
  obtain ⟨type, direction⟩ := r
  obtain ⟨-, hknown, htype, hne, hdirection⟩ := h
  have hempty : type.isEmpty = false := by simpa using hne
  simp only [relation, unexpected?_eq_none_iff.2 hknown, htype, hempty]
  cases hdirection with
  | absent habsent =>
    rw [habsent]
    rfl
  | string hstring hword =>
    rw [hstring]
    simp only [if_true, parse?_eq_some_iff.2 hword]
    rfl
  | symbol hsymbol hword =>
    rw [hsymbol]
    simp only [if_true, parse?_eq_some_iff.2 hword]
    rfl

theorem relation_eq_ok_iff {directive : Directive} {r : Relation}
    (hname : directive.name = "relation") : relation directive = .ok r ↔ directive.Declares r :=
  ⟨declares_of_relation hname, relation_of_declares⟩

/-- After a relation no other directive is accepted. -/
theorem relation?_some_eq_ok_iff {type field : String} {r : Relation} {directives : List Directive}
    {r? : Option Relation} :
    relation? type field (some r) directives = .ok r? ↔ directives = [] ∧ r? = some r := by
  cases directives with
  | nil => simp [relation?, eq_comm]
  | cons directive rest =>
    rw [relation?]
    split_ifs with hname hfound
    · simp
    · simp
    · exact absurd rfl hfound

theorem relation?_eq_ok_iff {type field : String} {directives : List Directive}
    {r? : Option Relation} :
    relation? type field none directives = .ok r? ↔ Directive.AllDeclare directives r? := by
  cases directives with
  | nil =>
    rw [relation?, Except.ok.injEq]
    constructor
    · rintro rfl
      exact .none
    · intro hdeclare
      cases hdeclare
      rfl
  | cons directive rest =>
    by_cases hname : directive.name = "relation"
    · rw [relation?, if_neg (by simpa using hname), if_neg (by simp), Bind.bind]
      change Except.bind _ _ = _ ↔ _
      simp only [bind_eq_ok_iff, mapError_eq_ok_iff, relation_eq_ok_iff hname,
        relation?_some_eq_ok_iff]
      constructor
      · rintro ⟨r, hdeclares, rfl, rfl⟩
        exact .one hdeclares
      · intro hdeclare
        cases hdeclare with
        | one hdeclares => exact ⟨_, hdeclares, rfl, rfl⟩
    · rw [relation?, if_pos (by simpa using hname)]
      constructor
      · intro hrefused
        cases hrefused
      · intro hdeclare
        cases hdeclare with
        | one hdeclares => exact absurd hdeclares.name_eq hname

/-! ### Arguments and fields -/

/-- A leaf has no entities in it. -/
theorem isLeaf_iff {kind : Kind} : kind.isLeaf = true ↔ ¬ kind.IsObjectValued := by
  rw [Kind.isObjectValued_iff, Kind.isLeaf]
  cases kind.target? <;> simp

/-- Arguments of different names are resolved one by one. -/
theorem exists_arguments {d : Declarations} {type field : String} {seen : List String}
    {arguments : List ArgumentDefinition}
    (hkinds : ∀ a ∈ arguments, ∃ kind, d.kind (type ++ "." ++ field) a.type = .ok kind ∧
      kind.isLeaf = true)
    (hnodup : (arguments.map (·.name)).Nodup) (hnew : ∀ n ∈ arguments.map (·.name), n ∉ seen) :
    ∃ found, d.arguments type field seen arguments = .ok found := by
  induction arguments generalizing seen with
  | nil => exact ⟨[], rfl⟩
  | cons a rest ih =>
    obtain ⟨hfirst, hothers⟩ := List.forall_mem_cons.1 hkinds
    obtain ⟨kind, hkind, hleaf⟩ := hfirst
    obtain ⟨hrest, hnewer⟩ := distinct_tail hnodup hnew
    obtain ⟨found, hfound⟩ := ih hothers hrest hnewer
    have hseen : a.name ∉ seen := hnew a.name List.mem_cons_self
    simp [Declarations.arguments, Bind.bind, Except.bind, pure, Except.pure, hseen, hkind, hleaf,
      hfound]

/-- Fields of different names are resolved one by one. -/
theorem exists_fields {d : Declarations} {isRoot : Bool} {type : String} {seen : List String}
    {fields : List FieldDefinition} (hfields : ∀ f ∈ fields, ∃ g, d.field isRoot type f = .ok g)
    (hnodup : (fields.map (·.name)).Nodup) (hnew : ∀ n ∈ fields.map (·.name), n ∉ seen) :
    ∃ found, d.fields isRoot type seen fields = .ok found := by
  induction fields generalizing seen with
  | nil => exact ⟨[], rfl⟩
  | cons f rest ih =>
    obtain ⟨⟨g, hg⟩, hothers⟩ := List.forall_mem_cons.1 hfields
    obtain ⟨hrest, hnewer⟩ := distinct_tail hnodup hnew
    obtain ⟨found, hfound⟩ := ih hothers hrest hnewer
    have hseen : f.name ∉ seen := hnew f.name List.mem_cons_self
    simp [Declarations.fields, Bind.bind, Except.bind, pure, Except.pure, hseen, hg, hfound]

theorem checkRelation_ofDefinitions_iff {isRoot : Bool} {type field : String} {kind : Kind}
    {r? : Option Relation} :
    (ofDefinitions definitions).checkRelation isRoot type field kind r? = .ok () ↔
      (isRoot = true → kind.IsObjectValued ∧ r? = none) ∧
      (isRoot = false → (r?.isSome = true ↔ kind.IsObjectValued)) ∧
      ¬ Kind.Contains (.entity (rootName definitions)) kind := by
  rw [checkRelation_eq_ok_iff, Kind.contains_entity_iff, Kind.isObjectValued_iff, ← Bool.eq_iff_iff]
  cases isRoot <;> simp

section Collectable

variable (hc : Collectable definitions)

include hc

/-- A legal field is resolved. -/
theorem exists_field {f : FieldDefinition} {isRoot : Bool} {kind : Kind} {r? : Option Relation}
    (h : f.LegalAs definitions isRoot kind r?) (type : String) :
    ∃ g, (ofDefinitions definitions).field isRoot type f = .ok g := by
  have hkind : (ofDefinitions definitions).kind (type ++ "." ++ f.name) f.type = .ok kind :=
    (kind_eq_ok_iff hc).2 h.kind_eq
  have hcheck : (ofDefinitions definitions).checkRelation isRoot type f.name kind r? = .ok () :=
    checkRelation_ofDefinitions_iff.2 ⟨h.root, h.other, h.target⟩
  have hleaves : ∀ a ∈ f.arguments, ∃ kind,
      (ofDefinitions definitions).kind (type ++ "." ++ f.name) a.type = .ok kind ∧
        kind.isLeaf = true := by
    intro a ha
    obtain ⟨kind, hkind, hleaf, -⟩ := h.arguments a ha
    exact ⟨kind, (kind_eq_ok_iff hc).2 hkind, isLeaf_iff.2 hleaf⟩
  have hnew : ∀ n ∈ f.arguments.map (·.name), n ∉ ([] : List String) := fun _ _ => List.not_mem_nil
  obtain ⟨arguments, hfound⟩ := exists_arguments hleaves h.nodup hnew
  simp [Declarations.field, Bind.bind, Except.bind, pure, Except.pure, hkind,
    relation?_eq_ok_iff.2 h.relation_eq, hcheck, hfound]

/-- A legal object is resolved. -/
theorem exists_object {o : ObjectDefinition} (h : o.Legal definitions) :
    ∃ t, (ofDefinitions definitions).object o = .ok t := by
  have hfields : ∀ f ∈ o.fields, ∃ g, (ofDefinitions definitions).field
      (o.name == rootName definitions) o.name f = .ok g := by
    intro f hf
    obtain ⟨kind, r?, hlegal⟩ := h.fields f hf
    exact exists_field hc hlegal o.name
  have hnew : ∀ n ∈ o.fields.map (·.name), n ∉ ([] : List String) := fun _ _ => List.not_mem_nil
  obtain ⟨fields, hfound⟩ := exists_fields hfields h.nodup hnew
  simp [Declarations.object, Bind.bind, Except.bind, pure, Except.pure, hfound]

/-- A field that is resolved says what its definition says. -/
theorem becomes_of_fieldOk {f : FieldDefinition} {isRoot : Bool} {type : String} {g : Field}
    (h : FieldOk (ofDefinitions definitions) isRoot type f g) : f.Becomes definitions g where
  name_eq := h.name_eq
  kind := (kind_eq_ok_iff hc).1 h.kind_eq
  relation := relation?_eq_ok_iff.1 h.relation_eq
  arguments := (arguments_eq_ok h.arguments_eq).1.imp fun _ _ ⟨hname, hdefault, _, hkind⟩ =>
    ⟨hname, (kind_eq_ok_iff hc).1 hkind, hdefault⟩

/-- An object is resolved to a type that says what its definition says. -/
theorem becomes_of_objectOk {o : ObjectDefinition} {t : ObjectType}
    (h : ObjectOk (ofDefinitions definitions) o t) : o.Becomes definitions t where
  name_eq := h.name_eq
  fields := h.fields_ok.imp fun _ _ => becomes_of_fieldOk hc

/-- A field that is resolved is legal, if defaults fit the kinds that its arguments have. -/
theorem legalAs_of_fieldOk {f : FieldDefinition} {isRoot : Bool} {type : String} {g : Field}
    (h : FieldOk (ofDefinitions definitions) isRoot type f g)
    (hdefaults : ∀ a ∈ g.arguments, ∀ v ∈ a.default?, v.Fits definitions a.kind) :
    f.LegalAs definitions isRoot g.kind g.relation? := by
  obtain ⟨hroot, hother, htarget⟩ := checkRelation_ofDefinitions_iff.1 h.relation_ok
  obtain ⟨harguments, hnodup, -⟩ := arguments_eq_ok h.arguments_eq
  refine ⟨(kind_eq_ok_iff hc).1 h.kind_eq, relation?_eq_ok_iff.1 h.relation_eq, hroot, hother,
    htarget, hnodup, fun a ha => ?_⟩
  obtain ⟨b, hb, -, hdefault, hleaf, hkind⟩ := exists_left_of_mem harguments.flip ha
  exact ⟨b.kind, (kind_eq_ok_iff hc).1 hkind, isLeaf_iff.1 hleaf, hdefault ▸ hdefaults b hb⟩

end Collectable

end Declarations

namespace Schema

variable {schema schema' : Schema} {definitions : List Definition} {types : List ObjectType}

/-! ### Defaults -/

theorem Admits.congr (h : schema.enum? = schema'.enum?) {kind : Kind} {v : Value}
    (hadmits : schema.Admits kind v) : schema'.Admits kind v := by
  induction hadmits with
  | symbol htype hsymbol => exact .symbol (h ▸ htype) hsymbol
  | list _ ih => exact .list ih
  | single hlist _ ih => exact .single hlist ih
  | null kind => exact .null kind
  | var kind name => exact .var kind name
  | _ => constructor

/-- Every default may be given at the kind of its argument exactly if the check passes. -/
theorem checkDefaults_eq_ok_iff : schema.checkDefaults = .ok () ↔
    ∀ t ∈ schema.root :: schema.types, ∀ f ∈ t.fields, ∀ a ∈ f.arguments, ∀ v ∈ a.default?,
      schema.Admits a.kind v := by
  have hone (type field : String) (a : ArgumentDeclaration) :
      schema.checkDefault type field a = .ok () ↔ ∀ v ∈ a.default?, schema.Admits a.kind v := by
    simp only [checkDefault, ← exists_literal?_iff]
    cases a.default? with
    | none => simp
    | some v => cases hliteral : schema.literal? a.kind v <;> simp [hliteral]
  simp only [checkDefaults, forM_eq_ok_iff, hone]

/-- A value fits among definitions exactly if it may be given in their schema. -/
theorem fits_iff_admits (hc : Collectable definitions)
    (henums : schema.enums = sortByName (·.name) (enumsOf definitions)) {kind : Kind} {v : Value} :
    v.Fits definitions kind ↔ schema.Admits kind v := by
  have hnodup : ((enumsOf definitions).map (·.name)).Nodup :=
    (List.nodup_append.1 hc.distinct.nodup_objects_enums).2.1
  have henum : enum? ⟨default, [], enumsOf definitions⟩ = schema.enum? := by
    funext name
    rw [enum?, enum?, henums]
    exact find?_eq_of_perm hnodup (perm_sortByName _).symm name
  exact ⟨.congr henum, .congr henum.symm⟩

/-! ### Schemas -/

/-- A schema says what the definitions say that it was resolved from. -/
theorem presents_of_resolve (h : (resolve definitions).result = .ok schema) :
    schema.Presents definitions := by
  obtain ⟨hc, types, hok⟩ := exists_assembledFrom_ofDefinitions h
  refine ⟨hok.root_name, ⟨types, ?_, hok.perm_types⟩, ?_⟩
  · exact hok.objects_ok.imp fun _ _ => becomes_of_objectOk hc
  · rw [hok.enums_eq]
    exact perm_sortByName _

/-- Legal definitions are resolved. -/
theorem exists_resolve (h : Definition.AllLegal definitions) :
    ∃ schema, (resolve definitions).result = .ok schema := by
  have hobjects : ∀ o ∈ (ofDefinitions definitions).objects,
      ∃ t, (ofDefinitions definitions).object o = .ok t := fun o ho =>
    exists_object h.collectable (h.objects o (mem_objectsOf_iff.1 ho))
  obtain ⟨types, htypes⟩ := exists_mapM_eq_ok_iff.2 hobjects
  rw [mapM_eq_ok_iff] at htypes
  -- The root is one of the objects, so its type is found.
  obtain ⟨o, ho, hname⟩ := h.root
  obtain ⟨t, ht, hobject⟩ := exists_left_of_mem htypes.flip (mem_objectsOf_iff.2 ho)
  have hsome : (types.find? (·.name == (ofDefinitions definitions).root)).isSome = true := by
    rw [List.find?_isSome]
    exact ⟨t, ht, by simpa using (object_eq_ok hobject).name_eq.trans hname⟩
  obtain ⟨root, hroot⟩ := Option.isSome_iff_exists.1 hsome
  have hcollect := collect_eq_ok_iff.2 ⟨h.collectable, rfl⟩
  exact ⟨⟨root, _, _⟩, resolve_eq_ok_iff.2 ⟨_, types, hcollect, htypes, hroot, rfl, rfl⟩⟩

/-- The defaults of legal definitions pass their check. -/
theorem checkDefaults_of_allLegal (h : Definition.AllLegal definitions)
    (hresolve : (resolve definitions).result = .ok schema) : schema.checkDefaults = .ok () := by
  obtain ⟨hc, types, hok⟩ := exists_assembledFrom_ofDefinitions hresolve
  rw [checkDefaults_eq_ok_iff]
  intro t ht f hf b hb v hv
  obtain ⟨o, ho, fd, hfd, hfield⟩ := hok.exists_fieldOk ht hf
  obtain ⟨_, _, hlegal⟩ := (h.objects o ho).fields fd hfd
  obtain ⟨a, ha, -, hdefault, -, hkind⟩ :=
    exists_left_of_mem (arguments_eq_ok hfield.arguments_eq).1 hb
  obtain ⟨kind, hdenotes, -, hfits⟩ := hlegal.arguments a ha
  -- The reference stands for one kind only.
  rw [(kind_eq_ok_iff hc).2 hdenotes] at hkind
  cases hkind
  exact (fits_iff_admits hc hok.enums_eq).1 (hfits v (hdefault ▸ hv))

/-- Definitions that declare a schema are legal. -/
theorem DeclaredBy.allLegal (h : schema.DeclaredBy definitions) :
    Definition.AllLegal definitions := by
  obtain ⟨hresolve, hdefaults⟩ := h
  obtain ⟨hc, types, hok⟩ := exists_assembledFrom_ofDefinitions hresolve
  rw [checkDefaults_eq_ok_iff] at hdefaults
  refine ⟨hc, ?_, fun o ho => ?_⟩
  · obtain ⟨o, ho, hobject⟩ :=
      exists_left_of_mem hok.objects_ok (List.mem_of_find?_eq_some hok.root_eq)
    exact ⟨o, mem_objectsOf_iff.1 ho, hobject.name_eq.symm.trans hok.root_name⟩
  · obtain ⟨t, ht, hobject⟩ := exists_left_of_mem hok.objects_ok.flip (mem_objectsOf_iff.2 ho)
    refine ⟨hobject.nodup, fun f hf => ?_⟩
    obtain ⟨g, hg, hfield⟩ := exists_left_of_mem hobject.fields_ok.flip hf
    refine ⟨g.kind, g.relation?, legalAs_of_fieldOk hc hfield fun a ha v hv => ?_⟩
    exact (fits_iff_admits hc hok.enums_eq).2
      (hdefaults t (hok.perm_types.mem_iff.2 ht) g hg a ha v hv)

/-- Definitions are legal exactly if they declare a schema, and the schema says what they say. -/
theorem allLegal_iff_exists_declaredBy (definitions : List Definition) :
    Definition.AllLegal definitions ↔
      ∃ schema : Schema, schema.DeclaredBy definitions ∧ schema.Presents definitions := by
  constructor
  · intro h
    obtain ⟨schema, hresolve⟩ := exists_resolve h
    exact ⟨schema, ⟨hresolve, checkDefaults_of_allLegal h hresolve⟩, presents_of_resolve hresolve⟩
  · rintro ⟨schema, hdeclared, -⟩
    exact hdeclared.allLegal

/-- The films, with names used before they are defined, are legal. -/
theorem allLegal_iff_exists_declaredBy_films :
    Definition.AllLegal filmDefinitions ∧ ∃ schema : Schema, schema.root.name = "Root" ∧
      schema.DeclaredBy filmDefinitions ∧ schema.Presents filmDefinitions := by
  obtain ⟨schema, hroot, hdeclared⟩ := exists_declaredBy_films
  have hpresents : schema.Presents filmDefinitions := presents_of_resolve hdeclared.1
  exact ⟨(allLegal_iff_exists_declaredBy _).2 ⟨schema, hdeclared, hpresents⟩, schema, hroot,
    hdeclared, hpresents⟩

end Schema

end GraphQuery
