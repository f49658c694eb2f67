import GraphQuery.Proofs.Compilation.Defaults

/-!
# What an error says about a selection

The compiler looks up types and enums by name and could fail to find them. Where a schema has been
loaded it finds them all, so that every error has its cause in the selection: an argument that does
not fit, a field that does not exist, something selected where there is nothing below, or nothing
selected where something has to be.

A type is unknown then only in one sense: there is no root field of the name that is selected. And
a relation is missing only where something is selected below a property.

## Main definitions

* `Schema.KnowsEnums`: the enums in a kind are enums of the schema.
* `CompileError.IsArgumentError`: the error is about arguments.
* `Selection.Reaches`: a root selection reaches a selection below it, at nodes of a type.
* `CompileError.Explained`: the error is caused by something in a root selection.

## Main results

* `Schema.failsWith_literal`, `Filter.failsWith_ofSelection`, `Paging.failsWith_page`: arguments
  fail with errors about arguments.
* `Compilation.explained_entry`, `Compilation.explained_statement`: every error is explained.
* `Compilation.internal_errors_unreachable`: the errors that a loaded schema rules out.
-/

namespace GraphQuery

theorem FailsWith.imp {ε α : Type} {P Q : ε → Prop} {x : Except ε α} (h : FailsWith P x)
    (himp : ∀ e, P e → Q e) : FailsWith Q x :=
  fun e he => himp e (h e he)

theorem FailsWith.map {ε α β : Type} {P : ε → Prop} {x : Except ε α} (h : FailsWith P x)
    (f : α → β) : FailsWith P (x.map f) := by
  cases x with
  | ok a => exact .of_exists_ok ⟨f a, rfl⟩
  | error e => exact .error (h e rfl)

/-! ### Values -/

/-- The error is about the arguments of a selection. -/
inductive CompileError.IsArgumentError : CompileError → Prop
  | mismatch (expected : Expectation) (place : Option ArgumentPlace) (found : Value) :
    IsArgumentError (.typeMismatch expected place found)
  | unknown (field argument : String) : IsArgumentError (.unknownArgument field argument)

open CompileError

namespace Schema

variable {schema : Schema} {kind : Kind}

/-- The enums in a kind are enums of the schema. -/
def KnowsEnums (schema : Schema) (kind : Kind) : Prop :=
  ∀ name, Kind.Contains (.enum name) kind → (schema.enum? name).isSome = true

theorem KnowsEnums.of_list {inner : Kind} (h : schema.KnowsEnums (.list inner)) :
    schema.KnowsEnums inner :=
  fun name hname => h name (.list hname)

theorem failsWith_scalarLiteral (scalar : Scalar) (v : Value) :
    FailsWith IsArgumentError (scalar.literal v) := by
  intro e he
  unfold Scalar.literal at he
  split at he
  iterate 8 cases he
  cases he
  exact .mismatch _ _ _

theorem failsWith_enumLiteral {name : String} (h : (schema.enum? name).isSome = true) (v : Value) :
    FailsWith IsArgumentError (schema.enumLiteral name v) := by
  obtain ⟨type, htype⟩ := Option.isSome_iff_exists.1 h
  unfold enumLiteral
  split
  · rw [htype]
    simp only
    split
    · exact .of_exists_ok ⟨_, rfl⟩
    · exact .error (.mismatch _ _ _)
  · exact .error (.mismatch _ _ _)

/-- Null and variables never fail, and all other values fail as they do at the kind. -/
theorem failsWith_literal?_of_literal {P : CompileError → Prop} {v : Value}
    (h : FailsWith P (schema.literal kind v)) : FailsWith P (schema.literal? kind v) := by
  cases v with
  | null => exact .of_exists_ok ⟨none, rfl⟩
  | var name => exact .of_exists_ok ⟨_, rfl⟩
  | _ =>
    rw [literal?_of_constant kind (by simp) (by simp)]
    exact h.map some

/-- Where the enums in a kind are known, a value fails with a mismatch only. -/
theorem failsWith_literal (h : schema.KnowsEnums kind) (v : Value) :
    FailsWith IsArgumentError (schema.literal kind v) := by
  induction kind generalizing v with
  | scalar scalar => exact failsWith_scalarLiteral scalar v
  | enum name => exact failsWith_enumLiteral (h name .self) v
  | entity name => exact .error (.mismatch _ _ _)
  | list inner ih =>
    by_cases hlist : ∃ items, v = .list items
    · obtain ⟨items, rfl⟩ := hlist
      rw [literal_list]
      -- Items may be null or variables, which the kind is not asked about.
      apply FailsWith.map
      apply FailsWith.mapM
      intro item _
      exact (failsWith_literal?_of_literal (ih h.of_list item)).map _
    · rw [not_exists] at hlist
      rw [literal_single schema inner hlist]
      exact (ih h.of_list v).map _

end Schema

/-! ### Arguments -/

section Arguments

variable {schema : Schema} {settings : Settings} {field : Field} {target : ObjectType}

/-- All enums in the kinds of fields and arguments are enums of the schema. -/
def Schema.EnumsKnown (schema : Schema) : Prop :=
  ∀ t ∈ schema.root :: schema.types, ∀ f ∈ t.fields,
    ∀ kind ∈ f.kind :: f.arguments.map (·.kind), schema.KnowsEnums kind

theorem Schema.enumsKnown_of_load {text : String} (h : (load text).result = .ok schema) :
    schema.EnumsKnown := by
  obtain ⟨definitions, d, types, hok⟩ := exists_assembledFrom_of_load h
  intro t ht f hf kind hkind name hname
  have hmem := hok.enum_known ht hf hkind hname
  simpa [enum?, List.find?_isSome] using hmem

theorem CompileError.IsArgumentError.located {e : CompileError} (h : e.IsArgumentError)
    (place : ArgumentPlace) : (e.located place).IsArgumentError := by
  cases h with
  | mismatch expected _ found => exact .mismatch expected (some place) found
  | unknown field argument => exact .unknown field argument

theorem Filter.failsWith_equality? {c : Candidate} (h : schema.KnowsEnums c.kind) (s : Selection) :
    FailsWith IsArgumentError (equality? schema field s c) := by
  unfold equality?
  split
  · exact .of_exists_ok ⟨none, rfl⟩
  · next v _ =>
    have hliteral := Schema.failsWith_literal?_of_literal (Schema.failsWith_literal h v)
    apply FailsWith.map
    intro e he
    cases hresult : schema.literal? c.kind v with
    | ok l? =>
      rw [hresult] at he
      cases he
    | error e' =>
      rw [hresult] at he
      cases he
      exact (hliteral e' hresult).located _

/-- The candidates take their kinds from the arguments of the field and the fields of the target. -/
theorem Candidate.knowsEnums (settings : Settings) (henums : schema.EnumsKnown) {type : ObjectType}
    (htype : type ∈ schema.root :: schema.types) (hfield : field ∈ type.fields)
    (htarget : target ∈ schema.types) (hnodup : (target.fields.map (·.name)).Nodup) :
    ∀ c ∈ all settings field target, schema.KnowsEnums c.kind := by
  intro c hc
  rcases (mem_all_iff hnodup).1 hc with ⟨a, ha, -, rfl⟩ | ⟨-, p, hp, -, -, -, rfl⟩
  · exact henums type htype field hfield a.kind (List.mem_cons_of_mem _ (List.mem_map_of_mem ha))
  · exact henums target (List.mem_cons_of_mem _ htarget) p hp p.kind List.mem_cons_self

/-- Filters fail with errors about arguments. -/
theorem Filter.failsWith_ofSelection
    (h : ∀ c ∈ Candidate.all settings field target, schema.KnowsEnums c.kind) (bound : String)
    (s : Selection) :
    FailsWith IsArgumentError (ofSelection schema settings bound field target s).result := by
  rw [result_ofSelection]
  split
  · exact .error (.unknown _ _)
  · apply FailsWith.map
    exact .mapM fun c hc => failsWith_equality? (h c hc) s

/-- Pages fail with errors about arguments. -/
theorem Paging.failsWith_page (settings : Settings) (field : Field) (s : Selection) :
    FailsWith IsArgumentError (ofSelection settings field s) := by
  have hbound (name : String) : FailsWith IsArgumentError (bound? name field s) := by
    intro e he
    unfold bound? at he
    split at he
    · cases he
    · rw [(ofValue_eq_error he).2]
      exact .mismatch _ _ _
  apply (hbound settings.firstArgument).bind
  intro first _
  apply (hbound settings.offsetArgument).bind
  intro offset _
  exact .of_exists_ok ⟨⟨first, offset⟩, rfl⟩

end Arguments

/-! ### Selections -/

/-- A root selection reaches a selection at nodes of a type: directly below it, or below one that it
reaches and that follows a relation. -/
inductive Selection.Reaches (schema : Schema) (root : Selection) : ObjectType → Selection → Prop
  | direct {field : Field} {type : ObjectType} {t : Selection}
    (hfield : schema.root.field? root.name = some field)
    (htype : schema.target? field = some type) (ht : t ∈ root.selections) :
    Reaches schema root type t
  | nested {type inner : ObjectType} {field : Field} {s t : Selection}
    (h : Reaches schema root type s) (hfield : type.field? s.name = some field)
    (hrelation : field.relation?.isSome = true) (htype : schema.target? field = some inner)
    (ht : t ∈ s.selections) : Reaches schema root inner t

/-- The error is caused by something in a root selection, and names it. -/
inductive CompileError.Explained (schema : Schema) (settings : Settings) (root : Selection) :
    CompileError → Prop
  /-- There is no root field of the name. -/
  | unknownRoot (hfield : schema.root.field? root.name = none) :
    Explained schema settings root (.unknownType root.name (.rootField root.name schema.root.name))
  /-- Nothing is selected below a root field. -/
  | emptyRoot {field : Field} (hfield : schema.root.field? root.name = some field)
    (hbelow : root.selections = []) :
    Explained schema settings root (.missingSelection schema.root.name field.name)
  /-- The arguments of some selection do not fit. -/
  | argument {e : CompileError} (h : e.IsArgumentError) : Explained schema settings root e
  /-- There is no field of the name. -/
  | unknownField {type : ObjectType} {t : Selection} (h : root.Reaches schema type t)
    (hfield : type.field? t.name = none) :
    Explained schema settings root (.unknownField type.name t.name)
  /-- Something is selected below a field that follows no relation. -/
  | notRelated {type : ObjectType} {t : Selection} {field : Field}
    (h : root.Reaches schema type t) (hfield : type.field? t.name = some field)
    (hrelation : field.relation? = none) (hbelow : t.selections ≠ []) :
    Explained schema settings root (.unresolvedRelation type.name field.name)
  /-- Nothing is selected below a field that follows a relation. -/
  | empty {type : ObjectType} {t : Selection} {field : Field} (h : root.Reaches schema type t)
    (hfield : type.field? t.name = some field) (hrelation : field.relation?.isSome = true)
    (hbelow : t.selections = []) :
    Explained schema settings root (.missingSelection type.name field.name)
  /-- A selection stands too deep. -/
  | tooDeep {depth : Nat} (h : settings.maxDepth < depth) :
    Explained schema settings root (.tooDeep depth settings.maxDepth)

namespace Compilation

variable {schema : Schema} {settings : Settings} {scope : Scope} {root : Selection}

theorem mem_types_of_target? {field : Field} {type : ObjectType}
    (h : schema.target? field = some type) : type ∈ schema.types := by
  obtain ⟨name, -, hname⟩ := Schema.target?_eq_some_iff.1 h
  exact (Schema.mem_of_type? hname).1

theorem mem_types_of_reaches {type : ObjectType} {t : Selection}
    (h : root.Reaches schema type t) : type ∈ schema.types := by
  cases h with
  | direct _ htype _ => exact mem_types_of_target? htype
  | nested _ _ _ htype _ => exact mem_types_of_target? htype

/-- A relation that is followed leads somewhere. -/
theorem exists_hop (hwell : schema.WellFormed) {field : Field}
    (htype : scope.entity ∈ schema.types) (hfield : field ∈ scope.entity.fields)
    (hrelation : field.relation?.isSome = true) : ∃ next, hop schema scope field = .ok next := by
  obtain ⟨name, target, hname, htarget⟩ :=
    hwell.relation_target scope.entity htype field hfield hrelation
  obtain ⟨relation, hrelation⟩ := Option.isSome_iff_exists.1 hrelation
  exact ⟨(relation, target), hop_eq_ok_iff.2 ⟨hrelation, name, hname, htarget⟩⟩

theorem explained_enter (bound : String) (target : ObjectType) :
    FailsWith (Explained schema settings root)
      (scope.enter settings.maxDepth bound target) := by
  intro e he
  simp only [Scope.enter] at he
  split_ifs at he with hdepth
  cases he
  exact .tooDeep hdepth

/-- Below a root selection every error is explained. -/
theorem explained_entry (hwell : schema.WellFormed) (henums : schema.EnumsKnown) (s : Selection)
    (hs : root.Reaches schema scope.entity s) :
    FailsWith (Explained schema settings root) (entry schema settings scope s).result := by
  induction s using Selection.inductionOn generalizing scope with
  | step s ih =>
    have htype := mem_types_of_reaches hs
    rw [result_entry]
    cases hfield : scope.entity.field? s.name with
    | none => exact .error (.unknownField hs hfield)
    | some field =>
      have hmem : field ∈ scope.entity.fields := List.mem_of_find?_eq_some hfield
      simp only [result_property]
      split_ifs with hrelation hbelow hbelow
      · exact .of_exists_ok ⟨_, rfl⟩
      · rw [Option.isNone_iff_eq_none] at hrelation
        exact .error (.notRelated hs hfield hrelation (by simpa using hbelow))
      · rw [Option.isNone_iff_eq_none, ← Ne, Option.ne_none_iff_isSome] at hrelation
        exact .error (.empty hs hfield hrelation (by simpa using hbelow))
      · rw [Option.isNone_iff_eq_none, ← Ne, Option.ne_none_iff_isSome] at hrelation
        -- The relation leads to a type, so what can fail are the steps behind the look-up.
        refine .bind (.of_exists_ok (exists_hop hwell htype hmem hrelation)) ?_
        rintro ⟨relation, target⟩ hhop
        obtain ⟨-, name, hname, htarget⟩ := hop_eq_ok_iff.1 hhop
        have hinner := (Schema.mem_of_type? htarget).1
        have hcandidates := Candidate.knowsEnums settings henums (List.mem_cons_of_mem _ htype) hmem
          hinner (hwell.nodup_fields target hinner)
        refine .bind (explained_enter _ _) fun inner hscope => ?_
        obtain ⟨-, rfl⟩ := Scope.enter_eq_ok_iff.1 hscope
        refine .bind ((Filter.failsWith_ofSelection hcandidates _ s).imp fun _ => .argument) ?_
        intro filters _
        refine .bind ((Paging.failsWith_page settings field s).imp fun _ => .argument) ?_
        intro page _
        refine .bind ?_ fun map _ => .of_exists_ok ⟨_, rfl⟩
        rw [result_entries]
        refine .mapM fun t ht => ih t ht ?_
        exact .nested hs hfield hrelation (Schema.target?_eq_some_iff.2 ⟨name, hname, htarget⟩) ht

/-- The look-ups for a root selection fail only where there is no root field of its name, or where
nothing is selected below it. -/
theorem explained_entryPoint (hwell : schema.WellFormed) (root : Selection) :
    FailsWith (Explained schema settings root) (entryPoint schema root) := by
  intro e he
  cases hfield : schema.root.field? root.name with
  | none =>
    simp only [entryPoint, hfield] at he
    cases he
    exact .unknownRoot hfield
  | some field =>
    obtain ⟨name, target, hname, htarget⟩ :=
      hwell.root_target field (List.mem_of_find?_eq_some hfield)
    simp only [entryPoint, hfield, hname, htarget, Bind.bind, Except.bind] at he
    split_ifs at he with hbelow
    · cases he
      exact .emptyRoot hfield (by simpa using hbelow)
    · cases he

/-- Every error of a statement is explained by its root selection. -/
theorem explained_statement (hwell : schema.WellFormed) (henums : schema.EnumsKnown)
    (root : Selection) :
    FailsWith (Explained schema settings root) (statement schema settings root).result := by
  rw [result_statement]
  refine .bind (explained_entryPoint hwell root) ?_
  rintro ⟨field, target⟩ hentry
  obtain ⟨hfield, ⟨name, hname, htarget⟩, -⟩ := entryPoint_eq_ok_iff.1 hentry
  have htype := (Schema.mem_of_type? htarget).1
  have hcandidates := Candidate.knowsEnums settings henums List.mem_cons_self
    (List.mem_of_find?_eq_some hfield) htype (hwell.nodup_fields target htype)
  refine .bind ((Filter.failsWith_ofSelection hcandidates _ root).imp fun _ => .argument) ?_
  intro filters _
  refine .bind ((Paging.failsWith_page settings field root).imp fun _ => .argument) ?_
  intro page _
  refine .bind ?_ fun map _ => .of_exists_ok ⟨_, rfl⟩
  rw [result_entries]
  refine .mapM fun t ht => explained_entry hwell henums t ?_
  exact .direct hfield (Schema.target?_eq_some_iff.2 ⟨name, hname, htarget⟩) ht

/-- What a schema that loads rules out. A type is unknown only if there is no root field of the name
that is selected. A relation is missing only if something is selected below a field of an entity
type that follows none; for every other field that is reached, the relation is found and leads to a
type. -/
theorem internal_errors_unreachable {text : String} {schema : Schema}
    (hload : (Schema.load text).result = .ok schema) (settings : Settings) (root : Selection) :
    (∀ name use, (statement schema settings root).result = .error (.unknownType name use) →
      schema.root.field? root.name = none ∧ name = root.name ∧
        use = .rootField root.name schema.root.name) ∧
    (∀ typeName fieldName, (statement schema settings root).result =
        .error (.unresolvedRelation typeName fieldName) →
      typeName ≠ schema.root.name ∧ ∃ type t field, root.Reaches schema type t ∧
        type.field? t.name = some field ∧ field.relation? = none ∧ t.selections ≠ [] ∧
          typeName = type.name ∧ fieldName = field.name) ∧
    ∀ scope t field, root.Reaches schema scope.entity t → scope.entity.field? t.name = some field →
      field.relation?.isSome = true → ∃ next, hop schema scope field = .ok next := by
  have hwell := Schema.wellFormed_of_load hload
  have hexplained {e : CompileError} (h : (statement schema settings root).result = .error e) :
      e.Explained schema settings root :=
    explained_statement hwell (Schema.enumsKnown_of_load hload) root e h
  refine ⟨?_, ?_, ?_⟩
  · intro name use h
    cases hexplained h with
    | unknownRoot hfield => exact ⟨hfield, rfl, rfl⟩
    | argument hargument => cases hargument
  · intro typeName fieldName h
    cases hexplained h with
    | @notRelated type t field hreach hfield hrelation hbelow =>
      obtain ⟨definitions, d, types, hok⟩ := Schema.exists_assembledFrom_of_load hload
      exact ⟨hok.name_ne_root (mem_types_of_reaches hreach), type, t, field, hreach, hfield,
        hrelation, hbelow, rfl, rfl⟩
    | argument hargument => cases hargument
  · intro scope t field hreach hfield
    exact exists_hop hwell (mem_types_of_reaches hreach) (List.mem_of_find?_eq_some hfield)

/-- The variant of an error, if there is one. -/
def variant? {α : Type} : Except CompileError α → Option Variant
  | .ok _ => none
  | .error e => some e.variant

/-- A root selection without a root field. -/
def selectNobody : Selection := ⟨none, "nobody", [], [⟨none, "name", [], []⟩]⟩

/-- A root selection with something below a property. -/
def selectBelowName : Selection :=
  ⟨none, "people", [], [⟨none, "name", [], [⟨none, "length", [], []⟩]⟩]⟩

/-- Both errors do occur, for the causes that are left. -/
theorem internal_errors_unreachable_people :
    ∃ schema, (Schema.load Schema.peopleText).result = .ok schema ∧
      (∃ name use, (statement schema {} selectNobody).result = .error (.unknownType name use) ∧
        schema.root.field? "nobody" = none) ∧
      ∃ typeName fieldName, (statement schema {} selectBelowName).result =
          .error (.unresolvedRelation typeName fieldName) ∧
        ∃ type t field, selectBelowName.Reaches schema type t ∧ type.field? t.name = some field ∧
          field.relation? = none ∧ t.selections ≠ [] := by
  have hsome : ((Schema.load Schema.peopleText).result.toOption.map fun schema =>
      (variant? (statement schema {} selectNobody).result,
        variant? (statement schema {} selectBelowName).result)) =
      some (some .unknownType, some .unresolvedRelation) := by
    decide +kernel
  obtain ⟨schema, hschema, hvariants⟩ := Option.map_eq_some_iff.1 hsome
  have hload := toOption_eq_some_iff.1 hschema
  rw [Prod.mk.injEq] at hvariants
  obtain ⟨hnobody, hname⟩ := hvariants
  refine ⟨schema, hload, ?_, ?_⟩
  · cases hresult : (statement schema {} selectNobody).result with
    | ok stmt => simp [hresult, variant?] at hnobody
    | error e =>
      cases e with
      | unknownType name use =>
        obtain ⟨hfield, -, -⟩ := (internal_errors_unreachable hload {} _).1 name use hresult
        exact ⟨name, use, rfl, hfield⟩
      | _ => simp [hresult, variant?, variant] at hnobody
  · cases hresult : (statement schema {} selectBelowName).result with
    | ok stmt => simp [hresult, variant?] at hname
    | error e =>
      cases e with
      | unresolvedRelation typeName fieldName =>
        obtain ⟨-, type, t, field, hreach, hfield, hrelation, hbelow, -, -⟩ :=
          (internal_errors_unreachable hload {} _).2.1 typeName fieldName hresult
        exact ⟨typeName, fieldName, rfl, type, t, field, hreach, hfield, hrelation, hbelow⟩
      | _ => simp [hresult, variant?, variant] at hname

end Compilation

end GraphQuery
