import Mathlib.Data.List.Induction
import GraphQuery.Proofs.Schema.Consistency

/-!
# Which definitions can be collected

Collecting goes through the definitions one by one and stops at the first that is in the way of an
earlier one. Whether it comes to the end does not depend on the order: names have to differ, and
there may be one schema block at most. What has been collected then are the definitions themselves,
sorted by what they define.

## Main definitions

* `Declarations.typeNames`, `Declarations.enumsOf`, `Declarations.scalarsOf`,
  `Declarations.blocksOf`: what definitions declare, by sort.
* `Declarations.ofDefinitions`: all of it together.
* `Declarations.Collectable`: nothing is in the way of anything else.
* `Schema.DeclaredBy`: a schema comes from definitions, and its defaults fit.

## Main results

* `Declarations.add_eq_ok_iff`: what one more definition adds.
* `Declarations.collectable_concat_iff`: what makes definitions collectable, from one to the next.
* `Declarations.collect_eq_ok_iff`: definitions are collected exactly if they are collectable.
* `Schema.exists_assembledFrom_ofDefinitions`: what a schema is put together from.
-/

namespace GraphQuery

/-- The name that a definition gives to a type. -/
def Definition.typeName? : Definition → Option String
  | .object o => some o.name
  | .enum e => some e.name
  | .scalar name => some name
  | .schema _ => none

/-- The schema block that a definition is. -/
def Definition.block? : Definition → Option SchemaBlock
  | .schema block => some block
  | _ => none

namespace Declarations

variable {d d' : Declarations} {definitions front : List Definition}

/-! ### What definitions declare -/

/-- The names of the types that are defined. -/
def typeNames (definitions : List Definition) : List String :=
  definitions.filterMap Definition.typeName?

/-- The enums of a list of definitions. -/
def enumsOf (definitions : List Definition) : List EnumType :=
  definitions.filterMap fun
    | .enum e => some ⟨e.name, e.values⟩
    | _ => none

/-- The scalars of a list of definitions. -/
def scalarsOf (definitions : List Definition) : List String :=
  definitions.filterMap fun
    | .scalar name => some name
    | _ => none

/-- The schema blocks of a list of definitions. -/
def blocksOf (definitions : List Definition) : List SchemaBlock :=
  definitions.filterMap Definition.block?

/-- What definitions declare, if nothing is wrong with them. -/
def ofDefinitions (definitions : List Definition) : Declarations where
  names := typeNames definitions
  objects := objectsOf definitions
  enums := enumsOf definitions
  scalars := scalarsOf definitions
  block := (blocksOf definitions).head?

@[simp]
theorem objects_ofDefinitions : (ofDefinitions definitions).objects = objectsOf definitions := rfl

@[simp]
theorem enums_ofDefinitions : (ofDefinitions definitions).enums = enumsOf definitions := rfl

@[simp]
theorem scalars_ofDefinitions : (ofDefinitions definitions).scalars = scalarsOf definitions := rfl

theorem mem_scalarsOf_iff {name : String} :
    name ∈ scalarsOf definitions ↔ .scalar name ∈ definitions := by
  apply mem_filterMap_iff
  intro definition
  cases definition <;> simp

theorem mem_enumsOf_iff {e : EnumType} :
    e ∈ enumsOf definitions ↔ .enum ⟨e.name, e.values⟩ ∈ definitions := by
  apply mem_filterMap_iff (g := fun e : EnumType => .enum ⟨e.name, e.values⟩)
  intro definition
  cases definition with
  | enum e' =>
    cases e
    cases e'
    simp
  | _ => simp

/-! ### One more definition -/

theorem add_of_added {definition : Definition} (h : Added d definition d') :
    (d.add definition).result = .ok d' := by
  have hdeclare {name : String} (hbuiltin : Scalar.builtin? name = none) (hnew : name ∉ d.names) :
      d.declare name = .ok { d with names := d.names ++ [name] } :=
    declare_eq_ok_iff.2 ⟨⟨Option.isNone_iff_eq_none.2 hbuiltin, hnew⟩, rfl⟩
  cases h with
  | object hbuiltin hnew =>
    simp only [add, Logged.result_bind, Logged.result_ofExcept, hdeclare hbuiltin hnew]
    rfl
  | enum hbuiltin hnew hvalues =>
    simp only [add, Logged.result_bind, Logged.result_ofExcept, hdeclare hbuiltin hnew, hvalues]
    rfl
  | scalar hbuiltin hnew =>
    simp only [add, Logged.result_bind, Logged.result_ofExcept, hdeclare hbuiltin hnew]
    rfl
  | schema hblock =>
    rw [add, Logged.result_ite, hblock]
    rfl

theorem add_eq_ok_iff {definition : Definition} :
    (d.add definition).result = .ok d' ↔ Added d definition d' :=
  ⟨add_eq_ok, add_of_added⟩

/-! ### All definitions -/

/-- Nothing is in the way of anything else: the names of types differ and none is built in, the
values of an enum differ, and there is one schema block at most. -/
structure Collectable (definitions : List Definition) : Prop where
  nodup : (typeNames definitions).Nodup
  builtin : ∀ name ∈ typeNames definitions, Scalar.builtin? name = none
  values : ∀ e ∈ enumsOf definitions, e.values.Nodup
  block : (blocksOf definitions).length ≤ 1

/-- Behind a name that is new, names are new if they differ from it, too. -/
theorem distinct_tail {name : String} {names seen : List String} (hnodup : (name :: names).Nodup)
    (hnew : ∀ n ∈ name :: names, n ∉ seen) : names.Nodup ∧ ∀ n ∈ names, n ∉ seen ++ [name] := by
  obtain ⟨hfirst, hrest⟩ := List.nodup_cons.1 hnodup
  refine ⟨hrest, fun n hn hmem => ?_⟩
  rcases List.mem_append.1 hmem with hmem | hmem
  · exact hnew n (List.mem_cons_of_mem name hn) hmem
  · exact hfirst (List.mem_singleton.1 hmem ▸ hn)

theorem firstRepeated?_of_nodup {seen values : List String} (hnodup : values.Nodup)
    (hnew : ∀ v ∈ values, v ∉ seen) : firstRepeated? seen values = none := by
  induction values generalizing seen with
  | nil => rfl
  | cons value rest ih =>
    have hseen : seen.contains value = false := by
      simpa using hnew value List.mem_cons_self
    obtain ⟨hrest, hnewer⟩ := distinct_tail hnodup hnew
    rw [firstRepeated?, hseen]
    exact ih hrest hnewer

theorem firstRepeated?_eq_none_iff {values : List String} :
    firstRepeated? [] values = none ↔ values.Nodup :=
  ⟨fun h => (nodup_of_firstRepeated? h).1, fun h => firstRepeated?_of_nodup h (by simp)⟩

/-- What a definition must be like to be added to definitions that have been collected. -/
structure Addable (front : List Definition) (definition : Definition) : Prop where
  name : ∀ name ∈ definition.typeName?, Scalar.builtin? name = none ∧ name ∉ typeNames front
  values : ∀ e, definition = .enum e → e.values.Nodup
  block : definition.block?.isSome → blocksOf front = []

theorem addable_of_added {definition : Definition} (h : Added (ofDefinitions front) definition d) :
    Addable front definition := by
  have hname {name : String} (hbuiltin : Scalar.builtin? name = none)
      (hnew : name ∉ typeNames front) :
      ∀ n ∈ some name, Scalar.builtin? n = none ∧ n ∉ typeNames front := by
    rintro _ ⟨⟩
    exact ⟨hbuiltin, hnew⟩
  cases h with
  | object hbuiltin hnew => exact ⟨hname hbuiltin hnew, nofun, nofun⟩
  | enum hbuiltin hnew hvalues =>
    refine ⟨hname hbuiltin hnew, ?_, nofun⟩
    rintro _ ⟨⟩
    exact firstRepeated?_eq_none_iff.1 hvalues
  | scalar hbuiltin hnew => exact ⟨hname hbuiltin hnew, nofun, nofun⟩
  | schema hblock => exact ⟨nofun, nofun, fun _ => List.head?_eq_none_iff.1 hblock⟩

theorem filterMap_concat {α : Type} (f : Definition → Option α) (definition : Definition) :
    (front ++ [definition]).filterMap f = front.filterMap f ++ (f definition).toList := by
  rw [List.filterMap_append]
  cases hf : f definition <;> simp [hf]

/-- A definition is added to what the definitions before it declare. -/
theorem added_of_addable {definition : Definition} (h : Addable front definition) :
    Added (ofDefinitions front) definition (ofDefinitions (front ++ [definition])) := by
  -- What is not of the sort of the definition keeps its list.
  cases definition with
  | object o =>
    obtain ⟨hbuiltin, hnew⟩ := h.name o.name rfl
    have hadded : Added (ofDefinitions front) (.object o) _ := .object hbuiltin hnew
    convert hadded using 1
    simp [ofDefinitions, typeNames, objectsOf, enumsOf, scalarsOf, blocksOf, Definition.typeName?,
      Definition.block?]
  | enum e =>
    obtain ⟨hbuiltin, hnew⟩ := h.name e.name rfl
    have hadded : Added (ofDefinitions front) (.enum e) _ :=
      .enum hbuiltin hnew (firstRepeated?_eq_none_iff.2 (h.values e rfl))
    convert hadded using 1
    simp [ofDefinitions, typeNames, objectsOf, enumsOf, scalarsOf, blocksOf, Definition.typeName?,
      Definition.block?]
  | scalar name =>
    obtain ⟨hbuiltin, hnew⟩ := h.name name rfl
    have hadded : Added (ofDefinitions front) (.scalar name) _ := .scalar hbuiltin hnew
    convert hadded using 1
    simp [ofDefinitions, typeNames, objectsOf, enumsOf, scalarsOf, blocksOf, Definition.typeName?,
      Definition.block?]
  | schema block =>
    have hnone : front.filterMap Definition.block? = [] := h.block rfl
    have hadded : Added (ofDefinitions front) (.schema block) _ :=
      .schema (List.head?_eq_none_iff.2 hnone)
    convert hadded using 1
    simp only [ofDefinitions, typeNames, objectsOf, enumsOf, scalarsOf, blocksOf, filterMap_concat,
      hnone, Definition.typeName?, Option.toList_none, List.append_nil]
    rfl

theorem Collectable.nil : Collectable [] where
  nodup := .nil
  builtin := by simp [typeNames]
  values := by simp [enumsOf]
  block := Nat.zero_le 1

/-- Definitions can be collected together with one more exactly if it can be added to them. -/
theorem collectable_concat_iff {definition : Definition} :
    Collectable (front ++ [definition]) ↔ Collectable front ∧ Addable front definition := by
  have hnames : typeNames (front ++ [definition]) =
      typeNames front ++ definition.typeName?.toList := filterMap_concat _ _
  have hblocks : (blocksOf (front ++ [definition])).length =
      (blocksOf front).length + definition.block?.toList.length := by
    rw [blocksOf, filterMap_concat, List.length_append, ← blocksOf]
  constructor
  · rintro ⟨hnodup, hbuiltin, hvalues, hblock⟩
    rw [hnames] at hnodup hbuiltin
    rw [hblocks] at hblock
    refine ⟨⟨hnodup.of_append_left, fun name hname => ?_, fun e he => ?_,
      Nat.le_of_add_right_le hblock⟩, fun name hname => ⟨?_, fun hold => ?_⟩, ?_, ?_⟩
    · exact hbuiltin name (List.mem_append_left _ hname)
    · exact hvalues e (mem_enumsOf_iff.2 (List.mem_append_left _ (mem_enumsOf_iff.1 he)))
    · exact hbuiltin name (List.mem_append_right _ (Option.mem_toList.2 hname))
    · exact List.disjoint_of_nodup_append hnodup hold (Option.mem_toList.2 hname)
    · rintro e rfl
      exact hvalues ⟨e.name, e.values⟩ (mem_enumsOf_iff.2 (by simp))
    · -- The definition is the one block that there may be.
      intro hsome
      obtain ⟨block, hblock'⟩ := Option.isSome_iff_exists.1 hsome
      rw [hblock', Option.toList_some, List.length_singleton] at hblock
      exact List.length_eq_zero_iff.1 (by omega)
  · rintro ⟨⟨hnodup, hbuiltin, hvalues, hblock⟩, haddable⟩
    constructor
    · rw [hnames, List.nodup_append']
      refine ⟨hnodup, ?_, ?_⟩
      · cases definition.typeName? <;> simp
      · intro name hold hnew
        exact (haddable.name name (Option.mem_toList.1 hnew)).2 hold
    · intro name hname
      rw [hnames, List.mem_append, Option.mem_toList] at hname
      exact hname.elim (hbuiltin name) fun hnew => (haddable.name name hnew).1
    · intro e he
      rcases List.mem_append.1 (mem_enumsOf_iff.1 he) with hold | hnew
      · exact hvalues e (mem_enumsOf_iff.2 hold)
      · exact haddable.values ⟨e.name, e.values⟩ (List.mem_singleton.1 hnew).symm
    · rw [hblocks]
      cases hsome : definition.block? with
      | none => exact hblock
      | some block =>
        rw [haddable.block (Option.isSome_of_eq_some hsome)]
        exact Nat.le_refl 1

theorem Collectable.of_append {rest : List Definition} (h : Collectable (front ++ rest)) :
    Collectable front := by
  induction rest using List.reverseRecOn with
  | nil => rwa [List.append_nil] at h
  | append_singleton rest definition ih =>
    rw [← List.append_assoc] at h
    exact ih (collectable_concat_iff.1 h).1

/-- Definitions are collected exactly if nothing in them is in the way of anything else, and what is
collected then is what they declare. -/
theorem collect_eq_ok_iff :
    (({} : Declarations).collect definitions).result = .ok d ↔
      Collectable definitions ∧ d = ofDefinitions definitions := by
  -- The definitions before the ones to come have been collected.
  suffices h : ∀ front, Collectable front → (((ofDefinitions front).collect definitions).result =
      .ok d ↔ Collectable (front ++ definitions) ∧ d = ofDefinitions (front ++ definitions)) from
    h [] .nil
  induction definitions with
  | nil =>
    intro front hfront
    rw [List.append_nil, collect, Logged.result_pure, Except.ok.injEq]
    exact ⟨fun h => ⟨hfront, h.symm⟩, fun h => h.2.symm⟩
  | cons definition rest ih =>
    intro front hfront
    rw [collect, Logged.result_bind, bind_eq_ok_iff, List.append_cons]
    constructor
    · rintro ⟨d', hadd, hrest⟩
      -- What the step comes to is what the definitions up to here declare.
      have haddable : Addable front definition := addable_of_added (add_eq_ok_iff.1 hadd)
      rw [add_eq_ok_iff.2 (added_of_addable haddable)] at hadd
      cases hadd
      exact (ih _ (collectable_concat_iff.2 ⟨hfront, haddable⟩)).1 hrest
    · rintro ⟨hall, rfl⟩
      have hnext : Collectable (front ++ [definition]) := hall.of_append
      have hadded := added_of_addable (collectable_concat_iff.1 hnext).2
      exact ⟨_, add_eq_ok_iff.2 hadded, (ih _ hnext).2 ⟨hall, rfl⟩⟩

theorem Collectable.distinct (h : Collectable definitions) : (ofDefinitions definitions).Distinct :=
  Distinct.empty.collect (collect_eq_ok_iff.2 ⟨h, rfl⟩)

end Declarations

namespace Schema

open Declarations

/-- A schema comes from definitions, and its defaults have passed their check. -/
def DeclaredBy (schema : Schema) (definitions : List Definition) : Prop :=
  (resolve definitions).result = .ok schema ∧ schema.checkDefaults = .ok ()

/-- A schema is put together from what its definitions declare. -/
theorem exists_assembledFrom_ofDefinitions {schema : Schema} {definitions : List Definition}
    (h : (resolve definitions).result = .ok schema) : Collectable definitions ∧
      ∃ types, schema.AssembledFrom definitions (ofDefinitions definitions) types := by
  obtain ⟨d, types, hfrom⟩ := resolve_eq_ok_iff.1 h
  obtain ⟨hcollectable, rfl⟩ := collect_eq_ok_iff.1 hfrom.collected
  exact ⟨hcollectable, types, hfrom⟩

/-- Films of a genre and what comes before them. Names are used before they are defined, and the
root is not the first that the schema block names. -/
def filmDefinitions : List Definition :=
  [.object ⟨"Film", [
      ⟨"title", [], .nonNull (.named "String"), []⟩,
      ⟨"earlier", [⟨"since", .named "Year", none⟩], .list (.list (.named "Film")),
        [⟨"relation", [⟨"direction", .enum "in"⟩, ⟨"name", .string "NEXT"⟩]⟩]⟩]⟩,
    .schema ⟨[(.mutation, "Change"), (.query, "Root")]⟩,
    .object ⟨"Root", [
      ⟨"films", [⟨"genre", .list (.named "Genre"), some (.list [.enum "DRAMA", .null])⟩],
        .nonNull (.list (.named "Film")), []⟩]⟩,
    .enum ⟨"Genre", ["DRAMA", "COMEDY"]⟩,
    .scalar "Year"]

theorem exists_declaredBy_films :
    ∃ schema : Schema, schema.root.name = "Root" ∧ schema.DeclaredBy filmDefinitions := by
  have hsome : (resolve filmDefinitions).result.toOption.map (fun schema =>
      (schema.root.name, schema.checkDefaults.toOption)) = some ("Root", some ()) := by
    decide +kernel
  obtain ⟨schema, hschema, heq⟩ := Option.map_eq_some_iff.1 hsome
  obtain ⟨hroot, hdefaults⟩ := Prod.mk.inj heq
  exact ⟨schema, hroot, toOption_eq_some_iff.1 hschema, toOption_eq_some_iff.1 hdefaults⟩

end Schema

end GraphQuery
