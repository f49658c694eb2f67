import Mathlib.Data.List.Perm.Basic
import Mathlib.Data.String.Basic
import GraphQuery.Proofs.Schema.Collection

/-!
# The order of definitions does not matter

Definitions are collected before anything is looked up, and what is looked up in them is found by
name. As names differ, the order in which the definitions stand has no say in what is found, and a
schema keeps its types and enums in order of their names.

## Main results

* `sortByName_eq_of_perm`: where names differ, sorting by name forgets the order.
* `Declarations.Collectable.of_perm`: whether definitions can be collected.
* `Declarations.namedKind?_eq_of_perm`, `Declarations.object_congr`: what names and objects stand
  for.
* `Schema.AssembledFrom.of_perm`: what a schema is put together from.
* `Schema.definition_order_irrelevant`: permuted definitions declare the same schema.
-/

namespace GraphQuery

/-! ### Lists in order of names -/

section Named

variable {α : Type} {name : α → String} {items items' : List α}

theorem pairwise_insertByName (item : α) (h : items.Pairwise (name · ≤ name ·)) :
    (insertByName name item items).Pairwise (name · ≤ name ·) := by
  induction items with
  | nil => exact List.pairwise_singleton _ _
  | cons other rest ih =>
    obtain ⟨hother, hrest⟩ := List.pairwise_cons.1 h
    rw [insertByName]
    by_cases hlt : name item < name other
    · rw [if_pos hlt]
      -- The first of the rest is the least of it, so the item is below all.
      apply List.Pairwise.cons _ h
      intro a ha
      rcases List.mem_cons.1 ha with rfl | ha
      · exact le_of_lt hlt
      · exact le_trans (le_of_lt hlt) (hother a ha)
    · rw [if_neg hlt]
      apply List.Pairwise.cons _ (ih hrest)
      intro a ha
      rcases List.mem_cons.1 ((perm_insertByName item rest).mem_iff.1 ha) with rfl | ha
      · exact not_lt.1 hlt
      · exact hother a ha

theorem pairwise_sortByName (items : List α) :
    (sortByName name items).Pairwise (name · ≤ name ·) := by
  induction items with
  | nil => exact .nil
  | cons item items ih => exact pairwise_insertByName item ih

/-- Where names differ, things of one name are one. -/
theorem eq_of_name_eq (hnodup : (items.map name).Nodup) {a b : α} (ha : a ∈ items)
    (hb : b ∈ items) (hname : name a = name b) : a = b := by
  have hfind := find?_of_nodup hnodup ha
  rw [hname, find?_of_nodup hnodup hb] at hfind
  exact (Option.some.inj hfind).symm

/-- Where names differ, sorting by name forgets the order. -/
theorem sortByName_eq_of_perm (hnodup : (items.map name).Nodup) (h : items.Perm items') :
    sortByName name items = sortByName name items' := by
  have hperm : (sortByName name items).Perm (sortByName name items') :=
    (perm_sortByName items).trans (h.trans (perm_sortByName items').symm)
  refine hperm.eq_of_pairwise ?_ (pairwise_sortByName items) (pairwise_sortByName items')
  intro a b ha hb hab hba
  apply eq_of_name_eq hnodup
  · exact mem_sortByName.1 ha
  · exact h.mem_iff.2 (mem_sortByName.1 hb)
  · exact le_antisymm hab hba

/-- Where names differ, what is found under a name does not depend on the order. -/
theorem find?_eq_of_perm (hnodup : (items.map name).Nodup) (h : items.Perm items')
    (wanted : String) : items.find? (name · == wanted) = items'.find? (name · == wanted) := by
  cases hfind : items.find? (name · == wanted) with
  | none =>
    have hother : ∀ a ∈ items', ¬ (name a == wanted) = true := fun a ha =>
      List.find?_eq_none.1 hfind a (h.mem_iff.2 ha)
    exact (List.find?_eq_none.2 hother).symm
  | some a =>
    obtain rfl : name a = wanted := by simpa using List.find?_some hfind
    have hmem : a ∈ items' := h.mem_iff.1 (List.mem_of_find?_eq_some hfind)
    exact (find?_of_nodup ((h.map name).nodup_iff.1 hnodup) hmem).symm

end Named

namespace Declarations

variable {d d' : Declarations} {definitions definitions' : List Definition}

/-! ### Collecting -/

theorem blocksOf_eq_of_perm (h : definitions.Perm definitions')
    (hblock : (blocksOf definitions).length ≤ 1) :
    blocksOf definitions = blocksOf definitions' := by
  have hperm : (blocksOf definitions).Perm (blocksOf definitions') := h.filterMap _
  match hblocks : blocksOf definitions with
  | [] =>
    rw [hblocks] at hperm
    exact (List.nil_perm.1 hperm).symm
  | [block] =>
    rw [hblocks] at hperm
    exact List.singleton_perm.1 hperm
  | _ :: _ :: _ =>
    rw [hblocks] at hblock
    simp at hblock

/-- Whether definitions can be collected does not depend on their order. -/
theorem Collectable.of_perm (h : Collectable definitions) (hperm : definitions.Perm definitions') :
    Collectable definitions' where
  nodup := (hperm.filterMap _).nodup_iff.1 h.nodup
  builtin := fun name hname => h.builtin name ((hperm.filterMap _).mem_iff.2 hname)
  values := fun e he => h.values e ((hperm.filterMap _).mem_iff.2 he)
  block := (hperm.filterMap _).length_eq ▸ h.block

/-- Collectable definitions name the same root in every order. -/
theorem Collectable.root_eq_of_perm (h : Collectable definitions)
    (hperm : definitions.Perm definitions') :
    (ofDefinitions definitions).root = (ofDefinitions definitions').root := by
  rw [root, root, ofDefinitions, ofDefinitions, blocksOf_eq_of_perm hperm h.block]

/-! ### What is looked up -/

/-- A name is looked up among all definitions, whatever their order. -/
theorem namedKind?_eq_of_perm (h : definitions.Perm definitions') :
    (ofDefinitions definitions).namedKind? = (ofDefinitions definitions').namedKind? := by
  funext name
  have hscalars : (scalarsOf definitions).contains name = (scalarsOf definitions').contains name :=
    (h.filterMap _).contains_eq
  have henums : (enumsOf definitions).any (·.name == name) =
      (enumsOf definitions').any (·.name == name) := (h.filterMap _).any_eq
  have hobjects : (objectsOf definitions).any (·.name == name) =
      (objectsOf definitions').any (·.name == name) := (h.filterMap _).any_eq
  simp only [namedKind?, ofDefinitions, hscalars, henums, hobjects]
  rfl

theorem kind_congr (h : d.namedKind? = d'.namedKind?) : d.kind = d'.kind := by
  funext place ref
  induction ref with
  | named name => rw [kind, kind, h]
  | list inner ih => rw [kind, kind, ih]
  | nonNull inner ih => exact ih

theorem arguments_congr (h : d.namedKind? = d'.namedKind?) (type field : String)
    (seen : List String) (definitions : List ArgumentDefinition) :
    d.arguments type field seen definitions = d'.arguments type field seen definitions := by
  induction definitions generalizing seen with
  | nil => rfl
  | cons definition rest ih => simp only [arguments, kind_congr h, ih]

theorem field_congr (h : d.namedKind? = d'.namedKind?) (hroot : d.root = d'.root) (isRoot : Bool)
    (type : String) (definition : FieldDefinition) :
    d.field isRoot type definition = d'.field isRoot type definition := by
  simp only [field, kind_congr h, arguments_congr h, checkRelation, hroot]

theorem fields_congr (h : d.namedKind? = d'.namedKind?) (hroot : d.root = d'.root) (isRoot : Bool)
    (type : String) (seen : List String) (definitions : List FieldDefinition) :
    d.fields isRoot type seen definitions = d'.fields isRoot type seen definitions := by
  induction definitions generalizing seen with
  | nil => rfl
  | cons definition rest ih => simp only [fields, field_congr h hroot, ih]

/-- An object depends on the other definitions only through the kinds of names and the root. -/
theorem object_congr (h : d.namedKind? = d'.namedKind?) (hroot : d.root = d'.root)
    (definition : ObjectDefinition) : d.object definition = d'.object definition := by
  simp only [object, fields_congr h hroot, hroot]

end Declarations

/-! ### Schemas -/

namespace Schema

open Declarations

variable {schema : Schema} {definitions definitions' : List Definition}

/-- A schema is put together from permuted definitions as it is from the definitions. -/
theorem AssembledFrom.of_perm {types : List ObjectType}
    (h : schema.AssembledFrom definitions (ofDefinitions definitions) types)
    (hperm : definitions.Perm definitions') :
    ∃ types', schema.AssembledFrom definitions' (ofDefinitions definitions') types' := by
  obtain ⟨hcollectable, -⟩ := collect_eq_ok_iff.1 h.collected
  have hroot := hcollectable.root_eq_of_perm hperm
  -- Each object becomes the same type, so the types are permuted as the objects are.
  obtain ⟨types', hobjects, htypes⟩ :=
    List.perm_comp_forall₂ (hperm.filterMap _).symm h.resolved
  obtain ⟨hobjectNames, henumNames, -⟩ :=
    List.nodup_append.1 hcollectable.distinct.nodup_objects_enums
  have hnames : (types.map (·.name)).Nodup := h.map_name_types ▸ hobjectNames
  have hcollect := collect_eq_ok_iff.2 ⟨hcollectable.of_perm hperm, rfl⟩
  refine ⟨types', hcollect, hobjects.imp fun o t ho => ?_, ?_, ?_, ?_⟩
  · rw [← object_congr (namedKind?_eq_of_perm hperm) hroot]
    exact ho
  · rw [← hroot, ← find?_eq_of_perm hnames htypes.symm]
    exact h.root_eq
  · rw [h.types_eq, ← hroot]
    apply sortByName_eq_of_perm
    · exact hnames.sublist (List.filter_sublist.map _)
    · exact htypes.symm.filter _
  · rw [h.enums_eq]
    apply sortByName_eq_of_perm
    · exact henumNames
    · exact hperm.filterMap _

theorem DeclaredBy.of_perm (h : schema.DeclaredBy definitions)
    (hperm : definitions.Perm definitions') : schema.DeclaredBy definitions' := by
  obtain ⟨hresolve, hdefaults⟩ := h
  obtain ⟨-, types, hfrom⟩ := exists_assembledFrom_ofDefinitions hresolve
  exact ⟨resolve_eq_ok_iff.2 ⟨_, hfrom.of_perm hperm⟩, hdefaults⟩

/-- Permuted definitions declare the same schema, or none. -/
theorem definition_order_irrelevant (hperm : definitions.Perm definitions') (schema : Schema) :
    schema.DeclaredBy definitions ↔ schema.DeclaredBy definitions' :=
  ⟨fun h => h.of_perm hperm, fun h => h.of_perm hperm.symm⟩

/-- Films may be defined backwards. -/
theorem definition_order_irrelevant_films :
    filmDefinitions.Perm filmDefinitions.reverse ∧ ∃ schema : Schema, schema.root.name = "Root" ∧
      schema.DeclaredBy filmDefinitions ∧ schema.DeclaredBy filmDefinitions.reverse := by
  have hperm : filmDefinitions.Perm filmDefinitions.reverse := (List.reverse_perm _).symm
  obtain ⟨schema, hroot, hdeclared⟩ := exists_declaredBy_films
  exact ⟨hperm, schema, hroot, hdeclared, (definition_order_irrelevant hperm schema).1 hdeclared⟩

end Schema

end GraphQuery
