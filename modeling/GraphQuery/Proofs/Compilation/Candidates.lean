import Mathlib.Data.List.Perm.Subperm
import GraphQuery.Proofs.Compilation.Result

/-!
# What may be filtered on

The compiler collects the candidates for filters one property after the other and leaves out a name
that it has met. So each name is collected once. Where the properties of the target have different
names, this is a filter on the list of properties.

## Main definitions

* `Candidate.Collected`: what is added to the candidates, of some properties.

## Main results

* `Candidate.collected_foldl`: the properties that are collected one after the other.
* `Candidate.all_eq_append`: the declared arguments, then the properties that are not declared.
* `Candidate.mem_all_iff`: what is a candidate.
* `Filter.unknown?_eq_none_iff`: the arguments that a selection may supply.
* `Filter.ofSelection_eq_ok_iff`: when a selection has filters, and which.
-/

namespace GraphQuery

namespace Candidate

variable {settings : Settings} {field : Field} {target : ObjectType}

/-- The candidate of a property. -/
def ofProperty (p : Field) : Candidate := { name := p.name, kind := p.kind, default? := none }

/-! ### Collecting properties -/

/-- Of some properties, those were added that are new to the candidates before them: in order, each
name once, and none left out. -/
structure Collected (settings : Settings) (found : List Candidate) (properties added : List Field) :
    Prop where
  sublist : added.Sublist (properties.filter (isNew settings found))
  nodup : (added.map (·.name)).Nodup
  complete : ∀ p ∈ properties, isNew settings found p = true → p.name ∈ added.map (·.name)

theorem isNew_append_iff {found more : List Candidate} {p : Field} :
    isNew settings (found ++ more) p = true ↔
      isNew settings found p = true ∧ more.any (·.name == p.name) = false := by
  simp only [isNew, List.any_append, Bool.not_or, Bool.and_eq_true, Bool.not_eq_true', and_assoc]

/-- A new property is added in front of what is added after it. -/
theorem Collected.cons_new {found : List Candidate} {p : Field} {properties added : List Field}
    (hnew : isNew settings found p = true)
    (h : Collected settings (found ++ [ofProperty p]) properties added) :
    Collected settings found (p :: properties) (p :: added) := by
  have hmono : ∀ q, isNew settings (found ++ [ofProperty p]) q = true →
      isNew settings found q = true := fun q hq => (isNew_append_iff.1 hq).1
  constructor
  · rw [List.filter_cons_of_pos hnew]
    exact (h.sublist.trans (List.monotone_filter_right properties hmono)).cons_cons p
  · -- What is added later is new to `p`, so it has another name.
    rw [List.map_cons, List.nodup_cons]
    refine ⟨fun hmem => ?_, h.nodup⟩
    obtain ⟨q, hq, hname⟩ := List.mem_map.1 hmem
    have hqnew := (List.mem_filter.1 (h.sublist.subset hq)).2
    have hdiffer := (isNew_append_iff.1 hqnew).2
    simp [ofProperty, hname] at hdiffer
  · intro q hq hqnew
    rw [List.map_cons]
    by_cases hname : q.name = p.name
    · rw [hname]
      exact List.mem_cons_self
    · -- A property of another name is as new to the candidates with `p` as to those without.
      have hlater : isNew settings (found ++ [ofProperty p]) q = true := by
        rw [isNew_append_iff]
        exact ⟨hqnew, by simpa [ofProperty] using fun heq => hname heq.symm⟩
      have hmem := (List.mem_cons.1 hq).resolve_left fun heq => hname (congrArg Field.name heq)
      exact List.mem_cons_of_mem _ (h.complete q hmem hlater)

/-- A property that is not new changes nothing. -/
theorem Collected.cons_old {found : List Candidate} {p : Field} {properties added : List Field}
    (hold : ¬ isNew settings found p = true) (h : Collected settings found properties added) :
    Collected settings found (p :: properties) added := by
  refine ⟨?_, h.nodup, fun q hq hqnew => ?_⟩
  · rw [List.filter_cons_of_neg hold]
    exact h.sublist
  · rcases List.mem_cons.1 hq with rfl | hq
    · exact absurd hqnew hold
    · exact h.complete q hq hqnew

/-- The properties are collected behind the candidates that were there before. -/
theorem collected_foldl (settings : Settings) (properties : List Field) (found : List Candidate) :
    ∃ added, properties.foldl (withProperty settings) found = found ++ added.map ofProperty ∧
      Collected settings found properties added := by
  induction properties generalizing found with
  | nil => exact ⟨[], by simp, ⟨.slnil, .nil, fun p hp => by cases hp⟩⟩
  | cons p properties ih =>
    rw [List.foldl_cons]
    by_cases hnew : isNew settings found p = true
    · obtain ⟨added, heq, hadded⟩ := ih (found ++ [ofProperty p])
      refine ⟨p :: added, ?_, hadded.cons_new hnew⟩
      rw [withProperty, if_pos hnew]
      simpa [ofProperty] using heq
    · obtain ⟨added, heq, hadded⟩ := ih found
      refine ⟨added, ?_, hadded.cons_old hnew⟩
      rwa [withProperty, if_neg hnew]

/-- Where the properties have different names, all that are new are added. -/
theorem Collected.eq_filter {found : List Candidate} {properties added : List Field}
    (h : Collected settings found properties added) (hnames : (properties.map (·.name)).Nodup) :
    added = properties.filter (isNew settings found) := by
  apply h.sublist.eq_of_length_le
  -- The new properties have different names, and each of the names was added.
  have hnodup : ((properties.filter (isNew settings found)).map (·.name)).Nodup :=
    hnames.sublist (List.filter_sublist.map _)
  have hsubset : (properties.filter (isNew settings found)).map (·.name) ⊆
      added.map (·.name) := by
    intro name hname
    obtain ⟨p, hp, rfl⟩ := List.mem_map.1 hname
    exact h.complete p (List.mem_of_mem_filter hp) (List.of_mem_filter hp)
  have hlength := (hnodup.subperm hsubset).length_le
  rwa [List.length_map, List.length_map] at hlength

/-- Properties with different names are collected if they are new to the candidates before all of
them. -/
theorem foldl_withProperty {properties : List Field} (h : (properties.map (·.name)).Nodup)
    (found : List Candidate) :
    properties.foldl (withProperty settings) found =
      found ++ (properties.filter (isNew settings found)).map ofProperty := by
  obtain ⟨added, heq, hadded⟩ := collected_foldl settings properties found
  rw [heq, hadded.eq_filter h]

/-! ### Declared arguments and properties -/

/-- The candidates are the declared arguments that are no page arguments and then, if the settings
allow it, the properties that are not declared, in order. -/
theorem all_eq_append (h : (target.fields.map (·.name)).Nodup) :
    all settings field target = declared settings field ++
      if settings.implicitFilters then
        (target.fields.filter (isNew settings (declared settings field))).map ofProperty
      else [] := by
  unfold all
  split
  · exact foldl_withProperty h _
  · exact (List.append_nil _).symm

theorem any_declared_iff {name : String} (h : settings.isPageArgument name = false) :
    (declared settings field).any (·.name == name) = (field.argument? name).isSome := by
  rw [Bool.eq_iff_iff]
  simp only [declared, List.any_map, List.any_filter, List.any_eq_true, Function.comp,
    Field.argument?, List.find?_isSome, Bool.and_eq_true, beq_iff_eq]
  constructor
  · rintro ⟨a, ha, -, rfl⟩
    exact ⟨a, ha, rfl⟩
  · rintro ⟨a, ha, rfl⟩
    exact ⟨a, ha, by simp [h], rfl⟩

/-- What is new to the declared arguments: a leaf field that is not declared and not for pages. -/
theorem isNew_declared (p : Field) :
    isNew settings (declared settings field) p = (p.kind.isLeaf
      && !settings.isPageArgument p.name && (field.argument? p.name).isNone) := by
  rw [isNew]
  cases hpage : settings.isPageArgument p.name with
  | true => simp
  | false =>
    rw [any_declared_iff hpage]
    cases field.argument? p.name <;> rfl

/-- What may be filtered on: the declared arguments, and the leaf fields of the target that are not
declared if the settings allow it; but never what says which page to take. -/
theorem mem_all_iff (h : (target.fields.map (·.name)).Nodup) {c : Candidate} :
    c ∈ all settings field target ↔
      (∃ a ∈ field.arguments, settings.isPageArgument a.name = false ∧
        c = { name := a.name, kind := a.kind, default? := a.default? }) ∨
      (settings.implicitFilters = true ∧ ∃ p ∈ target.fields, p.kind.isLeaf = true ∧
        settings.isPageArgument p.name = false ∧ field.argument? p.name = none ∧
          c = ofProperty p) := by
  have hnew (p : Field) : isNew settings (declared settings field) p = true ↔
      p.kind.isLeaf = true ∧ settings.isPageArgument p.name = false ∧
        field.argument? p.name = none := by
    rw [isNew_declared, Bool.and_eq_true, Bool.and_eq_true, Bool.not_eq_true',
      Option.isNone_iff_eq_none, and_assoc]
  rw [all_eq_append h, List.mem_append]
  refine or_congr ?_ ?_
  · simp only [declared, List.mem_map, List.mem_filter, Bool.not_eq_true']
    exact ⟨fun ⟨a, ⟨ha, hpage⟩, hc⟩ => ⟨a, ha, hpage, hc.symm⟩,
      fun ⟨a, ha, hpage, hc⟩ => ⟨a, ⟨ha, hpage⟩, hc.symm⟩⟩
  · split
    · next himplicit =>
      simp only [himplicit, List.mem_map, List.mem_filter, hnew, true_and]
      exact ⟨fun ⟨p, ⟨hp, hleaf, hpage, hnone⟩, hc⟩ => ⟨p, hp, hleaf, hpage, hnone, hc.symm⟩,
        fun ⟨p, hp, hleaf, hpage, hnone, hc⟩ => ⟨p, ⟨hp, hleaf, hpage, hnone⟩, hc.symm⟩⟩
    · next himplicit => simp [himplicit]

end Candidate

namespace Filter

open Cypher

variable {schema : Schema} {settings : Settings} {field : Field} {target : ObjectType}
  {s : Selection}

/-- No argument is unknown exactly if each is a page argument or a candidate. -/
theorem unknown?_eq_none_iff {candidates : List Candidate} :
    unknown? settings candidates s = none ↔
      ∀ a ∈ s.arguments, settings.isPageArgument a.name = true ∨
        ∃ c ∈ candidates, c.name = a.name := by
  simp only [unknown?, List.find?_eq_none, Bool.and_eq_true, Bool.not_eq_true', not_and,
    Bool.not_eq_false]
  refine forall₂_congr fun a _ => ?_
  cases settings.isPageArgument a.name <;> simp

/-- A selection has filters exactly if no argument is unknown and every candidate has its filter, or
needs none. -/
theorem ofSelection_eq_ok_iff {bound : String} {filters : List Equality} :
    (ofSelection schema settings bound field target s).result = .ok filters ↔
      unknown? settings (Candidate.all settings field target) s = none ∧
        ∃ found, List.Forall₂ (fun c e? => equality? schema field s c = .ok e?)
          (Candidate.all settings field target) found ∧ found.reduceOption = filters := by
  rw [result_ofSelection]
  cases unknown? settings (Candidate.all settings field target) s with
  | some a => simp
  | none => simp [map_eq_ok_iff, mapM_eq_ok_iff]

end Filter

end GraphQuery
