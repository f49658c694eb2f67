import GraphQuery.Proofs.Compilation.Coercion
import GraphQuery.Proofs.Compilation.Validity
import GraphQuery.Proofs.Cypher.Skeleton
import GraphQuery.Proofs.Schema.Consistency

/-!
# Which filters a selection has

Filters are not made from the arguments of a selection. The compiler goes through what may be
filtered on, in the order of the schema, and looks up a value for each name. So the filters follow
the schema whatever the selection supplies, and no name has two of them, although the names come
from two places and the properties of the target may repeat them.

Looking up by name has a price. An argument that is supplied twice is found once: the first one
decides, and all others of its name are passed over without a word, even if the first is null and
asks for nothing.

## Main definitions

* `Filter.declaredNames`, `Filter.implicitNames`: the names that may be filtered on, in order.
* `Selection.resolved?`: the value under a name, supplied or by default.
* `Filter.KindFor`: the kind at which a value is taken for a name.

## Main results

* `Filter.map_property_of_ofSelection`: the filters are those of the candidates with a value.
* `Filter.filters_follow_schema`: order, presence and values of the filters.
* `Filter.arguments_kept_unless_repeated`: a supplied argument filters, unless its name was supplied
  before.
* `Filter.repeated_argument_dropped`: then it may be the only one that would filter.
-/

namespace GraphQuery

open Cypher

/-! ### Names in order -/

namespace Filter

/-- The declared arguments that do not say which page to take, in order. -/
def declaredNames (settings : Settings) (field : Field) : List String :=
  (field.arguments.map (·.name)).filter fun name => !settings.isPageArgument name

/-- The fields of the target, if the settings allow filters on them. -/
def implicitFields (settings : Settings) (target : ObjectType) : List Field :=
  if settings.implicitFilters then target.fields else []

/-- The leaf fields of the target that are not declared as arguments and do not say which page to
take, in order; none if the settings do not allow them. -/
def implicitNames (settings : Settings) (field : Field) (target : ObjectType) : List String :=
  ((implicitFields settings target).filter fun p => p.kind.isLeaf
    && !settings.isPageArgument p.name && (field.argument? p.name).isNone).map (·.name)

/-- The kind at which a value is taken for a name: that of the declared argument, or else that of
the leaf field of the target. -/
inductive KindFor (settings : Settings) (field : Field) (target : ObjectType) (name : String) :
    Kind → Prop
  | declared {d : ArgumentDeclaration} (hd : d ∈ field.arguments) (hname : d.name = name) :
    KindFor settings field target name d.kind
  | implicit {p : Field} (hp : p ∈ implicitFields settings target) (hleaf : p.kind.isLeaf = true)
    (hfree : field.argument? name = none) (hname : p.name = name) :
    KindFor settings field target name p.kind

end Filter

/-- The value under a name: the first one supplied, or else the default of the declared argument. -/
def Selection.resolved? (s : Selection) (field : Field) (name : String) : Option Value :=
  (s.argument? name).or ((field.argument? name).bind (·.default?))

namespace Candidate

open GraphQuery.Filter

variable {settings : Settings} {field : Field} {target : ObjectType} {s : Selection}

theorem map_name_declared :
    (declared settings field).map (·.name) = declaredNames settings field := by
  rw [declared, declaredNames, List.map_map, List.filter_map]
  rfl

theorem implicitNames_eq : implicitNames settings field target =
    ((implicitFields settings target).filter (isNew settings (declared settings field))).map
      (·.name) := by
  rw [implicitNames, funext isNew_declared]

theorem argument?_eq_none_of_implicit {name : String}
    (h : name ∈ implicitNames settings field target) : field.argument? name = none := by
  obtain ⟨p, hp, rfl⟩ := List.mem_map.1 h
  have htest := (List.mem_filter.1 hp).2
  rw [Bool.and_eq_true, Option.isNone_iff_eq_none] at htest
  exact htest.2

/-- The candidates are the declared arguments, and what is collected behind them. -/
theorem exists_all_eq (settings : Settings) (field : Field) (target : ObjectType) :
    ∃ added, all settings field target = declared settings field ++ added.map ofProperty ∧
      Collected settings (declared settings field) (implicitFields settings target) added := by
  obtain ⟨added, heq, hadded⟩ :=
    collected_foldl settings (implicitFields settings target) (declared settings field)
  refine ⟨added, ?_, hadded⟩
  rw [← heq, all, implicitFields]
  split_ifs
  · rfl
  · rfl

/-- The names of the candidates, in order. -/
theorem map_name_all_sublist :
    ((all settings field target).map (·.name)).Sublist
      (declaredNames settings field ++ implicitNames settings field target) := by
  obtain ⟨added, heq, hadded⟩ := exists_all_eq settings field target
  rw [heq, List.map_append, map_name_declared, List.map_map, implicitNames_eq]
  exact (hadded.sublist.map _).append_left _

/-- Every name has its candidate. -/
theorem mem_map_name_all {name : String}
    (h : name ∈ declaredNames settings field ++ implicitNames settings field target) :
    name ∈ (all settings field target).map (·.name) := by
  obtain ⟨added, heq, hadded⟩ := exists_all_eq settings field target
  rw [heq, List.map_append, map_name_declared, List.map_map]
  rcases List.mem_append.1 h with h | h
  · exact List.mem_append_left _ h
  · rw [implicitNames_eq] at h
    obtain ⟨p, hp, rfl⟩ := List.mem_map.1 h
    obtain ⟨hmem, hnew⟩ := List.mem_filter.1 hp
    exact List.mem_append_right _ (hadded.complete p hmem hnew)

/-- What is collected behind the declared arguments has an implicit name. -/
theorem Collected.mem_implicitNames {added : List Field}
    (h : Collected settings (declared settings field) (implicitFields settings target) added)
    {p : Field} (hp : p ∈ added) : p.name ∈ implicitNames settings field target := by
  rw [implicitNames_eq]
  exact List.mem_map_of_mem (h.sublist.subset hp)

/-- No name has two candidates, where the arguments of the field have different names. -/
theorem nodup_map_name_all (h : (field.arguments.map (·.name)).Nodup) :
    ((all settings field target).map (·.name)).Nodup := by
  obtain ⟨added, heq, hadded⟩ := exists_all_eq settings field target
  rw [heq, List.map_append, map_name_declared, List.map_map]
  refine List.nodup_append.2 ⟨h.filter _, hadded.nodup, ?_⟩
  rintro name hdeclared _ hname rfl
  -- An implicit name is the name of no argument.
  obtain ⟨p, hp, rfl⟩ := List.mem_map.1 hname
  have hnone := argument?_eq_none_of_implicit (hadded.mem_implicitNames hp)
  obtain ⟨d, hd, hdname⟩ := List.mem_map.1 (List.mem_of_mem_filter hdeclared)
  apply List.find?_eq_none.1 hnone d hd
  simpa [ofProperty] using hdname

theorem kindFor_of_mem_all {c : Candidate} (hc : c ∈ all settings field target) :
    KindFor settings field target c.name c.kind := by
  obtain ⟨added, heq, hadded⟩ := exists_all_eq settings field target
  rw [heq] at hc
  rcases List.mem_append.1 hc with hc | hc
  · obtain ⟨d, hd, rfl⟩ := List.mem_map.1 hc
    exact .declared (List.mem_of_mem_filter hd) rfl
  · obtain ⟨p, hp, rfl⟩ := List.mem_map.1 hc
    obtain ⟨hmem, hnew⟩ := List.mem_filter.1 (hadded.sublist.subset hp)
    rw [isNew_declared, Bool.and_eq_true, Bool.and_eq_true, Option.isNone_iff_eq_none] at hnew
    exact .implicit hmem hnew.1.1 hnew.2 rfl

/-- A candidate has the value that its name resolves to. -/
theorem value?_eq_resolved? (h : (field.arguments.map (·.name)).Nodup) {c : Candidate}
    (hc : c ∈ all settings field target) : c.value? s = s.resolved? field c.name := by
  have hdefault : c.default? = (field.argument? c.name).bind (·.default?) := by
    obtain ⟨added, heq, hadded⟩ := exists_all_eq settings field target
    rw [heq] at hc
    rcases List.mem_append.1 hc with hc | hc
    · obtain ⟨d, hd, rfl⟩ := List.mem_map.1 hc
      have hfound : field.argument? d.name = some d :=
        find?_of_nodup h (List.mem_of_mem_filter hd)
      simp only [hfound, Option.bind_some]
    · obtain ⟨p, hp, rfl⟩ := List.mem_map.1 hc
      have hnone : field.argument? p.name = none :=
        argument?_eq_none_of_implicit (hadded.mem_implicitNames hp)
      simp only [ofProperty, hnone, Option.bind_none]
  rw [value?, hdefault, Selection.resolved?]

end Candidate

/-! ### Filters in order -/

namespace Filter

variable {schema : Schema} {settings : Settings} {field : Field} {target : ObjectType}
  {s : Selection} {bound : String} {filters : List Equality}

/-- A value that is there and is not null. -/
def isGiven (v? : Option Value) : Bool := v?.any fun v => !v.isNull

theorem isGiven_iff {v? : Option Value} : isGiven v? = true ↔ ∃ v, v? = some v ∧ v ≠ .null := by
  cases v? with
  | none => simp [isGiven]
  | some v => cases v <;> simp [isGiven, Value.isNull]

/-- What a candidate comes to: nothing without a value or with null, and otherwise a filter on its
name with the literal of its value. -/
theorem equality?_eq_ok {c : Candidate} {e? : Option Equality}
    (h : equality? schema field s c = .ok e?) :
    (isGiven (c.value? s) = false ∧ e? = none) ∨
      ∃ v l, c.value? s = some v ∧ schema.literal? c.kind v = .ok (some l) ∧
        isGiven (c.value? s) = true ∧ e? = some ⟨c.name, l⟩ := by
  unfold equality? at h
  cases hv : c.value? s with
  | none =>
    rw [hv] at h
    cases h
    exact .inl ⟨rfl, rfl⟩
  | some v =>
    rw [hv] at h
    obtain ⟨l?, hl, rfl⟩ := map_eq_ok_iff.1 h
    rw [mapError_eq_ok_iff] at hl
    cases l? with
    | none =>
      obtain rfl := Schema.literal?_eq_none_iff.1 hl
      exact .inl ⟨rfl, rfl⟩
    | some l =>
      refine .inr ⟨v, l, rfl, hl, isGiven_iff.2 ⟨v, rfl, ?_⟩, rfl⟩
      rintro rfl
      cases hl

/-- Candidates with a value have their filters in the same order. -/
theorem map_property_reduceOption {cs : List Candidate} {found : List (Option Equality)}
    (h : List.Forall₂ (fun c e? => equality? schema field s c = .ok e?) cs found) :
    found.reduceOption.map (·.property) =
      (cs.filter fun c => isGiven (c.value? s)).map (·.name) := by
  induction h with
  | nil => rfl
  | @cons c e? cs found hc _ ih =>
    rcases equality?_eq_ok hc with ⟨hgiven, rfl⟩ | ⟨v, l, -, -, hgiven, rfl⟩
    · rw [List.reduceOption_cons_of_none, List.filter_cons, hgiven, ih]
      rfl
    · rw [List.reduceOption_cons_of_some, List.filter_cons, if_pos hgiven, List.map_cons,
        List.map_cons, ih]

/-- The filters have the names of the candidates with a value, in order. -/
theorem map_property_of_ofSelection
    (h : (ofSelection schema settings bound field target s).result = .ok filters) :
    filters.map (·.property) =
      ((Candidate.all settings field target).filter fun c => isGiven (c.value? s)).map
        (·.name) := by
  obtain ⟨-, found, hfound, rfl⟩ := ofSelection_eq_ok_iff.1 h
  exact map_property_reduceOption hfound

/-- A candidate with a value has its filter. -/
theorem mem_of_candidate
    (h : (ofSelection schema settings bound field target s).result = .ok filters) {c : Candidate}
    (hc : c ∈ Candidate.all settings field target) {v : Value} (hv : c.value? s = some v)
    (hnull : v ≠ .null) :
    ∃ l, schema.literal? c.kind v = .ok (some l) ∧ ⟨c.name, l⟩ ∈ filters := by
  obtain ⟨-, found, hfound, rfl⟩ := ofSelection_eq_ok_iff.1 h
  obtain ⟨e?, he, hequality⟩ := exists_left_of_mem hfound.flip hc
  have hgiven := isGiven_iff.2 ⟨v, hv, hnull⟩
  rcases equality?_eq_ok hequality with ⟨hnot, -⟩ | ⟨w, l, hw, hl, -, rfl⟩
  · rw [hgiven] at hnot
    cases hnot
  · obtain rfl : v = w := Option.some.inj (hv.symm.trans hw)
    exact ⟨l, hl, List.reduceOption_mem_iff.2 he⟩

/-- A filter has the literal of a value that is not null. -/
theorem value_ne_null_of_mem
    (h : (ofSelection schema settings bound field target s).result = .ok filters) {e : Equality}
    (he : e ∈ filters) : e.value ≠ .null := by
  obtain ⟨-, found, hfound, rfl⟩ := ofSelection_eq_ok_iff.1 h
  obtain ⟨c, -, hc⟩ := exists_left_of_mem hfound (List.reduceOption_mem_iff.1 he)
  rcases equality?_eq_ok hc with ⟨-, hnone⟩ | ⟨v, l, -, hl, -, hsome⟩
  · cases hnone
  · cases hsome
    exact Schema.ne_null_of_literal? hl

end Filter

/-- Only null is written as null. A string has quotes around it, and neither of the letters after
the first stands in a number. -/
theorem Cypher.Literal.text_ne_null {l : Literal} (h : l ≠ .null) : l.text ≠ "null" := by
  have hforeign : IsForeign 'u' := by decide
  have hletter {t : String} (ht : 'u' ∉ t.toList) : t ≠ "null" := by
    rintro rfl
    exact ht (by simp)
  have hhead {t : String} {c : Char} {cs : List Char} (ht : t.toList = c :: cs) (hc : c ≠ 'n') :
      t ≠ "null" := by
    rintro rfl
    exact hc (List.cons.inj ht).1.symm
  cases l with
  | null => exact absurd rfl h
  | boolean b => cases b <;> simp [text]
  | int i => exact hletter (hforeign.notMem_toString i.toInt)
  | float x => exact hletter (hforeign.notMem_layoutText floatLayout x)
  | string s =>
    have htext := toList_quote_append s []
    rw [List.append_nil] at htext
    exact hhead htext (by decide)
  | parameter name => exact hhead (String.toList_append ..) (by decide)
  | list items =>
    have htext := toList_text_list_append items []
    rw [List.append_nil] at htext
    exact hhead htext (by decide)

theorem Schema.nodup_arguments_of_load {text : String} {schema : Schema}
    (h : (load text).result = .ok schema) {type : ObjectType}
    (htype : type ∈ schema.root :: schema.types) {field : Field} (hfield : field ∈ type.fields) :
    (field.arguments.map (·.name)).Nodup := by
  obtain ⟨definitions, d, types, hok⟩ := exists_assembledFrom_of_load h
  exact hok.nodup_arguments htype hfield

namespace Filter

variable {schema : Schema} {settings : Settings} {field : Field} {target : ObjectType}
  {s : Selection} {bound : String} {filters : List Equality}

/-- The filters follow the schema. No name has two of them, and they come in the order of the
declared arguments and then of the implicit properties. A name has a filter exactly if its value is
there and is not null; the value of an implicit property is there only if it is supplied. No filter
compares to null. -/
theorem filters_follow_schema {text : String} (hload : (Schema.load text).result = .ok schema)
    {type : ObjectType} (htype : type ∈ schema.root :: schema.types) (hfield : field ∈ type.fields)
    (h : (ofSelection schema settings bound field target s).result = .ok filters) :
    (filters.map (·.property)).Nodup ∧
      (filters.map (·.property)).Sublist
        (declaredNames settings field ++ implicitNames settings field target) ∧
      (∀ name ∈ declaredNames settings field ++ implicitNames settings field target,
        name ∈ filters.map (·.property) ↔ ∃ v, s.resolved? field name = some v ∧ v ≠ .null) ∧
      (∀ name ∈ implicitNames settings field target, name ∈ filters.map (·.property) →
        (s.argument? name).isSome = true) ∧
      ∀ e ∈ filters, e.value ≠ .null ∧ e.value.text ≠ "null" := by
  have hnodup := Schema.nodup_arguments_of_load hload htype hfield
  have hpresent : ∀ name ∈ declaredNames settings field ++ implicitNames settings field target,
      name ∈ filters.map (·.property) ↔ ∃ v, s.resolved? field name = some v ∧ v ≠ .null := by
    intro name hname
    rw [map_property_of_ofSelection h, ← isGiven_iff, List.mem_map]
    constructor
    · rintro ⟨c, hc, rfl⟩
      obtain ⟨hmem, hgiven⟩ := List.mem_filter.1 hc
      rwa [← Candidate.value?_eq_resolved? hnodup hmem]
    · intro hgiven
      obtain ⟨c, hc, rfl⟩ := List.mem_map.1 (Candidate.mem_map_name_all hname)
      rw [← Candidate.value?_eq_resolved? hnodup hc] at hgiven
      exact ⟨c, List.mem_filter.2 ⟨hc, hgiven⟩, rfl⟩
  have hsublist : (filters.map (·.property)).Sublist
      ((Candidate.all settings field target).map (·.name)) := by
    rw [map_property_of_ofSelection h]
    exact List.filter_sublist.map _
  refine ⟨(Candidate.nodup_map_name_all hnodup).sublist hsublist,
    hsublist.trans Candidate.map_name_all_sublist, hpresent, ?_, ?_⟩
  · intro name hname hmem
    obtain ⟨v, hv, -⟩ := (hpresent name (List.mem_append_right _ hname)).1 hmem
    -- Without a declared argument there is no default.
    rw [Selection.resolved?, Candidate.argument?_eq_none_of_implicit hname, Option.bind_none,
      Option.or_none] at hv
    rw [hv]
    rfl
  · intro e he
    have hne := value_ne_null_of_mem h he
    exact ⟨hne, Literal.text_ne_null hne⟩

/-- The text of a schema in which a property is declared as an argument, another one is not, and a
page argument has a default. -/
def citizensText : String :=
  "type Query \x7bpeople(age: Int = 30, name: String, first: Int = 9): [Person]\x7d " ++
    "type Person \x7bname: String age: Int city: String tags: [String]\x7d"

/-- A default is left as it is, another argument is null, and two properties are not declared. -/
def romans : Selection :=
  ⟨none, "people", [⟨"tags", .string "x"⟩, ⟨"name", .null⟩, ⟨"city", .string "Rome"⟩,
    ⟨"offset", .int 2⟩], [⟨none, "name", [], []⟩]⟩

theorem filters_follow_schema_romans :
    ∃ schema field target filters, (Schema.load citizensText).result = .ok schema ∧
      field ∈ schema.root.fields ∧
      (ofSelection schema {} "p" field target romans).result = .ok filters ∧
      declaredNames {} field = ["age", "name"] ∧ implicitNames {} field target = ["city", "tags"] ∧
      filters.map (Equality.text "p") = ["p.age = 30", "p.city = 'Rome'", "p.tags = ['x']"] ∧
      (filters.map (·.property)).Nodup ∧
      (filters.map (·.property)).Sublist ["age", "name", "city", "tags"] ∧
      (∀ name ∈ ["age", "name", "city", "tags"], name ∈ filters.map (·.property) ↔
        ∃ v, romans.resolved? field name = some v ∧ v ≠ .null) ∧
      (∀ name ∈ ["city", "tags"], name ∈ filters.map (·.property) →
        (romans.argument? name).isSome = true) ∧
      ∀ e ∈ filters, e.value ≠ .null ∧ e.value.text ≠ "null" := by
  have hsome : ((Schema.load citizensText).result.toOption.bind fun schema =>
      (schema.root.field? "people").bind fun field => (schema.type? "Person").bind fun target =>
      (ofSelection schema {} "p" field target romans).result.toOption.map fun filters =>
        (declaredNames {} field, implicitNames {} field target,
          filters.map (Equality.text "p"))) =
      some (["age", "name"], ["city", "tags"],
        ["p.age = 30", "p.city = 'Rome'", "p.tags = ['x']"]) := by
    decide +kernel
  obtain ⟨schema, hschema, hsome⟩ := Option.bind_eq_some_iff.1 hsome
  obtain ⟨field, hfield, hsome⟩ := Option.bind_eq_some_iff.1 hsome
  obtain ⟨target, -, hsome⟩ := Option.bind_eq_some_iff.1 hsome
  obtain ⟨filters, hfilters, heq⟩ := Option.map_eq_some_iff.1 hsome
  simp only [Prod.mk.injEq] at heq
  obtain ⟨hdeclared, himplicit, htexts⟩ := heq
  have hload := toOption_eq_some_iff.1 hschema
  have hmem := List.mem_of_find?_eq_some hfield
  have hok := toOption_eq_some_iff.1 hfilters
  have hfollow := filters_follow_schema hload List.mem_cons_self hmem hok
  rw [hdeclared, himplicit] at hfollow
  exact ⟨schema, field, target, filters, hload, hmem, hok, hdeclared, himplicit, htexts, hfollow⟩

/-! ### Supplied arguments -/

/-- The first value of a name is found. -/
theorem argument?_of_first {front back : List Argument} {a : Argument}
    (hs : s.arguments = front ++ a :: back) (hfirst : ∀ b ∈ front, b.name ≠ a.name) :
    s.argument? a.name = some a.value := by
  have hfront : front.find? (·.name == a.name) = none := by
    rw [List.find?_eq_none]
    intro b hb
    simpa using hfirst b hb
  rw [Selection.argument?, Argument.find?, hs, List.find?_append, hfront, Option.none_or,
    List.find?_cons_of_pos (by simp), Option.map_some]

/-- What looks like an earlier item is never the first to be found. -/
theorem find?_append_cons_of_mem {α : Type} {p : α → Bool} {front back : List α} {a b : α}
    (hb : b ∈ front) (hp : p b = p a) :
    (front ++ a :: back).find? p = (front ++ back).find? p := by
  rw [List.find?_append, List.find?_append]
  cases hfront : front.find? p with
  | some x => rfl
  | none =>
    have ha : ¬ p a = true := by
      rw [← hp]
      exact List.find?_eq_none.1 hfront b hb
    rw [List.find?_cons_of_neg ha]

/-- An argument whose name was supplied before changes nothing. -/
theorem result_of_repeated {front back : List Argument} {a b : Argument}
    (hs : s.arguments = front ++ a :: back) (hb : b ∈ front) (hname : b.name = a.name) :
    (ofSelection schema settings bound field target
      { s with arguments := front ++ back }).result =
      (ofSelection schema settings bound field target s).result := by
  have hargument (name : String) :
      ({ s with arguments := front ++ back } : Selection).argument? name = s.argument? name := by
    rw [Selection.argument?, Selection.argument?, Argument.find?, Argument.find?, hs,
      find?_append_cons_of_mem hb (by rw [hname])]
  have hequality : equality? schema field { s with arguments := front ++ back } =
      equality? schema field s := by
    funext c
    rw [equality?, equality?, Candidate.value?, Candidate.value?, hargument]
  have hunknown : unknown? settings (Candidate.all settings field target)
      { s with arguments := front ++ back } =
      unknown? settings (Candidate.all settings field target) s := by
    rw [unknown?, unknown?, hs, find?_append_cons_of_mem hb (by rw [hname])]
  rw [result_ofSelection, result_ofSelection, hunknown, hequality]

/-- A supplied argument that is not null and does not say which page to take has its filter, with
the literal of its own value, if it is the first of its name. If its name was supplied before, the
filters are those of the selection without it. -/
theorem arguments_kept_unless_repeated
    (h : (ofSelection schema settings bound field target s).result = .ok filters)
    {front back : List Argument} {a : Argument} (hs : s.arguments = front ++ a :: back) :
    (settings.isPageArgument a.name = false → a.value ≠ .null → (∀ b ∈ front, b.name ≠ a.name) →
      ∃ kind l, KindFor settings field target a.name kind ∧
        schema.literal? kind a.value = .ok (some l) ∧ ⟨a.name, l⟩ ∈ filters ∧
        bound ++ "." ++ a.name ++ " = " ++ l.text ∈ filters.map (Equality.text bound)) ∧
      ((∃ b ∈ front, b.name = a.name) →
        (ofSelection schema settings bound field target
          { s with arguments := front ++ back }).result = .ok filters) := by
  constructor
  · intro hpage hnull hfirst
    have hsupplied := argument?_of_first hs hfirst
    -- The argument is known, so there is a candidate of its name, which takes its value.
    obtain ⟨hknown, -⟩ := ofSelection_eq_ok_iff.1 h
    have hmem : a ∈ s.arguments := by
      rw [hs]
      exact List.mem_append_right _ List.mem_cons_self
    rcases unknown?_eq_none_iff.1 hknown a hmem with hyes | ⟨c, hc, hcname⟩
    · rw [hpage] at hyes
      cases hyes
    · have hvalue : c.value? s = some a.value := by
        rw [Candidate.value?, hcname, hsupplied, Option.some_or]
      obtain ⟨l, hl, hfilter⟩ := mem_of_candidate h hc hvalue hnull
      rw [hcname] at hfilter
      have htext := List.mem_map_of_mem (f := Equality.text bound) hfilter
      exact ⟨c.kind, l, hcname ▸ Candidate.kindFor_of_mem_all hc, hl, hfilter, htext⟩
  · rintro ⟨b, hb, hname⟩
    rw [result_of_repeated hs hb hname, h]

/-- A name that is null first and not null later, around another argument. -/
def bobInRome : Selection :=
  ⟨none, "people", [⟨"name", .null⟩, ⟨"city", .string "Rome"⟩, ⟨"name", .string "Bob"⟩],
    [⟨none, "name", [], []⟩]⟩

/-- The argument in the middle has its filter, and the last one is passed over. -/
theorem arguments_kept_unless_repeated_bob :
    ∃ schema field target filters, (Schema.load citizensText).result = .ok schema ∧
      (ofSelection schema {} "p" field target bobInRome).result = .ok filters ∧
      filters.map (Equality.text "p") = ["p.age = 30", "p.city = 'Rome'"] ∧
      (∃ kind l, KindFor {} field target "city" kind ∧
        schema.literal? kind (.string "Rome") = .ok (some l) ∧ ⟨"city", l⟩ ∈ filters) ∧
      (ofSelection schema {} "p" field target { bobInRome with
        arguments := [⟨"name", .null⟩, ⟨"city", .string "Rome"⟩] }).result = .ok filters := by
  have hsome : ((Schema.load citizensText).result.toOption.bind fun schema =>
      (schema.root.field? "people").bind fun field => (schema.type? "Person").bind fun target =>
      (ofSelection schema {} "p" field target bobInRome).result.toOption.map fun filters =>
        filters.map (Equality.text "p")) = some ["p.age = 30", "p.city = 'Rome'"] := by
    decide +kernel
  obtain ⟨schema, hschema, hsome⟩ := Option.bind_eq_some_iff.1 hsome
  obtain ⟨field, -, hsome⟩ := Option.bind_eq_some_iff.1 hsome
  obtain ⟨target, -, hsome⟩ := Option.bind_eq_some_iff.1 hsome
  obtain ⟨filters, hfilters, htexts⟩ := Option.map_eq_some_iff.1 hsome
  have hok := toOption_eq_some_iff.1 hfilters
  have hmiddle : bobInRome.arguments =
      [⟨"name", .null⟩] ++ ⟨"city", .string "Rome"⟩ :: [⟨"name", .string "Bob"⟩] := rfl
  have hlast : bobInRome.arguments =
      [⟨"name", .null⟩, ⟨"city", .string "Rome"⟩] ++ ⟨"name", .string "Bob"⟩ :: [] := rfl
  obtain ⟨kind, l, hkind, hl, hmem, -⟩ := (arguments_kept_unless_repeated hok hmiddle).1 (by decide)
    (by simp) (by simp)
  have hwithout := (arguments_kept_unless_repeated hok hlast).2 ⟨_, List.mem_cons_self, rfl⟩
  exact ⟨schema, field, target, filters, toOption_eq_some_iff.1 hschema, hok, htexts,
    ⟨kind, l, hkind, hl, hmem⟩, hwithout⟩

/-- The text of a query that supplies a name twice, first null. -/
def namesTwiceQuery : String := "\x7bpeople(name: null, name: \"Bob\") \x7bname\x7d\x7d"

/-- The root selection of that query. -/
def namesTwice : Selection :=
  ⟨none, "people", [⟨"name", .null⟩, ⟨"name", .string "Bob"⟩], [⟨none, "name", [], []⟩]⟩

/-- An argument that is supplied, not null and no page argument can be passed over, so that nothing
is filtered at all. -/
theorem repeated_argument_dropped :
    ∃ schema d field target, (Schema.load Schema.peopleText).result = .ok schema ∧
      Document.parse namesTwiceQuery.toList = .ok d ∧ namesTwice ∈ d.selections ∧
      schema.root.field? namesTwice.name = some field ∧ schema.target? field = some target ∧
      ⟨"name", .string "Bob"⟩ ∈ namesTwice.arguments ∧
      ({} : Settings).isPageArgument "name" = false ∧
      (ofSelection schema {} namesTwice.key field target namesTwice).result = .ok [] := by
  have hparse : Document.parse namesTwiceQuery.toList =
      .ok ⟨.query, none, [], [namesTwice]⟩ := by
    simp only [namesTwiceQuery, String.reduceToList]
    rfl
  have hsome : ((Schema.load Schema.peopleText).result.toOption.bind fun schema =>
      (schema.root.field? namesTwice.name).bind fun field =>
      (schema.target? field).bind fun target =>
      (ofSelection schema {} namesTwice.key field target namesTwice).result.toOption.map
        fun filters => filters.map (Equality.text "people")) = some [] := by
    decide +kernel
  obtain ⟨schema, hschema, hsome⟩ := Option.bind_eq_some_iff.1 hsome
  obtain ⟨field, hfield, hsome⟩ := Option.bind_eq_some_iff.1 hsome
  obtain ⟨target, htarget, hsome⟩ := Option.bind_eq_some_iff.1 hsome
  obtain ⟨filters, hfilters, htexts⟩ := Option.map_eq_some_iff.1 hsome
  obtain rfl := List.map_eq_nil_iff.1 htexts
  exact ⟨schema, _, field, target, toOption_eq_some_iff.1 hschema, hparse,
    List.mem_singleton_self _, hfield, htarget, List.mem_cons_of_mem _ List.mem_cons_self,
    by decide, toOption_eq_some_iff.1 hfilters⟩

end Filter

end GraphQuery
