import GraphQuery.Language.Document
import GraphQuery.Proofs.Compilation.Plain

/-!
# Strings cannot change a statement

Whatever stands in the strings of a document, its statements differ inside their string literals
only, or fail for the same cause. Both documents of such a comparison are compared with the one that
has empty strings instead: the compiler treats a selection as it treats the blank selection, up to
the strings in the result.

## Main definitions

* `Document.blank`: the document with empty strings. Documents that differ in the contents of their
  strings only have the same blank document.
* `CompileError.Variant`: the cause of an error, without its details.
* `Compilation.Alike`: two results that agree up to a function, or two errors of one variant.

## Main results

* `Schema.alike_literal?`, `Filter.alike_ofSelection`, `Compilation.alike_entry`: a selection is
  treated as its blank selection.
* `Compilation.strings_keep_skeleton`: statements of documents that differ in strings only have the
  same skeletons.
-/

namespace GraphQuery

open Cypher

/-! ### Blank documents -/

namespace Value

mutual

/-- A value with empty strings. -/
def blank : Value → Value
  | .string _ => .string ""
  | .list items => .list (blankAll items)
  | .var name => .var name
  | .int i => .int i
  | .float x => .float x
  | .boolean b => .boolean b
  | .null => .null
  | .enum symbol => .enum symbol

/-- Some values with empty strings. -/
def blankAll : List Value → List Value
  | [] => []
  | v :: vs => v.blank :: blankAll vs

end

theorem blankAll_eq_map (vs : List Value) : blankAll vs = vs.map blank := by
  induction vs with
  | nil => rfl
  | cons v vs ih => rw [blankAll, List.map_cons, ih]

end Value

/-- An argument with empty strings. -/
def Argument.blank (a : Argument) : Argument := { a with value := a.value.blank }

namespace Selection

mutual

/-- A selection with empty strings. -/
def blank : Selection → Selection
  | ⟨aliasName, name, arguments, selections⟩ =>
    ⟨aliasName, name, arguments.map Argument.blank, blankAll selections⟩

/-- Some selections with empty strings. -/
def blankAll : List Selection → List Selection
  | [] => []
  | s :: ss => s.blank :: blankAll ss

end

theorem blankAll_eq_map (ss : List Selection) : blankAll ss = ss.map blank := by
  induction ss with
  | nil => rfl
  | cons s ss ih => rw [blankAll, List.map_cons, ih]

@[simp] theorem name_blank (s : Selection) : s.blank.name = s.name := by
  cases s
  rfl

@[simp] theorem key_blank (s : Selection) : s.blank.key = s.key := by
  cases s
  rfl

@[simp] theorem arguments_blank (s : Selection) :
    s.blank.arguments = s.arguments.map Argument.blank := by
  cases s
  rfl

@[simp] theorem selections_blank (s : Selection) :
    s.blank.selections = s.selections.map blank := by
  cases s
  exact blankAll_eq_map _

theorem argument?_blank (s : Selection) (name : String) :
    s.blank.argument? name = (s.argument? name).map Value.blank := by
  simp [argument?, Argument.find?, List.find?_map, Function.comp_def, Argument.blank]

end Selection

/-- A variable definition with empty strings. -/
def VariableDefinition.blank (d : VariableDefinition) : VariableDefinition :=
  { d with default? := d.default?.map Value.blank }

/-- A document with empty strings. -/
def Document.blank (d : Document) : Document :=
  { d with
    definitions := d.definitions.map VariableDefinition.blank
    selections := d.selections.map Selection.blank }

/-! ### Results that are alike -/

/-- The cause of an error, without its details. -/
inductive CompileError.Variant where
  | unknownType
  | unknownField
  | unresolvedRelation
  | typeMismatch
  | unknownArgument
  | missingSelection
  | tooDeep
deriving Repr, DecidableEq

/-- The variant of an error. -/
def CompileError.variant : CompileError → Variant
  | .unknownType .. => .unknownType
  | .unknownField .. => .unknownField
  | .unresolvedRelation .. => .unresolvedRelation
  | .typeMismatch .. => .typeMismatch
  | .unknownArgument .. => .unknownArgument
  | .missingSelection .. => .missingSelection
  | .tooDeep .. => .tooDeep

namespace Compilation

variable {α β γ δ : Type} {f : α → γ} {g : β → δ} {x y z : Except CompileError α}

/-- Two results that `f` does not tell apart, or two errors of one variant. -/
inductive Alike (f : α → γ) : Except CompileError α → Except CompileError α → Prop
  | ok {a b : α} (h : f a = f b) : Alike f (.ok a) (.ok b)
  | error {e e' : CompileError} (h : e.variant = e'.variant) : Alike f (.error e) (.error e')

namespace Alike

theorem refl (x : Except CompileError α) : Alike f x x := by
  cases x with
  | ok a => exact .ok rfl
  | error e => exact .error rfl

/-- Two results that are like a third one are alike. -/
theorem trans_symm (hx : Alike f x z) (hy : Alike f y z) : Alike f x y := by
  cases hx with
  | ok ha =>
    cases hy with
    | ok hb => exact .ok (ha.trans hb.symm)
  | error he =>
    cases hy with
    | error he' => exact .error (he.trans he'.symm)

/-- Sequences are alike if their parts are, the second for results that are not told apart. -/
theorem bind {k l : α → Except CompileError β} (hx : Alike f x y)
    (h : ∀ a b, f a = f b → Alike g (k a) (l b)) : Alike g (x.bind k) (y.bind l) := by
  cases hx with
  | ok ha => exact h _ _ ha
  | error he => exact .error he

theorem map {k l : α → β} (hx : Alike f x y)
    (h : ∀ a b, x = .ok a → y = .ok b → f a = f b → g (k a) = g (l b)) :
    Alike g (x.map k) (y.map l) := by
  cases hx with
  | ok ha => exact .ok (h _ _ rfl rfl ha)
  | error he => exact .error he

theorem located (hx : Alike f x y) (place : ArgumentPlace) :
    Alike f (x.mapError (·.located place)) (y.mapError (·.located place)) := by
  have hvariant (e : CompileError) : (e.located place).variant = e.variant := by
    cases e <;> rfl
  cases hx with
  | ok ha => exact .ok ha
  | error he => exact .error (by rw [hvariant, hvariant, he])

/-- Lists are mapped alike if each of their items is. -/
theorem mapM {k l : β → Except CompileError α} {bs : List β} (h : ∀ b ∈ bs, Alike f (k b) (l b)) :
    Alike (List.map f) (bs.mapM k) (bs.mapM l) := by
  induction bs with
  | nil => exact .refl _
  | cons b bs ih =>
    rw [List.mapM_cons, List.mapM_cons]
    refine bind (h b List.mem_cons_self) fun a a' ha => ?_
    refine bind (ih fun c hc => h c (List.mem_cons_of_mem b hc)) fun as as' has => ?_
    exact .ok (by rw [List.map_cons, List.map_cons, ha, has])

end Alike

end Compilation

open Compilation

/-! ### Arguments -/

namespace Schema

variable {schema : Schema}

/-- What stands in a string does not matter to the kind that it is written at. -/
theorem alike_literal_string (kind : Kind) (s : String) :
    Alike Literal.blank (schema.literal kind (.string s)) (schema.literal kind (.string "")) := by
  induction kind with
  | scalar scalar => cases scalar <;> first | exact .ok rfl | exact .error rfl
  | enum name => exact .error rfl
  | entity name => exact .error rfl
  | list inner ih =>
    rw [literal_single schema inner (by simp), literal_single schema inner (by simp)]
    exact ih.map fun l l' _ _ hl => by rw [Literal.blank, Literal.blank, Literal.blankAll_eq_map,
      Literal.blankAll_eq_map, List.map_singleton, List.map_singleton, hl]

theorem alike_some {x y : Except CompileError Literal} (h : Alike Literal.blank x y) :
    Alike (Option.map Literal.blank) (x.map some) (y.map some) :=
  h.map fun _ _ _ _ hl => congrArg some hl

/-- Only strings and lists differ from the blank value, so lists are what is left to be looked
at. -/
theorem alike_literal?_of_list {kind : Kind}
    (h : ∀ items : List Value, Alike Literal.blank (schema.literal kind (.list items))
      (schema.literal kind (.list (items.map Value.blank)))) (v : Value) :
    Alike (Option.map Literal.blank) (schema.literal? kind v) (schema.literal? kind v.blank) := by
  cases v with
  | string s =>
    rw [Value.blank, literal?_of_constant kind (by simp) (by simp),
      literal?_of_constant kind (by simp) (by simp)]
    exact alike_some (alike_literal_string kind s)
  | list items =>
    rw [Value.blank, Value.blankAll_eq_map, literal?_of_constant kind (by simp) (by simp),
      literal?_of_constant kind (by simp) (by simp)]
    exact alike_some (h items)
  | _ => exact .refl _

/-- A value is written as its blank value is, up to strings. -/
theorem alike_literal? (kind : Kind) (v : Value) :
    Alike (Option.map Literal.blank) (schema.literal? kind v) (schema.literal? kind v.blank) := by
  induction kind generalizing v with
  | scalar scalar =>
    refine alike_literal?_of_list (fun items => ?_) v
    cases scalar <;> exact .error rfl
  | enum name =>
    refine alike_literal?_of_list (fun items => ?_) v
    exact .error rfl
  | entity name =>
    refine alike_literal?_of_list (fun items => ?_) v
    exact .error rfl
  | list inner ih =>
    refine alike_literal?_of_list (fun items => ?_) v
    rw [literal_list, literal_list, List.mapM_map]
    have hitems : Alike (List.map Literal.blank)
        (items.mapM fun item => (schema.literal? inner item).map (·.getD .null))
        (items.mapM fun item => (schema.literal? inner item.blank).map (·.getD .null)) := by
      refine .mapM fun item _ => (ih item).map fun l? l?' _ _ hl => ?_
      have hnull (l? : Option Literal) :
          (l?.getD .null).blank = (l?.map Literal.blank).getD .null := by
        cases l? <;> rfl
      rw [hnull, hnull, hl]
    refine hitems.map fun ls ls' _ _ hls => ?_
    rw [Literal.blank, Literal.blank, Literal.blankAll_eq_map, Literal.blankAll_eq_map, hls]

end Schema

namespace Filter

variable {schema : Schema} {settings : Settings} {field : Field} {target : ObjectType}

theorem alike_equality? (s : Selection) (c : Candidate) :
    Alike (Option.map Equality.blank) (equality? schema field s c)
      (equality? schema field s.blank c) := by
  simp only [equality?, Candidate.value?, Selection.argument?_blank]
  cases s.argument? c.name with
  | none => exact .refl _
  | some v =>
    refine ((Schema.alike_literal? c.kind v).located _).map fun l? l?' _ _ hl => ?_
    have hblank (l? : Option Literal) : (l?.map (Equality.mk c.name)).map Equality.blank =
        (l?.map Literal.blank).map (Equality.mk c.name) := by
      cases l? <;> rfl
    rw [hblank, hblank, hl]

theorem unknown?_blank (candidates : List Candidate) (s : Selection) :
    unknown? settings candidates s.blank = (unknown? settings candidates s).map Argument.blank := by
  simp [unknown?, List.find?_map, Function.comp_def, Argument.blank]

/-- A selection has the filters of its blank selection, up to strings. -/
theorem alike_ofSelection (bound : String) (s : Selection) :
    Alike (List.map Equality.blank) (ofSelection schema settings bound field target s).result
      (ofSelection schema settings bound field target s.blank).result := by
  rw [result_ofSelection, result_ofSelection, unknown?_blank]
  cases unknown? settings (Candidate.all settings field target) s with
  | some a => exact .error rfl
  | none =>
    refine (Alike.mapM fun c _ => alike_equality? s c).map fun found found' _ _ hfound => ?_
    rw [← List.reduceOption_map, ← List.reduceOption_map, hfound]

end Filter

namespace Paging

variable {settings : Settings} {field : Field}

theorem alike_bound? (name : String) (s : Selection) :
    Alike id (bound? name field s) (bound? name field s.blank) := by
  simp only [bound?, value?, Selection.argument?_blank]
  cases s.argument? name with
  | none => exact .refl _
  | some v =>
    cases v with
    | string s => exact .error rfl
    | list items => exact .error rfl
    | _ => exact .refl _

theorem alike_ofSelection (s : Selection) :
    Alike id (ofSelection settings field s) (ofSelection settings field s.blank) := by
  refine (alike_bound? settings.firstArgument s).bind fun first first' hfirst => ?_
  refine (alike_bound? settings.offsetArgument s).bind fun offset offset' hoffset => ?_
  cases hfirst
  cases hoffset
  exact .refl _

end Paging

/-! ### Entries and statements -/

namespace Compilation

variable {schema : Schema} {settings : Settings} {scope : Scope}

theorem alike_entries {ss : List Selection}
    (h : ∀ s ∈ ss, Alike Entry.blank (entry schema settings scope s).result
      (entry schema settings scope s.blank).result) :
    Alike Entry.blankAll (entries schema settings scope ss).result
      (entries schema settings scope (ss.map Selection.blank)).result := by
  rw [result_entries, result_entries, List.mapM_map, funext Entry.blankAll_eq_map]
  exact .mapM h

/-- A selection has the entry of its blank selection, up to strings. -/
theorem alike_entry (s : Selection) :
    Alike Entry.blank (entry schema settings scope s).result
      (entry schema settings scope s.blank).result := by
  induction s using Selection.inductionOn generalizing scope with
  | step s ih =>
    rw [result_entry, result_entry, Selection.name_blank, Selection.key_blank,
      Selection.selections_blank, List.isEmpty_map]
    cases scope.entity.field? s.name with
    | none => exact .error rfl
    | some field =>
      simp only [result_property, Selection.selections_blank, List.isEmpty_map,
        Selection.key_blank]
      split_ifs
      · exact .refl _
      · exact .refl _
      · exact .refl _
      · -- Relation, variable and scope do not depend on strings, so they are the same in both.
        refine (Alike.refl (f := id) (hop schema scope field)).bind ?_
        rintro ⟨relation, target⟩ _ rfl
        refine (Alike.refl (f := id) _).bind ?_
        rintro inner _ rfl
        refine (Filter.alike_ofSelection _ s).bind fun filters filters' hfilters => ?_
        refine (Paging.alike_ofSelection s).bind ?_
        rintro page _ rfl
        refine (alike_entries fun t ht => ih t ht).bind fun map map' hmap => .ok ?_
        simp only [Entry.blank, Comprehension.blank, hfilters, hmap]
        rfl

theorem entryPoint_blank (s : Selection) : entryPoint schema s.blank = entryPoint schema s := by
  simp [entryPoint]

/-- A selection has the statement of its blank selection, up to strings. -/
theorem alike_statement (s : Selection) :
    Alike Statement.blank (statement schema settings s).result
      (statement schema settings s.blank).result := by
  rw [result_statement, result_statement, entryPoint_blank, Selection.key_blank,
    Selection.selections_blank]
  refine (Alike.refl (f := id) (entryPoint schema s)).bind ?_
  rintro ⟨field, target⟩ _ rfl
  refine (Filter.alike_ofSelection _ s).bind fun filters filters' hfilters => ?_
  refine (Paging.alike_ofSelection s).bind ?_
  rintro page _ rfl
  refine (alike_entries fun t _ => alike_entry t).bind fun map map' hmap => .ok ?_
  simp only [Statement.blank, hfilters, hmap]
  rfl

theorem alike_statements (ss : List Selection) :
    Alike (List.map Statement.blank) (statements schema settings ss).result
      (statements schema settings (ss.map Selection.blank)).result := by
  rw [result_statements, result_statements, List.mapM_map]
  exact .mapM fun s _ => alike_statement s

/-- The statements of plain selections have the skeletons of their blank statements. -/
theorem map_skeleton_text (hschema : schema.Plain) (hwell : schema.WellFormed)
    (hrelations : schema.RelationsPlain) {ss : List Selection} (hss : ∀ s ∈ ss, s.Plain)
    {stmts : List Statement} (h : (statements schema settings ss).result = .ok stmts) :
    (stmts.map Statement.text).map skeleton = (stmts.map Statement.blank).map Statement.text := by
  rw [result_statements, mapM_eq_ok_iff] at h
  rw [List.map_map, List.map_map]
  refine List.map_congr_left fun stmt hstmt => ?_
  obtain ⟨s, hs, hok⟩ := exists_left_of_mem h hstmt
  exact Statement.skeleton_text (plain_of_statement hschema hwell hrelations (hss s hs) hok)

/-- The texts of the statements that a document is compiled to. -/
def texts (schema : Schema) (settings : Settings) (d : Document) :
    Except CompileError (List String) :=
  (statements schema settings d.selections).result.map (List.map Statement.text)

/-- Documents that differ in the contents of their strings only have statements with the same
skeletons, as many of them, or fail for the same cause. -/
theorem strings_keep_skeleton {text : String} {schema : Schema}
    (hschema : (Schema.load text).result = .ok schema) (hrelations : schema.RelationsPlain)
    (settings : Settings) {query query' : List Char} {d d' : Document}
    (hparse : Document.parse query = .ok d) (hparse' : Document.parse query' = .ok d')
    (hblank : d.blank = d'.blank) :
    Alike (List.map skeleton) (texts schema settings d) (texts schema settings d') := by
  have hwell := Schema.wellFormed_of_load hschema
  have hplain := Schema.plain_of_load hschema
  have hselections : d.selections.map Selection.blank = d'.selections.map Selection.blank :=
    congrArg Document.selections hblank
  -- Each document is compared with the blank one, which they share.
  have halike : Alike (List.map Statement.blank)
      (statements schema settings d.selections).result
      (statements schema settings d'.selections).result :=
    (alike_statements d.selections).trans_symm (hselections ▸ alike_statements d'.selections)
  refine halike.map fun stmts stmts' hok hok' hstmts => ?_
  calc (stmts.map Statement.text).map skeleton
      = (stmts.map Statement.blank).map Statement.text :=
        map_skeleton_text hplain hwell hrelations (Document.plain_of_parse hparse) hok
    _ = (stmts'.map Statement.blank).map Statement.text := by rw [hstmts]
    _ = (stmts'.map Statement.text).map skeleton :=
        (map_skeleton_text hplain hwell hrelations (Document.plain_of_parse hparse') hok').symm

/-- People of a name. -/
def peopleNamed (name : String) : Document where
  kind := .query
  name := none
  definitions := []
  selections := [⟨none, "people", [⟨"name", .string name⟩], [⟨none, "name", [], []⟩]⟩]

/-- A string that would close the literal and go on, and would escape the closing quote. -/
theorem strings_keep_skeleton_quotes :
    ∃ schema, (Schema.load Schema.peopleText).result = .ok schema ∧ schema.RelationsPlain ∧
      Document.parse "\x7b people(name: \"Ann\") \x7b name \x7d \x7d".toList =
        .ok (peopleNamed "Ann") ∧
      Document.parse "\x7b people(name: \"' OR 1=1\\\\\") \x7b name \x7d \x7d".toList =
        .ok (peopleNamed "' OR 1=1\\") ∧
      texts schema {} (peopleNamed "' OR 1=1\\") =
        .ok ["MATCH (people:Person) WHERE people.name = '\\' OR 1=1\\\\' " ++
          "RETURN people \x7b.name\x7d"] ∧
      Alike (List.map skeleton) (texts schema {} (peopleNamed "Ann"))
        (texts schema {} (peopleNamed "' OR 1=1\\")) := by
  have hsome : ((Schema.load Schema.peopleText).result.toOption.map fun schema =>
      (decide schema.RelationsPlain,
        (texts schema {} (peopleNamed "' OR 1=1\\")).toOption)) =
      some (true, some ["MATCH (people:Person) WHERE people.name = '\\' OR 1=1\\\\' " ++
        "RETURN people \x7b.name\x7d"]) := by
    decide +kernel
  obtain ⟨schema, hschema, heq⟩ := Option.map_eq_some_iff.1 hsome
  obtain ⟨hrelations, htexts⟩ := Prod.mk.inj heq
  have hload := toOption_eq_some_iff.1 hschema
  have hplain := of_decide_eq_true hrelations
  have hparse : Document.parse "\x7b people(name: \"Ann\") \x7b name \x7d \x7d".toList =
      .ok (peopleNamed "Ann") := by
    simp only [String.reduceToList]
    rfl
  have hparse' : Document.parse
      "\x7b people(name: \"' OR 1=1\\\\\") \x7b name \x7d \x7d".toList =
      .ok (peopleNamed "' OR 1=1\\") := by
    simp only [String.reduceToList]
    rfl
  exact ⟨schema, hload, hplain, hparse, hparse', toOption_eq_some_iff.1 htexts,
    strings_keep_skeleton hload hplain {} hparse hparse' rfl⟩

end Compilation

end GraphQuery
