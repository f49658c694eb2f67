import GraphQuery.Compilation.Query
import GraphQuery.Proofs.Compilation.Injection
import GraphQuery.Proofs.Language.Occurrence

/-!
# The order of arguments does not matter

Arguments may be supplied in any order: filters follow the declarations, and a value is looked up by
its name. Where a name is supplied twice the first value counts, so only arguments of different
names may change places.

The compiler is run on both documents at once. It takes the same steps with the same values, up to a
selection with unknown arguments. There it names the one that comes first, which may be another one
in the other document.

## Main definitions

* `Argument.Reordered`, `Selection.Reordered`, `Document.Reordered`: arguments in another order, at
  any depth.
* `CompileError.AgreesWith`: two errors that differ in the name of an unknown argument at most.
* `Compilation.Agree`: equal results, or two errors that agree.

## Main results

* `Argument.Reordered.find?_eq`: the first value under a name is the same.
* `Compilation.agree_entry`, `Compilation.agree_statements`: the compiler treats both alike.
* `Document.Reordered.get?_parameters`: the parameters have the same values.
* `Compilation.argument_order_irrelevant`: both together.
-/

namespace GraphQuery

open Cypher

/-! ### Another order -/

/-- The arguments stand in another order. Those of one name are in the same order as before. -/
structure Argument.Reordered (as bs : List Argument) : Prop where
  perm : as.Perm bs
  filter_eq : ∀ name, as.filter (·.name == name) = bs.filter (·.name == name)

/-- The arguments of the selection and of those below it stand in another order. -/
inductive Selection.Reordered : Selection → Selection → Prop
  | intro {aliasName : Option String} {name : String} {as bs : List Argument}
    {ss ts : List Selection} (harguments : Argument.Reordered as bs)
    (hselections : List.Forall₂ Reordered ss ts) :
    Reordered ⟨aliasName, name, as, ss⟩ ⟨aliasName, name, bs, ts⟩

/-- The arguments of some selections, at any depth, stand in another order. -/
structure Document.Reordered (d d' : Document) : Prop where
  kind_eq : d.kind = d'.kind
  name_eq : d.name = d'.name
  definitions_eq : d.definitions = d'.definitions
  selections : List.Forall₂ Selection.Reordered d.selections d'.selections

/-- The first value under a name does not depend on where the other names stand. -/
theorem Argument.Reordered.find?_eq {as bs : List Argument} (h : Reordered as bs) (name : String) :
    find? name as = find? name bs := by
  rw [find?, find?, ← List.head?_filter, ← List.head?_filter, h.filter_eq name]

namespace Selection.Reordered

variable {s t : Selection}

theorem name_eq (h : Reordered s t) : s.name = t.name := by
  cases h
  rfl

theorem key_eq (h : Reordered s t) : s.key = t.key := by
  cases h
  rfl

theorem arguments (h : Reordered s t) : Argument.Reordered s.arguments t.arguments := by
  cases h with
  | intro harguments _ => exact harguments

theorem selections (h : Reordered s t) :
    List.Forall₂ Reordered s.selections t.selections := by
  cases h with
  | intro _ hselections => exact hselections

theorem isEmpty_eq (h : Reordered s t) : s.selections.isEmpty = t.selections.isEmpty := by
  cases h with
  | intro _ hselections => cases hselections <;> rfl

theorem argument?_eq (h : Reordered s t) : s.argument? = t.argument? := by
  funext name
  exact h.arguments.find?_eq name

end Selection.Reordered

/-! ### Results that agree -/

/-- The errors are the same, or both complain about an unknown argument of one field. -/
inductive CompileError.AgreesWith : CompileError → CompileError → Prop
  | refl (e : CompileError) : AgreesWith e e
  | unknownArgument (field a b : String) :
    AgreesWith (.unknownArgument field a) (.unknownArgument field b)

namespace Compilation

variable {α β γ : Type}

/-- Equal results, or errors that agree. -/
inductive Agree : Except CompileError α → Except CompileError α → Prop
  | ok (a : α) : Agree (.ok a) (.ok a)
  | error {e e' : CompileError} (h : e.AgreesWith e') : Agree (.error e) (.error e')

namespace Agree

variable {x y : Except CompileError α}

theorem refl (x : Except CompileError α) : Agree x x := by
  cases x with
  | ok a => exact .ok a
  | error e => exact .error (.refl e)

theorem bind {f g : α → Except CompileError β} (hx : Agree x y) (h : ∀ a, Agree (f a) (g a)) :
    Agree (x.bind f) (y.bind g) := by
  cases hx with
  | ok a => exact h a
  | error he => exact .error he

theorem map (f : α → β) (hx : Agree x y) : Agree (x.map f) (y.map f) := by
  cases hx with
  | ok a => exact .ok (f a)
  | error he => exact .error he

/-- Two lists are mapped to results that agree, if their items are. -/
theorem mapM {f : α → Except CompileError β} {g : γ → Except CompileError β} {as : List α}
    {cs : List γ} (h : List.Forall₂ (fun a c => Agree (f a) (g c)) as cs) :
    Agree (as.mapM f) (cs.mapM g) := by
  induction h with
  | nil => exact .refl _
  | cons hfirst _ ih =>
    rw [List.mapM_cons, List.mapM_cons]
    apply bind hfirst
    intro b
    apply bind ih
    intro bs
    exact .ok (b :: bs)

end Agree

end Compilation

open Compilation

/-! ### Arguments -/

section Arguments

variable {schema : Schema} {settings : Settings} {field : Field} {target : ObjectType}
  {s t : Selection}

theorem Filter.isSome_unknown?_eq (h : s.Reordered t) (settings : Settings)
    (candidates : List Candidate) :
    (unknown? settings candidates s).isSome = (unknown? settings candidates t).isSome := by
  rw [Bool.eq_iff_iff, unknown?, unknown?, List.find?_isSome, List.find?_isSome]
  simp only [h.arguments.perm.mem_iff]

theorem Filter.equality?_eq (h : s.Reordered t) :
    equality? schema field s = equality? schema field t := by
  funext c
  simp only [equality?, Candidate.value?, h.argument?_eq]

/-- The filters are the same, unless an argument is unknown. Which one is named depends on the
order. -/
theorem Filter.agree_ofSelection (h : s.Reordered t) (bound : String) :
    Agree (ofSelection schema settings bound field target s).result
      (ofSelection schema settings bound field target t).result := by
  have hsome := isSome_unknown?_eq h settings (Candidate.all settings field target)
  rw [result_ofSelection, result_ofSelection, equality?_eq h]
  cases hs : unknown? settings (Candidate.all settings field target) s with
  | none =>
    rw [hs, Option.isSome_none, eq_comm, Option.isSome_eq_false_iff, Option.isNone_iff_eq_none]
      at hsome
    rw [hsome]
    exact .refl _
  | some a =>
    rw [hs, Option.isSome_some, eq_comm, Option.isSome_iff_exists] at hsome
    obtain ⟨b, hb⟩ := hsome
    rw [hb]
    exact .error (.unknownArgument field.name a.name b.name)

theorem Paging.ofSelection_eq (h : s.Reordered t) :
    ofSelection settings field s = ofSelection settings field t := by
  simp only [ofSelection, bound?, value?, h.argument?_eq]

end Arguments

/-! ### Entries and statements -/

namespace Compilation

variable {schema : Schema} {settings : Settings} {scope : Scope} {s t : Selection}

/-- The entries of two selections agree if one is the other with its arguments in another order. -/
theorem agree_entry (h : s.Reordered t) :
    Agree (entry schema settings scope s).result (entry schema settings scope t).result := by
  -- Both trees have the same shape, so the induction is on one of them.
  induction s using Selection.inductionOn generalizing t scope with
  | step s ih =>
    rw [result_entry, result_entry, h.name_eq, h.key_eq, h.isEmpty_eq]
    cases scope.entity.field? t.name with
    | none => exact .refl _
    | some field =>
      simp only [result_property, h.key_eq, h.isEmpty_eq, Paging.ofSelection_eq h]
      split_ifs
      · exact .refl _
      · exact .refl _
      · exact .refl _
      · -- Up to the filters both take the same steps.
        apply (Agree.refl _).bind
        rintro ⟨relation, target⟩
        apply (Agree.refl _).bind
        intro inner
        apply (Filter.agree_ofSelection h _).bind
        intro filters
        apply (Agree.refl _).bind
        intro page
        have hbelow : Agree (entries schema settings inner s.selections).result
            (entries schema settings inner t.selections).result := by
          rw [result_entries, result_entries]
          apply Agree.mapM
          exact forall₂_imp_of_mem h.selections fun s' hs' t' _ hst => ih s' hs' hst
        exact hbelow.bind fun map => .refl _

theorem entryPoint_eq (h : s.Reordered t) : entryPoint schema s = entryPoint schema t := by
  simp only [entryPoint, h.name_eq, h.isEmpty_eq]

theorem agree_statement (h : s.Reordered t) :
    Agree (statement schema settings s).result (statement schema settings t).result := by
  rw [result_statement, result_statement, entryPoint_eq h, h.key_eq]
  apply (Agree.refl _).bind
  rintro ⟨field, target⟩
  apply (Filter.agree_ofSelection h _).bind
  intro filters
  rw [Paging.ofSelection_eq h]
  apply (Agree.refl _).bind
  intro page
  have hbelow : Agree (entries schema settings (Scope.root t.key target) s.selections).result
      (entries schema settings (Scope.root t.key target) t.selections).result := by
    rw [result_entries, result_entries]
    exact Agree.mapM (h.selections.imp fun _ _ hst => agree_entry hst)
  exact hbelow.bind fun map => .refl _

theorem agree_statements {ss ts : List Selection} (h : List.Forall₂ Selection.Reordered ss ts) :
    Agree (statements schema settings ss).result (statements schema settings ts).result := by
  rw [result_statements, result_statements]
  exact Agree.mapM (h.imp fun _ _ hst => agree_statement hst)

end Compilation

/-! ### Parameters -/

theorem Selection.perm_flatMap_vars {ss ts : List Selection}
    (h : List.Forall₂ (fun s t => s.vars.Perm t.vars) ss ts) :
    (ss.flatMap vars).Perm (ts.flatMap vars) := by
  induction h with
  | nil => exact .refl _
  | cons hfirst _ ih =>
    rw [List.flatMap_cons, List.flatMap_cons]
    exact hfirst.append ih

/-- The variables of a selection are the same, but in another order. -/
theorem Selection.Reordered.perm_vars {s t : Selection} (h : s.Reordered t) :
    s.vars.Perm t.vars := by
  induction s using Selection.inductionOn generalizing t with
  | step s ih =>
    rw [vars_eq, vars_eq]
    apply (h.arguments.perm.flatMap_right _).append
    apply perm_flatMap_vars
    exact forall₂_imp_of_mem h.selections fun s' hs' t' _ hst => ih s' hs' hst

namespace Document

/-- A variable that is used has its value as a parameter, and other names have none. -/
theorem get?_parameters (d : Document) (supplied : List (String × Json)) (name : String) :
    Json.get? (d.parameters supplied) name =
      if name ∈ d.usedVariables then some (d.parameter supplied name) else none := by
  rw [parameters, Json.get?]
  induction d.usedVariables with
  | nil => rfl
  | cons x xs ih =>
    by_cases hx : x = name
    · subst hx
      simp
    · rw [List.map_cons, List.find?_cons_of_neg (by simpa using hx), ih]
      simp [Ne.symm hx]

namespace Reordered

variable {d d' : Document}

theorem mem_usedVariables_iff (h : d.Reordered d') (name : String) :
    name ∈ d.usedVariables ↔ name ∈ d'.usedVariables := by
  rw [usedVariables, usedVariables, List.mem_eraseDups, List.mem_eraseDups,
    Selection.varsOfAll_eq_flatMap, Selection.varsOfAll_eq_flatMap]
  apply List.Perm.mem_iff
  exact Selection.perm_flatMap_vars (h.selections.imp fun _ _ hst => hst.perm_vars)

/-- Every name has the same value among the parameters of both documents. -/
theorem get?_parameters (h : d.Reordered d') (supplied : List (String × Json)) (name : String) :
    Json.get? (d.parameters supplied) name = Json.get? (d'.parameters supplied) name := by
  have hvalue : d.parameter supplied name = d'.parameter supplied name := by
    rw [parameter, parameter, definition?, definition?, h.definitions_eq]
  rw [Document.get?_parameters, Document.get?_parameters, hvalue]
  simp only [h.mem_usedVariables_iff]

end Reordered

end Document

namespace Compilation

/-- Documents that differ in the order of arguments have the same statements and the same values for
their parameters, or fail with the same error, up to which unknown argument of a field is named. -/
theorem argument_order_irrelevant (schema : Schema) (settings : Settings)
    (supplied : List (String × Json)) {d d' : Document} (h : d.Reordered d') :
    Agree (texts schema settings d) (texts schema settings d') ∧
      ∀ name, Json.get? (d.parameters supplied) name = Json.get? (d'.parameters supplied) name :=
  ⟨(agree_statements h.selections).map _, h.get?_parameters supplied⟩

/-- People and their friends, both with arguments. -/
def peopleWith (arguments ofFriends : List Argument) : Document where
  kind := .query
  name := none
  definitions := []
  selections := [⟨none, "people", arguments,
    [⟨none, "friends", ofFriends, [⟨none, "name", [], []⟩]⟩]⟩]

/-- The names come first, of which there are two. -/
def namesFirst : Document :=
  peopleWith [⟨"name", .var "n"⟩, ⟨"first", .var "k"⟩, ⟨"name", .string "Al"⟩]
    [⟨"since", .int 3⟩, ⟨"offset", .int 1⟩]

/-- The pages come first. -/
def pagesFirst : Document :=
  peopleWith [⟨"first", .var "k"⟩, ⟨"name", .var "n"⟩, ⟨"name", .string "Al"⟩]
    [⟨"offset", .int 1⟩, ⟨"since", .int 3⟩]

theorem reordered_namesFirst : namesFirst.Reordered pagesFirst := by
  have hfriends : Argument.Reordered [⟨"since", .int 3⟩, ⟨"offset", .int 1⟩]
      [⟨"offset", .int 1⟩, ⟨"since", .int 3⟩] := by
    refine ⟨.swap _ _ _, fun name => ?_⟩
    by_cases hsince : "since" = name
    · subst hsince
      rfl
    · simp [List.filter, beq_false_of_ne hsince]
  have hpeople : Argument.Reordered
      [⟨"name", .var "n"⟩, ⟨"first", .var "k"⟩, ⟨"name", .string "Al"⟩]
      [⟨"first", .var "k"⟩, ⟨"name", .var "n"⟩, ⟨"name", .string "Al"⟩] := by
    refine ⟨.swap _ _ _, fun name => ?_⟩
    by_cases hname : "name" = name
    · subst hname
      rfl
    · simp [List.filter, beq_false_of_ne hname]
  have hleaf : Selection.Reordered ⟨none, "name", [], []⟩ ⟨none, "name", [], []⟩ :=
    .intro ⟨.refl _, fun _ => rfl⟩ .nil
  refine ⟨rfl, rfl, rfl, .cons (.intro hpeople ?_) .nil⟩
  exact .cons (.intro hfriends (.cons hleaf .nil)) .nil

/-- The parameters change places and keep their values, and the statement stays the same. -/
theorem argument_order_irrelevant_people :
    ∃ schema, (Schema.load Schema.peopleText).result = .ok schema ∧
      namesFirst.Reordered pagesFirst ∧
      (namesFirst.parameters [("n", .int 7)]).map (·.1) = ["n", "k"] ∧
      (pagesFirst.parameters [("n", .int 7)]).map (·.1) = ["k", "n"] ∧
      (texts schema {} namesFirst).toOption.isSome = true ∧
      Agree (texts schema {} namesFirst) (texts schema {} pagesFirst) ∧
      ∀ name, Json.get? (namesFirst.parameters [("n", .int 7)]) name =
        Json.get? (pagesFirst.parameters [("n", .int 7)]) name := by
  have hsome : ((Schema.load Schema.peopleText).result.toOption.map fun schema =>
      (texts schema {} namesFirst).toOption.isSome) = some true := by
    decide +kernel
  obtain ⟨schema, hschema, hcompiles⟩ := Option.map_eq_some_iff.1 hsome
  refine ⟨schema, toOption_eq_some_iff.1 hschema, reordered_namesFirst, ?_, ?_, hcompiles,
    argument_order_irrelevant schema {} _ reordered_namesFirst⟩
  · decide +kernel
  · decide +kernel

end Compilation

end GraphQuery
