import GraphQuery.Proofs.Compilation.Candidates
import GraphQuery.Proofs.Compilation.Capture
import GraphQuery.Proofs.Schema.Resolution

/-!
# Which selections compile

A judgement on selections that does not mention the compiler: what values an argument may have, what
arguments a selection may have, and what may be selected at a node of a type. The compiler succeeds
on exactly the selections that are valid in this sense.

## Main definitions

* `Schema.Admits`: a value may be given at a kind.
* `Selection.ArgumentsValid`: the arguments of a selection are right for its field.
* `Selection.Valid`, `Selection.ValidRoot`: a selection is right where it stands.

## Main results

* `Schema.exists_literal?_iff`: a value has a literal exactly if it may be given.
* `Compilation.exists_arguments_iff`: filters and page are compiled exactly if the arguments are
  right.
* `Compilation.valid_of_entry`, `Compilation.exists_entry_of_valid`: an entry is compiled exactly if
  the selection is valid.
* `Compilation.statement_compiles_iff_valid`: the same for statements.
-/

namespace GraphQuery

/-! ### Values -/

namespace Schema

/-- A value may be given at a kind: null and variables anywhere, an integer also where a float or an
identifier is wanted, a single value also where a list is wanted. -/
inductive Admits (schema : Schema) : Kind → Value → Prop
  | null (kind : Kind) : Admits schema kind .null
  | var (kind : Kind) (name : String) : Admits schema kind (.var name)
  | string (s : String) : Admits schema (.scalar .string) (.string s)
  | int (i : Int64) : Admits schema (.scalar .int) (.int i)
  | float (x : Float) : Admits schema (.scalar .float) (.float x)
  | boolean (b : Bool) : Admits schema (.scalar .boolean) (.boolean b)
  | id (s : String) : Admits schema (.scalar .id) (.string s)
  | custom (name s : String) : Admits schema (.scalar (.custom name)) (.string s)
  | floatOfInt (i : Int64) : Admits schema (.scalar .float) (.int i)
  | idOfInt (i : Int64) : Admits schema (.scalar .id) (.int i)
  | symbol {name symbol : String} {type : EnumType} (htype : schema.enum? name = some type)
      (hsymbol : symbol ∈ type.values) : Admits schema (.enum name) (.enum symbol)
  | list {inner : Kind} {items : List Value} (h : ∀ item ∈ items, Admits schema inner item) :
      Admits schema (.list inner) (.list items)
  | single {inner : Kind} {v : Value} (hlist : ∀ items, v ≠ .list items)
      (h : Admits schema inner v) : Admits schema (.list inner) v

variable {schema : Schema} {kind : Kind} {v : Value}

theorem admits_of_scalarLiteral {scalar : Scalar} {l : Cypher.Literal}
    (h : scalar.literal v = .ok l) : schema.Admits (.scalar scalar) v := by
  unfold Scalar.literal at h
  split at h
  · exact .string _
  · exact .custom _ _
  · exact .id _
  · exact .idOfInt _
  · exact .int _
  · exact .float _
  · exact .floatOfInt _
  · exact .boolean _
  · cases h

/-- A value that is null or is written as a literal may be given. -/
theorem admits_of_literal? {l? : Option Cypher.Literal} (h : schema.literal? kind v = .ok l?) :
    schema.Admits kind v := by
  refine literal_induction (motive := fun kind v _ => schema.Admits kind v) ?_ ?_ ?_ ?_ ?_ ?_ h
  · exact .null
  · exact .var
  · exact fun _ _ _ => admits_of_scalarLiteral
  · exact fun _ _ _ htype hsymbol => .symbol htype hsymbol
  · intro inner items literals hall
    refine .list fun item hitem => ?_
    obtain ⟨_, -, hadmits⟩ := exists_left_of_mem hall.flip hitem
    exact hadmits
  · exact fun inner v l _ _ hlist hadmits => .single hlist hadmits

/-- A value that may be given is written as a literal, unless it is null. -/
theorem exists_literal?_of_admits (h : schema.Admits kind v) :
    ∃ l?, schema.literal? kind v = .ok l? := by
  induction h with
  | @symbol name symbol type htype hsymbol =>
    refine ⟨some (.string symbol), literal?_eq_ok_iff.2 (.constant (by simp) (by simp) ?_)⟩
    exact enumLiteral_eq_ok_iff.2 ⟨symbol, type, htype, hsymbol, rfl, rfl⟩
  | @list inner items _ ih =>
    have hitems : ∀ item ∈ items, ∃ l, (schema.literal? inner item).map (·.getD .null) = .ok l := by
      intro item hitem
      obtain ⟨l?, hl⟩ := ih item hitem
      exact ⟨l?.getD .null, by rw [hl]; rfl⟩
    obtain ⟨literals, hall⟩ := exists_mapM_eq_ok_iff.2 hitems
    refine ⟨some (.list literals), literal?_eq_ok_iff.2 (.constant (by simp) (by simp) ?_)⟩
    rw [literal_list, hall]
    rfl
  | @single inner v hlist _ ih =>
    obtain ⟨l?, hl⟩ := ih
    -- Null and variables serve at the list itself, without a list around them.
    cases literal?_eq_ok_iff.1 hl with
    | null => exact ⟨none, rfl⟩
    | var name => exact ⟨some (.parameter name), rfl⟩
    | @constant _ l hnull hvar hconstant =>
      refine ⟨some (.list [l]), literal?_eq_ok_iff.2 (.constant hnull hvar ?_)⟩
      rw [literal_single schema inner hlist, hconstant]
      rfl
  | _ => exact ⟨_, rfl⟩

/-- A value has a literal, or is null, exactly if it may be given. -/
theorem exists_literal?_iff : (∃ l?, schema.literal? kind v = .ok l?) ↔ schema.Admits kind v :=
  ⟨fun ⟨_, h⟩ => admits_of_literal? h, exists_literal?_of_admits⟩

/-- The type that a field leads to. -/
def target? (schema : Schema) (field : Field) : Option ObjectType :=
  field.kind.target?.bind schema.type?

theorem target?_eq_some_iff {field : Field} {target : ObjectType} :
    schema.target? field = some target ↔
      ∃ name, field.kind.target? = some name ∧ schema.type? name = some target :=
  Option.bind_eq_some_iff

end Schema

/-! ### Arguments -/

/-- A value may be given for a page bound. -/
inductive Value.IsPageBound : Value → Prop
  | null : IsPageBound .null
  | var (name : String) : IsPageBound (.var name)
  | int {n : Int64} (h : 0 ≤ n.toInt) : IsPageBound (.int n)

/-- The arguments of a selection are right for a field that leads to a target. A value counts if it
is the first one supplied under its name, or the default of the declaration if none is supplied. -/
structure Selection.ArgumentsValid (schema : Schema) (settings : Settings) (field : Field)
    (target : ObjectType) (s : Selection) : Prop where
  known : ∀ a ∈ s.arguments, settings.isPageArgument a.name = true ∨
    (∃ d ∈ field.arguments, d.name = a.name) ∨
    (settings.implicitFilters = true ∧ ∃ p ∈ target.fields, p.kind.isLeaf = true ∧ p.name = a.name)
  declared : ∀ d ∈ field.arguments, settings.isPageArgument d.name = false →
    ∀ v ∈ (s.argument? d.name).or d.default?, schema.Admits d.kind v
  implicit : settings.implicitFilters = true → ∀ p ∈ target.fields, p.kind.isLeaf = true →
    settings.isPageArgument p.name = false → field.argument? p.name = none →
    ∀ v ∈ s.argument? p.name, schema.Admits p.kind v
  page : ∀ name, settings.isPageArgument name = true →
    ∀ v ∈ (s.argument? name).or ((field.argument? name).bind (·.default?)), v.IsPageBound

section Arguments

variable {schema : Schema} {settings : Settings} {field : Field} {target : ObjectType}
  {s : Selection}

theorem Filter.exists_equality?_iff {c : Candidate} :
    (∃ e?, equality? schema field s c = .ok e?) ↔ ∀ v ∈ c.value? s, schema.Admits c.kind v := by
  unfold equality?
  cases c.value? s with
  | none => simp
  | some v =>
    simp only [map_eq_ok_iff, mapError_eq_ok_iff, Option.mem_some_iff, forall_eq']
    rw [← Schema.exists_literal?_iff]
    exact ⟨fun ⟨_, l?, h, _⟩ => ⟨l?, h⟩, fun ⟨l?, h⟩ => ⟨_, l?, h, rfl⟩⟩

/-- The filters of a selection are compiled exactly if its arguments are known and the values of the
candidates may be given. -/
theorem Filter.exists_ofSelection_iff {bound : String} :
    (∃ filters, (ofSelection schema settings bound field target s).result = .ok filters) ↔
      (∀ a ∈ s.arguments, settings.isPageArgument a.name = true ∨
        ∃ c ∈ Candidate.all settings field target, c.name = a.name) ∧
      ∀ c ∈ Candidate.all settings field target, ∀ v ∈ c.value? s, schema.Admits c.kind v := by
  have hvalues : (∃ found, (Candidate.all settings field target).mapM (equality? schema field s) =
      .ok found) ↔
      ∀ c ∈ Candidate.all settings field target, ∀ v ∈ c.value? s, schema.Admits c.kind v := by
    rw [exists_mapM_eq_ok_iff]
    exact forall₂_congr fun c _ => exists_equality?_iff
  rw [← hvalues]
  simp only [ofSelection_eq_ok_iff, unknown?_eq_none_iff, ← mapM_eq_ok_iff]
  exact ⟨fun ⟨_, hknown, found, hfound, _⟩ => ⟨hknown, found, hfound⟩,
    fun ⟨hknown, found, hfound⟩ => ⟨_, hknown, found, hfound, rfl⟩⟩

theorem Paging.exists_bound?_iff {name : String} :
    (∃ b?, bound? name field s = .ok b?) ↔
      ∀ v ∈ (s.argument? name).or ((field.argument? name).bind (·.default?)), v.IsPageBound := by
  simp only [bound?_eq_ok_iff, value?]
  generalize (s.argument? name).or ((field.argument? name).bind (·.default?)) = v?
  constructor
  · rintro ⟨b?, hbound⟩ v rfl
    cases hbound with
    | null => exact .null
    | var x => exact .var x
    | int hnonneg => exact .int hnonneg
  · intro h
    cases v? with
    | none => exact ⟨none, .absent⟩
    | some v =>
      cases h v rfl with
      | null => exact ⟨none, .null⟩
      | var x => exact ⟨_, .var x⟩
      | int hnonneg => exact ⟨_, .int hnonneg⟩

/-- An argument is known exactly if it is declared, or a leaf field of the target where the settings
allow to filter on these. -/
theorem Candidate.exists_mem_all_iff (h : (target.fields.map (·.name)).Nodup) {name : String}
    (hpage : settings.isPageArgument name = false) :
    (∃ c ∈ all settings field target, c.name = name) ↔
      (∃ d ∈ field.arguments, d.name = name) ∨
      (settings.implicitFilters = true ∧
        ∃ p ∈ target.fields, p.kind.isLeaf = true ∧ p.name = name) := by
  simp only [mem_all_iff h]
  constructor
  · rintro ⟨c, ⟨d, hd, -, rfl⟩ | ⟨himplicit, p, hp, hleaf, -, -, rfl⟩, rfl⟩
    · exact .inl ⟨d, hd, rfl⟩
    · exact .inr ⟨himplicit, p, hp, hleaf, rfl⟩
  · rintro (⟨d, hd, rfl⟩ | ⟨himplicit, p, hp, hleaf, rfl⟩)
    · exact ⟨_, .inl ⟨d, hd, hpage, rfl⟩, rfl⟩
    · -- A leaf field that is declared as an argument is known as that argument.
      cases hdeclared : field.argument? p.name with
      | none => exact ⟨_, .inr ⟨himplicit, p, hp, hleaf, hpage, hdeclared, rfl⟩, rfl⟩
      | some d =>
        have hname : d.name = p.name := by simpa using List.find?_some hdeclared
        have hd := List.mem_of_find?_eq_some hdeclared
        exact ⟨_, .inl ⟨d, hd, by rwa [hname], rfl⟩, hname⟩

/-- The filters and the page of a selection are compiled exactly if its arguments are right. -/
theorem Compilation.exists_arguments_iff {bound : String}
    (h : (target.fields.map (·.name)).Nodup) :
    ((∃ filters, (Filter.ofSelection schema settings bound field target s).result = .ok filters) ∧
      ∃ page, Paging.ofSelection settings field s = .ok page) ↔
      s.ArgumentsValid schema settings field target := by
  have hpage : (∃ page, Paging.ofSelection settings field s = .ok page) ↔
      (∃ b?, Paging.bound? settings.firstArgument field s = .ok b?) ∧
        ∃ b?, Paging.bound? settings.offsetArgument field s = .ok b? := by
    simp only [Paging.ofSelection_eq_ok_iff]
    exact ⟨fun ⟨page, hfirst, hoffset⟩ => ⟨⟨_, hfirst⟩, _, hoffset⟩,
      fun ⟨⟨first, hfirst⟩, offset, hoffset⟩ => ⟨⟨first, offset⟩, hfirst, hoffset⟩⟩
  rw [hpage, Filter.exists_ofSelection_iff]
  simp only [Paging.exists_bound?_iff]
  -- The compiler speaks of candidates and of two bounds, the judgement of the sources of both.
  constructor
  · rintro ⟨⟨hknown, hvalues⟩, hfirst, hoffset⟩
    refine ⟨fun a ha => ?_, fun d hd hname => ?_, fun himplicit p hp hleaf hname hnone => ?_,
      fun name hname => ?_⟩
    · by_cases hname : settings.isPageArgument a.name = true
      · exact .inl hname
      · have hcandidate := (hknown a ha).resolve_left hname
        rw [Bool.not_eq_true] at hname
        exact .inr ((Candidate.exists_mem_all_iff h hname).1 hcandidate)
    · exact hvalues _ ((Candidate.mem_all_iff h).2 (.inl ⟨d, hd, hname, rfl⟩))
    · have hvalue := hvalues _ ((Candidate.mem_all_iff h).2
        (.inr ⟨himplicit, p, hp, hleaf, hname, hnone, rfl⟩))
      simpa [Candidate.value?, Candidate.ofProperty] using hvalue
    · have hbound : name = settings.firstArgument ∨ name = settings.offsetArgument := by
        simpa [Settings.isPageArgument] using hname
      rcases hbound with rfl | rfl
      · exact hfirst
      · exact hoffset
  · intro harguments
    refine ⟨⟨fun a ha => ?_, fun c hc => ?_⟩, harguments.page _ (by simp [Settings.isPageArgument]),
      harguments.page _ (by simp [Settings.isPageArgument])⟩
    · cases hname : settings.isPageArgument a.name with
      | true => exact .inl rfl
      | false =>
        have hknown := (harguments.known a ha).resolve_left (by simp [hname])
        exact .inr ((Candidate.exists_mem_all_iff h hname).2 hknown)
    · rcases (Candidate.mem_all_iff h).1 hc with
        ⟨d, hd, hname, rfl⟩ | ⟨himplicit, p, hp, hleaf, hname, hnone, rfl⟩
      · exact harguments.declared d hd hname
      · have hvalue := harguments.implicit himplicit p hp hleaf hname hnone
        simpa [Candidate.value?, Candidate.ofProperty] using hvalue

end Arguments

/-! ### Selections -/

namespace Selection

/-- A selection is right at a depth below a node of a type. It names a field of the type. Something
is selected below it exactly if the field has a relation; then it does not stand too deep, its
arguments are right, and so are the selections below it for the type that the relation leads to. -/
inductive Valid (schema : Schema) (settings : Settings) : Nat → ObjectType → Selection → Prop
  | property {depth : Nat} {type : ObjectType} {s : Selection} {field : Field}
      (hfield : type.field? s.name = some field) (hrelation : field.relation?.isSome = false)
      (hbelow : s.selections = []) : Valid schema settings depth type s
  | related {depth : Nat} {type : ObjectType} {s : Selection} {field : Field}
      (hfield : type.field? s.name = some field) (hrelation : field.relation?.isSome = true)
      (hbelow : s.selections ≠ []) (hdepth : depth ≤ settings.maxDepth)
      (harguments : ∀ target ∈ schema.target? field, s.ArgumentsValid schema settings field target)
      (hselections : ∀ target ∈ schema.target? field, ∀ t ∈ s.selections,
        Valid schema settings (depth + 1) target t) : Valid schema settings depth type s

/-- A root selection is right. It names a field of the root type and selects something below it; its
arguments are right, and so are the selections below it. -/
structure ValidRoot (schema : Schema) (settings : Settings) (s : Selection) : Prop where
  selections_ne_nil : s.selections ≠ []
  exists_field : ∃ field, schema.root.field? s.name = some field ∧
    ∀ target ∈ schema.target? field, s.ArgumentsValid schema settings field target ∧
      ∀ t ∈ s.selections, t.Valid schema settings 2 target

end Selection

namespace Compilation

open Cypher

variable {schema : Schema} {settings : Settings} {scope : Scope}

/-- A selection that is compiled is right one level below the scope. -/
theorem valid_of_entry (hschema : schema.WellFormed) (s : Selection) {e : Entry}
    (h : (entry schema settings scope s).result = .ok e) :
    s.Valid schema settings (scope.depth + 1) scope.entity := by
  induction s using Selection.inductionOn generalizing scope e with
  | step s ih =>
    cases entry_eq_ok_iff.1 h with
    | property hfield hrelation hbelow => exact .property hfield (by simp [hrelation]) hbelow
    | @related field relation name target inner filters page map hfield hrelation hbelow hname
        htarget hinner hfilters hpage hmap =>
      have hnodup := hschema.nodup_fields target (Schema.mem_of_type? htarget).1
      obtain ⟨hdepth, rfl⟩ := Scope.enter_eq_ok_iff.1 hinner
      have hleads : schema.target? field = some target :=
        Schema.target?_eq_some_iff.2 ⟨name, hname, htarget⟩
      refine .related hfield (by simp [hrelation]) hbelow hdepth ?_ ?_
      -- There is one type that the field leads to.
      · intro other hother
        obtain rfl : target = other := by simpa [hleads] using hother
        exact (exists_arguments_iff hnodup).1 ⟨⟨filters, hfilters⟩, page, hpage⟩
      · intro other hother t ht
        obtain rfl : target = other := by simpa [hleads] using hother
        obtain ⟨e, -, he⟩ := exists_left_of_mem hmap.flip ht
        exact ih t ht he

/-- A selection that is right one level below the scope is compiled. -/
theorem exists_entry_of_valid (hschema : schema.WellFormed) (s : Selection)
    (hscope : scope.entity ∈ schema.types)
    (h : s.Valid schema settings (scope.depth + 1) scope.entity) :
    ∃ e, (entry schema settings scope s).result = .ok e := by
  induction s using Selection.inductionOn generalizing scope with
  | step s ih =>
    cases h with
    | property hfield hrelation hbelow =>
      exact ⟨_, entry_eq_ok_iff.2 (.property hfield (by simpa using hrelation) hbelow)⟩
    | @related _ _ _ field hfield hrelation hbelow hdepth harguments hselections =>
      -- The schema is well-formed, so there is a type that the relation leads to.
      obtain ⟨name, target, hname, htarget⟩ := hschema.relation_target scope.entity hscope field
        (List.mem_of_find?_eq_some hfield) hrelation
      obtain ⟨relation, hrelation⟩ := Option.isSome_iff_exists.1 hrelation
      obtain ⟨htype, -⟩ := Schema.mem_of_type? htarget
      have hleads : schema.target? field = some target :=
        Schema.target?_eq_some_iff.2 ⟨name, hname, htarget⟩
      obtain ⟨⟨filters, hfilters⟩, page, hpage⟩ :=
        (exists_arguments_iff (hschema.nodup_fields target htype)).2 (harguments target hleads)
      obtain ⟨inner, hinner⟩ : ∃ inner, scope.enter settings.maxDepth
          (scope.fresh (s.key ++ target.name)) target = .ok inner :=
        ⟨_, Scope.enter_eq_ok_iff.2 ⟨hdepth, rfl⟩⟩
      have hbelowOk : ∀ t ∈ s.selections, ∃ e, (entry schema settings inner t).result = .ok e := by
        intro t ht
        obtain ⟨-, rfl⟩ := Scope.enter_eq_ok_iff.1 hinner
        exact ih t ht htype (hselections target hleads t ht)
      obtain ⟨map, hmap⟩ := exists_mapM_eq_ok_iff.2 hbelowOk
      exact ⟨_, entry_eq_ok_iff.2 (.related hfield hrelation hbelow hname htarget hinner hfilters
        hpage (mapM_eq_ok_iff.1 hmap))⟩

theorem validRoot_of_statement (hschema : schema.WellFormed) {s : Selection} {stmt : Statement}
    (h : (statement schema settings s).result = .ok stmt) : s.ValidRoot schema settings := by
  obtain @⟨field, name, target, filters, page, map, hfield, hname, htarget, hbelow, hfilters, hpage,
    hmap⟩ := statement_eq_ok_iff.1 h
  have hnodup := hschema.nodup_fields target (Schema.mem_of_type? htarget).1
  have hleads : schema.target? field = some target :=
    Schema.target?_eq_some_iff.2 ⟨name, hname, htarget⟩
  refine ⟨hbelow, field, hfield, fun other hother => ?_⟩
  obtain rfl : target = other := by simpa [hleads] using hother
  refine ⟨(exists_arguments_iff hnodup).1 ⟨⟨filters, hfilters⟩, page, hpage⟩, fun t ht => ?_⟩
  obtain ⟨e, -, he⟩ := exists_left_of_mem hmap.flip ht
  exact valid_of_entry hschema t he

theorem exists_statement_of_validRoot (hschema : schema.WellFormed) {s : Selection}
    (h : s.ValidRoot schema settings) :
    ∃ stmt, (statement schema settings s).result = .ok stmt := by
  obtain ⟨hbelow, field, hfield, hvalid⟩ := h
  obtain ⟨name, target, hname, htarget⟩ :=
    hschema.root_target field (List.mem_of_find?_eq_some hfield)
  obtain ⟨htype, -⟩ := Schema.mem_of_type? htarget
  obtain ⟨harguments, hselections⟩ :=
    hvalid target (Schema.target?_eq_some_iff.2 ⟨name, hname, htarget⟩)
  obtain ⟨⟨filters, hfilters⟩, page, hpage⟩ :=
    (exists_arguments_iff (hschema.nodup_fields target htype)).2 harguments
  have hbelowOk : ∀ t ∈ s.selections,
      ∃ e, (entry schema settings (Scope.root s.key target) t).result = .ok e :=
    fun t ht => exists_entry_of_valid hschema t htype (hselections t ht)
  obtain ⟨map, hmap⟩ := exists_mapM_eq_ok_iff.2 hbelowOk
  exact ⟨_, statement_eq_ok_iff.2 (.intro hfield hname htarget hbelow hfilters hpage
    (mapM_eq_ok_iff.1 hmap))⟩

/-- The compiler succeeds on exactly the selections that are valid. -/
theorem statement_compiles_iff_valid {text : String} {schema : Schema}
    (hschema : (Schema.load text).result = .ok schema) (settings : Settings) (s : Selection) :
    (∃ stmt, (statement schema settings s).result = .ok stmt) ↔ s.ValidRoot schema settings := by
  have hwell := Schema.wellFormed_of_load hschema
  constructor
  · rintro ⟨stmt, h⟩
    exact validRoot_of_statement hwell h
  · exact exists_statement_of_validRoot hwell

/-- The friends of people, filtered by a name. -/
def friendsNamed (name : Value) : Selection :=
  ⟨none, "people", [], [⟨none, "friends", [⟨"name", name⟩], [⟨none, "name", [], []⟩]⟩]⟩

/-- A name is a string, and friends stand at depth two. -/
theorem statement_compiles_iff_valid_friends :
    ∃ schema, (Schema.load Schema.peopleText).result = .ok schema ∧
      (friendsNamed (.string "Bob")).ValidRoot schema {} ∧
      ¬ (friendsNamed (.int 3)).ValidRoot schema {} ∧
      ¬ (friendsNamed (.string "Bob")).ValidRoot schema { maxDepth := 1 } := by
  have hsome : ((Schema.load Schema.peopleText).result.toOption.map fun schema =>
      ((statement schema {} (friendsNamed (.string "Bob"))).result.toOption.isSome,
        (statement schema {} (friendsNamed (.int 3))).result.toOption.isSome,
        (statement schema { maxDepth := 1 } (friendsNamed (.string "Bob"))).result.toOption.isSome))
      = some (true, false, false) := by
    decide +kernel
  obtain ⟨schema, hschema, heq⟩ := Option.map_eq_some_iff.1 hsome
  simp only [Prod.mk.injEq, Option.isSome_iff_exists, Option.isSome_eq_false_iff,
    Option.isNone_iff_eq_none, toOption_eq_some_iff] at heq
  obtain ⟨hright, hwrong, hdeep⟩ := heq
  have hload := toOption_eq_some_iff.1 hschema
  refine ⟨schema, hload, (statement_compiles_iff_valid hload _ _).1 hright, fun hvalid => ?_,
    fun hvalid => ?_⟩
  · obtain ⟨stmt, hstmt⟩ := (statement_compiles_iff_valid hload _ _).2 hvalid
    rw [hstmt] at hwrong
    cases hwrong
  · obtain ⟨stmt, hstmt⟩ := (statement_compiles_iff_valid hload _ _).2 hvalid
    rw [hstmt] at hdeep
    cases hdeep

end Compilation

end GraphQuery
